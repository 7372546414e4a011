import EasyNews.Verified.Deliveries

/-! # Articles per group

Both commands look records up by id alone, so the first group to mention an id owns its record.
-/

namespace EasyNews.Verified.GroupArticles

open FirstMention Realm ArticleStore Deliveries

section Runs

variable (dateFormatter : Text → Text → Option Date) (groups : List NewsGroup)

/-- A look-up of `articleId` for `group` gives a record of both. -/
def Returns (realm : Realm) (group : GroupRef) (articleId : Text) : Prop :=
  let found := realm.findOrCreateGroupArticle group articleId
  found.2.entries[found.1.1]? = some (some group, articleId)

/-- Nobody but `group` mentioned the id first. -/
def OwnedBy (run : List Delivery) (group : GroupRef) (articleId : Text) : Prop :=
  ∀ request, (requested groups run).find? (·.2 = articleId) = some request → request.1 = group

/-- No id is delivered for two groups. -/
def NoSharedId (run : List Delivery) : Prop :=
  ∀ first ∈ requested groups run, ∀ second ∈ requested groups run,
    first.2 = second.2 → first.1 = second.1

/-- Articles are kept per group: look-ups return the group's own record, every delivered id has
    one, and a header leaves the records of other groups alone. -/
structure KeptPerGroup (run : List Delivery) : Prop where
  lookups : ∀ request ∈ requested groups run,
    Returns (reached dateFormatter groups run) request.1 request.2
  recorded : ∀ request ∈ requested groups run,
    (some request.1, request.2) ∈ (reached dateFormatter groups run).entries
  headers : ∀ front groupId articleId header, front ++ [.articleHeader groupId articleId header] <+: run →
    ∀ (group : GroupRef) (article : ArticleRef) (record : NewsGroupArticle),
      (reached dateFormatter groups front).findGroupById groupId = some group →
      (reached dateFormatter groups front).articles[article]? = some record → record.group ≠ some group →
        (reached dateFormatter groups (front ++ [.articleHeader groupId articleId header])).articles[
          article]? = some record

end Runs

variable {dateFormatter : Text → Text → Option Date} {groups : List NewsGroup}

/-! ## Kept per group -/

theorem mem_entries_iff {seen : List (GroupRef × Text)} {realm : Realm}
    (catalogued : Catalogued groups seen realm) (group : GroupRef) (articleId : Text) :
    (some group, articleId) ∈ realm.entries ↔
      seen.find? (·.2 = articleId) = some (group, articleId) := by
  rw [catalogued.entries]
  constructor
  · intro member
    obtain ⟨request, kept, same⟩ := List.mem_map.mp member
    cases same
    exact ((mem_firsts_iff Prod.snd).mp kept).2
  · intro found
    exact List.mem_map.mpr ⟨(group, articleId), (mem_firsts_iff Prod.snd).mpr ⟨by simp, found⟩, rfl⟩

/-- A look-up gives the group's own record unless another group mentioned the id first. -/
theorem returns_iff {seen : List (GroupRef × Text)} {realm : Realm}
    (catalogued : Catalogued groups seen realm) (group : GroupRef) (articleId : Text) :
    Returns realm group articleId ↔
      ∀ request, seen.find? (·.2 = articleId) = some request → request.1 = group := by
  obtain ⟨owner, entry, new⟩ := findOrCreate_entry catalogued.unique group articleId
  have returns : Returns realm group articleId ↔ owner = some group := by
    unfold Returns
    dsimp only
    rw [entry]
    simp
  rw [returns]
  by_cases known : articleId ∈ realm.articleIds
  · -- the record was there before, with the group that mentioned the id first
    obtain ⟨record, member, rfl⟩ := List.mem_map.mp known
    obtain ⟨article, found⟩ := List.mem_iff_getElem?.mp member
    rw [findOrCreateGroupArticle_found catalogued.unique group found] at entry
    have inEntries : (owner, record.id) ∈ realm.entries := List.mem_iff_getElem?.mpr ⟨article, entry⟩
    rw [catalogued.entries] at inEntries
    obtain ⟨request, kept, same⟩ := List.mem_map.mp inEntries
    obtain ⟨ownerIs, idIs⟩ := Prod.mk.inj same
    have first := ((mem_firsts_iff Prod.snd).mp kept).2
    rw [idIs] at first
    rw [← ownerIs, first]
    simp
  · -- a new record belongs to the group that asks for it
    have unmentioned : seen.find? (·.2 = articleId) = none := by
      rw [catalogued.mem_articleIds, List.mem_map] at known
      rw [List.find?_eq_none]
      intro request member same
      exact known ⟨request, member, by simpa using same⟩
    simp [new known, unmentioned]

theorem findOrCreate_getElem? {realm : Realm} (unique : realm.UniqueIds) (group : GroupRef)
    (articleId : Text) {article : ArticleRef} {record : NewsGroupArticle}
    (found : realm.articles[article]? = some record) :
    (realm.findOrCreateGroupArticle group articleId).2.articles[article]? = some record := by
  by_cases known : articleId ∈ realm.articleIds
  · obtain ⟨other, member, rfl⟩ := List.mem_map.mp known
    obtain ⟨_, there⟩ := List.mem_iff_getElem?.mp member
    rw [findOrCreateGroupArticle_found unique group there]
    exact found
  · rw [findOrCreateGroupArticle_new group known, createGroupArticle_articles]
    exact List.getElem?_append_left (List.getElem?_eq_some_iff.mp found).1 |>.trans found

/-- A header whose look-up gives the group's own record changes no other group's. -/
theorem writeArticleHeader_frame {realm : Realm} (unique : realm.UniqueIds) {group : GroupRef}
    {articleId : Text} (own : Returns realm group articleId) (header : Header) {article : ArticleRef}
    {record : NewsGroupArticle} (found : realm.articles[article]? = some record)
    (foreign : record.group ≠ some group) :
    (ArticleGetMultipleHeadersCommand.writeArticleHeader dateFormatter realm group articleId
      header).2.articles[article]? = some record := by
  have kept := findOrCreate_getElem? unique group articleId found
  have different : (realm.findOrCreateGroupArticle group articleId).1.1 ≠ article := by
    rintro rfl
    unfold Returns at own
    simp only [Realm.entries, List.getElem?_map, kept, Option.map_some, Option.some.injEq, Prod.mk.injEq] at own
    exact foreign own.1
  simp only [ArticleGetMultipleHeadersCommand.writeArticleHeader, modifyArticle, List.getElem?_modify, kept]
  simp [different]

theorem NoSharedId.front {run front : List Delivery} (noSharedId : NoSharedId groups run)
    (before : front <+: run) : NoSharedId groups front := by
  obtain ⟨back, rfl⟩ := before
  intro first inFirst second inSecond
  simp only [NoSharedId, requested, List.flatMap_append] at noSharedId inFirst inSecond
  exact noSharedId first (List.mem_append_left _ inFirst) second (List.mem_append_left _ inSecond)

/-- Without a shared id the first mention of an id is by the group that asks. -/
theorem NoSharedId.ownedBy {run : List Delivery} (noSharedId : NoSharedId groups run)
    {request : GroupRef × Text} (member : request ∈ requested groups run) :
    OwnedBy groups run request.1 request.2 := by
  intro first found
  exact noSharedId first (List.mem_of_find?_eq_some found) request member
    (by simpa using List.find?_some found)

theorem KeptPerGroup.of_noSharedId {run : List Delivery} (noSharedId : NoSharedId groups run) :
    KeptPerGroup dateFormatter groups run := by
  have catalogued := reached_catalogued dateFormatter groups run
  refine ⟨?_, ?_, ?_⟩
  · intro request member
    exact (returns_iff catalogued _ _).mpr (noSharedId.ownedBy member)
  · intro request member
    rw [mem_entries_iff catalogued]
    cases found : (requested groups run).find? (·.2 = request.2) with
    | none =>
      have missed := List.find?_eq_none.mp found request member
      simp at missed
    | some first =>
      have sameId : first.2 = request.2 := by simpa using List.find?_some found
      rw [← sameId, ← noSharedId.ownedBy member first found]
  · intro front groupId articleId header before group article record known found foreign
    obtain ⟨rbox, realm, later⟩ := reached_append dateFormatter groups front (.articleHeader groupId articleId header)
    have cataloguedFront := reached_catalogued dateFormatter groups front
    -- the header is itself a mention of the id by its group
    have asked : (group, articleId) ∈ requested groups (front ++ [.articleHeader groupId articleId header]) := by
      rw [requested_append, requests, ← cataloguedFront.findGroupById, known]
      simp [requestsOf]
    rw [← realm] at cataloguedFront known found
    rw [later, deliver_articleHeader_found known]
    refine writeArticleHeader_frame cataloguedFront.unique ?_ header found foreign
    rw [returns_iff cataloguedFront]
    intro first firstFound
    have inFront := List.mem_of_find?_eq_some firstFound
    refine (noSharedId.front before) first ?_ (group, articleId) asked (by simpa using List.find?_some firstFound)
    rw [requested_append]
    exact List.mem_append_left _ inFront

/-- Look-ups: the group that mentioned an id first owns it. Runs: articles are kept per group
    exactly if no id is delivered for two groups. -/
theorem articles_kept_per_group (dateFormatter : Text → Text → Option Date) (groups : List NewsGroup)
    (run : List Delivery) :
    (∀ group articleId, Returns (reached dateFormatter groups run) group articleId ↔
      OwnedBy groups run group articleId) ∧
    ((∀ front, front <+: run → KeptPerGroup dateFormatter groups front) ↔ NoSharedId groups run) := by
  have catalogued := reached_catalogued dateFormatter groups run
  refine ⟨fun group articleId => returns_iff catalogued group articleId, ?_, ?_⟩
  · intro kept first inFirst second inSecond same
    have firstOwns := (mem_entries_iff catalogued _ _).mp ((kept run (List.prefix_refl run)).recorded first inFirst)
    have secondOwns := (mem_entries_iff catalogued _ _).mp ((kept run (List.prefix_refl run)).recorded second inSecond)
    rw [same, secondOwns] at firstOwns
    exact (Prod.mk.inj (Option.some.inj firstOwns)).1.symm
  · intro noSharedId front before
    exact KeptPerGroup.of_noSharedId (noSharedId.front before)

/-- Article 1 of the second group is taken for article 1 of the first. -/
theorem number_is_not_kept_per_group :
    ¬ KeptPerGroup (fun _ _ => none) twoGroups
      [.articles 0 "alt.a".toList ["1".toList], .articles 1 "alt.b".toList ["1".toList]] := by
  intro kept
  have recorded := kept.recorded (1, "1".toList) (by decide)
  revert recorded
  decide

end EasyNews.Verified.GroupArticles
