import Mathlib.Data.List.Dedup
import EasyNews.Verified.Deliveries

/-! # The list of a group

`findOrCreateGroupArticle` appends a new record to the list of its group, and so does the command
that lists ids: an id that is listed first stands there twice.
-/

namespace EasyNews.Verified.GroupList

open FirstMention Realm ArticleStore Deliveries

variable {groups : List NewsGroup}

/-- Every record of the group is in the group's list, once, and nothing else is. -/
def ListMatches (realm : Realm) (group : GroupRef) : Prop :=
  ∀ article, (realm.groupArticles group).count article =
    if (realm.articles[article]?.bind NewsGroupArticle.group) = some group then 1 else 0

/-- The delivery is for `group`. -/
def IsFor (groups : List NewsGroup) (group : GroupRef) : Delivery → Prop
  | .articles other _ _ => other = group
  | .articleHeader groupId _ _ => groups.findIdx? (·.id = some groupId) = some group

/-- A header comes first for every id that is listed. -/
def HeaderFirst (groups : List NewsGroup) (run : List Delivery) : Prop :=
  ∀ front group groupName articleIds, front ++ [.articles group groupName articleIds] <+: run →
    ∀ articleId ∈ articleIds, articleId ∈ (requested groups front).map Prod.snd

/-- All records belong to `group`, and its list holds no reference to come. -/
structure Single (group : GroupRef) (realm : Realm) : Prop where
  owned : ∀ entry ∈ realm.entries, entry.1 = some group
  bounded : ∀ article : Nat, article ∈ realm.groupArticles group → article < realm.articles.length

theorem Single.listMatches_iff {group : GroupRef} {realm : Realm} (single : Single group realm) :
    ListMatches realm group ↔ ∀ article : Nat, (realm.groupArticles group).count article =
      if article < realm.articles.length then 1 else 0 := by
  have owner : ∀ article : Nat, (realm.articles[article]?.bind NewsGroupArticle.group) = some group ↔
      article < realm.articles.length := by
    intro article
    cases found : realm.articles[article]? with
    | none => simpa using List.getElem?_eq_none_iff.mp found
    | some record =>
      have inside := (List.getElem?_eq_some_iff.mp found).1
      have entry := single.owned (record.group, record.id)
        (List.mem_map_of_mem (List.mem_of_getElem? found))
      simpa [inside] using entry
  simp only [ListMatches, owner]

theorem count_nextRefs (realm : Realm) (count copies article : Nat) :
    ((nextRefs realm count).flatMap (List.replicate copies)).count article =
      if realm.articles.length ≤ article ∧ article < realm.articles.length + count then copies else 0 := by
  induction count with
  | zero =>
    rw [if_neg (by omega)]
    simp [nextRefs]
  | succ count inductionHypothesis =>
    rw [nextRefs, List.range'_1_concat, List.flatMap_append, List.count_append]
    rw [nextRefs] at inductionHypothesis
    rw [inductionHypothesis]
    simp only [List.flatMap_cons, List.flatMap_nil, List.append_nil, List.count_replicate, beq_iff_eq]
    split <;> split <;> split <;> omega

theorem Single.grown {group : GroupRef} {realm later : Realm} (single : Single group realm)
    (known : group < realm.groups.length) {articleIds : List Text} {copies : Nat}
    (grown : Grown realm group articleIds copies later) : Single group later := by
  refine ⟨?_, ?_⟩
  · intro entry member
    rw [grown.entries, List.mem_append] at member
    rcases member with old | new
    · exact single.owned entry old
    · obtain ⟨request, kept, rfl⟩ := List.mem_map.mp new
      obtain ⟨articleId, -, rfl⟩ := List.mem_map.mp (mem_of_mem_firsts _ kept)
      rfl
  · intro article member
    rw [grown.listed known, List.mem_append, List.mem_flatMap] at member
    rw [grown.articles_length]
    rcases member with old | ⟨next, isNext, same⟩
    · exact Nat.lt_of_lt_of_le (single.bounded article old) (Nat.le_add_right _ _)
    · rw [nextRefs, List.mem_range'_1] at isNext
      rw [List.eq_of_mem_replicate same]
      exact isNext.2

/-- The list still matches exactly if it did and each new record joined it once. -/
theorem Single.listMatches_grown {group : GroupRef} {realm later : Realm} (single : Single group realm)
    (known : group < realm.groups.length) {articleIds : List Text} {copies : Nat}
    (grown : Grown realm group articleIds copies later) :
    ListMatches later group ↔
      ListMatches realm group ∧ (copies = 1 ∨ fresh realm (requestsOf group articleIds) = []) := by
  rw [(single.grown known grown).listMatches_iff, single.listMatches_iff, grown.articles_length,
    grown.listed known]
  simp only [List.count_append, count_nextRefs]
  have unlisted : ∀ article : Nat, realm.articles.length ≤ article →
      (realm.groupArticles group).count article = 0 := by
    intro article outside
    rw [List.count_eq_zero]
    intro member
    exact absurd (single.bounded article member) (Nat.not_lt.mpr outside)
  rw [← List.length_eq_zero_iff]
  constructor
  · intro matching
    refine ⟨fun article => ?_, ?_⟩
    · have here := matching article
      by_cases inside : article < realm.articles.length
      · rw [if_neg (by omega), if_pos (by omega)] at here
        rw [if_pos inside]
        omega
      · rw [if_neg inside]
        exact unlisted article (by omega)
    · -- were a new record listed twice, the first of them would already break the count
      by_contra both
      have first := matching realm.articles.length
      rw [unlisted _ (Nat.le_refl _), if_pos (by omega), if_pos (by omega)] at first
      omega
  · rintro ⟨matching, once⟩ article
    rw [matching article]
    rcases once with rfl | none
    · split <;> split <;> split <;> omega
    · have empty : ¬ (realm.articles.length ≤ article ∧ article < realm.articles.length + 0) := by omega
      rw [none, if_neg empty, Nat.add_zero, Nat.add_zero]

/-! ## When the list matches -/

theorem fresh_eq_nil_iff {seen : List (GroupRef × Text)} {realm : Realm}
    (catalogued : Catalogued groups seen realm) (group : GroupRef) (articleIds : List Text) :
    fresh realm (requestsOf group articleIds) = [] ↔
      ∀ articleId ∈ articleIds, articleId ∈ seen.map Prod.snd := by
  have keys : ∀ articleId, articleId ∈ (fresh realm (requestsOf group articleIds)).map Prod.snd ↔
      articleId ∈ articleIds ∧ articleId ∉ seen.map Prod.snd := by
    intro articleId
    rw [fresh, mem_keys_firsts, catalogued.mem_articleIds]
    simp [requestsOf]
  constructor
  · intro none articleId member
    by_contra unseen
    have new := (keys articleId).mpr ⟨member, unseen⟩
    simp [none] at new
  · intro seenAll
    rw [← List.map_eq_nil_iff, List.eq_nil_iff_forall_not_mem]
    intro articleId new
    obtain ⟨member, unseen⟩ := (keys articleId).mp new
    exact unseen (seenAll articleId member)

theorem headerFirst_append (front : List Delivery) (delivery : Delivery) :
    HeaderFirst groups (front ++ [delivery]) ↔ HeaderFirst groups front ∧
      ∀ group groupName articleIds, delivery = .articles group groupName articleIds →
        ∀ articleId ∈ articleIds, articleId ∈ (requested groups front).map Prod.snd := by
  constructor
  · intro headerFirst
    refine ⟨fun before group groupName articleIds earlier => ?_, ?_⟩
    · exact headerFirst before group groupName articleIds (earlier.trans (List.prefix_append _ _))
    · rintro group groupName articleIds rfl
      exact headerFirst front group groupName articleIds (List.prefix_refl _)
  · rintro ⟨earlier, last⟩ before group groupName articleIds inside
    rcases List.prefix_concat_iff.mp inside with same | inFront
    · obtain ⟨rfl, single⟩ := List.append_inj' same rfl
      exact last group groupName articleIds (by simpa [eq_comm] using single)
    · exact earlier before group groupName articleIds inFront

theorem deliver_listMatches (dateFormatter : Text → Text → Option Date) {seen : List (GroupRef × Text)}
    {rbox : ReaderBox} {group : GroupRef}
    (catalogued : Catalogued groups seen rbox.realm) (single : Single group rbox.realm)
    (known : group < rbox.realm.groups.length) {delivery : Delivery} (isFor : IsFor groups group delivery) :
    Single group (deliver dateFormatter rbox delivery).realm ∧
      (deliver dateFormatter rbox delivery).realm.groups.length = rbox.realm.groups.length ∧
      (ListMatches (deliver dateFormatter rbox delivery).realm group ↔ ListMatches rbox.realm group ∧
        ∀ other groupName articleIds, delivery = .articles other groupName articleIds →
          ∀ articleId ∈ articleIds, articleId ∈ seen.map Prod.snd) := by
  -- `addArticleIds` lists a new record twice, a header lists it once
  cases delivery with
  | articles other groupName articleIds =>
    cases isFor
    have grown := deliver_articles_grown dateFormatter catalogued.unique group groupName articleIds
    refine ⟨single.grown known grown, grown.groups_length, ?_⟩
    rw [single.listMatches_grown known grown, fresh_eq_nil_iff catalogued]
    simp
  | articleHeader groupId articleId header =>
    have found : rbox.realm.findGroupById groupId = some group := by
      rw [catalogued.findGroupById]
      exact isFor
    rw [deliver_articleHeader_found found]
    have grown := writeArticleHeader_grown dateFormatter catalogued.unique group articleId header
    refine ⟨single.grown known grown, grown.groups_length, ?_⟩
    rw [single.listMatches_grown known grown]
    simp

theorem reached_listMatches (dateFormatter : Text → Text → Option Date) {group : GroupRef}
    {record : NewsGroup} (known : groups[group]? = some record) (empty : record.articles = [])
    (run : List Delivery) (isFor : ∀ delivery ∈ run, IsFor groups group delivery) :
    Single group (reached dateFormatter groups run) ∧
      group < (reached dateFormatter groups run).groups.length ∧
      (ListMatches (reached dateFormatter groups run) group ↔ HeaderFirst groups run) := by
  -- over the deliveries from the front, carrying that the group alone owns the records
  induction run using List.reverseRecOn with
  | nil =>
    have nothing : (reached dateFormatter groups []).groupArticles group = [] := by
      simp [reached, groupArticles, known, empty]
    refine ⟨⟨?_, ?_⟩, (List.getElem?_eq_some_iff.mp known).1, ?_⟩
    · intro entry member
      cases member
    · intro article member
      rw [nothing] at member
      cases member
    · constructor
      · rintro - front group groupName articleIds inside
        have short := inside.length_le
        simp at short
      · intro _ article
        rw [nothing]
        rfl
  | append_singleton front delivery inductionHypothesis =>
    obtain ⟨single, inside, matching⟩ := inductionHypothesis fun earlier member =>
      isFor earlier (List.mem_append_left _ member)
    have catalogued := reached_catalogued dateFormatter groups front
    obtain ⟨rbox, realm, later⟩ := reached_append dateFormatter groups front delivery
    rw [← realm] at single inside matching catalogued
    obtain ⟨singleLater, sameLength, step⟩ := deliver_listMatches dateFormatter catalogued single
      inside (isFor delivery (by simp))
    rw [later, sameLength, step, matching, headerFirst_append]
    exact ⟨singleLater, inside, Iff.rfl⟩

theorem length_groupArticles {seen : List (GroupRef × Text)} {realm : Realm} {group : GroupRef}
    (catalogued : Catalogued groups seen realm) (single : Single group realm)
    (matching : ListMatches realm group) :
    (realm.groupArticles group).length = (seen.map Prod.snd).dedup.length := by
  have counts := single.listMatches_iff.mp matching
  have listed : (realm.groupArticles group).Perm (List.range realm.articles.length) := by
    rw [List.perm_iff_count]
    intro article
    rw [counts article, List.nodup_range.count]
    simp
  have ids : realm.articleIds.Perm (seen.map Prod.snd).dedup := by
    rw [List.perm_ext_iff_of_nodup catalogued.unique (List.nodup_dedup _)]
    intro articleId
    rw [catalogued.mem_articleIds, List.mem_dedup]
  rw [listed.length_eq, List.length_range, ← ids.length_eq, articleIds, List.length_map]

/-- The group's list matches its records, and its count the ids delivered, exactly if every id
    that is listed has had its header before. (The ids are without quotes and backslashes.) -/
theorem group_list_matches_records (dateFormatter : Text → Text → Option Date) (groups : List NewsGroup)
    (group : GroupRef) (record : NewsGroup) (known : groups[group]? = some record)
    (empty : record.articles = []) (run : List Delivery) (isFor : ∀ delivery ∈ run, IsFor groups group delivery) :
    (ListMatches (reached dateFormatter groups run) group ∧
        ((reached dateFormatter groups run).groupArticles group).length =
          ((requested groups run).map Prod.snd).dedup.length) ↔
      HeaderFirst groups run := by
  obtain ⟨single, -, matching⟩ := reached_listMatches dateFormatter known empty run isFor
  rw [← matching]
  constructor
  · exact And.left
  · intro listMatches
    exact ⟨listMatches, length_groupArticles (reached_catalogued dateFormatter groups run) single listMatches⟩

/-- A header, and then its article among those that are listed. -/
def headerThenList : List Delivery := [.articleHeader "A".toList "1".toList ∅, .articles 0 "alt.a".toList ["1".toList]]

theorem headerFirst_headerThenList : HeaderFirst twoGroups headerThenList := by
  have start : HeaderFirst twoGroups [] := by
    intro front group groupName articleIds inside
    simpa using inside.length_le
  have header : HeaderFirst twoGroups [.articleHeader "A".toList "1".toList ∅] :=
    (headerFirst_append [] _).mpr ⟨start, fun _ _ _ same => by cases same⟩
  refine (headerFirst_append [_] _).mpr ⟨header, fun group groupName articleIds same articleId member => ?_⟩
  cases same
  rw [List.mem_singleton.mp member]
  decide

theorem group_list_matches_records_one_header :
    ListMatches (reached (fun _ _ => none) twoGroups headerThenList) 0 ∧
      ((reached (fun _ _ => none) twoGroups headerThenList).groupArticles 0).length =
        ((requested twoGroups headerThenList).map Prod.snd).dedup.length := by
  have isFor : ∀ delivery ∈ headerThenList, IsFor twoGroups 0 delivery := by
    simp only [headerThenList, List.mem_cons, List.not_mem_nil, or_false, forall_eq_or_imp, forall_eq]
    exact ⟨rfl, rfl⟩
  exact (group_list_matches_records (fun _ _ => none) twoGroups 0 _ rfl rfl headerThenList isFor).mpr
    headerFirst_headerThenList

/-- An id that is listed first is counted twice. -/
theorem listed_article_is_counted_twice :
    ¬ ListMatches (reached (fun _ _ => none) twoGroups [.articles 0 "alt.a".toList ["1".toList]]) 0 := by
  intro matching
  have count := matching 0
  revert count
  decide

end EasyNews.Verified.GroupList
