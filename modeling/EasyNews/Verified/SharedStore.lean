import EasyNews.MainWindow
import EasyNews.Verified.ArticleStore
import EasyNews.Verified.GroupList
import EasyNews.Verified.GroupRefresh

/-! # The store the commands share

What the write transactions of all commands keep: names and ids of the groups and ids of the articles
are distinct, every article has a group, and stands in the list of its group twice. Nothing is ever
taken away or renamed (`Continues`).
-/

namespace EasyNews.Verified.SharedStore

open FirstMention Realm ArticleStore KeyedRecords GroupRefresh ListGroupsCommand

/-! ## What is never taken back -/

/-- What a group is found by. -/
def identity (group : NewsGroup) : Option Text × Text := (group.id, group.name)

/-- Groups and articles have been added, and no name, id or group of an article has changed. -/
structure Continues (realm later : Realm) : Prop where
  groups : realm.groups.map identity <+: later.groups.map identity
  entries : realm.entries <+: later.entries

theorem Continues.refl (realm : Realm) : Continues realm realm := ⟨List.prefix_refl _, List.prefix_refl _⟩

theorem Continues.trans {realm middle later : Realm} (first : Continues realm middle)
    (second : Continues middle later) : Continues realm later :=
  ⟨first.groups.trans second.groups, first.entries.trans second.entries⟩

theorem continues_of_map {realm later : Realm} (groups : later.groups.map identity = realm.groups.map identity)
    (entries : realm.entries <+: later.entries) : Continues realm later :=
  ⟨groups ▸ List.prefix_refl _, entries⟩

section Continued

variable {realm later : Realm} (continues : Continues realm later)

include continues

theorem Continues.group {group : GroupRef} {record : NewsGroup} (here : realm.groups[group]? = some record) :
    ∃ other, later.groups[group]? = some other ∧ other.id = record.id ∧ other.name = record.name := by
  obtain ⟨more, joined⟩ := continues.groups
  have mapped : (realm.groups.map identity)[group]? = some (identity record) := by simp [here]
  have there : (later.groups.map identity)[group]? = some (identity record) := by
    rw [← joined, List.getElem?_append_left (List.getElem?_eq_some_iff.mp mapped).1, mapped]
  rw [List.getElem?_map] at there
  obtain ⟨other, isOther, same⟩ := Option.map_eq_some_iff.mp there
  obtain ⟨sameId, sameName⟩ := Prod.mk.inj same
  exact ⟨other, isOther, sameId, sameName⟩

theorem Continues.groups_length : realm.groups.length ≤ later.groups.length := by
  have shorter := continues.groups.length_le
  simpa using shorter

theorem Continues.findGroupById {groupId : Text} {group : GroupRef} (found : realm.findGroupById groupId = some group) :
    later.findGroupById groupId = some group := by
  have mapped : ∀ realm : Realm, realm.findGroupById groupId =
      (realm.groups.map identity).findIdx? (·.1 = some groupId) := by
    intro realm
    rw [List.findIdx?_map]
    rfl
  obtain ⟨more, joined⟩ := continues.groups
  rw [mapped] at found
  rw [mapped, ← joined, List.findIdx?_append, found]
  rfl

theorem Continues.articleIds_eq :
    later.articleIds = realm.articleIds ++ later.articleIds.drop realm.articles.length := by
  obtain ⟨more, joined⟩ := continues.entries
  have ids : later.articleIds = realm.articleIds ++ more.map Prod.snd := by
    rw [articleIds_eq_entries, ← joined, List.map_append, ← articleIds_eq_entries]
  have length : realm.articleIds.length = realm.articles.length := by simp [articleIds]
  rw [ids, ← length, List.drop_left]

theorem Continues.entry {entry : Option GroupRef × Text} (member : entry ∈ realm.entries) : entry ∈ later.entries :=
  continues.entries.subset member

end Continued

/-! ## What the transactions keep -/

/-- An article's place in the list of its group, counted. -/
structure StoreSound (supply : Nat → Drawn) (store : Store) : Prop where
  names : (store.realm.groups.map NewsGroup.name).Nodup
  ids : (store.realm.groups.map NewsGroup.id).Nodup
  drawn : ∀ group ∈ store.realm.groups, ∃ groupId, group.id = some groupId ∧
    ∀ place, store.drawn ≤ place → (supply place).uuidString ≠ groupId
  articleIds : store.realm.UniqueIds
  owned : ∀ entry ∈ store.realm.entries, ∃ group < store.realm.groups.length, entry.1 = some group
  listed : ∀ group article : Nat, (store.realm.groupArticles group).count article =
    if (store.realm.entries[article]?).bind Prod.fst = some group then 2 else 0

theorem storeSound_empty (supply : Nat → Drawn) : StoreSound supply { realm := ⟨[], []⟩ } where
  names := List.nodup_nil
  ids := List.nodup_nil
  drawn _ member := by cases member
  articleIds := List.nodup_nil
  owned _ member := by cases member
  listed _ _ := rfl

/-! ### A group -/

/-- What does not look at the written fields is the same for an old record, and new for a new one. -/
theorem writeGroup_map {β : Type} (project : NewsGroup → β)
    (ignores : ∀ written record, project (refresh written (some record)) = project record) {realm : Realm}
    (unique : (realm.groups.map NewsGroup.name).Nodup) (written : NewsGroup × Drawn) :
    (writeGroup realm written).groups.map project =
      if written.1.name ∈ realm.groups.map NewsGroup.name then realm.groups.map project
      else realm.groups.map project ++ [project (refresh written none)] := by
  rw [(writeGroup_groups realm written).1]
  split
  · rename_i known
    obtain ⟨place, record, here, same⟩ := exists_place NewsGroup.name known
    rw [← same, upsert_known NewsGroup.name unique here]
    apply List.ext_getElem?
    intro other
    rw [List.getElem?_map, List.getElem?_map, List.getElem?_modify]
    split
    · cases realm.groups[other]? with
      | none => rfl
      | some record => simp [ignores]
    · simp
  · rename_i unknown
    rw [upsert_unknown NewsGroup.name unknown, List.map_append, List.map_singleton]

theorem writeGroup_entries (realm : Realm) (written : NewsGroup × Drawn) :
    (writeGroup realm written).entries = realm.entries := by
  rw [entries, (writeGroup_groups realm written).2, entries]

theorem groupArticles_eq (realm : Realm) (group : GroupRef) :
    realm.groupArticles group = ((realm.groups.map NewsGroup.articles)[group]?).getD [] := by
  rw [groupArticles, List.getElem?_map]

theorem writeGroup_groupArticles {realm : Realm} (unique : (realm.groups.map NewsGroup.name).Nodup)
    (written : NewsGroup × Drawn) (group : GroupRef) :
    (writeGroup realm written).groupArticles group = realm.groupArticles group := by
  have ignores : ∀ (written : NewsGroup × Drawn) record,
      (refresh written (some record)).articles = record.articles := fun _ _ => rfl
  rw [groupArticles_eq, groupArticles_eq, writeGroup_map _ ignores unique]
  split
  · rfl
  · by_cases inside : group < (realm.groups.map NewsGroup.articles).length
    · rw [List.getElem?_append_left inside]
    · have behind : (realm.groups.map NewsGroup.articles).length ≤ group := Nat.le_of_not_lt inside
      rw [List.getElem?_append_right behind, List.getElem?_eq_none behind]
      cases group - (realm.groups.map NewsGroup.articles).length <;> rfl

theorem writeGroup_continues {realm : Realm} (unique : (realm.groups.map NewsGroup.name).Nodup)
    (written : NewsGroup × Drawn) : Continues realm (writeGroup realm written) where
  groups := by
    have ignores : ∀ (written : NewsGroup × Drawn) record,
        identity (refresh written (some record)) = identity record := fun _ _ => rfl
    rw [writeGroup_map _ ignores unique]
    split
    · exact List.prefix_refl _
    · exact List.prefix_append _ _
  entries := by
    rw [writeGroup_entries]

variable {env : Environment}

theorem StoreSound.writeGroup (supplied : Function.Injective fun place => (env.supply place).uuidString)
    {store : Store} (sound : StoreSound env.supply store) (group : NewsGroup) :
    StoreSound env.supply
      ⟨ListGroupsCommand.writeGroup store.realm (group, env.supply store.drawn), store.drawn + 1⟩ := by
  let written := (group, env.supply store.drawn)
  have fresh : some (env.supply store.drawn).uuidString ∉ store.realm.groups.map NewsGroup.id := by
    intro member
    obtain ⟨record, inside, same⟩ := List.mem_map.mp member
    obtain ⟨groupId, isId, later⟩ := sound.drawn record inside
    rw [isId] at same
    exact later store.drawn (Nat.le_refl _) (Option.some.inj same).symm
  have names := writeGroup_map NewsGroup.name (fun _ _ => rfl) sound.names written
  have ids := writeGroup_map NewsGroup.id (fun _ _ => rfl) sound.names written
  have entries := writeGroup_entries store.realm written
  have grown := (writeGroup_continues sound.names written).groups_length
  refine ⟨?_, ?_, ?_, ?_, ?_, ?_⟩
  · rw [names]
    split
    · exact sound.names
    · rename_i unknown
      rw [← List.concat_eq_append]
      exact sound.names.concat unknown
  · rw [ids]
    split
    · exact sound.ids
    · rw [← List.concat_eq_append]
      exact sound.ids.concat fresh
  · intro record inside
    have isId : record.id ∈ (ListGroupsCommand.writeGroup store.realm written).groups.map NewsGroup.id :=
      List.mem_map_of_mem inside
    have earlierOrNew : record.id ∈ store.realm.groups.map NewsGroup.id ∨
        record.id = some (env.supply store.drawn).uuidString := by
      rw [ids] at isId
      split at isId
      · exact Or.inl isId
      · rw [List.mem_append, List.mem_singleton] at isId
        exact isId
    cases earlierOrNew with
    | inl earlier =>
      obtain ⟨old, insideOld, same⟩ := List.mem_map.mp earlier
      obtain ⟨groupId, isOld, later⟩ := sound.drawn old insideOld
      exact ⟨groupId, same ▸ isOld, fun place behind => later place (Nat.le_of_succ_le behind)⟩
    | inr new =>
      refine ⟨_, new, fun place behind same => ?_⟩
      have equal : place = store.drawn := supplied same
      have later : store.drawn + 1 ≤ place := behind
      omega
  · rw [UniqueIds, articleIds_eq_entries, entries, ← articleIds_eq_entries]
    exact sound.articleIds
  · intro entry member
    rw [entries] at member
    obtain ⟨group, inside, isGroup⟩ := sound.owned entry member
    exact ⟨group, Nat.lt_of_lt_of_le inside grown, isGroup⟩
  · intro group article
    rw [entries, writeGroup_groupArticles sound.names]
    exact sound.listed group article

/-- A delivery of `ListGroupsCommand`: one group after another, each with the next of the drawn values. -/
theorem StoreSound.newsReaderGroups (supplied : Function.Injective fun place => (env.supply place).uuidString)
    {command : ListGroupsCommand} (supply : command.supply = env.supply)
    (sound : StoreSound env.supply ⟨command.rbox.realm, command.drawn⟩) (groups : List NewsGroup) :
    let later := command.newsReaderGroups groups
    StoreSound env.supply ⟨later.rbox.realm, later.drawn⟩ ∧
      Continues command.rbox.realm later.rbox.realm ∧ later.rbox.realm.entries = command.rbox.realm.entries := by
  induction groups generalizing command with
  | nil => exact ⟨sound, Continues.refl _, rfl⟩
  | cons group groups inductionHypothesis =>
    let written := ListGroupsCommand.writeGroup command.rbox.realm (group, env.supply command.drawn)
    have first : StoreSound env.supply ⟨written, command.drawn + 1⟩ := sound.writeGroup supplied group
    obtain ⟨soundLater, continues, entries⟩ :=
      @inductionHypothesis { command with rbox := { realm := written }, drawn := command.drawn + 1 } supply first
    have realm : (command.newsReaderGroups (group :: groups)).rbox.realm =
        (ListGroupsCommand.newsReaderGroups groups
          { command with rbox := { realm := written }, drawn := command.drawn + 1 }).rbox.realm := by
      rw [show written = ListGroupsCommand.writeGroup command.rbox.realm (group, command.supply command.drawn) by
        rw [supply]]
      rfl
    have drawn : (command.newsReaderGroups (group :: groups)).drawn = command.drawn + 1 + groups.length := by
      rw [ListGroupsCommand.newsReaderGroups, List.length_cons, Nat.add_comm groups.length, Nat.add_assoc]
    have added : Continues command.rbox.realm written := writeGroup_continues sound.names _
    dsimp only
    rw [realm, drawn]
    exact ⟨soundLater, added.trans continues, entries.trans (writeGroup_entries _ _)⟩

/-! ### Articles -/

theorem groupArticles_appendToGroup_other (realm : Realm) {group other : GroupRef} (different : group ≠ other)
    (article : ArticleRef) : (realm.appendToGroup group article).groupArticles other = realm.groupArticles other := by
  simp [appendToGroup, groupArticles, different]

theorem findOrCreate_others (realm : Realm) {group other : GroupRef} (different : group ≠ other) (articleId : Text) :
    (realm.findOrCreateGroupArticle group articleId).2.groupArticles other = realm.groupArticles other := by
  unfold findOrCreateGroupArticle
  split
  · rfl
  · exact groupArticles_appendToGroup_other _ different _

open ListGroupGetArticleIdsCommand in
theorem writeArticles_others {group other : GroupRef} (different : group ≠ other) (articleIds : List Text)
    (realm : Realm) : (writeArticles realm group articleIds).1.groupArticles other = realm.groupArticles other := by
  have step : ∀ (state : Realm × List ArticleRef) articleId,
      (addArticleId group state articleId).1.groupArticles other = state.1.groupArticles other := by
    rintro ⟨realm, newArticles⟩ articleId
    have found := findOrCreate_others realm different articleId
    unfold addArticleId
    dsimp only
    split
    · rw [groupArticles_appendToGroup_other _ different, found]
    · exact found
  exact @Runs.invariant_foldl _ _ (addArticleId group)
    (fun state => state.1.groupArticles other = realm.groupArticles other)
    (fun state articleId same => (step state articleId).trans same) (realm, []) rfl articleIds

theorem fresh_eq_map (realm : Realm) (group : GroupRef) (articleIds : List Text) :
    (fresh realm (requestsOf group articleIds)).map (fun request => (some request.1, request.2)) =
      ((fresh realm (requestsOf group articleIds)).map Prod.snd).map (some group, ·) := by
  rw [List.map_map]
  apply List.map_congr_left
  intro request member
  obtain ⟨articleId, -, rfl⟩ := List.mem_map.mp (mem_of_mem_firsts _ member)
  rfl

/-- New articles of one group, each listed twice there, leave every article listed twice. -/
theorem StoreSound.grown {supply : Nat → Drawn} {store : Store} (sound : StoreSound supply store) {group : GroupRef}
    (known : group < store.realm.groups.length) {articleIds : List Text} {later : Realm}
    (grown : Grown store.realm group articleIds 2 later)
    (others : ∀ other, group ≠ other → later.groupArticles other = store.realm.groupArticles other) :
    StoreSound supply { store with realm := later } := by
  have entries := grown.entries
  rw [fresh_eq_map] at entries
  have listedHere := grown.listed known
  generalize hadded : fresh store.realm (requestsOf group articleIds) = added at entries listedHere
  have length : store.realm.entries.length = store.realm.articles.length := by simp [Realm.entries]
  refine ⟨?_, ?_, ?_, grown.uniqueIds sound.articleIds, ?_, ?_⟩
  · rw [grown.groups NewsGroup.name fun _ _ => rfl]
    exact sound.names
  · rw [grown.groups NewsGroup.id fun _ _ => rfl]
    exact sound.ids
  · intro record inside
    have isId : record.id ∈ later.groups.map NewsGroup.id := List.mem_map_of_mem inside
    rw [grown.groups NewsGroup.id fun _ _ => rfl] at isId
    obtain ⟨old, insideOld, same⟩ := List.mem_map.mp isId
    rw [← same]
    exact sound.drawn old insideOld
  · intro entry member
    dsimp only
    rw [grown.groups_length]
    rw [entries, List.mem_append] at member
    cases member with
    | inl old => exact sound.owned entry old
    | inr new =>
      obtain ⟨articleId, -, rfl⟩ := List.mem_map.mp new
      exact ⟨group, known, rfl⟩
  · intro other article
    have before := sound.listed other article
    have owner : ((later.entries[article]?).bind Prod.fst = some other) ↔
        (store.realm.entries[article]?).bind Prod.fst = some other ∨
          group = other ∧ store.realm.articles.length ≤ article ∧
            article < store.realm.articles.length + added.length := by
      rw [entries]
      by_cases inside : article < store.realm.entries.length
      · rw [List.getElem?_append_left inside]
        constructor
        · exact Or.inl
        · rintro (old | ⟨-, outside, -⟩)
          · exact old
          · omega
      · have behind : store.realm.entries.length ≤ article := Nat.le_of_not_lt inside
        rw [List.getElem?_append_right behind, List.getElem?_eq_none behind, List.getElem?_map]
        by_cases new : article - store.realm.entries.length < (added.map Prod.snd).length
        · rw [List.getElem?_eq_getElem new]
          rw [List.length_map] at new
          simp
          omega
        · rw [List.getElem?_eq_none (Nat.le_of_not_lt new)]
          rw [List.length_map] at new
          simp
          omega
    dsimp only
    simp only [owner]
    by_cases same : group = other
    · subst same
      rw [listedHere, List.count_append, before, GroupList.count_nextRefs]
      by_cases old : (store.realm.entries[article]?).bind Prod.fst = some group
      · have inside : article < store.realm.articles.length := by
          by_contra outside
          rw [List.getElem?_eq_none (by omega)] at old
          cases old
        rw [if_pos old, if_neg (by omega), if_pos (Or.inl old)]
      · simp only [old, false_or, true_and, if_false, Nat.zero_add]
    · rw [others other same, before]
      simp only [same, false_and, or_false]

theorem Continues.grown {realm later : Realm} {group : GroupRef} {articleIds : List Text} {copies : Nat}
    (grown : Grown realm group articleIds copies later) : Continues realm later :=
  continues_of_map (grown.groups identity fun _ _ => rfl) (grown.entries ▸ List.prefix_append _ _)

/-- A delivery of `ListGroupGetArticleIdsCommand`: the new ids, and the references that are posted. -/
theorem StoreSound.newsReaderArticles {supply : Nat → Drawn} {drawn : Nat} {command : ListGroupGetArticleIdsCommand}
    (sound : StoreSound supply ⟨command.rbox.realm, drawn⟩) (known : command.group < command.rbox.realm.groups.length)
    (articleIds : List Text) :
    let later := (command.newsReaderArticles articleIds).rbox
    StoreSound supply ⟨later.realm, drawn⟩ ∧ Continues command.rbox.realm later.realm ∧
      ∃ added : List Text,
        later.realm.entries = command.rbox.realm.entries ++ added.map (some command.group, ·) ∧
        later.posted = command.rbox.posted ++
          [.groupUpdated command.group,
            .articleGetHeader command.groupName (nextRefs command.rbox.realm added.length)] := by
  obtain ⟨grown, refs⟩ := writeArticles_grown sound.articleIds command.group articleIds
  have others : ∀ other, command.group ≠ other →
      (ListGroupGetArticleIdsCommand.writeArticles command.rbox.realm command.group articleIds).1.groupArticles other =
        command.rbox.realm.groupArticles other :=
    fun other different => writeArticles_others different articleIds _
  have soundLater := sound.grown known grown others
  have entries := grown.entries
  rw [fresh_eq_map] at entries
  refine ⟨soundLater, Continues.grown grown, _, entries, ?_⟩
  rw [List.length_map, ← refs]
  simp [ListGroupGetArticleIdsCommand.newsReaderArticles, ListGroupGetArticleIdsCommand.postArticles, ReaderBox.post]

/-- A header for an article that is stored changes that article, and is posted under its group's name. -/
theorem StoreSound.newsReaderArticleHeader (dateFormatter : Text → Text → Option Date) {supply : Nat → Drawn}
    {drawn : Nat} {command : ArticleGetMultipleHeadersCommand} (sound : StoreSound supply ⟨command.rbox.realm, drawn⟩)
    {group : GroupRef} {record : NewsGroup} (found : command.rbox.realm.findGroupById command.groupId = some group)
    (here : command.rbox.realm.groups[group]? = some record) {articleId : Text}
    (stored : articleId ∈ command.rbox.realm.articleIds) (header : Header) :
    let later := (command.newsReaderArticleHeader dateFormatter articleId header).rbox
    StoreSound supply ⟨later.realm, drawn⟩ ∧ later.realm.groups = command.rbox.realm.groups ∧
      later.realm.entries = command.rbox.realm.entries ∧
      ∃ article : ArticleVM, article.id = articleId ∧
        later.posted = command.rbox.posted ++ [.articleHeaderAdded record.name article] := by
  obtain ⟨old, member, rfl⟩ := List.mem_map.mp stored
  obtain ⟨place, atPlace⟩ := List.mem_iff_getElem?.mp member
  have isFound : command.rbox.realm.findOrCreateGroupArticle group old.id = ((place, false), command.rbox.realm) :=
    findOrCreateGroupArticle_found sound.articleIds group atPlace
  let filled := command.rbox.realm.modifyArticle place
    (ArticleGetMultipleHeadersCommand.writeHeader dateFormatter header)
  have entries : filled.entries = command.rbox.realm.entries :=
    modifyArticle_entries _ _ (writeHeader_keeps dateFormatter header)
  have written : filled.articles[place]? =
      some (ArticleGetMultipleHeadersCommand.writeHeader dateFormatter header old) := by
    simp [filled, modifyArticle, atPlace]
  have later : (command.newsReaderArticleHeader dateFormatter old.id header).rbox =
      { realm := filled
        posted := command.rbox.posted ++ [.articleHeaderAdded record.name (.ofArticle
          (ArticleGetMultipleHeadersCommand.writeHeader dateFormatter header old))] } := by
    rw [ArticleGetMultipleHeadersCommand.newsReaderArticleHeader, found]
    have groups : filled.groups = command.rbox.realm.groups := rfl
    simp only [ArticleGetMultipleHeadersCommand.writeArticleHeader, isFound]
    rw [show command.rbox.realm.modifyArticle place _ = filled from rfl, groups, here, written]
    rfl
  dsimp only
  rw [later]
  refine ⟨⟨sound.names, sound.ids, sound.drawn, ?_, ?_, ?_⟩, rfl, entries, _, ?_, rfl⟩
  · rw [UniqueIds, articleIds_eq_entries, entries, ← articleIds_eq_entries]
    exact sound.articleIds
  · rw [entries]
    exact sound.owned
  · rw [entries]
    exact sound.listed
  · exact congrArg Prod.snd (writeHeader_keeps dateFormatter header old)

end EasyNews.Verified.SharedStore
