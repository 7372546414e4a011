import EasyNews.Verified.CommandReads

/-! # The tabs of the main window

A tab has two views of its group: the table, which fills with the headers that are posted, and the rows of
`result`. Both have articles of this group only.
-/

namespace EasyNews.Verified.TabTables

open Realm ArticleStore SharedStore CommandReads

/-! ## The table of a tab -/

/-- The articles an outline refers to. -/
def outlineRefs (outline : ArticleOutlineVM) : List ArticleVMRef := outline.article :: outline.children

/-- The articles a table refers to. -/
def tableRefs (table : ArticlesTableVM) : List ArticleVMRef := table.outlines.flatMap outlineRefs

/-- Nothing but `article` has come into the table, and no id has changed. -/
structure AddsOnly (article : ArticleVMRef) (table later : ArticlesTableVM) : Prop where
  refs : ∀ other ∈ tableRefs later, other = article ∨ other ∈ tableRefs table
  ids : ∀ other, (later.objects other).id = (table.objects other).id

section Table

open ArticlesTableVM

variable {article : ArticleVMRef} {table later : ArticlesTableVM}

theorem AddsOnly.refl (article : ArticleVMRef) (table : ArticlesTableVM) : AddsOnly article table table :=
  ⟨fun _ member => Or.inr member, fun _ => rfl⟩

theorem AddsOnly.trans {middle : ArticlesTableVM} (first : AddsOnly article table middle)
    (second : AddsOnly article middle later) : AddsOnly article table later where
  refs other member := by
    rcases second.refs other member with same | earlier
    · exact Or.inl same
    · exact first.refs other earlier
  ids other := (second.ids other).trans (first.ids other)

theorem addsOnly_newOutline (article : ArticleVMRef) (table : ArticlesTableVM) :
    AddsOnly article table (table.newOutline article).2 where
  refs other member := by
    simp only [tableRefs, newOutline, List.flatMap_append, List.mem_append] at member
    rcases member with earlier | new
    · exact Or.inr earlier
    · simp [ArticleOutlineVM.ofArticle, outlineRefs] at new
      exact Or.inl new
  ids _ := rfl

theorem addsOnly_appendChild (multiArticle : OutlineRef) (article : ArticleVMRef) (table : ArticlesTableVM) :
    AddsOnly article table (table.appendChild multiArticle article) where
  refs other member := by
    obtain ⟨outline, inside, isRef⟩ := List.mem_flatMap.mp member
    obtain ⟨place, here⟩ := List.mem_iff_getElem?.mp inside
    simp only [appendChild, List.getElem?_modify] at here
    obtain ⟨old, isOld, rfl⟩ := Option.map_eq_some_iff.mp here
    have earlier : ∀ ref ∈ outlineRefs old, ref ∈ tableRefs table := fun ref isRef =>
      List.mem_flatMap.mpr ⟨old, List.mem_of_getElem? isOld, isRef⟩
    split at isRef
    · simp only [outlineRefs, List.mem_cons, List.mem_insertionSort, List.mem_append, List.not_mem_nil, or_false] at isRef
      rcases isRef with isArticle | isChild | isNew
      · exact Or.inr (earlier other (by simp [outlineRefs, isArticle]))
      · exact Or.inr (earlier other (by simp [outlineRefs, isChild]))
      · exact Or.inl isNew
    · exact Or.inr (earlier other isRef)
  ids _ := rfl

theorem addsOnly_updateArticle (cArticle : OutlineRef) (vm : ArticleVM) (article : ArticleVMRef)
    (table : ArticlesTableVM) : AddsOnly article table (table.updateArticle cArticle vm) := by
  unfold updateArticle
  split
  · rename_i outline _
    refine ⟨fun other member => Or.inr member, fun other => ?_⟩
    by_cases same : other = outline.article
    · simp [same]
    · simp [Function.update_of_ne same]
  · exact AddsOnly.refl article table

theorem addsOnly_insertArticle (article : ArticleVMRef) (table : ArticlesTableVM) :
    AddsOnly article table (table.insertArticle article) := by
  have created := addsOnly_newOutline article table
  unfold insertArticle addPart addSingle
  dsimp only
  split
  · exact ⟨created.refs, created.ids⟩
  · split
    · split
      · rename_i multiArticle _
        have appended := addsOnly_appendChild multiArticle article (table.display (table.objects article).id)
        exact ⟨appended.refs, appended.ids⟩
      · exact ⟨created.refs, created.ids⟩
    · exact ⟨created.refs, created.ids⟩

theorem addsOnly_addArticle (article : ArticleVMRef) (table : ArticlesTableVM) :
    AddsOnly article table (table.addArticle article) := by
  unfold addArticle
  dsimp only
  split
  · rename_i cArticle _
    have updated := addsOnly_updateArticle cArticle (table.objects article) article table
    split
    · exact updated
    · exact updated.trans (addsOnly_insertArticle article _)
  · exact addsOnly_insertArticle article table

end Table

/-! ## Tabs -/

/-- A tab is for a group that is there, and its table has articles of this group only. -/
structure TabSound (realm : Realm) (tab : GroupTabView) : Prop where
  serves : Serves realm tab.groupId tab.group tab.groupName
  bounded : ∀ article ∈ tableRefs tab.articlesVM, article < tab.handed
  owned : ∀ article < tab.handed, (some tab.group, (tab.articlesVM.objects article).id) ∈ realm.entries

theorem TabSound.continues {realm later : Realm} {tab : GroupTabView} (sound : TabSound realm tab)
    (continues : Continues realm later) : TabSound later tab where
  serves := sound.serves.continues continues
  bounded := sound.bounded
  owned article inside := continues.entry (sound.owned article inside)

theorem tabSound_new {realm : Realm} {groupId groupName : Text} {group : GroupRef}
    (serves : Serves realm groupId group groupName) : TabSound realm (.new equality group groupName groupId) where
  serves := serves
  bounded _ member := absurd member List.not_mem_nil
  owned _ inside := absurd inside (Nat.not_lt_zero _)

theorem TabSound.addArticle {realm : Realm} {tab : GroupTabView} (sound : TabSound realm tab) {article : ArticleVM}
    (owned : (some tab.group, article.id) ∈ realm.entries) : TabSound realm (tab.addArticle article) := by
  let table : ArticlesTableVM :=
    { tab.articlesVM with objects := Function.update tab.articlesVM.objects tab.handed article }
  have adds := addsOnly_addArticle tab.handed table
  refine ⟨sound.serves, ?_, ?_⟩
  · intro other member
    show other < tab.handed + 1
    rcases adds.refs other member with rfl | earlier
    · exact Nat.lt_succ_self _
    · exact Nat.lt_succ_of_lt (sound.bounded other earlier)
  · intro other inside
    have sameId : (((tab.addArticle article).articlesVM).objects other).id = (table.objects other).id := adds.ids other
    rw [sameId]
    show (some tab.group, _) ∈ realm.entries
    by_cases same : other = tab.handed
    · simpa [table, same] using owned
    · have earlier : other < tab.handed := by
        have bound : other < tab.handed + 1 := inside
        omega
      simpa [table, Function.update_of_ne same] using sound.owned other earlier

theorem onArticleAdd_keeps (posted : Posted) (tab : GroupTabView) :
    (tab.onArticleAdd posted).groupName = tab.groupName ∧ (tab.onArticleAdd posted).groupId = tab.groupId ∧
      (tab.onArticleAdd posted).group = tab.group := by
  unfold GroupTabView.onArticleAdd
  split
  · split <;> exact ⟨rfl, rfl, rfl⟩
  · exact ⟨rfl, rfl, rfl⟩

theorem group_eq_of_name {realm : Realm} (unique : (realm.groups.map NewsGroup.name).Nodup) {group other : GroupRef}
    {name : Text} (isName : realm.groups[group]?.map NewsGroup.name = some name)
    (isOther : realm.groups[other]?.map NewsGroup.name = some name) : group = other := by
  rw [← List.getElem?_map] at isName isOther
  have inside := (List.getElem?_eq_some_iff.mp isName).1
  exact (List.getElem?_inj inside unique).mp (isName.trans isOther.symm)

theorem TabSound.onArticleAdd {supply : Nat → Drawn} {store : Store} (sound : StoreSound supply store)
    {tab : GroupTabView} (isTab : TabSound store.realm tab) {posted : Posted} (isPosted : PostedSound store.realm posted) :
    TabSound store.realm (tab.onArticleAdd posted) := by
  unfold GroupTabView.onArticleAdd
  split
  · rename_i named
    split
    · rename_i groupName article
      obtain ⟨group, isName, owned⟩ := isPosted
      -- the observer's name is that of the group the header is for
      have sameName : groupName = tab.groupName := List.append_cancel_left named
      have same := group_eq_of_name sound.names (sameName ▸ isName) isTab.serves.2
      exact isTab.addArticle (same ▸ owned)
    · exact isTab
  · exact isTab

/-! ## Rows -/

theorem id_of_findGroupById {realm : Realm} {groupId : Text} {group : GroupRef} {record : NewsGroup}
    (found : realm.findGroupById groupId = some group) (here : realm.groups[group]? = some record) :
    record.id = some groupId := by
  obtain ⟨inside, isId, -⟩ := List.findIdx?_eq_some_iff_getElem.mp found
  rw [List.getElem?_eq_getElem inside] at here
  obtain rfl := Option.some.inj here
  simpa using isId

theorem findGroupById_of_unique {realm : Realm} (unique : (realm.groups.map NewsGroup.id).Nodup) {group : GroupRef}
    {record : NewsGroup} (here : realm.groups[group]? = some record) {groupId : Text} (isId : record.id = some groupId) :
    realm.findGroupById groupId = some group := by
  obtain ⟨inside, rfl⟩ := List.getElem?_eq_some_iff.mp here
  refine List.findIdx?_eq_some_iff_getElem.mpr ⟨inside, by simpa using isId, fun other earlier => ?_⟩
  -- an earlier group with this id would be the same group
  have different := List.pairwise_iff_getElem.mp unique other group (by simp; omega) (by simpa using inside) earlier
  simp only [List.getElem_map, isId] at different
  simpa using different

theorem findIdxs_congr {α : Type} {pick other : α → Bool} {list : List α}
    (same : ∀ element ∈ list, pick element = other element) (start : Nat) :
    list.findIdxs pick start = list.findIdxs other start := by
  induction list generalizing start with
  | nil => rfl
  | cons head rest inductionHypothesis =>
    have sameRest := inductionHypothesis (fun element inside => same element (List.mem_cons_of_mem _ inside)) (start + 1)
    rw [List.findIdxs_cons, List.findIdxs_cons, same head List.mem_cons_self, sameRest]

theorem mem_entries {realm : Realm} {place : ArticleRef} {article : NewsGroupArticle}
    (here : realm.articles[place]? = some article) : (article.group, article.id) ∈ realm.entries :=
  List.mem_map.mpr ⟨article, List.mem_of_getElem? here, rfl⟩

theorem TabSound.result_eq {supply : Nat → Drawn} {store : Store} {tab : GroupTabView}
    (isTab : TabSound store.realm tab) (sound : StoreSound supply store) :
    tab.result store.realm = store.realm.entries.findIdxs (·.1 = some tab.group) := by
  rw [GroupTabView.result, Realm.entries, List.findIdxs_map]
  refine findIdxs_congr (fun article member => ?_) 0
  obtain ⟨place, atPlace⟩ := List.mem_iff_getElem?.mp member
  obtain ⟨group, inside, owner⟩ := sound.owned _ (mem_entries atPlace)
  have isGroup : article.group = some group := owner
  obtain ⟨found, -⟩ := isTab.serves
  simp only [isGroup, Option.bind_some, Function.comp_apply, Option.some.injEq, decide_eq_decide,
    List.getElem?_eq_getElem inside]
  constructor
  · intro isId
    have same := findGroupById_of_unique sound.ids (List.getElem?_eq_getElem inside) isId
    exact Option.some.inj (same.symm.trans found)
  · rintro rfl
    exact id_of_findGroupById found (List.getElem?_eq_getElem inside)

theorem TabSound.mem_result {supply : Nat → Drawn} {store : Store} {tab : GroupTabView}
    (isTab : TabSound store.realm tab) (sound : StoreSound supply store) {place : ArticleRef} :
    place ∈ tab.result store.realm ↔ ∃ articleId, store.realm.entries[place]? = some (some tab.group, articleId) := by
  rw [isTab.result_eq sound, List.mem_findIdxs_iff_exists_getElem_pos]
  constructor
  · rintro ⟨inside, isGroup⟩
    refine ⟨store.realm.entries[place].2, ?_⟩
    rw [List.getElem?_eq_getElem inside, ← of_decide_eq_true isGroup]
  · rintro ⟨articleId, here⟩
    obtain ⟨inside, isEntry⟩ := List.getElem?_eq_some_iff.mp here
    exact ⟨inside, by rw [isEntry]; exact decide_eq_true rfl⟩

end EasyNews.Verified.TabTables
