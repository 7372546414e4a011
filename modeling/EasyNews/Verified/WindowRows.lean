import EasyNews.Verified.MainWindowRuns

/-! # What the window shows

In every run the store is in order, the tabs show the articles of their own groups, and rows stay where
they are: what comes in later stands below.
-/

namespace EasyNews.Verified.WindowRows

open Realm ArticleStore SharedStore CommandReads TabTables MainWindowRuns

variable {env : Environment} {store : Store} {main later : MainVC}

/-! ## The store -/

theorem mem_rows_iff {realm : Realm} {group : GroupRef} {article : Nat} :
    article ∈ realm.entries.findIdxs (·.1 = some group) ↔ (realm.entries[article]?).bind Prod.fst = some group := by
  rw [List.mem_findIdxs_iff_exists_getElem_pos]
  constructor
  · rintro ⟨inside, isOwner⟩
    rw [List.getElem?_eq_getElem inside]
    exact of_decide_eq_true isOwner
  · intro isOwner
    obtain ⟨entry, here, owner⟩ := Option.bind_eq_some_iff.mp isOwner
    obtain ⟨inside, isEntry⟩ := List.getElem?_eq_some_iff.mp here
    exact ⟨inside, by rw [isEntry]; exact decide_eq_true owner⟩

theorem groupArticles_perm {supply : Nat → Drawn} (sound : StoreSound supply store) (group : GroupRef) :
    let rows := store.realm.entries.findIdxs (·.1 = some group)
    (store.realm.groupArticles group).Perm (rows ++ rows) := by
  refine List.perm_iff_count.mpr fun article => ?_
  rw [sound.listed, List.count_append, List.nodup_findIdxs.count]
  by_cases isRow : article ∈ store.realm.entries.findIdxs (·.1 = some group)
  · rw [if_pos isRow, if_pos (mem_rows_iff.mp isRow)]
  · rw [if_neg isRow, if_neg (isRow ∘ mem_rows_iff.mpr)]

theorem findIdxs_entries_length (realm : Realm) (group : GroupRef) :
    (realm.entries.findIdxs (·.1 = some group)).length = realm.articles.countP (·.group = some group) := by
  rw [List.length_findIdxs, entries, List.countP_map]
  rfl

/-! ## Later windows -/

/-- What identifies a tab. -/
def tabKey (tab : GroupTabView) : GroupRef × Text × Text := (tab.group, tab.groupName, tab.groupId)

/-- Nothing has been taken away, no tab has been closed or moved, and the search is the same if there was no
    other. -/
structure GoesOn (searched : Prop) (main later : MainVC) : Prop where
  continues : Continues main.store.realm later.store.realm
  tabs : main.tabs.map tabKey <+: later.tabs.map tabKey
  searchText : ¬ searched → later.searchText = main.searchText

variable {searched : Prop}

theorem GoesOn.refl (main : MainVC) : GoesOn searched main main := ⟨Continues.refl _, List.prefix_refl _, fun _ => rfl⟩

theorem GoesOn.trans {middle : MainVC} (first : GoesOn searched main middle) (second : GoesOn searched middle later) :
    GoesOn searched main later :=
  ⟨first.continues.trans second.continues, first.tabs.trans second.tabs,
    fun other => (second.searchText other).trans (first.searchText other)⟩

theorem goesOn_of_same (store : later.store = main.store) (tabs : later.tabs.map tabKey = main.tabs.map tabKey)
    (searchText : ¬ searched → later.searchText = main.searchText) : GoesOn searched main later :=
  ⟨store ▸ Continues.refl _, tabs ▸ List.prefix_refl _, searchText⟩

theorem goesOn_post (main : MainVC) (posted : Posted) : GoesOn searched main (main.post env posted) := by
  refine goesOn_of_same rfl ?_ fun _ => rfl
  simp only [MainVC.post, List.map_map]
  refine List.map_congr_left fun tab _ => ?_
  obtain ⟨sameName, sameId, sameGroup⟩ := onArticleAdd_keeps posted tab
  simp only [tabKey, Function.comp_apply, sameName, sameId, sameGroup]

theorem goesOn_showArticle {tab : Nat} {article : Text} (shown : main.showArticle env tab article = some later) :
    GoesOn searched main later := by
  obtain ⟨effects, -, isLater⟩ := Option.bind_eq_some_iff.mp shown
  obtain rfl := Option.some.inj isLater
  refine goesOn_of_same rfl ?_ fun _ => rfl
  apply List.ext_getElem?
  intro place
  rw [List.getElem?_map, List.getElem?_map, List.getElem?_modify]
  cases main.tabs[place]? with
  | none => rfl
  | some view => split <;> rfl

theorem goesOn_bytesAvailable (supplied : Function.Injective fun place => (env.supply place).uuidString)
    {start : Realm} (sound : MainSound env start main) {thread : Nat} {more : Bool} {read : Read}
    (stepped : main.bytesAvailable env thread more read = some later) : GoesOn searched main later := by
  obtain ⟨current, here, rest⟩ := Option.bind_eq_some_iff.mp stepped
  have outcome := read_sound supplied sound.store more read (sound.commands current (List.mem_of_getElem? here))
  let middle : MainVC :=
    { main with
      store := (current.command.read env more read main.store).store
      threads := main.threads.set thread
        { current with command := (current.command.read env more read main.store).command } }
  have wrote : GoesOn searched main middle := ⟨outcome.continues, List.prefix_refl _, fun _ => rfl⟩
  have announced := Runs.invariant_foldl (MainVC.post env)
    (fun state one holds => GoesOn.trans holds (goesOn_post state one)) wrote
    (current.command.read env more read main.store).posted
  dsimp only at rest
  split at rest
  · rename_i tab _
    exact @Runs.invariant_foldlM _ _ (MainVC.showArticle env tab) (GoesOn searched main)
      (fun _ _ _ shown holds => holds.trans (goesOn_showArticle shown)) _ _ _ rest announced
  · exact Option.some.inj rest ▸ announced

theorem goesOn_groupSelected {group : GroupRef} (selected : main.groupSelected env group = some later) :
    GoesOn searched main later := by
  obtain ⟨record, here, rest⟩ := Option.bind_eq_some_iff.mp selected
  split at rest
  · obtain rfl := Option.some.inj rest
    exact goesOn_of_same rfl rfl fun _ => rfl
  · obtain ⟨groupId, isId, isLater⟩ := Option.bind_eq_some_iff.mp rest
    obtain rfl := Option.some.inj isLater
    refine ⟨Continues.refl _, ?_, fun _ => rfl⟩
    rw [List.map_append]
    exact List.prefix_append _ _

theorem goesOn_step (supplied : Function.Injective fun place => (env.supply place).uuidString)
    {start : Realm} (sound : MainSound env start main) {event : Event}
    (isSearch : ∀ text, event = .searchForText text → searched) (stepped : main.step env event = some later) :
    GoesOn searched main later := by
  cases step_cases stepped with
  | searched text => exact goesOn_of_same rfl rfl fun other => absurd (isSearch text rfl) other
  | selected shown => exact goesOn_groupSelected shown
  | reading available => exact goesOn_bytesAvailable supplied sound available
  | _ => exact goesOn_of_same rfl rfl fun _ => rfl

theorem goesOn_run (supplied : Function.Injective fun place => (env.supply place).uuidString)
    {start : Realm} (sound : MainSound env start main) {events : List Event}
    (searches : ∀ text, .searchForText text ∈ events → searched) (ran : main.run env events = some later) :
    GoesOn searched main later := by
  have both := @Runs.invariant_foldlM_of_mem _ _ (MainVC.step env)
    (fun state => MainSound env start state ∧ GoesOn searched main state) events
    (fun state event inside next stepped holds =>
      ⟨holds.1.step supplied stepped,
        holds.2.trans (goesOn_step supplied holds.1 (fun text same => searches text (same ▸ inside)) stepped)⟩)
    _ _ ran ⟨sound, GoesOn.refl main⟩
  exact both.2

/-! ## Rows -/

theorem findIdxs_prefix {α : Type} (pick : α → Bool) {list longer : List α} (isPrefix : list <+: longer) :
    list.findIdxs pick <+: longer.findIdxs pick := by
  obtain ⟨more, rfl⟩ := isPrefix
  rw [List.findIdxs_append]
  exact List.prefix_append _ _

theorem groups_eq_of_plain (plain : LookUps.Plain main.searchText) :
    main.groups env =
      if main.searchText ≠ [] then (main.store.realm.groups.map NewsGroup.name).findIdxs (env.containsCD main.searchText)
      else List.range main.store.realm.groups.length := by
  rw [MainVC.groups, Filters.setSearch]
  split
  · rw [show Filters.searchFilter main.searchText = LookUps.asked .nameContains main.searchText from rfl,
      LookUps.filter_of_plain _ _ _ plain, Option.getD_some, List.findIdxs_map]
    rfl
  · rfl

theorem GoesOn.groups (goesOn : GoesOn searched main later) (noSearch : ¬ searched)
    (plain : LookUps.Plain main.searchText) : main.groups env <+: later.groups env := by
  have sameText := goesOn.searchText noSearch
  have names : main.store.realm.groups.map NewsGroup.name <+: later.store.realm.groups.map NewsGroup.name := by
    have mapped := goesOn.continues.groups.map Prod.snd
    rwa [List.map_map, List.map_map] at mapped
  rw [groups_eq_of_plain plain, groups_eq_of_plain (sameText ▸ plain), sameText]
  split
  · exact findIdxs_prefix _ names
  · rw [← List.length_map NewsGroup.name, ← @List.length_map _ _ later.store.realm.groups NewsGroup.name]
    exact List.prefix_iff_eq_take.mpr (by
      rw [List.length_range, List.take_range, Nat.min_eq_left names.length_le])

theorem GoesOn.rows (goesOn : GoesOn searched main later) {start : Realm} (sound : MainSound env start main)
    (soundLater : MainSound env start later) {place : Nat} {tab : GroupTabView} (here : main.tabs[place]? = some tab) :
    ∃ other, later.tabs[place]? = some other ∧ other.groupName = tab.groupName ∧
      tab.result main.store.realm <+: other.result later.store.realm := by
  obtain ⟨more, joined⟩ := goesOn.tabs
  have mapped : (main.tabs.map tabKey)[place]? = some (tabKey tab) := by rw [List.getElem?_map, here, Option.map_some]
  have there : (later.tabs.map tabKey)[place]? = some (tabKey tab) := by
    rw [← joined, List.getElem?_append_left (List.getElem?_eq_some_iff.mp mapped).1, mapped]
  rw [List.getElem?_map] at there
  obtain ⟨other, isOther, same⟩ := Option.map_eq_some_iff.mp there
  simp only [tabKey, Prod.mk.injEq] at same
  obtain ⟨sameGroup, sameName, -⟩ := same
  refine ⟨other, isOther, sameName, ?_⟩
  rw [(sound.tabs tab (List.mem_of_getElem? here)).result_eq sound.store,
    (soundLater.tabs other (List.mem_of_getElem? isOther)).result_eq soundLater.store, sameGroup]
  exact findIdxs_prefix _ goesOn.continues.entries

/-- The ids of the articles a tab's table refers to. -/
def tableIds (tab : GroupTabView) : List Text :=
  (tableRefs tab.articlesVM).map fun article => (tab.articlesVM.objects article).id

theorem mem_tableIds {realm : Realm} {tab : GroupTabView} (isTab : TabSound realm tab) {articleId : Text}
    (member : articleId ∈ tableIds tab) : (some tab.group, articleId) ∈ realm.entries := by
  obtain ⟨article, inside, rfl⟩ := List.mem_map.mp member
  exact isTab.owned article (isTab.bounded article inside)

theorem group_eq_of_entries {realm : Realm} (unique : realm.UniqueIds) {articleId : Text} {group other : GroupRef}
    (first : (some group, articleId) ∈ realm.entries) (second : (some other, articleId) ∈ realm.entries) :
    group = other := by
  rw [UniqueIds, articleIds_eq_entries] at unique
  have same := List.inj_on_of_nodup_map unique first second rfl
  exact Option.some.inj (congrArg Prod.fst same)

/-! ## In every run -/

section Runs

variable {events after : List Event}

/-- The selected tab is there, and no group has two tabs. Every article in the table of a tab is one of its rows,
    which are the stored articles of its group; so no article is shown in two tabs. -/
theorem tabs_apart (supplied : Function.Injective fun place => (env.supply place).uuidString)
    (sound : StoreSound env.supply store) (ran : PlainRun env events { store } later) :
    let realm := later.store.realm
    (∀ tab, later.selectedTab = some tab → tab < later.tabs.length) ∧
      (∀ tab ∈ later.tabs, ∀ articleId ∈ tableIds tab,
        ∃ row ∈ tab.result realm, realm.articleIds[row]? = some articleId) ∧
      ∀ (first second : Nat) tab other, later.tabs[first]? = some tab → later.tabs[second]? = some other →
        first ≠ second → tab.groupName ≠ other.groupName ∧ (tab.result realm).Disjoint (other.result realm) ∧
          (tableIds tab).Disjoint (tableIds other) := by
  have soundLater := run_sound supplied (mainSound_start sound) ran.ran
  refine ⟨soundLater.selected, ?_, ?_⟩
  · intro tab member articleId shown
    have isTab := soundLater.tabs tab member
    obtain ⟨row, here⟩ := List.mem_iff_getElem?.mp (mem_tableIds isTab shown)
    refine ⟨row, (isTab.mem_result soundLater.store).mpr ⟨articleId, here⟩, ?_⟩
    rw [articleIds_eq_entries, List.getElem?_map, here, Option.map_some]
  · intro first second tab other isFirst isSecond different
    have isTab := soundLater.tabs tab (List.mem_of_getElem? isFirst)
    have isOther := soundLater.tabs other (List.mem_of_getElem? isSecond)
    have otherName : tab.groupName ≠ other.groupName := by
      intro same
      have firstName : (later.tabs.map (·.groupName))[first]? = some tab.groupName := by simp [isFirst]
      have secondName : (later.tabs.map (·.groupName))[second]? = some tab.groupName := by simp [isSecond, same]
      have inside := (List.getElem?_eq_some_iff.mp firstName).1
      exact different ((List.getElem?_inj inside soundLater.tabNames).mp (firstName.trans secondName.symm))
    have otherGroup : tab.group ≠ other.group := by
      intro same
      have names := isTab.serves.2
      rw [same, isOther.serves.2] at names
      exact otherName (Option.some.inj names).symm
    refine ⟨otherName, ?_, ?_⟩
    · intro row inFirst inSecond
      obtain ⟨articleId, here⟩ := (isTab.mem_result soundLater.store).mp inFirst
      obtain ⟨otherId, there⟩ := (isOther.mem_result soundLater.store).mp inSecond
      rw [here] at there
      exact otherGroup (Option.some.inj (congrArg Prod.fst (Option.some.inj there)))
    · intro articleId inFirst inSecond
      exact otherGroup (group_eq_of_entries soundLater.store.articleIds (mem_tableIds isTab inFirst)
        (mem_tableIds isOther inSecond))

theorem tabs_apart_two :
    readWindow.tabs.map (fun tab => (tableIds tab).dedup) = [["1".toList], ["5".toList]] ∧
      ∀ tab other, readWindow.tabs[0]? = some tab → readWindow.tabs[1]? = some other →
        tab.groupName ≠ other.groupName ∧
          (tab.result readWindow.store.realm).Disjoint (other.result readWindow.store.realm) ∧
          (tableIds tab).Disjoint (tableIds other) :=
  ⟨by decide +kernel, fun tab other isTab isOther =>
    (tabs_apart countingEnvironment_supplied (storeSound_empty _) run_reading).2.2 0 1 tab other isTab isOther (by decide)⟩

/-- What is shown stays where it is, whatever comes in: the rows of a tab only grow at the end, and so do the groups
    until there is another search. -/
theorem rows_stay (supplied : Function.Injective fun place => (env.supply place).uuidString)
    (sound : StoreSound env.supply store) (ran : MainVC.run env events { store } = some main)
    (ranOn : PlainRun env after main later) :
    (∀ (place : Nat) tab, main.tabs[place]? = some tab → ∃ other, later.tabs[place]? = some other ∧
        other.groupName = tab.groupName ∧ tab.result main.store.realm <+: other.result later.store.realm) ∧
      ((∀ text, Event.searchForText text ∉ after) → LookUps.Plain main.searchText →
        main.groups env <+: later.groups env) := by
  have soundMain := run_sound supplied (mainSound_start sound) ran
  have goesOn := @goesOn_run env main later (∃ text, .searchForText text ∈ after) supplied _ soundMain after
    (fun text inside => ⟨text, inside⟩) ranOn.ran
  refine ⟨?_, ?_⟩
  · intro place tab here
    exact goesOn.rows soundMain (run_sound supplied soundMain ranOn.ran) here
  · intro noSearch plain
    exact goesOn.groups (fun searched => searched.elim noSearch) plain

theorem rows_stay_read :
    (∀ tab, refreshedWindow.tabs[0]? = some tab → ∃ other, readWindow.tabs[0]? = some other ∧
        other.groupName = tab.groupName ∧
        tab.result refreshedWindow.store.realm <+: other.result readWindow.store.realm) ∧
      refreshedWindow.groups countingEnvironment <+: readWindow.groups countingEnvironment := by
  have noSearch : ∀ text, Event.searchForText text ∉ readingOn := by simp [readingOn, logsIn, served]
  obtain ⟨rows, groups⟩ :=
    rows_stay countingEnvironment_supplied (storeSound_empty _) run_refreshingOnce run_readingOn
  exact ⟨rows 0, groups noSearch (by decide +kernel)⟩

end Runs

end EasyNews.Verified.WindowRows
