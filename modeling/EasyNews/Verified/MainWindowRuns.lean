import EasyNews.Verified.LookUps
import EasyNews.Verified.TabTables

/-! # Every run of the main window

Users select groups, refresh and search, and the servers send what they like to any number of commands, in
any order. `MainSound` holds at every moment: of the store, of the tabs and of the commands.
-/

namespace EasyNews.Verified.MainWindowRuns

open Realm ArticleStore HeaderRequests SharedStore CommandReads TabTables MainVC

/-! ## The whole window -/

/-- The ids of all articles whose headers some command is to get, one command after another. -/
def requestedIds (main : MainVC) : List Text := main.threads.flatMap fun thread => headerIds thread.command

/-- What holds between two steps of a thread, but for the commands that are still to be made. -/
structure WindowSound (env : Environment) (start : Realm) (main : MainVC) : Prop where
  store : StoreSound env.supply main.store
  continues : Continues start main.store.realm
  tabNames : (main.tabs.map (·.groupName)).Nodup
  tabs : ∀ tab ∈ main.tabs, TabSound main.store.realm tab
  selected : ∀ tab, main.selectedTab = some tab → tab < main.tabs.length
  commands : ∀ thread ∈ main.threads, CommandSound env main.store.realm thread.command
  listed : ∀ thread ∈ main.threads, ∀ name, listedGroup thread.command = some name →
    name ∈ main.tabs.map (·.groupName)

/-- What holds at every moment: every article that is not from before has one command for its header. -/
structure MainSound (env : Environment) (start : Realm) (main : MainVC) : Prop extends
    WindowSound env start main where
  requested : requestedIds main = main.store.realm.articleIds.drop start.articles.length

variable {env : Environment} {start : Realm} {main : MainVC}

/-- The articles that are there, and those whose headers have been asked for. -/
theorem MainSound.articleIds_eq (sound : MainSound env start main) :
    main.store.realm.articleIds = start.articleIds ++ requestedIds main := by
  rw [sound.requested]
  exact sound.continues.articleIds_eq

theorem MainSound.requested_nodup (sound : MainSound env start main) : (requestedIds main).Nodup := by
  have unique := sound.store.articleIds
  rw [UniqueIds, sound.articleIds_eq, List.nodup_append] at unique
  exact unique.2.1

/-- The id a reference in a notification is resolved to. -/
def idOf (realm : Realm) (article : ArticleRef) : Text := (realm.articles[article]?.map (·.id)).getD []

theorem filterMap_of_key {α κ β : Type} {key : α → κ} (pick : α → Option β) {list : List α}
    (unique : (list.map key).Nodup) {element : α} (member : element ∈ list)
    (others : ∀ other ∈ list, key other ≠ key element → pick other = none) :
    list.filterMap pick = (pick element).toList := by
  induction list with
  | nil => cases member
  | cons head rest inductionHypothesis =>
    obtain ⟨notLater, uniqueRest⟩ := List.nodup_cons.mp unique
    rw [List.filterMap_cons]
    rcases List.mem_cons.mp member with rfl | later
    · have none : rest.filterMap pick = [] := by
        rw [List.filterMap_eq_nil_iff]
        intro other inside
        refine others other (List.mem_cons_of_mem _ inside) fun same => notLater ?_
        exact same ▸ List.mem_map_of_mem inside
      rw [none]
      cases pick element <;> rfl
    · have different : key head ≠ key element := fun same => notLater (same ▸ List.mem_map_of_mem later)
      rw [others head List.mem_cons_self different]
      exact inductionHypothesis uniqueRest later fun other inside => others other (List.mem_cons_of_mem _ inside)

/-- The commands that the observers of a notification make. -/
def madeBy (main : MainVC) (posted : Posted) : List ArticleGetMultipleHeadersCommand :=
  main.tabs.filterMap (·.onArticleGetHeader main.store.realm posted)

theorem idOf_entry {realm : Realm} {article : ArticleRef} {entry : Option GroupRef × Text}
    (here : realm.entries[article]? = some entry) : idOf realm article = entry.2 := by
  rw [Realm.entries, List.getElem?_map] at here
  obtain ⟨record, isRecord, rfl⟩ := Option.map_eq_some_iff.mp here
  simp [idOf, isRecord]

theorem onArticleGetHeader_eq_some {realm : Realm} {posted : Posted} {tab : GroupTabView}
    {command : ArticleGetMultipleHeadersCommand} (made : tab.onArticleGetHeader realm posted = some command) :
    ∃ refs group record, posted = .articleGetHeader tab.groupName refs ∧ realm.findGroupById tab.groupId = some group ∧
      realm.groups[group]? = some record ∧ record.id = some command.groupId ∧ command.rbox = { realm } ∧
      command.articleIds = refs.map (idOf realm) := by
  unfold GroupTabView.onArticleGetHeader at made
  split at made
  · rename_i named
    split at made
    · rename_i groupName refs
      obtain ⟨record, found, rest⟩ := Option.bind_eq_some_iff.mp made
      obtain ⟨groupId, isId, isCommand⟩ := Option.bind_eq_some_iff.mp rest
      obtain ⟨group, isGroup, here⟩ := Option.bind_eq_some_iff.mp found
      obtain rfl := Option.some.inj isCommand
      have sameName : groupName = tab.groupName := List.append_cancel_left named
      exact ⟨refs, group, record, by rw [sameName], isGroup, here, isId, rfl, rfl⟩
    · cases made
  · cases made

/-- What asks for headers makes one command, for all of the articles; what does not makes none. -/
theorem WindowSound.madeBy_articleIds (sound : WindowSound env start main) {posted : Posted}
    (isFor : ∀ groupName articleRefs, posted = .articleGetHeader groupName articleRefs →
      groupName ∈ main.tabs.map (·.groupName)) :
    (madeBy main posted).flatMap (·.articleIds) = (articleRefs posted).map (idOf main.store.realm) := by
  by_cases asks : ∃ groupName refs, posted = .articleGetHeader groupName refs
  · obtain ⟨groupName, refs, rfl⟩ := asks
    obtain ⟨tab, inside, isName⟩ := List.mem_map.mp (isFor groupName refs rfl)
    obtain ⟨found, named⟩ := (sound.tabs tab inside).serves
    obtain ⟨record, here, -⟩ := Option.map_eq_some_iff.mp named
    obtain ⟨groupId, isId, -⟩ := sound.store.drawn record (List.mem_of_getElem? here)
    have observes : tab.onArticleGetHeader main.store.realm (.articleGetHeader groupName refs) =
        some { rbox := { realm := main.store.realm }, groupId, articleIds := refs.map (idOf main.store.realm) } := by
      rw [GroupTabView.onArticleGetHeader, if_pos (by rw [← isName]; rfl)]
      simp [found, here, isId, idOf]
    have others : ∀ other ∈ main.tabs, other.groupName ≠ tab.groupName →
        other.onArticleGetHeader main.store.realm (.articleGetHeader groupName refs) = none := by
      intro other _ different
      rw [GroupTabView.onArticleGetHeader, if_neg]
      intro same
      exact different ((List.append_cancel_left same).symm.trans isName.symm)
    rw [madeBy, filterMap_of_key _ sound.tabNames inside others, observes]
    simp [articleRefs]
  · have none : madeBy main posted = [] := by
      rw [madeBy, List.filterMap_eq_nil_iff]
      intro tab _
      cases made : tab.onArticleGetHeader main.store.realm posted with
      | none => rfl
      | some command =>
        obtain ⟨refs, -, -, isPosted, -⟩ := onArticleGetHeader_eq_some made
        exact absurd ⟨_, refs, isPosted⟩ asks
    rw [none]
    cases posted with
    | articleGetHeader groupName refs => exact absurd ⟨groupName, refs, rfl⟩ asks
    | _ => rfl

theorem WindowSound.madeBy_sound (sound : WindowSound env start main) {posted : Posted}
    (isPosted : PostedSound main.store.realm posted) :
    ∀ command ∈ madeBy main posted, CommandSound env main.store.realm (.getHeaders (session env command)) := by
  intro command member
  obtain ⟨tab, inside, made⟩ := List.mem_filterMap.mp member
  obtain ⟨refs, group, record, rfl, found, here, isId, rbox, articleIds⟩ := onArticleGetHeader_eq_some made
  have isTab := sound.tabs tab inside
  obtain ⟨isGroup, isName⟩ := isTab.serves
  obtain rfl : tab.group = group := Option.some.inj (isGroup.symm.trans found)
  have sameId : command.groupId = tab.groupId :=
    Option.some.inj (isId.symm.trans (id_of_findGroupById found here))
  obtain ⟨other, otherName, owned⟩ := isPosted
  obtain rfl := group_eq_of_name sound.store.names isName otherName
  refine ⟨tab.group, tab.groupName, ?_, ?_, Session.confined_new env.username env.password ⟨rfl, rfl, ?_⟩⟩
  · show Serves _ command.groupId _ _
    rw [sameId]
    exact isTab.serves
  · intro articleId isAsked
    have isAsked : articleId ∈ command.articleIds := isAsked
    rw [articleIds] at isAsked
    obtain ⟨article, isRef, rfl⟩ := List.mem_map.mp isAsked
    obtain ⟨id, isEntry⟩ := owned article isRef
    rw [idOf_entry isEntry]
    exact List.mem_of_getElem? isEntry
  · show Named command.groupId _ command.rbox.realm
    rw [sameId, rbox]
    exact isTab.serves.named

/-! ## Notifications -/

theorem post_tabNames (main : MainVC) (posted : Posted) :
    (post env main posted).tabs.map (·.groupName) = main.tabs.map (·.groupName) := by
  simp only [post, List.map_map]
  exact List.map_congr_left fun tab _ => (onArticleAdd_keeps posted tab).1

/-- One notification: its command is made, and the tables it is for have its article. -/
theorem WindowSound.post (sound : WindowSound env start main) {posted : Posted}
    (isPosted : PostedSound main.store.realm posted)
    (isFor : ∀ groupName articleRefs, posted = .articleGetHeader groupName articleRefs →
      groupName ∈ main.tabs.map (·.groupName)) :
    WindowSound env start (main.post env posted) ∧
      requestedIds (main.post env posted) =
        requestedIds main ++ (articleRefs posted).map (idOf main.store.realm) := by
  have names := @post_tabNames env main posted
  refine ⟨⟨sound.store, sound.continues, ?_, ?_, ?_, ?_, ?_⟩, ?_⟩
  · rw [names]
    exact sound.tabNames
  · intro tab member
    obtain ⟨old, inside, rfl⟩ := List.mem_map.mp member
    exact (sound.tabs old inside).onArticleAdd sound.store isPosted
  · intro tab isSelected
    have inside := sound.selected tab isSelected
    simpa [MainVC.post] using inside
  · intro thread member
    rcases List.mem_append.mp member with old | new
    · exact sound.commands thread old
    · obtain ⟨command, made, rfl⟩ := List.mem_map.mp new
      exact sound.madeBy_sound isPosted command made
  · intro thread member name isListed
    rw [names]
    rcases List.mem_append.mp member with old | new
    · exact sound.listed thread old name isListed
    · obtain ⟨command, -, rfl⟩ := List.mem_map.mp new
      cases isListed
  · rw [← sound.madeBy_articleIds isFor]
    simp only [requestedIds, MainVC.post, List.flatMap_append, List.flatMap_map]
    rfl

theorem WindowSound.foldl_post {posted : List Posted} (sound : WindowSound env start main)
    (arePosted : ∀ one ∈ posted, PostedSound main.store.realm one)
    (areFor : ∀ groupName articleRefs, .articleGetHeader groupName articleRefs ∈ posted →
      groupName ∈ main.tabs.map (·.groupName)) :
    let later := posted.foldl (MainVC.post env) main
    WindowSound env start later ∧ later.store = main.store ∧
      requestedIds later = requestedIds main ++ (posted.flatMap articleRefs).map (idOf main.store.realm) := by
  induction posted generalizing main with
  | nil => exact ⟨sound, rfl, (List.append_nil _).symm⟩
  | cons one posted inductionHypothesis =>
    obtain ⟨soundLater, requestedLater⟩ := sound.post (arePosted one List.mem_cons_self)
      fun groupName articleRefs same => areFor groupName articleRefs (same ▸ List.mem_cons_self)
    obtain ⟨soundEnd, storeEnd, requestedEnd⟩ := inductionHypothesis soundLater
      (fun other member => arePosted other (List.mem_cons_of_mem _ member))
      (by
        rw [post_tabNames]
        exact fun groupName articleRefs member => areFor groupName articleRefs (List.mem_cons_of_mem _ member))
    refine ⟨soundEnd, storeEnd, ?_⟩
    rw [List.foldl_cons, requestedEnd, requestedLater, List.flatMap_cons, List.map_append, List.append_assoc]
    rfl

/-! ## A read -/

theorem articleIds_gained {realm later : Realm} (continues : Continues realm later) {count : Nat}
    (length : later.articles.length = realm.articles.length + count) :
    later.articleIds = realm.articleIds ++ (nextRefs realm count).map (idOf later) := by
  obtain ⟨more, joined⟩ := continues.entries
  have ids : later.articleIds = realm.articleIds ++ more.map Prod.snd := by
    rw [articleIds_eq_entries, ← joined, List.map_append, ← articleIds_eq_entries]
  rw [ids]
  congr 1
  have moreLength : more.length = count := by
    have both := congrArg List.length joined
    rw [List.length_append, entries_length, entries_length] at both
    omega
  apply List.ext_getElem?
  intro place
  rw [List.getElem?_map, List.getElem?_map, nextRefs]
  by_cases inside : place < count
  · rw [List.getElem?_range' inside, Nat.one_mul, List.getElem?_eq_getElem (by omega : place < more.length)]
    have here : later.entries[realm.articles.length + place]? = some more[place] := by
      rw [← joined, ← entries_length, List.getElem?_append_right (Nat.le_add_right _ _), Nat.add_sub_cancel_left,
        List.getElem?_eq_getElem (by omega : place < more.length)]
    rw [Option.map_some, Option.map_some, idOf_entry here]
  · rw [List.getElem?_eq_none (by omega), List.getElem?_eq_none (by simpa using inside)]
    rfl

theorem requested_set {threads : List CommandThread} {thread : Nat} {current other : CommandThread}
    (here : threads[thread]? = some current) (same : headerIds other.command = headerIds current.command) :
    (threads.set thread other).flatMap (fun thread => headerIds thread.command) =
      threads.flatMap fun thread => headerIds thread.command := by
  have mapped : (threads.set thread other).map (fun thread => headerIds thread.command) =
      threads.map fun thread => headerIds thread.command := by
    apply List.ext_getElem?
    intro place
    rw [List.getElem?_map, List.getElem?_map, List.getElem?_set]
    split
    · rename_i isPlace
      subst isPlace
      rw [here, if_pos (List.getElem?_eq_some_iff.mp here).1, Option.map_some, Option.map_some, same]
    · rfl
  rw [List.flatMap_def, mapped, ← List.flatMap_def]

theorem MainSound.showArticle (sound : MainSound env start main) {tab : Nat} {article : Text} {later : MainVC}
    (shown : main.showArticle env tab article = some later) : MainSound env start later := by
  obtain ⟨effects, -, isLater⟩ := Option.bind_eq_some_iff.mp shown
  obtain rfl := Option.some.inj isLater
  have names : (main.tabs.modify tab fun view => { view with effects := view.effects ++ [effects] }).map (·.groupName) =
      main.tabs.map (·.groupName) := by
    apply List.ext_getElem?
    intro place
    rw [List.getElem?_map, List.getElem?_map, List.getElem?_modify]
    cases main.tabs[place]? with
    | none => rfl
    | some view => split <;> rfl
  refine ⟨⟨sound.store, sound.continues, names ▸ sound.tabNames, ?_, ?_, sound.commands, ?_⟩, sound.requested⟩
  · intro other member
    obtain ⟨place, here⟩ := List.mem_iff_getElem?.mp member
    rw [List.getElem?_modify] at here
    obtain ⟨view, isView, rfl⟩ := Option.map_eq_some_iff.mp here
    have isTab := sound.tabs view (List.mem_of_getElem? isView)
    split
    · exact ⟨isTab.serves, isTab.bounded, isTab.owned⟩
    · exact isTab
  · intro other isSelected
    rw [List.length_modify]
    exact sound.selected other isSelected
  · rw [names]
    exact sound.listed

theorem WindowSound.goOn (sound : WindowSound env start main) {store : Store} (storeSound : StoreSound env.supply store)
    (continues : Continues main.store.realm store.realm) {thread : Nat} {current later : CommandThread}
    (here : main.threads[thread]? = some current) (isCommand : CommandSound env store.realm later.command)
    (sameListed : listedGroup later.command = listedGroup current.command) :
    WindowSound env start { main with store, threads := main.threads.set thread later } := by
  refine ⟨storeSound, sound.continues.trans continues, sound.tabNames,
    fun tab inside => (sound.tabs tab inside).continues continues, sound.selected, ?_, ?_⟩
  · intro other member
    rcases List.mem_or_eq_of_mem_set member with old | rfl
    · exact (sound.commands other old).continues continues
    · exact isCommand
  · intro other member name isListed
    rcases List.mem_or_eq_of_mem_set member with old | rfl
    · exact sound.listed other old name isListed
    · exact sound.listed current (List.mem_of_getElem? here) name (sameListed ▸ isListed)

theorem MainSound.bytesAvailable (supplied : Function.Injective fun place => (env.supply place).uuidString)
    (sound : MainSound env start main) {thread : Nat} {more : Bool} {read : Read} {later : MainVC}
    (stepped : main.bytesAvailable env thread more read = some later) : MainSound env start later := by
  obtain ⟨current, here, rest⟩ := Option.bind_eq_some_iff.mp stepped
  have isThread := List.mem_of_getElem? here
  have outcome := read_sound supplied sound.store more read (sound.commands current isThread)
  let middle : MainVC :=
    { main with
      store := (current.command.read env more read main.store).store
      threads := main.threads.set thread
        { current with command := (current.command.read env more read main.store).command } }
  have soundMiddle : WindowSound env start middle :=
    sound.toWindowSound.goOn outcome.storeSound outcome.continues here outcome.commandSound outcome.sameListed
  have sameRequested : requestedIds middle = requestedIds main :=
    @requested_set main.threads thread current { current with command := _ } here
      outcome.sameHeaders
  obtain ⟨soundPosted, storePosted, requestedPosted⟩ := soundMiddle.foldl_post outcome.postedSound
    fun groupName articleRefs isPosted =>
      sound.listed current isThread groupName (outcome.announced groupName articleRefs isPosted)
  obtain ⟨count, length, refs⟩ := outcome.requested
  -- every new article was announced, and what was announced is asked for
  have allRequested : requestedIds ((current.command.read env more read main.store).posted.foldl (MainVC.post env) middle) =
      (current.command.read env more read main.store).store.realm.articleIds.drop start.articles.length := by
    rw [requestedPosted, sameRequested, refs, articleIds_gained outcome.continues length, sound.requested,
      List.drop_append_of_le_length]
    have shorter := sound.continues.entries.length_le
    rw [entries_length, entries_length] at shorter
    simpa [articleIds] using shorter
  have soundLater : MainSound env start
      ((current.command.read env more read main.store).posted.foldl (MainVC.post env) middle) :=
    ⟨soundPosted, by rw [allRequested, storePosted]⟩
  dsimp only at rest
  split at rest
  · rename_i tab _
    exact @Runs.invariant_foldlM _ _ (MainVC.showArticle env tab) (MainSound env start)
      (fun state article after shown holds => holds.showArticle shown) _ _ _ rest soundLater
  · exact Option.some.inj rest ▸ soundLater


/-! ## What users do -/

theorem openStreams_sound {realm : Realm} {command : RunningCommand} (sound : CommandSound env realm command)
    (created : Bool) : CommandSound env realm (command.openStreams created) := by
  have opened : ∀ {δ : Type} {account : Text × Text} {within : δ → Prop} {admitted : Request → Prop}
      {session : Session δ}, session.Confined account within admitted →
        (session.openStreams created).Confined account within admitted := by
    intro δ account within admitted session confined
    unfold Session.openStreams
    split
    · exact confined
    · exact confined.update rfl rfl rfl rfl rfl
  cases command with
  | listGroups session => exact opened sound
  | listArticles session =>
    rw [RunningCommand.openStreams, CommandSound, Session.openStreams_delegate]
    exact ⟨sound.1, opened sound.2⟩
  | getHeaders session =>
    obtain ⟨group, name, serves, stored, confined⟩ := sound
    rw [RunningCommand.openStreams, CommandSound, Session.openStreams_delegate]
    exact ⟨group, name, serves, stored, opened confined⟩
  | getArticle tab session =>
    obtain ⟨group, name, serves, stored, confined⟩ := sound
    rw [RunningCommand.openStreams, CommandSound, Session.openStreams_delegate]
    exact ⟨group, name, serves, stored, opened confined⟩

theorem openStreams_keeps (command : RunningCommand) (created : Bool) :
    headerIds (command.openStreams created) = headerIds command ∧
      listedGroup (command.openStreams created) = listedGroup command := by
  cases command <;> simp [RunningCommand.openStreams, headerIds, listedGroup, Session.openStreams_delegate]

theorem MainSound.make (sound : MainSound env start main) {command : RunningCommand}
    (isCommand : CommandSound env main.store.realm command) (noHeaders : headerIds command = [])
    (listed : ∀ name, listedGroup command = some name → name ∈ main.tabs.map (·.groupName)) :
    MainSound env start (main.make command) := by
  refine ⟨⟨sound.store, sound.continues, sound.tabNames, sound.tabs, sound.selected, ?_, ?_⟩, ?_⟩
  · intro thread member
    rcases List.mem_append.mp member with old | new
    · exact sound.commands thread old
    · exact List.mem_singleton.mp new ▸ isCommand
  · intro thread member
    rcases List.mem_append.mp member with old | new
    · exact sound.listed thread old
    · exact List.mem_singleton.mp new ▸ listed
  · have same : requestedIds (main.make command) = requestedIds main := by
      simp [requestedIds, MainVC.make, noHeaders]
    exact same.trans sound.requested

theorem MainSound.groupSelected (sound : MainSound env start main) {group : GroupRef} {later : MainVC}
    (selected : main.groupSelected env group = some later) : MainSound env start later := by
  obtain ⟨record, here, rest⟩ := Option.bind_eq_some_iff.mp selected
  split at rest
  · rename_i tab found
    obtain rfl := Option.some.inj rest
    obtain ⟨inside, -, -⟩ := List.findIdx?_eq_some_iff_getElem.mp found
    exact ⟨⟨sound.store, sound.continues, sound.tabNames, sound.tabs,
      fun other isSelected => Option.some.inj isSelected ▸ inside, sound.commands, sound.listed⟩, sound.requested⟩
  · rename_i notFound
    obtain ⟨groupId, isId, isLater⟩ := Option.bind_eq_some_iff.mp rest
    obtain rfl := Option.some.inj isLater
    have serves : Serves main.store.realm groupId group record.name :=
      ⟨findGroupById_of_unique sound.store.ids here isId, by rw [here]; rfl⟩
    have newName : record.name ∉ main.tabs.map (·.groupName) := by
      intro member
      obtain ⟨tab, inside, isName⟩ := List.mem_map.mp member
      have different := List.findIdx?_eq_none_iff.mp notFound tab inside
      simp [isName] at different
    refine ⟨⟨sound.store, sound.continues, ?_, ?_, ?_, sound.commands, ?_⟩, sound.requested⟩
    · rw [List.map_append, List.map_singleton, ← List.concat_eq_append]
      exact sound.tabNames.concat newName
    · intro tab member
      rcases List.mem_append.mp member with old | new
      · exact sound.tabs tab old
      · exact List.mem_singleton.mp new ▸ tabSound_new serves
    · intro tab isSelected
      obtain rfl := Option.some.inj isSelected
      simp
    · intro thread member name isListed
      rw [List.map_append]
      exact List.mem_append_left _ (sound.listed thread member name isListed)

/-- What a step can do. -/
inductive Step (env : Environment) (main : MainVC) : Event → MainVC → Prop
  | searched (text : Text) : Step env main (.searchForText text) { main with searchText := text }
  | selected {selectedRow : Int} {group : GroupRef} {later : MainVC} (shown : main.groupSelected env group = some later) :
      Step env main (.selectionDidChange selectedRow) later
  | listing : Step env main .onRefreshGroups (main.make (.listGroups
      (session env { rbox := { realm := main.store.realm }, supply := env.supply })))
  | refreshing {tab : Nat} {view : GroupTabView} (here : main.tabs[tab]? = some view) :
      Step env main (.onRefresh tab) (main.make (.listArticles
        (session env { rbox := { realm := main.store.realm }, group := view.group, groupName := view.groupName })))
  | opening {tab : Nat} {selectedRow : Int} {view : GroupTabView} {row : ArticleRef} {article : NewsGroupArticle}
      (here : main.tabs[tab]? = some view) (isRow : row ∈ view.result main.store.realm)
      (atRow : main.store.realm.articles[row]? = some article) :
      Step env main (.articleSelected tab selectedRow) (main.make (.getArticle tab
        (session env { rbox := { realm := main.store.realm }, groupId := view.groupId, articleId := article.id })))
  | noRow {tab : Nat} {selectedRow : Int} : Step env main (.articleSelected tab selectedRow) main
  | starting {thread : Nat} {created : Bool} {current : CommandThread} (here : main.threads[thread]? = some current) :
      Step env main (.threadStarts thread created) { main with
        threads := main.threads.set thread { command := current.command.openStreams created, started := true } }
  | reading {thread : Nat} {more : Bool} {read : Read} {later : MainVC}
      (available : main.bytesAvailable env thread more read = some later) :
      Step env main (.bytesAvailable thread more read) later

theorem step_cases {event : Event} {later : MainVC} (stepped : main.step env event = some later) :
    Step env main event later := by
  cases event with
  | searchForText text =>
    obtain ⟨groups, -, isLater⟩ := Option.bind_eq_some_iff.mp stepped
    exact Option.some.inj isLater ▸ .searched text
  | selectionDidChange selectedRow =>
    simp only [MainVC.step] at stepped
    split at stepped
    · obtain ⟨row, -, rest⟩ := Option.bind_eq_some_iff.mp stepped
      obtain ⟨group, -, shown⟩ := Option.bind_eq_some_iff.mp rest
      exact .selected shown
    · cases stepped
  | onRefreshGroups => exact Option.some.inj stepped ▸ .listing
  | onRefresh tab =>
    obtain ⟨view, here, isLater⟩ := Option.bind_eq_some_iff.mp stepped
    exact Option.some.inj isLater ▸ .refreshing here
  | articleSelected tab selectedRow =>
    obtain ⟨view, here, rest⟩ := Option.bind_eq_some_iff.mp stepped
    have isRow : ∀ row, (if 0 ≤ selectedRow then (view.result main.store.realm)[selectedRow.toNat]? else none) =
        some row → row ∈ view.result main.store.realm := by
      intro row selected
      split at selected
      · exact List.mem_of_getElem? selected
      · cases selected
    generalize (if 0 ≤ selectedRow then (view.result main.store.realm)[selectedRow.toNat]? else none) = row at *
    dsimp only at rest
    split at rest
    · rename_i article found
      obtain ⟨place, selected, atRow⟩ := Option.bind_eq_some_iff.mp found
      exact Option.some.inj rest ▸ .opening here (isRow place selected) atRow
    · exact Option.some.inj rest ▸ .noRow
  | threadStarts thread created =>
    obtain ⟨current, here, rest⟩ := Option.bind_eq_some_iff.mp stepped
    split at rest
    · cases rest
    · exact Option.some.inj rest ▸ .starting here
  | bytesAvailable thread more read => exact .reading stepped

theorem MainSound.step (supplied : Function.Injective fun place => (env.supply place).uuidString)
    (sound : MainSound env start main) {event : Event} {later : MainVC} (stepped : main.step env event = some later) :
    MainSound env start later := by
  cases step_cases stepped with
  | searched text =>
    exact ⟨⟨sound.store, sound.continues, sound.tabNames, sound.tabs, sound.selected, sound.commands, sound.listed⟩,
      sound.requested⟩
  | selected shown => exact sound.groupSelected shown
  | listing => exact sound.make (Session.confined_new _ _ rfl) rfl fun _ isListed => by cases isListed
  | @refreshing tab view here =>
    have inside := List.mem_of_getElem? here
    refine sound.make ⟨(sound.tabs view inside).serves.2, Session.confined_new _ _ ⟨rfl, rfl⟩⟩ rfl ?_
    intro name isListed
    exact Option.some.inj isListed ▸ List.mem_map_of_mem inside
  | @opening tab selectedRow view row article here isRow atRow =>
    have isTab := sound.tabs view (List.mem_of_getElem? here)
    have stored : (some view.group, article.id) ∈ main.store.realm.entries := by
      obtain ⟨articleId, isEntry⟩ := (isTab.mem_result sound.store).mp isRow
      rw [Realm.entries, List.getElem?_map, atRow] at isEntry
      have sameGroup : article.group = some view.group := congrArg Prod.fst (Option.some.inj isEntry)
      rw [← sameGroup]
      exact mem_entries atRow
    refine sound.make ⟨view.group, view.groupName, isTab.serves, stored,
      Session.confined_new _ _ ⟨rfl, rfl, isTab.serves.named⟩⟩ rfl ?_
    intro name isListed
    cases isListed
  | noRow => exact sound
  | @starting thread created current here =>
    obtain ⟨sameHeaders, sameListed⟩ := openStreams_keeps current.command created
    have isCommand := openStreams_sound (sound.commands current (List.mem_of_getElem? here)) created
    let opened : CommandThread := { command := current.command.openStreams created, started := true }
    have goesOn : WindowSound env start { main with threads := main.threads.set thread opened } :=
      sound.toWindowSound.goOn sound.store (Continues.refl _) here isCommand sameListed
    exact ⟨goesOn, (requested_set here sameHeaders).trans sound.requested⟩
  | reading available => exact sound.bytesAvailable supplied available

/-- The window at its start: a store that is in order, no tabs, and no commands. -/
theorem mainSound_start {store : Store} (sound : StoreSound env.supply store) :
    MainSound env store.realm { store } where
  store := sound
  continues := Continues.refl _
  tabNames := List.nodup_nil
  tabs _ member := absurd member List.not_mem_nil
  selected _ isSelected := by cases isSelected
  commands _ member := absurd member List.not_mem_nil
  listed _ member := absurd member List.not_mem_nil
  requested := by
    have all : store.realm.articleIds.length ≤ store.realm.articles.length := by simp [articleIds]
    exact (List.drop_eq_nil_of_le all).symm

theorem run_sound (supplied : Function.Injective fun place => (env.supply place).uuidString)
    (sound : MainSound env start main) {events : List Event} {later : MainVC} (ran : main.run env events = some later) :
    MainSound env start later :=
  @Runs.invariant_foldlM _ _ (MainVC.step env) (MainSound env start)
    (fun _ _ _ stepped holds => holds.step supplied stepped) _ _ _ ran sound

theorem run_append {front back : List Event} {middle : MainVC} (ran : main.run env front = some middle) :
    main.run env (front ++ back) = middle.run env back := by
  rw [MainVC.run, List.foldlM_append, ← MainVC.run, ran]
  rfl

/-- A run in which no text with a quote or a backslash is looked up: what has been looked up is in the store
    behind it. -/
structure PlainRun (env : Environment) (events : List Event) (main later : MainVC) : Prop where
  ran : main.run env events = some later
  plain : LookUps.PlainStore later.store.realm

/-! ## A run -/

def countingEnvironment : Environment where
  username := "reader".toList
  password := "secret".toList
  supply place := { uuidString := List.replicate place 'a', created := 0, updated := 0 }
  dateFormatter _ _ := none
  equality := scalarEquality
  containsCD _ _ := false
  otherFilter _ := none
  machine := decodingMachine

theorem countingEnvironment_supplied :
    Function.Injective fun place => (countingEnvironment.supply place).uuidString := by
  intro place other same
  have lengths : (List.replicate place 'a').length = (List.replicate other 'a').length := congrArg List.length same
  rwa [List.length_replicate, List.length_replicate] at lengths

def served (thread : Nat) (line : String) : Event := .bytesAvailable thread false (.ofText line.toList)

def logsIn (thread : Nat) : List Event :=
  [.threadStarts thread true, served thread "200 news.easynews.com Welcome!\r\n", served thread "381 PASS required\r\n",
    served thread "281 Welcome To Easynews.\r\n"]

/-- The groups are listed, one is selected and its articles are listed, and a header comes. -/
def refreshingOnce : List Event :=
  [.onRefreshGroups] ++ logsIn 0 ++
    [served 0 "215 NewsGroups Follow\r\n", served 0 "alt.a 2 1 y\r\nalt.b 2 1 n\r\n.\r\n", .selectionDidChange 0,
      .onRefresh 0] ++ logsIn 1 ++
    [served 1 "211 Article Numbers Follow\r\n", served 1 "1\r\n2\r\n.\r\n"] ++ logsIn 2 ++
    [served 2 "211 2 1 2 alt.a\r\n", served 2 "221 1 <a>\r\nSubject: Hello\r\n.\r\n"]

def unusedWindow : MainVC := { store := { realm := ⟨[], []⟩ } }

theorem refreshingOnce_runs : (unusedWindow.run countingEnvironment refreshingOnce).isSome := by decide +kernel

def refreshedWindow : MainVC := (unusedWindow.run countingEnvironment refreshingOnce).get refreshingOnce_runs

theorem run_refreshingOnce : unusedWindow.run countingEnvironment refreshingOnce = some refreshedWindow :=
  (Option.some_get _).symm

/-- Then the other group gets a tab and its article a header, and an article of the first tab is opened. -/
def readingOn : List Event :=
  [.selectionDidChange 1, .onRefresh 1] ++ logsIn 3 ++
    [served 3 "211 Article Numbers Follow\r\n", served 3 "5\r\n.\r\n"] ++ logsIn 4 ++
    [served 4 "211 1 5 5 alt.b\r\n", served 4 "221 5 <b>\r\nSubject: Other\r\n.\r\n", .articleSelected 0 0] ++ logsIn 5 ++
    [served 5 "211 2 1 2 alt.a\r\n", served 5 "220 1 <a>\r\nbody\r\n.\r\n"]

theorem readingOn_runs : (refreshedWindow.run countingEnvironment readingOn).isSome := by decide +kernel

def readWindow : MainVC := (refreshedWindow.run countingEnvironment readingOn).get readingOn_runs

theorem run_readingOn : PlainRun countingEnvironment readingOn refreshedWindow readWindow :=
  ⟨(Option.some_get _).symm, by decide +kernel⟩

theorem run_reading : PlainRun countingEnvironment (refreshingOnce ++ readingOn) unusedWindow readWindow where
  ran := (run_append run_refreshingOnce).trans run_readingOn.ran
  plain := run_readingOn.plain

end EasyNews.Verified.MainWindowRuns
