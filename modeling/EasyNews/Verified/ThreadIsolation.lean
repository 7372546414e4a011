import EasyNews.Verified.CommandsAlone
import EasyNews.Verified.WindowRequests
import EasyNews.Verified.WindowRows

/-! # A connection among others

The threads of the window share a store and take turns as they like. What is said on one connection is
what would have been said there if its command had been alone, with a copy of the store to itself; and
what it has written to its copy is in the store of all.
-/

namespace EasyNews.Verified.ThreadIsolation

open Realm SharedStore CommandReads CommandsAlone MainWindowRuns WindowRequests WindowRows MainVC

variable {env : Environment} {start : Realm} {main later : MainVC}

/-! ## Steps of the window -/

theorem showArticle_keeps {tab : Nat} {article : Text} (shown : main.showArticle env tab article = some later) :
    later.store = main.store ∧ later.threads = main.threads := by
  obtain ⟨effects, -, isLater⟩ := Option.bind_eq_some_iff.mp shown
  obtain rfl := Option.some.inj isLater
  exact ⟨rfl, rfl⟩

theorem run_cons {event : Event} {after : List Event} (ran : main.run env (event :: after) = some later) :
    ∃ middle, main.step env event = some middle ∧ middle.run env after = some later := by
  rwa [MainVC.run, List.foldlM_cons, Option.bind_eq_bind, Option.bind_eq_some_iff] at ran

/-- A read changes its own command, and makes commands for headers behind the others. -/
theorem bytesAvailable_threads {thread : Nat} {current : CommandThread} (here : main.threads[thread]? = some current)
    {more : Bool} {read : Read} (stepped : main.bytesAvailable env thread more read = some later) :
    let outcome := current.command.read env more read main.store
    later.store = outcome.store ∧ ∃ made : List ArticleGetMultipleHeadersCommand,
      later.threads = main.threads.set thread { current with command := outcome.command } ++
        made.map fun command => { command := .getHeaders (session env command) } := by
  let outcome := current.command.read env more read main.store
  let Kept (state : MainVC) : Prop := state.store = outcome.store ∧
    ∃ made : List ArticleGetMultipleHeadersCommand,
      state.threads = main.threads.set thread { current with command := outcome.command } ++
        made.map fun command => { command := .getHeaders (session env command) }
  obtain ⟨other, isHere, rest⟩ := Option.bind_eq_some_iff.mp stepped
  obtain rfl := Option.some.inj (here.symm.trans isHere)
  have posted := @Runs.invariant_foldl _ _ (MainVC.post env) Kept
    (fun state one holds => by
      obtain ⟨sameStore, made, threads⟩ := holds
      refine ⟨sameStore, made ++ madeBy state one, ?_⟩
      rw [List.map_append, ← List.append_assoc, ← threads]
      rfl)
    { main with
      store := outcome.store
      threads := main.threads.set thread { current with command := outcome.command } }
    ⟨rfl, [], (List.append_nil _).symm⟩ outcome.posted
  dsimp only at rest
  split at rest
  · rename_i tab _
    refine @Runs.invariant_foldlM _ _ (MainVC.showArticle env tab) Kept (fun state article after shown holds => ?_)
      _ _ _ rest posted
    obtain ⟨sameStore, sameThreads⟩ := showArticle_keeps shown
    exact ⟨sameStore.trans holds.1, sameThreads ▸ holds.2⟩
  · exact Option.some.inj rest ▸ posted

theorem groupSelected_keeps {group : GroupRef} (selected : main.groupSelected env group = some later) :
    later.store = main.store ∧ later.threads = main.threads := by
  obtain ⟨record, -, rest⟩ := Option.bind_eq_some_iff.mp selected
  split at rest
  · obtain rfl := Option.some.inj rest
    exact ⟨rfl, rfl⟩
  · obtain ⟨groupId, -, isLater⟩ := Option.bind_eq_some_iff.mp rest
    obtain rfl := Option.some.inj isLater
    exact ⟨rfl, rfl⟩

theorem getElem?_of_isPrefix {α : Type} {list longer : List α} (isPrefix : list <+: longer) {place : Nat} {element : α}
    (here : list[place]? = some element) : longer[place]? = some element := by
  obtain ⟨more, rfl⟩ := isPrefix
  rw [List.getElem?_append_left (List.getElem?_eq_some_iff.mp here).1, here]

theorem step_other {event : Event} (stepped : main.step env event = some later) {thread : Nat}
    (foreign : threadOf event ≠ some thread) {current : CommandThread} (here : main.threads[thread]? = some current) :
    later.threads[thread]? = some current := by
  have made : ∀ command, (main.make command).threads[thread]? = some current :=
    fun command => getElem?_of_isPrefix (List.prefix_append _ _) here
  cases step_cases stepped with
  | searched text => exact here
  | selected shown => exact (groupSelected_keeps shown).2 ▸ here
  | listing => exact made _
  | refreshing _ => exact made _
  | opening _ _ _ => exact made _
  | noRow => exact here
  | @starting other created opened isOther =>
    have different : other ≠ thread := fun same => foreign (congrArg some same)
    dsimp only
    rw [List.getElem?_set_ne different, here]
  | @reading other more read _ available =>
    have different : other ≠ thread := fun same => foreign (congrArg some same)
    obtain ⟨reader, isOther, -⟩ := Option.bind_eq_some_iff.mp available
    obtain ⟨-, made, threads⟩ := bytesAvailable_threads isOther available
    refine getElem?_of_isPrefix (threads ▸ List.prefix_append _ _) ?_
    rw [List.getElem?_set_ne different, here]

theorem records_other (sound : MainSound env start main) {event : Event} (stepped : main.step env event = some later)
    {thread : Nat} (foreign : threadOf event ≠ some thread) {current : CommandThread}
    (here : main.threads[thread]? = some current) {articleId : Text} (isAsked : articleId ∈ headerIds current.command) :
    later.store.realm.recordOf articleId = main.store.realm.recordOf articleId := by
  cases step_cases stepped with
  | selected shown => rw [(groupSelected_keeps shown).1]
  | @reading other more read _ available =>
    have different : other ≠ thread := fun same => foreign (congrArg some same)
    obtain ⟨reader, isOther, -⟩ := Option.bind_eq_some_iff.mp available
    have stored : articleId ∈ main.store.realm.articleIds := by
      rw [sound.articleIds_eq]
      exact List.mem_append_right _ (List.mem_flatMap.mpr ⟨current, List.mem_of_getElem? here, isAsked⟩)
    rw [(bytesAvailable_threads isOther available).1]
    refine read_records sound.store more read (sound.commands reader (List.mem_of_getElem? isOther)) stored
      fun otherAsks => ?_
    exact different (thread_of_headerId sound.requested_nodup isOther here otherAsks isAsked)
  | _ => rfl

/-! ## What tabs show -/

theorem onArticleAdd_effects (posted : Posted) (tab : GroupTabView) : (tab.onArticleAdd posted).effects = tab.effects := by
  unfold GroupTabView.onArticleAdd
  split
  · split <;> rfl
  · rfl

/-- The view of a tab has shown these articles, one after another, and holds the last of them. -/
structure ShownSince (env : Environment) (view other : GroupTabView) (articles : List Text) : Prop where
  effects : ∃ effects, other.effects = view.effects ++ effects ∧
    List.Forall₂ (fun article done => meganTableView.onNewArticle env.machine article = some done) articles effects
  articleView : other.articleView = articles.getLast?.getD view.articleView

theorem shownSince_nil {view other : GroupTabView} (same : other.effects = view.effects) :
    ShownSince env view other [] where
  effects := ⟨[], by rw [same, List.append_nil], .nil⟩
  articleView := by
    rw [GroupTabView.articleView, same]
    rfl

theorem ShownSince.trans {view middle other : GroupTabView} {articles more : List Text}
    (first : ShownSince env view middle articles) (second : ShownSince env middle other more) :
    ShownSince env view other (articles ++ more) where
  effects := by
    obtain ⟨effects, isMiddle, done⟩ := first.effects
    obtain ⟨others, isOther, othersDone⟩ := second.effects
    exact ⟨effects ++ others, by rw [isOther, isMiddle, List.append_assoc], List.rel_append done othersDone⟩
  articleView := by
    rw [second.articleView, first.articleView, List.getLast?_append]
    cases more.getLast? <;> rfl

theorem shownSince_one {view : GroupTabView} {article : Text} {done : List ViewEffect}
    (isDone : meganTableView.onNewArticle env.machine article = some done) :
    ShownSince env view { view with effects := view.effects ++ [done] } [article] where
  effects := ⟨[done], rfl, .cons isDone .nil⟩
  articleView := by
    rw [GroupTabView.articleView, List.flatten_append, List.foldl_append, List.flatten_singleton]
    exact meganTableView.draw_onNewArticle isDone _

theorem showArticles_shown {tab : Nat} {view : GroupTabView} (here : main.tabs[tab]? = some view) {articles : List Text}
    (shown : articles.foldlM (MainVC.showArticle env tab) main = some later) :
    ∃ other, later.tabs[tab]? = some other ∧ ShownSince env view other articles := by
  induction articles generalizing main view with
  | nil =>
    cases shown
    exact ⟨view, here, shownSince_nil rfl⟩
  | cons article articles inductionHypothesis =>
    obtain ⟨middle, first, rest⟩ := Option.bind_eq_some_iff.mp shown
    obtain ⟨done, isDone, isMiddle⟩ := Option.bind_eq_some_iff.mp first
    obtain rfl := Option.some.inj isMiddle
    have there : (main.tabs.modify tab fun view => { view with effects := view.effects ++ [done] })[tab]? =
        some { view with effects := view.effects ++ [done] } := by
      simp [here]
    obtain ⟨other, isLater, others⟩ := inductionHypothesis there rest
    exact ⟨other, isLater, (shownSince_one isDone).trans others⟩

theorem showArticles_other {tab place : Nat} (different : place ≠ tab) {articles : List Text}
    (shown : articles.foldlM (MainVC.showArticle env tab) main = some later) :
    later.tabs[place]? = main.tabs[place]? := by
  refine @Runs.invariant_foldlM _ _ (MainVC.showArticle env tab)
    (fun state => state.tabs[place]? = main.tabs[place]?) (fun state article after showing holds => ?_) _ _ _ shown rfl
  obtain ⟨effects, -, isLater⟩ := Option.bind_eq_some_iff.mp showing
  obtain rfl := Option.some.inj isLater
  have untouched : ∀ change : GroupTabView → GroupTabView, (state.tabs.modify tab change)[place]? = state.tabs[place]? := by
    simp [Ne.symm different]
  exact (untouched _).trans holds

theorem bytesAvailable_shown {thread : Nat} {current : CommandThread} (here : main.threads[thread]? = some current)
    {more : Bool} {read : Read} (stepped : main.bytesAvailable env thread more read = some later) {place : Nat}
    {tab : GroupTabView} (isTab : main.tabs[place]? = some tab) :
    let outcome := current.command.read env more read main.store
    ∃ other shown, later.tabs[place]? = some other ∧ ShownSince env tab other shown ∧
      (outcome.command.tab? = some place → shown = outcome.articles) := by
  let outcome := current.command.read env more read main.store
  obtain ⟨other, isHere, rest⟩ := Option.bind_eq_some_iff.mp stepped
  obtain rfl := Option.some.inj (here.symm.trans isHere)
  have posted := @Runs.invariant_foldl _ _ (MainVC.post env)
    (fun state => ∃ other, state.tabs[place]? = some other ∧ other.effects = tab.effects)
    (fun state one holds => by
      obtain ⟨other, there, same⟩ := holds
      exact ⟨other.onArticleAdd one, by simp [MainVC.post, there], (onArticleAdd_effects one other).trans same⟩)
    { main with
      store := outcome.store
      threads := main.threads.set thread { current with command := outcome.command } }
    ⟨tab, isTab, rfl⟩ outcome.posted
  obtain ⟨middle, there, same⟩ := posted
  have untouched : ShownSince env tab middle [] := shownSince_nil same
  dsimp only at rest ⊢
  split at rest
  · rename_i ofCommand isCommand
    by_cases isPlace : place = ofCommand
    · subst isPlace
      obtain ⟨last, isLater, shown⟩ := showArticles_shown there rest
      exact ⟨last, outcome.articles, isLater, untouched.trans shown, fun _ => rfl⟩
    · refine ⟨middle, [], (showArticles_other isPlace rest).trans there, untouched, fun isTab => ?_⟩
      exact absurd (Option.some.inj (isTab.symm.trans isCommand)) isPlace
  · rename_i noTab
    obtain rfl := Option.some.inj rest
    refine ⟨middle, [], there, untouched, fun isTab => ?_⟩
    rw [noTab] at isTab
    cases isTab

theorem step_shown {event : Event} (stepped : main.step env event = some later) {place : Nat} {tab : GroupTabView}
    (isTab : main.tabs[place]? = some tab) :
    ∃ other shown, later.tabs[place]? = some other ∧ ShownSince env tab other shown := by
  have same : later.tabs[place]? = some tab → ∃ other shown, later.tabs[place]? = some other ∧
      ShownSince env tab other shown := fun there => ⟨tab, [], there, shownSince_nil rfl⟩
  cases step_cases stepped with
  | @selected _ group _ shown =>
    obtain ⟨record, -, rest⟩ := Option.bind_eq_some_iff.mp shown
    split at rest
    · obtain rfl := Option.some.inj rest
      exact same isTab
    · obtain ⟨groupId, -, isLater⟩ := Option.bind_eq_some_iff.mp rest
      obtain rfl := Option.some.inj isLater
      exact same (getElem?_of_isPrefix (List.prefix_append _ _) isTab)
  | reading available =>
    obtain ⟨reader, isReader, -⟩ := Option.bind_eq_some_iff.mp available
    obtain ⟨other, shown, there, since, -⟩ := bytesAvailable_shown isReader available isTab
    exact ⟨other, shown, there, since⟩
  | _ => exact same isTab

/-! ## The tabs of commands -/

/-- The tab that a command shows its articles in is there. -/
def TabsThere (main : MainVC) : Prop :=
  ∀ thread ∈ main.threads, ∀ tab, thread.command.tab? = some tab → tab < main.tabs.length

theorem tab?_read (env : Environment) (more : Bool) (read : Read) (store : Store) (command : RunningCommand) :
    (command.read env more read store).command.tab? = command.tab? := by
  cases command <;> rfl

theorem tab?_openStreams (command : RunningCommand) (created : Bool) :
    (command.openStreams created).tab? = command.tab? := by
  cases command <;> rfl

theorem TabsThere.step (there : TabsThere main) {event : Event} (stepped : main.step env event = some later) :
    TabsThere later := by
  have tabs : main.tabs.length ≤ later.tabs.length := by
    by_contra fewer
    obtain ⟨other, shown, isTab, -⟩ := step_shown stepped (List.getElem?_eq_getElem (by omega : later.tabs.length < _))
    rw [List.getElem?_eq_none (Nat.le_refl _)] at isTab
    cases isTab
  have old : ∀ thread ∈ main.threads, ∀ tab, thread.command.tab? = some tab → tab < later.tabs.length :=
    fun thread member tab isTab => Nat.lt_of_lt_of_le (there thread member tab isTab) tabs
  have made : ∀ command : RunningCommand, (∀ tab, command.tab? = some tab → tab < later.tabs.length) →
      ∀ thread ∈ (main.make command).threads, ∀ tab, thread.command.tab? = some tab → tab < later.tabs.length := by
    intro command isNew thread member
    rcases List.mem_append.mp member with inside | new
    · exact old thread inside
    · exact List.mem_singleton.mp new ▸ isNew
  cases step_cases stepped with
  | selected shown => exact fun thread member => old thread ((groupSelected_keeps shown).2 ▸ member)
  | listing => exact made _ fun tab isTab => by cases isTab
  | refreshing _ => exact made _ fun tab isTab => by cases isTab
  | opening here _ _ =>
    exact made _ fun tab isTab => Option.some.inj isTab ▸ (List.getElem?_eq_some_iff.mp here).1
  | @starting thread created current here =>
    intro other member tab isTab
    rcases List.mem_or_eq_of_mem_set member with inside | rfl
    · exact old other inside tab isTab
    · exact old current (List.mem_of_getElem? here) tab ((tab?_openStreams _ _).symm.trans isTab)
  | @reading thread more read _ available =>
    obtain ⟨current, here, -⟩ := Option.bind_eq_some_iff.mp available
    obtain ⟨-, made, threads⟩ := bytesAvailable_threads here available
    intro other member tab isTab
    rw [threads] at member
    rcases List.mem_append.mp member with isSet | new
    · rcases List.mem_or_eq_of_mem_set isSet with inside | rfl
      · exact old other inside tab isTab
      · exact old current (List.mem_of_getElem? here) tab ((tab?_read _ _ _ _ _).symm.trans isTab)
    · obtain ⟨command, -, rfl⟩ := List.mem_map.mp new
      cases isTab
  | _ => exact old

theorem tabsThere_run {events : List Event} (there : TabsThere main) (ran : main.run env events = some later) :
    TabsThere later :=
  @Runs.invariant_foldlM _ _ (MainVC.step env) TabsThere (fun _ _ _ stepped holds => holds.step stepped) _ _ _ ran there

theorem tabsThere_start {store : Store} {events : List Event} (ran : MainVC.run env events { store } = some main) :
    TabsThere main :=
  tabsThere_run (fun _ member => absurd member List.not_mem_nil) ran

/-! ## A thread and its command alone -/

/-- The thread mirrors the command alone, and the command's tab has shown the articles the command has given it, among
    those of others. -/
structure Apart (env : Environment) (before : MainVC) (thread : Nat) (main : MainVC) (alone : RunningCommand) : Prop where
  mirrors : ∃ current, main.threads[thread]? = some current ∧ Mirrors (attach main.store current.command) alone
  asks : before.threads[thread]?.map (fun thread => headerIds thread.command) = some (headerIds alone)
  shown : ∀ tab, alone.tab? = some tab → ∃ view other articles, before.tabs[tab]? = some view ∧
    main.tabs[tab]? = some other ∧ ShownSince env view other articles ∧ (given alone).Sublist articles

theorem apart_start (sound : MainSound env start main) (there : TabsThere main) {thread : Nat} {current : CommandThread}
    (here : main.threads[thread]? = some current) :
    Apart env main thread main (attach main.store current.command) where
  mirrors :=
    ⟨current, here, mirrors_start sound.store (sound.commands current (List.mem_of_getElem? here))⟩
  asks := by
    obtain ⟨command, started⟩ := current
    rw [here, Option.map_some]
    cases command <;> rfl
  shown tab isTab := by
    obtain ⟨command, started⟩ := current
    have sameTab : command.tab? = some tab := by
      rw [← isTab]
      cases command <;> rfl
    have nothing : given (attach main.store command) = [] := by cases command <;> rfl
    have inside := there _ (List.mem_of_getElem? here) tab sameTab
    refine ⟨_, _, [], List.getElem?_eq_getElem inside, List.getElem?_eq_getElem inside, shownSince_nil rfl, ?_⟩
    rw [nothing]

section Steps

variable {before : MainVC} {thread : Nat} {alone : RunningCommand}

/-- A step of the thread is a step of the command alone. -/
theorem Apart.own (supplied : Function.Injective fun place => (env.supply place).uuidString)
    (sound : MainSound env start main) (apart : Apart env before thread main alone) {event : Event}
    (stepped : main.step env event = some later) (isOwn : threadOf event = some thread) :
    Apart env before thread later (stepAlone env alone event) := by
  obtain ⟨current, here, mirrors⟩ := apart.mirrors
  have inside := (List.getElem?_eq_some_iff.mp here).1
  cases step_cases stepped with
  | @starting other created opened isOpened =>
    obtain rfl : other = thread := Option.some.inj isOwn
    obtain rfl := Option.some.inj (here.symm.trans isOpened)
    have opens := mirrors.openStreams created
    refine ⟨⟨_, List.getElem?_set_self inside, opens⟩, ?_, fun tab isTab => ?_⟩
    · rw [apart.asks, stepAlone, opens.sameHeaders, (openStreams_keeps _ created).1, mirrors.sameHeaders]
    have sameGiven : given (alone.openStreams created) = given alone := by
      cases alone <;> simp [given, RunningCommand.openStreams, Session.openStreams_delegate]
    rw [stepAlone, sameGiven]
    exact apart.shown tab ((tab?_openStreams alone created).symm.trans isTab)
  | @reading reader more read _ available =>
    obtain rfl : reader = thread := Option.some.inj isOwn
    obtain ⟨sameStore, made, threads⟩ := bytesAvailable_threads here available
    have there : later.threads[reader]? = some
        { current with command := (current.command.read env more read main.store).command } := by
      rw [threads, List.getElem?_append_left (by rwa [List.length_set]), List.getElem?_set_self inside]
    have reads := @Mirrors.read env _ _ _ mirrors more read
    have sameHeaders := (read_sound supplied sound.store more read
      (sound.commands current (List.mem_of_getElem? here))).sameHeaders
    refine ⟨⟨_, there, sameStore ▸ reads⟩, ?_, fun tab isTab => ?_⟩
    · rw [apart.asks, stepAlone, reads.sameHeaders, sameHeaders, mirrors.sameHeaders]
    have sameTab : alone.tab? = some tab := by
      rw [← isTab]
      cases alone <;> rfl
    obtain ⟨view, other, articles, isView, isOther, shown, inOrder⟩ := apart.shown tab sameTab
    obtain ⟨last, more, isLast, shownLast, ofCommand⟩ := bytesAvailable_shown here available isOther
    obtain rfl := ofCommand (by rw [tab?_read, ← mirrors.tab?, sameTab])
    refine ⟨view, last, _, isView, isLast, shown.trans shownLast, ?_⟩
    rw [stepAlone, mirrors.read_given]
    exact inOrder.append (List.Sublist.refl _)
  | _ => cases isOwn

/-- A step of another thread, or of none, changes nothing of the two. -/
theorem Apart.foreign (supplied : Function.Injective fun place => (env.supply place).uuidString)
    (sound : MainSound env start main) (apart : Apart env before thread main alone) {event : Event}
    (stepped : main.step env event = some later) (isForeign : threadOf event ≠ some thread) :
    Apart env before thread later alone := by
  obtain ⟨current, here, mirrors⟩ := apart.mirrors
  have goesOn : GoesOn True main later := goesOn_step supplied sound (fun _ _ => trivial) stepped
  refine ⟨⟨current, step_other stepped isForeign here, ?_⟩, apart.asks, fun tab isTab => ?_⟩
  · exact mirrors.goesOn (sound.step supplied stepped).store goesOn.continues
      fun articleId isAsked => records_other sound stepped isForeign here isAsked
  · obtain ⟨view, other, articles, isView, isOther, shown, inOrder⟩ := apart.shown tab isTab
    obtain ⟨last, more, isLast, shownLast⟩ := step_shown stepped isOther
    exact ⟨view, last, _, isView, isLast, shown.trans shownLast, inOrder.trans (List.sublist_append_left _ _)⟩

theorem apart_run (supplied : Function.Injective fun place => (env.supply place).uuidString)
    (sound : MainSound env start main) (there : TabsThere main) {current : CommandThread}
    (here : main.threads[thread]? = some current) {events : List Event} (ran : main.run env events = some later) :
    Apart env main thread later (runAlone env (eventsOf thread events) (attach main.store current.command)) :=
  Runs.relation_foldlM (fun _ _ _ stepped holds => MainSound.step supplied holds stepped)
    (fun _ _ _ _ isOwn stepped holds apart => apart.own supplied holds stepped (of_decide_eq_true isOwn))
    (fun _ _ _ _ isForeign stepped holds apart => apart.foreign supplied holds stepped (of_decide_eq_false isForeign))
    ran sound (apart_start sound there here)

end Steps

/-! ## What the window has of it -/

/-- What a command alone has written into its copy of the store, or given to its view, is in the window. -/
def Kept (env : Environment) (main later : MainVC) : RunningCommand → Prop
  | .listGroups session =>
    session.delegate.rbox.realm.groups.map NewsGroup.name ⊆ later.store.realm.groups.map NewsGroup.name
  | .listArticles session => session.delegate.rbox.realm.articleIds ⊆ later.store.realm.articleIds
  | .getHeaders session => ∀ articleId ∈ session.delegate.articleIds,
    later.store.realm.recordOf articleId = session.delegate.rbox.realm.recordOf articleId
  | .getArticle tab session => ∃ view other articles, main.tabs[tab]? = some view ∧ later.tabs[tab]? = some other ∧
    ShownSince env view other articles ∧ session.delegate.articles.Sublist articles

theorem Apart.kept {before : MainVC} {thread : Nat} {alone : RunningCommand}
    (apart : Apart env before thread main alone) : Kept env before main alone := by
  obtain ⟨⟨⟨command, started⟩, -, mirrors⟩, -, shown⟩ := apart
  cases command <;> cases alone <;> try exact mirrors.elim
  · exact mirrors.delegates.names
  · exact mirrors.delegates.articleIds
  · obtain ⟨group, name, agree⟩ := mirrors
    exact agree.delegates.records
  · exact shown _ rfl

theorem run_apart (supplied : Function.Injective fun place => (env.supply place).uuidString) {store : Store}
    (sound : StoreSound env.supply store) {events after : List Event} (ran : MainVC.run env events { store } = some main)
    {thread : Nat} {current : CommandThread} (here : main.threads[thread]? = some current)
    (ranOn : main.run env after = some later) :
    Apart env main thread later (runAlone env (eventsOf thread after) (attach main.store current.command)) :=
  apart_run supplied (run_sound supplied (mainSound_start sound) ran) (tabsThere_start ran) here ranOn

/-! ## In every run -/

section Runs

variable {store : Store} {events after : List Event} {thread : Nat} {current : CommandThread}

/-- Whatever the other threads do and in whatever order, a connection is as if its command were alone: what it
    receives, sends and calls, and the state of its reader, depend on the events of its own thread only. -/
theorem connection_alone (supplied : Function.Injective fun place => (env.supply place).uuidString)
    (sound : StoreSound env.supply store) (ran : MainVC.run env events { store } = some main)
    (here : main.threads[thread]? = some current) (ranOn : main.run env after = some later) :
    ∃ other, later.threads[thread]? = some other ∧
      talk other.command = talk (runAlone env (eventsOf thread after) (attach main.store current.command)) := by
  obtain ⟨other, isThere, mirrors⟩ := (run_apart supplied sound ran here ranOn).mirrors
  exact ⟨other, isThere, talk_of_mirrors mirrors⟩

/-- The command that lists the groups, and the window when it has been made. -/
def listing : RunningCommand := .listGroups
  (session countingEnvironment { rbox := { realm := unusedWindow.store.realm }, supply := countingEnvironment.supply })

def askedWindow : MainVC := unusedWindow.make listing

theorem run_asked : unusedWindow.run countingEnvironment [.onRefreshGroups] = some askedWindow := rfl

theorem run_afterAsked : askedWindow.run countingEnvironment refreshingOnce.tail = some refreshedWindow := by
  have whole : refreshingOnce = .onRefreshGroups :: refreshingOnce.tail := rfl
  have ran := run_refreshingOnce
  rw [whole] at ran
  obtain ⟨middle, first, rest⟩ := run_cons ran
  obtain rfl : askedWindow = middle := Option.some.inj first
  exact rest

theorem connection_alone_asked :
    ∃ other, refreshedWindow.threads[0]? = some other ∧ talk other.command =
      talk (runAlone countingEnvironment (eventsOf 0 refreshingOnce.tail) (attach askedWindow.store listing)) :=
  have here : askedWindow.threads[0]? = some { command := listing } := rfl
  connection_alone countingEnvironment_supplied (storeSound_empty _) run_asked here run_afterAsked

/-- The window behind the first events of the run with two tabs. -/
def windowAt (count : Nat) : MainVC :=
  (unusedWindow.run countingEnvironment ((refreshingOnce ++ readingOn).take count)).getD unusedWindow

theorem run_windowAt {count : Nat}
    (runs : (unusedWindow.run countingEnvironment ((refreshingOnce ++ readingOn).take count)).isSome) :
    unusedWindow.run countingEnvironment ((refreshingOnce ++ readingOn).take count) = some (windowAt count) := by
  obtain ⟨window, isWindow⟩ := Option.isSome_iff_exists.mp runs
  rw [windowAt, isWindow, Option.getD_some]

theorem run_since {count : Nat}
    (runs : (unusedWindow.run countingEnvironment ((refreshingOnce ++ readingOn).take count)).isSome) :
    PlainRun countingEnvironment ((refreshingOnce ++ readingOn).drop count) (windowAt count) readWindow where
  ran := by
    rw [← run_append (run_windowAt runs), List.take_append_drop]
    exact run_reading.ran
  plain := run_reading.plain

/-- From then on the window keeps what the thread's command does. -/
def KeptSince (count thread : Nat) : Prop :=
  ∃ current, (windowAt count).threads[thread]? = some current ∧
    Kept countingEnvironment (windowAt count) readWindow (runAlone countingEnvironment
      (eventsOf thread ((refreshingOnce ++ readingOn).drop count)) (attach (windowAt count).store current.command))

end Runs

end EasyNews.Verified.ThreadIsolation
