import EasyNews.ArticlesTable
import EasyNews.ArticleViews
import EasyNews.Filters
import EasyNews.ReaderClients

/-! # The main window

`MainVC` shows the groups and has a tab for every group that was selected. Its buttons and selections
make commands, each with a reader and a thread of its own; all work on one store, and what they post
reaches the tabs through the notification centre, by name.

The threads take turns read by read: a read makes one write transaction at most, what it posts is
handled in the posting thread at once, and names and ids, which are all that is looked up besides, are
never written again. `none` is a trap, an exception, or an event that cannot happen.

* `GroupTabView`, with its `ArticlesTableVM` and the rows of its `MeganTableView`.
* `RunningCommand` — a command with its reader; `RunningCommand.read` is its share in a read.
* `MainVC.step`, `MainVC.run`.
-/

namespace EasyNews

/-- What comes from outside the client: the account, the values that are drawn, the frameworks. -/
structure Environment where
  username : Text
  password : Text
  supply : Nat → Drawn
  dateFormatter : Text → Text → Option Date
  equality : StringEquality
  containsCD : Text → Text → Bool
  otherFilter : List (QuotedLiterals.Piece Char) → Option (NewsGroup → Bool)
  machine : Machine

def Environment.filtering (env : Environment) : Filters.Filtering NewsGroup :=
  Filters.ofGroups env.containsCD env.otherFilter

/-- The store of `MainVC.rbox`, and how many values have been drawn for its groups. -/
structure Store where
  realm : Realm
  drawn : Nat := 0

/-! ## Notifications.swift -/

def notificationGroupUpdated : Text := "Notification_GroupUpdated".toList

def notificationGroupsAdded : Text := "Notification_GroupAdded".toList

def notificationArticleGetHeader (groupName : Text) : Text := "Notification_ArticleGetHeader_".toList ++ groupName

def notificationArticleHeaderAdded (groupName : Text) : Text :=
  "Notification_ArticlesUpdated_ToGroup_".toList ++ groupName

def Posted.name : Posted → Text
  | .groupsAdded => notificationGroupsAdded
  | .groupUpdated _ => notificationGroupUpdated
  | .articleGetHeader groupName _ => notificationArticleGetHeader groupName
  | .articleHeaderAdded groupName _ => notificationArticleHeaderAdded groupName

/-! ## `GroupTabView` -/

/-- `GroupTabView`: the group's name and `id` as they were when the tab was made, its table with the
    number of articles handed to it, and what its view has done for one article after another. -/
structure GroupTabView where
  group : GroupRef
  groupName : Text
  groupId : Text
  articlesVM : ArticlesTableVM
  handed : Nat := 0
  effects : List (List ViewEffect) := []

namespace GroupTabView

/-- `GroupTabView.init(group:groupsTableDelegate:frame:)`. The table's objects are made later. -/
def new (equality : StringEquality) (group : GroupRef) (groupName groupId : Text) : GroupTabView where
  group
  groupName
  groupId
  articlesVM := .new equality fun _ => ⟨[], [], [], 0, none⟩

/-- What `articleView` holds. -/
def articleView (tab : GroupTabView) : Text := tab.effects.flatten.foldl ViewEffect.draw []

/-- `MeganTableView.setGroup(group:)`: `result`, the articles with `"group.id='…'"`, kept up to date. -/
def result (realm : Realm) (tab : GroupTabView) : List ArticleRef :=
  realm.articles.findIdxs fun article =>
    ((article.group.bind (realm.groups[·]?)).bind NewsGroup.id) = some tab.groupId

/-- `articlesVM?.addArticle(article:)`, with the object the notification brings. -/
def addArticle (article : ArticleVM) (tab : GroupTabView) : GroupTabView :=
  let table := { tab.articlesVM with objects := Function.update tab.articlesVM.objects tab.handed article }
  { tab with articlesVM := table.addArticle tab.handed, handed := tab.handed + 1 }

/-- `onArticleAdd`, an observer of `NotificationArticleHeaderAdded(groupName: group.name)`. -/
def onArticleAdd (posted : Posted) (tab : GroupTabView) : GroupTabView :=
  if posted.name = notificationArticleHeaderAdded tab.groupName then
    match posted with
    | .articleHeaderAdded _ article => tab.addArticle article
    | _ => tab
  else tab

/-- `onArticleGetHeader`, an observer of `NotificationArticleGetHeader(groupName: group.name)`: the
    command it makes, for the group of `articlesVM.group`. -/
def onArticleGetHeader (realm : Realm) (posted : Posted) (tab : GroupTabView) :
    Option ArticleGetMultipleHeadersCommand :=
  if posted.name = notificationArticleGetHeader tab.groupName then
    match posted with
    | .articleGetHeader _ articleRefs => do
      let group ← (realm.findGroupById tab.groupId).bind (realm.groups[·]?)
      let groupId ← group.id
      return {
        rbox := { realm }
        groupId
        articleIds := articleRefs.map fun article => (realm.articles[article]?.map (·.id)).getD [] }
    | _ => none
  else none

end GroupTabView

/-! ## Commands and their readers -/

/-- A command that has been made, with its reader; an `ArticleCommand` also with its delegate's tab. -/
inductive RunningCommand where
  | listGroups (session : Session ListGroupsCommand)
  | listArticles (session : Session ListGroupGetArticleIdsCommand)
  | getHeaders (session : Session ArticleGetMultipleHeadersCommand)
  | getArticle (tab : Nat) (session : Session ArticleCommand)

/-- What one read leaves behind: the command, the store, what was posted, and the articles its delegate
    was given. -/
structure ReadOutcome where
  command : RunningCommand
  store : Store
  posted : List Posted := []
  articles : List Text := []

namespace RunningCommand

def openStreams (created : Bool) : RunningCommand → RunningCommand
  | .listGroups session => .listGroups (session.openStreams created)
  | .listArticles session => .listArticles (session.openStreams created)
  | .getHeaders session => .getHeaders (session.openStreams created)
  | .getArticle tab session => .getArticle tab (session.openStreams created)

/-- One read of the command's reader, on the store as the other commands have left it. -/
def read (env : Environment) (more : Bool) (read : Read) (store : Store) : RunningCommand → ReadOutcome
  | .listGroups session =>
    let session := session.assign { session.delegate with rbox := { realm := store.realm }, drawn := store.drawn }
    let session := session.readStep ListGroupsCommand.newsReaderDelegate more read
    { command := .listGroups session
      store := ⟨session.delegate.rbox.realm, session.delegate.drawn⟩
      posted := session.delegate.rbox.posted }
  | .listArticles session =>
    let session := session.assign { session.delegate with rbox := { realm := store.realm } }
    let session := session.readStep ListGroupGetArticleIdsCommand.newsReaderDelegate more read
    { command := .listArticles session
      store := { store with realm := session.delegate.rbox.realm }
      posted := session.delegate.rbox.posted }
  | .getHeaders session =>
    let session := session.assign { session.delegate with rbox := { realm := store.realm } }
    let session := session.readStep (ArticleGetMultipleHeadersCommand.newsReaderDelegate env.dateFormatter) more read
    { command := .getHeaders session
      store := { store with realm := session.delegate.rbox.realm }
      posted := session.delegate.rbox.posted }
  | .getArticle tab session =>
    let session := session.assign { session.delegate with rbox := { realm := store.realm }, articles := [] }
    let session := session.readStep ArticleCommand.newsReaderDelegate more read
    { command := .getArticle tab session
      store
      articles := session.delegate.articles }

def written : RunningCommand → List Text
  | .listGroups session => session.commands
  | .listArticles session => session.commands
  | .getHeaders session => session.commands
  | .getArticle _ session => session.commands

/-- The tab whose view the command is for. -/
def tab? : RunningCommand → Option Nat
  | .getArticle tab _ => some tab
  | _ => none

end RunningCommand

/-- A command, and whether the thread that `open(name:)` starts has run `_open()`. -/
structure CommandThread where
  command : RunningCommand
  started : Bool := false

/-! ## `MainVC` -/

/-- `MainVC`: its store, the text `groupsVM` searches for, the tabs in the order they were added, the
    selected one, and every command made so far. -/
structure MainVC where
  store : Store
  searchText : Text := []
  tabs : List GroupTabView := []
  selectedTab : Option Nat := none
  threads : List CommandThread := []

inductive Event where
  | searchForText (text : Text)
  | selectionDidChange (selectedRow : Int)
  | onRefreshGroups
  | onRefresh (tab : Nat)
  | articleSelected (tab : Nat) (selectedRow : Int)
  | threadStarts (thread : Nat) (created : Bool)
  | bytesAvailable (thread : Nat) (more : Bool) (read : Read)

namespace MainVC

variable (env : Environment)

/-- `groupsVM.groups`, kept up to date. -/
def groups (main : MainVC) : List GroupRef :=
  (Filters.setSearch env.filtering main.store.realm main.searchText).getD []

/-- `groupSelected(group:)`; `tabCache` finds the tab of the group's name. -/
def groupSelected (group : GroupRef) (main : MainVC) : Option MainVC := do
  let record ← main.store.realm.groups[group]?
  match main.tabs.findIdx? fun tab => env.equality.form tab.groupName = env.equality.form record.name with
  | some tab => return { main with selectedTab := some tab }
  | none =>
    let groupId ← record.id
    return { main with
      tabs := main.tabs ++ [.new env.equality group record.name groupId]
      selectedTab := some main.tabs.length }

/-- A command is made with a reader of its own, `CreateNewsReader()`. -/
def make (command : RunningCommand) (main : MainVC) : MainVC :=
  { main with threads := main.threads ++ [{ command }] }

/-- The session of a new command. -/
def session {δ : Type} (delegate : δ) : Session δ := Session.new env.username env.password delegate

/-- What the observers of a notification do, one tab after another. -/
def post (main : MainVC) (posted : Posted) : MainVC :=
  let made := main.tabs.filterMap (·.onArticleGetHeader main.store.realm posted)
  { main with
    tabs := main.tabs.map (·.onArticleAdd posted)
    threads := main.threads ++ made.map fun command => { command := .getHeaders (session env command) } }

/-- `onNewArticle(article:)` of the view in a tab. -/
def showArticle (tab : Nat) (main : MainVC) (article : Text) : Option MainVC := do
  let effects ← meganTableView.onNewArticle env.machine article
  return { main with tabs := main.tabs.modify tab fun view => { view with effects := view.effects ++ [effects] } }

/-- A read of one thread's reader, and what follows from it in that thread. -/
def bytesAvailable (thread : Nat) (more : Bool) (read : Read) (main : MainVC) : Option MainVC := do
  let current ← main.threads[thread]?
  let outcome := current.command.read env more read main.store
  let later :=
    { main with
      store := outcome.store
      threads := main.threads.set thread { current with command := outcome.command } }
  let later := outcome.posted.foldl (post env) later
  match outcome.command.tab? with
  | some tab => outcome.articles.foldlM (showArticle env tab) later
  | none => return later

def step (main : MainVC) : Event → Option MainVC
  | .searchForText text => do
    let _ ← Filters.setSearch env.filtering main.store.realm text
    return { main with searchText := text }
  | .selectionDidChange selectedRow => do
    -- `result[self.selectedRow]`, which is -1 without a selection
    let row ← if 0 ≤ selectedRow then some selectedRow.toNat else none
    main.groupSelected env (← (main.groups env)[row]?)
  | .onRefreshGroups =>
    return main.make (.listGroups (session env { rbox := { realm := main.store.realm }, supply := env.supply }))
  | .onRefresh tab => do
    let view ← main.tabs[tab]?
    return main.make (.listArticles
      (session env { rbox := { realm := main.store.realm }, group := view.group, groupName := view.groupName }))
  | .articleSelected tab selectedRow => do
    let view ← main.tabs[tab]?
    -- `item(atRow:)` of a row that is not there is nil
    let row := if 0 ≤ selectedRow then (view.result main.store.realm)[selectedRow.toNat]? else none
    match row.bind (main.store.realm.articles[·]?) with
    | some article =>
      return main.make (.getArticle tab
        (session env { rbox := { realm := main.store.realm }, groupId := view.groupId, articleId := article.id }))
    | none => return main
  | .threadStarts thread created => do
    let current ← main.threads[thread]?
    if current.started then none
    else
      return { main with
        threads := main.threads.set thread { command := current.command.openStreams created, started := true } }
  | .bytesAvailable thread more read => main.bytesAvailable env thread more read

def run (events : List Event) (main : MainVC) : Option MainVC := events.foldlM (step env) main

end MainVC

end EasyNews
