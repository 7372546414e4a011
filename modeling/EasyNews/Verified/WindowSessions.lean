import EasyNews.Verified.HeaderFetching
import EasyNews.Verified.ThreadIsolation
import EasyNews.Verified.WholeSessions

/-! # Whole sessions in the window

A button makes a command, whose connection then gets what its server sends, while all other threads do as
they like. When the last line has come, the connection is closed again and the work of the command is there.
-/

namespace EasyNews.Verified.WindowSessions

open Session Realm ArticleStore SharedStore CommandReads CommandSessions CommandsAlone MainWindowRuns MainVC
open ThreadIsolation WholeSessions

variable {env : Environment}

/-! ## A thread of its own -/

/-- A thread starts, and then reads these. -/
def threadEvents (thread : Nat) (reads : List (Text × Bool)) : List Event :=
  .threadStarts thread true :: reads.map fun read => .bytesAvailable thread read.2 (.ofText read.1)

theorem runAlone_threadEvents {δ : Type} {wrap : Session δ → RunningCommand} {delegate : NewsReaderDelegate δ}
    (opens : ∀ session, (wrap session).openStreams true = wrap (session.openStreams true))
    (readsAlone : ∀ more read session, readAlone env more read (wrap session) = wrap (session.readStep delegate more read))
    (thread : Nat) (reads : List (Text × Bool)) (session : Session δ) :
    runAlone env (threadEvents thread reads) (wrap session) =
      wrap ((session.openStreams true).readSteps delegate (reads.map textRead)) := by
  rw [runAlone, threadEvents, List.foldl_cons, stepAlone, opens]
  generalize session.openStreams true = opened
  induction reads generalizing opened with
  | nil => rfl
  | cons read reads inductionHypothesis =>
    rw [List.map_cons, List.foldl_cons, stepAlone, readsAlone, inductionHypothesis]
    rfl

/-- The session of a command whose streams have been created, with its own copy of the store. -/
def opened {δ : Type} (env : Environment) (delegate : δ) : Session δ := (session env delegate).openStreams true

theorem opened_opened {δ : Type} (delegate : δ) : Opened (opened env delegate) := ⟨rfl, rfl, rfl⟩

def account (env : Environment) : List Text :=
  [commandLine "AUTHINFO user" env.username, commandLine "AUTHINFO pass" env.password]

/-- The connection of a thread has been closed, and this is all that has been written on it. -/
def Finished (main : MainVC) (thread : Nat) (texts : List Text) : Prop :=
  ∃ current, main.threads[thread]? = some current ∧ (talk current.command).1.isOpen = false ∧
    current.command.written = texts

theorem written_of_talk {command other : RunningCommand} (same : talk command = talk other) :
    command.written = other.written := by
  cases command <;> cases other <;> exact commands_of_trace (congrArg Prod.snd same)

theorem finished_of_apart {before later : MainVC} {thread : Nat} {alone : RunningCommand}
    (apart : Apart env before thread later alone) (closed : (talk alone).1.isOpen = false) {texts : List Text}
    (written : alone.written = texts) : Finished later thread texts := by
  obtain ⟨current, here, mirrors⟩ := apart.mirrors
  have same := talk_of_mirrors mirrors
  exact ⟨current, here, same ▸ closed, (written_of_talk same).trans written⟩

section Made

variable {start : Realm} {main later : MainVC} {after : List Event} {δ : Type} {wrap : Session δ → RunningCommand}
variable {delegate : NewsReaderDelegate δ}

/-- A new command gets these reads: its session is one that had the store of that moment to itself. -/
theorem session_apart (supplied : Function.Injective fun place => (env.supply place).uuidString)
    (sound : MainSound env start main) (there : TabsThere main) {thread : Nat} {command own : δ}
    (here : main.threads[thread]? = some { command := wrap (session env command) })
    (ranOn : main.run env after = some later)
    (opens : ∀ session, (wrap session).openStreams true = wrap (session.openStreams true))
    (readsAlone : ∀ more read session, readAlone env more read (wrap session) = wrap (session.readStep delegate more read))
    (attached : attach main.store (wrap (session env command)) = wrap (session env own)) {reads : List (Text × Bool)}
    (isOwn : eventsOf thread after = threadEvents thread reads) :
    Apart env main thread later (wrap ((opened env own).readSteps delegate (reads.map textRead))) := by
  have apart := apart_run supplied sound there here ranOn
  rwa [isOwn, attached, runAlone_threadEvents opens readsAlone] at apart

theorem made_session (supplied : Function.Injective fun place => (env.supply place).uuidString)
    (sound : MainSound env start main) (there : TabsThere main) {event : Event} {command own : δ}
    (stepped : main.step env event = some (main.make (wrap (session env command))))
    (ranOn : (main.make (wrap (session env command))).run env after = some later)
    (opens : ∀ session, (wrap session).openStreams true = wrap (session.openStreams true))
    (readsAlone : ∀ more read session, readAlone env more read (wrap session) = wrap (session.readStep delegate more read))
    (attached : attach main.store (wrap (session env command)) = wrap (session env own)) {reads : List (Text × Bool)}
    (isOwn : eventsOf main.threads.length after = threadEvents main.threads.length reads) :
    Apart env (main.make (wrap (session env command))) main.threads.length later
      (wrap ((opened env own).readSteps delegate (reads.map textRead))) := by
  have here : (main.make (wrap (session env command))).threads[main.threads.length]? =
      some { command := wrap (session env command) } := by
    simp [MainVC.make]
  exact session_apart supplied (sound.step supplied stepped) (there.step stepped) here ranOn opens readsAlone attached
    isOwn

end Made

section Runs

variable {store : Store} {main later : MainVC} {events after : List Event}

/-! ## The groups -/

open GroupListing

/-- The two groups of the list are asked for and come in. -/
def listingEvents : List Event := .onRefreshGroups :: threadEvents 0 (markedEvents groupEvents)

theorem listingEvents_run : (unusedWindow.run countingEnvironment listingEvents).isSome := by decide +kernel

def listedWindow : MainVC := (unusedWindow.run countingEnvironment listingEvents).get listingEvents_run

theorem run_listing : PlainRun countingEnvironment listingEvents unusedWindow listedWindow :=
  ⟨(Option.some_get _).symm, by decide +kernel⟩

def tabEvents : List Event := listingEvents ++ [.selectionDidChange 0]

theorem tabEvents_run : (unusedWindow.run countingEnvironment tabEvents).isSome := by decide +kernel

def tabWindow : MainVC := (unusedWindow.run countingEnvironment tabEvents).get tabEvents_run

def openTab : GroupTabView := tabWindow.tabs.headD (.new scalarEquality 0 [] [])

/-- Three ids come in two reads, and somebody searches in between. -/
def idEvents : List Event :=
  let events := threadEvents 1 (markedEvents articleIdEvents)
  .onRefresh 0 :: (events.take 6 ++ [.searchForText "alt".toList] ++ events.drop 6)

theorem idEvents_run : (unusedWindow.run countingEnvironment (tabEvents ++ idEvents)).isSome := by decide +kernel

def idWindow : MainVC := (unusedWindow.run countingEnvironment (tabEvents ++ idEvents)).get idEvents_run

theorem run_ids : unusedWindow.run countingEnvironment (tabEvents ++ idEvents) = some idWindow :=
  (Option.some_get _).symm

theorem run_tab : unusedWindow.run countingEnvironment tabEvents = some tabWindow := (Option.some_get _).symm

theorem run_idsOn : PlainRun countingEnvironment idEvents tabWindow idWindow :=
  ⟨(run_append run_tab).symm.trans run_ids, by decide +kernel⟩

def openingEvents : List Event := .articleSelected 0 0 :: threadEvents 4 (markedEvents articleEvents)

theorem openingEvents_run : (idWindow.run countingEnvironment openingEvents).isSome := by decide +kernel

def articleWindow : MainVC := (idWindow.run countingEnvironment openingEvents).get openingEvents_run

theorem run_opening : PlainRun countingEnvironment openingEvents idWindow articleWindow :=
  ⟨(Option.some_get _).symm, by decide +kernel⟩

def refreshedTab : GroupTabView := idWindow.tabs.headD (.new scalarEquality 0 [] [])

def firstArticle : NewsGroupArticle := idWindow.store.realm.articles.headD (newArticle 0 [])

open HeaderFetching HeaderRuns

section Greeting

variable {δ : Type} {delegate : NewsReaderDelegate δ} {session : Session δ}

theorem answer_line (isOpened : Opened session) {line command : Text} (nonempty : command ≠ []) (more : Bool)
    (answers : ((session.log (.received (some line))).setResponse line).processResponse delegate line =
      (((session.log (.received (some line))).setResponse line).send command).setResponse []) :
    let later := session.readStep delegate more (.ofText line)
    later.reader = session.reader ∧ later.delegate = session.delegate ∧
      later.commands = session.commands ++ [command] := by
  dsimp only
  rw [isOpened.readStep, answers, send_of_open (by exact isOpened.isOpen) nonempty]
  refine ⟨?_, rfl, ?_⟩
  · have emptied : { session.reader with response := [] } = session.reader := by rw [← isOpened.response]
    exact emptied
  · have sent := commands_log_sent command (session.log (.received (some line)))
    rwa [commands_log_received] at sent

theorem greeted (isOpened : Opened session) {greeting passRequired : Text}
    (isGreeting : recognise greeting = some .welcome) (isPassRequired : recognise passRequired = some .passRequired)
    (moreGreeting morePass : Bool) :
    let later := (session.readStep delegate moreGreeting (.ofText greeting)).readStep delegate morePass
      (.ofText passRequired)
    later.reader = session.reader ∧ later.delegate = session.delegate ∧
      later.commands = session.commands ++ Login.commands session.reader := by
  obtain ⟨reader, sameDelegate, written⟩ := @answer_line δ delegate session isOpened greeting _ (commandLine_ne_nil _ _)
    moreGreeting (by rw [processResponse, isGreeting])
  generalize session.readStep delegate moreGreeting (.ofText greeting) = middle at reader sameDelegate written
  have middleOpened : Opened middle := ⟨reader ▸ isOpened.isOpen, reader ▸ isOpened.results, reader ▸ isOpened.response⟩
  obtain ⟨readerLater, sameLater, writtenLater⟩ := @answer_line δ delegate middle middleOpened passRequired _
    (commandLine_ne_nil _ _) morePass (by rw [processResponse, isPassRequired])
  refine ⟨readerLater.trans reader, sameLater.trans sameDelegate, ?_⟩
  rw [writtenLater, written, List.append_assoc]
  simp [Login.commands, reader]

end Greeting

theorem filled_fields (dateFormatter : Text → Text → Option Date) (realm : Realm) (group : GroupRef) (articleId : Text)
    {reply : HeadReply} (wellFormed : reply.WellFormed) :
    let record := filled dateFormatter realm group (articleId, reply.front)
    record.subject = reply.field "Subject".toList ∧ record.contentType = reply.field "Content-Type".toList ∧
      record.size = reply.size.or ((realm.recordOf articleId).bind NewsGroupArticle.size) := by
  dsimp only [filled]
  rw [ArticleGetMultipleHeadersCommand.writeHeader_eq]
  refine ⟨headerOfText_lookup wellFormed _, headerOfText_lookup wellFormed _, ?_⟩
  rw [← ArticleGetMultipleHeadersCommand.writeHeader_eq, writeHeader_size dateFormatter wellFormed, recordBefore_size]

def helloReply : HeadReply := .headers "7 head".toList [("Subject".toList, " Hello ".toList)]

def headReads : List (List Text) :=
  [[easynews.greeting], [easynews.passRequired],
    [welcomeLine, groupReply '2' " 7 8 alt.test\r\n".toList, helloReply.text]]

theorem heading_runs : (idWindow.run countingEnvironment (threadEvents 2 (markedEvents headReads))).isSome := by
  decide +kernel

def headedWindow : MainVC := (idWindow.run countingEnvironment (threadEvents 2 (markedEvents headReads))).get heading_runs

theorem run_heading : PlainRun countingEnvironment (threadEvents 2 (markedEvents headReads)) idWindow headedWindow :=
  ⟨(Option.some_get _).symm, by decide +kernel⟩

/-- The command that the first of the ids has made the tab make. -/
def askingSeven : ArticleGetMultipleHeadersCommand :=
  match idWindow.threads[2]?.map CommandThread.command with
  | some (.getHeaders session) => session.delegate
  | _ => { rbox := { realm := ⟨[], []⟩ }, groupId := [], articleIds := [] }

end Runs

end EasyNews.Verified.WindowSessions
