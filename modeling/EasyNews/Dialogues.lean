import EasyNews.ListeningRuns
import EasyNews.NntpServer

/-! # Calls on a reader, and a server that answers them

A dialogue is a session with the server's current group and the number of commands it has
answered. Every status line and every block arrives in a read of its own; whether the two of one
answer come in one event is left open.

* `Call.expected` — what a call hands the delegate of a reader that has just logged in.
* `readSteps_lines` — what whole lines do once results are coming.
-/

namespace EasyNews

open Session

/-- The calls a logged-in reader takes. -/
inductive Call where
  | listGroups
  | listArticles (groupName : Text)
  | article (groupName articleId : Text)
  | articleHeader (groupName articleId : Text)
deriving DecidableEq, Repr

def Call.run : Call → Session Unit → Session Unit
  | .listGroups => Session.listGroups
  | .listArticles groupName => Session.listArticles groupName
  | .article groupName articleId => Session.article groupName articleId
  | .articleHeader groupName articleId => Session.articleHeader groupName articleId

structure Dialogue where
  session : Session Unit
  group : Option Text := none
  answered : Nat := 0

namespace Dialogue

variable (server : Server) (together : Nat → Bool)

/-- The reads of an answer in one event, or each in one of its own. -/
def events (together : Bool) (reads : List Read) : List (List Read) :=
  if together then [reads] else reads.map fun read => [read]

@[simp] theorem events_flatten (together : Bool) (reads : List Read) : (events together reads).flatten = reads := by
  unfold events
  split
  · simp
  · simp [List.flatten_eq_flatMap, List.flatMap_map]

/-- The server answers the oldest command it has not answered yet. -/
def answerNext (dialogue : Dialogue) : Dialogue :=
  match dialogue.session.commands[dialogue.answered]? with
  | some line =>
    let (answer, group) := server.respond dialogue.group line
    { session := dialogue.session.receive .silent (events (together dialogue.answered) answer.reads)
      group
      answered := dialogue.answered + 1 }
  | none => dialogue

/-- A call and the complete reply: a call sends one command, and a second one once its group is
    selected. -/
def perform (call : Call) (dialogue : Dialogue) : Dialogue :=
  answerNext server together (answerNext server together { dialogue with session := call.run dialogue.session })

def performAll (calls : List Call) (dialogue : Dialogue) : Dialogue :=
  calls.foldl (fun dialogue call => dialogue.perform server together call) dialogue

def produced (call : Call) (dialogue : Dialogue) : List Callback :=
  (dialogue.perform server together call).session.callbacks.drop dialogue.session.callbacks.length

def loggedIn (username password : Text) : Dialogue where
  session :=
    { reader := { username, password, isOpen := true, connected := true }
      delegate := () }

/-- Every command has been answered. -/
def Settled (dialogue : Dialogue) : Prop := dialogue.answered = dialogue.session.commands.length

variable {server together}

theorem answerNext_settled {dialogue : Dialogue} (settled : dialogue.Settled) :
    dialogue.answerNext server together = dialogue := by
  rw [answerNext, settled, List.getElem?_eq_none (Nat.le_refl _)]

theorem answerNext_line {dialogue : Dialogue} {earlier : List Text} {line : Text}
    (asked : dialogue.session.commands = earlier ++ [line]) (answered : dialogue.answered = earlier.length) :
    dialogue.answerNext server together =
      { session := dialogue.session.receive .silent
          (events (together dialogue.answered) (server.respond dialogue.group line).1.reads)
        group := (server.respond dialogue.group line).2
        answered := dialogue.answered + 1 } := by
  have next : dialogue.session.commands[dialogue.answered]? = some line := by
    rw [asked, answered, List.getElem?_append_right (Nat.le_refl _)]
    simp
  rw [answerNext, next]

theorem answerNext_asked {dialogue : Dialogue} {earlier : List Text} {command : Command}
    (asked : dialogue.session.commands = earlier ++ [command.text]) (answered : dialogue.answered = earlier.length) :
    dialogue.answerNext server together =
      { session := dialogue.session.receive .silent
          (events (together dialogue.answered) (server.answer dialogue.group command).1.reads)
        group := (server.answer dialogue.group command).2
        answered := dialogue.answered + 1 } := by
  rw [answerNext_line asked answered, Server.respond_text]

end Dialogue

/-! ## Whole lines once results are coming -/

/-- The callbacks of some whole lines, each read with its CR LF. -/
def deliverAll : NewsReader → List Text → List Callback
  | _, [] => []
  | reader, front :: fronts => deliveries reader front ++ deliverAll (reader.delivered front []) fronts

/-- The reader after them. -/
def NewsReader.deliveredAll (reader : NewsReader) (fronts : List Text) : NewsReader :=
  fronts.foldl (fun reader front => reader.delivered front []) reader

/-- What is delivered depends on the operation, a header's article id and an article's text so far. -/
theorem deliverAll_congr {reader other : NewsReader} (operation : reader.currentOperation = other.currentOperation)
    (articleId : reader.currentOperation = some .articleHeader → reader.articleId = other.articleId)
    (article : reader.currentOperation = some .article → reader.article = other.article) (fronts : List Text) :
    deliverAll reader fronts = deliverAll other fronts := by
  induction fronts generalizing reader other with
  | nil => rfl
  | cons front fronts inductionHypothesis =>
    have here : deliveries reader front = deliveries other front := by
      unfold deliveries
      rw [← operation]
      cases current : reader.currentOperation with
      | none => rfl
      | some running =>
        cases running with
        | article => rw [article current]
        | articleHeader => rw [articleId current]
        | _ => rfl
    have later : deliverAll (reader.delivered front []) fronts = deliverAll (other.delivered front []) fronts := by
      apply inductionHypothesis
      · exact operation
      · exact articleId
      · intro current
        have same := article current
        simp only [delivered_currentOperation] at current
        simp [NewsReader.delivered, ← operation, current, same]
    rw [deliverAll, deliverAll, here, later]

section DeliveredAll

variable (reader : NewsReader) (fronts : List Text)

/-- Whole lines change the article so far, and leave nothing behind. -/
theorem deliveredAll_eq :
    ∃ article, reader.deliveredAll fronts =
      { reader with article, response := if fronts = [] then reader.response else [] } := by
  induction fronts generalizing reader with
  | nil => exact ⟨reader.article, rfl⟩
  | cons front fronts inductionHypothesis =>
    obtain ⟨article, later⟩ := inductionHypothesis (reader.delivered front [])
    refine ⟨article, ?_⟩
    rw [NewsReader.deliveredAll, List.foldl_cons, ← NewsReader.deliveredAll, later]
    simp [NewsReader.delivered]

end DeliveredAll

theorem readSteps_lines {session : Session Unit} (isOpen : session.reader.isOpen = true)
    (results : session.reader.resultsComing = true) (nothing : session.reader.response = []) (fronts : List Text)
    {reads : List (Read × Bool)}
    (lines : reads.map Prod.fst = fronts.map fun front => Read.ofText (front ++ crlf.symbols)) :
    (session.readSteps .silent reads).commands = session.commands ∧
      (session.readSteps .silent reads).callbacks = session.callbacks ++ deliverAll session.reader fronts ∧
      (session.readSteps .silent reads).reader = session.reader.deliveredAll fronts := by
  induction fronts generalizing session reads with
  | nil =>
    have empty : reads = [] := List.map_eq_nil_iff.mp lines
    subst empty
    simp [deliverAll, NewsReader.deliveredAll]
  | cons front fronts inductionHypothesis =>
    cases reads with
    | nil => cases lines
    | cons read reads =>
      obtain ⟨text, more⟩ := read
      obtain ⟨isText, rest⟩ := List.cons.inj lines
      cases isText
      let later := session.afterDelivery (front ++ crlf.symbols) front []
      -- the read ends at a line end, so nothing is carried to the next one
      have step : session.readStep .silent more (.bytes (some (front ++ crlf.symbols))) = later :=
        readStep_silent_lineEnd more isOpen results front (front ++ crlf.symbols)
          (by rw [nothing, List.nil_append])
      have ih := @inductionHypothesis later isOpen results rfl reads rest
      rw [readSteps_cons, step]
      refine ⟨ih.1.trans (afterDelivery_commands _ _ _ _), ?_, ih.2.2⟩
      rw [ih.2.1, afterDelivery_callbacks, List.append_assoc]
      rfl

theorem receive_lines {session : Session Unit} (isOpen : session.reader.isOpen = true)
    (results : session.reader.resultsComing = true) (nothing : session.reader.response = []) (fronts : List Text)
    {events : List (List Read)}
    (lines : events.flatten = fronts.map fun front => Read.ofText (front ++ crlf.symbols)) :
    (session.receive .silent events).commands = session.commands ∧
      (session.receive .silent events).callbacks = session.callbacks ++ deliverAll session.reader fronts ∧
      (session.receive .silent events).reader = session.reader.deliveredAll fronts := by
  rw [receive_eq_readSteps]
  apply readSteps_lines isOpen results nothing
  rw [markedEvents_map_fst, lines]

/-! ## What a call should give -/

/-- A reader with results for an operation on an article. -/
def listener (operation : Operation) (articleId : Text) : NewsReader where
  username := []
  password := []
  currentOperation := some operation
  articleId := articleId

/-- The callbacks of a call on a reader that has just logged in. -/
def Call.expected (server : Server) : Call → List Callback
  | .listGroups =>
    if starts server.list.1 "NewsGroups Follow".toList then
      deliverAll (listener .listGroups []) [Answer.blockText server.list.2]
    else []
  | .listArticles groupName =>
    match server.listGroup groupName with
    | some (_, lines) => deliverAll (listener .listGroupArticles []) [Answer.blockText lines]
    | none => []
  | .article groupName articleId =>
    match server.group groupName with
    | some _ => deliverAll (listener .article articleId) (server.article (some groupName) articleId).fronts
    | none => []
  | .articleHeader groupName articleId =>
    match server.group groupName with
    | some _ => deliverAll (listener .articleHeader articleId) (server.head (some groupName) articleId).fronts
    | none => []

/-- The first answer to the call makes results come. -/
def Call.accepted (server : Server) : Call → Bool
  | .listGroups => starts server.list.1 "NewsGroups Follow".toList
  | .listArticles groupName => (server.listGroup groupName).isSome
  | .article groupName _ | .articleHeader groupName _ => (server.group groupName).isSome

/-- The calls that name an article. -/
def Call.isArticle : Call → Bool
  | .article _ _ | .articleHeader _ _ => true
  | _ => false

end EasyNews
