import Mathlib.Logic.Relation
import EasyNews.ReaderClients

/-! # Confined clients

What a reader writes and under which id it hands on a header depends on the requests it was given,
whatever the server sends. A client is confined if its state stays within some property and its
requests are all admitted, as long as the headers it gets are of ids it asked for.

* `Session.request_confined` — an admitted request keeps a session confined.
* `Session.Reached.readStep` — so does every read, and the client's state goes through its own steps only.
-/

namespace EasyNews

namespace Request

/-- The id a request leaves in the reader. -/
def articleId? : Request → Option Text
  | .article _ articleId | .articleHeader _ articleId => some articleId
  | _ => none

/-- What a request makes the reader write, at once or when its group has been selected. -/
def texts : Request → List Text
  | .quit => ["quit\n".toList]
  | .close => []
  | .listGroups => ["LIST\n".toList]
  | .listArticles groupName => [commandLine "LISTGROUP" groupName]
  | .article groupName articleId => [commandLine "GROUP" groupName, commandLine "ARTICLE" articleId]
  | .articleHeader groupName articleId => [commandLine "GROUP" groupName, commandLine "HEAD" articleId]

end Request

/-- A text of the login with this user name and password, or of an admitted request. -/
def Writable (account : Text × Text) (admitted : Request → Prop) (text : Text) : Prop :=
  text = commandLine "AUTHINFO user" account.1 ∨ text = commandLine "AUTHINFO pass" account.2 ∨
    ∃ request, admitted request ∧ text ∈ request.texts

/-- A header that is handed on is of an id that was asked for. -/
def Callback.Answers (admitted : Request → Prop) : Callback → Prop
  | .articleHeader articleId _ => ∃ request, admitted request ∧ request.articleId? = some articleId
  | _ => True

structure Client.Confined {δ : Type} (client : Client δ) (within : δ → Prop) (admitted : Request → Prop)
    (moves : δ → δ → Prop) : Prop where
  stays : ∀ callback delegate isOpen connected, within delegate → callback.Answers admitted →
    within (client.react callback delegate isOpen connected).1
  steps : ∀ callback delegate isOpen connected, within delegate → callback.Answers admitted →
    Relation.ReflTransGen moves delegate (client.react callback delegate isOpen connected).1
  asks : ∀ callback delegate isOpen connected, within delegate → callback.Answers admitted →
    ∀ request ∈ (client.react callback delegate isOpen connected).2, admitted request

namespace Session

variable {δ : Type}

structure Confined (account : Text × Text) (within : δ → Prop) (admitted : Request → Prop) (session : Session δ) :
    Prop where
  login : (session.reader.username, session.reader.password) = account
  within : within session.delegate
  written : ∀ text ∈ session.commands, Writable account admitted text
  selecting : session.reader.currentGroupCommand ≠ [] →
    Writable account admitted session.reader.currentGroupCommand
  asked : session.reader.currentOperation = some .articleHeader →
    ∃ request, admitted request ∧ request.articleId? = some session.reader.articleId

variable {account : Text × Text} {within : δ → Prop} {admitted : Request → Prop} {session : Session δ}

theorem confined_new (username password : Text) {delegate : δ} (inside : within delegate) :
    (new username password delegate).Confined (username, password) within admitted where
  login := rfl
  within := inside
  written _ member := absurd member List.not_mem_nil
  selecting nonempty := absurd rfl nonempty
  asked isHeader := by cases isHeader

namespace Confined

theorem assign (confined : session.Confined account within admitted) {delegate : δ} (inside : within delegate) :
    (session.assign delegate).Confined account within admitted :=
  ⟨confined.login, inside, confined.written, confined.selecting, confined.asked⟩

theorem update (confined : session.Confined account within admitted) {change : NewsReader → NewsReader}
    (username : (change session.reader).username = session.reader.username)
    (password : (change session.reader).password = session.reader.password)
    (groupCommand : (change session.reader).currentGroupCommand = session.reader.currentGroupCommand)
    (operation : (change session.reader).currentOperation = session.reader.currentOperation)
    (articleId : (change session.reader).articleId = session.reader.articleId) :
    (session.update change).Confined account within admitted where
  login := by rw [update_reader, username, password, confined.login]
  within := confined.within
  written := confined.written
  selecting := by simpa only [update_reader, groupCommand] using confined.selecting
  asked := by simpa only [update_reader, operation, articleId] using confined.asked

theorem ask (confined : session.Confined account within admitted) {change : NewsReader → NewsReader}
    (username : (change session.reader).username = session.reader.username)
    (password : (change session.reader).password = session.reader.password)
    (selecting : (change session.reader).currentGroupCommand = session.reader.currentGroupCommand ∨
      Writable account admitted (change session.reader).currentGroupCommand)
    (asked : (change session.reader).currentOperation = some .articleHeader →
      ∃ request, admitted request ∧ request.articleId? = some (change session.reader).articleId) :
    (session.update change).Confined account within admitted where
  login := by rw [update_reader, username, password, confined.login]
  within := confined.within
  written := confined.written
  selecting nonempty := by
    cases selecting with
    | inl same =>
      rw [update_reader, same] at nonempty
      rw [update_reader, same]
      exact confined.selecting nonempty
    | inr writable => exact writable
  asked := asked

theorem log (confined : session.Confined account within admitted) {effect : Effect}
    (writable : ∀ text, effect = .sent text → Writable account admitted text) :
    (session.log effect).Confined account within admitted where
  login := confined.login
  within := confined.within
  written text member := by
    cases effect with
    | sent command =>
      rw [commands_log_sent, List.mem_append, List.mem_singleton] at member
      obtain earlier | rfl := member
      · exact confined.written text earlier
      · exact writable text rfl
    | received output =>
      rw [commands_log_received] at member
      exact confined.written text member
    | called callback =>
      rw [commands_log_called] at member
      exact confined.written text member
  selecting := confined.selecting
  asked := confined.asked

theorem send (confined : session.Confined account within admitted) {command : Text}
    (writable : command ≠ [] → Writable account admitted command) :
    (session.send command).Confined account within admitted := by
  unfold Session.send
  split
  · rename_i written
    exact confined.log fun text same => by
      cases same
      exact writable written.2
  · exact confined

theorem close (confined : session.Confined account within admitted) : session.close.Confined account within admitted := by
  unfold Session.close
  split
  · exact confined.update rfl rfl rfl rfl rfl
  · exact confined

end Confined

/-! ## Requests -/

theorem writable_of_texts {request : Request} (isAdmitted : admitted request) {text : Text}
    (inside : text ∈ request.texts) : Writable account admitted text :=
  Or.inr (Or.inr ⟨request, isAdmitted, inside⟩)

theorem request_confined (confined : session.Confined account within admitted) {request : Request}
    (isAdmitted : admitted request) : (session.request request).Confined account within admitted := by
  have texts : ∀ {text : Text}, text ∈ request.texts → text ≠ [] →
      Writable account admitted text := fun inside _ => writable_of_texts isAdmitted inside
  have refused : session.notConnected.Confined account within admitted := confined.log fun _ same => by cases same
  cases request with
  | quit =>
    simp only [Session.request, quit]
    split
    · exact confined.send (texts (by simp [Request.texts]))
    · exact confined
  | close => exact confined.close
  | listGroups =>
    simp only [Session.request, listGroups]
    split
    · exact (confined.ask rfl rfl (.inl rfl) fun other => by cases other).send (texts (by simp [Request.texts]))
    · exact refused
  | listArticles groupName =>
    simp only [Session.request, listArticles]
    split
    · exact (confined.ask rfl rfl (.inl rfl) fun other => by cases other).send (texts (by simp [Request.texts]))
    · exact refused
  | article groupName articleId =>
    simp only [Session.request, article]
    split
    · -- the id is set first, so it belongs to whatever operation goes on
      have isAsked :
          (session.update fun reader => { reader with article := [], articleId }).Confined account within admitted :=
        confined.ask rfl rfl (.inl rfl) fun _ => ⟨_, isAdmitted, rfl⟩
      split
      · exact isAsked.send (texts (by simp [Request.texts]))
      · exact (isAsked.ask rfl rfl (.inr (texts (by simp [Request.texts]) (commandLine_ne_nil _ _)))
          fun other => by cases other).send
          (texts (by simp [Request.texts]))
    · exact refused
  | articleHeader groupName articleId =>
    simp only [Session.request, articleHeader]
    split
    · have isAsked : (session.update fun reader => { reader with articleId }).Confined account within admitted :=
        confined.ask rfl rfl (.inl rfl) fun _ => ⟨_, isAdmitted, rfl⟩
      split
      · exact isAsked.send (texts (by simp [Request.texts]))
      · exact (isAsked.ask rfl rfl (.inr (texts (by simp [Request.texts]) (commandLine_ne_nil _ _)))
          fun _ => ⟨_, isAdmitted, rfl⟩).send (texts (by simp [Request.texts]))
    · exact refused

/-! ## Reads -/

variable {client : Client δ} {moves : δ → δ → Prop}

/-- A confined session whose client has come from `start`. -/
structure Reached (account : Text × Text) (within : δ → Prop) (admitted : Request → Prop) (moves : δ → δ → Prop) (start : δ)
    (session : Session δ) : Prop where
  confined : session.Confined account within admitted
  moved : Relation.ReflTransGen moves start session.delegate

section Calls

variable {start : δ}

theorem Reached.requests (reached : session.Reached account within admitted moves start) {requests : List Request}
    (all : ∀ request ∈ requests, admitted request) :
    (requests.foldl Session.request session).Reached account within admitted moves start := by
  apply Runs.invariant_foldl_of_mem _ _ reached
  intro later request member holds
  refine ⟨request_confined holds.confined (all request member), ?_⟩
  rw [request_delegate]
  exact holds.moved

theorem Reached.call (isConfined : client.Confined within admitted moves)
    (reached : session.Reached account within admitted moves start) {callback : Callback}
    (delivers : session.Delivers callback) :
    (session.call client.delegate callback).Reached account within admitted moves start := by
  have answers : callback.Answers admitted := by
    cases callback with
    | articleHeader articleId header =>
      obtain ⟨rfl, operation⟩ := delivers
      exact reached.confined.asked operation
    | _ => trivial
  have logged : (session.log (.called callback)).Confined account within admitted :=
    reached.confined.log fun _ same => by cases same
  have inside := reached.confined.within
  let connected := session.reader.connected
  let isOpen := session.reader.isOpen
  have assigned : ((session.log (.called callback)).assign
      (client.react callback session.delegate isOpen connected).1).Reached account within admitted moves start :=
    ⟨logged.assign (isConfined.stays callback _ _ _ inside answers),
      reached.moved.trans (isConfined.steps callback _ _ _ inside answers)⟩
  exact assigned.requests (isConfined.asks callback _ _ _ inside answers)

theorem Reached.notify (isConfined : client.Confined within admitted moves)
    (reached : session.Reached account within admitted moves start) (notification : Notification) :
    (session.call client.delegate (.notification notification)).Reached account within admitted moves start :=
  have delivers : session.Delivers (.notification notification) := trivial
  reached.call isConfined delivers

theorem Reached.update (reached : session.Reached account within admitted moves start) {change : NewsReader → NewsReader}
    (username : (change session.reader).username = session.reader.username)
    (password : (change session.reader).password = session.reader.password)
    (groupCommand : (change session.reader).currentGroupCommand = session.reader.currentGroupCommand)
    (operation : (change session.reader).currentOperation = session.reader.currentOperation)
    (articleId : (change session.reader).articleId = session.reader.articleId) :
    (session.update change).Reached account within admitted moves start :=
  ⟨reached.confined.update username password groupCommand operation articleId, reached.moved⟩

theorem Reached.setResponse (reached : session.Reached account within admitted moves start) (response : Text) :
    (session.setResponse response).Reached account within admitted moves start :=
  reached.update rfl rfl rfl rfl rfl

theorem Reached.send (reached : session.Reached account within admitted moves start) {command : Text}
    (writable : command ≠ [] → Writable account admitted command) :
    (session.send command).Reached account within admitted moves start :=
  ⟨reached.confined.send writable, by rw [send_delegate]; exact reached.moved⟩

theorem Reached.processResponse (isConfined : client.Confined within admitted moves)
    (reached : session.Reached account within admitted moves start) (buffer : Text) :
    (session.processResponse client.delegate buffer).Reached account within admitted moves start := by
  unfold Session.processResponse
  split
  · exact (reached.send fun _ => Or.inl (reached.confined.login ▸ rfl)).setResponse []
  · exact reached.notify isConfined _
  · exact (reached.send fun _ => Or.inr (Or.inl (reached.confined.login ▸ rfl))).setResponse []
  · have connected : (session.update fun reader => { reader with connected := true }).Reached account
        within admitted moves start := reached.update rfl rfl rfl rfl rfl
    exact (connected.notify isConfined _).setResponse []
  · exact (reached.notify isConfined _).setResponse []
  · have closed : session.close.Reached account within admitted moves start :=
      ⟨reached.confined.close, by rw [close_delegate]; exact reached.moved⟩
    exact (closed.notify isConfined _).setResponse []
  · exact reached.update rfl rfl rfl rfl rfl
  · exact reached.update rfl rfl rfl rfl rfl
  · -- the command that was kept for the time its group is selected
    have results : (session.update fun reader => { reader with resultsComing := true, response := [] }).Reached account
        within admitted moves start := reached.update rfl rfl rfl rfl rfl
    exact results.send results.confined.selecting
  · exact reached

/-- Whatever the server sends, a confined client's session stays confined, and its state goes through
    its own steps. -/
theorem Reached.readStep (isConfined : client.Confined within admitted moves)
    (reached : session.Reached account within admitted moves start) (more : Bool) (read : Read) :
    (session.readStep client.delegate more read).Reached account within admitted moves start := by
  have delivered : ∀ later : Session δ, later.Reached account within admitted moves start →
      (later.deliver client.delegate).Reached account within admitted moves start := fun later holds =>
    @deliver_invariant_of_delivers δ client.delegate (fun later => later.Reached account within admitted moves start)
      (fun callback later delivers holds => holds.call isConfined delivers)
      (fun response later holds => holds.setResponse response)
      (fun article later _ holds => holds.update rfl rfl rfl rfl rfl) later holds
  have received : ∀ output (later : Session δ), later.Reached account within admitted moves start →
      (later.log (.received output)).Reached account within admitted moves start := by
    intro output later holds
    refine ⟨holds.confined.log ?_, holds.moved⟩
    intro text same
    cases same
  exact @readStep_invariant δ client.delegate (fun later => later.Reached account within admitted moves start) received
    (fun response later holds => holds.setResponse response) delivered
    (fun later holds => holds.processResponse isConfined _) more read session reached

end Calls

theorem Confined.readStep (confined : session.Confined account within admitted)
    (isConfined : client.Confined within admitted moves)
    {start : δ} (inside : within start) (more : Bool) (read : Read) :
    ((session.assign start).readStep client.delegate more read).Reached account within admitted moves start := by
  have begun : (session.assign start).Reached account within admitted moves start := ⟨confined.assign inside, .refl⟩
  exact begun.readStep isConfined more read

end Session

end EasyNews
