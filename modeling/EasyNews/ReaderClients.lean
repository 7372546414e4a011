import EasyNews.Library.Runs
import EasyNews.ReaderCommands

/-! # Clients of a reader

Outside `NewsReader` only its public members can be used. A `Client` is a delegate that answers a
callback by a change of its own state and by requests; the commands are clients. An `Action` is
anything that can happen to a reader from outside, and a run is a list of actions.

* `Client.handle_invariant` — what every request keeps, a callback keeps.
* `run_behind` — a run does the same whatever was recorded before it.
-/

namespace EasyNews

/-- The public functions of `NewsReader` that a delegate may call. -/
inductive Request where
  | quit
  | close
  | listGroups
  | listArticles (groupName : Text)
  | article (groupName articleId : Text)
  | articleHeader (groupName articleId : Text)
deriving DecidableEq, Repr

/-- A delegate knows its own state and the public properties `isOpen` and `connected`. -/
structure Client (δ : Type) where
  react : Callback → δ → (isOpen connected : Bool) → δ × List Request

/-- What happens to a reader: `assign` is a new delegate, or a change of the delegate's state. -/
inductive Action (δ : Type) where
  | openStreams (created : Bool)
  | request (request : Request)
  | receive (reads : List Read)
  | assign (delegate : δ)

namespace Session

variable {δ : Type}

/-- `_open()`, which `open(name:)` runs on a thread of its own; `created` says whether
    `CFStreamCreatePairWithSocketToHost` gives both streams. -/
def openStreams (created : Bool) (session : Session δ) : Session δ :=
  if session.reader.isOpen then session
  else session.update fun reader => { reader with isOpen := created }

def request (session : Session δ) : Request → Session δ
  | .quit => session.quit
  | .close => session.close
  | .listGroups => session.listGroups
  | .listArticles groupName => session.listArticles groupName
  | .article groupName articleId => session.article groupName articleId
  | .articleHeader groupName articleId => session.articleHeader groupName articleId

def assign (delegate : δ) (session : Session δ) : Session δ := { session with delegate }

theorem request_closed {session : Session δ} (closed : session.reader.isOpen = false) (request : Request) :
    (session.request request).reader.isOpen = false := by
  cases request with
  | quit => simp [Session.request, quit, closed]
  | close => simp [Session.request]
  | listGroups => rw [Session.request, listGroups_isOpen, closed]
  | listArticles groupName => rw [Session.request, listArticles_isOpen, closed]
  | article groupName articleId =>
    simp only [Session.request, article]
    split
    · split <;> simp [closed]
    · exact closed
  | articleHeader groupName articleId => rw [Session.request, articleHeader_isOpen, closed]

/-! ## What a request cannot see

A request looks at neither the state of the delegate nor the trace.
-/

/-- The session with another delegate, recorded behind an earlier trace. -/
def reframe {ε : Type} (earlier : List Effect) (delegate : ε) (session : Session δ) : Session ε where
  reader := session.reader
  delegate
  trace := earlier ++ session.trace

section Reframe

variable {ε : Type} (earlier : List Effect) (delegate : ε) (session : Session δ)

@[simp] theorem reframe_reader : (session.reframe earlier delegate).reader = session.reader := rfl

@[simp] theorem update_reframe (change : NewsReader → NewsReader) :
    (session.reframe earlier delegate).update change = (session.update change).reframe earlier delegate := rfl

@[simp] theorem setResponse_reframe (response : Text) :
    (session.reframe earlier delegate).setResponse response =
      (session.setResponse response).reframe earlier delegate := rfl

@[simp] theorem log_reframe (effect : Effect) :
    (session.reframe earlier delegate).log effect = (session.log effect).reframe earlier delegate := by
  simp [reframe, log]

@[simp] theorem send_reframe (command : Text) :
    (session.reframe earlier delegate).send command = (session.send command).reframe earlier delegate := by
  cases isOpen : session.reader.isOpen with
  | false => simp [send, isOpen]
  | true => by_cases empty : command = [] <;> simp [send, isOpen, empty]

@[simp] theorem close_reframe :
    (session.reframe earlier delegate).close = session.close.reframe earlier delegate := by
  cases isOpen : session.reader.isOpen <;> simp [close, isOpen]

@[simp] theorem openStreams_reframe (created : Bool) :
    (session.reframe earlier delegate).openStreams created =
      (session.openStreams created).reframe earlier delegate := by
  cases isOpen : session.reader.isOpen <;> simp [openStreams, isOpen]

theorem notConnected_reframe :
    (session.reframe earlier delegate).notConnected = session.notConnected.reframe earlier delegate :=
  log_reframe _ _ _ _

theorem articleHeader_reframe (groupName articleId : Text) :
    (session.reframe earlier delegate).articleHeader groupName articleId =
      (session.articleHeader groupName articleId).reframe earlier delegate := by
  cases connected : session.reader.connected with
  | false => simp [articleHeader, connected, notConnected_reframe]
  | true => cases results : session.reader.resultsComing <;> simp [articleHeader, connected, results]

theorem request_reframe (request : Request) :
    (session.reframe earlier delegate).request request = (session.request request).reframe earlier delegate := by
  cases request with
  | quit => cases isOpen : session.reader.isOpen <;> simp [Session.request, quit, isOpen]
  | close => exact close_reframe _ _ _
  | listGroups =>
    cases connected : session.reader.connected <;>
      simp [Session.request, listGroups, connected, notConnected_reframe]
  | listArticles groupName =>
    cases connected : session.reader.connected <;>
      simp [Session.request, listArticles, connected, notConnected_reframe]
  | article groupName articleId =>
    cases connected : session.reader.connected with
    | false => simp [Session.request, article, connected, notConnected_reframe]
    | true =>
      cases results : session.reader.resultsComing <;> simp [Session.request, article, connected, results]
  | articleHeader groupName articleId => exact articleHeader_reframe _ _ _ _ _

end Reframe

end Session

namespace Client

variable {δ : Type} (client : Client δ)

def handle (callback : Callback) (session : Session δ) : Session δ :=
  let (delegate, requests) :=
    client.react callback session.delegate session.reader.isOpen session.reader.connected
  requests.foldl Session.request (session.assign delegate)

/-- Every request the client makes in a callback, whatever its state. -/
def Asks (admitted : Request → Prop) : Prop :=
  ∀ callback delegate isOpen connected, ∀ request ∈ (client.react callback delegate isOpen connected).2, admitted request

theorem handle_invariant_of_asks {invariant : Session δ → Prop} {admitted : Request → Prop} (asks : client.Asks admitted)
    (assigned : ∀ delegate session, invariant session → invariant (session.assign delegate))
    (requested : ∀ session request, admitted request → invariant session → invariant (session.request request))
    (callback : Callback) {session : Session δ} (holds : invariant session) :
    invariant (client.handle callback session) :=
  Runs.invariant_foldl_of_mem _ (fun later request inside => requested later request (asks _ _ _ _ request inside))
    (assigned _ session holds)

theorem handle_invariant {invariant : Session δ → Prop}
    (assigned : ∀ delegate session, invariant session → invariant (session.assign delegate))
    (requested : ∀ session request, invariant session → invariant (session.request request))
    (callback : Callback) {session : Session δ} (holds : invariant session) :
    invariant (client.handle callback session) :=
  @handle_invariant_of_asks δ client invariant (fun _ => True) (fun _ _ _ _ _ _ => trivial) assigned
    (fun session request _ => requested session request) callback session holds

def delegate : NewsReaderDelegate δ where
  handle := client.handle
  staysClosed callback _ closed :=
    @handle_invariant δ client (fun session => session.reader.isOpen = false)
      (fun _ _ closed => closed) (fun _ request closed => Session.request_closed closed request) callback _ closed

end Client

/-! ## The commands are clients -/

theorem NewsReaderDelegate.eq_of_handle {δ : Type} {first second : NewsReaderDelegate δ}
    (same : ∀ callback session, first.handle callback session = second.handle callback session) : first = second := by
  obtain ⟨handle, staysClosed⟩ := first
  obtain ⟨otherHandle, otherStaysClosed⟩ := second
  have handles : handle = otherHandle := funext fun callback => funext (same callback)
  subst handles
  rfl

def Client.silent : Client Unit where
  react _ delegate _ _ := (delegate, [])

def ListGroupsCommand.client : Client ListGroupsCommand where
  react callback command _ _ :=
    match callback with
    | .notification .connected => (command, [.listGroups])
    | .notification .done => (command, [.close])
    | .groups groups => (command.newsReaderGroups groups, [])
    | _ => (command, [])

theorem ListGroupsCommand.delegate_client : client.delegate = newsReaderDelegate := by
  apply NewsReaderDelegate.eq_of_handle
  intro callback session
  cases callback with
  | notification notification => cases notification <;> rfl
  | _ => rfl

def ListGroupGetArticleIdsCommand.client : Client ListGroupGetArticleIdsCommand where
  react callback command _ _ :=
    match callback with
    | .notification .connected => (command, [.listArticles command.groupName])
    | .notification .done => (command, [.close])
    | .articles articleIds => (command.newsReaderArticles articleIds, [])
    | _ => (command, [])

theorem ListGroupGetArticleIdsCommand.delegate_client : client.delegate = newsReaderDelegate := by
  apply NewsReaderDelegate.eq_of_handle
  intro callback session
  cases callback with
  | notification notification => cases notification <;> rfl
  | _ => rfl

namespace ArticleGetMultipleHeadersCommand

/-- What `next` does to the command, and what it asks of the reader. -/
def nextRequest (command : ArticleGetMultipleHeadersCommand) : ArticleGetMultipleHeadersCommand × List Request :=
  let realm := command.rbox.realm
  match (realm.findGroupById command.groupId).bind (realm.groups[·]?) with
  | some group =>
    match command.articleIds[command.idx]? with
    | some articleId => ({ command with idx := command.idx + 1 }, [.articleHeader group.name articleId])
    | none => (command, [.close])
  | none => (command, [])

variable (dateFormatter : Text → Text → Option Date)

def client : Client ArticleGetMultipleHeadersCommand where
  react callback command _ _ :=
    match callback with
    | .notification .connected => command.nextRequest
    | .notification .nextArticle => command.nextRequest
    | .notification .done => (command, [.close])
    | .articleHeader articleId header =>
      (command.newsReaderArticleHeader dateFormatter articleId header, [])
    | _ => (command, [])

theorem next_eq (session : Session ArticleGetMultipleHeadersCommand) :
    next session =
      session.delegate.nextRequest.2.foldl Session.request (session.assign session.delegate.nextRequest.1) := by
  simp only [next, nextRequest]
  cases (session.delegate.rbox.realm.findGroupById session.delegate.groupId).bind
      (session.delegate.rbox.realm.groups[·]?) with
  | none => rfl
  | some group =>
    cases session.delegate.articleIds[session.delegate.idx]? with
    | none => rfl
    | some articleId =>
      exact (Session.articleHeader_reframe [] _ session group.name articleId).symm

theorem delegate_client : (client dateFormatter).delegate = newsReaderDelegate dateFormatter := by
  apply NewsReaderDelegate.eq_of_handle
  intro callback session
  cases callback with
  | notification notification =>
    cases notification with
    | connected => exact (next_eq session).symm
    | nextArticle => exact (next_eq session).symm
    | done => rfl
    | connectionFailed => rfl
    | disconnected => rfl
  | articleHeader articleId header => rfl
  | _ => rfl

end ArticleGetMultipleHeadersCommand

namespace ArticleCommand

def startRequest (command : ArticleCommand) : List Request :=
  let realm := command.rbox.realm
  match (realm.findGroupById command.groupId).bind (realm.groups[·]?) with
  | some group => [.article group.name command.articleId]
  | none => []

def client : Client ArticleCommand where
  react callback command _ _ :=
    match callback with
    | .notification .connected => (command, command.startRequest)
    | .notification .done => (command, [.close])
    | .article article => (command.newsReaderArticle article, [])
    | _ => (command, [])

theorem start_eq (session : Session ArticleCommand) :
    start session = session.delegate.startRequest.foldl Session.request session := by
  simp only [start, startRequest]
  cases (session.delegate.rbox.realm.findGroupById session.delegate.groupId).bind
      (session.delegate.rbox.realm.groups[·]?) <;> rfl

theorem delegate_client : client.delegate = newsReaderDelegate := by
  apply NewsReaderDelegate.eq_of_handle
  intro callback session
  cases callback with
  | notification notification =>
    cases notification with
    | connected => exact (start_eq session).symm
    | _ => rfl
  | _ => rfl

end ArticleCommand

namespace Session

variable {δ : Type} (client : Client δ)

def act (session : Session δ) : Action δ → Session δ
  | .openStreams created => session.openStreams created
  | .request request => session.request request
  | .receive reads => session.hasBytesAvailable client.delegate reads
  | .assign delegate => session.assign delegate

def run (actions : List (Action δ)) (session : Session δ) : Session δ := actions.foldl (act client) session

def new (username password : Text) (delegate : δ) : Session δ where
  reader := { username, password }
  delegate

section Invariants

variable {client} {invariant : Session δ → Prop}

theorem call_invariant (logged : ∀ callback session, invariant session → invariant (session.log (.called callback)))
    (assigned : ∀ delegate session, invariant session → invariant (session.assign delegate))
    (requested : ∀ session request, invariant session → invariant (session.request request))
    (callback : Callback) (session : Session δ) (holds : invariant session) :
    invariant (session.call client.delegate callback) :=
  client.handle_invariant assigned requested callback (logged callback session holds)

theorem act_invariant (opened : ∀ created session, invariant session → invariant (session.openStreams created))
    (requested : ∀ session request, invariant session → invariant (session.request request))
    (assigned : ∀ delegate session, invariant session → invariant (session.assign delegate))
    (read : ∀ more read session, invariant session → invariant (session.readStep client.delegate more read))
    (session : Session δ) (action : Action δ) (holds : invariant session) : invariant (session.act client action) := by
  cases action with
  | openStreams created => exact opened created session holds
  | request request => exact requested session request holds
  | assign delegate => exact assigned delegate session holds
  | receive reads =>
    rw [act, hasBytesAvailable_eq_readSteps]
    exact Runs.invariant_foldl _ (fun session (step : Read × Bool) => read step.2 step.1 session) holds _

end Invariants

/-! ## Runs do not look back -/

/-- The session recorded behind an earlier trace. -/
def behind (earlier : List Effect) (session : Session δ) : Session δ := session.reframe earlier session.delegate

section Behind

variable (earlier : List Effect) (session : Session δ)

@[simp] theorem behind_reader : (session.behind earlier).reader = session.reader := rfl

@[simp] theorem behind_delegate : (session.behind earlier).delegate = session.delegate := rfl

@[simp] theorem behind_trace : (session.behind earlier).trace = earlier ++ session.trace := rfl

@[simp] theorem behind_expects (operation : Operation) :
    (session.behind earlier).expects operation = session.expects operation := rfl

@[simp] theorem update_behind (change : NewsReader → NewsReader) :
    (session.behind earlier).update change = (session.update change).behind earlier := rfl

@[simp] theorem setResponse_behind (response : Text) :
    (session.behind earlier).setResponse response = (session.setResponse response).behind earlier := rfl

@[simp] theorem log_behind (effect : Effect) :
    (session.behind earlier).log effect = (session.log effect).behind earlier := log_reframe _ _ _ _

@[simp] theorem send_behind (command : Text) :
    (session.behind earlier).send command = (session.send command).behind earlier := by
  rw [behind, behind, send_reframe, send_delegate]

@[simp] theorem close_behind : (session.behind earlier).close = session.close.behind earlier := by
  rw [behind, behind, close_reframe, close_delegate]

theorem openStreams_delegate (created : Bool) (session : Session δ) :
    (session.openStreams created).delegate = session.delegate := by
  unfold openStreams
  split <;> rfl

theorem openStreams_behind (created : Bool) :
    (session.behind earlier).openStreams created = (session.openStreams created).behind earlier := by
  rw [behind, behind, openStreams_reframe, openStreams_delegate]

theorem request_delegate (request : Request) (session : Session δ) :
    (session.request request).delegate = session.delegate := by
  -- a request that is the same with any delegate keeps the one there is
  have same : session.request request = (session.request request).reframe [] session.delegate :=
    request_reframe [] session.delegate session request
  exact (congrArg Session.delegate same).trans rfl

theorem request_behind (request : Request) :
    (session.behind earlier).request request = (session.request request).behind earlier := by
  rw [behind, behind, request_reframe, request_delegate]

@[simp] theorem call_behind (callback : Callback) :
    (session.behind earlier).call client.delegate callback = (session.call client.delegate callback).behind earlier := by
  have foldl_behind : ∀ (requests : List Request) (session : Session δ),
      requests.foldl Session.request (session.behind earlier) =
        (requests.foldl Session.request session).behind earlier := by
    intro requests
    induction requests with
    | nil => exact fun _ => rfl
    | cons request requests inductionHypothesis =>
      intro session
      rw [List.foldl_cons, request_behind, inductionHypothesis]
      rfl
  let logged := session.log (.called callback)
  let reaction := client.react callback logged.delegate logged.reader.isOpen logged.reader.connected
  rw [call, log_behind]
  exact foldl_behind reaction.2 (logged.assign reaction.1)

theorem processResponse_behind (buffer : Text) :
    (session.behind earlier).processResponse client.delegate buffer =
      (session.processResponse client.delegate buffer).behind earlier := by
  cases heard : recognise buffer with
  | none => simp [processResponse, heard]
  | some reply => cases reply <;> simp [processResponse, heard]

theorem deliver_behind :
    (session.behind earlier).deliver client.delegate = (session.deliver client.delegate).behind earlier := by
  have article : ∀ (front : Text) (session : Session δ), (session.behind earlier).deliverArticle client.delegate front =
      (session.deliverArticle client.delegate front).behind earlier := by
    intro front session
    unfold deliverArticle
    simp only [behind_expects, update_behind, behind_reader, call_behind]
    split
    · split <;> rfl
    · rfl
  have header : ∀ (front : Text) (session : Session δ), (session.behind earlier).deliverHeader client.delegate front =
      (session.deliverHeader client.delegate front).behind earlier := by
    intro front session
    unfold deliverHeader parseHeader
    simp only [behind_expects, behind_reader, call_behind]
    split <;> rfl
  have articleIds : ∀ (lines : List Text) (session : Session δ),
      (session.behind earlier).deliverArticleIds client.delegate lines =
        (session.deliverArticleIds client.delegate lines).behind earlier := by
    intro lines session
    unfold deliverArticleIds
    simp only [behind_expects, call_behind]
    split
    · split <;> rfl
    · rfl
  have groups : ∀ (lines : List Text) (session : Session δ),
      (session.behind earlier).deliverGroups client.delegate lines =
        (session.deliverGroups client.delegate lines).behind earlier := by
    intro lines session
    unfold deliverGroups
    simp only [behind_expects, call_behind]
    split
    · split <;> rfl
    · rfl
  unfold deliver
  rw [behind_reader]
  generalize splitter session.reader.response = cut
  obtain ⟨front, rest⟩ := cut
  simp only [setResponse_behind, article, header, articleIds, groups]

theorem readStep_behind (more : Bool) (read : Read) :
    (session.behind earlier).readStep client.delegate more read =
      (session.readStep client.delegate more read).behind earlier := by
  have afterRead_behind : ∀ session : Session δ, (session.behind earlier).afterRead client.delegate more =
      (session.afterRead client.delegate more).behind earlier := by
    intro session
    unfold afterRead
    rw [behind_reader, processResponse_behind]
    split <;> rfl
  cases isOpen : session.reader.isOpen with
  | false => rw [readStep_closed _ _ _ isOpen, readStep_closed _ _ _ (by exact isOpen)]
  | true =>
    cases read with
    | failed => simp [readStep, isOpen, processResponse_behind]
    | bytes output =>
      cases output with
      | none => cases more <;> simp [readStep, isOpen, processResponse_behind]
      | some output =>
        cases results : session.reader.resultsComing with
        | false => simp [readStep, isOpen, results, processResponse_behind]
        | true => simp [readStep, isOpen, results, deliver_behind, afterRead_behind]

theorem act_behind (action : Action δ) :
    (session.behind earlier).act client action = (session.act client action).behind earlier := by
  cases action with
  | openStreams created => exact openStreams_behind _ _ _
  | request request => exact request_behind _ _ _
  | assign delegate => rfl
  | receive reads =>
    simp only [act, hasBytesAvailable_eq_readSteps]
    generalize marked reads = steps
    induction steps generalizing session with
    | nil => rfl
    | cons step steps inductionHypothesis =>
      obtain ⟨read, more⟩ := step
      rw [readSteps_cons, readSteps_cons, readStep_behind, inductionHypothesis]

theorem run_behind (actions : List (Action δ)) :
    (session.behind earlier).run client actions = (session.run client actions).behind earlier := by
  induction actions generalizing session with
  | nil => rfl
  | cons action actions inductionHypothesis =>
    rw [run, List.foldl_cons, act_behind]
    exact inductionHypothesis _

end Behind

end Session

end EasyNews
