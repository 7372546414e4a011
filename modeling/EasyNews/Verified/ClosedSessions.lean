import EasyNews.ControlReplies
import EasyNews.ReaderClients

/-! # Closing a session and opening the next one

`close` gives up the streams and nothing else: `connected`, `resultsComing` and `response` stay as
they are. So a reader that is opened again is a new one only if the session before left none of the
three behind; the other properties of the reader are set by accepted calls alone.

* `LoginFirst` — nothing is asked for before a login, and nothing is left of calls made before it.
* `NoReplyWaits` — until results come, the text that is left over is no reply but a dot.
-/

namespace EasyNews.Verified.ClosedSessions

open Session ControlReplies

variable {δ : Type}

/-! ## What the session before leaves behind -/

/-- A command that an operation sends. -/
def isOperation (command : Text) : Bool :=
  ["LIST", "GROUP", "HEAD", "ARTICLE"].any fun verb => verb.toList.isPrefixOf command

/-- No login was accepted, no block has begun, and no text waits for the rest of its line. -/
structure Untouched (session : Session δ) : Prop where
  connected : session.reader.connected = false
  results : session.reader.resultsComing = false
  response : session.reader.response = []

/-- Closing forgets the session. -/
structure Forgotten (client : Client δ) (session : Session δ) : Prop where
  notConnected : session.close.reader.connected = false
  sameCommands : ∀ created actions,
    ((session.close.openStreams created).run client actions).commands =
      session.commands ++ (((new session.reader.username session.reader.password
        session.delegate).openStreams created).run client actions).commands
  sameCallbacks : ∀ created actions,
    ((session.close.openStreams created).run client actions).callbacks =
      session.callbacks ++ (((new session.reader.username session.reader.password
        session.delegate).openStreams created).run client actions).callbacks
  loginFirst : ∀ created actions front command back,
    ((session.close.openStreams created).run client actions).trace =
        session.trace ++ front ++ .sent command :: back →
      isOperation command = true → .called (.notification .connected) ∈ front
  greeted : ∀ greeting, starts greeting "200 news.easynews.com Welcome!".toList = true →
    ((session.close.openStreams true).run client [.receive [.ofText greeting]]).commands =
      session.commands ++ [commandLine "AUTHINFO user" session.reader.username]

/-! ## Nothing is asked for before a login -/

structure BeforeLogin (session : Session δ) : Prop where
  connected : session.reader.connected = false
  operation : session.reader.currentOperation = none
  groupCommand : session.reader.currentGroupCommand = []
  articleId : session.reader.articleId = []
  article : session.reader.article = []
  asked : ∀ command, .sent command ∈ session.trace → isOperation command = false

structure AfterLogin (session : Session δ) : Prop where
  connected : session.reader.connected = true
  login : ∃ front back, session.trace = front ++ .called (.notification .connected) :: back ∧
    ∀ command, .sent command ∈ front → isOperation command = false

def LoginFirst (session : Session δ) : Prop := BeforeLogin session ∨ AfterLogin session

theorem loginFirst_new (username password : Text) (delegate : δ) : LoginFirst (new username password delegate) :=
  Or.inl ⟨rfl, rfl, rfl, rfl, rfl, by simp [new]⟩

/-- The effects in front of a command that an operation sends include the login. -/
theorem LoginFirst.mem_front {session : Session δ} (first : LoginFirst session) {front back : List Effect}
    {command : Text} (split : session.trace = front ++ .sent command :: back)
    (operation : isOperation command = true) : .called (.notification .connected) ∈ front := by
  cases first with
  | inl before =>
    have harmless := before.asked command (by simp [split])
    rw [operation] at harmless
    cases harmless
  | inr after =>
    obtain ⟨login, later, isLogin, harmless⟩ := after.login
    rw [split] at isLogin
    obtain ⟨more, isFront, rest⟩ | ⟨more, rfl, rest⟩ := List.append_eq_append_iff.mp isLogin
    · cases more with
      | nil => cases (List.cons.inj rest).1
      | cons effect more =>
        -- the command would stand in front of the login
        have sent := harmless command (by simp [isFront, (List.cons.inj rest).1])
        rw [operation] at sent
        cases sent
    · cases more with
      | nil => cases (List.cons.inj rest).1
      | cons effect more => simp [(List.cons.inj rest).1]

theorem AfterLogin.log {session : Session δ} (after : AfterLogin session) (effect : Effect) :
    AfterLogin (session.log effect) := by
  obtain ⟨front, back, isLogin, harmless⟩ := after.login
  exact ⟨after.connected, front, back ++ [effect], by simp [isLogin], harmless⟩

theorem LoginFirst.log {session : Session δ} (first : LoginFirst session) {effect : Effect}
    (harmless : session.reader.connected = false → ∀ command, effect = .sent command → isOperation command = false) :
    LoginFirst (session.log effect) := by
  cases first with
  | inl before =>
    refine Or.inl ⟨before.connected, before.operation, before.groupCommand, before.articleId, before.article, ?_⟩
    intro command inside
    obtain earlier | isLast := List.mem_append.mp inside
    · exact before.asked command earlier
    · exact harmless before.connected command (List.mem_singleton.mp isLast).symm
  | inr after => exact Or.inr (after.log effect)

theorem LoginFirst.send {session : Session δ} (first : LoginFirst session) {command : Text}
    (harmless : session.reader.connected = false → isOperation command = false) :
    LoginFirst (session.send command) := by
  unfold Session.send
  split
  · exact first.log fun notYet other same => by
      cases same
      exact harmless notYet
  · exact first

theorem LoginFirst.called {session : Session δ} (first : LoginFirst session) (callback : Callback) :
    LoginFirst (session.log (.called callback)) :=
  first.log fun _ _ same => by cases same

theorem LoginFirst.update {session : Session δ} (first : LoginFirst session) {change : NewsReader → NewsReader}
    (connected : (change session.reader).connected = session.reader.connected)
    (operation : (change session.reader).currentOperation = session.reader.currentOperation)
    (groupCommand : (change session.reader).currentGroupCommand = session.reader.currentGroupCommand)
    (articleId : (change session.reader).articleId = session.reader.articleId)
    (article : (change session.reader).article = session.reader.article) : LoginFirst (session.update change) := by
  cases first with
  | inl before =>
    exact Or.inl ⟨connected.trans before.connected, operation.trans before.operation,
      groupCommand.trans before.groupCommand, articleId.trans before.articleId, article.trans before.article,
      before.asked⟩
  | inr after => exact Or.inr ⟨connected.trans after.connected, after.login⟩

theorem LoginFirst.update_connected {session : Session δ} (first : LoginFirst session)
    (isConnected : session.reader.connected = true) {change : NewsReader → NewsReader}
    (connected : (change session.reader).connected = session.reader.connected) :
    LoginFirst (session.update change) := by
  cases first with
  | inl before =>
    rw [before.connected] at isConnected
    cases isConnected
  | inr after => exact Or.inr ⟨connected.trans after.connected, after.login⟩

theorem LoginFirst.send_connected {session : Session δ} (first : LoginFirst session)
    (isConnected : session.reader.connected = true) (command : Text) : LoginFirst (session.send command) := by
  apply first.send
  intro notYet
  rw [isConnected] at notYet
  cases notYet

theorem LoginFirst.close {session : Session δ} (first : LoginFirst session) : LoginFirst session.close := by
  unfold Session.close
  split
  · exact first.update rfl rfl rfl rfl rfl
  · exact first

theorem LoginFirst.notConnected {session : Session δ} (first : LoginFirst session) : LoginFirst session.notConnected :=
  first.called _

theorem LoginFirst.request {session : Session δ} (first : LoginFirst session) (request : Request) :
    LoginFirst (session.request request) := by
  cases request with
  | quit =>
    simp only [Session.request, quit]
    split
    · exact first.send fun _ => by decide
    · exact first
  | close => exact first.close
  | listGroups =>
    simp only [Session.request, listGroups]
    split
    · -- a call that is not refused comes behind a login, and then anything may be sent
      rename_i connected
      exact (first.update_connected connected rfl).send_connected (by exact connected) _
    · exact first.notConnected
  | listArticles groupName =>
    simp only [Session.request, listArticles]
    split
    · rename_i connected
      exact (first.update_connected connected rfl).send_connected (by exact connected) _
    · exact first.notConnected
  | article groupName articleId =>
    simp only [Session.request, Session.article]
    split
    · rename_i connected
      have named : LoginFirst (session.update fun reader => { reader with article := [], articleId }) :=
        first.update_connected connected rfl
      split
      · exact named.send_connected connected _
      · exact (named.update_connected connected rfl).send_connected (by exact connected) _
    · exact first.notConnected
  | articleHeader groupName articleId =>
    simp only [Session.request, Session.articleHeader]
    split
    · rename_i connected
      have named : LoginFirst (session.update fun reader => { reader with articleId }) :=
        first.update_connected connected rfl
      split
      · exact named.send_connected connected _
      · exact (named.update_connected connected rfl).send_connected (by exact connected) _
    · exact first.notConnected

theorem LoginFirst.assign {session : Session δ} (first : LoginFirst session) (delegate : δ) :
    LoginFirst (session.assign delegate) := by
  cases first with
  | inl before =>
    exact Or.inl ⟨before.connected, before.operation, before.groupCommand, before.articleId, before.article,
      before.asked⟩
  | inr after => exact Or.inr ⟨after.connected, after.login⟩

variable (client : Client δ)

theorem LoginFirst.handle {session : Session δ} (first : LoginFirst session) (callback : Callback) :
    LoginFirst (client.handle callback session) :=
  client.handle_invariant (fun delegate _ first => first.assign delegate)
    (fun _ request first => first.request request) callback first

theorem LoginFirst.call {session : Session δ} (first : LoginFirst session) (callback : Callback) :
    LoginFirst (session.call client.delegate callback) :=
  (first.called callback).handle client callback

theorem LoginFirst.setResponse {session : Session δ} (first : LoginFirst session) (response : Text) :
    LoginFirst (session.setResponse response) :=
  first.update rfl rfl rfl rfl rfl

theorem LoginFirst.connect {session : Session δ} (first : LoginFirst session) :
    LoginFirst ((session.update fun reader => { reader with connected := true }).log
      (.called (.notification .connected))) := by
  cases first with
  | inl before => exact Or.inr ⟨rfl, session.trace, [], rfl, before.asked⟩
  | inr after =>
    have connected : AfterLogin (session.update fun reader => { reader with connected := true }) :=
      ⟨rfl, after.login⟩
    exact Or.inr (connected.log _)

theorem LoginFirst.processResponse {session : Session δ} (first : LoginFirst session) (buffer : Text) :
    LoginFirst (session.processResponse client.delegate buffer) := by
  unfold Session.processResponse
  cases recognise buffer with
  | none => exact first
  | some reply =>
    cases reply with
    | welcome => exact (first.send fun _ => rfl).setResponse []
    | terminator => exact first.call client _
    | passRequired => exact (first.send fun _ => rfl).setResponse []
    | loggedIn => exact (first.connect.handle client _).setResponse []
    | authenticationFailed => exact (first.call client _).setResponse []
    | goodbye => exact (first.close.call client _).setResponse []
    | newsGroupsFollow => exact first.update rfl rfl rfl rfl rfl
    | articleNumbersFollow => exact first.update rfl rfl rfl rfl rfl
    | groupSelected =>
      have begun : LoginFirst (session.update fun reader => { reader with resultsComing := true, response := [] }) :=
        first.update rfl rfl rfl rfl rfl
      refine begun.send fun notYet => ?_
      cases begun with
      | inl before =>
        rw [before.groupCommand]
        rfl
      | inr after =>
        rw [after.connected] at notYet
        cases notYet

theorem LoginFirst.deliver {session : Session δ} (first : LoginFirst session) :
    LoginFirst (session.deliver client.delegate) := by
  refine deliver_invariant (fun callback _ first => first.call client callback)
    (fun response _ first => first.setResponse response) (fun article session operation first => ?_) session first
  cases first with
  | inl before =>
    rw [before.operation] at operation
    cases operation
  | inr after => exact Or.inr ⟨after.connected, after.login⟩

theorem LoginFirst.readStep {session : Session δ} (first : LoginFirst session) (more : Bool) (read : Read) :
    LoginFirst (session.readStep client.delegate more read) :=
  readStep_invariant (fun _ _ first => first.log fun _ _ same => by cases same)
    (fun response _ first => first.setResponse response) (fun _ first => first.deliver client)
    (fun _ first => first.processResponse client _) more read session first

theorem LoginFirst.openStreams {session : Session δ} (first : LoginFirst session) (created : Bool) :
    LoginFirst (session.openStreams created) := by
  unfold Session.openStreams
  split
  · exact first
  · exact first.update rfl rfl rfl rfl rfl

theorem LoginFirst.run {session : Session δ} (first : LoginFirst session) (actions : List (Action δ)) :
    LoginFirst (session.run client actions) :=
  Runs.invariant_foldl _ (act_invariant (fun created _ first => first.openStreams created)
    (fun _ request first => first.request request) (fun delegate _ first => first.assign delegate)
    (fun more read _ first => first.readStep client more read)) first actions

/-! ## Until results come, no reply waits -/

def NoReplyWaits (session : Session δ) : Prop :=
  session.reader.resultsComing = false →
    recognise session.reader.response = none ∨ session.reader.response = terminatorLine

theorem noReplyWaits_of_nil {session : Session δ} (empty : session.reader.response = []) : NoReplyWaits session := by
  intro _
  rw [empty]
  exact Or.inl recognise_nil

theorem noReplyWaits_of_results {session : Session δ} (results : session.reader.resultsComing = true) :
    NoReplyWaits session := by
  intro waiting
  rw [results] at waiting
  cases waiting

theorem request_keeps (session : Session δ) (request : Request) :
    (session.request request).reader.resultsComing = session.reader.resultsComing ∧
      ((session.request request).reader.response = session.reader.response ∨
        (session.request request).reader.response = []) := by
  cases request with
  | quit =>
    simp only [Session.request, quit]
    split <;> simp
  | close => simp [Session.request]
  | listGroups =>
    simp only [Session.request, listGroups]
    split
    · simp
    · exact ⟨rfl, Or.inl rfl⟩
  | listArticles groupName =>
    simp only [Session.request, listArticles]
    split
    · simp
    · exact ⟨rfl, Or.inl rfl⟩
  | article groupName articleId =>
    simp only [Session.request, Session.article]
    split
    · split <;> simp
    · exact ⟨rfl, Or.inl rfl⟩
  | articleHeader groupName articleId =>
    simp only [Session.request, Session.articleHeader]
    split
    · split <;> simp
    · exact ⟨rfl, Or.inl rfl⟩

theorem NoReplyWaits.request {session : Session δ} (quiet : NoReplyWaits session) (request : Request) :
    NoReplyWaits (session.request request) := by
  obtain ⟨results, same | empty⟩ := request_keeps session request
  · intro waiting
    rw [same]
    exact quiet (results.symm.trans waiting)
  · exact noReplyWaits_of_nil empty

theorem NoReplyWaits.call {session : Session δ} (quiet : NoReplyWaits session) (callback : Callback) :
    NoReplyWaits (session.call client.delegate callback) :=
  call_invariant (fun _ _ quiet => quiet) (fun _ _ quiet => quiet) (fun _ request quiet => quiet.request request)
    callback session quiet

theorem noReplyWaits_processResponse (session : Session δ) :
    NoReplyWaits (session.processResponse client.delegate session.reader.response) := by
  unfold Session.processResponse
  cases heard : recognise session.reader.response with
  | none => exact fun _ => Or.inl heard
  | some reply =>
    cases reply with
    | terminator =>
      have dot : NoReplyWaits session := fun _ => Or.inr (eq_terminatorLine_of_recognise heard)
      exact dot.call client _
    | newsGroupsFollow => exact noReplyWaits_of_results rfl
    | articleNumbersFollow => exact noReplyWaits_of_results rfl
    | groupSelected =>
      apply noReplyWaits_of_results
      rw [send_reader]
      rfl
    | _ => exact noReplyWaits_of_nil rfl

theorem deliver_results {session : Session δ} (results : session.reader.resultsComing = true) :
    (session.deliver client.delegate).reader.resultsComing = true :=
  @deliver_invariant δ client.delegate (fun session => session.reader.resultsComing = true)
    (call_invariant (fun _ _ results => results) (fun _ _ results => results)
      (fun session request results => (request_keeps session request).1.trans results))
    (fun _ _ results => results) (fun _ _ _ results => results) session results

theorem NoReplyWaits.readStep {session : Session δ} (quiet : NoReplyWaits session) (more : Bool) (read : Read) :
    NoReplyWaits (session.readStep client.delegate more read) := by
  unfold Session.readStep
  split
  · cases read with
    | failed => exact noReplyWaits_processResponse client session
    | bytes output =>
      cases output with
      | none =>
        dsimp only
        split
        · exact quiet
        · exact noReplyWaits_processResponse client (session.log (.received none))
      | some output =>
        let taken := (session.log (.received (some output))).setResponse (session.reader.response ++ output)
        dsimp only
        split
        · -- results that are coming do not cease while the read is worked on
          rename_i results
          have delivered : (taken.deliver client.delegate).reader.resultsComing = true := deliver_results client results
          unfold afterRead
          split
          · exact noReplyWaits_of_results delivered
          · exact noReplyWaits_processResponse client _
        · exact noReplyWaits_processResponse client taken
  · exact quiet

theorem NoReplyWaits.openStreams {session : Session δ} (quiet : NoReplyWaits session) (created : Bool) :
    NoReplyWaits (session.openStreams created) := by
  unfold Session.openStreams
  split
  · exact quiet
  · exact quiet

theorem NoReplyWaits.run {session : Session δ} (quiet : NoReplyWaits session) (actions : List (Action δ)) :
    NoReplyWaits (session.run client actions) :=
  Runs.invariant_foldl _ (act_invariant (fun created _ quiet => quiet.openStreams created)
    (fun _ request quiet => quiet.request request) (fun _ _ quiet => quiet)
    (fun more read _ quiet => quiet.readStep client more read)) quiet actions

/-! ## The greeting of the next session -/

theorem replyText_drop_greeting (reply : Reply) :
    ∀ place < (replyText reply).length, 0 < place →
      ((replyText reply).drop place).isPrefixOf (replyText .welcome) = false := by
  cases reply <;> decide

theorem recognise_greeting_behind {response : Text} (nonempty : response ≠ [])
    (waits : recognise response = none ∨ response = terminatorLine) (rest : Text) :
    recognise (response ++ (replyText .welcome ++ rest)) = none := by
  cases heard : recognise (response ++ (replyText .welcome ++ rest)) with
  | none => rfl
  | some reply =>
    exfalso
    have begins := replyText_begins heard
    have positive := List.length_pos_iff.mpr nonempty
    by_cases dot : reply = .terminator
    · rw [dot] at heard
      have lengths := congrArg List.length (eq_terminatorLine_of_recognise heard)
      have dotLength : terminatorLine.length = 1 := rfl
      have greetingLength : (replyText .welcome).length = 30 := by decide
      rw [List.length_append, List.length_append, greetingLength, dotLength] at lengths
      omega
    · obtain inside | ⟨more, isMore⟩ := List.prefix_or_prefix_of_prefix begins (List.prefix_append response _)
      · -- the text that waits would be a reply
        cases waits with
        | inl unheard => exact recognise_of_starts dot (starts_of_append (starts_of_recognise dot heard) inside) unheard
        | inr isDot =>
          have short := inside.length_le
          rw [isDot] at short
          revert short dot
          cases reply <;> decide
      · -- the greeting would go on in the middle of a status text
        rw [← isMore, List.prefix_append_right_inj] at begins
        have isDrop : (replyText reply).drop response.length = more := by rw [← isMore, List.drop_left]
        cases more with
        | nil =>
          rw [List.append_nil] at isMore
          cases waits with
          | inl unheard => exact recognise_of_starts dot (starts_of_append (starts_of_recognise dot heard)
              (isMore ▸ List.prefix_refl _)) unheard
          | inr isDot =>
            -- only the dot is waiting, and no other reply is a dot
            have isReply := isMore.symm.trans isDot
            revert isReply dot
            cases reply <;> decide
        | cons char more =>
          have within : response.length < (replyText reply).length := by
            have lengths := congrArg List.length isMore
            rw [List.length_append, List.length_cons] at lengths
            omega
          have apart := replyText_drop_greeting reply response.length within positive
          rw [isDrop] at apart
          have short : (char :: more).length ≤ (replyText .welcome).length := by
            have lengths := congrArg List.length isMore
            have longest : (replyText reply).length ≤ (replyText .welcome).length := by cases reply <;> decide
            rw [List.length_append] at lengths
            omega
          have goesOn := List.prefix_of_prefix_length_le begins (List.prefix_append _ rest) short
          rw [List.isPrefixOf_iff_prefix.mpr goesOn] at apart
          cases apart

theorem run_receive_one (read : Read) (session : Session δ) :
    session.run client [.receive [read]] = session.readStep client.delegate false read :=
  hasBytesAvailable_eq_readSteps _ _ _

theorem commands_of_unheard {session : Session δ} (isOpen : session.reader.isOpen = true)
    (results : session.reader.resultsComing = false) {text : Text}
    (unheard : recognise (session.reader.response ++ text) = none) :
    (session.run client [.receive [.ofText text]]).commands = session.commands := by
  rw [run_receive_one, Read.ofText, readStep_control _ _ isOpen results, Session.processResponse, unheard]
  exact commands_log_received _ _

theorem commands_of_results {session : Session δ} (isOpen : session.reader.isOpen = true)
    (results : session.reader.resultsComing = true) (operation : session.reader.currentOperation = none) (text : Text) :
    (session.run client [.receive [.ofText (text ++ crlf.symbols)]]).commands = session.commands := by
  let taken := (session.log (.received (some (text ++ crlf.symbols)))).setResponse
    (session.reader.response ++ (text ++ crlf.symbols))
  have cut : splitter taken.reader.response = (session.reader.response ++ text, []) := by
    have whole := splitter_append (session.reader.response ++ text) crlf.unbroken_nil
    rw [List.append_nil, List.append_assoc] at whole
    exact whole
  have idle : ∀ other : Operation, (taken.setResponse []).reader.currentOperation ≠ some other := by
    intro other
    change session.reader.currentOperation ≠ some other
    rw [operation]
    exact nofun
  have delivered : taken.deliver client.delegate = taken.setResponse [] := by
    unfold Session.deliver
    rw [cut]
    dsimp only
    rw [deliverArticle_other _ _ (idle _), deliverHeader_other _ _ (idle _), deliverArticleIds_other _ _ (idle _),
      deliverGroups_other _ _ (idle _)]
  have step : session.readStep client.delegate false (.ofText (text ++ crlf.symbols)) =
      (taken.deliver client.delegate).afterRead client.delegate false := by
    rw [Read.ofText, Session.readStep, if_pos isOpen]
    exact if_pos results
  rw [run_receive_one, step, delivered, afterRead_false]
  change ((taken.setResponse []).processResponse client.delegate []).commands = session.commands
  rw [processResponse_nil]
  exact commands_log_received _ _

theorem commands_of_welcome {session : Session δ} (isOpen : session.reader.isOpen = true)
    (results : session.reader.resultsComing = false) (response : session.reader.response = []) {greeting : Text}
    (welcome : recognise greeting = some .welcome) :
    (session.run client [.receive [.ofText greeting]]).commands =
      session.commands ++ [commandLine "AUTHINFO user" session.reader.username] := by
  let taken := (session.log (.received (some greeting))).setResponse greeting
  have sent : taken.send (commandLine "AUTHINFO user" taken.reader.username) =
      taken.log (.sent (commandLine "AUTHINFO user" taken.reader.username)) :=
    send_of_open isOpen (commandLine_ne_nil _ _)
  rw [run_receive_one, Read.ofText, readStep_control _ _ isOpen results, response, List.nil_append,
    Session.processResponse, welcome]
  change ((taken.send (commandLine "AUTHINFO user" taken.reader.username)).setResponse []).commands = _
  rw [sent, commands_of_trace (setResponse_trace _ _), commands_log_sent]
  exact congrArg (· ++ _) (commands_log_received _ session)

/-! ## When closing forgets the session -/

theorem eq_of_parts {first second : Session δ} (reader : first.reader = second.reader)
    (delegate : first.delegate = second.delegate) (trace : first.trace = second.trace) : first = second := by
  obtain ⟨firstReader, firstDelegate, firstTrace⟩ := first
  obtain ⟨secondReader, secondDelegate, secondTrace⟩ := second
  cases reader
  cases delegate
  cases trace
  rfl

theorem openStreams_untouched {session : Session δ} (untouched : Untouched session) (first : LoginFirst session)
    (created : Bool) :
    session.close.openStreams created =
      ((new session.reader.username session.reader.password session.delegate).openStreams created).behind
        session.trace := by
  cases first with
  | inr after =>
    have isConnected := after.connected
    rw [untouched.connected] at isConnected
    cases isConnected
  | inl before =>
    have reader : session.close.reader = (new session.reader.username session.reader.password session.delegate).reader := by
      rw [close_reader]
      simp [new, untouched.connected, untouched.results, untouched.response, before.operation, before.groupCommand,
        before.articleId, before.article]
    have closed : session.close =
        (new session.reader.username session.reader.password session.delegate).behind session.trace := by
      have trace : session.close.trace = session.trace ++ [] := by rw [close_trace, List.append_nil]
      exact eq_of_parts (by rw [behind_reader, reader]) (close_delegate session) trace
    rw [closed, openStreams_behind]

theorem commands_behind (earlier session : Session δ) :
    (session.behind earlier.trace).commands = earlier.commands ++ session.commands := by
  simp [Session.commands]

theorem callbacks_behind (earlier session : Session δ) :
    (session.behind earlier.trace).callbacks = earlier.callbacks ++ session.callbacks := by
  simp [Session.callbacks]

variable {client} in
theorem Untouched.forgotten {session : Session δ} (untouched : Untouched session) (first : LoginFirst session) :
    Forgotten client session := by
  let fresh (created : Bool) := (new session.reader.username session.reader.password session.delegate).openStreams created
  -- the old trace is only a prefix of the new one
  have same : ∀ created actions, (session.close.openStreams created).run client actions =
      ((fresh created).run client actions).behind session.trace := by
    intro created actions
    rw [openStreams_untouched untouched first, run_behind]
  constructor
  · rw [close_reader]
    exact untouched.connected
  · intro created actions
    rw [same, commands_behind]
  · intro created actions
    rw [same, callbacks_behind]
  · intro created actions front command back split operation
    rw [same, behind_trace, List.append_assoc, List.append_cancel_left_eq] at split
    have freshFirst : LoginFirst (fresh created) :=
      (loginFirst_new session.reader.username session.reader.password session.delegate).openStreams created
    exact (freshFirst.run client actions).mem_front split operation
  · intro greeting begins
    have welcome : recognise greeting = some .welcome := by rw [recognise, if_pos begins]
    rw [same, commands_behind, commands_of_welcome client rfl rfl rfl welcome]
    rfl

variable {client} in
theorem Forgotten.untouched {session : Session δ} (forgotten : Forgotten client session) (first : LoginFirst session)
    (quiet : NoReplyWaits session) : Untouched session := by
  have connected : session.reader.connected = false := by
    have closed := forgotten.notConnected
    rw [close_reader] at closed
    exact closed
  -- without a login no call has named an operation
  have operation : session.reader.currentOperation = none := by
    cases first with
    | inl before => exact before.operation
    | inr after =>
      have isConnected := after.connected
      rw [connected] at isConnected
      cases isConnected
  let opened := session.close.openStreams true
  have reader : opened.reader = { session.reader with isOpen := true } := by
    change (session.close.openStreams true).reader = _
    rw [openStreams, if_neg (by simp), update_reader, close_reader]
  have asked : opened.commands = session.commands := by
    apply commands_of_trace
    change (session.close.openStreams true).trace = _
    rw [openStreams, if_neg (by simp), update_trace, close_trace]
  have isOpen : opened.reader.isOpen = true := by rw [reader]
  -- so the greeting of the new session must be answered
  have answered : (opened.run client [.receive [.ofText (replyText .welcome ++ crlf.symbols)]]).commands ≠
      opened.commands := by
    intro silent
    have greeted := forgotten.greeted (replyText .welcome ++ crlf.symbols) (starts_append _ _)
    change (opened.run client _).commands = _ at greeted
    rw [silent, asked] at greeted
    have lengths := congrArg List.length greeted
    rw [List.length_append, List.length_singleton] at lengths
    omega
  have results : session.reader.resultsComing = false := by
    by_contra coming
    have results : opened.reader.resultsComing = true := by
      rw [reader]
      simpa using coming
    exact answered (commands_of_results client isOpen results (by rw [reader]; exact operation) _)
  refine ⟨connected, results, ?_⟩
  by_contra nonempty
  have unheard := recognise_greeting_behind nonempty (quiet results) crlf.symbols
  exact answered (commands_of_unheard client isOpen (by rw [reader]; exact results) (by rw [reader]; exact unheard))

/-- Closing forgets the session exactly if it left the reader untouched. -/
theorem closing_forgets_iff (username password : Text) (delegate : δ) (actions : List (Action δ)) :
    Forgotten client ((new username password delegate).run client actions) ↔
      Untouched ((new username password delegate).run client actions) := by
  have first := (loginFirst_new username password delegate).run client actions
  have quiet : NoReplyWaits (new username password delegate) := noReplyWaits_of_nil rfl
  constructor
  · exact fun forgotten => forgotten.untouched first (quiet.run client actions)
  · exact fun untouched => untouched.forgotten first

/-- A refused login leaves nothing behind. -/
example : Untouched ((new "ann".toList "secret".toList ()).run .silent
    [.openStreams true, .receive [.ofText "200 news.easynews.com Welcome!\r\n".toList],
      .receive [.ofText "502 Authentication Failed\r\n".toList]]) :=
  ⟨by decide, by decide, by decide⟩

def listedGroups : Session Unit :=
  (new "ann".toList "secret".toList ()).run .silent
    [.openStreams true, .receive [.ofText "200 news.easynews.com Welcome!\r\n".toList],
      .receive [.ofText "381 PASS required\r\n".toList], .receive [.ofText "281 Welcome To Easynews.\r\n".toList],
      .request .listGroups, .receive [.ofText "215 NewsGroups Follow\r\n".toList],
      .receive [.ofText "a 2 1 y\r\n.\r\n".toList]]

/-- Closed and opened again, it takes a call before any login, and does not answer the greeting. -/
theorem second_session_goes_on :
    ¬ Forgotten .silent listedGroups ∧ listedGroups.close.reader.connected = true ∧
      ((listedGroups.close.openStreams true).run .silent [.request (.listArticles "a".toList)]).commands =
        listedGroups.commands ++ ["LISTGROUP a\n".toList] ∧
      ((listedGroups.close.openStreams true).run .silent
        [.receive [.ofText "200 news.easynews.com Welcome!\r\n".toList]]).commands = listedGroups.commands := by
  have connected : listedGroups.close.reader.connected = true := by decide
  refine ⟨fun forgotten => ?_, connected, by decide, by decide⟩
  rw [forgotten.notConnected] at connected
  cases connected

end EasyNews.Verified.ClosedSessions
