import EasyNews.ReplyCuts

/-! # Runs of a reader that waits for a status line

Before results come the reader collects text until it recognises it, and forgets it all then,
with whatever the last read brought behind the status text.

* `Idle.until_heard` — a run, up to the first read that brings a status text.
* `Idle.after_login` — how much of a login line can be left over.
-/

namespace EasyNews.WaitingRuns

open Session ControlReplies

/-! ## Waiting for a status line -/

/-- Nothing was sent or called between the two sessions. -/
structure Silent (session later : Session Unit) : Prop where
  commands : later.commands = session.commands
  callbacks : later.callbacks = session.callbacks
  username : later.reader.username = session.reader.username
  password : later.reader.password = session.reader.password
  connected : later.reader.connected = session.reader.connected

theorem Silent.refl (session : Session Unit) : Silent session session := ⟨rfl, rfl, rfl, rfl, rfl⟩

theorem Silent.trans {session middle later : Session Unit} (first : Silent session middle)
    (second : Silent middle later) : Silent session later :=
  ⟨second.commands.trans first.commands, second.callbacks.trans first.callbacks,
    second.username.trans first.username, second.password.trans first.password,
    second.connected.trans first.connected⟩

theorem Silent.noise_eq {session later : Session Unit} (silent : Silent session later) :
    noise later = noise session := by
  rw [noise, noise, controls, controls, silent.commands, silent.callbacks]

/-- The reader waits for a status line, of which `response` has arrived. -/
structure Idle (operation : Option Operation) (groupCommand : Text) (session : Session Unit)
    (response : Text) : Prop where
  isOpen : session.reader.isOpen = true
  results : session.reader.resultsComing = false
  operation : session.reader.currentOperation = operation
  groupCommand : session.reader.currentGroupCommand = groupCommand
  response : session.reader.response = response

def textOf (texts : List (Text × Bool)) : Text := texts.flatMap Prod.fst

@[simp] theorem textOf_nil : textOf [] = [] := rfl

@[simp] theorem textOf_cons (text : Text) (more : Bool) (texts : List (Text × Bool)) :
    textOf ((text, more) :: texts) = text ++ textOf texts := rfl

@[simp] theorem textOf_append (front back : List (Text × Bool)) :
    textOf (front ++ back) = textOf front ++ textOf back := by
  simp [textOf]

/-- What every admitted read keeps holds at every moment of a run whose reads are all admitted.
    `invariant` and `admits` look at the text received so far. -/
theorem readTexts_invariant {invariant : Text → Session Unit → Prop} {admits : Text → List (Text × Bool) → Prop}
    (step : ∀ received session text more reads, admits received ((text, more) :: reads) → invariant received session →
      invariant (received ++ text) (session.readStep .silent more (.ofText text)) ∧ admits (received ++ text) reads)
    {received : Text} {session : Session Unit} (holds : invariant received session) {reads : List (Text × Bool)}
    (admitted : admits received reads) :
    ∀ front, front <+: reads → invariant (received ++ textOf front) (session.readTexts front) := by
  induction reads generalizing received session with
  | nil =>
    intro front inside
    rw [List.prefix_nil.mp inside, textOf_nil, List.append_nil]
    exact holds
  | cons read reads inductionHypothesis =>
    obtain ⟨text, more⟩ := read
    obtain ⟨holdsLater, admittedLater⟩ := step received session text more reads admitted holds
    intro front inside
    -- the moment is before this read, or some reads behind it
    cases front with
    | nil =>
      rw [textOf_nil, List.append_nil]
      exact holds
    | cons first front =>
      obtain ⟨rfl, insideLater⟩ := List.cons_prefix_cons.mp inside
      rw [textOf_cons, ← List.append_assoc]
      exact inductionHypothesis holdsLater admittedLater front insideLater

/-- The reader before `processResponse`, in a read while it waits. -/
def collected (session : Session Unit) (text response : Text) : Session Unit :=
  (session.log (.received (some text))).setResponse response

variable {operation : Option Operation} {groupCommand : Text}

theorem Idle.read {session : Session Unit} {response : Text} (idle : Idle operation groupCommand session response)
    (text : Text)
    (more : Bool) :
    session.readStep .silent more (.ofText text) =
      (collected session text (response ++ text)).processResponse .silent (response ++ text) := by
  rw [Read.ofText, readStep_control _ more idle.isOpen idle.results, idle.response]
  rfl

theorem Idle.waited {session : Session Unit} {response : Text} (idle : Idle operation groupCommand session response)
    (text later : Text) :
    Idle operation groupCommand (collected session text later) later ∧ Silent session (collected session text later) := by
  refine ⟨⟨idle.isOpen, idle.results, idle.operation, idle.groupCommand, rfl⟩, ?_, ?_, rfl, rfl, rfl⟩
  · simp [collected, Session.commands]
  · simp [collected, Session.callbacks]

/-- The status text of a block: results come, and a selected group's command is sent. -/
theorem Idle.accept {session : Session Unit} {response : Text}
    (idle : Idle operation groupCommand session response) {buffer : Text} {reply : Reply}
    (heard : recognise buffer = some reply) (block : isLoud reply = false) :
    (session.processResponse .silent buffer).reader =
        { session.reader with resultsComing := true, response := [] } ∧
      (session.processResponse .silent buffer).callbacks = session.callbacks ∧
      (session.processResponse .silent buffer).commands =
        session.commands ++ (if reply = .groupSelected ∧ groupCommand ≠ [] then [groupCommand] else []) := by
  unfold processResponse
  rw [heard]
  cases reply with
  | newsGroupsFollow => exact ⟨rfl, rfl, (List.append_nil _).symm⟩
  | articleNumbersFollow => exact ⟨rfl, rfl, (List.append_nil _).symm⟩
  | groupSelected =>
    let selected := session.update fun reader => { reader with resultsComing := true, response := [] }
    have command : selected.reader.currentGroupCommand = groupCommand := idle.groupCommand
    change (selected.send selected.reader.currentGroupCommand).reader = _ ∧
      (selected.send selected.reader.currentGroupCommand).callbacks = _ ∧
      (selected.send selected.reader.currentGroupCommand).commands = _
    rw [command]
    -- only a call for an article has left a command to send
    by_cases empty : groupCommand = []
    · have notSent : selected.send groupCommand = selected := by simp [send, empty]
      rw [notSent, if_neg fun both => both.2 empty, List.append_nil]
      exact ⟨rfl, rfl, rfl⟩
    · rw [send_of_open (by exact idle.isOpen) empty, if_pos ⟨rfl, empty⟩]
      exact ⟨rfl, callbacks_log_sent _ _, commands_log_sent _ _⟩
  | _ => cases block

/-- A run of a waiting reader, up to the first read that brings a status text. -/
theorem Idle.until_heard {session : Session Unit} {response : Text} (idle : Idle operation groupCommand session response)
    (texts : List (Text × Bool)) :
    (Idle operation groupCommand (session.readTexts texts) (response ++ textOf texts) ∧
      Silent session (session.readTexts texts) ∧
        (texts ≠ [] → recognise (response ++ textOf texts) = none)) ∨
      ∃ front text more back reply, texts = front ++ (text, more) :: back ∧
        recognise (response ++ textOf front ++ text) = some reply ∧
        (front ≠ [] → recognise (response ++ textOf front) = none) ∧
        Idle operation groupCommand (session.readTexts front) (response ++ textOf front) ∧
          Silent session (session.readTexts front) := by
  induction texts generalizing session response with
  | nil =>
    left
    exact ⟨by simpa using idle, Silent.refl _, fun nonempty => absurd rfl nonempty⟩
  | cons head texts inductionHypothesis =>
    obtain ⟨text, more⟩ := head
    cases heard : recognise (response ++ text) with
    | some reply =>
      right
      exact ⟨[], text, more, texts, reply, rfl, by simpa using heard, fun nonempty => absurd rfl nonempty,
        by simpa using idle, Silent.refl _⟩
    | none =>
      -- nothing is recognised yet: the text is collected
      have unheard : session.readStep .silent more (.ofText text) =
          collected session text (response ++ text) := by
        rw [idle.read, processResponse, heard]
      obtain ⟨waiting, silent⟩ := idle.waited text (response ++ text)
      rw [readTexts_cons, unheard]
      rcases inductionHypothesis waiting with ⟨last, quiet, none⟩ |
        ⟨front, text', more', back, reply, split, some, none, last, quiet⟩
      · left
        rw [List.append_assoc] at last none
        refine ⟨last, silent.trans quiet, fun _ => ?_⟩
        cases texts with
        | nil => simpa using heard
        | cons head texts => exact none (by simp)
      · right
        refine ⟨(text, more) :: front, text', more', back, reply, by rw [split]; rfl, ?_, fun _ => ?_, ?_, ?_⟩
        · simpa [List.append_assoc] using some
        · cases front with
          | nil => simpa using heard
          | cons head front => simpa [List.append_assoc] using none (by simp)
        · rw [readTexts_cons, unheard]
          simpa [List.append_assoc] using last
        · rw [readTexts_cons, unheard]
          exact silent.trans quiet

theorem Idle.unheard {session : Session Unit} (idle : Idle operation groupCommand session [])
    {texts : List (Text × Bool)} (unheard : ∀ front, front <+: texts → recognise (textOf front) = none) :
    Idle operation groupCommand (session.readTexts texts) (textOf texts) ∧
      Silent session (session.readTexts texts) := by
  rcases idle.until_heard texts with ⟨waiting, silent, -⟩ | ⟨front, text, more, back, reply, rfl, heard, -⟩
  · exact ⟨waiting, silent⟩
  · have quiet := unheard (front ++ [(text, more)]) ⟨back, by simp⟩
    rw [List.nil_append] at heard
    rw [textOf_append, textOf_cons, textOf_nil, List.append_nil, heard] at quiet
    cases quiet

/-- A text without CR that begins a line and what follows it begins the line. -/
theorem prefix_of_prefix_line {text line rest : Text} (noCr : '\r' ∉ text)
    (begins : text <+: line ++ (crlf.symbols ++ rest)) : text <+: line := by
  rcases List.prefix_or_prefix_of_prefix begins (List.prefix_append line _) with done | ⟨more, isText⟩
  · exact done
  · rw [← isText] at begins
    have inside : more <+: crlf.symbols ++ rest := (List.prefix_append_right_inj line).mp begins
    cases more with
    | nil =>
      rw [List.append_nil] at isText
      exact isText ▸ List.prefix_refl _
    | cons first more =>
      have isCr : first = '\r' := (List.cons_prefix_cons.mp inside).1
      exact absurd (isText ▸ by simp [isCr]) noCr

theorem joined_line {line : Text} (unjoined : joined line = false) : joined (line ++ crlf.symbols) = false := by
  cases line with
  | nil => exact @joins_ascii '\r' (by decide)
  | cons symbol line => exact unjoined

/-- What stands behind a line end makes no difference to what begins the line. -/
theorem starts_line {opening : Text} (noCr : '\r' ∉ opening) (line rest : Text) :
    starts (line ++ (crlf.symbols ++ rest)) opening = starts line opening := by
  rw [Bool.eq_iff_iff]
  constructor
  · intro begins
    exact starts_of_append begins (prefix_of_prefix_line noCr (isPrefix_of_starts begins))
  · intro begins
    obtain ⟨behind, rfl, unjoined⟩ := starts_iff.mp begins
    rw [List.append_assoc, starts_append]
    cases behind with
    | nil => rw [List.nil_append, show joined (crlf.symbols ++ rest) = false from @joins_ascii '\r' (by decide)]; rfl
    | cons symbol behind => rw [List.cons_append, joined_cons, ← joined_cons symbol behind, unjoined]; rfl

/-- A line that has ended is taken in the same way whatever stands behind it. -/
theorem recognise_line (line rest : Text) :
    recognise (line ++ (crlf.symbols ++ rest)) = recognise (line ++ crlf.symbols) := by
  have begins : ∀ opening : Text, '\r' ∉ opening →
      starts (line ++ (crlf.symbols ++ rest)) opening = starts (line ++ crlf.symbols) opening := by
    intro opening noCr
    have alone := starts_line noCr line []
    rw [List.append_nil] at alone
    rw [starts_line noCr, alone]
  have notDot : ∀ back : Text, line ++ (crlf.symbols ++ back) ≠ terminatorLine := by
    intro back same
    have cr : '\r' ∈ terminatorLine := by
      rw [← same]
      simp [crlf, Delimited.Delimiter.symbols]
    revert cr
    decide
  have notDotAlone : line ++ crlf.symbols ≠ terminatorLine := by simpa using notDot []
  unfold recognise
  rw [begins _ (by decide), begins _ (by decide), begins _ (by decide), begins _ (by decide), begins _ (by decide),
    begins _ (by decide), begins _ (by decide), begins _ (by decide)]
  simp only [notDot rest, notDotAlone, if_false]

theorem only_list_begins {text : Text} (code : "215 ".toList <+: text) {known : Reply}
    (inside : replyText known <+: text) : known = .newsGroupsFollow := by
  by_contra isOther
  have apart : ¬ "215 ".toList <+: replyText known ∧ ¬ replyText known <+: "215 ".toList := by
    revert isOther
    cases known <;> decide
  rcases List.prefix_or_prefix_of_prefix code inside with longer | shorter
  · exact apart.1 longer
  · exact apart.2 shorter

/-! ## Login lines -/

/-- The replies of the login dialogue. -/
def isLogin : Reply → Bool
  | .welcome | .passRequired | .loggedIn | .authenticationFailed => true
  | _ => false

/-- What a login reply makes the reader do. -/
def loginEffect (reader : NewsReader) : Reply → Effect
  | .welcome => .sent (commandLine "AUTHINFO user" reader.username)
  | .passRequired => .sent (commandLine "AUTHINFO pass" reader.password)
  | .loggedIn => .called (.notification .connected)
  | _ => .called (.notification .connectionFailed)

theorem recognise_login {login : Reply} (isLogin : isLogin login = true) {behind : Text}
    (unjoined : joined behind = false) : recognise (replyText login ++ behind) = some login := by
  have notDot : login ≠ .terminator := by
    rintro rfl
    cases isLogin
  have single : is211 login = false := by
    cases login <;> first | rfl | cases isLogin
  exact recognise_append notDot single unjoined

theorem recognise_login_part {login : Reply} (isLogin : isLogin login = true) {buffer : Text}
    (part : buffer <+: replyText login) (short : buffer ≠ replyText login) : recognise buffer = none := by
  have shorter : buffer.length < (replyText login).length := by
    rcases Nat.lt_or_ge buffer.length (replyText login).length with shorter | longer
    · exact shorter
    · exact absurd (part.eq_of_length (Nat.le_antisymm part.length_le longer)) short
  rw [List.prefix_iff_eq_take.mp part]
  have parts : ∀ length < (replyText login).length, recognise ((replyText login).take length) = none := by
    cases login with
    | welcome => decide
    | passRequired => decide
    | loggedIn => decide
    | authenticationFailed => decide
    | _ => cases isLogin
  exact parts _ shorter

/-- The login reply has been taken: `effect` is all it did. -/
structure Answered (session later : Session Unit) (effect : Effect) : Prop where
  commands : later.commands = (session.log effect).commands
  callbacks : later.callbacks = (session.log effect).callbacks

theorem Answered.of_silent {session middle later : Session Unit} {effect : Effect} (silent : Silent session middle)
    (answered : Answered middle later effect) : Answered session later effect := by
  refine ⟨answered.commands.trans ?_, answered.callbacks.trans ?_⟩
  · simp only [Session.commands, log_trace, List.filterMap_append]
    exact congrArg (· ++ _) silent.commands
  · simp only [Session.callbacks, log_trace, List.filterMap_append]
    exact congrArg (· ++ _) silent.callbacks

theorem Answered.silent {session middle later : Session Unit} {effect : Effect}
    (answered : Answered session middle effect) (silent : Silent middle later) : Answered session later effect :=
  ⟨silent.commands.trans answered.commands, silent.callbacks.trans answered.callbacks⟩

theorem Idle.login {session : Session Unit} {response : Text}
    (idle : Idle operation groupCommand session response) {login : Reply} (isLogin : isLogin login = true)
    {buffer : Text} (heard : recognise buffer = some login) :
    Idle operation groupCommand (session.processResponse .silent buffer) [] ∧
      Answered session (session.processResponse .silent buffer) (loginEffect session.reader login) := by
  unfold processResponse
  rw [heard]
  cases login with
  | welcome =>
    dsimp only
    rw [send_of_open idle.isOpen (commandLine_ne_nil _ _)]
    exact ⟨⟨idle.isOpen, idle.results, idle.operation, idle.groupCommand, rfl⟩, rfl, rfl⟩
  | passRequired =>
    dsimp only
    rw [send_of_open idle.isOpen (commandLine_ne_nil _ _)]
    exact ⟨⟨idle.isOpen, idle.results, idle.operation, idle.groupCommand, rfl⟩, rfl, rfl⟩
  | loggedIn => exact ⟨⟨idle.isOpen, idle.results, idle.operation, idle.groupCommand, rfl⟩, rfl, rfl⟩
  | authenticationFailed =>
    exact ⟨⟨idle.isOpen, idle.results, idle.operation, idle.groupCommand, rfl⟩, rfl, rfl⟩
  | _ => cases isLogin

theorem loginEffect_congr {session later : Session Unit} (silent : Silent session later) (login : Reply) :
    loginEffect later.reader login = loginEffect session.reader login := by
  cases login <;> simp [loginEffect, silent.username, silent.password]

/-- The read that completes the status text takes less than a whole read of what is behind it. -/
theorem Idle.after_login {session : Session Unit} (idle : Idle operation groupCommand session [])
    {login : Reply} (isLogin : isLogin login = true) {behind : Text} (unjoined : joined behind = false)
    {texts : List (Text × Bool)} (whole : textOf texts = replyText login ++ behind)
    (short : ∀ text ∈ texts, text.1.length ≤ maxReadLength) :
    ∃ front back taken, texts = front ++ back ∧ taken < maxReadLength ∧ textOf back = behind.drop taken ∧
      Idle operation groupCommand (session.readTexts front) [] ∧
      Answered session (session.readTexts front) (loginEffect session.reader login) := by
  have heardWhole := recognise_login isLogin unjoined
  rcases idle.until_heard texts with ⟨-, -, unheard⟩ | ⟨front, text, more, back, reply, rfl, heard, unheard, waiting, silent⟩
  · have nonempty : texts ≠ [] := by
      rintro rfl
      rw [← whole] at heardWhole
      simp at heardWhole
    rw [List.nil_append, whole, heardWhole] at unheard
    cases unheard nonempty
  · rw [List.nil_append] at heard unheard waiting
    rw [textOf_append, textOf_cons, ← List.append_assoc] at whole
    have inside : textOf front ++ text <+: replyText login ++ behind := ⟨_, whole⟩
    have complete : replyText login <+: textOf front ++ text := by
      rcases List.prefix_or_prefix_of_prefix (List.prefix_append (replyText login) behind) inside with done | part
      · exact done
      · by_contra incomplete
        have short := recognise_login_part isLogin part fun same => incomplete (same ▸ List.prefix_refl _)
        rw [heard] at short
        cases short
    obtain ⟨rest, isRest⟩ := complete
    have behindRest : behind = rest ++ textOf back := by
      rw [← isRest, List.append_assoc] at whole
      exact (List.append_cancel_left whole).symm
    have unjoinedRest : joined rest = false := joined_of_isPrefix (behindRest ▸ List.prefix_append _ _) unjoined
    rw [← isRest, recognise_login isLogin unjoinedRest] at heard
    cases heard
    -- the reads in front do not complete the text
    have earlier : (textOf front).length < (replyText login).length := by
      by_contra late
      have frontInside := (List.prefix_append (textOf front) text).trans inside
      have done : replyText login <+: textOf front :=
        List.prefix_of_prefix_length_le (List.prefix_append _ behind) frontInside (by omega)
      obtain ⟨extra, isExtra⟩ := done
      cases front with
      | nil =>
        have empty : replyText login = [] := by simpa using late
        exact replyText_ne_nil login empty
      | cons head front =>
        have none := unheard (by simp)
        have extraInside : extra <+: behind :=
          (List.prefix_append_right_inj (replyText login)).mp (isExtra ▸ frontInside)
        rw [← isExtra, recognise_login isLogin (joined_of_isPrefix extraInside unjoined)] at none
        cases none
    have fits : text.length ≤ maxReadLength := short (text, more) (by simp)
    have lengths := congrArg List.length isRest
    simp only [List.length_append] at lengths
    refine ⟨front ++ [(text, more)], back, rest.length, by simp, by omega, by simp [behindRest], ?_⟩
    have read := waiting.read text more
    rw [← isRest] at read
    rw [readTexts_append, readTexts_cons, readTexts_nil, read]
    obtain ⟨ready, quiet⟩ := waiting.waited text (replyText login ++ rest)
    obtain ⟨later, answered⟩ := ready.login isLogin (recognise_login isLogin unjoinedRest)
    have all := silent.trans quiet
    rw [loginEffect_congr all] at answered
    exact ⟨later, Answered.of_silent all answered⟩

end EasyNews.WaitingRuns
