import EasyNews.ListeningRuns

/-! # Status texts that act

At the end of an event the text that is left over goes through `processResponse`. `IsControl` are
the texts that make it send, close or notify; `noise` counts what was sent and notified, and
`Inert` says that two sessions do not differ in that.
-/

namespace EasyNews.ControlReplies

open Session

/-- What a text the reader takes for the reply begins with. -/
def replyText : Reply → Text
  | .welcome => "200 news.easynews.com Welcome!".toList
  | .terminator => terminatorLine
  | .passRequired => "381 PASS required".toList
  | .loggedIn => "281 Welcome To Easynews.".toList
  | .authenticationFailed => "502 Authentication Failed".toList
  | .goodbye => "205 Goodbye".toList
  | .newsGroupsFollow => "215 NewsGroups Follow".toList
  | .articleNumbersFollow => "211 Article Numbers Follow".toList
  | .groupSelected => "211 ".toList

theorem replyText_ne_nil (reply : Reply) : replyText reply ≠ [] := by
  cases reply <;> decide

/-- The test that a text passes to be taken for a reply. -/
def passes (buffer : Text) : Reply → Bool
  | .terminator => buffer = terminatorLine
  | reply => starts buffer (replyText reply)

/-- The replies in the order of their tests. -/
def replies : List Reply :=
  [.welcome, .terminator, .passRequired, .loggedIn, .authenticationFailed, .goodbye, .newsGroupsFollow,
    .articleNumbersFollow, .groupSelected]

theorem mem_replies (reply : Reply) : reply ∈ replies := by cases reply <;> decide

theorem passes_begins {buffer : Text} {reply : Reply} (passed : passes buffer reply = true) :
    replyText reply <+: buffer := by
  cases reply with
  | terminator => exact of_decide_eq_true passed ▸ List.prefix_refl _
  | _ => exact isPrefix_of_starts passed

theorem passes_of_starts {buffer : Text} {reply : Reply} (notDot : reply ≠ .terminator)
    (begins : starts buffer (replyText reply) = true) : passes buffer reply = true := by
  cases reply with
  | terminator => exact absurd rfl notDot
  | _ => exact begins

theorem find?_cons_ite {α : Type} (test : α → Bool) (head : α) (list : List α) :
    (head :: list).find? test = if test head then some head else list.find? test := by
  cases passed : test head <;> simp [passed]

theorem recognise_eq_find (buffer : Text) : recognise buffer = replies.find? (passes buffer) := by
  by_cases dot : buffer = terminatorLine
  · subst dot
    decide
  · have notDot : ¬ passes buffer .terminator = true := by simpa [passes] using dot
    rw [recognise, if_neg dot, replies]
    simp only [find?_cons_ite, if_neg notDot]
    rfl

theorem starts_of_recognise {buffer : Text} {reply : Reply} (notDot : reply ≠ .terminator)
    (recognised : recognise buffer = some reply) : starts buffer (replyText reply) = true := by
  rw [recognise_eq_find] at recognised
  have passed := List.find?_some recognised
  cases reply with
  | terminator => exact absurd rfl notDot
  | _ => exact passed

theorem replyText_begins {buffer : Text} {reply : Reply} (recognised : recognise buffer = some reply) :
    replyText reply <+: buffer := by
  rw [recognise_eq_find] at recognised
  exact passes_begins (List.find?_some recognised)

theorem recognise_of_starts {reply : Reply} (notDot : reply ≠ .terminator) {text : Text}
    (begins : starts text (replyText reply) = true) : recognise text ≠ none := by
  rw [recognise_eq_find, Ne, List.find?_eq_none]
  intro unheard
  exact unheard reply (mem_replies reply) (passes_of_starts notDot begins)

theorem eq_terminatorLine_of_recognise {buffer : Text} (recognised : recognise buffer = some .terminator) :
    buffer = terminatorLine := by
  rw [recognise_eq_find] at recognised
  have passed : passes buffer .terminator = true := List.find?_some recognised
  exact of_decide_eq_true passed

theorem ne_terminator_of_recognise {buffer : Text} {reply : Reply} (recognised : recognise buffer = some reply)
    (long : 1 < buffer.length) : reply ≠ .terminator := by
  rintro rfl
  rw [eq_terminatorLine_of_recognise recognised] at long
  exact Nat.lt_irrefl 1 long

theorem replyText_unbroken (reply : Reply) : crlf.Unbroken (replyText reply) := by
  apply crlf.unbroken_of_not_mem
  cases reply <;> decide

theorem recognise_replyText (reply : Reply) : recognise (replyText reply) = some reply := by
  cases reply <;> decide

/-- The two replies whose texts begin alike. -/
def is211 : Reply → Bool
  | .articleNumbersFollow | .groupSelected => true
  | _ => false

theorem replyText_code {first second : Reply} (notDot : first ≠ .terminator) (notDot' : second ≠ .terminator)
    {text : Text} (here : replyText first <+: text) (there : replyText second <+: text) :
    first = second ∨ is211 first = true ∧ is211 second = true := by
  have long : ∀ reply : Reply, reply ≠ .terminator → 4 ≤ (replyText reply).length := by
    intro reply notDot
    revert notDot
    cases reply <;> decide
  -- the first four characters tell the replies apart
  have codes : (replyText first).take 4 = (replyText second).take 4 := by
    obtain ⟨rest, isFirst⟩ := here
    obtain ⟨rest', isSecond⟩ := there
    rw [← List.take_append_of_le_length (long first notDot), isFirst, ← isSecond,
      List.take_append_of_le_length (long second notDot')]
  revert codes notDot notDot'
  cases first <;> cases second <;> decide

theorem recognise_append {reply : Reply} (notDot : reply ≠ .terminator) (single : is211 reply = false)
    {rest : Text} (unjoined : joined rest = false) : recognise (replyText reply ++ rest) = some reply := by
  have here : replyText reply <+: replyText reply ++ rest := List.prefix_append _ _
  cases heard : recognise (replyText reply ++ rest) with
  | none => exact absurd heard (recognise_of_starts notDot (starts_iff.mpr ⟨rest, rfl, unjoined⟩))
  | some other =>
    have long : 1 < (replyText reply ++ rest).length := by
      have atLeast : 1 < (replyText reply).length := by
        revert notDot
        cases reply <;> decide
      rw [List.length_append]
      omega
    have otherNotDot := ne_terminator_of_recognise heard long
    -- whatever is recognised begins like the text itself
    obtain rfl | ⟨_, twice⟩ := replyText_code otherNotDot notDot (replyText_begins heard) here
    · rfl
    · rw [single] at twice
      cases twice

theorem recognise_215 {rest : Text} (unjoined : joined rest = false) :
    recognise ("215 NewsGroups Follow".toList ++ rest) = some .newsGroupsFollow :=
  @recognise_append .newsGroupsFollow (by decide) rfl rest unjoined

theorem not_numbers_of_groupSelected {buffer : Text} (recognised : recognise buffer = some .groupSelected) :
    starts buffer (replyText .articleNumbersFollow) = false := by
  rw [Bool.eq_false_iff]
  intro begins
  have order : replies = replies.take 7 ++ [Reply.articleNumbersFollow, Reply.groupSelected] := rfl
  have passed := passes_of_starts (by decide) begins
  rw [recognise_eq_find, order, List.find?_append, List.find?_cons_of_pos passed] at recognised
  cases earlier : (replies.take 7).find? (passes buffer) with
  | none =>
    rw [earlier] at recognised
    cases recognised
  | some reply =>
    rw [earlier] at recognised
    obtain rfl : reply = .groupSelected := Option.some.inj recognised
    have inside := List.mem_of_find?_eq_some earlier
    revert inside
    decide

theorem recognise_211 {rest : Text} (unjoined : joined rest = false) :
    recognise ("211 ".toList ++ rest) =
      if starts rest "Article Numbers Follow".toList then some .articleNumbersFollow else some .groupSelected := by
  have here : replyText .groupSelected <+: "211 ".toList ++ rest := List.prefix_append _ _
  have numbers : starts ("211 ".toList ++ rest) (replyText .articleNumbersFollow) =
      starts rest "Article Numbers Follow".toList := by
    have text : replyText .articleNumbersFollow = "211 ".toList ++ "Article Numbers Follow".toList := by decide
    rw [text, starts_append_append]
  cases heard : recognise ("211 ".toList ++ rest) with
  | none => exact absurd heard (@recognise_of_starts .groupSelected (by decide) _ (starts_iff.mpr ⟨rest, rfl, unjoined⟩))
  | some other =>
    have long : 1 < ("211 ".toList ++ rest).length := by
      have four : "211 ".toList.length = 4 := rfl
      rw [List.length_append, four]
      omega
    have notDot := ne_terminator_of_recognise heard long
    have begins := replyText_begins heard
    -- no other status text shares its first four characters
    have is211 : is211 other = true := by
      obtain rfl | ⟨twice, _⟩ := replyText_code notDot (by decide) begins here
      · rfl
      · exact twice
    cases other with
    | articleNumbersFollow => rw [if_pos (numbers.symm.trans (starts_of_recognise (by decide) heard))]
    | groupSelected => rw [if_neg (by rw [← numbers, not_numbers_of_groupSelected heard]; decide)]
    | _ => cases is211

/-- The replies that do something wherever they come from; the other three start a block. -/
def isLoud : Reply → Bool
  | .newsGroupsFollow | .articleNumbersFollow | .groupSelected => false
  | _ => true

/-- A status text at the end of an event: it sends, closes or notifies. -/
def IsControl (groupCommand text : Text) : Prop :=
  match recognise text with
  | some .newsGroupsFollow | some .articleNumbersFollow | none => False
  | some .groupSelected => groupCommand ≠ []
  | _ => True

/-- A status text that does nothing once results are coming still empties `response`. -/
def kept (text : Text) : Text :=
  match recognise text with
  | some .newsGroupsFollow | some .articleNumbersFollow | some .groupSelected => []
  | _ => text

/-! ## What must not happen -/

/-- The notifications that only the server's own lines may cause. -/
def isControlCallback : Callback → Bool
  | .notification .connected | .notification .connectionFailed | .notification .disconnected
  | .notification .done => true
  | _ => false

def controls (session : Session Unit) : List Callback := session.callbacks.filter isControlCallback

/-- From `session` to `later` nothing was sent, closed, logged in or ended. -/
structure Inert (session later : Session Unit) : Prop where
  commands : later.commands = session.commands
  isOpen : later.reader.isOpen = session.reader.isOpen
  connected : later.reader.connected = session.reader.connected
  controls : controls later = controls session

theorem Inert.refl (session : Session Unit) : Inert session session := ⟨rfl, rfl, rfl, rfl⟩

theorem Inert.trans {session middle later : Session Unit} (first : Inert session middle)
    (second : Inert middle later) : Inert session later :=
  ⟨second.commands.trans first.commands, second.isOpen.trans first.isOpen,
    second.connected.trans first.connected, second.controls.trans first.controls⟩

theorem Inert.symm {session later : Session Unit} (inert : Inert session later) : Inert later session :=
  ⟨inert.commands.symm, inert.isOpen.symm, inert.connected.symm, inert.controls.symm⟩

/-- How much has been sent or notified. -/
def noise (session : Session Unit) : Nat := session.commands.length + (controls session).length

theorem Inert.noise_eq {session later : Session Unit} (inert : Inert session later) :
    noise later = noise session := by
  rw [noise, inert.commands, inert.controls, noise]

theorem noise_le {session later : Session Unit} (grown : session.trace <+: later.trace) :
    noise session ≤ noise later := by
  have commands : session.commands <+: later.commands := grown.filterMap _
  have callbacks : session.callbacks <+: later.callbacks := grown.filterMap _
  exact Nat.add_le_add commands.length_le (callbacks.filter _).length_le

theorem silent_trace (callback : Callback) (session : Session Unit) :
    session.trace <+: (NewsReaderDelegate.silent.handle callback session).trace := List.prefix_refl _

theorem noise_log_called {callback : Callback} (isControl : isControlCallback callback = true)
    (session : Session Unit) : noise (session.log (.called callback)) = noise session + 1 := by
  simp [noise, controls, isControl]
  omega

theorem noise_log_sent (command : Text) (session : Session Unit) :
    noise (session.log (.sent command)) = noise session + 1 := by
  simp [noise, controls]
  omega

theorem noise_of_trace {session later : Session Unit} (same : later.trace = session.trace) :
    noise later = noise session := by
  rw [noise, commands_of_trace same, controls, callbacks_of_trace same, noise, controls]

/-! ## The end of an event -/

theorem processResponse_control {session : Session Unit} (isOpen : session.reader.isOpen = true) {text : Text}
    (control : IsControl session.reader.currentGroupCommand text) :
    noise session < noise (session.processResponse .silent text) := by
  unfold IsControl at control
  unfold processResponse
  cases recognised : recognise text with
  | none => simp [recognised] at control
  | some reply =>
    rw [recognised] at control
    cases reply with
    | welcome =>
      have sent := noise_log_sent (commandLine "AUTHINFO user" session.reader.username) session
      dsimp only
      rw [send_of_open isOpen (commandLine_ne_nil _ _), noise_of_trace (setResponse_trace _ _), sent]
      omega
    | terminator =>
      rw [call_silent, noise_log_called rfl]
      omega
    | passRequired =>
      have sent := noise_log_sent (commandLine "AUTHINFO pass" session.reader.password) session
      dsimp only
      rw [send_of_open isOpen (commandLine_ne_nil _ _), noise_of_trace (setResponse_trace _ _), sent]
      omega
    | loggedIn =>
      dsimp only
      rw [call_silent, noise_of_trace (setResponse_trace _ _), noise_log_called rfl,
        noise_of_trace (update_trace _ _)]
      omega
    | authenticationFailed =>
      dsimp only
      rw [call_silent, noise_of_trace (setResponse_trace _ _), noise_log_called rfl]
      omega
    | goodbye =>
      dsimp only
      rw [call_silent, noise_of_trace (setResponse_trace _ _), noise_log_called rfl,
        noise_of_trace (close_trace _)]
      omega
    -- the two that only begin a block are no control texts
    | newsGroupsFollow => exact absurd control id
    | articleNumbersFollow => exact absurd control id
    | groupSelected =>
      dsimp only
      rw [send_of_open (by exact isOpen) (by exact control), noise_log_sent, noise_of_trace (update_trace _ _)]
      omega

theorem processResponse_inert {session : Session Unit} (results : session.reader.resultsComing = true)
    (harmless : ¬ IsControl session.reader.currentGroupCommand session.reader.response) :
    session.processResponse .silent session.reader.response =
      session.setResponse (kept session.reader.response) := by
  unfold IsControl at harmless
  unfold processResponse kept
  -- results are coming already, so that a block begins changes nothing
  have same : session.update (fun reader => { reader with resultsComing := true, response := [] }) =
      session.setResponse [] := by
    simp [update, setResponse, results]
  cases recognised : recognise session.reader.response with
  | none => rfl
  | some reply =>
    rw [recognised] at harmless
    cases reply with
    | newsGroupsFollow => exact same
    | articleNumbersFollow => exact same
    | groupSelected =>
      have empty : session.reader.currentGroupCommand = [] := by simpa using harmless
      dsimp only
      rw [same, send, if_neg]
      simp [empty]
    | welcome => exact absurd trivial harmless
    | terminator => exact absurd trivial harmless
    | passRequired => exact absurd trivial harmless
    | loggedIn => exact absurd trivial harmless
    | authenticationFailed => exact absurd trivial harmless
    | goodbye => exact absurd trivial harmless

end EasyNews.ControlReplies
