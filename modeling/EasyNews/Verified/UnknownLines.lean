import EasyNews.WaitingRuns

/-! # Status lines the reader does not know

Text collects in `response` until it begins with a status text, and only then is it forgotten. A
line that matches none stays in front of all that follow, so the reader hears nothing more.
-/

namespace EasyNews.Verified.UnknownLines

open Session ControlReplies WaitingRuns

variable {operation : Option Operation} {groupCommand : Text}

/-! ## Lines -/

/-- A status line as it is on the wire. -/
def statusLine (line : Text) : Text := line ++ crlf.symbols

/-- The line matches one of the texts of `processResponse`. -/
def isKnown (line : Text) : Bool := (recognise (statusLine line)).isSome

theorem recognise_statusLine (line rest : Text) :
    recognise (statusLine line ++ rest) = recognise (statusLine line) := by
  rw [statusLine, List.append_assoc, recognise_line]

/-! ## Once results come they never cease -/

theorem processResponse_results {session : Session Unit} (results : session.reader.resultsComing = true)
    (buffer : Text) : (session.processResponse .silent buffer).reader.resultsComing = true := by
  unfold processResponse
  split
  · simpa using results
  · exact results
  · simpa using results
  · exact results
  · exact results
  · simpa using results
  · rfl
  · rfl
  · simp
  · exact results

theorem readStep_results {session : Session Unit} (results : session.reader.resultsComing = true) (more : Bool)
    (text : Text) : (session.readStep .silent more (.ofText text)).reader.resultsComing = true := by
  cases isOpen : session.reader.isOpen with
  | false =>
    rw [readStep_closed _ _ _ isOpen]
    exact results
  | true =>
    cases cut : splitter (session.reader.response ++ text) with
    | mk front rest =>
      rw [Read.ofText, readStep_silent more isOpen results cut, afterRead]
      split
      · exact results
      · apply processResponse_results
        exact results

theorem readTexts_results {session : Session Unit} (results : session.reader.resultsComing = true)
    (texts : List (Text × Bool)) : (session.readTexts texts).reader.resultsComing = true := by
  induction texts generalizing session with
  | nil => exact results
  | cons head texts inductionHypothesis =>
    obtain ⟨text, more⟩ := head
    exact inductionHypothesis (readStep_results results more text)

theorem quiet_before {session : Session Unit} {texts : List (Text × Bool)}
    (quiet : (session.readTexts texts).reader.resultsComing = false) : session.reader.resultsComing = false := by
  rw [Bool.eq_false_iff]
  intro results
  rw [readTexts_results results texts] at quiet
  cases quiet

/-! ## Runs -/

def hear (lines : List Text) (session : Session Unit) : Session Unit :=
  session.readTexts (lines.map fun line => (statusLine line, false))

theorem hear_cons (line : Text) (lines : List Text) (session : Session Unit) :
    hear (line :: lines) session = hear lines (session.readStep .silent false (.ofText (statusLine line))) := rfl

theorem hear_append (front back : List Text) (session : Session Unit) :
    hear (front ++ back) session = hear back (hear front session) := by
  simp only [hear, List.map_append, readTexts_append]

theorem hear_closed (lines : List Text) {session : Session Unit} (closed : session.reader.isOpen = false) :
    hear lines session = session :=
  readSteps_closed _ _ closed

theorem noise_hear (lines : List Text) (session : Session Unit) : noise session ≤ noise (hear lines session) := by
  induction lines generalizing session with
  | nil => exact Nat.le_refl _
  | cons line lines inductionHypothesis =>
    have step := noise_le (readStep_trace silent_trace false (.ofText (statusLine line)) session)
    exact Nat.le_trans step (inductionHypothesis _)

/-- Before results come it does not matter how the reads are grouped into events. -/
theorem readTexts_eq_hear {lines : List Text} {texts : List (Text × Bool)}
    (isLines : texts.map Prod.fst = lines.map statusLine) {session : Session Unit}
    (quiet : (session.readTexts texts).reader.resultsComing = false) : session.readTexts texts = hear lines session := by
  induction lines generalizing texts session with
  | nil =>
    rw [List.map_nil, List.map_eq_nil_iff] at isLines
    rw [isLines]
    rfl
  | cons line lines inductionHypothesis =>
    cases texts with
    | nil => cases isLines
    | cons head texts =>
      obtain ⟨text, more⟩ := head
      obtain ⟨rfl, isLater⟩ := List.cons.inj isLines
      have sameStep : session.readStep .silent more (.ofText (statusLine line)) =
          session.readStep .silent false (.ofText (statusLine line)) := by
        cases isOpen : session.reader.isOpen with
        | false => rw [readStep_closed _ _ _ isOpen, readStep_closed _ _ _ isOpen]
        | true =>
          have results := quiet_before quiet
          rw [Read.ofText, readStep_control _ more isOpen results, readStep_control _ false isOpen results]
      rw [readTexts_cons] at quiet ⊢
      rw [sameStep] at quiet ⊢
      exact inductionHypothesis isLater quiet

/-! ## Known lines in front -/

/-- A known line that announces no block leaves a trace in the commands or the callbacks. -/
theorem noise_lt_readStep {session : Session Unit} (idle : Idle operation groupCommand session []) {line : Text}
    {reply : Reply} (isReply : recognise (statusLine line) = some reply) (loud : isLoud reply = true) :
    noise session < noise (session.readStep .silent false (.ofText (statusLine line))) := by
  obtain ⟨waiting, silent⟩ := idle.waited (statusLine line) (statusLine line)
  rw [idle.read, List.nil_append, ← silent.noise_eq]
  apply processResponse_control waiting.isOpen
  rw [IsControl, isReply]
  cases reply <;> trivial

theorem ne_terminator_of_statusLine {line : Text} {reply : Reply} (isReply : recognise (statusLine line) = some reply) :
    reply ≠ .terminator := by
  rintro rfl
  have same := eq_terminatorLine_of_recognise isReply
  have cr : '\r' ∈ terminatorLine := by
    rw [← same]
    simp [statusLine, crlf, Delimited.Delimiter.symbols]
  revert cr
  decide

/-- A known line empties `response` again; 205 closes the connection, the replies that announce a
    block start it, and the others are followed by something sent or notified. -/
theorem readStep_known {session : Session Unit} (idle : Idle operation groupCommand session []) {line : Text}
    {reply : Reply} (isReply : recognise (statusLine line) = some reply) :
    let later := session.readStep .silent false (.ofText (statusLine line))
    (reply = .goodbye → later.reader.isOpen = false) ∧
      (reply ≠ .goodbye → later.reader.resultsComing = false → Idle operation groupCommand later []) ∧
      (later.reader.resultsComing = false → noise session < noise later) := by
  have louder := fun loud => noise_lt_readStep idle isReply loud
  have notDot := ne_terminator_of_statusLine isReply
  obtain ⟨waiting, silent⟩ := idle.waited (statusLine line) (statusLine line)
  dsimp only
  rw [idle.read, List.nil_append] at louder ⊢
  by_cases login : isLogin reply = true
  · have loud : isLoud reply = true := by
      cases reply <;> first | rfl | cases login
    refine ⟨?_, fun _ _ => (waiting.login login isReply).1, fun _ => louder loud⟩
    rintro rfl
    cases login
  · cases block : isLoud reply with
    | false =>
      have coming : ((collected session (statusLine line) (statusLine line)).processResponse .silent
          (statusLine line)).reader.resultsComing = true := by
        rw [(waiting.accept isReply block).1]
      refine ⟨?_, fun _ quiet => ?_, fun quiet => ?_⟩
      · rintro rfl
        cases block
      · exact absurd (coming.symm.trans quiet) (by decide)
      · exact absurd (coming.symm.trans quiet) (by decide)
    | true =>
      have goodbye : reply = .goodbye := by
        cases reply with
        | goodbye => rfl
        | terminator => exact absurd rfl notDot
        | newsGroupsFollow | articleNumbersFollow | groupSelected => cases block
        | welcome | passRequired | loggedIn | authenticationFailed => exact absurd rfl login
      refine ⟨fun _ => ?_, fun other => absurd goodbye other, fun _ => louder block⟩
      rw [processResponse, isReply, goodbye]
      simp

/-- Some known lines before any results: the reader waits as before, or a 205 among them has closed
    the connection. -/
theorem hear_known {session : Session Unit} (idle : Idle operation groupCommand session []) {lines : List Text}
    (known : ∀ line ∈ lines, isKnown line = true) (quiet : (hear lines session).reader.resultsComing = false) :
    ((∃ line ∈ lines, recognise (statusLine line) = some .goodbye) ∧ (hear lines session).reader.isOpen = false) ∨
      (∀ line ∈ lines, recognise (statusLine line) ≠ some .goodbye) ∧
        Idle operation groupCommand (hear lines session) [] := by
  induction lines generalizing session with
  | nil => exact .inr ⟨by simp, idle⟩
  | cons line lines inductionHypothesis =>
    obtain ⟨reply, isReply⟩ := Option.isSome_iff_exists.mp (known line List.mem_cons_self)
    obtain ⟨closes, waits, -⟩ := readStep_known idle isReply
    rw [hear_cons] at quiet ⊢
    -- a goodbye closes the stream and ends the run; any other known line leaves the reader waiting
    by_cases goodbye : reply = .goodbye
    · left
      have closed := closes goodbye
      refine ⟨⟨line, List.mem_cons_self, goodbye ▸ isReply⟩, ?_⟩
      rw [hear_closed lines closed]
      exact closed
    · have later := waits goodbye (quiet_before quiet)
      have here : recognise (statusLine line) ≠ some .goodbye := by
        rw [isReply]
        exact fun same => goodbye (Option.some.inj same)
      cases inductionHypothesis later (fun other member => known other (List.mem_cons_of_mem _ member)) quiet with
      | inl closed =>
        obtain ⟨⟨other, member, isGoodbye⟩, closed⟩ := closed
        exact .inl ⟨⟨other, List.mem_cons_of_mem _ member, isGoodbye⟩, closed⟩
      | inr open_ => exact .inr ⟨List.forall_mem_cons.mpr ⟨here, open_.1⟩, open_.2⟩

/-- Behind an unknown line the reader only collects. -/
theorem hear_unknown {session : Session Unit} (idle : Idle operation groupCommand session []) {line : Text}
    (unknown : isKnown line = false) (lines : List Text) : Silent session (hear (line :: lines) session) := by
  have collects := idle.until_heard ((line :: lines).map fun line => (statusLine line, false))
  have never : ∀ rest : Text, recognise (statusLine line ++ rest) = none := by
    intro rest
    rw [recognise_statusLine]
    simpa [isKnown] using unknown
  cases collects with
  | inl waiting => exact waiting.2.1
  | inr heard =>
    obtain ⟨front, text, more, back, reply, split, isReply, -⟩ := heard
    -- all text so far begins with the unknown line
    have begins : ∃ rest, textOf front ++ text = statusLine line ++ rest := by
      cases front with
      | nil =>
        obtain ⟨same, -⟩ := List.cons.inj split
        obtain ⟨rfl, -⟩ := Prod.mk.inj same
        exact ⟨[], by simp⟩
      | cons first front =>
        obtain ⟨same, -⟩ := List.cons.inj split
        exact ⟨textOf front ++ text, by rw [← same, textOf_cons, List.append_assoc]⟩
    obtain ⟨rest, whole⟩ := begins
    rw [List.nil_append, whole, never] at isReply
    cases isReply

/-! ## Leaving the unknown lines out -/

/-- The commands sent, the notifications raised and the changes of `connected`. -/
structure SameEffects (session other : Session Unit) : Prop where
  commands : session.commands = other.commands
  notifications : session.notifications = other.notifications
  connected : session.reader.connected = other.reader.connected

theorem SameEffects.of_silent {session later : Session Unit} (silent : Silent session later) :
    SameEffects later session where
  commands := silent.commands
  notifications := by
    rw [Session.notifications, silent.callbacks]
    rfl
  connected := silent.connected

theorem controls_length (session : Session Unit) :
    (controls session).length = (session.notifications.filter (· ≠ .nextArticle)).length := by
  unfold controls Session.notifications
  induction session.callbacks with
  | nil => rfl
  | cons callback callbacks inductionHypothesis =>
    cases callback with
    | notification notification =>
      cases notification <;> simpa [List.filter_cons, isControlCallback] using inductionHypothesis
    | _ => simpa [List.filter_cons, isControlCallback] using inductionHypothesis

theorem SameEffects.noise_eq {session other : Session Unit} (same : SameEffects session other) :
    noise session = noise other := by
  rw [noise, noise, same.commands, controls_length, controls_length, same.notifications]

/-- No known line stands behind an unknown one, or a 205 in front of all unknown ones has closed
    the connection. -/
def KnownFirst (lines : List Text) : Prop :=
  (∀ line ∈ lines.dropWhile isKnown, isKnown line = false) ∨
    ∃ line ∈ lines.takeWhile isKnown, recognise (statusLine line) = some .goodbye

theorem hear_filter_iff {session : Session Unit} (idle : Idle operation groupCommand session [])
    (lines : List Text) (quiet : (hear lines session).reader.resultsComing = false)
    (quietKnown : (hear (lines.filter isKnown) session).reader.resultsComing = false) :
    SameEffects (hear lines session) (hear (lines.filter isKnown) session) ↔ KnownFirst lines := by
  have front : ∀ line ∈ lines.takeWhile isKnown, isKnown line = true := fun line member =>
    List.mem_takeWhile_imp member
  have whole := List.takeWhile_append_dropWhile (p := isKnown) (l := lines)
  have filtered : lines.filter isKnown = lines.takeWhile isKnown ++ (lines.dropWhile isKnown).filter isKnown := by
    conv_lhs => rw [← whole]
    rw [List.filter_append, List.filter_eq_self.mpr front]
  have all : hear lines session = hear (lines.dropWhile isKnown) (hear (lines.takeWhile isKnown) session) := by
    rw [← hear_append, whole]
  rw [filtered, hear_append] at quietKnown ⊢
  rw [all] at quiet ⊢
  have quietFront := quiet_before quiet
  cases hear_known idle front quietFront with
  | inl closed =>
    obtain ⟨goodbye, closed⟩ := closed
    rw [hear_closed _ closed, hear_closed _ closed]
    exact iff_of_true ⟨rfl, rfl, rfl⟩ (.inr goodbye)
  | inr waiting =>
    obtain ⟨noGoodbye, waiting⟩ := waiting
    have onlyUnknown : KnownFirst lines ↔ (lines.dropWhile isKnown).filter isKnown = [] := by
      rw [List.filter_eq_nil_iff]
      simp only [KnownFirst, Bool.not_eq_true]
      exact or_iff_left fun ⟨line, member, isGoodbye⟩ => noGoodbye line member isGoodbye
    rw [onlyUnknown]
    cases rest : lines.dropWhile isKnown with
    | nil => exact iff_of_true ⟨rfl, rfl, rfl⟩ rfl
    | cons line behind =>
      have unknown : isKnown line = false := by
        have nonempty : lines.dropWhile isKnown ≠ [] := by simp [rest]
        have head := List.head_dropWhile_not isKnown nonempty
        simpa [rest] using head
      have silent := hear_unknown waiting unknown behind
      cases known : (line :: behind).filter isKnown with
      | nil => exact iff_of_true (.of_silent silent) rfl
      | cons first more =>
        -- the first known line is heard when nothing unknown stands in front of it
        have isKnown_ : isKnown first = true := (List.mem_filter.mp (known ▸ List.mem_cons_self)).2
        obtain ⟨reply, isReply⟩ := Option.isSome_iff_exists.mp isKnown_
        obtain ⟨-, -, louder⟩ := readStep_known waiting isReply
        rw [rest, known, hear_cons] at quietKnown
        refine iff_of_false (fun same => ?_) (by simp)
        have equal := same.noise_eq
        have grows := louder (quiet_before quietKnown)
        have grown := noise_hear more ((hear (lines.takeWhile isKnown) session).readStep .silent false
          (.ofText (statusLine first)))
        have still := silent.noise_eq
        rw [hear_cons first more] at equal
        omega

/-- Before results come, the unknown lines of a sequence make no difference exactly if the known ones
    stand first, or are not needed any more. -/
theorem unknown_lines_left_out_iff (asciiDecode : Bytes → Option Text) (session : Session Unit)
    (isOpen : session.reader.isOpen = true) (results : session.reader.resultsComing = false)
    (response : session.reader.response = []) (lines : List Text) (events knownEvents : List (List Text))
    (all : events.flatten = lines.map statusLine)
    (known : knownEvents.flatten = (lines.filter isKnown).map statusLine)
    (quiet : (session.receive .silent
      (events.map (·.map fun text => Read.ofBytes asciiDecode (utf8 text)))).reader.resultsComing = false)
    (quietKnown : (session.receive .silent
      (knownEvents.map (·.map fun text => Read.ofBytes asciiDecode (utf8 text)))).reader.resultsComing = false) :
    SameEffects
        (session.receive .silent (events.map (·.map fun text => Read.ofBytes asciiDecode (utf8 text))))
        (session.receive .silent (knownEvents.map (·.map fun text => Read.ofBytes asciiDecode (utf8 text)))) ↔
      KnownFirst lines := by
  have idle : Idle session.reader.currentOperation session.reader.currentGroupCommand session [] :=
    ⟨isOpen, results, rfl, rfl, response⟩
  rw [receive_texts] at quiet quietKnown ⊢
  rw [receive_texts]
  have isLines : (markedEvents events).map Prod.fst = lines.map statusLine := by
    rw [markedEvents_map_fst, all]
  have areKnown : (markedEvents knownEvents).map Prod.fst = (lines.filter isKnown).map statusLine := by
    rw [markedEvents_map_fst, known]
  have whole := readTexts_eq_hear isLines quiet
  have part := readTexts_eq_hear areKnown quietKnown
  rw [whole] at quiet ⊢
  rw [part] at quietKnown ⊢
  exact hear_filter_iff idle lines quiet quietKnown

def greeted : Session Unit where
  reader :=
    { username := "ann".toList
      password := "secret".toList
      isOpen := true }
  delegate := ()

/-- A greeting, a line the reader does not know, and the next reply of the login. -/
def interruptedLogin : List Text :=
  ["200 news.easynews.com Welcome!".toList, "400 busy".toList, "381 PASS required".toList]

theorem unknown_lines_left_out_iff_interrupted :
    SameEffects
        (greeted.receive .silent
          ((interruptedLogin.map fun line => [statusLine line]).map
            (·.map fun text => Read.ofBytes (fun _ => none) (utf8 text))))
        (greeted.receive .silent
          (((interruptedLogin.filter isKnown).map fun line => [statusLine line]).map
            (·.map fun text => Read.ofBytes (fun _ => none) (utf8 text)))) ↔
      KnownFirst interruptedLogin :=
  unknown_lines_left_out_iff (fun _ => none) greeted rfl rfl rfl interruptedLogin _ _ (by decide) (by decide)
    (by decide) (by decide)

/-- The reader never sends the password. -/
theorem unknown_line_jams :
    ¬ SameEffects
        (greeted.receive .silent
          ((interruptedLogin.map fun line => [statusLine line]).map
            (·.map fun text => Read.ofBytes (fun _ => none) (utf8 text))))
        (greeted.receive .silent
          (((interruptedLogin.filter isKnown).map fun line => [statusLine line]).map
            (·.map fun text => Read.ofBytes (fun _ => none) (utf8 text)))) := by
  intro same
  have commands := same.commands
  revert commands
  decide

end EasyNews.Verified.UnknownLines
