import EasyNews.WaitingRuns

/-! # What a reader can hear behind a login line

Text behind a login line reaches a reader that waits again. `Heard` are the texts of which some
cut makes it act once more: in all cuts of another text it stays silent (`Idle.silent`), and some
cut makes it loud (`Heard.loud`).
-/

namespace EasyNews.WaitingRuns

open Session ControlReplies

variable {operation : Option Operation} {groupCommand : Text}

/-! ## Text behind a login line -/

/-- Some cut of the text has a read or a carried line that is a loud reply's text: the text begins
    with it, or begins a block and has it behind a line end. -/
inductive Heard (text : Text) : Prop where
  | atOnce (reply : Reply) (loud : isLoud reply = true) (here : replyText reply <+: text)
  | behindLine (block : Reply) (starts : isLoud block = false) (between : Text) (reply : Reply)
      (loud : isLoud reply = true)
      (here : replyText block ++ between ++ crlf.symbols ++ replyText reply <+: text)

/-- Results are coming for no operation, `carried` being the unfinished line. -/
structure Resuming (session : Session Unit) (carried : Text) : Prop where
  isOpen : session.reader.isOpen = true
  results : session.reader.resultsComing = true
  operation : session.reader.currentOperation = none
  groupCommand : session.reader.currentGroupCommand = []
  response : session.reader.response = carried

theorem isControl_iff (text : Text) : IsControl [] text ↔ ∃ reply, recognise text = some reply ∧ isLoud reply = true := by
  unfold IsControl
  cases recognise text with
  | none => simp
  | some reply => cases reply <;> simp [isLoud]

theorem Resuming.read {session : Session Unit} {carried : Text} (resuming : Resuming session carried)
    {text front rest : Text} (cut : splitter (carried ++ text) = (front, rest)) (more : Bool)
    (harmless : ¬ IsControl [] rest) :
    Silent session (session.readStep .silent more (.ofText text)) ∧
      (Resuming (session.readStep .silent more (.ofText text)) rest ∨
        Resuming (session.readStep .silent more (.ofText text)) []) := by
  let delivered := session.afterDelivery text front rest
  -- no operation is running, so no line is handed over
  have nothing : deliveries session.reader front = [] := by
    rw [deliveries, resuming.operation]
  have silent : Silent session delivered := by
    refine ⟨afterDelivery_commands _ _ _ _, ?_, rfl, rfl, rfl⟩
    rw [afterDelivery_callbacks, nothing, List.append_nil]
  have later : Resuming delivered rest :=
    ⟨resuming.isOpen, resuming.results, resuming.operation, resuming.groupCommand, rfl⟩
  have stillOpen : (session.afterDelivery text front rest).reader.isOpen = true := resuming.isOpen
  rw [← resuming.response] at cut
  rw [Read.ofText, readStep_silent more resuming.isOpen resuming.results cut, afterRead, stillOpen]
  cases more with
  | true => exact ⟨silent, Or.inl later⟩
  | false =>
    have inert : delivered.processResponse .silent rest = delivered.setResponse (kept rest) :=
      processResponse_inert later.results (by rw [later.groupCommand]; exact harmless)
    -- a status text that begins a block is dropped, any other text is kept
    have keepsOrDrops : kept rest = rest ∨ kept rest = [] := by
      unfold kept
      split
      · exact Or.inr rfl
      · exact Or.inr rfl
      · exact Or.inr rfl
      · exact Or.inl rfl
    change Silent session (delivered.processResponse .silent rest) ∧
      (Resuming (delivered.processResponse .silent rest) rest ∨
        Resuming (delivered.processResponse .silent rest) [])
    rw [inert]
    refine ⟨⟨silent.commands, silent.callbacks, rfl, rfl, rfl⟩, ?_⟩
    rcases keepsOrDrops with same | empty
    · left
      exact ⟨resuming.isOpen, resuming.results, resuming.operation, resuming.groupCommand, same⟩
    · right
      exact ⟨resuming.isOpen, resuming.results, resuming.operation, resuming.groupCommand, empty⟩

/-- No line behind the carried text, and no carried line, begins like a loud reply. -/
structure Unheard (carried text : Text) : Prop where
  behindLine : ∀ before reply, isLoud reply = true →
    ¬ before ++ (crlf.symbols ++ replyText reply) <+: carried ++ text
  carried : carried = [] ∨ ∀ reply, isLoud reply = true → ¬ replyText reply <+: carried ++ text

theorem Resuming.silent {session : Session Unit} {carried : Text} (resuming : Resuming session carried)
    (texts : List (Text × Bool)) (unheard : Unheard carried (textOf texts)) :
    Silent session (session.readTexts texts) := by
  induction texts generalizing session carried with
  | nil => exact Silent.refl _
  | cons head texts inductionHypothesis =>
    obtain ⟨text, more⟩ := head
    rw [textOf_cons] at unheard
    cases cut : splitter (carried ++ text) with
    | mk front rest =>
      -- dropped or carried, the rest has no loud text behind it
      have unheardEmpty : Unheard [] (textOf texts) := by
        refine ⟨fun before reply loud inside => ?_, Or.inl rfl⟩
        apply unheard.behindLine (carried ++ text ++ before) reply loud
        have longer := (List.prefix_append_right_inj (carried ++ text)).mpr inside
        simpa [List.append_assoc] using longer
      have unheardRest : Unheard rest (textOf texts) := by
        rcases splitter_cases cut with rfl | joined
        · exact unheardEmpty
        · have whole : carried ++ (text ++ textOf texts) = front ++ (crlf.symbols ++ (rest ++ textOf texts)) := by
            rw [← List.append_assoc, joined]
            simp
          refine ⟨fun before reply loud inside => ?_, Or.inr fun reply loud inside => ?_⟩
          · apply unheard.behindLine (front ++ (crlf.symbols ++ before)) reply loud
            rw [whole]
            have longer := (List.prefix_append_right_inj (front ++ crlf.symbols)).mpr inside
            simpa [List.append_assoc] using longer
          · apply unheard.behindLine front reply loud
            rw [whole]
            have longer := (List.prefix_append_right_inj (front ++ crlf.symbols)).mpr inside
            simpa [List.append_assoc] using longer
      have harmless : ¬ IsControl [] rest := by
        rw [isControl_iff]
        rintro ⟨reply, recognised, loud⟩
        rcases unheardRest.carried with rfl | noReply
        · rw [recognise_nil] at recognised
          cases recognised
        · exact noReply reply loud ((replyText_begins recognised).trans (List.prefix_append _ _))
      obtain ⟨quiet, later⟩ := resuming.read cut more harmless
      rw [readTexts_cons]
      rcases later with later | later
      · exact quiet.trans (inductionHypothesis later unheardRest)
      · exact quiet.trans (inductionHypothesis later unheardEmpty)

theorem Idle.begin_block {session : Session Unit} {response : Text} (idle : Idle none [] session response)
    {buffer : Text} {reply : Reply} (heard : recognise buffer = some reply) (block : isLoud reply = false) :
    Resuming (session.processResponse .silent buffer) [] ∧
      Silent session (session.processResponse .silent buffer) := by
  obtain ⟨reader, callbacks, commands⟩ := idle.accept heard block
  rw [if_neg fun both => both.2 rfl, List.append_nil] at commands
  refine ⟨⟨?_, ?_, ?_, ?_, ?_⟩, commands, callbacks, ?_, ?_, ?_⟩ <;> rw [reader]
  · exact idle.isOpen
  · exact idle.operation
  · exact idle.groupCommand

theorem Idle.reads_block {session : Session Unit} (idle : Idle operation groupCommand session []) {block : Reply}
    (quiet : isLoud block = false) :
    (session.readTexts (markedEvents [[replyText block]])).reader.isOpen = true ∧
      (session.readTexts (markedEvents [[replyText block]])).reader.resultsComing = true := by
  obtain ⟨ready, -⟩ := idle.waited (replyText block) (replyText block)
  obtain ⟨reader, -, -⟩ := ready.accept (recognise_replyText block) quiet
  rw [markedEvents_singleton, readTexts_cons, readTexts_nil, idle.read, List.nil_append, reader]
  exact ⟨idle.isOpen, rfl⟩

theorem Idle.silent {session : Session Unit} (idle : Idle none [] session []) (texts : List (Text × Bool))
    (unheard : ¬ Heard (textOf texts)) : Silent session (session.readTexts texts) := by
  rcases idle.until_heard texts with ⟨-, silent, -⟩ | ⟨front, text, more, back, reply, rfl, heard, -, waiting, silent⟩
  · exact silent
  · rw [List.nil_append] at heard waiting
    rw [textOf_append, textOf_cons, ← List.append_assoc] at unheard
    have begins := replyText_begins heard
    have block : isLoud reply = false := by
      by_contra loud
      exact unheard (.atOnce reply (by simpa using loud) (begins.trans (List.prefix_append _ _)))
    obtain ⟨ready, same⟩ := waiting.waited text (textOf front ++ text)
    obtain ⟨resuming, quiet⟩ := ready.begin_block heard block
    rw [readTexts_append, readTexts_cons, waiting.read]
    refine silent.trans (same.trans (quiet.trans (resuming.silent back ⟨fun before later loud inside => ?_, Or.inl rfl⟩)))
    obtain ⟨rest, isRest⟩ := begins
    apply unheard
    refine .behindLine reply block (rest ++ before) later loud ?_
    rw [← isRest]
    have longer := (List.prefix_append_right_inj (replyText reply ++ rest)).mpr inside
    simpa [List.append_assoc] using longer

/-! ## A cut that is not heard, and one that is -/

theorem Idle.two_reads {session : Session Unit} (idle : Idle operation groupCommand session [])
    {login : Reply} (isLogin : isLogin login = true) {front : Text} {last : Char}
    (isText : replyText login = front ++ [last]) {behind : Text} (unjoined : joined behind = false) :
    Idle operation groupCommand (session.readTexts [(front, false), (last :: behind, false)]) [] ∧
      Answered session (session.readTexts [(front, false), (last :: behind, false)])
        (loginEffect session.reader login) := by
  have part : recognise front = none := by
    apply recognise_login_part isLogin (isText ▸ List.prefix_append _ _)
    intro same
    rw [isText] at same
    simp at same
  obtain ⟨waiting, silent⟩ := idle.waited front front
  have first : session.readStep .silent false (.ofText front) = collected session front front := by
    rw [idle.read, List.nil_append, processResponse, part]
  have whole : front ++ last :: behind = replyText login ++ behind := by simp [isText]
  obtain ⟨ready, quiet⟩ := waiting.waited (last :: behind) (replyText login ++ behind)
  obtain ⟨later, answered⟩ := ready.login isLogin (recognise_login isLogin unjoined)
  have all := silent.trans quiet
  rw [loginEffect_congr all] at answered
  rw [readTexts_cons, readTexts_cons, readTexts_nil, first, waiting.read, whole]
  exact ⟨later, Answered.of_silent all answered⟩

theorem replyText_overlap {first second : Reply} (notDot : first ≠ .terminator) (notDot' : second ≠ .terminator)
    {text : Text} (here : replyText first <+: text) : ¬ replyText second <+: text.drop 1 := by
  intro next
  have long : 1 < (replyText first).length := by
    revert notDot
    cases first <;> decide
  have secondChar : text[1]? = (replyText first)[1]? := by
    obtain ⟨rest, rfl⟩ := here
    exact List.getElem?_append_left long
  have firstChar : text[1]? = (replyText second)[0]? := by
    obtain ⟨rest, isRest⟩ := next
    have positive := List.length_pos_iff.mpr (replyText_ne_nil second)
    rw [← List.getElem?_append_left positive, isRest, List.getElem?_drop]
  have same := secondChar.symm.trans firstChar
  revert same notDot notDot'
  cases first <;> cases second <;> decide

/-- Reading on with two characters at once, from one of two neighbouring places. -/
theorem Idle.unheard_reads {behind : Text} (long : 2 ≤ behind.length) :
    ∃ taken < 2, ∀ session : Session Unit, Idle operation groupCommand session [] →
      ∀ texts, textOf texts = (behind.drop taken).drop 2 →
        Silent session (session.readTexts (((behind.drop taken).take 2, false) :: texts)) := by
  -- from a place where no text but the dot stands, two characters are not the dot
  have quiet : ∀ text : Text, 2 ≤ text.length → (∀ reply, reply ≠ .terminator → ¬ replyText reply <+: text) →
      ∀ session : Session Unit, Idle operation groupCommand session [] →
        ∀ texts, textOf texts = text.drop 2 → Silent session (session.readTexts ((text.take 2, false) :: texts)) := by
    intro text enough nothing session idle texts isRest
    rcases idle.until_heard ((text.take 2, false) :: texts) with
      ⟨-, silent, -⟩ | ⟨front, read, more, back, reply, split, heard, -⟩
    · exact silent
    · exfalso
      have whole : textOf ((text.take 2, false) :: texts) = text := by
        rw [textOf_cons, isRest, List.take_append_drop]
      have inside : textOf front ++ read <+: text := by
        rw [← whole, split, textOf_append, textOf_cons, ← List.append_assoc]
        exact List.prefix_append _ _
      rw [List.nil_append] at heard
      have twoChars : 2 ≤ (textOf front ++ read).length := by
        cases front with
        | nil =>
          obtain ⟨isRead, -⟩ := List.cons.inj split
          cases isRead
          simp only [textOf_nil, List.nil_append, List.length_take]
          omega
        | cons head front =>
          obtain ⟨rfl, -⟩ := List.cons.inj split
          simp only [textOf_cons, List.length_append, List.length_take]
          omega
      by_cases dot : reply = .terminator
      · rw [dot] at heard
        rw [eq_terminatorLine_of_recognise heard] at twoChars
        exact absurd twoChars (by decide)
      · exact nothing reply dot ((replyText_begins heard).trans inside)
  by_cases opens : ∃ reply, reply ≠ .terminator ∧ replyText reply <+: behind
  · obtain ⟨first, notDot, here⟩ := opens
    have long' : 4 ≤ (replyText first).length := by
      revert notDot
      cases first <;> decide
    have longer := here.length_le
    refine ⟨1, by omega, quiet _ (by rw [List.length_drop]; omega) fun second notDot' => ?_⟩
    exact replyText_overlap notDot notDot' here
  · refine ⟨0, by omega, quiet _ (by simpa using long) fun reply notDot here => ?_⟩
    exact opens ⟨reply, notDot, by simpa using here⟩

theorem Resuming.more {session : Session Unit} {carried : Text} (resuming : Resuming session carried)
    (texts : List Text) :
    ∃ later, Resuming (session.readTexts (texts.map fun text => (text, true))) later := by
  induction texts generalizing session carried with
  | nil => exact ⟨carried, resuming⟩
  | cons text texts inductionHypothesis =>
    cases cut : splitter (carried ++ text) with
    | mk front rest =>
      rw [← resuming.response] at cut
      have step : session.readStep .silent true (.ofText text) = session.afterDelivery text front rest := by
        rw [Read.ofText, readStep_silent true resuming.isOpen resuming.results cut, afterRead, if_pos]
        exact resuming.isOpen
      rw [List.map_cons, readTexts_cons, step]
      have later : Resuming (session.afterDelivery text front rest) rest :=
        ⟨resuming.isOpen, resuming.results, resuming.operation, resuming.groupCommand, rfl⟩
      exact inductionHypothesis later

theorem isControl_replyText {reply : Reply} (loud : isLoud reply = true) : IsControl [] (replyText reply) :=
  (isControl_iff _).mpr ⟨reply, recognise_replyText reply, loud⟩

theorem replyText_fits (reply : Reply) : replyText reply ≠ [] ∧ (replyText reply).length ≤ maxReadLength := by
  cases reply <;> decide

theorem Idle.loud_at_once {session : Session Unit} (idle : Idle none [] session []) {reply : Reply}
    (loud : isLoud reply = true) : noise session < noise (session.readTexts (markedEvents [[replyText reply]])) := by
  obtain ⟨ready, silent⟩ := idle.waited (replyText reply) (replyText reply)
  rw [markedEvents_singleton, readTexts_cons, readTexts_nil, idle.read, List.nil_append, ← silent.noise_eq]
  apply processResponse_control ready.isOpen
  rw [ready.groupCommand]
  exact isControl_replyText loud

/-- Behind a status line that lets a block in, a status text behind a line end is heard: the carried line
    does not matter. -/
theorem Resuming.loud_behind_line {session : Session Unit} {carried : Text} (resuming : Resuming session carried)
    {reply : Reply} (loud : isLoud reply = true) :
    noise session < noise (session.readStep .silent false (.ofText (crlf.symbols ++ replyText reply))) := by
  have cut := splitter_append carried (replyText_unbroken reply)
  rw [← resuming.response] at cut
  rw [Read.ofText, readStep_silent false resuming.isOpen resuming.results cut, afterRead_false]
  calc noise session
    _ ≤ noise (session.afterDelivery (crlf.symbols ++ replyText reply) session.reader.response (replyText reply)) :=
      noise_le (List.prefix_append _ _)
    _ < _ := by
      have stillOpen : (session.afterDelivery (crlf.symbols ++ replyText reply) session.reader.response
        (replyText reply)).reader.isOpen = true := resuming.isOpen
      apply processResponse_control stillOpen
      show IsControl session.reader.currentGroupCommand (replyText reply)
      rw [resuming.groupCommand]
      exact isControl_replyText loud

theorem Idle.loud_behind_line {session : Session Unit} (idle : Idle none [] session []) {block reply : Reply}
    (quiet : isLoud block = false) (between : List Text) (loud : isLoud reply = true) :
    noise session <
      noise (session.readTexts (markedEvents [[replyText block], between ++ [crlf.symbols ++ replyText reply]])) := by
  obtain ⟨ready, silent⟩ := idle.waited (replyText block) (replyText block)
  obtain ⟨resuming, same⟩ := ready.begin_block (recognise_replyText block) quiet
  have events : markedEvents [[replyText block], between ++ [crlf.symbols ++ replyText reply]] =
      (replyText block, false) :: (between.map fun text => (text, true)) ++
        [(crlf.symbols ++ replyText reply, false)] := by
    simp [markedEvents, marked_append_singleton, marked]
  rw [events, List.cons_append, readTexts_cons, idle.read, List.nil_append, readTexts_append, readTexts_cons,
    readTexts_nil]
  generalize begun : (collected session (replyText block) (replyText block)).processResponse .silent
    (replyText block) = started at resuming same ⊢
  obtain ⟨carried, later⟩ := resuming.more between
  calc noise session
    _ = noise started := (silent.trans same).noise_eq.symm
    _ ≤ noise (started.readTexts (between.map fun text => (text, true))) :=
      noise_le (readSteps_trace silent_trace _ _)
    _ < _ := later.loud_behind_line loud

/-- A text that is heard is heard in some cut, with whatever is read behind it. -/
theorem Heard.loud {text : Text} (heard : Heard text) :
    ∃ texts : List (List Text), ∃ behind, texts.flatten.flatten ++ behind = text ∧
      (∀ read ∈ texts.flatten, read ≠ [] ∧ read.length ≤ maxReadLength) ∧
      ∀ session : Session Unit, Idle none [] session [] →
        noise session < noise (session.readTexts (markedEvents texts)) := by
  cases heard with
  | atOnce reply loud here =>
    obtain ⟨behind, rfl⟩ := here
    exact ⟨[[replyText reply]], behind, by simp, by simpa using replyText_fits reply,
      fun session idle => idle.loud_at_once loud⟩
  | behindLine block quiet between reply loud here =>
    obtain ⟨behind, rfl⟩ := here
    let singles := between.map fun char => [char]
    have whole : singles.flatten = between := by
      simp [singles, List.flatten_eq_flatMap, List.flatMap_map]
    refine ⟨[[replyText block], singles ++ [crlf.symbols ++ replyText reply]], behind, ?_, ?_,
      fun session idle => idle.loud_behind_line quiet singles loud⟩
    · simp [whole]
    · intro read inside
      simp only [List.flatten_cons, List.flatten_nil, List.append_nil, List.mem_append, List.mem_singleton] at inside
      rcases inside with rfl | single | rfl
      · exact replyText_fits block
      · obtain ⟨char, -, rfl⟩ := List.mem_map.mp single
        simp [maxReadLength]
      · cases reply <;> decide

end EasyNews.WaitingRuns
