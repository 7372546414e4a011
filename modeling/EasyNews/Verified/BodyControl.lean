import EasyNews.ControlReplies

/-! # Body text that acts as protocol control

Once results are coming, a read's unfinished last line is kept in `response`; at the end of the
event the same text goes through `processResponse`, which takes it for a status line. The reads
that make body text act as control are the `Harmful` ones.
-/

namespace EasyNews.Verified.BodyControl

open Session ControlReplies

/-! ## Harmful reads -/

/-- What the reception of a body has left behind: an unfinished line, and the article so far. -/
structure Reception where
  carried : Text
  article : Text

/-- The text in front of the last CR LF ends the operation. -/
def Finishes (operation : Option Operation) (article front : Text) : Prop :=
  match operation with
  | some .article => (split (article ++ front ++ crlf.symbols)).getLast? = some terminatorLine
  | some .listGroupArticles | some .listGroups => terminatorLine ∈ split front
  | _ => False

namespace Reception

/-- What a read, `more` standing behind it in its event, leaves behind. -/
def take (operation : Option Operation) (reception : Reception) : Read × Bool → Reception
  | (.failed, _) => { reception with carried := kept reception.carried }
  | (.bytes none, more) =>
    { reception with carried := if more then reception.carried else kept reception.carried }
  | (.bytes (some output), more) =>
    let (front, rest) := splitter (reception.carried ++ output)
    { carried := if more then rest else kept rest
      article :=
        if operation = some .article then reception.article ++ front ++ crlf.symbols
        else reception.article }

def takeAll (operation : Option Operation) (reads : List (Read × Bool)) (reception : Reception) : Reception :=
  reads.foldl (take operation) reception

/-- The read ends the operation, or its event ends in a control text. -/
def Harmful (operation : Option Operation) (groupCommand : Text) (reception : Reception) :
    Read × Bool → Prop
  | (.failed, _) => IsControl groupCommand reception.carried
  | (.bytes none, more) => more = false ∧ IsControl groupCommand reception.carried
  | (.bytes (some output), more) =>
    let (front, rest) := splitter (reception.carried ++ output)
    Finishes operation reception.article front ∨ (more = false ∧ IsControl groupCommand rest)

end Reception

/-! ## One read -/

/-- The reader is receiving a body, of which `reception` is left behind. -/
structure Receiving (operation : Option Operation) (groupCommand : Text) (session : Session Unit)
    (reception : Reception) : Prop where
  isOpen : session.reader.isOpen = true
  results : session.reader.resultsComing = true
  operation : session.reader.currentOperation = operation
  groupCommand : session.reader.currentGroupCommand = groupCommand
  carried : session.reader.response = reception.carried
  article : session.reader.article = reception.article

/-- Of the callbacks of one read, only Done is control, and only the end of the operation makes it. -/
theorem deliveries_controls (reader : NewsReader) (front : Text) :
    ((deliveries reader front).filter isControlCallback ≠ [] ↔
      Finishes reader.currentOperation reader.article front) := by
  unfold deliveries Finishes
  cases reader.currentOperation with
  | none => simp
  | some operation =>
    cases operation with
    | article =>
      dsimp only
      split
      · rename_i last
        rw [iff_true_right last]
        simp [isControlCallback]
      · rename_i last
        simpa using last
    -- a header raises NextArticle only
    | articleHeader => simp [isControlCallback]
    | listGroupArticles =>
      dsimp only
      by_cases ends : terminatorLine ∈ split front
      · simp [ends, isControlCallback]
      · simp [ends, isControlCallback]
    | listGroups =>
      dsimp only
      by_cases empty : split front = []
      · simp [empty]
      · by_cases ends : terminatorLine ∈ split front
        · simp [empty, ends, isControlCallback]
        · simp [empty, ends, isControlCallback]

theorem afterDelivery_controls (session : Session Unit) (output front rest : Text) :
    controls (session.afterDelivery output front rest) =
      controls session ++ (deliveries session.reader front).filter isControlCallback := by
  rw [controls, afterDelivery_callbacks, List.filter_append, controls]

variable {operation : Option Operation} {groupCommand : Text}

theorem Receiving.endEvent {session : Session Unit} {reception : Reception}
    (receiving : Receiving operation groupCommand session reception)
    (harmless : ¬ IsControl groupCommand reception.carried) :
    Inert session (session.processResponse .silent session.reader.response) ∧
      Receiving operation groupCommand (session.processResponse .silent session.reader.response)
        { reception with carried := kept reception.carried } := by
  rw [← receiving.groupCommand, ← receiving.carried] at harmless
  rw [processResponse_inert receiving.results harmless]
  refine ⟨⟨rfl, rfl, rfl, rfl⟩, ?_⟩
  exact ⟨receiving.isOpen, receiving.results, receiving.operation, receiving.groupCommand,
    by rw [setResponse_reader, receiving.carried], receiving.article⟩

theorem Receiving.log {session : Session Unit} {reception : Reception}
    (receiving : Receiving operation groupCommand session reception) (output : Option Text) :
    Inert session (session.log (.received output)) ∧
      Receiving operation groupCommand (session.log (.received output)) reception := by
  refine ⟨⟨by simp, rfl, rfl, by simp [ControlReplies.controls]⟩, ?_⟩
  exact ⟨receiving.isOpen, receiving.results, receiving.operation, receiving.groupCommand, receiving.carried,
    receiving.article⟩

theorem Receiving.delivery {session : Session Unit} {reception : Reception}
    (receiving : Receiving operation groupCommand session reception) {front : Text} (output rest : Text)
    (harmless : ¬ Finishes operation reception.article front) :
    Inert session (session.afterDelivery output front rest) ∧
      Receiving operation groupCommand (session.afterDelivery output front rest)
        { carried := rest
          article :=
            if operation = some .article then reception.article ++ front ++ crlf.symbols
            else reception.article } := by
  have quiet : (deliveries session.reader front).filter isControlCallback = [] := by
    by_contra some
    have finishes := (deliveries_controls session.reader front).mp some
    rw [receiving.operation, receiving.article] at finishes
    exact harmless finishes
  refine ⟨⟨afterDelivery_commands _ _ _ _, rfl, rfl, ?_⟩, ?_⟩
  · rw [afterDelivery_controls, quiet, List.append_nil]
  · refine ⟨receiving.isOpen, receiving.results, receiving.operation, receiving.groupCommand, rfl, ?_⟩
    simp [afterDelivery, NewsReader.delivered, receiving.operation, receiving.article]

theorem readStep_harmless {session : Session Unit} {reception : Reception}
    (receiving : Receiving operation groupCommand session reception) (read : Read) (more : Bool)
    (harmless : ¬ reception.Harmful operation groupCommand (read, more)) :
    Inert session (session.readStep .silent more read) ∧
      Receiving operation groupCommand (session.readStep .silent more read)
        (reception.take operation (read, more)) := by
  cases read with
  | failed =>
    rw [readStep, if_pos receiving.isOpen]
    exact receiving.endEvent harmless
  | bytes output =>
    cases output with
    | none =>
      obtain ⟨inert, logged⟩ := receiving.log none
      rw [readStep, if_pos receiving.isOpen]
      cases more with
      | true => exact ⟨inert, logged⟩
      | false =>
        obtain ⟨ended, later⟩ := logged.endEvent fun control => harmless ⟨rfl, control⟩
        exact ⟨inert.trans ended, later⟩
    | some output =>
      cases cut : splitter (reception.carried ++ output) with
      | mk front rest =>
        simp only [Reception.Harmful, cut, not_or, not_and] at harmless
        have cutHere : splitter (session.reader.response ++ output) = (front, rest) := by
          rw [receiving.carried, cut]
        obtain ⟨inert, delivered⟩ := receiving.delivery output rest harmless.1
        rw [readStep_silent more receiving.isOpen receiving.results cutHere, afterRead, delivered.isOpen,
          Bool.and_true]
        simp only [Reception.take, cut]
        cases more with
        | true => exact ⟨inert, delivered⟩
        | false =>
          obtain ⟨ended, later⟩ := delivered.endEvent (harmless.2 rfl)
          exact ⟨inert.trans ended, later⟩

theorem readStep_harmful {session : Session Unit} {reception : Reception}
    (receiving : Receiving operation groupCommand session reception) (read : Read) (more : Bool)
    (harmful : reception.Harmful operation groupCommand (read, more)) :
    noise session < noise (session.readStep .silent more read) := by
  cases read with
  | failed =>
    rw [readStep, if_pos receiving.isOpen]
    apply processResponse_control receiving.isOpen
    rw [receiving.groupCommand, receiving.carried]
    exact harmful
  | bytes output =>
    cases output with
    | none =>
      obtain ⟨rfl, control⟩ := harmful
      obtain ⟨inert, logged⟩ := receiving.log none
      rw [readStep, if_pos receiving.isOpen, ← inert.noise_eq]
      apply processResponse_control logged.isOpen
      rw [logged.groupCommand, logged.carried]
      exact control
    | some output =>
      cases cut : splitter (reception.carried ++ output) with
      | mk front rest =>
        simp only [Reception.Harmful, cut] at harmful
        have cutHere : splitter (session.reader.response ++ output) = (front, rest) := by
          rw [receiving.carried, cut]
        rw [readStep_silent more receiving.isOpen receiving.results cutHere]
        by_cases finishes : Finishes operation reception.article front
        · -- the read itself ends the operation
          have called : (deliveries session.reader front).filter isControlCallback ≠ [] := by
            rw [deliveries_controls, receiving.operation, receiving.article]
            exact finishes
          have louder : noise session < noise (session.afterDelivery output front rest) := by
            have positive := List.length_pos_iff.mpr called
            rw [noise, noise, afterDelivery_commands, afterDelivery_controls, List.length_append]
            omega
          exact lt_of_lt_of_le louder (noise_le (afterRead_trace silent_trace _ _))
        · -- the text behind the last line end is taken for a status line
          obtain ⟨rfl, control⟩ := harmful.resolve_left finishes
          obtain ⟨inert, delivered⟩ := receiving.delivery output rest finishes
          rw [afterRead_false, ← inert.noise_eq]
          apply processResponse_control delivered.isOpen
          rw [delivered.groupCommand, delivered.carried]
          exact control

/-! ## Runs -/

/-- A run is inert exactly if none of its reads is harmful. -/
theorem inert_iff {session : Session Unit} {reception : Reception}
    (receiving : Receiving operation groupCommand session reception) (reads : List (Read × Bool)) :
    Inert session (session.readSteps .silent reads) ↔
      ∀ front read, front ++ [read] <+: reads →
        ¬ (reception.takeAll operation front).Harmful operation groupCommand read := by
  induction reads generalizing session reception with
  | nil =>
    refine ⟨fun _ front read inside => ?_, fun _ => Inert.refl session⟩
    have short := inside.length_le
    simp at short
  | cons read reads inductionHypothesis =>
    by_cases harmful : reception.Harmful operation groupCommand read
    · -- noise never falls again, so one harmful read is enough
      have louder := readStep_harmful receiving read.1 read.2 harmful
      have grown := noise_le (readSteps_trace silent_trace reads (session.readStep .silent read.2 read.1))
      constructor
      · intro inert
        have same := inert.noise_eq
        rw [readSteps_cons] at same
        omega
      · intro harmless
        exact absurd harmful (harmless [] read (by simp))
    · obtain ⟨inert, later⟩ := readStep_harmless receiving read.1 read.2 harmful
      have rest := inductionHypothesis later
      rw [readSteps_cons]
      constructor
      · intro whole front other inside
        cases front with
        | nil =>
          obtain ⟨rfl, -⟩ := List.cons_prefix_cons.mp inside
          exact harmful
        | cons first front =>
          obtain ⟨rfl, insideRest⟩ := List.cons_prefix_cons.mp inside
          exact rest.mp (inert.symm.trans whole) front other insideRest
      · intro harmless
        refine inert.trans (rest.mpr fun front other inside => ?_)
        exact harmless (read :: front) other (List.cons_prefix_cons.mpr ⟨rfl, inside⟩)

/-! ## Before the body is complete -/

def received (reads : List (Read × Bool)) : Text :=
  reads.flatMap fun
    | (.bytes (some output), _) => output
    | _ => []

/-- The last line of the block has not arrived to its CR LF. -/
def Unfinished (text : Text) : Prop := terminatorLine ∉ (crlf.pieces text).dropLast

theorem Unfinished.front {front back : Text} (unfinished : Unfinished (front ++ back)) : Unfinished front :=
  fun complete => unfinished ((crlf.pieces_dropLast_append front back).subset complete)

/-- Until its last line is complete, body text sends, closes, logs in and ends nothing, exactly if
    no read is harmful. -/
theorem body_is_inert_iff (session : Session Unit) (isOpen : session.reader.isOpen = true)
    (results : session.reader.resultsComing = true) (events : List (List Read)) :
    (∀ front, front <+: markedEvents events → Unfinished (session.reader.response ++ received front) →
      Inert session (session.readSteps .silent front)) ↔
    (∀ front read, front ++ [read] <+: markedEvents events →
      Unfinished (session.reader.response ++ received (front ++ [read])) →
        ¬ (Reception.takeAll session.reader.currentOperation front
          ⟨session.reader.response, session.reader.article⟩).Harmful
            session.reader.currentOperation session.reader.currentGroupCommand read) := by
  have receiving : Receiving session.reader.currentOperation session.reader.currentGroupCommand session
      ⟨session.reader.response, session.reader.article⟩ := ⟨isOpen, results, rfl, rfl, rfl, rfl⟩
  constructor
  · intro inert front read inside unfinished
    exact (inert_iff receiving _).mp (inert _ inside unfinished) front read (List.prefix_refl _)
  · intro harmless front inside unfinished
    rw [inert_iff receiving]
    intro earlier read before
    obtain ⟨later, rfl⟩ := before
    apply harmless earlier read ((List.prefix_append _ _).trans inside)
    rw [received, List.flatMap_append, ← List.append_assoc] at unfinished
    exact unfinished.front

theorem body_is_inert_one_line :
    Inert awaitingArticle
      (awaitingArticle.readSteps .silent (markedEvents [[Read.ofText "220 7\r\nHello\r\n".toList]])) := by
  have harmless : ¬ Reception.Harmful (some .article) [] ⟨[], []⟩
      (Read.ofText "220 7\r\nHello\r\n".toList, false) := by
    have cut : splitter ([] ++ "220 7\r\nHello\r\n".toList) = ("220 7\r\nHello".toList, []) := by decide
    simp only [Reception.Harmful, Read.ofText, cut, Finishes, IsControl, recognise_nil]
    decide
  refine (body_is_inert_iff awaitingArticle rfl rfl [[Read.ofText "220 7\r\nHello\r\n".toList]]).mpr ?_ _
    (List.prefix_refl _) ?_
  · intro front read inside _
    cases front with
    | nil =>
      obtain ⟨rfl, -⟩ := List.cons_prefix_cons.mp inside
      exact harmless
    | cons first front =>
      have short := (List.cons_prefix_cons.mp inside).2.length_le
      simp [marked] at short
  · unfold Unfinished
    decide

/-- A poster's line, cut off by the end of a read, makes the reader send its user name. -/
theorem posted_line_logs_in :
    ¬ ∀ events, Unfinished (received (markedEvents events)) →
      Inert awaitingArticle (awaitingArticle.receive .silent events) := by
  intro claim
  have unfinished : Unfinished
      (received (markedEvents [[Read.ofText "220 7\r\n200 news.easynews.com Welcome!".toList]])) := by
    unfold Unfinished
    decide
  have sent : (awaitingArticle.receive .silent
      [[Read.ofText "220 7\r\n200 news.easynews.com Welcome!".toList]]).commands =
        ["AUTHINFO user ann\n".toList] := by decide
  have quiet := (claim _ unfinished).commands
  rw [sent] at quiet
  exact absurd quiet (by decide)

end EasyNews.Verified.BodyControl
