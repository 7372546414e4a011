import EasyNews.ListeningRuns
import EasyNews.WaitingRuns

/-! # Whole lines of an id list

The reply to LISTGROUP, cut anywhere. The read loop carries on what stands behind the last line end,
but `splitter` gives it all of a text without a line end, and a tail that looks like a status line is
forgotten at the end of its event. In the runs that meet neither, every id delivered is a whole line.
-/

namespace EasyNews.Verified.WholeLines

open Session WaitingRuns

/-! ## Lines -/

/-- A line of the text, its line end included, that is not the dot. -/
structure WholeLine (text line : Text) : Prop where
  place : ∃ before after, text = before ++ line ++ crlf.symbols ++ after ∧
    (before = [] ∨ crlf.symbols <:+ before)
  unbroken : crlf.Unbroken line
  notTerminator : line ≠ terminatorLine

theorem wholeLine_of_mem {text line : Text} (member : line ∈ crlf.completeLines text)
    (notTerminator : line ≠ terminatorLine) : WholeLine text line :=
  ⟨crlf.exists_of_mem_completeLines member, crlf.unbroken_of_mem_pieces (List.dropLast_subset _ member),
    notTerminator⟩

theorem WholeLine.ended {text line : Text} (wholeLine : WholeLine text line) : line ++ crlf.symbols <:+: text := by
  obtain ⟨before, after, rfl, -⟩ := wholeLine.place
  exact ⟨before, after, by simp⟩

/-! ## Runs -/

/-- LISTGROUP has been sent, and its reply is coming. -/
structure ListingArticles (reader : NewsReader) : Prop where
  isOpen : reader.isOpen = true
  results : reader.resultsComing = true
  operation : reader.currentOperation = some .listGroupArticles
  response : reader.response = []

/-- Behind `received`, every read completes a line, or brings nothing when nothing is left over; and
    what an event leaves over is no status line. -/
def LineByLine (received : Text) : List (Text × Bool) → Prop
  | [] => True
  | (text, more) :: reads =>
    ((crlf.tail received ++ text = [] ∨ ¬ crlf.Unbroken (crlf.tail received ++ text)) ∧
      (more = false → recognise (crlf.tail (received ++ text)) ∈ [none, some .terminator])) ∧
        LineByLine (received ++ text) reads

instance decideLineByLine : ∀ (received : Text) (reads : List (Text × Bool)), Decidable (LineByLine received reads)
  | _, [] => isTrue trivial
  | received, (text, _) :: reads =>
    have := decideLineByLine (received ++ text) reads
    inferInstanceAs (Decidable ((_ ∧ _) ∧ _))

/-- At every moment of the run, each id delivered is a whole line of the text so far. -/
def DeliversWholeLines (session : Session Unit) (events : List (List Text)) : Prop :=
  ∀ reads, reads <+: markedEvents events →
    ∃ added, (session.readTexts reads).callbacks = session.callbacks ++ added ∧
      ∀ articleIds, .articles articleIds ∈ added → ∀ articleId ∈ articleIds, WholeLine (textOf reads) articleId

/-- The reader after a part of the reply. -/
structure Delivered (earlier : List Callback) (received : Text) (session : Session Unit) : Prop where
  isOpen : session.reader.isOpen = true
  results : session.reader.resultsComing = true
  operation : session.reader.currentOperation = some .listGroupArticles
  response : session.reader.response = crlf.tail received
  called : ∃ added, session.callbacks = earlier ++ added ∧
    ∀ articleIds, .articles articleIds ∈ added → ∀ articleId ∈ articleIds,
      articleId ∈ crlf.completeLines received ∧ articleId ≠ terminatorLine

variable {earlier : List Callback} {received : Text} {session : Session Unit}

theorem Delivered.delivery (before : Delivered earlier received session) {text front rest : Text}
    (carried : rest = crlf.tail (received ++ text))
    (lines : ∀ line ∈ split front, line ∈ crlf.completeLines (received ++ text)) :
    Delivered earlier (received ++ text) (session.afterDelivery text front rest) := by
  obtain ⟨added, callbacks, whole⟩ := before.called
  refine ⟨before.isOpen, before.results, before.operation, carried,
    added ++ deliveries session.reader front, ?_, ?_⟩
  · rw [afterDelivery_callbacks, callbacks, List.append_assoc]
  · intro articleIds member articleId inIds
    cases List.mem_append.mp member with
    | inl old =>
      obtain ⟨inLines, notTerminator⟩ := whole articleIds old articleId inIds
      rw [crlf.completeLines_append]
      exact ⟨List.mem_append_left _ inLines, notTerminator⟩
    | inr new =>
      have isNew : articleIds = (split front).filter (· ≠ terminatorLine) := by
        rw [deliveries, before.operation] at new
        dsimp only at new
        cases List.mem_cons.mp new with
        | inl same => exact Callback.articles.inj same
        | inr done =>
          split at done
          · cases List.mem_singleton.mp done
          · cases done
      rw [isNew, List.mem_filter, decide_eq_true_iff] at inIds
      exact ⟨lines articleId inIds.1, inIds.2⟩

theorem Delivered.afterRead (before : Delivered earlier received session) {more : Bool}
    (quiet : more = false → recognise (crlf.tail received) ∈ [none, some .terminator]) :
    Delivered earlier received (session.afterRead .silent more) := by
  cases more with
  | true =>
    have goesOn : session.afterRead .silent true = session := by simp [Session.afterRead, before.isOpen]
    rw [goesOn]
    exact before
  | false =>
    rw [afterRead_false, before.response, processResponse]
    have recognised := quiet rfl
    simp only [List.mem_cons, List.not_mem_nil, or_false] at recognised
    -- at the end of an event the carried text is looked at, and only a dot alone is heard
    cases recognised with
    | inl unknown =>
      rw [unknown]
      exact before
    | inr dot =>
      rw [dot]
      dsimp only
      obtain ⟨added, callbacks, whole⟩ := before.called
      refine ⟨before.isOpen, before.results, before.operation, before.response,
        added ++ [.notification .done], ?_, ?_⟩
      · rw [call_silent, callbacks_log_called, callbacks, List.append_assoc]
      · intro articleIds member
        exact whole articleIds (by simpa using member)

theorem Delivered.readStep (before : Delivered earlier received session) {text : Text}
    (lineEnd : crlf.tail received ++ text = [] ∨ ¬ crlf.Unbroken (crlf.tail received ++ text)) {more : Bool}
    (quiet : more = false → recognise (crlf.tail (received ++ text)) ∈ [none, some .terminator]) :
    Delivered earlier (received ++ text) (session.readStep .silent more (.ofText text)) := by
  cases lineEnd with
  | inl nothing =>
    have carried : [] = crlf.tail (received ++ text) := by rw [crlf.tail_append, nothing, crlf.tail_nil]
    have cut : splitter (session.reader.response ++ text) = ([], []) := by
      rw [before.response, nothing, splitter_nil]
    rw [Read.ofText, readStep_silent more before.isOpen before.results cut]
    refine (before.delivery carried fun line member => ?_).afterRead quiet
    simp [split] at member
  | inr broken =>
    obtain ⟨front, lines, step⟩ := readStep_silent_tail before.isOpen before.results before.response broken
    rw [step more]
    refine (before.delivery rfl fun line member => ?_).afterRead quiet
    have inPieces : line ∈ crlf.pieces front := (List.mem_filter.mp member).1
    rw [crlf.completeLines_append, ← lines]
    exact List.mem_append_right _ inPieces

theorem Delivered.readTexts (before : Delivered earlier received session) {reads : List (Text × Bool)}
    (lineByLine : LineByLine received reads) :
    ∀ front, front <+: reads → Delivered earlier (received ++ textOf front) (session.readTexts front) := by
  refine readTexts_invariant (fun _ _ _ _ _ admitted before => ?_) before lineByLine
  obtain ⟨⟨lineEnd, quiet⟩, later⟩ := admitted
  exact ⟨before.readStep lineEnd quiet, later⟩

theorem whole_lines_delivered (asciiDecode : Bytes → Option Text) (session : Session Unit)
    (listing : ListingArticles session.reader) (events : List (List Text))
    (lineByLine : LineByLine [] (markedEvents events)) :
    DeliversWholeLines session events ∧
      session.receive .silent (events.map (·.map fun text => Read.ofBytes asciiDecode (utf8 text))) =
        session.readTexts (markedEvents events) := by
  have start : Delivered session.callbacks [] session :=
    ⟨listing.isOpen, listing.results, listing.operation, listing.response, [], by simp, by simp⟩
  refine ⟨fun reads inside => ?_, receive_texts asciiDecode events session⟩
  obtain ⟨added, callbacks, whole⟩ := (start.readTexts lineByLine reads inside).called
  refine ⟨added, callbacks, fun articleIds member articleId inIds => ?_⟩
  obtain ⟨inLines, notTerminator⟩ := whole articleIds member articleId inIds
  exact wholeLine_of_mem inLines notTerminator

def awaitingIds : Session Unit :=
  { awaitingArticle with reader := { awaitingArticle.reader with currentOperation := some .listGroupArticles } }

theorem whole_lines_delivered_three_reads :
    DeliversWholeLines awaitingIds [["12\r\n3".toList, "4\r\n.".toList], ["\r\n".toList]] ∧
      awaitingIds.receive .silent
          (([["12\r\n3".toList, "4\r\n.".toList], ["\r\n".toList]] : List (List Text)).map
            (·.map fun text => Read.ofBytes (fun _ => none) (utf8 text))) =
        awaitingIds.readTexts
          (markedEvents [["12\r\n3".toList, "4\r\n.".toList], ["\r\n".toList]]) :=
  whole_lines_delivered (fun _ => none) awaitingIds ⟨rfl, rfl, rfl, rfl⟩ _ (by decide)

theorem not_deliversWholeLines {events : List (List Text)} (fresh : session.callbacks = [])
    (articleId : Text)
    (called : .articles [articleId] ∈ (session.readTexts (markedEvents events)).callbacks)
    (unended : ¬ articleId ++ crlf.symbols <:+: textOf (markedEvents events)) :
    ¬ DeliversWholeLines session events := by
  intro delivers
  obtain ⟨added, callbacks, whole⟩ := delivers (markedEvents events) (List.prefix_refl _)
  rw [callbacks, fresh, List.nil_append] at called
  exact unended (whole [articleId] called articleId (List.mem_singleton_self _)).ended

/-- A read without a line end, and the end of the stream behind half a number. -/
theorem partial_line_is_delivered :
    ¬ DeliversWholeLines awaitingIds [["12".toList], ["3\r\n".toList]] ∧
      ¬ DeliversWholeLines awaitingIds [["1\r\n23".toList], [[]]] :=
  ⟨not_deliversWholeLines rfl "12".toList (by decide) (by decide),
    not_deliversWholeLines rfl "23".toList (by decide) (by decide)⟩

end EasyNews.Verified.WholeLines
