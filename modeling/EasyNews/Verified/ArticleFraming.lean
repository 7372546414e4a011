import EasyNews.Verified.ArticleTransfer
import EasyNews.WaitingRuns

/-! # Framing an article

The reply to ARTICLE, cut anywhere, as long as every read completes a line and no event ends behind
the beginning of a status line. `article` holds the complete lines received so far and `response` the
rest, and the delegate is called when the line with the single dot is complete.
-/

namespace EasyNews.Verified.ArticleFraming

open Delimited Session ArticleTransfer WaitingRuns

/-! ## The end of the block -/

section Finished

variable {lines : List Text} (isLine : ∀ line ∈ lines ++ [terminatorLine], IsLine line)
  (unfinished : terminatorLine ∉ lines)

include isLine in
theorem completeLines_block :
    crlf.completeLines (crlf.render (lines ++ [terminatorLine])) = lines ++ [terminatorLine] :=
  crlf.completeLines_render fun line member => (isLine line member).unbroken

include isLine unfinished in
/-- The last line that is not blank is the dot exactly when the whole block is there. -/
theorem last_line_iff {received : Text} (part : received <+: crlf.render (lines ++ [terminatorLine])) :
    ((crlf.completeLines received).filter (· ≠ [])).getLast? = some terminatorLine ↔
      received = crlf.render (lines ++ [terminatorLine]) := by
  constructor
  · intro last
    obtain ⟨rest, whole⟩ := part
    have linesPart := crlf.pieces_dropLast_append received rest
    rw [whole] at linesPart
    change crlf.completeLines received <+: crlf.completeLines _ at linesPart
    rw [completeLines_block isLine, List.prefix_concat_iff] at linesPart
    cases linesPart with
    | inl all =>
      have joined := crlf.render_completeLines_append received
      rw [all] at joined
      rw [← joined, List.append_assoc, List.append_right_eq_self] at whole
      rw [← joined, (List.append_eq_nil_iff.mp whole).1, List.append_nil]
    | inr earlier =>
      have member := (List.mem_filter.mp (List.mem_of_getLast? last)).1
      exact absurd (earlier.subset member) unfinished
  · intro whole
    rw [whole, completeLines_block isLine, List.filter_append]
    simp [terminatorLine]

end Finished

/-! ## Runs -/

/-- Behind `received`, every read completes a line, and what an event leaves behind is no reply. -/
def Framed (received : Text) : List (Text × Bool) → Prop
  | [] => True
  | (text, more) :: reads =>
    (¬ crlf.Unbroken (crlf.tail received ++ text) ∧
      (more = false → recognise (crlf.tail (received ++ text)) = none)) ∧ Framed (received ++ text) reads

instance decideFramed : ∀ (received : Text) (reads : List (Text × Bool)), Decidable (Framed received reads)
  | _, [] => isTrue trivial
  | received, (text, _) :: reads =>
    have := decideFramed (received ++ text) reads
    inferInstanceAs (Decidable ((_ ∧ _) ∧ _))

/-- The reader and its callbacks after a part of the block. -/
structure Received (earlier : List Callback) (block received : Text) (session : Session Unit) : Prop where
  isOpen : session.reader.isOpen = true
  results : session.reader.resultsComing = true
  operation : session.reader.currentOperation = some .article
  article : session.reader.article = crlf.render (crlf.completeLines received)
  response : session.reader.response = crlf.tail received
  called : session.callbacks =
    earlier ++ if received = block then [.article block, .notification .done] else []

variable {earlier : List Callback} {lines : List Text}

theorem Received.readStep {received : Text} {session : Session Unit}
    (isLine : ∀ line ∈ lines ++ [terminatorLine], IsLine line) (unfinished : terminatorLine ∉ lines)
    (before : Received earlier (crlf.render (lines ++ [terminatorLine])) received session) {text : Text}
    (part : received ++ text <+: crlf.render (lines ++ [terminatorLine]))
    (broken : ¬ crlf.Unbroken (crlf.tail received ++ text)) {more : Bool}
    (quiet : more = false → recognise (crlf.tail (received ++ text)) = none) :
    Received earlier (crlf.render (lines ++ [terminatorLine])) (received ++ text)
      (session.readStep .silent more (.ofText text)) := by
  obtain ⟨front, newLines, step⟩ := readStep_silent_tail before.isOpen before.results before.response broken
  have stored : session.reader.article ++ front ++ crlf.symbols =
      crlf.render (crlf.completeLines (received ++ text)) := by
    rw [before.article, List.append_assoc, ← crlf.render_pieces front, newLines, ← crlf.render_append,
      ← crlf.completeLines_append]
  have cut : split (crlf.render (crlf.completeLines (received ++ text))) =
      (crlf.completeLines (received ++ text)).filter (· ≠ []) :=
    crlf.fields_render fun line member => crlf.unbroken_of_mem_pieces (List.dropLast_subset _ member)
  have notBefore : received ≠ crlf.render (lines ++ [terminatorLine]) := by
    intro whole
    have nothing : text = [] := by
      rw [whole] at part
      have length := part.length_le
      rw [List.length_append] at length
      exact List.eq_nil_of_length_eq_zero (by omega)
    apply broken
    rw [nothing, List.append_nil]
    exact crlf.unbroken_tail received
  have calledBefore := before.called
  rw [if_neg notBefore, List.append_nil] at calledBefore
  -- the article is handed over with the read that completes the dot's line
  have delivered : deliveries session.reader front =
      if received ++ text = crlf.render (lines ++ [terminatorLine]) then
        [.article (crlf.render (lines ++ [terminatorLine])), .notification .done]
      else [] := by
    rw [deliveries, before.operation]
    dsimp only
    rw [stored, cut]
    simp only [last_line_iff isLine unfinished part]
    split
    · rename_i whole
      rw [whole, completeLines_block isLine]
    · rfl
  -- what an event leaves behind is no reply, so its end does nothing
  have ended : (session.afterDelivery text front (crlf.tail (received ++ text))).afterRead .silent more =
      session.afterDelivery text front (crlf.tail (received ++ text)) := by
    cases more with
    | true => simp [afterRead, afterDelivery, before.isOpen]
    | false =>
      rw [afterRead_false, processResponse]
      simp only [afterDelivery, delivered_response, quiet rfl]
  rw [step more, ended]
  refine ⟨before.isOpen, before.results, before.operation, ?_, rfl, ?_⟩
  · simp only [afterDelivery, NewsReader.delivered, before.operation, if_true]
    exact stored
  · rw [afterDelivery_callbacks, calledBefore, delivered]

theorem Received.readTexts {received : Text} {session : Session Unit}
    (isLine : ∀ line ∈ lines ++ [terminatorLine], IsLine line) (unfinished : terminatorLine ∉ lines)
    (before : Received earlier (crlf.render (lines ++ [terminatorLine])) received session)
    {reads : List (Text × Bool)} (framed : Framed received reads)
    (part : received ++ textOf reads <+: crlf.render (lines ++ [terminatorLine])) :
    ∀ front, front <+: reads →
      Received earlier (crlf.render (lines ++ [terminatorLine])) (received ++ textOf front)
        (session.readTexts front) := by
  -- besides being framed, the reads that are left must bring no more than the block
  let block := crlf.render (lines ++ [terminatorLine])
  let admits (received : Text) (reads : List (Text × Bool)) : Prop :=
    Framed received reads ∧ received ++ textOf reads <+: block
  have step : ∀ received session text more reads, admits received ((text, more) :: reads) →
      Received earlier block received session →
      Received earlier block (received ++ text) (session.readStep .silent more (.ofText text)) ∧
        admits (received ++ text) reads := by
    intro received session text more reads admitted before
    obtain ⟨⟨⟨broken, quiet⟩, later⟩, part⟩ := admitted
    rw [textOf_cons, ← List.append_assoc] at part
    exact ⟨before.readStep isLine unfinished ((List.prefix_append _ _).trans part) broken quiet, later, part⟩
  exact @readTexts_invariant _ admits step _ _ before _ ⟨framed, part⟩

/-- After every read the reader holds all text received so far, and it calls the delegate once, with
    the read that completes the dot's line. -/
theorem article_framed (asciiDecode : Bytes → Option Text) (session : Session Unit)
    (ready : Accumulated session.reader []) (lines : List Text) (isLine : ∀ line ∈ lines, IsLine line)
    (unfinished : terminatorLine ∉ lines) (events : List (List Text))
    (whole : events.flatten.flatten = crlf.render (lines ++ [terminatorLine]))
    (framed : Framed [] (markedEvents events)) :
    (∀ reads, reads <+: markedEvents events →
      (session.readTexts reads).reader.article ++ (session.readTexts reads).reader.response = textOf reads ∧
      (session.readTexts reads).callbacks =
        session.callbacks ++ if textOf reads = crlf.render (lines ++ [terminatorLine]) then
          [.article (crlf.render (lines ++ [terminatorLine])), .notification .done] else []) ∧
    (session.receive .silent (events.map (·.map fun text => Read.ofBytes asciiDecode (utf8 text)))).callbacks =
      session.callbacks ++ [.article (crlf.render (lines ++ [terminatorLine])), .notification .done] := by
  have blockLines : ∀ line ∈ lines ++ [terminatorLine], IsLine line := by
    intro line member
    cases List.mem_append.mp member with
    | inl inLines => exact isLine line inLines
    | inr isTerminator => exact List.mem_singleton.mp isTerminator ▸ terminatorLine_isLine
  have start : Received session.callbacks (crlf.render (lines ++ [terminatorLine])) [] session := by
    refine ⟨ready.isOpen, ready.results, ready.operation, ready.article, ready.response, ?_⟩
    rw [if_neg (by simp [Delimiter.render, Delimiter.symbols]), List.append_nil]
  have text : textOf (markedEvents events) = crlf.render (lines ++ [terminatorLine]) := by
    rw [textOf, List.flatMap_def, markedEvents_map_fst, whole]
  have states := start.readTexts blockLines unfinished framed (text ▸ List.prefix_refl _)
  refine ⟨fun reads inside => ?_, ?_⟩
  · have state := states reads inside
    refine ⟨?_, state.called⟩
    rw [state.article, state.response]
    exact crlf.render_completeLines_append (textOf reads)
  · have final := (states _ (List.prefix_refl _)).called
    rw [List.nil_append, if_pos text] at final
    rw [receive_texts, final]

/-- An article with a blank line, cut inside lines and between CR and LF. -/
def cutArticle : List (List Text) :=
  [["220 7\r\nSubj".toList], ["ect: a\r\n\r".toList, "\nbody\r\n.\r".toList], ["\n".toList]]

theorem article_framed_cut_article :
    (awaitingArticle.receive .silent
        (cutArticle.map (·.map fun text => Read.ofBytes (fun _ => none) (utf8 text)))).callbacks =
      [.article "220 7\r\nSubject: a\r\n\r\nbody\r\n.\r\n".toList, .notification .done] :=
  (article_framed (fun _ => none) awaitingArticle ⟨rfl, rfl, rfl, rfl, rfl⟩
    ["220 7".toList, "Subject: a".toList, [], "body".toList] (by decide) (by decide) cutArticle
    (by decide) (by decide)).2

end EasyNews.Verified.ArticleFraming
