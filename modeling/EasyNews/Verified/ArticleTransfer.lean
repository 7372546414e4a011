import EasyNews.ArticleViews
import EasyNews.ListeningRuns
import EasyNews.ReaderCommands
import EasyNews.Rfc3977

/-! # An article as it reaches the delegate

The reply to ARTICLE, read in pieces that end at line ends, is handed to the delegate once, when
its last line is there, and as it was sent: with its status line, its dot and its stuffed dots. This
text the command's view displays and pipes to `uudecode`.
-/

namespace EasyNews.Verified.ArticleTransfer

open Delimited Session

/-- ARTICLE has been sent, and the lines `done` of the reply have arrived. -/
structure Accumulated (reader : NewsReader) (done : List Text) : Prop where
  isOpen : reader.isOpen = true
  results : reader.resultsComing = true
  operation : reader.currentOperation = some .article
  article : reader.article = crlf.render done
  response : reader.response = []

/-- Reads that end at line ends: each read is some lines of the reply. -/
structure LineCut (lines : List Text) where
  events : List (List (List Text))
  joined : events.flatten.flatten = lines
  nonempty : ∀ read ∈ events.flatten, read ≠ []

def lineRead (read : List Text) : Read := .ofText (crlf.render read)

def LineCut.reads (asciiDecode : Bytes → Option Text) {lines : List Text} (cut : LineCut lines) :
    List (List Read) :=
  cut.events.map (·.map fun read => Read.ofBytes asciiDecode (utf8 (crlf.render read)))

/-- The lines of a text between its first line and its last. -/
def bodyLines (text : Text) : List Text := (crlf.pieces text).tail.dropLast.dropLast

theorem bodyLines_render (first last : Text) (lines : List Text)
    (isLine : ∀ line ∈ first :: lines ++ [last], IsLine line) :
    bodyLines (crlf.render (first :: lines ++ [last])) = lines := by
  have cut := crlf.pieces_render_append (fun line member => (isLine line member).unbroken) []
  rw [List.append_nil] at cut
  rw [bodyLines, cut]
  simp [Delimiter.pieces]

/-- The callbacks of one read, `lines` being all lines arrived with it. -/
def arrival (lines : List Text) : List Callback :=
  if (lines.filter (· ≠ [])).getLast? = some terminatorLine then
    [.article (crlf.render lines), .notification .done]
  else []

theorem render_concat (lines : List Text) (last : Text) :
    crlf.render (lines ++ [last]) = crlf.render lines ++ last ++ crlf.symbols := by
  rw [crlf.render_append, crlf.render_cons, crlf.render_nil, List.append_nil, List.append_assoc]

theorem Accumulated.readStep {session : Session Unit} {done : List Text}
    (accumulated : Accumulated session.reader done) {read : List Text} (nonempty : read ≠ [])
    (isLine : ∀ line ∈ done ++ read, IsLine line) (more : Bool) :
    Accumulated (session.readStep .silent more (.ofText (crlf.render read))).reader (done ++ read) ∧
      (session.readStep .silent more (lineRead read)).callbacks =
        session.callbacks ++ arrival (done ++ read) := by
  obtain ⟨lines, last, rfl⟩ := List.eq_nil_or_concat read |>.resolve_left nonempty
  have text : crlf.render (lines.concat last) = (crlf.render lines ++ last) ++ crlf.symbols := by
    rw [List.concat_eq_append, render_concat]
  have stored : session.reader.article ++ (crlf.render lines ++ last) ++ crlf.symbols =
      crlf.render (done ++ lines.concat last) := by
    rw [accumulated.article, List.concat_eq_append, crlf.render_append, render_concat]
    simp only [List.append_assoc]
  have step := readStep_silent_lineEnd more accumulated.isOpen accumulated.results
    (crlf.render lines ++ last) (crlf.render (lines.concat last)) (by rw [accumulated.response, text]; rfl)
  -- the whole article is split again at every read
  have cut : split (crlf.render (done ++ lines.concat last)) =
      (done ++ lines.concat last).filter (· ≠ []) :=
    crlf.fields_render fun line member => (isLine line member).unbroken
  rw [lineRead, Read.ofText, step]
  refine ⟨⟨accumulated.isOpen, accumulated.results, accumulated.operation, ?_, rfl⟩, ?_⟩
  · simp only [afterDelivery, NewsReader.delivered, accumulated.operation, if_true]
    exact stored
  · simp only [callbacks, afterDelivery, deliveries, accumulated.operation, stored, cut, arrival,
      List.filterMap_append, List.filterMap_cons]
    split <;> simp

theorem Accumulated.readSteps {session : Session Unit} {done : List Text}
    (accumulated : Accumulated session.reader done) (reads : List (List Text × Bool))
    (nonempty : ∀ read ∈ reads.map Prod.fst, read ≠ [])
    (isLine : ∀ line ∈ done ++ (reads.map Prod.fst).flatten, IsLine line)
    (unfinished : terminatorLine ∉ done ++ (reads.map Prod.fst).flatten) :
    Accumulated
        (session.readSteps .silent (reads.map (Prod.map lineRead id))).reader
        (done ++ (reads.map Prod.fst).flatten) ∧
      (session.readSteps .silent
        (reads.map (Prod.map lineRead id))).callbacks =
          session.callbacks := by
  induction reads generalizing session done with
  | nil => simpa using accumulated
  | cons head reads inductionHypothesis =>
    obtain ⟨read, more⟩ := head
    simp only [List.map_cons, List.flatten_cons, ← List.append_assoc] at isLine unfinished nonempty ⊢
    obtain ⟨later, called⟩ := accumulated.readStep (nonempty read List.mem_cons_self)
      (fun line member => isLine line (List.mem_append_left _ member)) more
    have quiet : arrival (done ++ read) = [] := by
      rw [arrival, if_neg]
      intro last
      have member := List.mem_filter.mp (List.mem_of_getLast? last)
      exact unfinished (List.mem_append_left _ member.1)
    rw [quiet, List.append_nil] at called
    rw [Prod.map_apply, id, readSteps_cons, ← called]
    exact inductionHypothesis later (fun other member => nonempty other (List.mem_cons_of_mem _ member))
      isLine unfinished

theorem LineCut.receive_eq (asciiDecode : Bytes → Option Text) {lines : List Text} (cut : LineCut lines)
    (session : Session Unit) :
    session.receive .silent (cut.reads asciiDecode) =
      session.readSteps .silent ((markedEvents cut.events).map (Prod.map lineRead id)) := by
  have decoded : cut.reads asciiDecode = cut.events.map (·.map lineRead) := by
    simp [reads, lineRead]
  rw [receive_eq_readSteps, decoded, markedEvents_map]

theorem finished_callbacks {session : Session Unit} (ready : Accumulated session.reader [])
    {front : List Text} (isLine : ∀ line ∈ front ++ [terminatorLine], IsLine line)
    (unfinished : terminatorLine ∉ front) (reads : List (List Text × Bool))
    (joined : (reads.map Prod.fst).flatten = front ++ [terminatorLine])
    (nonempty : ∀ read ∈ reads.map Prod.fst, read ≠ []) :
    (session.readSteps .silent (reads.map (Prod.map lineRead id))).callbacks =
      session.callbacks ++ [.article (crlf.render (front ++ [terminatorLine])), .notification .done] := by
  rcases List.eq_nil_or_concat reads with rfl | ⟨earlier, ⟨last, more⟩, rfl⟩
  · simp at joined
  · simp only [List.concat_eq_append, List.map_append, List.map_cons, List.map_nil, List.flatten_append,
      List.flatten_cons, List.flatten_nil, List.append_nil, List.mem_append] at joined nonempty ⊢
    rcases List.eq_nil_or_concat last with rfl | ⟨lines, line, rfl⟩
    · exact absurd rfl (nonempty [] (.inr List.mem_cons_self))
    · rw [List.concat_eq_append, ← List.append_assoc] at joined
      obtain ⟨before, same⟩ := List.append_inj' joined rfl
      obtain ⟨waiting, quiet⟩ := ready.readSteps earlier (fun read member => nonempty read (.inl member))
        (fun other member => isLine other (List.mem_append_left _ (by
          rw [← before]; exact List.mem_append_left _ (by simpa using member))))
        (fun member => unfinished (by rw [← before]; exact List.mem_append_left _ (by simpa using member)))
      rw [List.nil_append] at waiting
      have complete : (earlier.map Prod.fst).flatten ++ lines.concat line = front ++ [terminatorLine] := by
        rw [List.concat_eq_append, ← List.append_assoc, joined]
      obtain ⟨-, called⟩ := waiting.readStep (nonempty _ (.inr List.mem_cons_self))
        (by rw [complete]; exact isLine) more
      rw [readSteps_append, Prod.map_apply, id, readSteps_cons, readSteps_nil, called, quiet, complete, arrival,
        if_pos]
      rw [List.filter_append]
      simp [terminatorLine]

/-- What `onNewArticle` makes of the text it is given: the view displays it, and nothing else is piped. -/
def Passes (text : Text) : Prop :=
  ∀ (view : ArticleView) (machine : Machine) (effects : List ViewEffect),
    view.onNewArticle machine text = some effects →
      (∀ string, effects.foldl ViewEffect.draw string = text) ∧
        ∀ filename encodedFile, .uudecode filename encodedFile ∈ effects → encodedFile = text

theorem passes (text : Text) : Passes text := fun view _ _ shown =>
  ⟨view.draw_onNewArticle shown, fun _ _ piped => view.piped_onNewArticle shown piped⟩

theorem bodyLines_multiLine {status : Text} {lines : List Text} (isStatus : IsLine status)
    (areLines : ∀ line ∈ lines, IsLine line) :
    (∀ line ∈ multiLine ("220 ".toList ++ status) lines, IsLine line) ∧
      bodyLines (crlf.render (multiLine ("220 ".toList ++ status) lines)) = lines.map dotStuff := by
  have blockLines : ∀ line ∈ multiLine ("220 ".toList ++ status) lines, IsLine line := by
    simp only [multiLine, List.mem_append, List.mem_cons, List.mem_map, List.not_mem_nil, or_false]
    rintro line ((rfl | ⟨original, member, rfl⟩) | rfl)
    · exact IsLine.append (by decide) isStatus
    · exact (areLines original member).dotStuff
    · exact terminatorLine_isLine
  exact ⟨blockLines, bodyLines_render _ _ (lines.map dotStuff) blockLines⟩

theorem map_dotStuff_eq_iff (lines : List Text) :
    lines.map dotStuff = lines ↔ ∀ line ∈ lines, line.head? ≠ some '.' := by
  simp only [← dotStuff_eq_self_iff]
  constructor
  · intro same line member
    exact List.map_inj_left.mp (same.trans (List.map_id lines).symm) line member
  · intro same
    exact (List.map_congr_left same).trans (List.map_id lines)

/-- Whatever lines the article has and however the reads group them, the delegate gets the reply
    as it was sent, which the command gives to its view, and the view displays and pipes; its body is the
    article itself exactly if no line begins with a dot. -/
theorem article_arrives_as_sent (asciiDecode : Bytes → Option Text) (session : Session Unit)
    (ready : Accumulated session.reader []) (status : Text) (lines : List Text)
    (isStatus : IsLine status) (areLines : ∀ line ∈ lines, IsLine line)
    (cut : LineCut (multiLine ("220 ".toList ++ status) lines)) :
    let text := crlf.render (multiLine ("220 ".toList ++ status) lines)
    (session.receive .silent (cut.reads asciiDecode)).callbacks =
        session.callbacks ++ [.article text, .notification .done] ∧
      (∀ command : ArticleCommand, (command.newsReaderArticle text).articles = command.articles ++ [text]) ∧
      Passes text ∧
      bodyLines text = lines.map dotStuff ∧
      (bodyLines text = lines ↔ ∀ line ∈ lines, line.head? ≠ some '.') := by
  obtain ⟨blockLines, body⟩ := bodyLines_multiLine isStatus areLines
  refine ⟨?_, fun _ => rfl, passes _, body, ?_⟩
  · rw [cut.receive_eq]
    apply finished_callbacks ready blockLines
    · -- a stuffed line is not the dot alone
      simp only [List.mem_cons, List.mem_map, not_or, not_exists, not_and]
      exact ⟨by simp [terminatorLine], fun line _ => dotStuff_ne_terminatorLine line⟩
    · rw [markedEvents_map_fst]
      exact cut.joined
    · rw [markedEvents_map_fst]
      exact cut.nonempty
  · rw [body]
    exact map_dotStuff_eq_iff lines

def wholeReply (lines : List Text) (nonempty : lines ≠ []) : LineCut lines where
  events := [[lines]]
  joined := by simp
  nonempty := by simpa using nonempty

theorem article_arrives_as_sent_two_lines :
    ((awaitingArticle.receive .silent
      ((wholeReply (multiLine "220 7 article".toList ["M.".toList, ".".toList]) (by decide)).reads
        fun _ => none)).callbacks =
      [.article "220 7 article\r\nM.\r\n..\r\n.\r\n".toList, .notification .done]) :=
  (article_arrives_as_sent (fun _ => none) awaitingArticle
    ⟨rfl, rfl, rfl, rfl, rfl⟩ "7 article".toList ["M.".toList, ".".toList] (by decide) (by decide)
    (wholeReply _ (by decide))).1

/-- A uuencoded line that begins with a dot reaches the delegate with two. -/
theorem stuffed_line_is_kept :
    ¬ ∀ (session : Session Unit), Accumulated session.reader [] → ∀ (status : Text) (lines : List Text),
      IsLine status → (∀ line ∈ lines, IsLine line) →
      ∀ cut : LineCut (multiLine ("220 ".toList ++ status) lines),
        ∃ article, Callback.article article ∈ (session.receive .silent (cut.reads fun _ => none)).callbacks ∧
          bodyLines article = lines := by
  intro claim
  obtain ⟨article, called, body⟩ := claim awaitingArticle ⟨rfl, rfl, rfl, rfl, rfl⟩ "7".toList
    [".FO".toList] (by decide) (by decide) (wholeReply _ (by decide))
  have sent : (awaitingArticle.receive .silent
      ((wholeReply (multiLine ("220 ".toList ++ "7".toList) [".FO".toList]) (by decide)).reads
        fun _ => none)).callbacks =
      [.article "220 7\r\n..FO\r\n.\r\n".toList, .notification .done] := by decide
  rw [sent] at called
  simp only [List.mem_cons, Callback.article.injEq, List.not_mem_nil, or_false, reduceCtorEq] at called
  subst called
  revert body
  decide

end EasyNews.Verified.ArticleTransfer
