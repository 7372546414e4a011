import EasyNews.ListeningRuns
import EasyNews.ReaderCommands

/-! # Line reassembly

One call of `readAvailableBytes` while the ids of a group come. Every iteration of its loop cuts the
carried text and the new read at the last CR LF, processes the lines in front and carries the rest, so
as long as every read completes a line, the lines of all iterations are the lines of the whole text.
-/

namespace EasyNews.Verified.LineReassembly

open Session

/-! ## The iterations of the loop -/

/-- What one iteration reads, the `lines` it processes and the `response` it leaves. -/
structure Iteration where
  output : Text
  lines : List Text
  rest : Text
deriving DecidableEq, Repr

/-- The iterations over some reads. -/
def iterations (response : Text) : List Text → List Iteration
  | [] => []
  | output :: reads =>
    let (front, rest) := splitter (response ++ output)
    { output, lines := split front, rest } :: iterations rest reads

/-- With each read the carried text contains a CR LF. -/
def CompletesLines (response : Text) : List Text → Prop
  | [] => True
  | output :: reads =>
    ¬ crlf.Unbroken (response ++ output) ∧ CompletesLines (splitter (response ++ output)).2 reads

instance decideCompletesLines : ∀ (response : Text) (reads : List Text), Decidable (CompletesLines response reads)
  | _, [] => isTrue trivial
  | response, output :: reads =>
    have := decideCompletesLines (splitter (response ++ output)).2 reads
    inferInstanceAs (Decidable (_ ∧ _))

theorem splitter_of_broken {text : Text} (broken : ¬ crlf.Unbroken text) :
    ∃ front, splitter text = (front, crlf.tail text) ∧ split front = (crlf.completeLines text).filter (· ≠ []) := by
  obtain ⟨front, found, -, lines⟩ := crlf.exists_lastRange broken
  refine ⟨front, ?_, ?_⟩
  · rw [splitter, rangeOf, found]
  · rw [split, Delimited.Delimiter.fields, lines]

/-- The lines of all iterations are the complete lines of the whole text. -/
theorem iterations_lines {response : Text} (unbroken : crlf.Unbroken response) {reads : List Text}
    (completes : CompletesLines response reads) :
    (iterations response reads).flatMap (·.lines) =
      (crlf.completeLines (response ++ reads.flatten)).filter (· ≠ []) := by
  induction reads generalizing response with
  | nil =>
    rw [List.flatten_nil, List.append_nil, crlf.completeLines_of_unbroken unbroken]
    rfl
  | cons output reads inductionHypothesis =>
    obtain ⟨broken, later⟩ := completes
    obtain ⟨front, cut, lines⟩ := splitter_of_broken broken
    rw [cut] at later
    rw [iterations, cut, List.flatMap_cons, inductionHypothesis (crlf.unbroken_tail _) later]
    rw [List.flatten_cons, ← List.append_assoc, crlf.completeLines_append (response ++ output), List.filter_append]
    rw [lines]

theorem CompletesLines.front {response : Text} {taken later : List Text}
    (completes : CompletesLines response (taken ++ later)) : CompletesLines response taken := by
  induction taken generalizing response with
  | nil => trivial
  | cons output taken inductionHypothesis => exact ⟨completes.1, inductionHypothesis completes.2⟩

/-! ## The loop -/

/-- What the loop tells the delegate while ids come. -/
inductive Heard : Callback → Prop where
  | articles (articleIds : List Text) : Heard (.articles articleIds)
  | done : Heard (.notification .done)

/-- The reader goes on with what it was doing, unless it is closed. -/
structure GoesOn (reader later : NewsReader) : Prop where
  results : later.resultsComing = reader.resultsComing
  operation : later.currentOperation = reader.currentOperation
  response : later.response = reader.response

theorem GoesOn.refl (reader : NewsReader) : GoesOn reader reader := ⟨rfl, rfl, rfl⟩

theorem GoesOn.trans {reader middle later : NewsReader} (first : GoesOn reader middle) (second : GoesOn middle later) :
    GoesOn reader later :=
  ⟨second.results.trans first.results, second.operation.trans first.operation, second.response.trans first.response⟩

/-- A delegate that starts nothing else on its reader while ids come, and is called by the reader only. -/
structure ListingDelegate (δ : Type) extends NewsReaderDelegate δ where
  goesOn : ∀ callback session, Heard callback → GoesOn session.reader (handle callback session).reader
  sameCallbacks : ∀ callback session, Heard callback → (handle callback session).callbacks = session.callbacks

/-- A delegate that only listens. -/
def ListingDelegate.silent : ListingDelegate Unit where
  toNewsReaderDelegate := .silent
  goesOn _ session _ := GoesOn.refl session.reader
  sameCallbacks _ _ _ := rfl

/-- The command that asks for the ids stores them, and closes its reader when the list is done. -/
def ListingDelegate.ofCommand : ListingDelegate ListGroupGetArticleIdsCommand where
  toNewsReaderDelegate := ListGroupGetArticleIdsCommand.newsReaderDelegate
  goesOn callback session heard := by
    cases heard with
    | articles articleIds => exact GoesOn.refl session.reader
    | done =>
      show GoesOn session.reader session.close.reader
      rw [close_reader]
      exact ⟨rfl, rfl, rfl⟩
  sameCallbacks callback session heard := by
    cases heard with
    | articles articleIds => rfl
    | done =>
      show session.close.callbacks = session.callbacks
      exact callbacks_of_trace (close_trace session)

variable {δ : Type} (delegate : ListingDelegate δ)

/-- One iteration: the read is taken, the rest carried, and the lines processed. -/
def process (session : Session δ) (iteration : Iteration) : Session δ :=
  ((session.log (.received (some iteration.output))).setResponse iteration.rest).deliverArticleIds
    delegate.toNewsReaderDelegate iteration.lines

theorem deliverArticleIds_goesOn (lines : List Text) (session : Session δ) :
    GoesOn session.reader (session.deliverArticleIds delegate.toNewsReaderDelegate lines).reader := by
  have called : ∀ callback (session : Session δ), Heard callback →
      GoesOn session.reader (session.call delegate.toNewsReaderDelegate callback).reader :=
    fun callback session heard => delegate.goesOn callback (session.log (.called callback)) heard
  unfold deliverArticleIds
  split
  · have delivered := called _ session (.articles (lines.filter (· ≠ terminatorLine)))
    dsimp only
    split
    · exact delivered.trans (called _ _ .done)
    · exact delivered
  · exact GoesOn.refl session.reader

/-- What the delegate is told of the lines of an iteration: the ids among them, and Done behind a line of a dot. -/
def announced (iteration : Iteration) : List Callback :=
  .articles (iteration.lines.filter (· ≠ terminatorLine)) ::
    if terminatorLine ∈ iteration.lines then [.notification .done] else []

/-- The ids in a call of the delegate. -/
def idsOf : Callback → List Text
  | .articles articleIds => articleIds
  | _ => []

theorem idsOf_announced (iteration : Iteration) :
    (announced iteration).flatMap idsOf = iteration.lines.filter (· ≠ terminatorLine) := by
  rw [announced, List.flatMap_cons]
  split <;> simp [idsOf]

theorem done_mem_announced (iteration : Iteration) :
    .notification .done ∈ announced iteration ↔ terminatorLine ∈ iteration.lines := by
  unfold announced
  split <;> simp [*]

/-- The ids of a group are coming. -/
structure Listing (reader : NewsReader) : Prop where
  results : reader.resultsComing = true
  operation : reader.currentOperation = some .listGroupArticles

theorem GoesOn.listing {reader later : NewsReader} (goesOn : GoesOn reader later) (listing : Listing reader) :
    Listing later :=
  ⟨goesOn.results.trans listing.results, goesOn.operation.trans listing.operation⟩

theorem process_callbacks {session : Session δ} (listing : Listing session.reader) (iteration : Iteration) :
    (process delegate session iteration).callbacks = session.callbacks ++ announced iteration := by
  have called : ∀ callback (session : Session δ), Heard callback →
      (session.call delegate.toNewsReaderDelegate callback).callbacks = session.callbacks ++ [callback] := by
    intro callback session heard
    rw [call, delegate.sameCallbacks _ _ heard, callbacks_log_called]
  have taken : ((session.log (.received (some iteration.output))).setResponse iteration.rest).callbacks =
      session.callbacks := callbacks_log_received _ session
  have expects : ((session.log (.received (some iteration.output))).setResponse iteration.rest).expects
      .listGroupArticles = true := by
    rw [Session.expects]
    exact Bool.and_eq_true_iff.mpr ⟨listing.results, decide_eq_true listing.operation⟩
  rw [process, deliverArticleIds, if_pos expects, announced]
  dsimp only
  split
  · rw [called _ _ .done, called _ _ (.articles _), taken, List.append_assoc]
    rfl
  · rw [called _ _ (.articles _), taken]

theorem foldl_process_callbacks (iterations : List Iteration) {session : Session δ} (listing : Listing session.reader) :
    (iterations.foldl (process delegate) session).callbacks = session.callbacks ++ iterations.flatMap announced := by
  induction iterations generalizing session with
  | nil => exact (List.append_nil _).symm
  | cons iteration iterations inductionHypothesis =>
    have goesOn : GoesOn _ (process delegate session iteration).reader :=
      deliverArticleIds_goesOn delegate iteration.lines _
    rw [List.foldl_cons, inductionHypothesis (goesOn.listing ⟨listing.results, listing.operation⟩),
      process_callbacks delegate listing, List.append_assoc, List.flatMap_cons]

theorem deliver_listing {session : Session δ} (listing : Listing session.reader) {front rest : Text}
    (cut : splitter session.reader.response = (front, rest)) :
    session.deliver delegate.toNewsReaderDelegate =
      (session.setResponse rest).deliverArticleIds delegate.toNewsReaderDelegate (split front) := by
  have operation := listing.operation
  have later := (deliverArticleIds_goesOn delegate (split front) (session.setResponse rest)).operation
  unfold deliver
  rw [cut]
  dsimp only
  rw [deliverArticle_other _ _ (by simp [operation]), deliverHeader_other _ _ (by simp [operation])]
  rw [deliverGroups_other _ _ (by simp [later, operation])]

theorem readLoop_stop {session : Session δ} (isOpen : session.reader.isOpen = true) {stop : List Read}
    (stops : ∀ read ∈ stop.head?, read = .failed) :
    session.readLoop delegate.toNewsReaderDelegate stop = (session.reader.response, stop.tail, session) := by
  cases stop with
  | nil => rfl
  | cons read stop =>
    rw [stops read rfl, readLoop, if_pos isOpen]
    rfl

theorem readLoop_closed {session : Session δ} (closed : session.reader.isOpen = false) (reads : List Read) :
    session.readLoop delegate.toNewsReaderDelegate reads = (session.reader.response, [], session) := by
  cases reads with
  | nil => rfl
  | cons read reads => simp [readLoop, closed]

section Listing

variable {session : Session δ} (listing : Listing session.reader) {output front rest : Text}
  (cut : splitter (session.reader.response ++ output) = (front, rest))
include listing cut

theorem readLoop_cons (isOpen : session.reader.isOpen = true) (reads : List Read) :
    session.readLoop delegate.toNewsReaderDelegate (.ofText output :: reads) =
      (process delegate session ⟨output, split front, rest⟩).readLoop delegate.toNewsReaderDelegate reads := by
  rw [Read.ofText, readLoop, if_pos isOpen]
  dsimp only
  rw [if_pos (by exact listing.results), log_reader]
  rw [@deliver_listing δ delegate
    ((session.log (.received (some output))).setResponse (session.reader.response ++ output))
    ⟨listing.results, listing.operation⟩ _ _ cut]
  rfl

omit cut in
theorem listing_process (lines : List Text) (rest : Text) :
    Listing (process delegate session ⟨output, lines, rest⟩).reader ∧
      (process delegate session ⟨output, lines, rest⟩).reader.response = rest := by
  have goesOn : GoesOn _ (process delegate session ⟨output, lines, rest⟩).reader :=
    deliverArticleIds_goesOn delegate lines _
  exact ⟨goesOn.listing ⟨listing.results, listing.operation⟩, goesOn.response⟩

end Listing

/-- The loop runs through its iterations until the stream has no more reads, a read fails or the delegate
    closes the reader. -/
theorem readLoop_listing {session : Session δ} (isOpen : session.reader.isOpen = true)
    (listing : Listing session.reader) (unbroken : crlf.Unbroken session.reader.response) {reads : List Text}
    (completes : CompletesLines session.reader.response reads) {stop : List Read}
    (stops : ∀ read ∈ stop.head?, read = .failed) :
    let call := session.readLoop delegate.toNewsReaderDelegate (reads.map .ofText ++ stop)
    ∃ taken later, reads = taken ++ later ∧ (later ≠ [] → call.2.2.reader.isOpen = false) ∧
      call.2.2 = (iterations session.reader.response taken).foldl (process delegate) session ∧
      call.2.2.reader.response = crlf.tail (session.reader.response ++ taken.flatten) := by
  induction reads generalizing session with
  | nil =>
    refine ⟨[], [], rfl, fun more => absurd rfl more, ?_⟩
    rw [List.map_nil, List.nil_append, readLoop_stop delegate isOpen stops, List.flatten_nil, List.append_nil,
      crlf.tail_of_unbroken unbroken]
    exact ⟨rfl, rfl⟩
  | cons output reads inductionHypothesis =>
    obtain ⟨broken, completesLater⟩ := completes
    obtain ⟨front, cut, -⟩ := splitter_of_broken broken
    let next := process delegate session ⟨output, split front, crlf.tail (session.reader.response ++ output)⟩
    have step := readLoop_cons delegate listing cut isOpen (reads.map .ofText ++ stop)
    obtain ⟨nextListing, carried⟩ : Listing next.reader ∧ next.reader.response = _ :=
      listing_process delegate listing (split front) _
    rw [List.map_cons, List.cons_append, step]
    cases stays : next.reader.isOpen with
    | true =>
      rw [cut] at completesLater
      obtain ⟨taken, later, rfl, closed, same, response⟩ := inductionHypothesis stays nextListing
        (carried ▸ crlf.unbroken_tail _) (carried ▸ completesLater)
      refine ⟨output :: taken, later, rfl, closed, ?_, ?_⟩
      · rw [same, iterations, cut, carried]
        rfl
      · rw [response, carried, List.flatten_cons, ← List.append_assoc, ← crlf.tail_append]
    | false =>
      -- the delegate has closed the reader in this iteration
      have ends := readLoop_closed delegate stays (reads.map .ofText ++ stop)
      refine ⟨[output], reads, rfl, fun _ => ?_, ?_, ?_⟩
      · rw [ends]
        exact stays
      · rw [ends, iterations, cut]
        rfl
      · rw [ends, carried, List.flatten_singleton]

/-- What the iterations announce: all of the lines but the dots are ids, and Done follows every dot. -/
theorem iterations_announced {response : Text} (unbroken : crlf.Unbroken response) {reads : List Text}
    (completes : CompletesLines response reads) :
    let lines := (crlf.completeLines (response ++ reads.flatten)).filter (· ≠ [])
    ((iterations response reads).flatMap announced).flatMap idsOf = lines.filter (· ≠ terminatorLine) ∧
      (.notification .done ∈ (iterations response reads).flatMap announced ↔ terminatorLine ∈ lines) := by
  dsimp only
  rw [← iterations_lines unbroken completes]
  constructor
  · rw [List.flatMap_assoc, List.filter_flatMap]
    exact congrArg (List.flatMap · _) (funext idsOf_announced)
  · simp only [List.mem_flatMap, done_mem_announced]

def awaitingLines : Session Unit where
  reader :=
    { username := "ann".toList
      password := "secret".toList
      isOpen := true
      connected := true
      resultsComing := true
      currentOperation := some .listGroupArticles
      response := "1".toList }
  delegate := ()

end EasyNews.Verified.LineReassembly
