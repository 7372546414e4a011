import EasyNews.NewsReader

/-! # Runs of the reader, read by read

`Session.receive` follows the source: events, each a loop. The proofs take one read at a time.
`readStep` is the work a read causes, the end of its event included, and `receive_eq_readSteps` says
that a run is the fold of `readStep` over its reads, each marked with whether the stream still
has bytes behind it.
-/

namespace EasyNews

theorem commandLine_ne_nil (verb : String) (argument : Text) : commandLine verb argument ≠ [] := by
  simp [commandLine]

namespace Session

variable {δ : Type}

/-! ## What the small operations touch -/

@[simp] theorem log_reader (effect : Effect) (session : Session δ) :
    (session.log effect).reader = session.reader := rfl

@[simp] theorem log_delegate (effect : Effect) (session : Session δ) :
    (session.log effect).delegate = session.delegate := rfl

@[simp] theorem log_trace (effect : Effect) (session : Session δ) :
    (session.log effect).trace = session.trace ++ [effect] := rfl

@[simp] theorem update_reader (change : NewsReader → NewsReader) (session : Session δ) :
    (session.update change).reader = change session.reader := rfl

@[simp] theorem update_delegate (change : NewsReader → NewsReader) (session : Session δ) :
    (session.update change).delegate = session.delegate := rfl

@[simp] theorem update_trace (change : NewsReader → NewsReader) (session : Session δ) :
    (session.update change).trace = session.trace := rfl

@[simp] theorem setResponse_reader (response : Text) (session : Session δ) :
    (session.setResponse response).reader = { session.reader with response } := rfl

@[simp] theorem setResponse_delegate (response : Text) (session : Session δ) :
    (session.setResponse response).delegate = session.delegate := rfl

@[simp] theorem setResponse_trace (response : Text) (session : Session δ) :
    (session.setResponse response).trace = session.trace := rfl

@[simp] theorem send_reader (command : Text) (session : Session δ) :
    (session.send command).reader = session.reader := by
  unfold send
  split <;> rfl

@[simp] theorem send_delegate (command : Text) (session : Session δ) :
    (session.send command).delegate = session.delegate := by
  unfold send
  split <;> rfl

theorem send_of_open {command : Text} {session : Session δ} (isOpen : session.reader.isOpen = true)
    (nonempty : command ≠ []) : session.send command = session.log (.sent command) := by
  simp [send, isOpen, nonempty]

@[simp] theorem close_reader (session : Session δ) :
    session.close.reader = { session.reader with isOpen := false } := by
  unfold close
  split
  · rfl
  · rename_i closed
    simp only [Bool.not_eq_true] at closed
    rw [← closed]

@[simp] theorem close_delegate (session : Session δ) :
    session.close.delegate = session.delegate := by
  unfold close
  split <;> rfl

@[simp] theorem close_trace (session : Session δ) : session.close.trace = session.trace := by
  unfold close
  split <;> rfl

theorem articleHeader_isOpen (groupName articleId : Text) (session : Session δ) :
    (session.articleHeader groupName articleId).reader.isOpen = session.reader.isOpen := by
  unfold articleHeader
  dsimp only
  split
  · split <;> simp
  · rfl

theorem article_isOpen (groupName articleId : Text) (session : Session δ) :
    (session.article groupName articleId).reader.isOpen = session.reader.isOpen := by
  unfold article
  dsimp only
  split
  · split <;> simp
  · rfl

theorem listArticles_isOpen (groupName : Text) (session : Session δ) :
    (session.listArticles groupName).reader.isOpen = session.reader.isOpen := by
  unfold listArticles
  split
  · simp
  · rfl

theorem listGroups_isOpen (session : Session δ) :
    session.listGroups.reader.isOpen = session.reader.isOpen := by
  unfold listGroups
  split
  · simp
  · rfl

@[simp] theorem call_silent (callback : Callback) (session : Session Unit) :
    session.call .silent callback = session.log (.called callback) := rfl

/-! ## What the trace gains -/

@[simp] theorem callbacks_log_called (callback : Callback) (session : Session δ) :
    (session.log (.called callback)).callbacks = session.callbacks ++ [callback] := by
  simp [callbacks]

@[simp] theorem callbacks_log_sent (command : Text) (session : Session δ) :
    (session.log (.sent command)).callbacks = session.callbacks := by
  simp [callbacks]

@[simp] theorem callbacks_log_received (output : Option Text) (session : Session δ) :
    (session.log (.received output)).callbacks = session.callbacks := by
  simp [callbacks]

@[simp] theorem commands_log_called (callback : Callback) (session : Session δ) :
    (session.log (.called callback)).commands = session.commands := by
  simp [commands]

@[simp] theorem commands_log_sent (command : Text) (session : Session δ) :
    (session.log (.sent command)).commands = session.commands ++ [command] := by
  simp [commands]

@[simp] theorem commands_log_received (output : Option Text) (session : Session δ) :
    (session.log (.received output)).commands = session.commands := by
  simp [commands]

/-- Callbacks and commands are read off the trace alone. -/
theorem callbacks_of_trace {ε : Type} {session : Session δ} {other : Session ε}
    (same : session.trace = other.trace) : session.callbacks = other.callbacks := by
  rw [callbacks, same, callbacks]

theorem commands_of_trace {ε : Type} {session : Session δ} {other : Session ε}
    (same : session.trace = other.trace) : session.commands = other.commands := by
  rw [commands, same, commands]

theorem send_trace (command : Text) (session : Session δ) : session.trace <+: (session.send command).trace := by
  unfold send
  split
  · exact List.prefix_append _ _
  · exact List.prefix_refl _

/-- A callback the read loop makes: a header is delivered under the id of the reader, to the operation that
    asks for headers. -/
def Delivers (session : Session δ) : Callback → Prop
  | .articleHeader articleId _ =>
    articleId = session.reader.articleId ∧ session.reader.currentOperation = some .articleHeader
  | _ => True

/-- What the delegate's reactions to the callbacks the loop makes and the loop's assignments keep, the loop's
    work keeps. Only an article is collected. -/
theorem deliver_invariant_of_delivers {delegate : NewsReaderDelegate δ} {invariant : Session δ → Prop}
    (called : ∀ callback session, session.Delivers callback → invariant session →
      invariant (session.call delegate callback))
    (carried : ∀ response session, invariant session → invariant (session.setResponse response))
    (collected : ∀ article session, session.reader.currentOperation = some .article → invariant session →
      invariant (session.update fun reader => { reader with article }))
    (session : Session δ) (holds : invariant session) : invariant (session.deliver delegate) := by
  have operationOf : ∀ (operation : Operation) (session : Session δ), session.expects operation = true →
      session.reader.currentOperation = some operation := by
    intro operation session expected
    simp only [expects, Bool.and_eq_true, decide_eq_true_eq] at expected
    exact expected.2
  have article : ∀ (front : Text) (session : Session δ), invariant session →
      invariant (session.deliverArticle delegate front) := by
    intro front session holds
    unfold deliverArticle
    split
    · rename_i expected
      have taken := collected (session.reader.article ++ front ++ crlf.symbols) session
        (operationOf _ _ expected) holds
      dsimp only
      split
      · exact called _ _ trivial (called _ _ trivial taken)
      · exact taken
    · exact holds
  have header : ∀ (front : Text) (session : Session δ), invariant session →
      invariant (session.deliverHeader delegate front) := by
    intro front session holds
    unfold deliverHeader
    split
    · rename_i expected
      exact called _ _ trivial (called _ _ ⟨rfl, operationOf _ _ expected⟩ holds)
    · exact holds
  have articleIds : ∀ (lines : List Text) (session : Session δ), invariant session →
      invariant (session.deliverArticleIds delegate lines) := by
    intro lines session holds
    unfold deliverArticleIds
    split
    · dsimp only
      split
      · exact called _ _ trivial (called _ _ trivial holds)
      · exact called _ _ trivial holds
    · exact holds
  have groups : ∀ (lines : List Text) (session : Session δ), invariant session →
      invariant (session.deliverGroups delegate lines) := by
    intro lines session holds
    unfold deliverGroups
    split
    · dsimp only
      split
      · exact called _ _ trivial (called _ _ trivial holds)
      · exact called _ _ trivial holds
    · exact holds
  unfold deliver
  generalize splitter session.reader.response = cut
  obtain ⟨front, rest⟩ := cut
  have kept := carried rest session holds
  exact groups _ _ (articleIds _ _ (header front _ (article front _ kept)))

theorem deliver_invariant {delegate : NewsReaderDelegate δ} {invariant : Session δ → Prop}
    (called : ∀ callback session, invariant session → invariant (session.call delegate callback))
    (carried : ∀ response session, invariant session → invariant (session.setResponse response))
    (collected : ∀ article session, session.reader.currentOperation = some .article → invariant session →
      invariant (session.update fun reader => { reader with article }))
    (session : Session δ) (holds : invariant session) : invariant (session.deliver delegate) :=
  deliver_invariant_of_delivers (fun callback session _ => called callback session) carried collected session holds

section Adding

/-! A delegate that only adds to the trace leaves runs that only add to the trace. -/

variable {delegate : NewsReaderDelegate δ}

theorem call_trace (adds : ∀ callback session, session.trace <+: (delegate.handle callback session).trace)
    (callback : Callback) (session : Session δ) :
    session.trace <+: (session.call delegate callback).trace := by
  have later := adds callback (session.log (.called callback))
  exact (List.prefix_append _ _).trans later

theorem processResponse_trace
    (adds : ∀ callback session, session.trace <+: (delegate.handle callback session).trace)
    (buffer : Text) (session : Session δ) :
    session.trace <+: (session.processResponse delegate buffer).trace := by
  unfold processResponse
  split
  · exact send_trace _ _
  · exact call_trace adds _ _
  · exact send_trace _ _
  · exact call_trace adds _ (session.update fun reader => { reader with connected := true })
  · exact call_trace adds _ _
  · have closed := call_trace adds (.notification .disconnected) session.close
    rw [close_trace] at closed
    exact closed
  · exact List.prefix_refl _
  · exact List.prefix_refl _
  · exact send_trace _ (session.update fun reader => { reader with resultsComing := true, response := [] })
  · exact List.prefix_refl _

theorem deliver_trace
    (adds : ∀ callback session, session.trace <+: (delegate.handle callback session).trace)
    (session : Session δ) : session.trace <+: (session.deliver delegate).trace :=
  @deliver_invariant δ delegate (fun later => session.trace <+: later.trace)
    (fun callback later grown => grown.trans (call_trace adds callback later))
    (fun _ _ grown => grown) (fun _ _ _ grown => grown) session (List.prefix_refl _)

end Adding

/-! ## A closed reader stays closed -/

variable (delegate : NewsReaderDelegate δ)

theorem call_closed (callback : Callback) {session : Session δ} (closed : session.reader.isOpen = false) :
    (session.call delegate callback).reader.isOpen = false :=
  delegate.staysClosed callback _ closed

theorem processResponse_closed (buffer : Text) {session : Session δ}
    (closed : session.reader.isOpen = false) :
    (session.processResponse delegate buffer).reader.isOpen = false := by
  unfold processResponse
  split
  · simpa using closed
  · exact call_closed delegate _ closed
  · simpa using closed
  · exact call_closed delegate _ closed
  · exact call_closed delegate _ closed
  · exact call_closed delegate _ (by simp)
  · exact closed
  · exact closed
  · simpa using closed
  · exact closed

/-! ## One read at a time -/

/-- Back at the loop's condition: the event ends unless the stream has `more` bytes. -/
def afterRead (more : Bool) (session : Session δ) : Session δ :=
  if more && session.reader.isOpen then session
  else session.processResponse delegate session.reader.response

@[simp] theorem afterRead_false (session : Session δ) :
    session.afterRead delegate false = session.processResponse delegate session.reader.response := rfl

/-- The work of one read, the end of its event included. -/
def readStep (more : Bool) (read : Read) (session : Session δ) : Session δ :=
  if session.reader.isOpen then
    match read with
    | .failed => session.processResponse delegate session.reader.response
    | .bytes none =>
      let session := session.log (.received none)
      if more then session else session.processResponse delegate session.reader.response
    | .bytes (some output) =>
      let session := session.log (.received (some output))
      let session := session.setResponse (session.reader.response ++ output)
      if session.reader.resultsComing then
        (session.deliver delegate).afterRead delegate more
      else session.processResponse delegate session.reader.response
  else session

/-- Before results come, a read ends the loop, and all text so far is taken for a status line. -/
theorem readStep_control (more : Bool) {session : Session δ} (isOpen : session.reader.isOpen = true)
    (results : session.reader.resultsComing = false) (output : Text) :
    session.readStep delegate more (.bytes (some output)) =
      ((session.log (.received (some output))).setResponse (session.reader.response ++ output)).processResponse
        delegate (session.reader.response ++ output) := by
  simp [readStep, isOpen, results]

theorem afterRead_trace {delegate : NewsReaderDelegate δ}
    (adds : ∀ callback session, session.trace <+: (delegate.handle callback session).trace)
    (more : Bool) (session : Session δ) : session.trace <+: (session.afterRead delegate more).trace := by
  unfold afterRead
  split
  · exact List.prefix_refl _
  · exact processResponse_trace adds _ _

theorem readStep_invariant {delegate : NewsReaderDelegate δ} {invariant : Session δ → Prop}
    (received : ∀ output session, invariant session → invariant (session.log (.received output)))
    (carried : ∀ response session, invariant session → invariant (session.setResponse response))
    (delivered : ∀ session, invariant session → invariant (session.deliver delegate))
    (ended : ∀ session, invariant session →
      invariant (session.processResponse delegate session.reader.response))
    (more : Bool) (read : Read) (session : Session δ) (holds : invariant session) :
    invariant (session.readStep delegate more read) := by
  unfold readStep
  split
  · cases read with
    | failed => exact ended session holds
    | bytes output =>
      cases output with
      | none =>
        have logged := received none session holds
        dsimp only
        split
        · exact logged
        · exact ended _ logged
      | some output =>
        have logged := received (some output) session holds
        have taken := carried (session.reader.response ++ output) _ logged
        dsimp only
        split
        · -- the event ends here unless the stream has more
          have handedOver := delivered _ taken
          unfold afterRead
          split
          · exact handedOver
          · exact ended _ handedOver
        · exact ended _ taken
  · exact holds

theorem readStep_trace {delegate : NewsReaderDelegate δ}
    (adds : ∀ callback session, session.trace <+: (delegate.handle callback session).trace)
    (more : Bool) (read : Read) (session : Session δ) :
    session.trace <+: (session.readStep delegate more read).trace :=
  @readStep_invariant δ delegate (fun later => session.trace <+: later.trace)
    (fun _ _ grown => grown.trans (List.prefix_append _ _)) (fun _ _ grown => grown)
    (fun later grown => grown.trans (deliver_trace adds later))
    (fun later grown => grown.trans (processResponse_trace adds _ later)) more read session (List.prefix_refl _)

/-- The reads of one event, each with whether another read of the event stands behind it. -/
def marked {α : Type} : List α → List (α × Bool)
  | [] => []
  | read :: reads => (read, !reads.isEmpty) :: marked reads

@[simp] theorem marked_map_fst {α : Type} (reads : List α) : (marked reads).map Prod.fst = reads := by
  induction reads with
  | nil => rfl
  | cons read reads inductionHypothesis => simp [marked, inductionHypothesis]

theorem marked_map {α β : Type} (convert : α → β) (reads : List α) :
    marked (reads.map convert) = (marked reads).map (Prod.map convert id) := by
  induction reads with
  | nil => rfl
  | cons read reads inductionHypothesis => simp [marked, inductionHypothesis]

def markedEvents {α : Type} (events : List (List α)) : List (α × Bool) := events.flatMap marked

@[simp] theorem markedEvents_map_fst {α : Type} (events : List (List α)) :
    (markedEvents events).map Prod.fst = events.flatten := by
  induction events with
  | nil => rfl
  | cons reads events inductionHypothesis =>
    simp only [markedEvents, List.flatMap_cons, List.map_append, List.flatten_cons] at inductionHypothesis ⊢
    rw [inductionHypothesis, marked_map_fst]

theorem markedEvents_map {α β : Type} (convert : α → β) (events : List (List α)) :
    markedEvents (events.map (·.map convert)) = (markedEvents events).map (Prod.map convert id) := by
  induction events with
  | nil => rfl
  | cons reads events inductionHypothesis =>
    simp only [markedEvents, List.map_cons, List.flatMap_cons, List.map_append] at inductionHypothesis ⊢
    rw [inductionHypothesis, marked_map]

def readSteps (reads : List (Read × Bool)) (session : Session δ) : Session δ :=
  reads.foldl (fun session (read, more) => session.readStep delegate more read) session

@[simp] theorem readSteps_nil (session : Session δ) : session.readSteps delegate [] = session := rfl

@[simp] theorem readSteps_cons (read : Read) (more : Bool) (reads : List (Read × Bool))
    (session : Session δ) :
    session.readSteps delegate ((read, more) :: reads) =
      (session.readStep delegate more read).readSteps delegate reads := rfl

theorem readSteps_append (front back : List (Read × Bool)) (session : Session δ) :
    session.readSteps delegate (front ++ back) =
      (session.readSteps delegate front).readSteps delegate back := by
  simp [readSteps]

theorem readSteps_trace {delegate : NewsReaderDelegate δ}
    (adds : ∀ callback session, session.trace <+: (delegate.handle callback session).trace)
    (reads : List (Read × Bool)) (session : Session δ) :
    session.trace <+: (session.readSteps delegate reads).trace := by
  induction reads generalizing session with
  | nil => exact List.prefix_refl _
  | cons read reads inductionHypothesis =>
    exact (readStep_trace adds read.2 read.1 session).trans (inductionHypothesis _)

theorem readStep_closed (more : Bool) (read : Read) {session : Session δ}
    (closed : session.reader.isOpen = false) : session.readStep delegate more read = session := by
  simp [readStep, closed]

theorem readSteps_closed (reads : List (Read × Bool)) {session : Session δ}
    (closed : session.reader.isOpen = false) : session.readSteps delegate reads = session := by
  induction reads with
  | nil => rfl
  | cons read reads inductionHypothesis =>
    rw [readSteps_cons, readStep_closed delegate _ _ closed, inductionHypothesis]

/-- The loop reads at least once, and what it leaves behind is read after the handler is done. -/
theorem readLoop_steps (read : Read) (reads : List Read) (session : Session δ)
    (isOpen : session.reader.isOpen = true) :
    (session.readLoop delegate (read :: reads)).2.1.length ≤ reads.length ∧
      session.readSteps delegate (marked (read :: reads)) =
        ((session.readLoop delegate (read :: reads)).2.2.processResponse delegate
          (session.readLoop delegate (read :: reads)).1).readSteps delegate
            (marked (session.readLoop delegate (read :: reads)).2.1) := by
  induction reads generalizing read session with
  | nil =>
    cases read with
    | failed => simp [readLoop, marked, readStep, isOpen]
    | bytes output =>
      cases output with
      | none => simp [readLoop, marked, readStep, isOpen]
      | some output =>
        cases results : session.reader.resultsComing <;>
          simp [readLoop, marked, readStep, isOpen, results]
  | cons next reads inductionHypothesis =>
    cases read with
    | failed => simp [readLoop, marked, readStep, isOpen]
    | bytes output =>
      cases output with
      | none =>
        -- bytes that cannot be decoded are skipped, and the loop goes on
        obtain ⟨shorter, steps⟩ := inductionHypothesis next (session.log (.received none)) isOpen
        have loop : session.readLoop delegate (.bytes none :: next :: reads) =
            (session.log (.received none)).readLoop delegate (next :: reads) := by
          rw [readLoop]
          simp [isOpen]
        have head : session.readSteps delegate (marked (.bytes none :: next :: reads)) =
            (session.log (.received none)).readSteps delegate (marked (next :: reads)) := by
          rw [marked, readSteps_cons]
          simp [readStep, isOpen]
        rw [loop, head]
        exact ⟨by simp only [List.length_cons]; omega, steps⟩
      | some output =>
        cases results : session.reader.resultsComing with
        | false => simp [readLoop, marked, readStep, isOpen, results]
        | true =>
          -- with results the loop goes on with the next read
          let received := session.log (.received (some output))
          let delivered := (received.setResponse (received.reader.response ++ output)).deliver delegate
          have loop : session.readLoop delegate (.bytes (some output) :: next :: reads) =
              delivered.readLoop delegate (next :: reads) := by
            rw [readLoop]
            simp [isOpen, results, delivered, received]
          have steps : session.readSteps delegate (marked (.bytes (some output) :: next :: reads)) =
              (delivered.afterRead delegate true).readSteps delegate (marked (next :: reads)) := by
            rw [marked, readSteps_cons]
            simp [readStep, isOpen, results, delivered, received]
          rw [loop, steps]
          by_cases stillOpen : delivered.reader.isOpen = true
          · obtain ⟨shorter, later⟩ := inductionHypothesis next delivered stillOpen
            rw [afterRead, Bool.true_and, if_pos stillOpen]
            exact ⟨by simp only [List.length_cons]; omega, later⟩
          · -- the delegate closed the reader: the loop ends, and the other reads are lost
            have closed : delivered.reader.isOpen = false := by simpa using stillOpen
            rw [afterRead, Bool.true_and, if_neg stillOpen,
              readSteps_closed delegate _ (processResponse_closed delegate _ closed)]
            simp [readLoop, closed, marked]

theorem raise_eq_readSteps (fuel : Nat) (reads : List Read) (session : Session δ)
    (enough : reads.length ≤ fuel) :
    session.raise delegate fuel reads = session.readSteps delegate (marked reads) := by
  induction fuel generalizing reads session with
  | zero =>
    have empty : reads = [] := List.eq_nil_of_length_eq_zero (by omega)
    subst empty
    rfl
  | succ fuel inductionHypothesis =>
    cases reads with
    | nil => rfl
    | cons read reads =>
      rw [raise]
      by_cases isOpen : session.reader.isOpen = true
      · obtain ⟨shorter, steps⟩ := readLoop_steps delegate read reads session isOpen
        rw [steps, handleBytes, readAvailableBytes, if_pos isOpen]
        -- the handler reads at least once, so the fuel lasts
        apply inductionHypothesis
        simp only [List.length_cons] at enough
        exact le_trans shorter (by omega)
      · have closed : session.reader.isOpen = false := by simpa using isOpen
        rw [readSteps_closed delegate _ closed, handleBytes, readAvailableBytes, if_neg isOpen]
        change session.raise delegate fuel [] = session
        -- a closed stream raises no further event
        rw [inductionHypothesis [] _ (by simp)]
        rfl

theorem hasBytesAvailable_eq_readSteps (reads : List Read) (session : Session δ) :
    session.hasBytesAvailable delegate reads = session.readSteps delegate (marked reads) :=
  raise_eq_readSteps delegate _ _ _ (Nat.le_refl _)

/-- A run is the fold of `readStep` over its reads. -/
theorem receive_eq_readSteps (events : List (List Read)) (session : Session δ) :
    session.receive delegate events = session.readSteps delegate (markedEvents events) := by
  induction events generalizing session with
  | nil => rfl
  | cons reads events inductionHypothesis =>
    rw [markedEvents, List.flatMap_cons, readSteps_append, ← hasBytesAvailable_eq_readSteps]
    exact inductionHypothesis _

end Session

end EasyNews
