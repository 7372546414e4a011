import EasyNews.ListeningRuns
import EasyNews.ReaderCommands

/-! # Runs of a command that collects

The listing commands and `ArticleCommand` put what they are given into their own state, and close the
reader when they are done. Up to then their reader does what it does for a delegate that only listens.
-/

namespace EasyNews

def Callback.isNotification : Callback → Bool
  | .notification _ => true
  | _ => false

namespace Session

variable {δ : Type}

/-- Data changes the command's own state, and Done closes the reader. -/
structure Collects (delegate : NewsReaderDelegate δ) (take : Callback → δ → δ) : Prop where
  takes : ∀ callback session, callback.isNotification = false →
    delegate.handle callback session = { session with delegate := take callback session.delegate }
  passes : ∀ notification command, take (.notification notification) command = command
  closes : ∀ session, delegate.handle (.notification .done) session = session.close

theorem listGroups_collects : Collects ListGroupsCommand.newsReaderDelegate fun callback command =>
    match callback with
    | .groups groups => command.newsReaderGroups groups
    | _ => command where
  takes callback session isData := by
    cases callback with
    | notification notification => cases isData
    | groups groups => rfl
    | _ => rfl
  passes _ _ := rfl
  closes _ := rfl

theorem listGroupArticles_collects : Collects ListGroupGetArticleIdsCommand.newsReaderDelegate fun callback command =>
    match callback with
    | .articles articleIds => command.newsReaderArticles articleIds
    | _ => command where
  takes callback session isData := by
    cases callback with
    | notification notification => cases isData
    | articles articleIds => rfl
    | _ => rfl
  passes _ _ := rfl
  closes _ := rfl

theorem article_collects : Collects ArticleCommand.newsReaderDelegate fun callback command =>
    match callback with
    | .article article => command.newsReaderArticle article
    | _ => command where
  takes callback session isData := by
    cases callback with
    | notification notification => cases isData
    | article article => rfl
    | _ => rfl
  passes _ _ := rfl
  closes _ := rfl

/-! ## Callbacks -/

/-- The session after some callbacks, Done perhaps among them. -/
def taken (take : Callback → δ → δ) (callbacks : List Callback) (session : Session δ) : Session δ where
  reader :=
    { session.reader with
      isOpen := session.reader.isOpen && !decide (.notification .done ∈ callbacks) }
  delegate := callbacks.foldl (fun command callback => take callback command) session.delegate
  trace := session.trace ++ callbacks.map .called

section Taken

variable {take : Callback → δ → δ} {delegate : NewsReaderDelegate δ}

@[simp] theorem taken_nil (session : Session δ) : session.taken take [] = session := by
  simp [taken]

theorem taken_taken (front back : List Callback) (session : Session δ) :
    (session.taken take front).taken take back = session.taken take (front ++ back) := by
  simp [taken, Bool.and_assoc, Bool.not_or]

@[simp] theorem taken_commands (callbacks : List Callback) (session : Session δ) :
    (session.taken take callbacks).commands = session.commands := by
  simp [commands, taken]

theorem close_eq (session : Session δ) :
    session.close = { session with reader := { session.reader with isOpen := false } } := by
  have reader := close_reader session
  have delegate := close_delegate session
  have trace := close_trace session
  generalize session.close = closed at reader delegate trace
  cases closed
  cases reader
  cases delegate
  cases trace
  rfl

variable (collects : Collects delegate take)

include collects

theorem Collects.call_data {callback : Callback} (isData : callback.isNotification = false) (session : Session δ) :
    session.call delegate callback = session.taken take [callback] := by
  rw [call, collects.takes _ _ isData]
  cases callback with
  | notification notification => cases isData
  | _ => simp [taken, log]

theorem Collects.call_done (session : Session δ) :
    session.call delegate (.notification .done) = session.taken take [.notification .done] := by
  rw [call, collects.closes, close_eq]
  simp [taken, log, collects.passes]

/-- The loop's work on the text in front of the last CR LF, in any operation but the one that asks for headers. -/
theorem Collects.deliver {session : Session δ} (results : session.reader.resultsComing = true)
    (noHeader : session.reader.currentOperation ≠ some .articleHeader) {front rest : Text}
    (cut : splitter session.reader.response = (front, rest)) :
    session.deliver delegate =
      { session with reader := session.reader.delivered front rest }.taken take (deliveries session.reader front) := by
  unfold Session.deliver
  rw [cut]
  dsimp only
  cases operation : session.reader.currentOperation with
  | none =>
    rw [deliverArticle_other _ _ (by simp [operation]), deliverHeader_other _ _ (by simp [operation]),
      deliverArticleIds_other _ _ (by simp [operation]), deliverGroups_other _ _ (by simp [operation])]
    simp [deliveries, operation, NewsReader.delivered, setResponse, update]
  | some current =>
    cases current with
    | article =>
      have expected : (session.setResponse rest).expects .article = true :=
        expects_of_eq (by exact results) (by exact operation)
      have branch : (session.setResponse rest).deliverArticle delegate front =
          { session with reader := session.reader.delivered front rest }.taken take
            (deliveries session.reader front) := by
        rw [deliverArticle, if_pos expected]
        simp only [deliveries, operation, update_reader, setResponse_reader]
        split
        · rw [collects.call_done, collects.call_data rfl, taken_taken]
          simp [NewsReader.delivered, operation, setResponse, update]
        · simp [NewsReader.delivered, operation, setResponse, update]
      rw [branch, deliverHeader_other _ _ (by simp [taken, operation]),
        deliverArticleIds_other _ _ (by simp [taken, operation]), deliverGroups_other _ _ (by simp [taken, operation])]
    | articleHeader => exact absurd operation noHeader
    | listGroupArticles =>
      rw [deliverArticle_other _ _ (by simp [operation]), deliverHeader_other _ _ (by simp [operation])]
      have expected : (session.setResponse rest).expects .listGroupArticles = true :=
        expects_of_eq (by exact results) (by exact operation)
      have branch : (session.setResponse rest).deliverArticleIds delegate (split front) =
          { session with reader := session.reader.delivered front rest }.taken take
            (deliveries session.reader front) := by
        rw [deliverArticleIds, if_pos expected]
        simp only [deliveries, operation]
        split
        · rw [collects.call_done, collects.call_data rfl, taken_taken]
          simp [NewsReader.delivered, operation, setResponse, update]
        · rw [collects.call_data rfl]
          simp [NewsReader.delivered, operation, setResponse, update]
      rw [branch, deliverGroups_other _ _ (by simp [taken, operation])]
    | listGroups =>
      rw [deliverArticle_other _ _ (by simp [operation]), deliverHeader_other _ _ (by simp [operation]),
        deliverArticleIds_other _ _ (by simp [operation])]
      have expected : (session.setResponse rest).expects .listGroups = true :=
        expects_of_eq (by exact results) (by exact operation)
      simp only [deliverGroups, expected, true_and, deliveries, operation]
      by_cases empty : split front = []
      · simp [empty, NewsReader.delivered, operation, setResponse, update]
      · simp only [ne_eq, empty, not_false_eq_true, if_true, if_false]
        split
        · rw [collects.call_done, collects.call_data rfl, taken_taken]
          simp [NewsReader.delivered, operation, setResponse, update]
        · rw [collects.call_data rfl]
          simp [NewsReader.delivered, operation, setResponse, update]

/-- The session when the lines in front of the last CR LF have been handed over. -/
def handed (take : Callback → δ → δ) (session : Session δ) (text front rest : Text) : Session δ :=
  { session.log (.received (some text)) with reader := session.reader.delivered front rest }.taken take
    (deliveries session.reader front)

omit collects in
theorem handed_commands (session : Session δ) (text front rest : Text) :
    (session.handed take text front rest).commands = session.commands := by
  rw [handed, taken_commands]
  exact commands_log_received (some text) session

theorem Collects.readStep {session : Session δ} (isOpen : session.reader.isOpen = true)
    (results : session.reader.resultsComing = true)
    (noHeader : session.reader.currentOperation ≠ some .articleHeader) {received : Text}
    (carried : session.reader.response = crlf.tail received) {text : Text}
    (broken : ¬ crlf.Unbroken (crlf.tail received ++ text)) :
    ∃ front, crlf.pieces front = crlf.completeLines (crlf.tail received ++ text) ∧
      ∀ more, session.readStep delegate more (.ofText text) =
        (session.handed take text front (crlf.tail (received ++ text))).afterRead delegate more := by
  obtain ⟨front, found, -, lines⟩ := crlf.exists_lastRange broken
  have cut : splitter (session.reader.response ++ text) = (front, crlf.tail (received ++ text)) := by
    rw [carried, splitter, rangeOf, found, crlf.tail_append received text]
  let arrived := (session.log (.received (some text))).setResponse (session.reader.response ++ text)
  have delivered : arrived.deliver delegate = session.handed take text front (crlf.tail (received ++ text)) :=
    collects.deliver (by exact results) (by exact noHeader) cut
  refine ⟨front, lines, fun more => ?_⟩
  rw [Read.ofText, Session.readStep, if_pos isOpen]
  dsimp only
  rw [if_pos (by exact results), log_reader, delivered]

omit collects in
theorem afterRead_of_quiet {session : Session δ} {more : Bool}
    (quiet : (more && session.reader.isOpen) = false → recognise session.reader.response = none) :
    session.afterRead delegate more = session := by
  unfold afterRead
  split
  · rfl
  · next ends => rw [processResponse, quiet (by simpa using ends)]

end Taken

end Session

end EasyNews
