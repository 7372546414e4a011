import EasyNews.ReaderRuns

/-! # Runs with a delegate that only listens

With `NewsReaderDelegate.silent` a read changes the reader in a way that depends on the reader
alone, and the trace grows by the callbacks `deliveries` lists.
-/

namespace EasyNews

/-- The callbacks the read loop makes for the text in front of the last CR LF. -/
def deliveries (reader : NewsReader) (front : Text) : List Callback :=
  match reader.currentOperation with
  | some .article =>
    let article := reader.article ++ front ++ crlf.symbols
    if (split article).getLast? = some terminatorLine then [.article article, .notification .done] else []
  | some .articleHeader =>
    [.articleHeader reader.articleId (headerOfText front), .notification .nextArticle]
  | some .listGroupArticles =>
    .articles ((split front).filter (· ≠ terminatorLine)) ::
      if terminatorLine ∈ split front then [.notification .done] else []
  | some .listGroups =>
    if split front = [] then []
    else .groups (((split front).filter (· ≠ terminatorLine)).filterMap groupOfLine) ::
      if terminatorLine ∈ split front then [.notification .done] else []
  | none => []

/-- The reader after the loop's work on `front`, `rest` being carried over. -/
def NewsReader.delivered (reader : NewsReader) (front rest : Text) : NewsReader :=
  { reader with
    response := rest
    article :=
      if reader.currentOperation = some .article then reader.article ++ front ++ crlf.symbols
      else reader.article }

section Fields

variable (reader : NewsReader) (front rest : Text)

@[simp] theorem delivered_isOpen : (reader.delivered front rest).isOpen = reader.isOpen := rfl
@[simp] theorem delivered_connected : (reader.delivered front rest).connected = reader.connected := rfl
@[simp] theorem delivered_resultsComing :
    (reader.delivered front rest).resultsComing = reader.resultsComing := rfl
@[simp] theorem delivered_currentOperation :
    (reader.delivered front rest).currentOperation = reader.currentOperation := rfl
@[simp] theorem delivered_currentGroupCommand :
    (reader.delivered front rest).currentGroupCommand = reader.currentGroupCommand := rfl
@[simp] theorem delivered_articleId : (reader.delivered front rest).articleId = reader.articleId := rfl
@[simp] theorem delivered_response : (reader.delivered front rest).response = rest := rfl

theorem delivered_of_ne_article (other : reader.currentOperation ≠ some .article) :
    reader.delivered front reader.response = reader := by
  simp [NewsReader.delivered, other]

end Fields

namespace Session

section OtherOperation

variable {δ : Type} (delegate : NewsReaderDelegate δ) {session : Session δ} {operation : Operation}

theorem expects_of_ne (other : session.reader.currentOperation ≠ some operation) :
    session.expects operation = false := by
  simp [expects, other]

theorem expects_of_eq (results : session.reader.resultsComing = true)
    (same : session.reader.currentOperation = some operation) : session.expects operation = true := by
  simp [expects, results, same]

theorem deliverArticle_other (front : Text)
    (other : session.reader.currentOperation ≠ some .article) :
    session.deliverArticle delegate front = session := by
  simp [deliverArticle, expects_of_ne other]

theorem deliverHeader_other (front : Text)
    (other : session.reader.currentOperation ≠ some .articleHeader) :
    session.deliverHeader delegate front = session := by
  simp [deliverHeader, expects_of_ne other]

theorem deliverArticleIds_other (lines : List Text)
    (other : session.reader.currentOperation ≠ some .listGroupArticles) :
    session.deliverArticleIds delegate lines = session := by
  simp [deliverArticleIds, expects_of_ne other]

theorem deliverGroups_other (lines : List Text)
    (other : session.reader.currentOperation ≠ some .listGroups) :
    session.deliverGroups delegate lines = session := by
  simp [deliverGroups, expects_of_ne other]

end OtherOperation

/-- The four branches of the loop, `session` having the carried text already. -/
theorem branches_silent (session : Session Unit) (results : session.reader.resultsComing = true)
    (front : Text) :
    (((session.deliverArticle .silent front).deliverHeader .silent front).deliverArticleIds .silent
        (split front)).deliverGroups .silent (split front) =
      { reader := session.reader.delivered front session.reader.response
        delegate := ()
        trace := session.trace ++ (deliveries session.reader front).map .called } := by
  cases operation : session.reader.currentOperation with
  | none =>
    rw [deliverArticle_other _ _ (by simp [operation]), deliverHeader_other _ _ (by simp [operation]),
      deliverArticleIds_other _ _ (by simp [operation]), deliverGroups_other _ _ (by simp [operation])]
    rw [delivered_of_ne_article _ _ (by simp [operation])]
    simp [deliveries, operation]
  | some current =>
    cases current with
    | article =>
      -- at most one of the four branches runs, and only this one collects
      have branch : session.deliverArticle .silent front =
          { reader := session.reader.delivered front session.reader.response
            delegate := ()
            trace := session.trace ++ (deliveries session.reader front).map .called } := by
        simp only [deliverArticle, expects_of_eq results operation, if_true, update_reader, deliveries,
          operation]
        split
        · simp [NewsReader.delivered, operation, log, update]
        · simp [NewsReader.delivered, operation, update]
      rw [branch, deliverHeader_other _ _ (by simp [operation]),
        deliverArticleIds_other _ _ (by simp [operation]), deliverGroups_other _ _ (by simp [operation])]
    | articleHeader =>
      rw [deliverArticle_other _ _ (by simp [operation])]
      have branch : session.deliverHeader .silent front =
          { reader := session.reader.delivered front session.reader.response
            delegate := ()
            trace := session.trace ++ (deliveries session.reader front).map .called } := by
        rw [delivered_of_ne_article _ _ (by simp [operation])]
        simp [deliverHeader, expects_of_eq results operation, deliveries, operation, parseHeader, log]
      rw [branch, deliverArticleIds_other _ _ (by simp [operation]),
        deliverGroups_other _ _ (by simp [operation])]
    | listGroupArticles =>
      rw [deliverArticle_other _ _ (by simp [operation]), deliverHeader_other _ _ (by simp [operation])]
      have branch : session.deliverArticleIds .silent (split front) =
          { reader := session.reader.delivered front session.reader.response
            delegate := ()
            trace := session.trace ++ (deliveries session.reader front).map .called } := by
        rw [delivered_of_ne_article _ _ (by simp [operation])]
        simp only [deliverArticleIds, expects_of_eq results operation, if_true, deliveries, operation]
        split <;> simp [log]
      rw [branch, deliverGroups_other _ _ (by simp [operation])]
    | listGroups =>
      rw [deliverArticle_other _ _ (by simp [operation]), deliverHeader_other _ _ (by simp [operation]),
        deliverArticleIds_other _ _ (by simp [operation])]
      rw [delivered_of_ne_article _ _ (by simp [operation])]
      simp only [deliverGroups, expects_of_eq results operation, true_and, deliveries, operation]
      by_cases empty : split front = []
      · simp [empty]
      · simp only [ne_eq, empty, not_false_eq_true, if_true, if_false]
        split <;> simp [log]

theorem deliver_silent (session : Session Unit) (results : session.reader.resultsComing = true)
    {front rest : Text} (cut : splitter session.reader.response = (front, rest)) :
    session.deliver .silent =
      { reader := session.reader.delivered front rest
        delegate := ()
        trace := session.trace ++ (deliveries session.reader front).map .called } := by
  unfold deliver
  rw [cut]
  exact branches_silent (session.setResponse rest) results front

@[simp] theorem recognise_nil : recognise [] = none := by decide

@[simp] theorem processResponse_nil {δ : Type} (delegate : NewsReaderDelegate δ) (session : Session δ) :
    session.processResponse delegate [] = session := by
  simp [processResponse]

/-- The session after a read that leaves `rest` behind the last CR LF, before the event ends. -/
def afterDelivery (session : Session Unit) (output front rest : Text) : Session Unit where
  reader := session.reader.delivered front rest
  delegate := ()
  trace := session.trace ++ .received (some output) :: (deliveries session.reader front).map .called

theorem afterDelivery_callbacks (session : Session Unit) (output front rest : Text) :
    (session.afterDelivery output front rest).callbacks =
      session.callbacks ++ deliveries session.reader front := by
  simp only [Session.callbacks, afterDelivery, List.filterMap_append, List.filterMap_cons]
  congr 1
  induction deliveries session.reader front with
  | nil => rfl
  | cons callback callbacks inductionHypothesis => simp [inductionHypothesis]

theorem afterDelivery_commands (session : Session Unit) (output front rest : Text) :
    (session.afterDelivery output front rest).commands = session.commands := by
  simp only [Session.commands, afterDelivery, List.filterMap_append, List.filterMap_cons]
  induction deliveries session.reader front with
  | nil => simp
  | cons callback callbacks inductionHypothesis => simp

theorem readStep_silent (more : Bool) {session : Session Unit} (isOpen : session.reader.isOpen = true)
    (results : session.reader.resultsComing = true) {output front rest : Text}
    (cut : splitter (session.reader.response ++ output) = (front, rest)) :
    session.readStep .silent more (.bytes (some output)) =
      (session.afterDelivery output front rest).afterRead .silent more := by
  rw [readStep, if_pos isOpen]
  have delivered := deliver_silent
    ((session.log (.received (some output))).setResponse (session.reader.response ++ output)) results cut
  dsimp only
  rw [if_pos (by exact results), log_reader, delivered]
  simp [afterDelivery, NewsReader.delivered, deliveries]

/-- A read that ends at a line end leaves nothing behind, so the end of its event does nothing. -/
theorem readStep_silent_lineEnd (more : Bool) {session : Session Unit}
    (isOpen : session.reader.isOpen = true) (results : session.reader.resultsComing = true)
    (front output : Text) (lineEnd : session.reader.response ++ output = front ++ crlf.symbols) :
    session.readStep .silent more (.bytes (some output)) = session.afterDelivery output front [] := by
  have cut := splitter_append front crlf.unbroken_nil
  rw [List.append_nil, ← lineEnd] at cut
  rw [readStep_silent more isOpen results cut, afterRead]
  split
  · rfl
  · exact processResponse_nil _ _

/-- A read that completes a line: the lines completed with it are handed over, and the text behind
    the last line end is carried on. -/
theorem readStep_silent_tail {session : Session Unit} (isOpen : session.reader.isOpen = true)
    (results : session.reader.resultsComing = true) {received : Text}
    (carried : session.reader.response = crlf.tail received) {text : Text}
    (broken : ¬ crlf.Unbroken (crlf.tail received ++ text)) :
    ∃ front, crlf.pieces front = crlf.completeLines (crlf.tail received ++ text) ∧
      ∀ more, session.readStep .silent more (.ofText text) =
        (session.afterDelivery text front (crlf.tail (received ++ text))).afterRead .silent more := by
  obtain ⟨front, found, -, lines⟩ := crlf.exists_lastRange broken
  have cut : splitter (session.reader.response ++ text) = (front, crlf.tail (received ++ text)) := by
    rw [carried, splitter, rangeOf, found, crlf.tail_append received text]
  exact ⟨front, lines, fun more => readStep_silent more isOpen results cut⟩

end Session

/-- A logged-in reader whose ARTICLE command the server has selected the group for. -/
def awaitingArticle : Session Unit where
  reader :=
    { username := "ann".toList
      password := "secret".toList
      isOpen := true
      connected := true
      resultsComing := true
      currentOperation := some .article
      articleId := "7".toList }
  delegate := ()

end EasyNews
