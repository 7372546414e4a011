import EasyNews.ControlReplies
import EasyNews.HeaderBlocks
import EasyNews.ArticleRecords
import EasyNews.ReaderCommands

/-! # Runs of `ArticleGetMultipleHeadersCommand`

The command is called back from inside the read loop: a header is stored, and the notification
behind it makes the command send the next HEAD, or close.
-/

namespace EasyNews.HeaderRuns

open Session ArticleGetMultipleHeadersCommand

variable (dateFormatter : Text → Text → Option Date)

/-! ## The command's reactions -/

/-- The command's group is in its realm, under this name. -/
structure Serves (command : ArticleGetMultipleHeadersCommand) (name : Text) : Prop where
  found : ∃ group record, command.rbox.realm.findGroupById command.groupId = some group ∧
    command.rbox.realm.groups[group]? = some record ∧ record.name = name

theorem next_of_remaining {session : Session ArticleGetMultipleHeadersCommand} {name : Text}
    (serves : Serves session.delegate name) {articleId : Text} {rest : List Text}
    (remaining : session.delegate.articleIds.drop session.delegate.idx = articleId :: rest) :
    next session =
      { session.articleHeader name articleId with
        delegate := { session.delegate with idx := session.delegate.idx + 1 } } := by
  obtain ⟨group, record, found, atGroup, rfl⟩ := serves.found
  have atIdx : session.delegate.articleIds[session.delegate.idx]? = some articleId := by
    have head := congrArg List.head? remaining
    rwa [List.head?_drop] at head
  simp [next, found, atGroup, atIdx]

theorem next_head {session : Session ArticleGetMultipleHeadersCommand} {name : Text}
    (isOpen : session.reader.isOpen = true) (connected : session.reader.connected = true)
    (results : session.reader.resultsComing = true) (serves : Serves session.delegate name)
    {articleId : Text} {rest : List Text}
    (remaining : session.delegate.articleIds.drop session.delegate.idx = articleId :: rest) :
    next session =
      { reader := { session.reader with articleId }
        delegate := { session.delegate with idx := session.delegate.idx + 1 }
        trace := session.trace ++ [.sent (commandLine "HEAD" articleId)] } := by
  rw [next_of_remaining serves remaining, Session.articleHeader, if_pos connected]
  dsimp only
  rw [if_pos (by exact results), send_of_open (by exact isOpen) (commandLine_ne_nil _ _)]
  rfl

theorem next_group {session : Session ArticleGetMultipleHeadersCommand} {name : Text}
    (isOpen : session.reader.isOpen = true) (connected : session.reader.connected = true)
    (results : session.reader.resultsComing = false) (serves : Serves session.delegate name)
    {articleId : Text} {rest : List Text}
    (remaining : session.delegate.articleIds.drop session.delegate.idx = articleId :: rest) :
    next session =
      { reader :=
          { session.reader with
            articleId
            currentOperation := some .articleHeader
            response := []
            currentGroupCommand := commandLine "HEAD" articleId }
        delegate := { session.delegate with idx := session.delegate.idx + 1 }
        trace := session.trace ++ [.sent (commandLine "GROUP" name)] } := by
  rw [next_of_remaining serves remaining, Session.articleHeader, if_pos connected]
  dsimp only
  rw [if_neg (by simp [results]), send_of_open (by exact isOpen) (commandLine_ne_nil _ _)]
  rfl

theorem next_of_done {session : Session ArticleGetMultipleHeadersCommand} {name : Text}
    (serves : Serves session.delegate name)
    (done : session.delegate.articleIds.drop session.delegate.idx = []) : next session = session.close := by
  obtain ⟨group, record, found, atGroup, rfl⟩ := serves.found
  have atIdx : session.delegate.articleIds[session.delegate.idx]? = none :=
    List.getElem?_eq_none (List.drop_eq_nil_iff.mp done)
  simp [next, found, atGroup, atIdx]

theorem articleHeader_trace {δ : Type} (groupName articleId : Text) (session : Session δ) :
    session.trace <+: (session.articleHeader groupName articleId).trace := by
  unfold articleHeader
  dsimp only
  split
  · split
    · exact send_trace _ (session.update _)
    · exact send_trace _ ((session.update _).update _)
  · exact List.prefix_append _ _

theorem next_trace (session : Session ArticleGetMultipleHeadersCommand) :
    session.trace <+: (next session).trace := by
  unfold next
  dsimp only
  split
  · split
    · exact articleHeader_trace _ _ _
    · rw [close_trace]
  · exact List.prefix_refl _

theorem handle_trace (callback : Callback) (session : Session ArticleGetMultipleHeadersCommand) :
    session.trace <+: ((newsReaderDelegate dateFormatter).handle callback session).trace := by
  change session.trace <+: (handle dateFormatter callback session).trace
  unfold handle
  split
  · exact next_trace session
  · exact next_trace session
  · rw [close_trace]
  · exact List.prefix_refl _
  · exact List.prefix_refl _

theorem articleHeader_currentOperation {δ : Type} (groupName articleId : Text) {session : Session δ}
    (operation : session.reader.currentOperation = some .articleHeader) :
    (session.articleHeader groupName articleId).reader.currentOperation = some .articleHeader := by
  unfold articleHeader
  dsimp only
  split
  · split
    · simpa using operation
    · simp
  · exact operation

theorem next_currentOperation {session : Session ArticleGetMultipleHeadersCommand}
    (operation : session.reader.currentOperation = some .articleHeader) :
    (next session).reader.currentOperation = some .articleHeader := by
  unfold next
  dsimp only
  split
  · split
    · exact articleHeader_currentOperation _ _ operation
    · simpa using operation
  · exact operation

/-- Once results come, the command's reaction leaves the carried text as it is. -/
theorem next_response {session : Session ArticleGetMultipleHeadersCommand}
    (results : session.reader.resultsComing = true) :
    (next session).reader.response = session.reader.response := by
  unfold next
  dsimp only
  split
  · split
    · dsimp only
      rw [Session.articleHeader]
      split
      · dsimp only
        rw [if_pos (by exact results), send_reader]
        rfl
      · rfl
    · simp
  · rfl

/-! ## One read -/

/-- The session when the header of `front` has been stored, before the command goes on. -/
def stored (front rest : Text)
    (session : Session ArticleGetMultipleHeadersCommand) : Session ArticleGetMultipleHeadersCommand where
  reader := { session.reader with response := rest }
  delegate := session.delegate.newsReaderArticleHeader dateFormatter session.reader.articleId (headerOfText front)
  trace := session.trace ++
    [.called (.articleHeader session.reader.articleId (headerOfText front)),
      .called (.notification .nextArticle)]

theorem deliver_header {session : Session ArticleGetMultipleHeadersCommand}
    (results : session.reader.resultsComing = true)
    (operation : session.reader.currentOperation = some .articleHeader) {front rest : Text}
    (cut : splitter session.reader.response = (front, rest)) :
    session.deliver (newsReaderDelegate dateFormatter) = next (stored dateFormatter front rest session) := by
  have parsed : (session.setResponse rest).parseHeader (newsReaderDelegate dateFormatter) front =
      next (stored dateFormatter front rest session) := by
    simp [parseHeader, call, newsReaderDelegate, handle, stored, log]
  have kept : (next (stored dateFormatter front rest session)).reader.currentOperation = some .articleHeader :=
    next_currentOperation operation
  unfold deliver
  rw [cut]
  dsimp only
  rw [deliverArticle_other _ _ (by simp [operation])]
  rw [deliverHeader, expects_of_eq (by exact results) (by exact operation), if_pos rfl, parsed]
  rw [deliverArticleIds_other _ _ (by simp [kept]), deliverGroups_other _ _ (by simp [kept])]

theorem readStep_header (more : Bool) {session : Session ArticleGetMultipleHeadersCommand}
    (isOpen : session.reader.isOpen = true) (results : session.reader.resultsComing = true)
    (operation : session.reader.currentOperation = some .articleHeader) {output front rest : Text}
    (cut : splitter (session.reader.response ++ output) = (front, rest)) :
    session.readStep (newsReaderDelegate dateFormatter) more (.bytes (some output)) =
      (next (stored dateFormatter front rest (session.log (.received (some output))))).afterRead
        (newsReaderDelegate dateFormatter) more := by
  let received := (session.log (.received (some output))).setResponse (session.reader.response ++ output)
  have delivered : received.deliver (newsReaderDelegate dateFormatter) =
      next (stored dateFormatter front rest received) := by
    apply deliver_header dateFormatter
    · exact results
    · exact operation
    · exact cut
  rw [readStep, if_pos isOpen]
  dsimp only
  rw [if_pos (by exact results), log_reader, delivered]
  rfl

/-! ## From the login to the first HEAD -/

/-- What holds while the command asks for `articleId`, with `rest` still to ask for. -/
structure Asking (session : Session ArticleGetMultipleHeadersCommand) (name articleId : Text)
    (rest : List Text) : Prop where
  isOpen : session.reader.isOpen = true
  connected : session.reader.connected = true
  operation : session.reader.currentOperation = some .articleHeader
  response : session.reader.response = []
  asked : session.reader.articleId = articleId
  remaining : session.delegate.articleIds.drop session.delegate.idx = rest
  serves : Serves session.delegate name

/-- The reader is open and the login is under way; nothing has been asked for. -/
structure Started (session : Session ArticleGetMultipleHeadersCommand) (name : Text) : Prop where
  isOpen : session.reader.isOpen = true
  results : session.reader.resultsComing = false
  response : session.reader.response = []
  idx : session.delegate.idx = 0
  serves : Serves session.delegate name

/-- GROUP has been sent. -/
structure Selecting (session : Session ArticleGetMultipleHeadersCommand) (name articleId : Text)
    (rest : List Text) : Prop extends Asking session name articleId rest where
  results : session.reader.resultsComing = false
  groupCommand : session.reader.currentGroupCommand = commandLine "HEAD" articleId

/-- HEAD has been sent. -/
structure Awaiting (session : Session ArticleGetMultipleHeadersCommand) (name articleId : Text)
    (rest : List Text) : Prop extends Asking session name articleId rest where
  results : session.reader.resultsComing = true

def welcomeLine : Text := "281 Welcome To Easynews.\r\n".toList

theorem recognise_welcomeLine : recognise welcomeLine = some .loggedIn := by decide

/-- The reply to GROUP: 211 and the number of articles, then whatever follows. -/
def groupReply (digit : Char) (rest : Text) : Text := "211 ".toList ++ digit :: rest

theorem recognise_groupReply {digit : Char} (isDigit : digit.isDigit = true) (rest : Text) :
    recognise (groupReply digit rest) = some .groupSelected := by
  rw [groupReply, ControlReplies.recognise_211 ((joined_cons _ _).trans (joins_of_isDigit isDigit)),
    not_numbers_of_digit isDigit]
  rfl

/-- The session once the login line has told the command that it is connected. -/
def loggedIn (session : Session ArticleGetMultipleHeadersCommand) : Session ArticleGetMultipleHeadersCommand where
  reader := { session.reader with connected := true, response := welcomeLine }
  delegate := session.delegate
  trace := session.trace ++ [.received (some welcomeLine), .called (.notification .connected)]

theorem Started.readStep {session : Session ArticleGetMultipleHeadersCommand} {name : Text}
    (started : Started session name) (more : Bool) :
    session.readStep (newsReaderDelegate dateFormatter) more (.ofText welcomeLine) =
      (next (loggedIn session)).setResponse [] := by
  rw [Read.ofText, readStep_control _ more started.isOpen started.results, started.response, List.nil_append,
    processResponse, recognise_welcomeLine]
  simp [call, newsReaderDelegate, handle, loggedIn, log, update, setResponse]

/-- The login makes the command ask for its first header: it selects the group. -/
theorem Started.select {session : Session ArticleGetMultipleHeadersCommand} {name : Text}
    (started : Started session name) {articleId : Text} {rest : List Text}
    (remaining : session.delegate.articleIds = articleId :: rest) (more : Bool) :
    ∃ later, session.readStep (newsReaderDelegate dateFormatter) more (.ofText welcomeLine) = later ∧
      Selecting later name articleId rest ∧ later.delegate = { session.delegate with idx := 1 } ∧
      later.commands = session.commands ++ [commandLine "GROUP" name] ∧
      later.callbacks = session.callbacks ++ [.notification .connected] := by
  have drops : (loggedIn session).delegate.articleIds.drop (loggedIn session).delegate.idx =
      articleId :: rest := by
    simp [loggedIn, started.idx, remaining]
  have connected : (loggedIn session).reader.connected = true := rfl
  have asks := next_group (by exact started.isOpen) connected (by exact started.results) started.serves drops
  refine ⟨_, started.readStep dateFormatter more, ?_⟩
  rw [asks]
  refine ⟨⟨⟨started.isOpen, rfl, rfl, rfl, rfl, ?_, ⟨started.serves.found⟩⟩, started.results, rfl⟩, ?_, ?_, ?_⟩
  · simp [loggedIn, started.idx, remaining]
  · simp [loggedIn, started.idx]
  · simp [commands, loggedIn]
  · simp [callbacks, loggedIn]

theorem Started.finish {session : Session ArticleGetMultipleHeadersCommand} {name : Text}
    (started : Started session name) (remaining : session.delegate.articleIds = []) (more : Bool) :
    session.readStep (newsReaderDelegate dateFormatter) more (.ofText welcomeLine) =
      (loggedIn session).close.setResponse [] := by
  have done : (loggedIn session).delegate.articleIds.drop (loggedIn session).delegate.idx = [] := by
    simp [loggedIn, remaining]
  rw [started.readStep, next_of_done (by exact started.serves) done]

theorem Selecting.head {session : Session ArticleGetMultipleHeadersCommand} {name articleId : Text}
    {rest : List Text} (selecting : Selecting session name articleId rest) {digit : Char}
    (isDigit : digit.isDigit = true) (tail : Text) (more : Bool) :
    ∃ later, session.readStep (newsReaderDelegate dateFormatter) more (.ofText (groupReply digit tail)) = later ∧
      Awaiting later name articleId rest ∧ later.delegate = session.delegate ∧
      later.commands = session.commands ++ [commandLine "HEAD" articleId] ∧
      later.callbacks = session.callbacks := by
  refine ⟨_, rfl, ?_⟩
  rw [Read.ofText, readStep_control _ more selecting.isOpen selecting.results, selecting.response, List.nil_append,
    processResponse, recognise_groupReply isDigit]
  dsimp only
  rw [send_of_open (by exact selecting.isOpen) (by simp [selecting.groupCommand, commandLine_ne_nil])]
  refine ⟨⟨⟨selecting.isOpen, selecting.connected, selecting.operation, rfl, selecting.asked,
    selecting.remaining, selecting.serves⟩, rfl⟩, rfl, ?_, ?_⟩
  · simp [commands, selecting.groupCommand]
  · simp [callbacks]

/-! ## A complete reply -/

/-- A header changes records of articles, never which group the command finds. -/
theorem Serves.newsReaderArticleHeader {command : ArticleGetMultipleHeadersCommand} {name : Text}
    (serves : Serves command name) (articleId : Text) (header : Header) :
    Serves (command.newsReaderArticleHeader dateFormatter articleId header) name := by
  obtain ⟨group, record, found, atGroup, rfl⟩ := serves.found
  have kept : ∀ {β : Type} (project : NewsGroup → β),
      (∀ record articles, project { record with articles := articles } = project record) →
        (writeArticleHeader dateFormatter command.rbox.realm group articleId header).2.groups.map project =
          command.rbox.realm.groups.map project :=
    fun project ignores => Realm.findOrCreateGroupArticle_groups_map project ignores _ group articleId
  have foundLater := (Realm.findGroupById_congr (kept NewsGroup.id fun _ _ => rfl) command.groupId).trans found
  have nameLater := congrArg (·[group]?) (kept NewsGroup.name fun _ _ => rfl)
  simp only [List.getElem?_map, atGroup, Option.map_some, Option.map_eq_some_iff] at nameLater
  obtain ⟨later, atLater, sameName⟩ := nameLater
  refine ⟨group, later, ?_, ?_, sameName⟩
  · simpa [ArticleGetMultipleHeadersCommand.newsReaderArticleHeader, found] using foundLater
  · simpa [ArticleGetMultipleHeadersCommand.newsReaderArticleHeader, found] using atLater

theorem newsReaderArticleHeader_keeps (command : ArticleGetMultipleHeadersCommand) (articleId : Text) (header : Header) :
    let later := command.newsReaderArticleHeader dateFormatter articleId header
    later.articleIds = command.articleIds ∧ later.groupId = command.groupId ∧ later.idx = command.idx := by
  dsimp only
  unfold ArticleGetMultipleHeadersCommand.newsReaderArticleHeader
  split <;> exact ⟨rfl, rfl, rfl⟩

/-- What the command's `ReaderBox` is after the reply to `articleId`. -/
def received (articleId front : Text)
    (command : ArticleGetMultipleHeadersCommand) : ReaderBox :=
  (command.newsReaderArticleHeader dateFormatter articleId (headerOfText front)).rbox

/-- The callbacks a reply to `articleId` makes. -/
def replyCallbacks (articleId front : Text) : List Callback :=
  [.articleHeader articleId (headerOfText front), .notification .nextArticle]

/-- A reply that arrives in one read leaves nothing behind for the end of its event. -/
theorem Awaiting.readStep {session : Session ArticleGetMultipleHeadersCommand} {name articleId : Text}
    {rest : List Text} (awaiting : Awaiting session name articleId rest) (front : Text) (more : Bool) :
    session.readStep (newsReaderDelegate dateFormatter) more (.ofText (front ++ crlf.symbols)) =
      next (stored dateFormatter front [] (session.log (.received (some (front ++ crlf.symbols))))) := by
  have cut : splitter (session.reader.response ++ (front ++ crlf.symbols)) = (front, []) := by
    have whole := splitter_append front crlf.unbroken_nil
    rw [List.append_nil] at whole
    rw [awaiting.response, List.nil_append]
    exact whole
  rw [Read.ofText, readStep_header dateFormatter more awaiting.isOpen awaiting.results awaiting.operation cut,
    afterRead]
  split
  · rfl
  · rw [next_response (by exact awaiting.results)]
    exact processResponse_nil _ _

theorem Awaiting.remainingStored {session : Session ArticleGetMultipleHeadersCommand} {name articleId : Text}
    {rest : List Text} (awaiting : Awaiting session name articleId rest) (effect : Effect) (front : Text) :
    let later := stored dateFormatter front [] (session.log effect)
    later.delegate.articleIds.drop later.delegate.idx = rest := by
  obtain ⟨articleIds, -, idx⟩ := newsReaderArticleHeader_keeps dateFormatter session.delegate
    session.reader.articleId (headerOfText front)
  simp only [stored, log_delegate, log_reader, articleIds, idx]
  exact awaiting.remaining

/-- Such a reply is stored under the id that was asked for; then comes the next HEAD. -/
theorem Awaiting.reply_next {session : Session ArticleGetMultipleHeadersCommand} {name articleId nextId : Text}
    {rest : List Text} (awaiting : Awaiting session name articleId (nextId :: rest)) (front : Text) (more : Bool) :
    ∃ later, session.readStep (newsReaderDelegate dateFormatter) more (.ofText (front ++ crlf.symbols)) = later ∧
      Awaiting later name nextId rest ∧ later.delegate.groupId = session.delegate.groupId ∧
      later.delegate.rbox = received dateFormatter articleId front session.delegate ∧
      later.commands = session.commands ++ [commandLine "HEAD" nextId] ∧
      later.callbacks = session.callbacks ++ replyCallbacks articleId front := by
  have serves := awaiting.serves.newsReaderArticleHeader dateFormatter session.reader.articleId
    (headerOfText front)
  have remaining := awaiting.remainingStored dateFormatter
    (.received (some (front ++ crlf.symbols))) front
  refine ⟨_, awaiting.readStep dateFormatter front more, ?_⟩
  -- the command is told of the header first, and asks for the next one then
  rw [next_head (by exact awaiting.isOpen) (by exact awaiting.connected) (by exact awaiting.results) serves remaining]
  refine ⟨⟨⟨awaiting.isOpen, awaiting.connected, awaiting.operation, rfl, rfl, ?_, ⟨serves.found⟩⟩,
    awaiting.results⟩, ?_, ?_, ?_, ?_⟩
  · have tail := congrArg (List.drop 1) remaining
    rwa [List.drop_drop] at tail
  · exact (newsReaderArticleHeader_keeps dateFormatter session.delegate session.reader.articleId
      (headerOfText front)).2.1
  · simp only [stored, log_delegate, log_reader, awaiting.asked]
    rfl
  · simp [commands, stored]
  · simp [callbacks, stored, replyCallbacks, awaiting.asked]

theorem Awaiting.reply_last {session : Session ArticleGetMultipleHeadersCommand} {name articleId : Text}
    (awaiting : Awaiting session name articleId []) (front : Text) (more : Bool) :
    ∃ later, session.readStep (newsReaderDelegate dateFormatter) more (.ofText (front ++ crlf.symbols)) = later ∧
      later.reader.isOpen = false ∧
      later.delegate.rbox = received dateFormatter articleId front session.delegate ∧
      later.commands = session.commands ∧
      later.callbacks = session.callbacks ++ replyCallbacks articleId front := by
  have serves := awaiting.serves.newsReaderArticleHeader dateFormatter session.reader.articleId
    (headerOfText front)
  have remaining := awaiting.remainingStored dateFormatter
    (.received (some (front ++ crlf.symbols))) front
  refine ⟨_, awaiting.readStep dateFormatter front more, ?_⟩
  rw [next_of_done serves remaining]
  refine ⟨by simp, ?_, ?_, ?_⟩
  · simp only [close_delegate, stored, log_delegate, log_reader, awaiting.asked]
    rfl
  · simp [commands, stored]
  · simp [callbacks, stored, replyCallbacks, awaiting.asked]

/-- Two articles of a group with nothing stored, the second one gone from the server. -/
def fetchingTwo : Session ArticleGetMultipleHeadersCommand where
  reader := { username := "ann".toList, password := "secret".toList, isOpen := true }
  delegate :=
    { rbox := { realm := { groups := [{ id := some "A".toList, name := "alt.a".toList }], articles := [] } }
      articleIds := ["7".toList, "8".toList]
      groupId := "A".toList }

theorem fetchingTwo_started : Started fetchingTwo "alt.a".toList :=
  ⟨rfl, rfl, rfl, rfl, ⟨0, _, rfl, rfl, rfl⟩⟩

end EasyNews.HeaderRuns
