import EasyNews.NewsModels

/-! # `NewsReader`

The reader is a state machine over one connection: its calls and its delegate's reactions send
commands, and every `hasBytesAvailable` event hands it some reads.

A delegate may call back into the reader from inside a callback, so both live in one `Session`
that every function takes and returns. The session also keeps the trace of what happened.
-/

namespace EasyNews

/-- The values of `currentOperation`. -/
inductive Operation where
  | article
  | articleHeader
  | listGroupArticles
  | listGroups
deriving DecidableEq, Repr

/-- The values passed to `NewsReader_notification`. -/
inductive Notification where
  | done
  | connected
  | connectionFailed
  | disconnected
  | nextArticle
deriving DecidableEq, Repr

/-- The stored properties of `NewsReader`. Both streams are set and cleared together; `isOpen`
    says that they are set. -/
structure NewsReader where
  username : Text
  password : Text
  isOpen : Bool := false
  connected : Bool := false
  resultsComing : Bool := false
  currentOperation : Option Operation := none
  currentGroupCommand : Text := []
  articleId : Text := []
  article : Text := []
  response : Text := []
deriving DecidableEq, Repr

/-- One call of a `NewsReaderDelegate` method. -/
inductive Callback where
  | error (message : Text)
  | groups (groups : List NewsGroup)
  | articles (articleIds : List Text)
  | notification (notification : Notification)
  | articleHeader (articleId : Text) (header : Header)
  | article (article : Text)
deriving DecidableEq

/-- What the trace records: text written to the server, a read with what its decoding gave, a
    call of the delegate. -/
inductive Effect where
  | sent (command : Text)
  | received (output : Option Text)
  | called (callback : Callback)
deriving DecidableEq

structure Session (δ : Type) where
  reader : NewsReader
  delegate : δ
  trace : List Effect := []

/-- How a delegate reacts to a callback. No delegate opens a connection from inside a callback:
    `open(name:)` is called by the commands' initialisers only. -/
structure NewsReaderDelegate (δ : Type) where
  handle : Callback → Session δ → Session δ
  staysClosed : ∀ callback session, session.reader.isOpen = false →
    (handle callback session).reader.isOpen = false

/-- A delegate that only listens. -/
def NewsReaderDelegate.silent : NewsReaderDelegate Unit where
  handle _ session := session
  staysClosed _ _ closed := closed

/-- The line that ends a multi-line block. -/
def terminatorLine : Text := ".".toList

/-- One line written to the server: a verb and its argument. -/
def commandLine (verb : String) (argument : Text) : Text :=
  verb.toList ++ " ".toList ++ argument ++ "\n".toList

namespace Session

variable {δ : Type}

def log (effect : Effect) (session : Session δ) : Session δ :=
  { session with trace := session.trace ++ [effect] }

/-- Assigning stored properties of the reader. -/
def update (change : NewsReader → NewsReader) (session : Session δ) : Session δ :=
  { session with reader := change session.reader }

def callbacks (session : Session δ) : List Callback :=
  session.trace.filterMap fun
    | .called callback => some callback
    | _ => none

def commands (session : Session δ) : List Text :=
  session.trace.filterMap fun
    | .sent command => some command
    | _ => none

def setResponse (response : Text) (session : Session δ) : Session δ :=
  session.update fun reader => { reader with response }

/-- `delegate?.NewsReader_…(…)`. -/
def call (delegate : NewsReaderDelegate δ) (callback : Callback) (session : Session δ) : Session δ :=
  delegate.handle callback (session.log (.called callback))

/-! ## Writing to the server -/

/-- `send(command:)`. An empty command writes no byte. -/
def send (command : Text) (session : Session δ) : Session δ :=
  if session.reader.isOpen ∧ command ≠ [] then session.log (.sent command) else session

def close (session : Session δ) : Session δ :=
  if session.reader.isOpen then session.update fun reader => { reader with isOpen := false }
  else session

def quit (session : Session δ) : Session δ :=
  if session.reader.isOpen then session.send "quit\n".toList else session

/-- `delegate?.NewsReader_error(message: "Not connected")`. Every delegate's method is empty. -/
def notConnected (session : Session δ) : Session δ :=
  session.log (.called (.error "Not connected".toList))

def article (groupName articleId : Text) (session : Session δ) : Session δ :=
  if session.reader.connected then
    let session := session.update fun reader => { reader with article := [], articleId }
    if session.reader.resultsComing then session.send (commandLine "ARTICLE" articleId)
    else
      let session := session.update fun reader =>
        { reader with
          currentOperation := some .article
          response := []
          currentGroupCommand := commandLine "ARTICLE" articleId }
      session.send (commandLine "GROUP" groupName)
  else session.notConnected

def articleHeader (groupName articleId : Text) (session : Session δ) : Session δ :=
  if session.reader.connected then
    let session := session.update fun reader => { reader with articleId }
    if session.reader.resultsComing then session.send (commandLine "HEAD" articleId)
    else
      let session := session.update fun reader =>
        { reader with
          currentOperation := some .articleHeader
          response := []
          currentGroupCommand := commandLine "HEAD" articleId }
      session.send (commandLine "GROUP" groupName)
  else session.notConnected

def listArticles (groupName : Text) (session : Session δ) : Session δ :=
  if session.reader.connected then
    let session := session.update fun reader =>
      { reader with currentOperation := some .listGroupArticles, response := [] }
    session.send (commandLine "LISTGROUP" groupName)
  else session.notConnected

def listGroups (session : Session δ) : Session δ :=
  if session.reader.connected then
    let session := session.update fun reader =>
      { reader with currentOperation := some .listGroups, response := [] }
    session.send "LIST\n".toList
  else session.notConnected

end Session

/-! ## Replies -/

/-- The branches of `processResponse`. -/
inductive Reply where
  | welcome
  | terminator
  | passRequired
  | loggedIn
  | authenticationFailed
  | goodbye
  | newsGroupsFollow
  | articleNumbersFollow
  | groupSelected
deriving DecidableEq, Repr

/-- The branch a text takes: the first test of `processResponse` it passes. -/
def recognise (buffer : Text) : Option Reply :=
  if starts buffer "200 news.easynews.com Welcome!".toList then some .welcome
  else if buffer = terminatorLine then some .terminator
  else if starts buffer "381 PASS required".toList then some .passRequired
  else if starts buffer "281 Welcome To Easynews.".toList then some .loggedIn
  else if starts buffer "502 Authentication Failed".toList then some .authenticationFailed
  else if starts buffer "205 Goodbye".toList then some .goodbye
  else if starts buffer "215 NewsGroups Follow".toList then some .newsGroupsFollow
  else if starts buffer "211 Article Numbers Follow".toList then some .articleNumbersFollow
  else if starts buffer "211 ".toList then some .groupSelected
  else none

theorem not_numbers_of_digit {digit : Char} (isDigit : digit.isDigit = true) (rest : Text) :
    starts (digit :: rest) "Article Numbers Follow".toList = false := by
  rw [Bool.eq_false_iff]
  intro begins
  obtain ⟨back, same⟩ := isPrefix_of_starts begins
  have first : some 'A' = some digit := congrArg List.head? same
  cases first
  exact absurd isDigit (by decide)

def parseHeaderLine (header : Header) (keyValue : Text) : Header :=
  if starts keyValue "430 No such article".toList then
    header.insert "Subject".toList "No such article".toList
  else if keyValue ≠ terminatorLine ∧ starts keyValue "221 ".toList = false then
    let (key, value) := splitter keyValue ":".toList .caseInsensitive
    header.insert (trimmingCharacters isWhitespaceOrNewline key)
      (trimmingCharacters isWhitespaceOrNewline value)
  else header

/-- The dictionary `parseHeader` builds. -/
def headerOfText (txt : Text) : Header := (split txt).foldl parseHeaderLine ∅

/-- The group a line of a LIST body describes: the high mark stands before the low one. -/
def groupOfLine (line : Text) : Option NewsGroup :=
  match splitWords line with
  | [name, last, first, flag] => do
    let last ← intOfText last
    let first ← intOfText first
    return { name, first := some first, last := some last, canPost := some (flag = "y".toList) }
  | _ => none

namespace Session

variable {δ : Type} (delegate : NewsReaderDelegate δ)

/-- `processResponse(buffer:)`. -/
def processResponse (buffer : Text) (session : Session δ) : Session δ :=
  match recognise buffer with
  | some .welcome =>
    (session.send (commandLine "AUTHINFO user" session.reader.username)).setResponse []
  | some .terminator => session.call delegate (.notification .done)
  | some .passRequired =>
    (session.send (commandLine "AUTHINFO pass" session.reader.password)).setResponse []
  | some .loggedIn =>
    let session := session.update fun reader => { reader with connected := true }
    (session.call delegate (.notification .connected)).setResponse []
  | some .authenticationFailed =>
    (session.call delegate (.notification .connectionFailed)).setResponse []
  | some .goodbye => (session.close.call delegate (.notification .disconnected)).setResponse []
  | some .newsGroupsFollow | some .articleNumbersFollow =>
    session.update fun reader => { reader with resultsComing := true, response := [] }
  | some .groupSelected =>
    let session := session.update fun reader => { reader with resultsComing := true, response := [] }
    session.send session.reader.currentGroupCommand
  | none => session

/-- `parseHeader(txt:)`. -/
def parseHeader (txt : Text) (session : Session δ) : Session δ :=
  let session := session.call delegate (.articleHeader session.reader.articleId (headerOfText txt))
  session.call delegate (.notification .nextArticle)

/-! ## Reading -/

/-- The condition of the four branches of the read loop, looked up when each is reached. -/
def expects (operation : Operation) (session : Session δ) : Bool :=
  session.reader.resultsComing && session.reader.currentOperation = some operation

def deliverArticle (front : Text) (session : Session δ) : Session δ :=
  if session.expects .article then
    let session := session.update fun reader =>
      { reader with article := reader.article ++ front ++ crlf.symbols }
    if (split session.reader.article).getLast? = some terminatorLine then
      let session := session.call delegate (.article session.reader.article)
      session.call delegate (.notification .done)
    else session
  else session

def deliverHeader (front : Text) (session : Session δ) : Session δ :=
  if session.expects .articleHeader then session.parseHeader delegate front else session

def deliverArticleIds (lines : List Text) (session : Session δ) : Session δ :=
  if session.expects .listGroupArticles then
    let session := session.call delegate (.articles (lines.filter (· ≠ terminatorLine)))
    if terminatorLine ∈ lines then session.call delegate (.notification .done) else session
  else session

def deliverGroups (lines : List Text) (session : Session δ) : Session δ :=
  if session.expects .listGroups ∧ lines ≠ [] then
    let groups := (lines.filter (· ≠ terminatorLine)).filterMap groupOfLine
    let session := session.call delegate (.groups groups)
    if terminatorLine ∈ lines then session.call delegate (.notification .done) else session
  else session

/-- The read loop's work on the accumulated text once results are coming: cut it at the last
    CR LF, keep what stands behind, hand the lines in front to the current operation. -/
def deliver (session : Session δ) : Session δ :=
  let (front, rest) := splitter session.reader.response
  let session := session.setResponse rest
  let lines := split front
  let session := session.deliverArticle delegate front
  let session := session.deliverHeader delegate front
  let session := session.deliverArticleIds delegate lines
  session.deliverGroups delegate lines

end Session

/-- What one `inputStream.read` gives: an error, or bytes, of which the loop uses only what
    `processedMessageString` makes of them. At the end of the stream there are no bytes. -/
inductive Read where
  | failed
  | bytes (output : Option Text)
deriving DecidableEq, Repr

def Read.ofBytes (asciiDecode : Bytes → Option Text) (buffer : Bytes) : Read :=
  .bytes (processedMessageString asciiDecode buffer)

/-- A read that holds whole characters. -/
def Read.ofText (text : Text) : Read := .bytes (some text)

@[simp] theorem Read.ofBytes_utf8 (asciiDecode : Bytes → Option Text) (text : Text) :
    Read.ofBytes asciiDecode (utf8 text) = .ofText text := by
  simp [ofBytes, ofText]

namespace Session

variable {δ : Type} (delegate : NewsReaderDelegate δ)

/-- The loop of `readAvailableBytes` over the reads the stream has available: the returned text,
    the reads left in the stream, and the session. -/
def readLoop : List Read → Session δ → Text × List Read × Session δ
  | [], session => (session.reader.response, [], session)
  | read :: reads, session =>
    if session.reader.isOpen then
      match read with
      | .failed => (session.reader.response, reads, session)
      | .bytes none => readLoop reads (session.log (.received none))
      | .bytes (some output) =>
        let session := session.log (.received (some output))
        let session := session.setResponse (session.reader.response ++ output)
        if session.reader.resultsComing then readLoop reads (session.deliver delegate)
        else (session.reader.response, reads, session)
    else
      -- a closed stream has no bytes available
      (session.reader.response, [], session)

/-- `readAvailableBytes(stream:)`. -/
def readAvailableBytes (reads : List Read) (session : Session δ) :
    Option Text × List Read × Session δ :=
  if session.reader.isOpen then
    let (response, reads, session) := session.readLoop delegate reads
    (some response, reads, session)
  else (none, [], session)

/-- `stream(_:handle:)` for `hasBytesAvailable`: the reads left in the stream and the session. -/
def handleBytes (reads : List Read) (session : Session δ) : List Read × Session δ :=
  match session.readAvailableBytes delegate reads with
  | (some response, reads, session) => (reads, session.processResponse delegate response)
  | (none, reads, session) => (reads, session)

/-- The stream raises the event again while the handler leaves reads behind. -/
def raise : Nat → List Read → Session δ → Session δ
  | 0, _, session => session
  | _ + 1, [], session => session
  | fuel + 1, read :: reads, session =>
    let (reads, session) := session.handleBytes delegate (read :: reads)
    raise fuel reads session

/-- One `hasBytesAvailable` event with the reads that are available in it. -/
def hasBytesAvailable (reads : List Read) (session : Session δ) : Session δ :=
  session.raise delegate reads.length reads

/-- A run: events one after another. -/
def receive (events : List (List Read)) (session : Session δ) : Session δ :=
  events.foldl (fun session reads => session.hasBytesAvailable delegate reads) session

end Session

end EasyNews
