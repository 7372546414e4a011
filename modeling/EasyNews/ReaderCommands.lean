import EasyNews.ReaderRuns
import EasyNews.ReaderBox

/-! # The commands

A command opens a reader of its own, is its delegate, and drives it: it starts its operation when
the reader is connected and closes the reader when the operation is done.

* `ListGroupsCommand` — LIST; every group becomes a group record, or refreshes the one of its name.
* `ListGroupGetArticleIdsCommand` — LISTGROUP; every new id becomes an article record.
* `ArticleGetMultipleHeadersCommand` — HEAD for each of its ids; every reply fills in a record.
* `ArticleCommand` — ARTICLE; the text goes to a view.

All work on a `ReaderBox`. `UUID()`, `Date()` and `DateFormatter` are parameters.
-/

namespace EasyNews

/-- What is posted to the notification centre. -/
inductive Posted where
  | groupsAdded
  | groupUpdated (group : GroupRef)
  | articleGetHeader (groupName : Text) (articleRefs : List ArticleRef)
  | articleHeaderAdded (groupName : Text) (article : ArticleVM)
deriving DecidableEq, Repr

/-- `ReaderBox`, with what the commands that use it have posted. -/
structure ReaderBox where
  realm : Realm
  posted : List Posted := []
deriving DecidableEq, Repr

def ReaderBox.post (rbox : ReaderBox) (posted : Posted) : ReaderBox :=
  { rbox with posted := rbox.posted ++ [posted] }

/-! ## `ListGroupsCommand` -/

/-- What `UUID().uuidString` and `Date()` return while one group is written. -/
structure Drawn where
  uuidString : Text
  created : Date
  updated : Date
deriving DecidableEq, Repr

/-- The command with the values it draws, of which `drawn` have been used. -/
structure ListGroupsCommand where
  rbox : ReaderBox
  supply : Nat → Drawn
  drawn : Nat := 0

namespace ListGroupsCommand

/-- The loop body of `NewsReader_groups`. -/
def writeGroup (realm : Realm) (written : NewsGroup × Drawn) : Realm :=
  let (group, drawn) := written
  let ((newGroup, _), realm) := realm.findOrCreateGroup group.name drawn.uuidString drawn.created
  realm.modifyGroup newGroup fun record =>
    { record with
      first := group.first
      last := group.last
      canPost := group.canPost
      updated := some drawn.updated }

/-- The write transaction of `NewsReader_groups`. -/
def writeGroups (realm : Realm) (groups : List (NewsGroup × Drawn)) : Realm := groups.foldl writeGroup realm

/-- The groups of a delivery, each with what is drawn for it. -/
def draw (command : ListGroupsCommand) (groups : List NewsGroup) : List (NewsGroup × Drawn) :=
  (groups.zipIdx command.drawn).map fun (group, place) => (group, command.supply place)

/-- `NewsReader_groups(groups:)`. -/
def newsReaderGroups (groups : List NewsGroup) (command : ListGroupsCommand) : ListGroupsCommand :=
  let realm := writeGroups command.rbox.realm (command.draw groups)
  { command with
    rbox := { command.rbox with realm }.post .groupsAdded
    drawn := command.drawn + groups.length }

def handle (callback : Callback) (session : Session ListGroupsCommand) : Session ListGroupsCommand :=
  match callback with
  | .notification .connected => session.listGroups
  | .notification .done => session.close
  | .groups groups => { session with delegate := session.delegate.newsReaderGroups groups }
  | _ => session

def newsReaderDelegate : NewsReaderDelegate ListGroupsCommand where
  handle := handle
  staysClosed callback session closed := by
    unfold handle
    split
    · rw [Session.listGroups_isOpen, closed]
    · simp
    · exact closed
    · exact closed

end ListGroupsCommand

/-! ## `ListGroupGetArticleIdsCommand` -/

/-- The command with its resolved group. -/
structure ListGroupGetArticleIdsCommand where
  rbox : ReaderBox
  group : GroupRef
  groupName : Text

namespace ListGroupGetArticleIdsCommand

/-- The loop body of `NewsReader_articles`: a new record joins `newArticles`, and the group's list
    once more. -/
def addArticleId (group : GroupRef) (state : Realm × List ArticleRef) (articleId : Text) :
    Realm × List ArticleRef :=
  let (realm, newArticles) := state
  let ((article, isNewArticle), realm) := realm.findOrCreateGroupArticle group articleId
  if isNewArticle then (realm.appendToGroup group article, newArticles ++ [article])
  else (realm, newArticles)

/-- The write transaction of `NewsReader_articles`: the realm it commits and `newArticles`. -/
def writeArticles (realm : Realm) (group : GroupRef) (articleIds : List Text) :
    Realm × List ArticleRef :=
  articleIds.foldl (addArticleId group) (realm, [])

/-- What `NewsReader_articles` posts once its transaction is committed. -/
def postArticles (group : GroupRef) (groupName : Text) (articleRefs : List ArticleRef)
    (rbox : ReaderBox) : ReaderBox :=
  (rbox.post (.groupUpdated group)).post (.articleGetHeader groupName articleRefs)

/-- `NewsReader_articles(articleIds:)`. -/
def newsReaderArticles (articleIds : List Text) (command : ListGroupGetArticleIdsCommand) :
    ListGroupGetArticleIdsCommand :=
  let (realm, newArticles) := writeArticles command.rbox.realm command.group articleIds
  { command with
    rbox := postArticles command.group command.groupName newArticles { command.rbox with realm } }

def handle (callback : Callback) (session : Session ListGroupGetArticleIdsCommand) :
    Session ListGroupGetArticleIdsCommand :=
  match callback with
  | .notification .connected => session.listArticles session.delegate.groupName
  | .notification .done => session.close
  | .articles articleIds =>
    { session with delegate := session.delegate.newsReaderArticles articleIds }
  | _ => session

def newsReaderDelegate : NewsReaderDelegate ListGroupGetArticleIdsCommand where
  handle := handle
  staysClosed callback session closed := by
    unfold handle
    split
    · rw [Session.listArticles_isOpen, closed]
    · simp
    · exact closed
    · exact closed

end ListGroupGetArticleIdsCommand

/-! ## Dates -/

namespace Date

/-- The formats of `Date.parse`, in the order they are tried. -/
def formats : List Text :=
  ["yyyy-MM-dd HH:mm:ss Z", "yyyy-MM-dd HH:mm:ss a", "yyyy-MM-dd hh:mm:ss", "yyyy-MM-dd HH:mm:ss",
    "MM/dd/yyyy", "yyyy-MM-dd", "MM/dd/yyyy HH:mma", "yyyy-MM-dd HH:mma", "MM/dd/yyyy HH:mm:ssa",
    "E, d MMM yyyy HH:mm:ss Z"].map String.toList

/-- `Date.parse(string:)`; `dateFormatter format string` is what a `DateFormatter` with that
    format returns. -/
def parse (dateFormatter : Text → Text → Option Date) (string : Text) : Option Date :=
  match formats.findSome? (dateFormatter · string) with
  | some date => some date
  | none =>
    -- the text the source recurses on contains " AM", so it recurses no further
    if " 02:".toList <:+: string ∧ ¬ " AM".toList <:+: string then
      formats.findSome? (dateFormatter · (string ++ " AM".toList))
    else none

end Date

/-! ## `ArticleGetMultipleHeadersCommand` -/

structure ArticleGetMultipleHeadersCommand where
  rbox : ReaderBox
  articleIds : List Text
  groupId : Text
  idx : Nat := 0

namespace ArticleGetMultipleHeadersCommand

variable (dateFormatter : Text → Text → Option Date)

/-- What `NewsReader_articleHeader` writes into an article record. -/
def writeHeader (header : Header) (article : NewsGroupArticle) : NewsGroupArticle :=
  let article :=
    { article with
      subject := header.lookup "Subject".toList
      contentType := header.lookup "Content-Type".toList }
  let article :=
    match header.lookup "Bytes".toList with
    | some bytes => { article with size := some ((intOfText bytes).getD 0) }
    | none => article
  let article :=
    match (header.lookup "Date".toList).bind (Date.parse dateFormatter) with
    | some date => { article with date := some date }
    | none => article
  match header.lookup "X-Received-Bytes".toList with
  | some bytes => { article with size := some ((intOfText bytes).getD 0) }
  | none => article

/-- The record afterwards, field by field: X-Received-Bytes is written over Bytes. -/
theorem writeHeader_eq (header : Header) (article : NewsGroupArticle) :
    writeHeader dateFormatter header article =
      { article with
        subject := header.lookup "Subject".toList
        contentType := header.lookup "Content-Type".toList
        date := ((header.lookup "Date".toList).bind (Date.parse dateFormatter)).or article.date
        size := (((header.lookup "X-Received-Bytes".toList).or (header.lookup "Bytes".toList)).map fun bytes =>
          (intOfText bytes).getD 0).or article.size } := by
  simp only [writeHeader]
  cases header.lookup "X-Received-Bytes".toList <;>
    cases (header.lookup "Date".toList).bind (Date.parse dateFormatter) <;>
      cases header.lookup "Bytes".toList <;> rfl

/-- The write transaction of `NewsReader_articleHeader`: the realm it commits and the record. -/
def writeArticleHeader (realm : Realm) (group : GroupRef) (articleId : Text) (header : Header) :
    ArticleRef × Realm :=
  let ((article, _), realm) := realm.findOrCreateGroupArticle group articleId
  (article, realm.modifyArticle article (writeHeader dateFormatter header))

/-- `NewsReader_articleHeader(articleId:header:)`. -/
def newsReaderArticleHeader (articleId : Text) (header : Header)
    (command : ArticleGetMultipleHeadersCommand) : ArticleGetMultipleHeadersCommand :=
  match command.rbox.realm.findGroupById command.groupId with
  | some group =>
    let (article, realm) :=
      writeArticleHeader dateFormatter command.rbox.realm group articleId header
    let added := do
      let record ← realm.groups[group]?
      let article ← realm.articles[article]?
      return Posted.articleHeaderAdded record.name (.ofArticle article)
    { command with rbox := { realm, posted := command.rbox.posted ++ added.toList } }
  | none => command

/-- The first branch of `NewsReader_notification`: ask for the next header, or close. -/
def next (session : Session ArticleGetMultipleHeadersCommand) :
    Session ArticleGetMultipleHeadersCommand :=
  let command := session.delegate
  let realm := command.rbox.realm
  match (realm.findGroupById command.groupId).bind (realm.groups[·]?) with
  | some group =>
    match command.articleIds[command.idx]? with
    | some articleId =>
      let session := session.articleHeader group.name articleId
      { session with delegate := { command with idx := command.idx + 1 } }
    | none => session.close
  | none => session

def handle (callback : Callback) (session : Session ArticleGetMultipleHeadersCommand) :
    Session ArticleGetMultipleHeadersCommand :=
  match callback with
  | .notification .connected => next session
  | .notification .nextArticle => next session
  | .notification .done => session.close
  | .articleHeader articleId header =>
    { session with
      delegate := session.delegate.newsReaderArticleHeader dateFormatter articleId header }
  | _ => session

theorem next_closed {session : Session ArticleGetMultipleHeadersCommand}
    (closed : session.reader.isOpen = false) : (next session).reader.isOpen = false := by
  unfold next
  dsimp only
  split
  · split
    · rw [Session.articleHeader_isOpen, closed]
    · simp
  · exact closed

def newsReaderDelegate : NewsReaderDelegate ArticleGetMultipleHeadersCommand where
  handle := handle dateFormatter
  staysClosed callback session closed := by
    unfold handle
    split
    · exact next_closed closed
    · exact next_closed closed
    · simp
    · exact closed
    · exact closed

end ArticleGetMultipleHeadersCommand

/-! ## `ArticleCommand` -/

/-- The command with the texts its delegate, a view, has been given. -/
structure ArticleCommand where
  rbox : ReaderBox
  groupId : Text
  articleId : Text
  articles : List Text := []

namespace ArticleCommand

/-- `NewsReader_article(article:)`. -/
def newsReaderArticle (article : Text) (command : ArticleCommand) : ArticleCommand :=
  { command with articles := command.articles ++ [article] }

/-- The first branch of `NewsReader_notification`: a group that is not found is asked for nothing. -/
def start (session : Session ArticleCommand) : Session ArticleCommand :=
  let command := session.delegate
  let realm := command.rbox.realm
  match (realm.findGroupById command.groupId).bind (realm.groups[·]?) with
  | some group => session.article group.name command.articleId
  | none => session

def handle (callback : Callback) (session : Session ArticleCommand) : Session ArticleCommand :=
  match callback with
  | .notification .connected => start session
  | .notification .done => session.close
  | .article article => { session with delegate := session.delegate.newsReaderArticle article }
  | _ => session

theorem start_closed {session : Session ArticleCommand} (closed : session.reader.isOpen = false) :
    (start session).reader.isOpen = false := by
  unfold start
  dsimp only
  split
  · rw [Session.article_isOpen, closed]
  · exact closed

def newsReaderDelegate : NewsReaderDelegate ArticleCommand where
  handle := handle
  staysClosed callback session closed := by
    unfold handle
    split
    · exact start_closed closed
    · simp
    · exact closed
    · exact closed

end ArticleCommand

end EasyNews
