import EasyNews.HeaderRuns
import EasyNews.Verified.ArticleStore

/-! # Fetching headers, end to end

`ArticleGetMultipleHeadersCommand` with a server that answers every HEAD, each reply arriving in
one read: from the login line to the closing of the connection, and what the store holds then.
-/

namespace EasyNews.Verified.HeaderFetching

open Session HeaderRuns Realm ArticleStore ArticleGetMultipleHeadersCommand

/-! ## The server's replies -/

/-- A reply to HEAD: a header block of unfolded fields, or 430. -/
inductive HeadReply where
  | headers (status : Text) (fields : List (Text × Text))
  | noSuchArticle (rest : Text)

namespace HeadReply

def front : HeadReply → Text
  | .headers status fields =>
    crlf.render (("221 ".toList ++ status) :: fields.map fieldLine) ++ terminatorLine
  | .noSuchArticle rest => "430 No such article".toList ++ rest

def text (reply : HeadReply) : Text := reply.front ++ crlf.symbols

def WellFormed : HeadReply → Prop
  | .headers status fields =>
    IsStatus status ∧ (∀ field ∈ fields, IsField field) ∧ (fields.map Prod.fst).Nodup
  | .noSuchArticle rest => IsStatus rest

/-- The value the reply gives for a field. -/
def field (name : Text) : HeadReply → Option Text
  | .headers _ fields => (fields.lookup name).map (trimmingCharacters isWhitespaceOrNewline)
  | .noSuchArticle _ => if name = "Subject".toList then some "No such article".toList else none

/-- The size the reply gives: X-Received-Bytes before Bytes. -/
def size (reply : HeadReply) : Option Int :=
  match reply.field "X-Received-Bytes".toList with
  | some bytes => some ((intOfText bytes).getD 0)
  | none => (reply.field "Bytes".toList).map fun bytes => (intOfText bytes).getD 0

end HeadReply

theorem headerOfText_lookup {reply : HeadReply} (wellFormed : reply.WellFormed) (name : Text) :
    (headerOfText reply.front).lookup name = reply.field name := by
  cases reply with
  | headers status fields =>
    obtain ⟨isStatus, areFields, distinct⟩ := wellFormed
    rw [show HeadReply.front (.headers status fields) =
      (blockOfFields status fields isStatus areFields).front from rfl]
    rw [headerOfText_blockOfFields, lookup_fields areFields distinct]
    rfl
  | noSuchArticle rest =>
    have isLine : IsLine ("430 No such article".toList ++ rest) := IsLine.append (by decide) wellFormed.1
    have single : split ("430 No such article".toList ++ rest) = ["430 No such article".toList ++ rest] := by
      rw [split, crlf.fields_of_unbroken isLine.unbroken, if_neg (by simp)]
    have dictionary : headerOfText (HeadReply.noSuchArticle rest).front =
        (∅ : Header).insert "Subject".toList "No such article".toList := by
      show headerOfText ("430 No such article".toList ++ rest) = _
      rw [headerOfText, single]
      exact parseHeaderLine_missing ∅ wellFormed.2
    rw [dictionary, HeadReply.field]
    by_cases subject : name = "Subject".toList
    · rw [subject, AList.lookup_insert, if_pos rfl]
    · rw [AList.lookup_insert_ne subject, if_neg subject]
      rfl

/-! ## What one reply does to the store -/

/-- The record of `articleId` before a header for `group` is written into it. -/
def recordBefore (realm : Realm) (group : GroupRef) (articleId : Text) : NewsGroupArticle :=
  (realm.recordOf articleId).getD (newArticle group articleId)

theorem findOrCreate_places {realm : Realm} (unique : realm.UniqueIds) (group : GroupRef) (articleId : Text) :
    let found := realm.findOrCreateGroupArticle group articleId
    found.2.articles[found.1.1]? = some (recordBefore realm group articleId) ∧
      (∀ record, realm.articles[found.1.1]? = some record → record.id = articleId) ∧
      ∀ article : Nat, article ≠ found.1.1 → found.2.articles[article]? = realm.articles[article]? := by
  by_cases known : articleId ∈ realm.articleIds
  · obtain ⟨record, member, rfl⟩ := List.mem_map.mp known
    obtain ⟨article, atIndex⟩ := List.mem_iff_getElem?.mp member
    have recorded := (recordOf_eq_some_iff unique).mpr ⟨article, atIndex, rfl⟩
    rw [findOrCreateGroupArticle_found unique group atIndex]
    refine ⟨by simp [atIndex, recordBefore, recorded], ?_, fun _ _ => rfl⟩
    intro other same
    rw [atIndex] at same
    rw [Option.some.inj same]
  · have none : realm.recordOf articleId = none := by
      rw [recordOf, List.find?_eq_none]
      intro record member same
      exact known (List.mem_map.mpr ⟨record, member, by simpa using same⟩)
    rw [findOrCreateGroupArticle_new group known]
    simp only [createGroupArticle_articles, recordBefore, none, Option.getD_none]
    refine ⟨by simp, ?_, ?_⟩
    · intro record same
      simp at same
    · intro article different
      by_cases inside : article < realm.articles.length
      · exact List.getElem?_append_left inside
      · rw [List.getElem?_eq_none (by simp; omega), List.getElem?_eq_none (by omega)]

theorem writeArticleHeader_recordOf (dateFormatter : Text → Text → Option Date) {realm : Realm}
    (unique : realm.UniqueIds) (group : GroupRef)
    (articleId : Text) (header : Header) (other : Text) :
    (writeArticleHeader dateFormatter realm group articleId header).2.recordOf other =
      if other = articleId then
        some (writeHeader dateFormatter header (recordBefore realm group articleId))
      else realm.recordOf other := by
  obtain ⟨place, before, elsewhere⟩ := findOrCreate_places unique group articleId
  have uniqueLater := (writeArticleHeader_grown dateFormatter unique group articleId header).uniqueIds unique
  have keepsId : ∀ record : NewsGroupArticle, (writeHeader dateFormatter header record).id = record.id :=
    fun record => (Prod.mk.inj (writeHeader_keeps dateFormatter header record)).2
  have beforeId : (recordBefore realm group articleId).id = articleId := by
    unfold recordBefore
    cases found : realm.recordOf articleId with
    | none => rfl
    | some record => simpa using List.find?_some found
  have written : ∀ article : Nat,
      (writeArticleHeader dateFormatter realm group articleId header).2.articles[article]? =
        if article = (realm.findOrCreateGroupArticle group articleId).1.1 then
          some (writeHeader dateFormatter header (recordBefore realm group articleId))
        else realm.articles[article]? := by
    intro article
    simp only [writeArticleHeader, modifyArticle, List.getElem?_modify]
    by_cases here : article = (realm.findOrCreateGroupArticle group articleId).1.1
    · rw [here, place]
      simp
    · rw [elsewhere article here]
      simp [here, Ne.symm here]
  split
  · rename_i same
    rw [recordOf_eq_some_iff uniqueLater]
    refine ⟨_, (written _).trans (if_pos rfl), ?_⟩
    rw [keepsId, beforeId, same]
  · rename_i different
    apply Option.ext
    intro record
    rw [recordOf_eq_some_iff uniqueLater, recordOf_eq_some_iff unique]
    constructor
    · rintro ⟨article, atIndex, isOther⟩
      rw [written] at atIndex
      split at atIndex
      · rw [← Option.some.inj atIndex, keepsId, beforeId] at isOther
        exact absurd isOther.symm different
      · exact ⟨article, atIndex, isOther⟩
    · rintro ⟨article, atIndex, isOther⟩
      refine ⟨article, ?_, isOther⟩
      rw [written, if_neg]
      · exact atIndex
      · rintro rfl
        exact different (isOther.symm.trans (before record atIndex))

/-- A reply to `entry.1` that reads `entry.2` is filed. -/
def fill (dateFormatter : Text → Text → Option Date) (groupId : Text) (rbox : ReaderBox)
    (entry : Text × Text) : ReaderBox :=
  (newsReaderArticleHeader dateFormatter entry.1 (headerOfText entry.2)
    { rbox, articleIds := [entry.1], groupId }).rbox

/-- The record a reply leaves behind. -/
def filled (dateFormatter : Text → Text → Option Date) (realm : Realm) (group : GroupRef)
    (entry : Text × Text) : NewsGroupArticle :=
  writeHeader dateFormatter (headerOfText entry.2) (recordBefore realm group entry.1)

theorem received_eq_fill (dateFormatter : Text → Text → Option Date) (articleId front : Text)
    (command : ArticleGetMultipleHeadersCommand) :
    received dateFormatter articleId front command =
      fill dateFormatter command.groupId command.rbox (articleId, front) := by
  simp only [received, fill, newsReaderArticleHeader]
  cases command.rbox.realm.findGroupById command.groupId <;> rfl

/-- The group is in the realm, whose ids are unique. -/
structure Files (rbox : ReaderBox) (groupId : Text) (group : GroupRef) (name : Text) : Prop where
  unique : rbox.realm.UniqueIds
  found : rbox.realm.findGroupById groupId = some group
  named : rbox.realm.groups[group]?.map NewsGroup.name = some name

theorem Files.fill (dateFormatter : Text → Text → Option Date) {rbox : ReaderBox} {groupId : Text}
    {group : GroupRef} {name : Text}
    (files : Files rbox groupId group name) (articleId front : Text) :
    let later := HeaderFetching.fill dateFormatter groupId rbox (articleId, front)
    Files later groupId group name ∧
      (∀ other, later.realm.recordOf other =
        if other = articleId then some (filled dateFormatter rbox.realm group (articleId, front))
        else rbox.realm.recordOf other) ∧
      later.posted = rbox.posted ++
        [.articleHeaderAdded name (.ofArticle (filled dateFormatter rbox.realm group (articleId, front)))] := by
  have grown := writeArticleHeader_grown dateFormatter files.unique group articleId (headerOfText front)
  have sameNames := congrArg (·[group]?) (grown.groups NewsGroup.name fun _ _ => rfl)
  simp only [List.getElem?_map] at sameNames
  have named := sameNames.trans files.named
  have records := writeArticleHeader_recordOf dateFormatter files.unique group articleId
    (headerOfText front)
  obtain ⟨record, atGroup, isName⟩ := Option.map_eq_some_iff.mp named
  obtain ⟨place, -⟩ := findOrCreate_places files.unique group articleId
  have stored : (writeArticleHeader dateFormatter rbox.realm group articleId (headerOfText front)).2.articles[
      (writeArticleHeader dateFormatter rbox.realm group articleId (headerOfText front)).1]? =
      some (writeHeader dateFormatter (headerOfText front) (recordBefore rbox.realm group articleId)) := by
    simp [writeArticleHeader, modifyArticle, place]
  have later : HeaderFetching.fill dateFormatter groupId rbox (articleId, front) =
      { realm := (writeArticleHeader dateFormatter rbox.realm group articleId (headerOfText front)).2
        posted := rbox.posted ++ [.articleHeaderAdded name (.ofArticle
          (writeHeader dateFormatter (headerOfText front) (recordBefore rbox.realm group articleId)))] } := by
    simp [HeaderFetching.fill, newsReaderArticleHeader, files.found, atGroup, stored, isName]
  dsimp only
  rw [later]
  refine ⟨⟨grown.uniqueIds files.unique, ?_, named⟩, records, rfl⟩
  exact (findGroupById_congr (grown.groups NewsGroup.id fun _ _ => rfl) groupId).trans files.found

/-- Filing replies to different ids: each goes into its own record. -/
theorem Files.foldl_fill (dateFormatter : Text → Text → Option Date) {rbox : ReaderBox} {groupId : Text}
    {group : GroupRef} {name : Text}
    (files : Files rbox groupId group name) (entries : List (Text × Text))
    (distinct : (entries.map Prod.fst).Nodup) :
    let later := entries.foldl (HeaderFetching.fill dateFormatter groupId) rbox
    later.realm.UniqueIds ∧
      (∀ entry ∈ entries, later.realm.recordOf entry.1 =
        some (filled dateFormatter rbox.realm group entry)) ∧
      (∀ other ∉ entries.map Prod.fst, later.realm.recordOf other = rbox.realm.recordOf other) ∧
      later.posted = rbox.posted ++ entries.map fun entry =>
        .articleHeaderAdded name (.ofArticle (filled dateFormatter rbox.realm group entry)) := by
  induction entries generalizing rbox with
  | nil => exact ⟨files.unique, by simp, fun _ _ => rfl, by simp⟩
  | cons entry entries inductionHypothesis =>
    obtain ⟨articleId, front⟩ := entry
    obtain ⟨notLater, distinctLater⟩ := List.nodup_cons.mp distinct
    obtain ⟨filesLater, records, posted⟩ := files.fill dateFormatter articleId front
    obtain ⟨unique, filledLater, others, added⟩ := inductionHypothesis filesLater distinctLater
    -- the entries to come have other ids, whose records the first reply leaves alone
    have sameFilled : ∀ later ∈ entries,
        filled dateFormatter (HeaderFetching.fill dateFormatter groupId rbox (articleId, front)).realm group later =
          filled dateFormatter rbox.realm group later := by
      intro later member
      have different : later.1 ≠ articleId := by
        rintro same
        exact notLater (List.mem_map.mpr ⟨later, member, same⟩)
      rw [filled, recordBefore, records, if_neg different, filled, recordBefore]
    refine ⟨unique, ?_, ?_, ?_⟩
    · intro later member
      rcases List.mem_cons.mp member with rfl | member
      · rw [List.foldl_cons, others _ notLater, records, if_pos rfl]
      · rw [List.foldl_cons, filledLater later member, sameFilled later member]
    · intro other outside
      rw [List.map_cons, List.mem_cons, not_or] at outside
      rw [List.foldl_cons, others other outside.2, records, if_neg outside.1]
    · rw [List.foldl_cons, added, posted, List.append_assoc]
      congr 1
      rw [List.map_cons, List.singleton_append]
      congr 1
      exact List.map_congr_left fun later member => by rw [sameFilled later member]

/-! ## The run -/

/-- From the first HEAD on: each reply is filed and answered with the next HEAD, the last one with
    the end of the connection. -/
theorem awaiting_run (dateFormatter : Text → Text → Option Date)
    {session : Session ArticleGetMultipleHeadersCommand} {name articleId : Text}
    {rest : List Text} (awaiting : Awaiting session name articleId rest) (front : Text) (fronts : List Text)
    (answered : fronts.length = rest.length) (reads : List (Read × Bool))
    (arrive : reads.map Prod.fst = (front :: fronts).map fun front => .ofText (front ++ crlf.symbols)) :
    let later := session.readSteps (newsReaderDelegate dateFormatter) reads
    later.reader.isOpen = false ∧ later.commands = session.commands ++ rest.map (commandLine "HEAD") ∧
      later.delegate.rbox = ((articleId, front) :: rest.zip fronts).foldl
        (fill dateFormatter session.delegate.groupId) session.delegate.rbox := by
  -- over the ids still to be asked; the reply in hand is the one before them
  induction rest generalizing session articleId front fronts reads with
  | nil =>
    obtain rfl := List.eq_nil_of_length_eq_zero answered
    obtain ⟨⟨read, more⟩, rfl, isReply⟩ := List.map_eq_singleton_iff.mp arrive
    dsimp only at isReply
    obtain ⟨later, step, closed, rbox, commands, -⟩ := awaiting.reply_last dateFormatter front more
    rw [readSteps_cons, readSteps_nil, isReply, step]
    exact ⟨closed, by simpa using commands, by rw [rbox, received_eq_fill]; rfl⟩
  | cons nextId rest inductionHypothesis =>
    cases fronts with
    | nil => cases answered
    | cons nextFront fronts =>
      obtain ⟨⟨read, more⟩, reads, rfl, isReply, arriveLater⟩ := List.map_eq_cons_iff.mp arrive
      dsimp only at isReply
      obtain ⟨later, step, waiting, groupId, rbox, commands, -⟩ := awaiting.reply_next dateFormatter front more
      obtain ⟨closed, allCommands, store⟩ := inductionHypothesis waiting nextFront fronts (by simpa using answered)
        reads arriveLater
      rw [readSteps_cons, isReply, step]
      refine ⟨closed, ?_, ?_⟩
      · rw [allCommands, commands, List.append_assoc]
        rfl
      · rw [store, groupId, rbox, received_eq_fill]
        rfl

/-- What the server sends: the login line, and if any header is asked for the reply to GROUP and a
    reply to each HEAD. -/
def serverTexts (articleIds : List Text) (group : Text) (replies : List HeadReply) : List Text :=
  welcomeLine :: if articleIds = [] then [] else group :: replies.map HeadReply.text

def headerCommands (name : Text) (articleIds : List Text) : List Text :=
  if articleIds = [] then [] else commandLine "GROUP" name :: articleIds.map (commandLine "HEAD")

theorem started_run (dateFormatter : Text → Text → Option Date)
    {session : Session ArticleGetMultipleHeadersCommand} {name : Text}
    (started : Started session name) (replies : List HeadReply)
    (answered : replies.length = session.delegate.articleIds.length) {digit : Char}
    (isDigit : digit.isDigit = true) (tail : Text) (reads : List (Read × Bool))
    (arrive : reads.map Prod.fst =
      (serverTexts session.delegate.articleIds (groupReply digit tail) replies).map Read.ofText) :
    let later := session.readSteps (newsReaderDelegate dateFormatter) reads
    later.reader.isOpen = false ∧
      later.commands = session.commands ++ headerCommands name session.delegate.articleIds ∧
      later.delegate.rbox = (session.delegate.articleIds.zip (replies.map HeadReply.front)).foldl
        (fill dateFormatter session.delegate.groupId) session.delegate.rbox := by
  cases ids : session.delegate.articleIds with
  | nil =>
    rw [ids, serverTexts, if_pos rfl] at arrive
    obtain ⟨⟨read, more⟩, rfl, isWelcome⟩ := List.map_eq_singleton_iff.mp arrive
    dsimp only at isWelcome
    rw [readSteps_cons, readSteps_nil, isWelcome, started.finish dateFormatter ids]
    exact ⟨by simp, by simp [commands, loggedIn, headerCommands], by simp [loggedIn]⟩
  | cons articleId rest =>
    rw [ids] at answered
    rw [ids, serverTexts, if_neg (by simp)] at arrive
    cases replies with
    | nil => cases answered
    | cons reply replies =>
      obtain ⟨⟨welcome, moreWelcome⟩, afterWelcome, rfl, isWelcome, arriveGroup⟩ := List.map_eq_cons_iff.mp arrive
      obtain ⟨⟨group, moreGroup⟩, reads, rfl, isGroup, arriveReplies⟩ := List.map_eq_cons_iff.mp arriveGroup
      dsimp only at isWelcome isGroup
      obtain ⟨selected, stepSelect, selecting, command, commandsSelect, -⟩ :=
        started.select dateFormatter ids moreWelcome
      obtain ⟨waiting, stepHead, awaiting, sameCommand, commandsHead, -⟩ :=
        selecting.head dateFormatter isDigit tail moreGroup
      obtain ⟨closed, commands, store⟩ := awaiting_run dateFormatter awaiting reply.front
        (replies.map HeadReply.front) (by simpa using answered) reads
        (by rw [arriveReplies]; simp [HeadReply.text, Function.comp_def])
      rw [readSteps_cons, readSteps_cons, isWelcome, stepSelect, isGroup, stepHead]
      refine ⟨closed, ?_, ?_⟩
      · rw [commands, commandsHead, commandsSelect, headerCommands, if_neg (by simp)]
        simp
      · rw [store, sameCommand, command]
        rfl

/-! ## End to end -/

/-- Everything a complete run of the command does, from `session` to `later`. -/
structure Fetched (session later : Session ArticleGetMultipleHeadersCommand) (name : Text)
    (replies : List HeadReply) : Prop where
  commands : later.commands = session.commands ++ headerCommands name session.delegate.articleIds
  closed : later.reader.isOpen = false
  unique : later.delegate.rbox.realm.UniqueIds
  records : ∀ articleId reply, (articleId, reply) ∈ session.delegate.articleIds.zip replies →
    ∃ record, later.delegate.rbox.realm.recordOf articleId = some record ∧
      record.subject = reply.field "Subject".toList ∧
      record.contentType = reply.field "Content-Type".toList ∧
      record.size = reply.size.or ((session.delegate.rbox.realm.recordOf articleId).bind NewsGroupArticle.size)
  others : ∀ other ∉ session.delegate.articleIds,
    later.delegate.rbox.realm.recordOf other = session.delegate.rbox.realm.recordOf other
  posted : ∃ added, later.delegate.rbox.posted = session.delegate.rbox.posted ++ added ∧
    added.map some = session.delegate.articleIds.map fun articleId =>
      (later.delegate.rbox.realm.recordOf articleId).map fun record =>
        .articleHeaderAdded name (.ofArticle record)

theorem writeHeader_size (dateFormatter : Text → Text → Option Date) {reply : HeadReply}
    (wellFormed : reply.WellFormed) (record : NewsGroupArticle) :
    (writeHeader dateFormatter (headerOfText reply.front) record).size = reply.size.or record.size := by
  rw [writeHeader_eq, HeadReply.size]
  simp only [headerOfText_lookup wellFormed]
  cases reply.field "X-Received-Bytes".toList with
  | some bytes => rfl
  | none => rfl

theorem recordBefore_size (realm : Realm) (group : GroupRef) (articleId : Text) :
    (recordBefore realm group articleId).size = (realm.recordOf articleId).bind NewsGroupArticle.size := by
  unfold recordBefore
  cases realm.recordOf articleId <;> rfl

theorem headers_fetched (dateFormatter : Text → Text → Option Date) (asciiDecode : Bytes → Option Text)
    (session : Session ArticleGetMultipleHeadersCommand) (name : Text) (started : Started session name)
    (distinct : session.delegate.articleIds.Nodup) (unique : session.delegate.rbox.realm.UniqueIds)
    (replies : List HeadReply) (wellFormed : ∀ reply ∈ replies, reply.WellFormed)
    (answered : replies.length = session.delegate.articleIds.length) (digit : Char)
    (isDigit : digit.isDigit = true) (tail : Text) (events : List (List Bytes))
    (arrive : events.flatten =
      (serverTexts session.delegate.articleIds (groupReply digit tail) replies).map utf8) :
    Fetched session
      (session.receive (newsReaderDelegate dateFormatter) (events.map (·.map (Read.ofBytes asciiDecode))))
      name replies := by
  have reads : (markedEvents (events.map (·.map (Read.ofBytes asciiDecode)))).map Prod.fst =
      (serverTexts session.delegate.articleIds (groupReply digit tail) replies).map Read.ofText := by
    rw [markedEvents_map_fst, ← List.map_flatten, arrive, List.map_map]
    exact List.map_congr_left fun text _ => Read.ofBytes_utf8 asciiDecode text
  obtain ⟨closed, commands, store⟩ := started_run dateFormatter started replies answered isDigit tail _ reads
  obtain ⟨group, record, found, atGroup, isName⟩ := started.serves.found
  have files : Files session.delegate.rbox session.delegate.groupId group name :=
    ⟨unique, found, by rw [atGroup, Option.map_some, isName]⟩
  have keys : (session.delegate.articleIds.zip (replies.map HeadReply.front)).map Prod.fst =
      session.delegate.articleIds :=
    List.map_fst_zip (by simp [answered])
  obtain ⟨uniqueLater, records, others, posted⟩ := files.foldl_fill dateFormatter _
    (by rw [keys]; exact distinct)
  rw [← receive_eq_readSteps] at closed commands store
  rw [← store] at uniqueLater records others posted
  rw [keys] at others
  refine ⟨commands, closed, uniqueLater, ?_, others, _, posted, ?_⟩
  · intro articleId reply member
    have entry : (articleId, reply.front) ∈
        session.delegate.articleIds.zip (replies.map HeadReply.front) := by
      rw [List.zip_map_right]
      exact List.mem_map.mpr ⟨(articleId, reply), member, rfl⟩
    have replyWellFormed := wellFormed reply (List.of_mem_zip member).2
    refine ⟨_, records _ entry, ?_, ?_, ?_⟩
    · rw [filled, writeHeader_eq]
      exact headerOfText_lookup replyWellFormed _
    · rw [filled, writeHeader_eq]
      exact headerOfText_lookup replyWellFormed _
    · rw [filled, writeHeader_size dateFormatter replyWellFormed, recordBefore_size]
  · -- the posts carry the records as they are at the end, as no id comes twice
    have asked := congrArg (List.map fun articleId =>
      ((session.receive (newsReaderDelegate dateFormatter)
        (events.map (·.map (Read.ofBytes asciiDecode)))).delegate.rbox.realm.recordOf articleId).map
          fun record => Posted.articleHeaderAdded name (.ofArticle record)) keys
    rw [← asked, List.map_map, List.map_map]
    apply List.map_congr_left
    intro entry member
    simp [records entry member]

theorem headers_fetched_two :
    (fetchingTwo.receive (newsReaderDelegate fun _ _ => none)
      ([[utf8 welcomeLine], [utf8 (groupReply '2' " 7 8 alt.a\r\n".toList)],
        [utf8 (HeadReply.headers "7 head".toList [("Subject".toList, " Hello ".toList)]).text,
          utf8 (HeadReply.noSuchArticle []).text]].map (·.map (Read.ofBytes fun _ => none)))).commands =
      ["GROUP alt.a\n".toList, "HEAD 7\n".toList, "HEAD 8\n".toList] :=
  (headers_fetched (fun _ _ => none) (fun _ => none) fetchingTwo "alt.a".toList
    fetchingTwo_started (by decide) List.nodup_nil
    [.headers "7 head".toList [("Subject".toList, " Hello ".toList)], .noSuchArticle []]
    (by
      have subject : IsField ("Subject".toList, " Hello ".toList) := ⟨by decide, by decide, by decide⟩
      simp only [List.mem_cons, List.not_mem_nil, or_false, forall_eq_or_imp, forall_eq]
      exact ⟨⟨by decide, by simpa using subject, by decide⟩, (by decide : IsStatus [])⟩)
    rfl '2' rfl " 7 8 alt.a\r\n".toList _ rfl).commands

end EasyNews.Verified.HeaderFetching
