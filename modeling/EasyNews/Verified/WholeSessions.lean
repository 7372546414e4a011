import EasyNews.Verified.CommandSessions
import EasyNews.Verified.GroupListing
import EasyNews.Verified.GroupRefresh
import EasyNews.Verified.HeaderRequests
import EasyNews.Verified.LookUps

/-! # Whole sessions

What a command has done when its connection is closed again, for every server that lets it log in and gives its
reply, and for every way of cutting the reply into reads that complete a line each.
-/

namespace EasyNews.Verified.WholeSessions

open Session ArticleTransfer ArticleFraming WaitingRuns CommandSessions ArticleStore

/-! ## From the login to the block -/

/-- The reads of a session: the status lines one by one, then the block. -/
structure Transcript (control : List Text) (block : Text) (events : List (List Text)) : Prop where
  isControl : events.flatten.take control.length = control
  isBlock : (events.flatten.drop control.length).flatten = block
  framed : Framed [] ((markedEvents events).drop control.length)

theorem Transcript.reads {logins : List Text} {reply block : Text} {events : List (List Text)}
    (transcript : Transcript (logins ++ [reply]) block events) :
    ∃ front more back, markedEvents events = front ++ (reply, more) :: back ∧ front.map Prod.fst = logins ∧
      textOf back = block ∧ Framed [] back := by
  let control := logins ++ [reply]
  have isControl : ((markedEvents events).take control.length).map Prod.fst = control := by
    rw [List.map_take, markedEvents_map_fst, transcript.isControl]
  obtain ⟨front, lastRead, isFront, isLogin, isLast⟩ := List.map_eq_append_iff.mp isControl
  obtain ⟨⟨other, more⟩, rfl, rfl⟩ := List.map_eq_singleton_iff.mp isLast
  refine ⟨front, more, (markedEvents events).drop control.length, ?_, isLogin, ?_, transcript.framed⟩
  · have joined := List.take_append_drop control.length (markedEvents events)
    rw [isFront, List.append_assoc] at joined
    exact joined.symm
  · rw [textOf, List.flatMap_def, List.map_drop, markedEvents_map_fst, transcript.isBlock]

def easynews : Login where
  greeting := "200 news.easynews.com Welcome!\r\n".toList
  passRequired := "381 PASS required\r\n".toList
  loggedIn := "281 Welcome To Easynews.\r\n".toList
  isGreeting := by decide
  isPassRequired := by decide
  isLoggedIn := by decide

def opening {δ : Type} (delegate : δ) : Session δ where
  reader := { username := "ann".toList, password := "secret".toList, isOpen := true }
  delegate

theorem opening_opened {δ : Type} (delegate : δ) : Opened (opening delegate) := ⟨rfl, rfl, rfl⟩

section Asked

variable {δ : Type} {delegate : NewsReaderDelegate δ}

/-- The session when the command has reacted to the login: it has sent one command. -/
structure Asked (session asked : Session δ) (current : Operation) (command : Text) : Prop extends Opened asked where
  operation : asked.reader.currentOperation = some current
  delegate : asked.delegate = session.delegate
  commands : asked.commands = session.commands ++ (Login.commands session.reader ++ [command])

theorem Asked.follow {session asked : Session δ} {current : Operation} {command reply : Text}
    (isAsked : Asked session asked current command)
    (follows : recognise reply = some .newsGroupsFollow ∨ recognise reply = some .articleNumbersFollow) (more : Bool) :
    ∃ later, asked.readStep delegate more (.ofText reply) = later ∧ Coming current [] later ∧
      later.delegate = session.delegate ∧ later.commands = asked.commands := by
  have step : asked.readStep delegate more (.ofText reply) =
      (asked.log (.received (some reply))).update fun reader => { reader with resultsComing := true, response := [] } := by
    rw [isAsked.toOpened.readStep, processResponse]
    cases follows with
    | inl groups =>
      rw [groups]
      rfl
    | inr articles =>
      rw [articles]
      rfl
  refine ⟨_, step, ⟨isAsked.isOpen, rfl, isAsked.operation, rfl⟩, isAsked.delegate, ?_⟩
  exact commands_log_received (some reply) asked

/-- The status line behind GROUP, which is answered with the command that has been kept. -/
theorem Asked.select {session asked : Session δ} {current : Operation} {command reply : Text}
    (isAsked : Asked session asked current command) (selects : recognise reply = some .groupSelected)
    (kept : asked.reader.currentGroupCommand ≠ []) (more : Bool) :
    ∃ later, asked.readStep delegate more (.ofText reply) = later ∧ Coming current [] later ∧
      later.reader.article = asked.reader.article ∧ later.delegate = session.delegate ∧
      later.commands = asked.commands ++ [asked.reader.currentGroupCommand] := by
  have step : asked.readStep delegate more (.ofText reply) =
      ((asked.log (.received (some reply))).update fun reader =>
        { reader with resultsComing := true, response := [] }).log (.sent asked.reader.currentGroupCommand) := by
    rw [isAsked.toOpened.readStep, processResponse, selects]
    exact send_of_open (by exact isAsked.isOpen) (by exact kept)
  refine ⟨_, step, ⟨isAsked.isOpen, rfl, isAsked.operation, rfl⟩, rfl, isAsked.delegate, ?_⟩
  rw [commands_log_sent]
  exact congrArg (· ++ _) (commands_log_received (some reply) asked)

/-- Behind the login and the status line, the items of a list go to the command one batch after another. -/
theorem list_session {take : Callback → δ → δ} (collects : Collects delegate take) {current : Operation}
    {data : List Text → Callback} (lists : Lists current data) {session : Session δ} (opened : Opened session)
    (login : Login) {command reply : Text}
    (cue : Asked session ((delegate.handle (.notification .connected) (login.connected session)).setResponse [])
      current command)
    (follows : recognise reply = some .newsGroupsFollow ∨ recognise reply = some .articleNumbersFollow)
    {lines : List Text} (areItems : AreItems lines) {events : List (List Text)}
    (transcript : Transcript (login.texts ++ [reply]) (crlf.render (lines ++ [terminatorLine])) events) :
    ∃ batches : List (List Text), batches ≠ [] ∧ batches.flatten = lines ∧
      let later := session.readSteps delegate ((markedEvents events).map textRead)
      later.reader.isOpen = false ∧
        later.commands = session.commands ++ (Login.commands session.reader ++ [command]) ∧
        later.delegate = batches.foldl (fun command batch => take (data batch) command) session.delegate := by
  obtain ⟨front, more, back, reads, isLogin, isBlock, framed⟩ := transcript.reads
  obtain ⟨coming, step, isComing, delegateComing, commandsComing⟩ := cue.follow follows more
  obtain ⟨batches, nonempty, complete, closed, commands, delegateLater⟩ := isComing.listRun collects lists areItems framed
    (by rw [List.nil_append, isBlock]) (by simp [Delimited.Delimiter.render, Delimited.Delimiter.symbols])
  rw [crlf.completeLines_nil, List.nil_append] at complete
  have run : session.readSteps delegate ((markedEvents events).map textRead) =
      coming.readSteps delegate (back.map textRead) := by
    rw [reads, List.map_append, readSteps_append, opened.login login isLogin, ← step]
    rfl
  rw [run]
  refine ⟨batches, nonempty, complete, closed, ?_, ?_⟩
  · rw [commands, commandsComing, cue.commands]
  · rw [delegateLater, delegateComing]

end Asked

/-! ## The groups -/

section Groups

open GroupListing GroupRefresh

theorem asked_groups {session : Session ListGroupsCommand} (opened : Opened session) (login : Login) :
    Asked session
      ((ListGroupsCommand.newsReaderDelegate.handle (.notification .connected) (login.connected session)).setResponse [])
      .listGroups "LIST\n".toList := by
  have asks : ListGroupsCommand.newsReaderDelegate.handle (.notification .connected) (login.connected session) =
      ((login.connected session).update fun reader =>
        { reader with currentOperation := some .listGroups, response := [] }).log (.sent "LIST\n".toList) := by
    change (login.connected session).listGroups = _
    rw [listGroups, if_pos (by rfl)]
    exact send_of_open (by exact opened.isOpen) (by decide)
  rw [asks]
  refine ⟨⟨opened.isOpen, opened.results, rfl⟩, rfl, rfl, ?_⟩
  have sent := commands_log_sent "LIST\n".toList (login.connected session)
  rw [login.connected_commands, List.append_assoc] at sent
  exact sent

theorem areItems_text (lines : List ListLine) : AreItems (lines.map ListLine.text) := by
  intro text member
  obtain ⟨line, -, rfl⟩ := List.mem_map.mp member
  exact ⟨line.text_isLine, line.text_ne_nil, line.text_ne_terminatorLine⟩

theorem deliverGroups_posted (deliveries : List (List NewsGroup)) (command : ListGroupsCommand) :
    (deliverGroups deliveries command).rbox.posted =
      command.rbox.posted ++ List.replicate deliveries.length .groupsAdded := by
  induction deliveries generalizing command with
  | nil => simp [GroupRefresh.deliverGroups]
  | cons groups deliveries inductionHypothesis =>
    rw [GroupRefresh.deliverGroups, List.foldl_cons, ← GroupRefresh.deliverGroups, inductionHypothesis, List.length_cons,
      List.replicate_succ]
    simp [ListGroupsCommand.newsReaderGroups, ReaderBox.post]

theorem groups_run {session : Session ListGroupsCommand} (opened : Opened session) (login : Login) {reply : Text}
    (follows : recognise reply = some .newsGroupsFollow) (lines : List ListLine) {events : List (List Text)}
    (transcript : Transcript (login.texts ++ [reply])
      (crlf.render (lines.map ListLine.text ++ [terminatorLine])) events)
    (unique : (session.delegate.rbox.realm.groups.map NewsGroup.name).Nodup) :
    let later := session.readSteps ListGroupsCommand.newsReaderDelegate ((markedEvents events).map textRead)
    later.reader.isOpen = false ∧
      later.commands = session.commands ++ (Login.commands session.reader ++ ["LIST\n".toList]) ∧
      Upserted session.delegate.rbox.realm (lines.filterMap ListLine.group) later.delegate.rbox.realm ∧
      ∃ pieces, 0 < pieces ∧ later.delegate.rbox.posted =
        session.delegate.rbox.posted ++ List.replicate pieces .groupsAdded := by
  obtain ⟨batches, nonempty, complete, closed, commands, isDelegate⟩ :=
    list_session listGroups_collects listGroups_lists opened login (asked_groups opened login) (.inl follows)
      (areItems_text lines) transcript
  have delivered : batches.foldl (fun command batch => command.newsReaderGroups (batch.filterMap groupOfLine))
      session.delegate = deliverGroups (batches.map (·.filterMap groupOfLine)) session.delegate := by
    rw [GroupRefresh.deliverGroups, List.foldl_map]
  have groups : (batches.map (·.filterMap groupOfLine)).flatten = lines.filterMap ListLine.group := by
    rw [← List.filterMap_flatten, complete, List.filterMap_map]
    exact congrArg (List.filterMap · lines) (funext ListLine.groupOfLine_text)
  dsimp only at isDelegate ⊢
  rw [isDelegate, delivered]
  refine ⟨closed, commands, ?_, batches.length, List.length_pos_iff.mpr nonempty, ?_⟩
  · have upserted := writeGroups_upserted unique
      (session.delegate.draw (batches.map (·.filterMap groupOfLine)).flatten)
    rw [draw_map_fst, groups] at upserted
    rw [deliverGroups_realm, groups]
    exact upserted
  · rw [deliverGroups_posted, List.length_map]

/-- A session of `ListGroupsCommand` puts every group the server lists into the store, as one refresh would, where the
    filters find it, and tells the table each time. -/
theorem groups_session (asciiDecode : Bytes → Option Text) {session : Session ListGroupsCommand}
    (opened : Opened session) (login : Login) {reply : Text} (follows : recognise reply = some .newsGroupsFollow)
    (lines : List ListLine) {events : List (List Text)}
    (transcript : Transcript (login.texts ++ [reply])
      (crlf.render (lines.map ListLine.text ++ [terminatorLine])) events)
    (unique : (session.delegate.rbox.realm.groups.map NewsGroup.name).Nodup)
    (plain : ∀ group ∈ lines.filterMap ListLine.group, LookUps.Plain group.name) :
    let later := session.receive ListGroupsCommand.newsReaderDelegate
      (events.map (·.map fun text => Read.ofBytes asciiDecode (utf8 text)))
    later.reader.isOpen = false ∧
      later.commands = session.commands ++ (Login.commands session.reader ++ ["LIST\n".toList]) ∧
      Upserted session.delegate.rbox.realm (lines.filterMap ListLine.group) later.delegate.rbox.realm ∧
      (∀ containsCD other, ∀ group ∈ lines.filterMap ListLine.group, ∃ place,
        Filters.findGroupByName (Filters.ofGroups containsCD other) later.delegate.rbox.realm group.name =
          some (some place)) ∧
      ∃ pieces, 0 < pieces ∧ later.delegate.rbox.posted =
        session.delegate.rbox.posted ++ List.replicate pieces .groupsAdded := by
  rw [receive_textReads]
  obtain ⟨closed, written, upserted, posted⟩ := groups_run opened login follows lines transcript unique
  refine ⟨closed, written, upserted, fun containsCD other group member => ?_, posted⟩
  have stored := (upserted.names group.name).mpr (.inr (List.mem_map_of_mem member))
  exact LookUps.exists_findGroupByName containsCD other (plain group member) stored

/-- The list arrives in two reads, the first of which ends inside a line. -/
def groupEvents : List (List Text) :=
  easynews.texts.map ([·]) ++ [["215 NewsGroups Follow\r\n".toList], ["alt.test 120 7 y\r\n215 m".toList,
    "ore\r\ncomp.lang.c -1 0000000001 m\r\n.\r\n".toList]]

theorem groups_session_two_groups :
    let later := (opening oneKnown).receive ListGroupsCommand.newsReaderDelegate
      (groupEvents.map (·.map fun text => Read.ofBytes (fun _ => none) (utf8 text)))
    later.reader.isOpen = false ∧
      later.commands = (opening oneKnown).commands ++ (Login.commands (opening oneKnown).reader ++ ["LIST\n".toList]) ∧
      Upserted oneKnown.rbox.realm (GroupListing.twoGroups.filterMap ListLine.group) later.delegate.rbox.realm ∧
      (∀ containsCD other, ∀ group ∈ GroupListing.twoGroups.filterMap ListLine.group, ∃ place,
        Filters.findGroupByName (Filters.ofGroups containsCD other) later.delegate.rbox.realm group.name =
          some (some place)) ∧
      ∃ pieces, 0 < pieces ∧ later.delegate.rbox.posted = [] ++ List.replicate pieces .groupsAdded :=
  groups_session (fun _ => none) (opening_opened oneKnown) easynews
    (by decide : recognise "215 NewsGroups Follow\r\n".toList = some .newsGroupsFollow) GroupListing.twoGroups
    ⟨by decide, by decide, by decide⟩ (by decide) (by decide)

end Groups

/-! ## The ids of a group -/

section ArticleIds

variable {session : Session ListGroupGetArticleIdsCommand}

theorem asked_articles (opened : Opened session) (login : Login) :
    Asked session
      ((ListGroupGetArticleIdsCommand.newsReaderDelegate.handle (.notification .connected)
        (login.connected session)).setResponse [])
      .listGroupArticles (commandLine "LISTGROUP" session.delegate.groupName) := by
  have asks : ListGroupGetArticleIdsCommand.newsReaderDelegate.handle (.notification .connected)
      (login.connected session) =
      ((login.connected session).update fun reader =>
        { reader with currentOperation := some .listGroupArticles, response := [] }).log
          (.sent (commandLine "LISTGROUP" session.delegate.groupName)) := by
    change (login.connected session).listArticles session.delegate.groupName = _
    rw [listArticles, if_pos (by rfl)]
    exact send_of_open (by exact opened.isOpen) (commandLine_ne_nil _ _)
  rw [asks]
  refine ⟨⟨opened.isOpen, opened.results, rfl⟩, rfl, rfl, ?_⟩
  have sent := commands_log_sent (commandLine "LISTGROUP" session.delegate.groupName) (login.connected session)
  rw [login.connected_commands, List.append_assoc] at sent
  exact sent

/-- What a listing has done: the ids that were not known have a record of the group each, in the order of their first
    mention, and headers are asked for these and no others. -/
structure ArticlesListed (before : ReaderBox) (group : GroupRef) (groupName : Text) (articleIds : List Text)
    (later : ReaderBox) (added : List Text) : Prop where
  inOrder : added.Sublist articleIds
  distinct : added.Nodup
  unknown : ∀ articleId, articleId ∈ added ↔ articleId ∈ articleIds ∧ articleId ∉ before.realm.articleIds
  entries : later.realm.entries = before.realm.entries ++ added.map (some group, ·)
  posted : ∃ batches : List (List ArticleRef),
    later.posted = before.posted ++
      batches.flatMap (fun refs => [.groupUpdated group, .articleGetHeader groupName refs]) ∧
    batches.flatten.map (fun article => later.realm.articles[article]?.map (·.id)) = added.map some

section Listed

variable {before later : ReaderBox} {group : GroupRef} {groupName : Text} {articleIds added : List Text}
  (listed : ArticlesListed before group groupName articleIds later added)

include listed

theorem ArticlesListed.articleIds_eq : later.realm.articleIds = before.realm.articleIds ++ added := by
  rw [Realm.articleIds_eq_entries, listed.entries, List.map_append, ← Realm.articleIds_eq_entries, List.map_map]
  exact congrArg _ (List.map_id _)

theorem ArticlesListed.uniqueIds (unique : before.realm.UniqueIds) : later.realm.UniqueIds := by
  rw [Realm.UniqueIds, listed.articleIds_eq]
  refine List.Nodup.append unique listed.distinct fun articleId known isAdded => ?_
  exact ((listed.unknown articleId).mp isAdded).2 known

theorem ArticlesListed.mem_articleIds {articleId : Text} (member : articleId ∈ articleIds) :
    articleId ∈ later.realm.articleIds := by
  rw [listed.articleIds_eq, List.mem_append]
  by_cases known : articleId ∈ before.realm.articleIds
  · exact .inl known
  · exact .inr ((listed.unknown articleId).mpr ⟨member, known⟩)

end Listed

def deliverArticles (deliveries : List (List Text)) (command : ListGroupGetArticleIdsCommand) :
    ListGroupGetArticleIdsCommand :=
  deliveries.foldl (fun command articleIds => command.newsReaderArticles articleIds) command

theorem deliverArticles_grown (deliveries : List (List Text)) (command : ListGroupGetArticleIdsCommand)
    (unique : command.rbox.realm.UniqueIds) :
    let later := deliverArticles deliveries command
    Grown command.rbox.realm command.group deliveries.flatten 2 later.rbox.realm ∧
      ∃ batches : List (List ArticleRef),
        later.rbox.posted = command.rbox.posted ++ batches.flatMap
          (fun refs => [.groupUpdated command.group, .articleGetHeader command.groupName refs]) ∧
        batches.flatten = nextRefs command.rbox.realm
          (fresh command.rbox.realm (requestsOf command.group deliveries.flatten)).length := by
  induction deliveries generalizing command with
  | nil =>
    refine ⟨Grown.refl _ _ _, [], ?_, ?_⟩
    · simp [deliverArticles]
    · simp [fresh, requestsOf, nextRefs]
  | cons articleIds deliveries inductionHypothesis =>
    obtain ⟨written, new⟩ := writeArticles_grown unique command.group articleIds
    obtain ⟨grown, batches, posted, refs⟩ :=
      inductionHypothesis (command.newsReaderArticles articleIds) (written.uniqueIds unique)
    have split := HeaderRequests.fresh_append written.articleIds (requestsOf command.group deliveries.flatten)
    have joined : requestsOf command.group (articleIds :: deliveries).flatten =
        requestsOf command.group articleIds ++ requestsOf command.group deliveries.flatten := by
      simp [requestsOf]
    refine ⟨written.trans grown,
      (ListGroupGetArticleIdsCommand.writeArticles command.rbox.realm command.group articleIds).2 :: batches, ?_, ?_⟩
    · refine posted.trans ?_
      rw [List.flatMap_cons, ← List.append_assoc]
      refine congrArg (· ++ _) ?_
      simp [ListGroupGetArticleIdsCommand.newsReaderArticles, ListGroupGetArticleIdsCommand.postArticles,
        ReaderBox.post]
    · rw [joined, split, List.length_append, nextRefs_append written.articles_length, List.flatten_cons, new]
      exact congrArg (_ ++ ·) refs

theorem articles_run (opened : Opened session) (login : Login) {reply : Text}
    (follows : recognise reply = some .articleNumbersFollow) {articleIds : List Text} (areItems : AreItems articleIds)
    {events : List (List Text)}
    (transcript : Transcript (login.texts ++ [reply]) (crlf.render (articleIds ++ [terminatorLine])) events)
    (unique : session.delegate.rbox.realm.UniqueIds) :
    let later := session.readSteps ListGroupGetArticleIdsCommand.newsReaderDelegate ((markedEvents events).map textRead)
    later.reader.isOpen = false ∧
      later.commands = session.commands ++
        (Login.commands session.reader ++ [commandLine "LISTGROUP" session.delegate.groupName]) ∧
      ∃ added, ArticlesListed session.delegate.rbox session.delegate.group session.delegate.groupName articleIds
        later.delegate.rbox added := by
  obtain ⟨batches, -, rfl, closed, commands, isDelegate⟩ :=
    list_session listGroupArticles_collects listGroupArticles_lists opened login (asked_articles opened login)
      (.inr follows) areItems transcript
  have delivered : batches.foldl (fun command batch => command.newsReaderArticles batch) session.delegate =
      deliverArticles batches session.delegate := rfl
  obtain ⟨grown, refs, posted, all⟩ := deliverArticles_grown batches session.delegate unique
  dsimp only at isDelegate ⊢
  rw [isDelegate, delivered]
  refine ⟨closed, commands, (fresh session.delegate.rbox.realm
    (requestsOf session.delegate.group batches.flatten)).map Prod.snd, ?_, ?_, ?_, ?_, refs, posted, ?_⟩
  · have kept := (FirstMention.firsts_sublist Prod.snd session.delegate.rbox.realm.articleIds
      (requestsOf session.delegate.group batches.flatten)).map Prod.snd
    simpa [fresh, requestsOf, Function.comp_def] using kept
  · exact (List.nodup_append.mp (FirstMention.nodup_firsts Prod.snd unique _)).2.1
  · intro articleId
    rw [fresh, FirstMention.mem_keys_firsts]
    simp [requestsOf]
  · rw [grown.entries, List.map_map]
    refine congrArg (_ ++ ·) (List.map_congr_left fun request member => ?_)
    have asked := FirstMention.mem_of_mem_firsts Prod.snd member
    obtain ⟨articleId, -, rfl⟩ := List.mem_map.mp asked
    rfl
  · rw [all]
    have ids := HeaderRequests.map_nextRefs grown.articleIds
    rw [List.length_map] at ids
    exact ids

/-- A session of `ListGroupGetArticleIdsCommand`; the filter selects each listed article, and no other. -/
theorem articles_session (asciiDecode : Bytes → Option Text) (opened : Opened session) (login : Login) {reply : Text}
    (follows : recognise reply = some .articleNumbersFollow) {articleIds : List Text} (areItems : AreItems articleIds)
    {events : List (List Text)}
    (transcript : Transcript (login.texts ++ [reply]) (crlf.render (articleIds ++ [terminatorLine])) events)
    (unique : session.delegate.rbox.realm.UniqueIds) (plain : ∀ articleId ∈ articleIds, LookUps.Plain articleId) :
    let later := session.receive ListGroupGetArticleIdsCommand.newsReaderDelegate
      (events.map (·.map fun text => Read.ofBytes asciiDecode (utf8 text)))
    later.reader.isOpen = false ∧
      later.commands = session.commands ++
        (Login.commands session.reader ++ [commandLine "LISTGROUP" session.delegate.groupName]) ∧
      (∀ containsCD other, ∀ articleId ∈ articleIds, ∃ article,
        (Filters.ofArticles containsCD other).filter later.delegate.rbox.realm.articles (Filters.idFilter articleId) =
          some [article]) ∧
      ∃ added, ArticlesListed session.delegate.rbox session.delegate.group session.delegate.groupName articleIds
        later.delegate.rbox added := by
  rw [receive_textReads]
  obtain ⟨closed, written, added, listed⟩ := articles_run opened login follows areItems transcript unique
  refine ⟨closed, written, fun containsCD other articleId member => ?_, added, listed⟩
  exact LookUps.exists_filter_articleId containsCD other (plain articleId member) (listed.uniqueIds unique)
    (listed.mem_articleIds member)

/-- A group with one article, which is listed again. -/
def listingAgain : ListGroupGetArticleIdsCommand where
  rbox :=
    { realm :=
        { groups := [{ id := some "A".toList, name := "alt.a".toList, articles := [0, 0] }]
          articles :=
            [{ group := some 0, id := "7".toList, subject := none, contentType := none, date := none, size := none }] } }
  group := 0
  groupName := "alt.a".toList

def articleIdEvents : List (List Text) :=
  easynews.texts.map ([·]) ++ [["211 Article Numbers Follow\r\n".toList], ["7\r\n8".toList, "\r\n8\r\n.\r\n".toList]]

theorem articles_session_one_article :
    let later := (opening listingAgain).receive ListGroupGetArticleIdsCommand.newsReaderDelegate
      (articleIdEvents.map (·.map fun text => Read.ofBytes (fun _ => none) (utf8 text)))
    later.reader.isOpen = false ∧
      later.commands = (opening listingAgain).commands ++
        (Login.commands (opening listingAgain).reader ++ [commandLine "LISTGROUP" "alt.a".toList]) ∧
      (∀ containsCD other, ∀ articleId ∈ ["7".toList, "8".toList, "8".toList], ∃ article,
        (Filters.ofArticles containsCD other).filter later.delegate.rbox.realm.articles (Filters.idFilter articleId) =
          some [article]) ∧
      ∃ added, ArticlesListed listingAgain.rbox 0 "alt.a".toList ["7".toList, "8".toList, "8".toList]
        later.delegate.rbox added :=
  articles_session (fun _ => none) (opening_opened listingAgain) easynews
    (by decide : recognise "211 Article Numbers Follow\r\n".toList = some .articleNumbersFollow)
    (by decide : ∀ line ∈ ["7".toList, "8".toList, "8".toList], IsLine line ∧ line ≠ [] ∧ line ≠ terminatorLine)
    ⟨by decide, by decide, by decide⟩ (List.nodup_singleton _) (by decide)

end ArticleIds

/-! ## An article -/

section Article

variable {session : Session ArticleCommand}

/-- The command's group is in its realm, under this name. -/
def Serves (command : ArticleCommand) (name : Text) : Prop :=
  ∃ record, (command.rbox.realm.findGroupById command.groupId).bind (command.rbox.realm.groups[·]?) = some record ∧
    record.name = name

theorem asked_article (opened : Opened session) (login : Login) {name : Text} (serves : Serves session.delegate name) :
    let asked := (ArticleCommand.newsReaderDelegate.handle (.notification .connected)
      (login.connected session)).setResponse []
    Asked session asked .article (commandLine "GROUP" name) ∧
      asked.reader.currentGroupCommand = commandLine "ARTICLE" session.delegate.articleId ∧
      asked.reader.article = [] := by
  obtain ⟨record, found, rfl⟩ := serves
  have asks : ArticleCommand.newsReaderDelegate.handle (.notification .connected) (login.connected session) =
      ((login.connected session).update fun reader =>
        { reader with
          article := []
          articleId := session.delegate.articleId
          currentOperation := some .article
          response := []
          currentGroupCommand := commandLine "ARTICLE" session.delegate.articleId }).log
            (.sent (commandLine "GROUP" record.name)) := by
    have starts : ArticleCommand.newsReaderDelegate.handle (.notification .connected) (login.connected session) =
        (login.connected session).article record.name session.delegate.articleId := by
      change ArticleCommand.start (login.connected session) = _
      unfold ArticleCommand.start
      have same : (login.connected session).delegate = session.delegate := rfl
      simp only [same, found]
    rw [starts, Session.article, if_pos (by rfl)]
    dsimp only
    rw [if_neg (by simp [Login.connected, opened.results]), send_of_open (by exact opened.isOpen) (commandLine_ne_nil _ _)]
    rfl
  dsimp only
  rw [asks]
  refine ⟨⟨⟨opened.isOpen, opened.results, rfl⟩, rfl, rfl, ?_⟩, rfl, rfl⟩
  have sent := commands_log_sent (commandLine "GROUP" record.name) (login.connected session)
  rw [login.connected_commands, List.append_assoc] at sent
  exact sent

def articleCommands (session : Session ArticleCommand) (name : Text) : List Text :=
  session.commands ++ (Login.commands session.reader ++
    [commandLine "GROUP" name, commandLine "ARTICLE" session.delegate.articleId])

theorem article_run (opened : Opened session) (login : Login) {name : Text}
    (serves : Serves session.delegate name) {selected : Text} (selects : recognise selected = some .groupSelected)
    {lines : List Text} (areLines : ∀ line ∈ lines, IsLine line) (unfinished : terminatorLine ∉ lines)
    {received : Text} (part : received <+: crlf.render (lines ++ [terminatorLine])) {events : List (List Text)}
    (transcript : Transcript (login.texts ++ [selected]) received events) :
    let later := session.readSteps ArticleCommand.newsReaderDelegate ((markedEvents events).map textRead)
    later.commands = articleCommands session name ∧
      if received = crlf.render (lines ++ [terminatorLine]) then
        later.reader.isOpen = false ∧
          later.delegate =
            { session.delegate with
              articles := session.delegate.articles ++ [crlf.render (lines ++ [terminatorLine])] }
      else later.reader.isOpen = true ∧ later.delegate = session.delegate := by
  have blockLines : ∀ line ∈ lines ++ [terminatorLine], IsLine line := by
    intro line member
    cases List.mem_append.mp member with
    | inl inLines => exact areLines line inLines
    | inr isTerminator => exact List.mem_singleton.mp isTerminator ▸ terminatorLine_isLine
  obtain ⟨front, more, back, reads, isLogin, isBlock, framed⟩ := transcript.reads
  obtain ⟨asked, groupCommand, noArticle⟩ := asked_article opened login serves
  obtain ⟨coming, step, isComing, articleComing, delegateComing, commandsComing⟩ :=
    @Asked.select ArticleCommand ArticleCommand.newsReaderDelegate _ _ _ _ _ asked selects
      (by rw [groupCommand]; exact commandLine_ne_nil _ _) more
  have collecting : Collecting [] coming coming := ⟨isComing, by rw [articleComing, noArticle]; rfl, rfl, rfl⟩
  have run : session.readSteps ArticleCommand.newsReaderDelegate ((markedEvents events).map textRead) =
      coming.readSteps ArticleCommand.newsReaderDelegate (back.map textRead) := by
    rw [reads, List.map_append, readSteps_append, opened.login login isLogin, ← step]
    rfl
  have outcome := collecting.readSteps article_collects blockLines unfinished framed
    (by rw [List.nil_append, isBlock]; exact part) (by simp [Delimited.Delimiter.render, Delimited.Delimiter.symbols])
  have commandsBefore : coming.commands = articleCommands session name := by
    rw [commandsComing, groupCommand, asked.commands, articleCommands]
    simp
  rw [List.nil_append, isBlock] at outcome
  dsimp only
  rw [run]
  split at outcome
  · next whole =>
    rw [if_pos whole]
    exact ⟨outcome.commands.trans commandsBefore, outcome.closed, outcome.delegate.trans (by rw [delegateComing]; rfl)⟩
  · next notWhole =>
    rw [if_neg notWhole]
    exact ⟨outcome.commands.trans commandsBefore, outcome.isOpen, outcome.delegate.trans delegateComing⟩

/-- A session of `ArticleCommand`: when all lines of the reply have come, the view has been given the article, once and
    as it was sent, and the connection is closed. As long as the dot is missing, the view has been given nothing and
    the connection is open. -/
theorem article_session (asciiDecode : Bytes → Option Text) (opened : Opened session) (login : Login) {name : Text}
    (serves : Serves session.delegate name) {selected : Text} (selects : recognise selected = some .groupSelected)
    {lines : List Text} (areLines : ∀ line ∈ lines, IsLine line) (unfinished : terminatorLine ∉ lines)
    {received : Text} (part : received <+: crlf.render (lines ++ [terminatorLine])) {events : List (List Text)}
    (transcript : Transcript (login.texts ++ [selected]) received events) :
    let later := session.receive ArticleCommand.newsReaderDelegate
      (events.map (·.map fun text => Read.ofBytes asciiDecode (utf8 text)))
    later.commands = articleCommands session name ∧
      if received = crlf.render (lines ++ [terminatorLine]) then
        later.reader.isOpen = false ∧
          later.delegate =
            { session.delegate with
              articles := session.delegate.articles ++ [crlf.render (lines ++ [terminatorLine])] }
      else later.reader.isOpen = true ∧ later.delegate = session.delegate := by
  rw [receive_textReads]
  exact article_run opened login serves selects areLines unfinished part transcript

def readingSeven : ArticleCommand where
  rbox := listingAgain.rbox
  groupId := "A".toList
  articleId := "7".toList

def articleEvents : List (List Text) :=
  easynews.texts.map ([·]) ++ [["211 1 7 7 alt.a\r\n".toList], ["220 7\r\nbo".toList, "dy\r\n.\r\n".toList]]

theorem article_session_seven :
    let later := (opening readingSeven).receive ArticleCommand.newsReaderDelegate
      (articleEvents.map (·.map fun text => Read.ofBytes (fun _ => none) (utf8 text)))
    later.commands = articleCommands (opening readingSeven) "alt.a".toList ∧
      if "220 7\r\nbody\r\n.\r\n".toList = crlf.render (["220 7".toList, "body".toList] ++ [terminatorLine]) then
        later.reader.isOpen = false ∧
          later.delegate =
            { readingSeven with
              articles := [] ++ [crlf.render (["220 7".toList, "body".toList] ++ [terminatorLine])] }
      else later.reader.isOpen = true ∧ later.delegate = readingSeven :=
  article_session (fun _ => none) (opening_opened readingSeven) easynews ⟨_, rfl, rfl⟩
    (by decide : recognise "211 1 7 7 alt.a\r\n".toList = some .groupSelected)
    (by decide : ∀ line ∈ ["220 7".toList, "body".toList], IsLine line) (by decide)
    (by decide : "220 7\r\nbody\r\n.\r\n".toList <+: crlf.render (["220 7".toList, "body".toList] ++ [terminatorLine]))
    ⟨by decide, by decide, by decide⟩

end Article

end EasyNews.Verified.WholeSessions
