import EasyNews.ConfinedClients
import EasyNews.HeaderRuns
import EasyNews.Verified.HeaderRequests
import EasyNews.Verified.SharedStore

/-! # What one read of a command's reader does

Whatever the server sends, the reader of a command writes only what the command may ask for, and the
command writes only its own deliveries to the store: groups, new articles of its group, or headers of
the articles it was made for.
-/

namespace EasyNews.Verified.CommandReads

open Realm ArticleStore HeaderRequests SharedStore

/-! ## The commands are confined -/

/-- The group with this id has this name. -/
def Named (groupId name : Text) (realm : Realm) : Prop :=
  ∀ group record, realm.findGroupById groupId = some group → realm.groups[group]? = some record → record.name = name

theorem confined_listGroups (supply : Nat → Drawn) :
    ListGroupsCommand.client.Confined (fun command => command.supply = supply)
      (fun request => request = .listGroups ∨ request = .close)
      fun command later => ∃ groups, later = command.newsReaderGroups groups where
  stays callback command _ _ inside _ := by
    cases callback with
    | notification notification => cases notification <;> exact inside
    | _ => exact inside
  steps callback command _ _ inside _ := by
    cases callback with
    | notification notification => cases notification <;> exact .refl
    | groups groups => exact .single ⟨groups, rfl⟩
    | _ => exact .refl
  asks callback command _ _ inside _ := by
    cases callback with
    | notification notification => cases notification <;> simp [ListGroupsCommand.client]
    | _ => simp [ListGroupsCommand.client]

theorem confined_listArticles (group : GroupRef) (groupName : Text) :
    ListGroupGetArticleIdsCommand.client.Confined (fun command => command.group = group ∧ command.groupName = groupName)
      (fun request => request = .listArticles groupName ∨ request = .close)
      fun command later => ∃ articleIds, later = command.newsReaderArticles articleIds where
  stays callback command _ _ inside _ := by
    cases callback with
    | notification notification => cases notification <;> exact inside
    | _ => exact inside
  steps callback command _ _ inside _ := by
    cases callback with
    | notification notification => cases notification <;> exact .refl
    | articles articleIds => exact .single ⟨articleIds, rfl⟩
    | _ => exact .refl
  asks callback command _ _ inside _ := by
    cases callback with
    | notification notification => cases notification <;> simp [ListGroupGetArticleIdsCommand.client, inside.2]
    | _ => simp [ListGroupGetArticleIdsCommand.client]

/-- A command that asks for the headers of these articles, in the group of this id and name. -/
structure AsksHeaders (groupId name : Text) (articleIds : List Text) (command : ArticleGetMultipleHeadersCommand) :
    Prop where
  ofGroup : command.groupId = groupId
  ofArticles : command.articleIds = articleIds
  named : Named groupId name command.rbox.realm

def HeaderRequest (name : Text) (articleIds : List Text) (request : Request) : Prop :=
  request = .close ∨ ∃ articleId ∈ articleIds, request = .articleHeader name articleId

theorem newsReaderArticleHeader_groups (dateFormatter : Text → Text → Option Date)
    (command : ArticleGetMultipleHeadersCommand) (articleId : Text) (header : Header) :
    (command.newsReaderArticleHeader dateFormatter articleId header).rbox.realm.groups.map identity =
      command.rbox.realm.groups.map identity := by
  unfold ArticleGetMultipleHeadersCommand.newsReaderArticleHeader
  split
  · exact findOrCreateGroupArticle_groups_map identity (fun _ _ => rfl) _ _ _
  · rfl

theorem Named.congr {groupId name : Text} {realm later : Realm} (named : Named groupId name realm)
    (same : later.groups.map identity = realm.groups.map identity) : Named groupId name later := by
  intro group record found here
  have backwards : Continues later { realm with articles := later.articles } :=
    continues_of_map same.symm (List.prefix_refl _)
  obtain ⟨other, there, -, sameName⟩ := backwards.group here
  rw [← sameName]
  exact named group other (backwards.findGroupById found) there

theorem mem_of_headerRequest {name articleId : Text} {articleIds : List Text} {request : Request}
    (isHeader : HeaderRequest name articleIds request) (ofId : request.articleId? = some articleId) :
    articleId ∈ articleIds := by
  obtain rfl | ⟨other, member, rfl⟩ := isHeader
  · cases ofId
  · exact Option.some.inj ofId ▸ member

theorem AsksHeaders.nextRequest {groupId name : Text} {articleIds : List Text}
    {command : ArticleGetMultipleHeadersCommand} (asks : AsksHeaders groupId name articleIds command) :
    AsksHeaders groupId name articleIds command.nextRequest.1 ∧
      (∃ idx, command.nextRequest.1 = { command with idx }) ∧
      ∀ request ∈ command.nextRequest.2, HeaderRequest name articleIds request := by
  unfold ArticleGetMultipleHeadersCommand.nextRequest
  dsimp only
  split
  · rename_i record found
    obtain ⟨group, isGroup, here⟩ := Option.bind_eq_some_iff.mp found
    rw [asks.ofGroup] at isGroup
    split
    · rename_i articleId next
      refine ⟨⟨asks.ofGroup, asks.ofArticles, asks.named⟩, ⟨_, rfl⟩, ?_⟩
      intro request member
      rw [List.mem_singleton.mp member, asks.named group record isGroup here]
      exact Or.inr ⟨articleId, asks.ofArticles ▸ List.mem_of_getElem? next, rfl⟩
    · refine ⟨asks, ⟨_, rfl⟩, ?_⟩
      intro request member
      exact Or.inl (List.mem_singleton.mp member)
  · exact ⟨asks, ⟨_, rfl⟩, fun _ member => absurd member List.not_mem_nil⟩

theorem confined_getHeaders (dateFormatter : Text → Text → Option Date) (groupId name : Text) (articleIds : List Text) :
    (ArticleGetMultipleHeadersCommand.client dateFormatter).Confined (AsksHeaders groupId name articleIds)
      (HeaderRequest name articleIds)
      fun command later => (∃ articleId ∈ articleIds, ∃ header,
        later = command.newsReaderArticleHeader dateFormatter articleId header) ∨ ∃ idx, later = { command with idx } where
  stays callback command _ _ asks answers := by
    cases callback with
    | notification notification =>
      cases notification with
      | connected => exact asks.nextRequest.1
      | nextArticle => exact asks.nextRequest.1
      | _ => exact asks
    | articleHeader articleId header =>
      obtain ⟨sameIds, sameGroup, -⟩ := HeaderRuns.newsReaderArticleHeader_keeps dateFormatter command articleId header
      exact ⟨sameGroup.trans asks.ofGroup, sameIds.trans asks.ofArticles,
        asks.named.congr (newsReaderArticleHeader_groups dateFormatter command articleId header)⟩
    | _ => exact asks
  steps callback command _ _ asks answers := by
    cases callback with
    | notification notification =>
      cases notification with
      | connected => exact .single (Or.inr asks.nextRequest.2.1)
      | nextArticle => exact .single (Or.inr asks.nextRequest.2.1)
      | _ => exact .refl
    | articleHeader articleId header =>
      -- a header is handed on under an id that was asked for
      obtain ⟨request, isHeader, ofId⟩ := answers
      exact .single (Or.inl ⟨articleId, mem_of_headerRequest isHeader ofId, header, rfl⟩)
    | _ => exact .refl
  asks callback command _ _ asks answers := by
    cases callback with
    | notification notification =>
      cases notification with
      | connected => exact asks.nextRequest.2.2
      | nextArticle => exact asks.nextRequest.2.2
      | done =>
        intro request member
        exact Or.inl (List.mem_singleton.mp member)
      | connectionFailed => exact fun _ member => absurd member List.not_mem_nil
      | disconnected => exact fun _ member => absurd member List.not_mem_nil
    | _ => exact fun _ member => absurd member List.not_mem_nil

/-- A command that asks for this article, in the group of this id and name. -/
structure AsksArticle (groupId name articleId : Text) (command : ArticleCommand) : Prop where
  ofGroup : command.groupId = groupId
  ofArticle : command.articleId = articleId
  named : Named groupId name command.rbox.realm

theorem confined_getArticle (groupId name articleId : Text) :
    ArticleCommand.client.Confined (AsksArticle groupId name articleId)
      (fun request => request = .close ∨ request = .article name articleId)
      fun command later => ∃ article, later = command.newsReaderArticle article where
  stays callback command _ _ asks _ := by
    cases callback with
    | notification notification => cases notification <;> exact asks
    | article article => exact ⟨asks.ofGroup, asks.ofArticle, asks.named⟩
    | _ => exact asks
  steps callback command _ _ asks _ := by
    cases callback with
    | notification notification => cases notification <;> exact .refl
    | article article => exact .single ⟨article, rfl⟩
    | _ => exact .refl
  asks callback command _ _ asks _ := by
    cases callback with
    | notification notification =>
      cases notification with
      | connected =>
        dsimp only [ArticleCommand.client, ArticleCommand.startRequest]
        split
        · rename_i record found
          obtain ⟨group, isGroup, here⟩ := Option.bind_eq_some_iff.mp found
          rw [asks.ofGroup] at isGroup
          intro request member
          rw [List.mem_singleton.mp member, asks.named group record isGroup here, asks.ofArticle]
          exact Or.inr rfl
        · exact fun _ member => absurd member List.not_mem_nil
      | done =>
        intro request member
        exact Or.inl (List.mem_singleton.mp member)
      | _ => exact fun _ member => absurd member List.not_mem_nil
    | _ => exact fun _ member => absurd member List.not_mem_nil

/-! ## What a read does to the store -/

/-- The group of this id is there, under this name. -/
def Serves (realm : Realm) (groupId : Text) (group : GroupRef) (name : Text) : Prop :=
  realm.findGroupById groupId = some group ∧ realm.groups[group]?.map NewsGroup.name = some name

theorem Serves.named {realm : Realm} {groupId name : Text} {group : GroupRef} (serves : Serves realm groupId group name) :
    Named groupId name realm := by
  intro other record found here
  obtain ⟨isGroup, isName⟩ := serves
  rw [isGroup] at found
  cases found
  rw [here] at isName
  exact Option.some.inj isName

theorem Serves.continues {realm later : Realm} {groupId name : Text} {group : GroupRef}
    (serves : Serves realm groupId group name) (continues : Continues realm later) :
    Serves later groupId group name := by
  obtain ⟨record, here, isName⟩ := Option.map_eq_some_iff.mp serves.2
  obtain ⟨other, there, -, sameName⟩ := continues.group here
  exact ⟨continues.findGroupById serves.1, by rw [there, Option.map_some, sameName, isName]⟩

/-- What a command is between two reads. -/
def CommandSound (env : Environment) (realm : Realm) : RunningCommand → Prop
  | .listGroups session =>
    session.Confined (env.username, env.password) (fun command => command.supply = env.supply)
      fun request => request = .listGroups ∨ request = .close
  | .listArticles session =>
    realm.groups[session.delegate.group]?.map NewsGroup.name = some session.delegate.groupName ∧
      session.Confined (env.username, env.password)
        (fun command => command.group = session.delegate.group ∧ command.groupName = session.delegate.groupName)
        fun request => request = .listArticles session.delegate.groupName ∨ request = .close
  | .getHeaders session => ∃ group name, Serves realm session.delegate.groupId group name ∧
      (∀ articleId ∈ session.delegate.articleIds, (some group, articleId) ∈ realm.entries) ∧
      session.Confined (env.username, env.password)
        (AsksHeaders session.delegate.groupId name session.delegate.articleIds)
        (HeaderRequest name session.delegate.articleIds)
  | .getArticle _ session => ∃ group name, Serves realm session.delegate.groupId group name ∧
      (some group, session.delegate.articleId) ∈ realm.entries ∧
      session.Confined (env.username, env.password)
        (AsksArticle session.delegate.groupId name session.delegate.articleId)
        fun request => request = .close ∨ request = .article name session.delegate.articleId

/-- What is posted names the group of the articles it is about. -/
def PostedSound (realm : Realm) : Posted → Prop
  | .articleGetHeader groupName articleRefs => ∃ group : GroupRef,
      realm.groups[group]?.map NewsGroup.name = some groupName ∧
        ∀ article ∈ articleRefs, ∃ articleId, realm.entries[article]? = some (some group, articleId)
  | .articleHeaderAdded groupName article => ∃ group : GroupRef,
      realm.groups[group]?.map NewsGroup.name = some groupName ∧ (some group, article.id) ∈ realm.entries
  | _ => True

section Continued

variable {env : Environment} {realm later : Realm} (grows : Continues realm later)

include grows

theorem Continues.name {group : GroupRef} {name : Text} (isName : realm.groups[group]?.map NewsGroup.name = some name) :
    later.groups[group]?.map NewsGroup.name = some name := by
  obtain ⟨record, here, same⟩ := Option.map_eq_some_iff.mp isName
  obtain ⟨other, there, -, sameName⟩ := grows.group here
  rw [there, Option.map_some, sameName, same]

theorem Continues.entry? {place : Nat} {entry : Option GroupRef × Text} (here : realm.entries[place]? = some entry) :
    later.entries[place]? = some entry := by
  obtain ⟨more, joined⟩ := grows.entries
  rw [← joined, List.getElem?_append_left (List.getElem?_eq_some_iff.mp here).1, here]

theorem PostedSound.continues {posted : Posted} (sound : PostedSound realm posted) : PostedSound later posted := by
  cases posted with
  | articleGetHeader groupName articleRefs =>
    obtain ⟨group, isName, owned⟩ := sound
    refine ⟨group, Continues.name grows isName, fun article member => ?_⟩
    obtain ⟨articleId, here⟩ := owned article member
    exact ⟨articleId, Continues.entry? grows here⟩
  | articleHeaderAdded groupName article =>
    obtain ⟨group, isName, owned⟩ := sound
    exact ⟨group, Continues.name grows isName, grows.entry owned⟩
  | _ => trivial

theorem CommandSound.continues {command : RunningCommand} (sound : CommandSound env realm command) :
    CommandSound env later command := by
  cases command with
  | listGroups session => exact sound
  | listArticles session => exact ⟨Continues.name grows sound.1, sound.2⟩
  | getHeaders session =>
    obtain ⟨group, name, serves, stored, confined⟩ := sound
    exact ⟨group, name, serves.continues grows, fun articleId member => grows.entry (stored articleId member),
      confined⟩
  | getArticle tab session =>
    obtain ⟨group, name, serves, stored, confined⟩ := sound
    exact ⟨group, name, serves.continues grows, grows.entry stored, confined⟩

end Continued

/-- The ids of the articles whose headers a command is to get. -/
def headerIds : RunningCommand → List Text
  | .getHeaders session => session.delegate.articleIds
  | _ => []

/-- The name of the group whose articles a command lists. -/
def listedGroup : RunningCommand → Option Text
  | .listArticles session => some session.delegate.groupName
  | _ => none

/-- What one read does. -/
structure ReadSound (env : Environment) (store : Store) (command : RunningCommand) (outcome : ReadOutcome) : Prop where
  storeSound : StoreSound env.supply outcome.store
  continues : Continues store.realm outcome.store.realm
  commandSound : CommandSound env outcome.store.realm outcome.command
  sameHeaders : headerIds outcome.command = headerIds command
  sameListed : listedGroup outcome.command = listedGroup command
  sameTab : outcome.command.tab? = command.tab?
  postedSound : ∀ posted ∈ outcome.posted, PostedSound outcome.store.realm posted
  announced : ∀ groupName articleRefs, .articleGetHeader groupName articleRefs ∈ outcome.posted →
    listedGroup command = some groupName
  requested : ∃ count, outcome.store.realm.articles.length = store.realm.articles.length + count ∧
    outcome.posted.flatMap articleRefs = nextRefs store.realm count

theorem entries_length (realm : Realm) : realm.entries.length = realm.articles.length := by simp [Realm.entries]

theorem nextRefs_zero (realm : Realm) : nextRefs realm 0 = [] := rfl

theorem entry_of_mem_nextRefs {realm later : Realm} {group : GroupRef} {added : List Text}
    (entries : later.entries = realm.entries ++ added.map (some group, ·)) {article : Nat}
    (isNew : article ∈ nextRefs realm added.length) :
    ∃ articleId, later.entries[article]? = some (some group, articleId) := by
  rw [nextRefs, List.mem_range'_1, ← entries_length] at isNew
  have inside : article - realm.entries.length < added.length := by omega
  refine ⟨added[article - realm.entries.length], ?_⟩
  rw [entries, List.getElem?_append_right isNew.1, List.getElem?_map, List.getElem?_eq_getElem inside]
  rfl

section Reads

variable {env : Environment} (supplied : Function.Injective fun place => (env.supply place).uuidString) {store : Store}
  (sound : StoreSound env.supply store) (more : Bool) (read : Read)

include sound

include supplied in
theorem read_listGroups {session : Session ListGroupsCommand}
    (isCommand : CommandSound env store.realm (.listGroups session)) :
    ReadSound env store (.listGroups session) ((RunningCommand.listGroups session).read env more read store) := by
  let start : ListGroupsCommand := { session.delegate with rbox := { realm := store.realm }, drawn := store.drawn }
  have supply : start.supply = env.supply := isCommand.within
  have reached := isCommand.readStep (confined_listGroups env.supply) supply more read
  rw [ListGroupsCommand.delegate_client] at reached
  have delivered : ∀ command : ListGroupsCommand,
      Relation.ReflTransGen (fun command later => ∃ groups, later = command.newsReaderGroups groups) start command →
      command.supply = env.supply ∧ StoreSound env.supply ⟨command.rbox.realm, command.drawn⟩ ∧
        Continues store.realm command.rbox.realm ∧ command.rbox.realm.entries = store.realm.entries ∧
        ∀ posted ∈ command.rbox.posted, posted = .groupsAdded := by
    intro command moved
    induction moved with
    | refl => exact ⟨supply, sound, Continues.refl _, rfl, fun _ member => absurd member List.not_mem_nil⟩
    | tail _ delivery inductionHypothesis =>
      obtain ⟨groups, rfl⟩ := delivery
      obtain ⟨supply, soundHere, continues, entries, posted⟩ := inductionHypothesis
      obtain ⟨soundLater, continuesLater, entriesLater⟩ := soundHere.newsReaderGroups supplied supply groups
      refine ⟨supply, soundLater, continues.trans continuesLater, entriesLater.trans entries, ?_⟩
      intro other member
      rcases List.mem_append.mp member with earlier | last
      · exact posted other earlier
      · exact List.mem_singleton.mp last
  obtain ⟨-, soundLater, continues, entries, posted⟩ := delivered _ reached.moved
  refine ⟨soundLater, continues, reached.confined, rfl, rfl, rfl, ?_, ?_, 0, ?_, ?_⟩
  · intro other member
    rw [posted other member]
    trivial
  · intro groupName articleRefs member
    cases posted _ member
  · rw [Nat.add_zero, ← entries_length, ← entries_length]
    exact congrArg List.length entries
  · rw [nextRefs_zero, List.flatMap_eq_nil_iff]
    intro other member
    rw [posted other member]
    rfl

theorem read_listArticles {session : Session ListGroupGetArticleIdsCommand}
    (isCommand : CommandSound env store.realm (.listArticles session)) :
    ReadSound env store (.listArticles session) ((RunningCommand.listArticles session).read env more read store) := by
  obtain ⟨isName, confined⟩ := isCommand
  let group := session.delegate.group
  let groupName := session.delegate.groupName
  let start : ListGroupGetArticleIdsCommand := { session.delegate with rbox := { realm := store.realm } }
  have inside : start.group = group ∧ start.groupName = groupName := ⟨rfl, rfl⟩
  have reached := confined.readStep (confined_listArticles group groupName) inside more read
  rw [ListGroupGetArticleIdsCommand.delegate_client] at reached
  have delivered : ∀ command : ListGroupGetArticleIdsCommand,
      Relation.ReflTransGen (fun command later => ∃ articleIds, later = command.newsReaderArticles articleIds)
        start command →
      command.group = group ∧ command.groupName = groupName ∧
        StoreSound env.supply ⟨command.rbox.realm, store.drawn⟩ ∧ Continues store.realm command.rbox.realm ∧
        (∀ posted ∈ command.rbox.posted, PostedSound command.rbox.realm posted ∧
          ∀ otherName articleRefs, posted = .articleGetHeader otherName articleRefs → otherName = groupName) ∧
        ∃ count, command.rbox.realm.articles.length = store.realm.articles.length + count ∧
          command.rbox.posted.flatMap articleRefs = nextRefs store.realm count := by
    intro command moved
    induction moved with
    | refl =>
      exact ⟨rfl, rfl, sound, Continues.refl _, fun _ member => absurd member List.not_mem_nil, 0, rfl, rfl⟩
    | tail _ delivery inductionHypothesis =>
      obtain ⟨articleIds, rfl⟩ := delivery
      rename_i command _
      obtain ⟨sameGroup, sameName, soundHere, continues, posted, count, length, refs⟩ := inductionHypothesis
      have nameHere := Continues.name continues isName
      have known : command.group < command.rbox.realm.groups.length := by
        obtain ⟨record, here, -⟩ := Option.map_eq_some_iff.mp nameHere
        rw [sameGroup]
        exact (List.getElem?_eq_some_iff.mp here).1
      obtain ⟨soundLater, continuesLater, added, entries, postedLater⟩ := soundHere.newsReaderArticles known articleIds
      have lengthLater : (command.newsReaderArticles articleIds).rbox.realm.articles.length =
          command.rbox.realm.articles.length + added.length := by
        have both := congrArg List.length entries
        simpa [entries_length] using both
      refine ⟨sameGroup, sameName, soundLater, continues.trans continuesLater, ?_, count + added.length, ?_, ?_⟩
      · intro other member
        rw [postedLater] at member
        rcases List.mem_append.mp member with earlier | last
        · exact ⟨(posted other earlier).1.continues continuesLater, (posted other earlier).2⟩
        · simp only [List.mem_cons, List.not_mem_nil, or_false] at last
          rcases last with rfl | rfl
          · exact ⟨trivial, fun _ _ same => by cases same⟩
          · refine ⟨⟨group, ?_, ?_⟩, ?_⟩
            · rw [sameName]
              exact Continues.name continuesLater nameHere
            · rw [← sameGroup]
              exact fun article isNew => entry_of_mem_nextRefs entries isNew
            · intro otherName articleRefs same
              cases same
              exact sameName
      · rw [lengthLater, length, Nat.add_assoc]
      · rw [postedLater, List.flatMap_append, refs, nextRefs_append length]
        simp [articleRefs]
  obtain ⟨sameGroup, sameName, soundLater, continues, posted, requested⟩ := delivered _ reached.moved
  have confinedLater := reached.confined
  have nameLater := Continues.name continues isName
  have isCommand : ((RunningCommand.listArticles session).read env more read store).command =
      .listArticles ((session.assign start).readStep ListGroupGetArticleIdsCommand.newsReaderDelegate more read) := rfl
  refine ⟨soundLater, continues, ?_, rfl, congrArg some sameName, rfl, fun other member => (posted other member).1,
    ?_, requested⟩
  · rw [isCommand, CommandSound, sameGroup, sameName]
    exact ⟨Continues.name continues isName, reached.confined⟩
  · intro otherName articleRefs member
    exact congrArg some ((posted _ member).2 otherName articleRefs rfl).symm

theorem read_getHeaders {session : Session ArticleGetMultipleHeadersCommand}
    (isCommand : CommandSound env store.realm (.getHeaders session)) :
    ReadSound env store (.getHeaders session) ((RunningCommand.getHeaders session).read env more read store) := by
  obtain ⟨group, name, serves, stored, confined⟩ := isCommand
  let groupId := session.delegate.groupId
  let articleIds := session.delegate.articleIds
  let start : ArticleGetMultipleHeadersCommand := { session.delegate with rbox := { realm := store.realm } }
  have inside : AsksHeaders groupId name articleIds start := ⟨rfl, rfl, serves.named⟩
  have reached := confined.readStep (confined_getHeaders env.dateFormatter groupId name articleIds) inside more read
  rw [ArticleGetMultipleHeadersCommand.delegate_client] at reached
  have delivered : ∀ command : ArticleGetMultipleHeadersCommand,
      Relation.ReflTransGen (fun command later => (∃ articleId ∈ articleIds, ∃ header,
        later = command.newsReaderArticleHeader env.dateFormatter articleId header) ∨
          ∃ idx, later = { command with idx }) start command →
      command.groupId = groupId ∧ command.articleIds = articleIds ∧
        StoreSound env.supply ⟨command.rbox.realm, store.drawn⟩ ∧ command.rbox.realm.groups = store.realm.groups ∧
        command.rbox.realm.entries = store.realm.entries ∧
        ∀ posted ∈ command.rbox.posted, ∃ article : ArticleVM, article.id ∈ articleIds ∧
          posted = .articleHeaderAdded name article := by
    intro command moved
    induction moved with
    | refl => exact ⟨rfl, rfl, sound, rfl, rfl, fun _ member => absurd member List.not_mem_nil⟩
    | tail _ delivery inductionHypothesis =>
      rename_i command later _
      obtain ⟨sameGroup, sameIds, soundHere, groups, entries, posted⟩ := inductionHypothesis
      rcases delivery with ⟨articleId, member, header, rfl⟩ | ⟨idx, rfl⟩
      · obtain ⟨keptIds, keptGroup, -⟩ :=
          HeaderRuns.newsReaderArticleHeader_keeps env.dateFormatter command articleId header
        have here : Serves command.rbox.realm command.groupId group name := by
          rw [sameGroup]
          exact serves.continues (continues_of_map (congrArg _ groups) (entries ▸ List.prefix_refl _))
        obtain ⟨record, isRecord, isName⟩ := Option.map_eq_some_iff.mp here.2
        have known : articleId ∈ command.rbox.realm.articleIds := by
          rw [articleIds_eq_entries, entries]
          exact List.mem_map.mpr ⟨_, stored articleId member, rfl⟩
        obtain ⟨soundLater, groupsLater, entriesLater, article, isArticle, postedLater⟩ :=
          soundHere.newsReaderArticleHeader env.dateFormatter here.1 isRecord known header
        refine ⟨keptGroup.trans sameGroup, keptIds.trans sameIds, soundLater, groupsLater.trans groups,
          entriesLater.trans entries, ?_⟩
        intro other isPosted
        rw [postedLater] at isPosted
        rcases List.mem_append.mp isPosted with earlier | last
        · exact posted other earlier
        · rw [List.mem_singleton.mp last, isName]
          exact ⟨article, isArticle ▸ member, rfl⟩
      · exact ⟨sameGroup, sameIds, soundHere, groups, entries, posted⟩
  obtain ⟨sameGroup, sameIds, soundLater, groups, entries, posted⟩ := delivered _ reached.moved
  have continues : Continues store.realm
      ((session.assign start).readStep (ArticleGetMultipleHeadersCommand.newsReaderDelegate env.dateFormatter) more
        read).delegate.rbox.realm := continues_of_map (congrArg _ groups) (entries ▸ List.prefix_refl _)
  have isCommand : ((RunningCommand.getHeaders session).read env more read store).command =
      .getHeaders ((session.assign start).readStep
        (ArticleGetMultipleHeadersCommand.newsReaderDelegate env.dateFormatter) more read) := rfl
  refine ⟨soundLater, continues, ?_, sameIds, rfl, rfl, ?_, ?_, 0, ?_, ?_⟩
  · rw [isCommand, CommandSound, sameGroup, sameIds]
    exact ⟨group, name, serves.continues continues, fun articleId member => continues.entry (stored articleId member),
      reached.confined⟩
  · intro other member
    obtain ⟨article, isAsked, rfl⟩ := posted other member
    exact ⟨group, (serves.continues continues).2, continues.entry (stored _ isAsked)⟩
  · intro otherName articleRefs member
    obtain ⟨article, -, same⟩ := posted _ member
    cases same
  · rw [Nat.add_zero, ← entries_length, ← entries_length]
    exact congrArg List.length entries
  · rw [nextRefs_zero, List.flatMap_eq_nil_iff]
    intro other member
    obtain ⟨article, -, rfl⟩ := posted other member
    rfl

theorem read_getArticle {tab : Nat} {session : Session ArticleCommand}
    (isCommand : CommandSound env store.realm (.getArticle tab session)) :
    ReadSound env store (.getArticle tab session) ((RunningCommand.getArticle tab session).read env more read store) := by
  obtain ⟨group, name, serves, stored, confined⟩ := isCommand
  let groupId := session.delegate.groupId
  let articleId := session.delegate.articleId
  let start : ArticleCommand := { session.delegate with rbox := { realm := store.realm }, articles := [] }
  have inside : AsksArticle groupId name articleId start := ⟨rfl, rfl, serves.named⟩
  have reached := confined.readStep (confined_getArticle groupId name articleId) inside more read
  rw [ArticleCommand.delegate_client] at reached
  have isCommand : ((RunningCommand.getArticle tab session).read env more read store).command =
      .getArticle tab ((session.assign start).readStep ArticleCommand.newsReaderDelegate more read) := rfl
  refine ⟨sound, Continues.refl _, ?_, rfl, rfl, rfl, fun _ member => absurd member List.not_mem_nil,
    fun _ _ member => absurd member List.not_mem_nil, 0, rfl, rfl⟩
  have within := reached.confined.within
  rw [isCommand, CommandSound, within.ofGroup, within.ofArticle]
  exact ⟨group, name, serves, stored, reached.confined⟩

include supplied in
theorem read_sound {command : RunningCommand} (isCommand : CommandSound env store.realm command) :
    ReadSound env store command (command.read env more read store) := by
  cases command with
  | listGroups session => exact read_listGroups supplied sound more read isCommand
  | listArticles session => exact read_listArticles sound more read isCommand
  | getHeaders session => exact read_getHeaders sound more read isCommand
  | getArticle tab session => exact read_getArticle sound more read isCommand

end Reads

end EasyNews.Verified.CommandReads
