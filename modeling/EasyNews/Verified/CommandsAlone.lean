import EasyNews.Verified.AlikeCommands

/-! # Commands alone

A read by a command among others, and the same read by the command when it is alone: `Mirrors` holds of the
two, whatever is read and whatever the other commands write in between.
-/

namespace EasyNews.Verified.CommandsAlone

open Session Realm ArticleStore SharedStore CommandReads AlikeCommands

/-! ## A command alone -/

/-- The command with this store as its own. -/
def attach (store : Store) : RunningCommand → RunningCommand
  | .listGroups session =>
    .listGroups (session.assign { session.delegate with rbox := { realm := store.realm }, drawn := store.drawn })
  | .listArticles session => .listArticles (session.assign { session.delegate with rbox := { realm := store.realm } })
  | .getHeaders session => .getHeaders (session.assign { session.delegate with rbox := { realm := store.realm } })
  | .getArticle tab session =>
    .getArticle tab (session.assign { session.delegate with rbox := { realm := store.realm }, articles := [] })

/-- A read by a command that keeps its own store. -/
def readAlone (env : Environment) (more : Bool) (read : Read) : RunningCommand → RunningCommand
  | .listGroups session => .listGroups (session.readStep ListGroupsCommand.newsReaderDelegate more read)
  | .listArticles session =>
    .listArticles (session.readStep ListGroupGetArticleIdsCommand.newsReaderDelegate more read)
  | .getHeaders session =>
    .getHeaders (session.readStep (ArticleGetMultipleHeadersCommand.newsReaderDelegate env.dateFormatter) more read)
  | .getArticle tab session => .getArticle tab (session.readStep ArticleCommand.newsReaderDelegate more read)

/-- What an event of its thread does to a command alone. -/
def stepAlone (env : Environment) (command : RunningCommand) : Event → RunningCommand
  | .threadStarts _ created => command.openStreams created
  | .bytesAvailable _ more read => readAlone env more read command
  | _ => command

def threadOf : Event → Option Nat
  | .threadStarts thread _ => some thread
  | .bytesAvailable thread _ _ => some thread
  | _ => none

def eventsOf (thread : Nat) (events : List Event) : List Event :=
  events.filter fun event => threadOf event = some thread

def runAlone (env : Environment) (events : List Event) (command : RunningCommand) : RunningCommand :=
  events.foldl (stepAlone env) command

/-- What has been said on a connection, and the state its reader is in. -/
def talk : RunningCommand → NewsReader × List Effect
  | .listGroups session => (session.reader, session.trace)
  | .listArticles session => (session.reader, session.trace)
  | .getHeaders session => (session.reader, session.trace)
  | .getArticle _ session => (session.reader, session.trace)

/-- The articles that its view has been given. -/
def given : RunningCommand → List Text
  | .getArticle _ session => session.delegate.articles
  | _ => []

theorem openStreams_attach (store : Store) (created : Bool) (command : RunningCommand) :
    attach store (command.openStreams created) = (attach store command).openStreams created := by
  have commutes : ∀ {δ : Type} (session : Session δ) (delegate : δ),
      (session.openStreams created).assign delegate = (session.assign delegate).openStreams created :=
    fun session delegate => (openStreams_reframe [] delegate session created).symm
  cases command <;> simp only [attach, RunningCommand.openStreams, commutes, openStreams_delegate]

/-! ## A command and the command alone -/

def Mirrors : RunningCommand → RunningCommand → Prop
  | .listGroups session, .listGroups alone => session.Agree GroupsAlike alone
  | .listArticles session, .listArticles alone => session.Agree ArticlesAlike alone
  | .getHeaders session, .getHeaders alone => ∃ group name, session.Agree (HeadersAlike group name) alone
  | .getArticle tab session, .getArticle other alone =>
    tab = other ∧ ∃ groupId group name, session.Agree (ArticleAlike groupId group name alone.delegate.articles) alone
  | _, _ => False

theorem talk_of_mirrors {command alone : RunningCommand} {store : Store} (mirrors : Mirrors (attach store command) alone) :
    talk command = talk alone := by
  cases command <;> cases alone <;> try exact mirrors.elim
  · exact Prod.ext mirrors.reader mirrors.trace
  · exact Prod.ext mirrors.reader mirrors.trace
  · obtain ⟨group, name, agree⟩ := mirrors
    exact Prod.ext agree.reader agree.trace
  · obtain ⟨-, groupId, group, name, agree⟩ := mirrors
    exact Prod.ext agree.reader agree.trace

section Mirrored

variable {env : Environment} {store : Store} {command alone : RunningCommand}

theorem Mirrors.tab? (mirrors : Mirrors (attach store command) alone) : alone.tab? = command.tab? := by
  cases command <;> cases alone <;> try exact mirrors.elim
  · rfl
  · rfl
  · rfl
  · exact congrArg some mirrors.1.symm

theorem Mirrors.sameHeaders (mirrors : Mirrors (attach store command) alone) :
    headerIds alone = headerIds command := by
  cases command <;> cases alone <;> try exact mirrors.elim
  · rfl
  · rfl
  · obtain ⟨group, name, agree⟩ := mirrors
    exact agree.delegates.articleIds.symm
  · rfl

theorem mirrors_start (sound : StoreSound env.supply store) (isCommand : CommandSound env store.realm command) :
    Mirrors (attach store command) (attach store command) := by
  cases command with
  | listGroups session => exact ⟨rfl, rfl, sound.names, sound.names, List.Subset.refl _⟩
  | listArticles session => exact ⟨rfl, rfl, rfl, sound.articleIds, sound.articleIds, List.Subset.refl _⟩
  | getHeaders session =>
    obtain ⟨group, name, serves, -⟩ := isCommand
    have files : HeaderFetching.Files { realm := store.realm } session.delegate.groupId group name :=
      ⟨sound.articleIds, serves.1, serves.2⟩
    exact ⟨group, name, rfl, rfl, rfl, rfl, rfl, files, files, fun _ _ => rfl⟩
  | getArticle tab session =>
    obtain ⟨group, name, serves, -⟩ := isCommand
    exact ⟨rfl, _, group, name, rfl, rfl, rfl, rfl, rfl, serves, serves, rfl⟩

theorem Mirrors.openStreams (mirrors : Mirrors (attach store command) alone) (created : Bool) :
    Mirrors (attach store (command.openStreams created)) (alone.openStreams created) := by
  rw [openStreams_attach]
  cases command <;> cases alone <;> try exact mirrors.elim
  · exact Agree.openStreams mirrors created
  · exact Agree.openStreams mirrors created
  · obtain ⟨group, name, agree⟩ := mirrors
    exact ⟨group, name, agree.openStreams created⟩
  · obtain ⟨same, groupId, group, name, agree⟩ := mirrors
    refine ⟨same, groupId, group, name, ?_⟩
    rw [openStreams_delegate]
    exact agree.openStreams created

theorem Mirrors.read (mirrors : Mirrors (attach store command) alone) (more : Bool) (read : Read) :
    let outcome := command.read env more read store
    Mirrors (attach outcome.store outcome.command) (readAlone env more read alone) := by
  cases command <;> cases alone <;> try exact mirrors.elim
  · have agree := Agree.readStep listGroups_alike mirrors more read
    rw [ListGroupsCommand.delegate_client] at agree
    exact ⟨agree.reader, agree.trace, agree.delegates.unique, agree.delegates.uniqueAlone, agree.delegates.names⟩
  · have agree := Agree.readStep listArticles_alike mirrors more read
    rw [ListGroupGetArticleIdsCommand.delegate_client] at agree
    exact ⟨agree.reader, agree.trace, agree.delegates.groupName, agree.delegates.unique, agree.delegates.uniqueAlone,
      agree.delegates.articleIds⟩
  · obtain ⟨group, name, mirrors⟩ := mirrors
    have agree := mirrors.readStep (getHeaders_alike env.dateFormatter group name) more read
    rw [ArticleGetMultipleHeadersCommand.delegate_client] at agree
    obtain ⟨sameGroup, sameIds, sameIdx, files, filesAlone, records⟩ := agree.delegates
    exact ⟨group, name, agree.reader, agree.trace, sameGroup, sameIds, sameIdx,
      ⟨files.unique, files.found, files.named⟩, filesAlone, records⟩
  · obtain ⟨same, groupId, group, name, mirrors⟩ := mirrors
    have agree := mirrors.readStep (getArticle_alike groupId group name _) more read
    rw [ArticleCommand.delegate_client] at agree
    obtain ⟨ofGroup, ofGroupAlone, sameId, -, servesAlone, -⟩ := agree.delegates
    exact ⟨same, groupId, group, name, agree.reader, agree.trace, ofGroup, ofGroupAlone, sameId, mirrors.delegates.serves,
      servesAlone, (List.append_nil _).symm⟩

theorem Mirrors.read_given (mirrors : Mirrors (attach store command) alone) (more : Bool) (read : Read) :
    given (readAlone env more read alone) = given alone ++ (command.read env more read store).articles := by
  cases command <;> cases alone <;> try exact mirrors.elim
  · rfl
  · rfl
  · rfl
  · obtain ⟨-, groupId, group, name, mirrors⟩ := mirrors
    have agree := mirrors.readStep (getArticle_alike groupId group name _) more read
    rw [ArticleCommand.delegate_client] at agree
    exact agree.delegates.articles

theorem Mirrors.goesOn (mirrors : Mirrors (attach store command) alone) {later : Store}
    (sound : StoreSound env.supply later) (continues : Continues store.realm later.realm)
    (records : ∀ articleId ∈ headerIds command, later.realm.recordOf articleId = store.realm.recordOf articleId) :
    Mirrors (attach later command) alone := by
  cases command <;> cases alone <;> try exact mirrors.elim
  · have names := continues.groups.map Prod.snd
    rw [List.map_map, List.map_map] at names
    exact ⟨mirrors.reader, mirrors.trace, sound.names, mirrors.delegates.uniqueAlone,
      fun _ member => names.subset (mirrors.delegates.names member)⟩
  · have ids := continues.articleIds_eq
    refine ⟨mirrors.reader, mirrors.trace, mirrors.delegates.groupName, sound.articleIds, mirrors.delegates.uniqueAlone,
      fun articleId member => ?_⟩
    have known : articleId ∈ store.realm.articleIds := mirrors.delegates.articleIds member
    exact ids ▸ List.mem_append_left _ known
  · rename_i session aloneSession
    obtain ⟨group, name, agree⟩ := mirrors
    obtain ⟨sameGroup, sameIds, sameIdx, files, filesAlone, sameRecords⟩ := agree.delegates
    have serves : Serves later.realm session.delegate.groupId group name :=
      Serves.continues ⟨files.found, files.named⟩ continues
    refine ⟨group, name, agree.reader, agree.trace, sameGroup, sameIds, sameIdx,
      ⟨sound.articleIds, serves.1, serves.2⟩, filesAlone, fun articleId member => ?_⟩
    have isAsked : articleId ∈ session.delegate.articleIds := by
      have same : session.delegate.articleIds = aloneSession.delegate.articleIds := sameIds
      exact same ▸ member
    exact (records articleId isAsked).trans (sameRecords articleId member)
  · obtain ⟨same, groupId, group, name, agree⟩ := mirrors
    obtain ⟨ofGroup, ofGroupAlone, sameId, serves, servesAlone, articles⟩ := agree.delegates
    exact ⟨same, groupId, group, name, agree.reader, agree.trace, ofGroup, ofGroupAlone, sameId,
      serves.continues continues, servesAlone, articles⟩

end Mirrored

/-! ## What a read leaves alone -/

theorem findOrCreate_articles (realm : Realm) (group : GroupRef) (articleId : Text) :
    realm.articles <+: (realm.findOrCreateGroupArticle group articleId).2.articles := by
  unfold findOrCreateGroupArticle
  split
  · exact List.prefix_refl _
  · exact List.prefix_append _ _

open ListGroupGetArticleIdsCommand in
theorem writeArticles_articles (realm : Realm) (group : GroupRef) (articleIds : List Text) :
    realm.articles <+: (writeArticles realm group articleIds).1.articles := by
  have step : ∀ (state : Realm × List ArticleRef) articleId, realm.articles <+: state.1.articles →
      realm.articles <+: (addArticleId group state articleId).1.articles := by
    intro state articleId holds
    have found := holds.trans (findOrCreate_articles state.1 group articleId)
    unfold addArticleId
    dsimp only
    split
    · exact found
    · exact found
  exact Runs.invariant_foldl (addArticleId group) step (List.prefix_refl _) articleIds

theorem recordOf_of_isPrefix {realm later : Realm} (isPrefix : realm.articles <+: later.articles) {articleId : Text}
    (stored : articleId ∈ realm.articleIds) : later.recordOf articleId = realm.recordOf articleId := by
  obtain ⟨more, joined⟩ := isPrefix
  obtain ⟨record, member, isId⟩ := List.mem_map.mp stored
  rw [recordOf, recordOf, ← joined, List.find?_append]
  cases found : realm.articles.find? (·.id = articleId) with
  | some record => rfl
  | none =>
    have missed := List.find?_eq_none.mp found record member
    simp [isId] at missed

section Reads

variable {env : Environment} {store : Store} (sound : StoreSound env.supply store) (more : Bool) (read : Read)

include sound

/-- A read writes new records, and the headers that its command was made for. -/
theorem read_records {command : RunningCommand} (isCommand : CommandSound env store.realm command) {articleId : Text}
    (stored : articleId ∈ store.realm.articleIds) (notAsked : articleId ∉ headerIds command) :
    (command.read env more read store).store.realm.recordOf articleId = store.realm.recordOf articleId := by
  cases command with
  | listGroups session =>
    let start : ListGroupsCommand := { session.delegate with rbox := { realm := store.realm }, drawn := store.drawn }
    have supply : start.supply = env.supply := isCommand.within
    have reached := isCommand.readStep (confined_listGroups env.supply) supply more read
    rw [ListGroupsCommand.delegate_client] at reached
    have kept : ∀ command : ListGroupsCommand,
        Relation.ReflTransGen (fun command later => ∃ groups, later = command.newsReaderGroups groups) start command →
        command.rbox.realm.articles = store.realm.articles := by
      intro command moved
      induction moved with
      | refl => rfl
      | tail _ delivery inductionHypothesis =>
        obtain ⟨groups, rfl⟩ := delivery
        exact (GroupRefresh.writeGroups_groups _ _).2.trans inductionHypothesis
    exact congrArg (List.find? _) (kept _ reached.moved)
  | listArticles session =>
    let start : ListGroupGetArticleIdsCommand := { session.delegate with rbox := { realm := store.realm } }
    have inside : start.group = session.delegate.group ∧ start.groupName = session.delegate.groupName := ⟨rfl, rfl⟩
    have reached := isCommand.2.readStep (confined_listArticles session.delegate.group session.delegate.groupName)
      inside more read
    rw [ListGroupGetArticleIdsCommand.delegate_client] at reached
    have kept : ∀ command : ListGroupGetArticleIdsCommand,
        Relation.ReflTransGen (fun command later => ∃ articleIds, later = command.newsReaderArticles articleIds)
          start command → store.realm.articles <+: command.rbox.realm.articles := by
      intro command moved
      induction moved with
      | refl => exact List.prefix_refl _
      | tail _ delivery inductionHypothesis =>
        obtain ⟨articleIds, rfl⟩ := delivery
        exact inductionHypothesis.trans (writeArticles_articles _ _ _)
    exact recordOf_of_isPrefix (kept _ reached.moved) stored
  | getHeaders session =>
    obtain ⟨group, name, serves, -, confined⟩ := isCommand
    let start : ArticleGetMultipleHeadersCommand := { session.delegate with rbox := { realm := store.realm } }
    have inside : AsksHeaders session.delegate.groupId name session.delegate.articleIds start :=
      ⟨rfl, rfl, serves.named⟩
    have reached := confined.readStep
      (confined_getHeaders env.dateFormatter session.delegate.groupId name session.delegate.articleIds) inside more read
    rw [ArticleGetMultipleHeadersCommand.delegate_client] at reached
    have kept : ∀ command : ArticleGetMultipleHeadersCommand,
        Relation.ReflTransGen (fun command later => (∃ articleId ∈ session.delegate.articleIds, ∃ header,
          later = command.newsReaderArticleHeader env.dateFormatter articleId header) ∨
            ∃ idx, later = { command with idx }) start command →
        command.rbox.realm.UniqueIds ∧ command.rbox.realm.recordOf articleId = store.realm.recordOf articleId := by
      intro command moved
      induction moved with
      | refl => exact ⟨sound.articleIds, rfl⟩
      | tail _ delivery inductionHypothesis =>
        rename_i command later _
        obtain ⟨unique, same⟩ := inductionHypothesis
        rcases delivery with ⟨other, isAsked, header, rfl⟩ | ⟨idx, rfl⟩
        · have different : articleId ≠ other := fun isOther => notAsked (isOther ▸ isAsked)
          simp only [ArticleGetMultipleHeadersCommand.newsReaderArticleHeader]
          split
          · rename_i group _
            refine ⟨(writeArticleHeader_grown env.dateFormatter unique group other header).uniqueIds unique, ?_⟩
            have records := HeaderFetching.writeArticleHeader_recordOf env.dateFormatter unique group other header articleId
            rw [if_neg different] at records
            exact records.trans same
          · exact ⟨unique, same⟩
        · exact ⟨unique, same⟩
    exact (kept _ reached.moved).2
  | getArticle tab session => rfl

end Reads

end EasyNews.Verified.CommandsAlone
