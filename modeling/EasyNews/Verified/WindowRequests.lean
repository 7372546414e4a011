import EasyNews.NntpServer
import EasyNews.Verified.MainWindowRuns

/-! # What the window asks of the servers

In every run, and whatever the servers send, the connections carry the login and commands about stored
groups and articles, and no header is asked for on two connections.
-/

namespace EasyNews.Verified.WindowRequests

open Realm ArticleStore SharedStore CommandReads MainWindowRuns

/-- The texts a connection may carry: the login, and commands about what is stored. -/
inductive Speaks (env : Environment) (realm : Realm) : Text → Prop
  | user : Speaks env realm (commandLine "AUTHINFO user" env.username)
  | pass : Speaks env realm (commandLine "AUTHINFO pass" env.password)
  | list : Speaks env realm "LIST\n".toList
  | listGroup {group : GroupRef} {record : NewsGroup} (here : realm.groups[group]? = some record) :
      Speaks env realm (commandLine "LISTGROUP" record.name)
  | group {group : GroupRef} {record : NewsGroup} (here : realm.groups[group]? = some record) :
      Speaks env realm (commandLine "GROUP" record.name)
  | article {article : NewsGroupArticle} (stored : article ∈ realm.articles) :
      Speaks env realm (commandLine "ARTICLE" article.id)
  | head {article : NewsGroupArticle} (stored : article ∈ realm.articles) :
      Speaks env realm (commandLine "HEAD" article.id)

section Written

variable {env : Environment} {realm : Realm}

theorem speaks_of_writable {admitted : Request → Prop} {text : Text}
    (writable : Writable (env.username, env.password) admitted text)
    (requests : ∀ request, admitted request → ∀ text ∈ request.texts, Speaks env realm text) : Speaks env realm text := by
  obtain rfl | rfl | ⟨request, isAdmitted, inside⟩ := writable
  · exact .user
  · exact .pass
  · exact requests request isAdmitted text inside

theorem speaks_listGroup {group : GroupRef} {name : Text}
    (isName : realm.groups[group]?.map NewsGroup.name = some name) : Speaks env realm (commandLine "LISTGROUP" name) := by
  obtain ⟨record, here, rfl⟩ := Option.map_eq_some_iff.mp isName
  exact .listGroup here

theorem speaks_group {group : GroupRef} {name : Text}
    (isName : realm.groups[group]?.map NewsGroup.name = some name) : Speaks env realm (commandLine "GROUP" name) := by
  obtain ⟨record, here, rfl⟩ := Option.map_eq_some_iff.mp isName
  exact .group here

theorem CommandSound.speaks {command : RunningCommand} (sound : CommandSound env realm command) {text : Text}
    (written : text ∈ command.written) : Speaks env realm text := by
  cases command with
  | listGroups session =>
    refine speaks_of_writable (sound.written text written) ?_
    rintro request (rfl | rfl) text inside
    · exact List.mem_singleton.mp inside ▸ .list
    · cases inside
  | listArticles session =>
    obtain ⟨isName, confined⟩ := sound
    refine speaks_of_writable (confined.written text written) ?_
    rintro request (rfl | rfl) text inside
    · exact List.mem_singleton.mp inside ▸ speaks_listGroup isName
    · cases inside
  | getHeaders session =>
    obtain ⟨group, name, serves, stored, confined⟩ := sound
    refine speaks_of_writable (confined.written text written) ?_
    rintro request (rfl | ⟨articleId, isAsked, rfl⟩) text inside
    · cases inside
    · obtain ⟨article, isArticle, same⟩ := List.mem_map.mp (stored articleId isAsked)
      obtain ⟨-, rfl⟩ := Prod.mk.inj same
      simp only [Request.texts, List.mem_cons, List.not_mem_nil, or_false] at inside
      rcases inside with rfl | rfl
      · exact speaks_group serves.2
      · exact .head isArticle
  | getArticle tab session =>
    obtain ⟨group, name, serves, stored, confined⟩ := sound
    refine speaks_of_writable (confined.written text written) ?_
    rintro request (rfl | rfl) text inside
    · cases inside
    · obtain ⟨article, isArticle, same⟩ := List.mem_map.mp stored
      obtain ⟨-, sameId⟩ := Prod.mk.inj same
      simp only [Request.texts, List.mem_cons, List.not_mem_nil, or_false] at inside
      rcases inside with rfl | rfl
      · exact speaks_group serves.2
      · exact sameId ▸ .article isArticle

/-! ## Headers -/

theorem commandLine_head_ne {line : Text} (other : Command.argument "HEAD" line = none) (articleId : Text) :
    commandLine "HEAD" articleId ≠ line := by
  rintro rfl
  rw [Command.argument_commandLine] at other
  cases other

theorem head_ne_commandLine {verb : String} (apart : ¬ ("HEAD".toList ++ " ".toList) <+: (verb.toList ++ " ".toList))
    (apart' : ¬ (verb.toList ++ " ".toList) <+: ("HEAD".toList ++ " ".toList)) (articleId argument : Text) :
    commandLine "HEAD" articleId ≠ commandLine verb argument :=
  commandLine_head_ne (Command.argument_of_ne apart apart' argument) articleId

theorem commandLine_head_inj {articleId other : Text} (same : commandLine "HEAD" articleId = commandLine "HEAD" other) :
    articleId = other := by
  have argument := Command.argument_commandLine "HEAD" articleId
  rw [same, Command.argument_commandLine] at argument
  exact (Option.some.inj argument).symm

theorem request_of_head {request : Request} {articleId : Text} (inside : commandLine "HEAD" articleId ∈ request.texts) :
    ∃ groupName, request = .articleHeader groupName articleId := by
  cases request with
  | quit => exact absurd (List.mem_singleton.mp inside) (commandLine_head_ne (by decide) articleId)
  | close => cases inside
  | listGroups => exact absurd (List.mem_singleton.mp inside) (commandLine_head_ne (by decide) articleId)
  | listArticles groupName =>
    exact absurd (List.mem_singleton.mp inside) (head_ne_commandLine (by decide) (by decide) articleId groupName)
  | article groupName other =>
    simp only [Request.texts, List.mem_cons, List.not_mem_nil, or_false] at inside
    rcases inside with same | same
    · exact absurd same (head_ne_commandLine (by decide) (by decide) articleId groupName)
    · exact absurd same (head_ne_commandLine (by decide) (by decide) articleId other)
  | articleHeader groupName other =>
    simp only [Request.texts, List.mem_cons, List.not_mem_nil, or_false] at inside
    rcases inside with same | same
    · exact absurd same (head_ne_commandLine (by decide) (by decide) articleId groupName)
    · rw [commandLine_head_inj same]
      exact ⟨groupName, rfl⟩

theorem admitted_of_head {account : Text × Text} {admitted : Request → Prop} {articleId : Text}
    (writable : Writable account admitted (commandLine "HEAD" articleId)) :
    ∃ groupName, admitted (.articleHeader groupName articleId) := by
  obtain same | same | ⟨request, isAdmitted, inside⟩ := writable
  · exact absurd same (head_ne_commandLine (by decide) (by decide) articleId account.1)
  · exact absurd same (head_ne_commandLine (by decide) (by decide) articleId account.2)
  · obtain ⟨groupName, rfl⟩ := request_of_head inside
    exact ⟨groupName, isAdmitted⟩

theorem CommandSound.headed {command : RunningCommand} (sound : CommandSound env realm command) {articleId : Text}
    (written : commandLine "HEAD" articleId ∈ command.written) : articleId ∈ headerIds command := by
  cases command with
  | listGroups session =>
    obtain ⟨groupName, other⟩ := admitted_of_head (sound.written _ written)
    rcases other with same | same <;> cases same
  | listArticles session =>
    obtain ⟨groupName, other⟩ := admitted_of_head (sound.2.written _ written)
    rcases other with same | same <;> cases same
  | getHeaders session =>
    obtain ⟨group, name, -, -, confined⟩ := sound
    obtain ⟨groupName, isHeader⟩ := admitted_of_head (confined.written _ written)
    exact mem_of_headerRequest isHeader rfl
  | getArticle tab session =>
    obtain ⟨group, name, -, -, confined⟩ := sound
    obtain ⟨groupName, other⟩ := admitted_of_head (confined.written _ written)
    rcases other with same | same <;> cases same

end Written

theorem thread_of_headerId {threads : List CommandThread}
    (unique : (threads.flatMap fun thread => headerIds thread.command).Nodup) {first second : Nat}
    {current other : CommandThread} (isFirst : threads[first]? = some current) (isSecond : threads[second]? = some other)
    {articleId : Text} (firstAsks : articleId ∈ headerIds current.command)
    (secondAsks : articleId ∈ headerIds other.command) : first = second := by
  have apart := (List.nodup_flatMap.mp unique).2
  by_contra different
  obtain ⟨firstInside, rfl⟩ := List.getElem?_eq_some_iff.mp isFirst
  obtain ⟨secondInside, rfl⟩ := List.getElem?_eq_some_iff.mp isSecond
  rw [List.pairwise_iff_getElem] at apart
  rcases Nat.lt_or_gt_of_ne different with before | behind
  · exact apart first second firstInside secondInside before firstAsks secondAsks
  · exact apart second first secondInside firstInside behind secondAsks firstAsks

/-! ## In every run -/

section Runs

variable {env : Environment} {store : Store} {events : List Event} {later : MainVC}

/-- Whatever the servers send, every connection carries the login and commands about stored groups and
    articles, and nothing else. -/
theorem connections_speak (supplied : Function.Injective fun place => (env.supply place).uuidString)
    (sound : StoreSound env.supply store) (ran : MainVC.run env events { store } = some later) :
    ∀ thread ∈ later.threads, ∀ text ∈ thread.command.written, Speaks env later.store.realm text := by
  have soundLater := run_sound supplied (mainSound_start sound) ran
  intro thread member text written
  exact CommandSound.speaks (soundLater.commands thread member) written

theorem connections_speak_three :
    refreshedWindow.threads.length = 3 ∧ ∀ thread ∈ refreshedWindow.threads, ∀ text ∈ thread.command.written,
      Speaks countingEnvironment refreshedWindow.store.realm text :=
  ⟨by decide +kernel, connections_speak countingEnvironment_supplied (storeSound_empty _) run_refreshingOnce⟩

/-- The header of an article is asked for on one connection at most, and only of an article that came in
    during the run; for each of these a command has been made. -/
theorem header_has_one_connection (supplied : Function.Injective fun place => (env.supply place).uuidString)
    (sound : StoreSound env.supply store) (ran : PlainRun env events { store } later) :
    (∀ (first second : Nat) current other articleId, later.threads[first]? = some current →
        later.threads[second]? = some other → commandLine "HEAD" articleId ∈ current.command.written →
        commandLine "HEAD" articleId ∈ other.command.written → first = second) ∧
      (∀ thread ∈ later.threads, ∀ articleId, commandLine "HEAD" articleId ∈ thread.command.written →
        articleId ∈ later.store.realm.articleIds ∧ articleId ∉ store.realm.articleIds) ∧
      ∀ articleId ∈ later.store.realm.articleIds, articleId ∉ store.realm.articleIds →
        ∃ thread ∈ later.threads, articleId ∈ headerIds thread.command := by
  have soundLater := run_sound supplied (mainSound_start sound) ran.ran
  have split : later.store.realm.articleIds =
      store.realm.articleIds ++ later.threads.flatMap fun thread => headerIds thread.command := soundLater.articleIds_eq
  have unique := soundLater.store.articleIds
  rw [UniqueIds, split, List.nodup_append] at unique
  obtain ⟨-, uniqueNew, apart⟩ := unique
  refine ⟨?_, ?_, ?_⟩
  · intro first second current other articleId isFirst isSecond firstHead secondHead
    have firstAsks := CommandSound.headed (soundLater.commands current (List.mem_of_getElem? isFirst)) firstHead
    have secondAsks := CommandSound.headed (soundLater.commands other (List.mem_of_getElem? isSecond)) secondHead
    exact thread_of_headerId uniqueNew isFirst isSecond firstAsks secondAsks
  · intro thread member articleId written
    have isNew : articleId ∈ later.threads.flatMap fun thread => headerIds thread.command :=
      List.mem_flatMap.mpr ⟨thread, member, CommandSound.headed (soundLater.commands thread member) written⟩
    refine ⟨split ▸ List.mem_append_right _ isNew, fun isOld => ?_⟩
    exact apart articleId isOld articleId isNew rfl
  · intro articleId isThere isNew
    rw [split, List.mem_append] at isThere
    exact List.mem_flatMap.mp (isThere.resolve_left isNew)

theorem header_has_one_connection_three :
    readWindow.store.realm.articleIds = ["1".toList, "2".toList, "5".toList] ∧
      ∀ articleId ∈ readWindow.store.realm.articleIds, articleId ∉ unusedWindow.store.realm.articleIds →
        ∃ thread ∈ readWindow.threads, articleId ∈ headerIds thread.command :=
  ⟨by decide +kernel, (header_has_one_connection countingEnvironment_supplied (storeSound_empty _) run_reading).2.2⟩

end Runs

end EasyNews.Verified.WindowRequests
