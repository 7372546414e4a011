import EasyNews.Verified.ArticleStore

/-! # Listing commands side by side

Any number of `ListGroupGetArticleIdsCommand`s work on one store. A delivery is two steps: its
write transaction, which no other transaction interrupts, and later what it posts. Between the
two, the command waits with the references of its new records.
-/

namespace EasyNews.Verified.HeaderRequests

open FirstMention Realm ArticleStore ListGroupGetArticleIdsCommand

variable {ι : Type}

/-- The store and the commands that have committed a delivery and not yet posted it. -/
structure Shared (ι : Type) where
  rbox : ReaderBox
  waiting : List (ι × List ArticleRef) := []

inductive Action (ι : Type) where
  | write (command : ι) (articleIds : List Text)
  | post (command : ι)

section System

variable [DecidableEq ι] (group : ι → GroupRef) (groupName : ι → Text)

/-- One step of one command. A command takes its next delivery when it has posted the last. -/
def step (shared : Shared ι) : Action ι → Option (Shared ι)
  | .write command articleIds =>
    if command ∈ shared.waiting.map Prod.fst then none
    else
      let (realm, newArticles) := writeArticles shared.rbox.realm (group command) articleIds
      some
        { rbox := { shared.rbox with realm }
          waiting := shared.waiting ++ [(command, newArticles)] }
  | .post command =>
    match shared.waiting.find? (·.1 = command) with
    | some (_, newArticles) =>
      some
        { rbox := postArticles (group command) (groupName command) newArticles shared.rbox
          waiting := shared.waiting.erase (command, newArticles) }
    | none => none

theorem steps_eq_newsReaderArticles (rbox : ReaderBox) (command : ι) (articleIds : List Text) :
    [Action.write command articleIds, .post command].foldlM (step group groupName) { rbox } =
      some
        { rbox := (newsReaderArticles articleIds
            { rbox, group := group command, groupName := groupName command }).rbox } := by
  simp [step, newsReaderArticles]

end System

/-- The ids a run delivers. -/
def delivered (actions : List (Action ι)) : List Text :=
  actions.flatMap fun
    | .write _ articleIds => articleIds
    | .post _ => []

def requests (group : ι → GroupRef) (actions : List (Action ι)) : List (GroupRef × Text) :=
  actions.flatMap fun
    | .write command articleIds => requestsOf (group command) articleIds
    | .post _ => []

theorem requests_map_snd (group : ι → GroupRef) (actions : List (Action ι)) :
    (requests group actions).map Prod.snd = delivered actions := by
  induction actions with
  | nil => rfl
  | cons action actions inductionHypothesis =>
    simp only [requests, delivered, List.flatMap_cons, List.map_append] at inductionHypothesis ⊢
    rw [inductionHypothesis]
    cases action <;> simp [requestsOf, Function.comp_def]

/-- The references a notification asks headers for. -/
def articleRefs : Posted → List ArticleRef
  | .articleGetHeader _ articleRefs => articleRefs
  | _ => []

/-- The ids behind the references posted so far; `none` would be a dangling one. -/
def requestedIds (rbox : ReaderBox) : List (Option Text) :=
  (rbox.posted.flatMap articleRefs).map fun article => rbox.realm.articles[article]?.map (·.id)

/-! ## The invariant -/

/-- What the requests `seen` so far have made of the store: a record per new id, whose reference
    is posted or waits to be. -/
structure Accounted (start : Realm) (seen : List (GroupRef × Text)) (shared : Shared ι) : Prop where
  articleIds : shared.rbox.realm.articleIds = start.articleIds ++ (fresh start seen).map Prod.snd
  refs : (shared.rbox.posted.flatMap articleRefs ++ shared.waiting.flatMap Prod.snd).Perm
    (nextRefs start (fresh start seen).length)

theorem fresh_append {start realm : Realm} {seen : List (GroupRef × Text)}
    (articleIds : realm.articleIds = start.articleIds ++ (fresh start seen).map Prod.snd)
    (requests : List (GroupRef × Text)) :
    fresh start (seen ++ requests) = fresh start seen ++ fresh realm requests := by
  rw [fresh, firsts_append, fresh, fresh, articleIds, fresh]

theorem Accounted.unique {start : Realm} (unique : start.UniqueIds) {seen : List (GroupRef × Text)}
    {shared : Shared ι} (accounted : Accounted start seen shared) : shared.rbox.realm.UniqueIds := by
  rw [UniqueIds, accounted.articleIds]
  exact nodup_firsts Prod.snd unique _

theorem Accounted.articles_length {start : Realm} {seen : List (GroupRef × Text)} {shared : Shared ι}
    (accounted : Accounted start seen shared) :
    shared.rbox.realm.articles.length = start.articles.length + (fresh start seen).length := by
  have same := congrArg List.length accounted.articleIds
  simpa [Realm.articleIds] using same

theorem start_accounted (start : Realm) :
    Accounted start [] ({ rbox := { realm := start } } : Shared ι) where
  articleIds := by simp [fresh]
  refs := by simp [fresh, nextRefs]

theorem Accounted.write {start : Realm} (unique : start.UniqueIds) {seen : List (GroupRef × Text)}
    {rbox : ReaderBox} {waiting : List (ι × List ArticleRef)} (accounted : Accounted start seen ⟨rbox, waiting⟩)
    (command : ι) (group : GroupRef) (articleIds : List Text) :
    Accounted start (seen ++ requestsOf group articleIds)
      { rbox := { rbox with realm := (writeArticles rbox.realm group articleIds).1 }
        waiting := waiting ++ [(command, (writeArticles rbox.realm group articleIds).2)] } := by
  obtain ⟨grown, added⟩ := writeArticles_grown (accounted.unique unique) group articleIds
  have extended := fresh_append accounted.articleIds (requestsOf group articleIds)
  refine ⟨?_, ?_⟩
  · rw [extended, List.map_append, ← List.append_assoc, ← accounted.articleIds]
    exact grown.articleIds
  · rw [extended, List.length_append, nextRefs_append accounted.articles_length, added]
    simp only [List.flatMap_append, List.flatMap_cons, List.flatMap_nil, List.append_nil]
    rw [← List.append_assoc]
    exact accounted.refs.append_right _

variable [DecidableEq ι]

theorem Accounted.post {start : Realm} {seen : List (GroupRef × Text)} {rbox : ReaderBox}
    {waiting : List (ι × List ArticleRef)} (accounted : Accounted start seen ⟨rbox, waiting⟩)
    {command : ι} {newArticles : List ArticleRef} (waits : (command, newArticles) ∈ waiting)
    (group : GroupRef) (groupName : Text) :
    Accounted start seen
      { rbox := postArticles group groupName newArticles rbox
        waiting := waiting.erase (command, newArticles) } := by
  refine ⟨accounted.articleIds, List.Perm.trans ?_ accounted.refs⟩
  have moved := (List.perm_cons_erase waits).flatMap_right Prod.snd
  simp only [postArticles, ReaderBox.post, List.flatMap_append, List.flatMap_cons, List.flatMap_nil,
    articleRefs, List.append_nil, List.append_assoc] at moved ⊢
  exact moved.symm.append_left _

theorem step_accounted {group : ι → GroupRef} {groupName : ι → Text} {start : Realm} (unique : start.UniqueIds)
    {seen : List (GroupRef × Text)} {shared later : Shared ι} (accounted : Accounted start seen shared)
    {action : Action ι} (stepped : step group groupName shared action = some later) :
    Accounted start (seen ++ requests group [action]) later := by
  cases action with
  | write command articleIds =>
    simp only [step] at stepped
    split at stepped
    · cases stepped
    · cases stepped
      simpa [requests] using accounted.write unique command (group command) articleIds
  | post command =>
    simp only [step] at stepped
    split at stepped
    · rename_i other newArticles found
      cases stepped
      have same : other = command := by simpa using List.find?_some found
      have waits := List.mem_of_find?_eq_some found
      rw [same] at waits
      simpa [requests] using accounted.post waits (group command) (groupName command)
    · cases stepped

theorem run_accounted {group : ι → GroupRef} {groupName : ι → Text} {start : Realm} (unique : start.UniqueIds)
    (actions : List (Action ι)) {seen : List (GroupRef × Text)} {shared finish : Shared ι}
    (accounted : Accounted start seen shared)
    (run : actions.foldlM (step group groupName) shared = some finish) :
    Accounted start (seen ++ requests group actions) finish := by
  induction actions generalizing seen shared with
  | nil =>
    cases run
    simpa [requests] using accounted
  | cons action actions inductionHypothesis =>
    rw [List.foldlM_cons, Option.bind_eq_bind, Option.bind_eq_some_iff] at run
    obtain ⟨middle, stepped, rest⟩ := run
    have later := inductionHypothesis (step_accounted unique accounted stepped) rest
    simpa [requests] using later

/-! ## Each new article is created once and asked for once -/

theorem map_nextRefs {start realm : Realm} {added : List Text}
    (articleIds : realm.articleIds = start.articleIds ++ added) :
    (nextRefs start added.length).map (fun article => realm.articles[article]?.map (·.id)) =
      added.map some := by
  have length : start.articleIds.length = start.articles.length := by simp [Realm.articleIds]
  apply List.ext_getElem?
  intro index
  rw [nextRefs, List.getElem?_map, List.getElem?_map]
  by_cases inside : index < added.length
  · have atIndex : realm.articleIds[start.articles.length + index]? = added[index]? := by
      rw [articleIds, List.getElem?_append_right (by omega), length]
      congr 1
      omega
    rw [List.getElem?_range' (by omega), Nat.one_mul]
    rw [Realm.articleIds, List.getElem?_map] at atIndex
    simp [atIndex, inside]
  · rw [List.getElem?_eq_none (by simpa using inside), List.getElem?_eq_none (by omega)]
    rfl

/-- In every interleaving in which all commands have posted what they wrote, every delivered id
    has one record, and headers are requested once for each id that was not there before. -/
theorem headers_requested_once (group : ι → GroupRef) (groupName : ι → Text) (start : Realm)
    (unique : start.UniqueIds) (actions : List (Action ι)) (finish : Shared ι)
    (run : actions.foldlM (step group groupName) { rbox := { realm := start } } = some finish)
    (quiet : finish.waiting = []) :
    finish.rbox.realm.UniqueIds ∧
      (∀ articleId ∈ delivered actions, finish.rbox.realm.articleIds.count articleId = 1) ∧
      (∀ requested, (requestedIds finish.rbox).count requested =
        if ∃ articleId ∈ delivered actions, articleId ∉ start.articleIds ∧ requested = some articleId then 1
        else 0) := by
  have accounted := run_accounted unique actions (start_accounted start) run
  rw [List.nil_append] at accounted
  have distinct := accounted.unique unique
  have added : ∀ articleId, articleId ∈ (fresh start (requests group actions)).map Prod.snd ↔
      articleId ∈ delivered actions ∧ articleId ∉ start.articleIds := by
    intro articleId
    rw [fresh, mem_keys_firsts, requests_map_snd]
  refine ⟨distinct, ?_, ?_⟩
  · intro articleId member
    apply List.count_eq_one_of_mem distinct
    rw [accounted.articleIds, List.mem_append, added]
    by_cases known : articleId ∈ start.articleIds
    · exact .inl known
    · exact .inr ⟨member, known⟩
  · intro requested
    -- nothing waits, so the requests made are the records created, in some order
    have perm : (requestedIds finish.rbox).Perm
        (((fresh start (requests group actions)).map Prod.snd).map some) := by
      have refs := accounted.refs
      rw [quiet, List.flatMap_nil, List.append_nil] at refs
      have same := map_nextRefs accounted.articleIds
      rw [List.length_map] at same
      rw [← same]
      exact refs.map _
    have once : (((fresh start (requests group actions)).map Prod.snd).map some).Nodup := by
      have all := nodup_firsts Prod.snd unique (requests group actions)
      exact (List.nodup_append.mp all).2.1.map fun _ _ same => Option.some.inj same
    rw [perm.count_eq, once.count]
    congr 1
    rw [List.mem_map, eq_iff_iff]
    constructor
    · rintro ⟨articleId, member, rfl⟩
      exact ⟨articleId, ((added articleId).mp member).1, ((added articleId).mp member).2, rfl⟩
    · rintro ⟨articleId, member, absent, rfl⟩
      exact ⟨articleId, (added articleId).mpr ⟨member, absent⟩, rfl⟩

def twoGroups : Realm where
  groups := [{ name := "alt.a".toList }, { name := "alt.b".toList }]
  articles := []

def crossing : List (Action GroupRef) :=
  [.write 0 ["7".toList, "7".toList], .write 1 ["7".toList, "8".toList], .post 1, .post 0]

theorem headers_requested_once_crossing :
    ∃ finish, crossing.foldlM (step id fun _ => []) { rbox := { realm := twoGroups } } = some finish ∧
      (requestedIds finish.rbox).count (some "7".toList) = 1 := by
  refine ⟨_, rfl, ?_⟩
  rw [(headers_requested_once id (fun _ => []) twoGroups List.nodup_nil crossing _ rfl rfl).2.2]
  exact if_pos ⟨"7".toList, by decide, by decide, rfl⟩

end EasyNews.Verified.HeaderRequests
