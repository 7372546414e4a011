import EasyNews.Verified.SessionModes

/-! # Several calls on one reader

Calls that are not accepted leave the reader waiting, and article calls leave it listening. A call
is as good as on a fresh reader in the first mode, and in the second if it is of the kind and for
the group the reader listens to.
-/

namespace EasyNews.Verified.SessionReuse

open Session Dialogue WaitingRuns ControlReplies SessionModes

variable {server : Server} (together : Nat → Bool) {dialogue : Dialogue}

/-! ## Sessions -/

theorem waiting_loggedIn (username password : Text) : Waiting (loggedIn username password) :=
  ⟨rfl, rfl, rfl, rfl⟩

theorem performAll_cons (call : Call) (calls : List Call) (dialogue : Dialogue) :
    dialogue.performAll server together (call :: calls) =
      (dialogue.perform server together call).performAll server together calls := rfl

/-- Calls that are not accepted leave the reader waiting; list calls leave no command behind. -/
theorem performAll_rejected (waiting : Waiting dialogue) {calls : List Call}
    (rejected : ∀ call ∈ calls, call.accepted server = false) :
    Waiting (dialogue.performAll server together calls) ∧
      ((∀ call ∈ calls, call.isArticle = false) → dialogue.session.reader.currentGroupCommand = [] →
        (dialogue.performAll server together calls).session.reader.currentGroupCommand = []) := by
  induction calls generalizing dialogue with
  | nil => exact ⟨waiting, fun _ nothing => nothing⟩
  | cons call calls inductionHypothesis =>
    obtain ⟨later, -, command⟩ :=
      perform_rejected together waiting (rejected call List.mem_cons_self)
    obtain ⟨last, clear⟩ := inductionHypothesis later fun other inside => rejected other (List.mem_cons_of_mem _ inside)
    rw [performAll_cons]
    refine ⟨last, fun lists nothing => clear (fun other inside => lists other (List.mem_cons_of_mem _ inside)) ?_⟩
    rw [command, groupCommandOf, if_neg (by simp [lists call List.mem_cons_self]), nothing]

variable (server) in
theorem performAll_listening {operation : Operation} {groupName : Text}
    (listening : Listening operation groupName dialogue) {calls : List Call}
    (articles : ∀ call ∈ calls, call.isArticle = true) :
    Listening operation groupName (dialogue.performAll server together calls) := by
  induction calls generalizing dialogue with
  | nil => exact listening
  | cons call calls inductionHypothesis =>
    have later := (perform_listening server together listening
      (articles call List.mem_cons_self)).1
    exact inductionHypothesis later fun other inside => articles other (List.mem_cons_of_mem _ inside)

variable {together} in
theorem produced_of_callbacks {call : Call} {callbacks : List Callback}
    (added : (dialogue.perform server together call).session.callbacks = dialogue.session.callbacks ++ callbacks) :
    dialogue.produced server together call = callbacks := by
  rw [produced, added, List.drop_left]

theorem produced_waiting (waiting : Waiting dialogue) {call : Call}
    (clear : Clear server dialogue.session.reader.currentGroupCommand call) :
    dialogue.produced server together call = call.expected server := by
  apply produced_of_callbacks
  by_cases accepted : call.accepted server = true
  · by_cases isArticle : call.isArticle = true
    · exact (perform_accepted_article together waiting isArticle accepted).2
    · exact perform_accepted_list together waiting (by simpa using isArticle) accepted clear
  · have rejected : call.accepted server = false := by simpa using accepted
    have nothing : call.expected server = [] := by
      cases call with
      | listGroups => exact if_neg accepted
      | listArticles groupName =>
        have unknown : server.listGroup groupName = none := by simpa [Call.accepted] using rejected
        rw [Call.expected, unknown]
      | article groupName articleId =>
        have unknown : server.group groupName = none := by simpa [Call.accepted] using rejected
        rw [Call.expected, unknown]
      | articleHeader groupName articleId =>
        have unknown : server.group groupName = none := by simpa [Call.accepted] using rejected
        rw [Call.expected, unknown]
    rw [nothing, List.append_nil]
    exact (perform_rejected together waiting rejected).2.1

/-- The calls for which the session is as good as a fresh one. -/
inductive Reusable (server : Server) (earlier : List Call) (call : Call) : Prop where
  /-- No call was accepted. An article call leaves its command behind, which a 211 line of LISTGROUP
      with numbers would send. -/
  | untouched (rejected : ∀ other ∈ earlier, other.accepted server = false)
      (clear : ∀ groupName words lines, call = .listArticles groupName →
        server.listGroup groupName = some (words, lines) →
          starts words "Article Numbers Follow".toList = true ∨ ∀ other ∈ earlier, other.isArticle = false)
  /-- The first call that was accepted was an article call of the same kind, for the same group,
      and only article calls came behind it. -/
  | sameKind (front : List Call) (first : Call) (back : List Call) (split : earlier = front ++ first :: back)
      (rejected : ∀ other ∈ front, other.accepted server = false) (accepted : first.accepted server = true)
      (articles : ∀ other ∈ back, other.isArticle = true) (isArticle : call.isArticle = true)
      (kind : operationOf call = operationOf first) (group : groupOf call = groupOf first)

/-- A reusable session gives the callbacks of a fresh one. -/
theorem session_reuse (server : Server) (together together' : Nat → Bool) (username password : Text)
    (earlier : List Call) (call : Call) (reusable : Reusable server earlier call) :
    ((loggedIn username password).performAll server together earlier).produced server together call =
      (loggedIn username password).produced server together' call := by
  have fresh : (loggedIn username password).produced server together' call = call.expected server :=
    produced_waiting together' (waiting_loggedIn username password) fun _ _ _ _ _ => Or.inr rfl
  rw [fresh]
  -- either every earlier call was rejected, or the session is in the mode of the same kind of call
  cases reusable with
  | untouched rejected clear =>
    obtain ⟨waiting, noCommand⟩ := performAll_rejected together (waiting_loggedIn username password) rejected
    apply produced_waiting together waiting
    intro groupName words lines isList found
    rcases clear groupName words lines isList found with follow | lists
    · exact Or.inl follow
    · exact Or.inr (noCommand lists rfl)
  | sameKind front first back split rejected accepted articles isArticle kind group =>
    have firstArticle : first.isArticle = true := by
      rw [isArticle_iff, ← kind, ← isArticle_iff]
      exact isArticle
    obtain ⟨waiting, -⟩ := performAll_rejected together (waiting_loggedIn username password) rejected
    obtain ⟨listening, -⟩ := perform_accepted_article together waiting firstArticle accepted
    have later := performAll_listening server together listening articles
    -- the run up to the first accepted call, that call, and the rest
    have whole : (loggedIn username password).performAll server together earlier =
        ((((loggedIn username password).performAll server together front).perform server together first).performAll
          server together back) := by
      rw [split, performAll, List.foldl_append]
      rfl
    rw [whole]
    obtain ⟨-, reader, operation, articleId, article, callbacks⟩ :=
      perform_listening server together later isArticle
    apply produced_of_callbacks
    have callAccepted : call.accepted server = true := by
      rw [accepted_article isArticle, group, ← accepted_article firstArticle]
      exact accepted
    rw [callbacks, ← group, expected_article isArticle callAccepted (kind ▸ operation) articleId article]

def oneArticle : Server where
  list := ("NewsGroups Follow".toList, ["a 1 1 y".toList])
  listGroup groupName :=
    if groupName = "a".toList then some ("Article Numbers Follow".toList, ["1".toList]) else none
  listGroupApart groupName words lines answered := by
    split at answered
    · cases answered
      decide
    · cases answered
  group groupName := if groupName = "a".toList then some (1, 1, 1) else none
  article _ articleId :=
    if articleId = "1".toList then ⟨"220 1".toList, some ["Hello".toList]⟩ else ⟨"423 No such number".toList, none⟩
  head _ articleId :=
    if articleId = "1".toList then ⟨"221 1".toList, some ["Subject: a".toList]⟩
    else ⟨"423 No such number".toList, none⟩

theorem session_reuse_third_call :
    ((loggedIn [] []).performAll oneArticle (fun _ => false)
      [.article "b".toList "1".toList, .article "a".toList "2".toList, .articleHeader "a".toList "1".toList]).produced
        oneArticle (fun _ => false) (.article "a".toList "1".toList) =
      (loggedIn [] []).produced oneArticle (fun _ => true) (.article "a".toList "1".toList) :=
  session_reuse oneArticle _ _ [] [] _ _
    (.sameKind [.article "b".toList "1".toList] (.article "a".toList "2".toList)
      [.articleHeader "a".toList "1".toList] rfl (by decide) (by decide) (by decide) rfl rfl rfl)

/-- Asked for the ids of a group again, the reader hands over the status line as an id. -/
theorem second_list_has_status_line :
    ¬ ∀ (server : Server) (together together' : Nat → Bool) (username password : Text) (earlier : List Call) (call : Call),
      ((loggedIn username password).performAll server together earlier).produced server together call =
        (loggedIn username password).produced server together' call := by
  intro claim
  have same := congrArg List.length (claim oneArticle (fun _ => false) (fun _ => false) [] []
    [.listArticles "a".toList] (.listArticles "a".toList))
  revert same
  decide

end EasyNews.Verified.SessionReuse
