import EasyNews.Dialogues
import EasyNews.WaitingRuns

/-! # The modes of a reader that is called again and again

A reader's first accepted call puts it into the mode in which every line is delivered to one
operation, and it never leaves that mode. Up to that call it answers like a fresh one
(`Waiting`), behind it only calls of the same kind for the same group do (`Listening`).
-/

namespace EasyNews.Verified.SessionModes

open Session Dialogue WaitingRuns ControlReplies

variable {server : Server} (together : Nat → Bool) {dialogue : Dialogue}

/-! ## The two modes -/

/-- No results have come yet. -/
structure Waiting (dialogue : Dialogue) : Prop where
  isOpen : dialogue.session.reader.isOpen = true
  connected : dialogue.session.reader.connected = true
  results : dialogue.session.reader.resultsComing = false
  settled : dialogue.Settled

/-- Results come for one operation, in one group. -/
structure Listening (operation : Operation) (groupName : Text) (dialogue : Dialogue) : Prop where
  isOpen : dialogue.session.reader.isOpen = true
  connected : dialogue.session.reader.connected = true
  results : dialogue.session.reader.resultsComing = true
  response : dialogue.session.reader.response = []
  operation : dialogue.session.reader.currentOperation = some operation
  group : dialogue.group = some groupName
  settled : dialogue.Settled

/-! ## Calls while results come -/

/-- The command of an article call behind the selection of its group. -/
def articleCommand : Call → Command
  | .article _ articleId => .article articleId
  | .articleHeader _ articleId => .head articleId
  | _ => .list

def articleIdOf : Call → Text
  | .article _ articleId | .articleHeader _ articleId => articleId
  | _ => []

theorem run_listening {operation : Operation} {groupName : Text} (listening : Listening operation groupName dialogue)
    {call : Call} (isArticle : call.isArticle = true) :
    ∃ article, (∀ groupName articleId, call = .article groupName articleId → article = []) ∧
      call.run dialogue.session =
        (dialogue.session.update fun reader => { reader with articleId := articleIdOf call, article }).log
          (.sent (articleCommand call).text) := by
  cases call with
  | article name articleId =>
    refine ⟨[], fun _ _ _ => rfl, ?_⟩
    rw [Call.run, Session.article, if_pos listening.connected]
    dsimp only
    rw [if_pos (by exact listening.results), send_of_open (by exact listening.isOpen) (commandLine_ne_nil _ _)]
    rfl
  | articleHeader name articleId =>
    refine ⟨dialogue.session.reader.article, fun _ _ other => (by cases other), ?_⟩
    rw [Call.run, Session.articleHeader, if_pos listening.connected]
    dsimp only
    rw [if_pos (by exact listening.results), send_of_open (by exact listening.isOpen) (commandLine_ne_nil _ _)]
    rfl
  | _ => cases isArticle

theorem answer_articleCommand {call : Call} (isArticle : call.isArticle = true) (current : Option Text) :
    (server.answer current (articleCommand call)).2 = current := by
  cases call with
  | article groupName articleId => rfl
  | articleHeader groupName articleId => rfl
  | _ => cases isArticle

/-- A session that has asked for an article, results coming, and the answer to it. -/
theorem answer_listening {operation : Operation} {groupName : Text} {asked : Dialogue} {call : Call}
    {earlier : List Text} (isArticle : call.isArticle = true) (isOpen : asked.session.reader.isOpen = true)
    (connected : asked.session.reader.connected = true) (results : asked.session.reader.resultsComing = true)
    (response : asked.session.reader.response = [])
    (current : asked.session.reader.currentOperation = some operation) (group : asked.group = some groupName)
    (commands : asked.session.commands = earlier ++ [(articleCommand call).text])
    (answered : asked.answered = earlier.length) :
    Listening operation groupName (asked.answerNext server together) ∧
      (asked.answerNext server together).session.callbacks =
        asked.session.callbacks ++ deliverAll asked.session.reader
          (server.answer (some groupName) (articleCommand call)).1.fronts := by
  let answer := (server.answer (some groupName) (articleCommand call)).1
  rw [answerNext_asked commands answered, group]
  obtain ⟨sent, called, reader⟩ := @receive_lines _ isOpen results response answer.fronts
    (events (together asked.answered) answer.reads) (events_flatten _ _)
  -- while results are coming every line of the answer is delivered, none is recognised
  obtain ⟨article, later⟩ := deliveredAll_eq asked.session.reader answer.fronts
  rw [later] at reader
  refine ⟨⟨?_, ?_, ?_, ?_, ?_, answer_articleCommand isArticle _, ?_⟩, called⟩
  · rw [reader]
    exact isOpen
  · rw [reader]
    exact connected
  · rw [reader]
    exact results
  · rw [reader, response]
    simp
  · rw [reader]
    exact current
  · show asked.answered + 1 = _
    rw [sent, commands, answered, List.length_append, List.length_singleton]

variable (server) in
theorem perform_listening {operation : Operation} {groupName : Text}
    (listening : Listening operation groupName dialogue) {call : Call} (isArticle : call.isArticle = true) :
    Listening operation groupName (dialogue.perform server together call) ∧
      ∃ reader : NewsReader, reader.currentOperation = some operation ∧ reader.articleId = articleIdOf call ∧
        (∀ groupName articleId, call = .article groupName articleId → reader.article = []) ∧
        (dialogue.perform server together call).session.callbacks =
          dialogue.session.callbacks ++
            deliverAll reader (server.answer (some groupName) (articleCommand call)).1.fronts := by
  obtain ⟨article, noArticle, run⟩ := run_listening listening isArticle
  let asked : Dialogue := { dialogue with session := call.run dialogue.session }
  have reader : asked.session.reader = { dialogue.session.reader with articleId := articleIdOf call, article } := by
    simp [asked, run]
  have commands : asked.session.commands = dialogue.session.commands ++ [(articleCommand call).text] := by
    simp only [asked, run, commands_log_sent]
    rfl
  have callbacks : asked.session.callbacks = dialogue.session.callbacks := by
    simp only [asked, run, callbacks_log_sent]
    rfl
  obtain ⟨later, called⟩ := @answer_listening server together operation groupName asked call _ isArticle
    (by rw [reader]; exact listening.isOpen) (by rw [reader]; exact listening.connected)
    (by rw [reader]; exact listening.results) (by rw [reader]; exact listening.response)
    (by rw [reader]; exact listening.operation) listening.group commands listening.settled
  rw [perform, answerNext_settled later.settled]
  refine ⟨later, asked.session.reader, ?_, ?_, ?_, ?_⟩
  · rw [reader]
    exact listening.operation
  · rw [reader]
  · rw [reader]
    exact noArticle
  · rw [called, callbacks]

/-! ## Calls before results come -/

def operationOf : Call → Operation
  | .listGroups => .listGroups
  | .listArticles _ => .listGroupArticles
  | .article _ _ => .article
  | .articleHeader _ _ => .articleHeader

def firstCommand : Call → Command
  | .listGroups => .list
  | .listArticles groupName => .listGroup groupName
  | .article groupName _ | .articleHeader groupName _ => .group groupName

/-- The command that a call leaves for the time its group is selected. -/
def groupCommandOf (call : Call) (before : Text) : Text :=
  if call.isArticle then (articleCommand call).text else before

theorem run_waiting (waiting : Waiting dialogue) (call : Call) :
    ∃ article, (∀ groupName articleId, call = .article groupName articleId → article = []) ∧
      ∃ articleId, (call.isArticle = true → articleId = articleIdOf call) ∧
      call.run dialogue.session =
        (dialogue.session.update fun reader =>
          { reader with
            currentOperation := some (operationOf call)
            currentGroupCommand := groupCommandOf call reader.currentGroupCommand
            response := []
            articleId
            article }).log (.sent (firstCommand call).text) := by
  have stillOpen : dialogue.session.reader.isOpen = true := waiting.isOpen
  have notYet : ¬ dialogue.session.reader.resultsComing = true := by simp [waiting.results]
  cases call with
  | listGroups =>
    refine ⟨dialogue.session.reader.article, fun _ _ other => (by cases other), dialogue.session.reader.articleId,
      fun other => (by cases other), ?_⟩
    rw [Call.run, Session.listGroups, if_pos waiting.connected, send_of_open (by exact stillOpen) (by decide)]
    rfl
  | listArticles groupName =>
    refine ⟨dialogue.session.reader.article, fun _ _ other => (by cases other), dialogue.session.reader.articleId,
      fun other => (by cases other), ?_⟩
    rw [Call.run, Session.listArticles, if_pos waiting.connected,
      send_of_open (by exact stillOpen) (commandLine_ne_nil _ _)]
    rfl
  | article groupName articleId =>
    refine ⟨[], fun _ _ _ => rfl, articleId, fun _ => rfl, ?_⟩
    rw [Call.run, Session.article, if_pos waiting.connected]
    dsimp only
    rw [if_neg (by exact notYet), send_of_open (by exact stillOpen) (commandLine_ne_nil _ _)]
    rfl
  | articleHeader groupName articleId =>
    refine ⟨dialogue.session.reader.article, fun _ _ other => (by cases other), articleId, fun _ => rfl, ?_⟩
    rw [Call.run, Session.articleHeader, if_pos waiting.connected]
    dsimp only
    rw [if_neg (by exact notYet), send_of_open (by exact stillOpen) (commandLine_ne_nil _ _)]
    rfl

/-- The dialogue behind a call: one command is unanswered, the reader waits for its status line. -/
structure Asked (call : Call) (dialogue asked : Dialogue) : Prop where
  idle : Idle (some (operationOf call)) (groupCommandOf call dialogue.session.reader.currentGroupCommand)
    asked.session []
  connected : asked.session.reader.connected = true
  articleId : call.isArticle = true → asked.session.reader.articleId = articleIdOf call
  article : ∀ groupName articleId, call = .article groupName articleId → asked.session.reader.article = []
  commands : asked.session.commands = dialogue.session.commands ++ [(firstCommand call).text]
  callbacks : asked.session.callbacks = dialogue.session.callbacks
  group : asked.group = dialogue.group
  answered : asked.answered = dialogue.session.commands.length

theorem Waiting.asked (waiting : Waiting dialogue) (call : Call) :
    Asked call dialogue { dialogue with session := call.run dialogue.session } := by
  obtain ⟨article, noArticle, articleId, sameId, run⟩ := run_waiting waiting call
  refine ⟨⟨?_, ?_, ?_, ?_, ?_⟩, ?_, ?_, ?_, ?_, ?_, rfl, waiting.settled⟩
  · rw [run]
    exact waiting.isOpen
  · rw [run]
    exact waiting.results
  · rw [run]
    rfl
  · rw [run]
    rfl
  · rw [run]
    rfl
  · rw [run]
    exact waiting.connected
  · rw [run]
    exact sameId
  · rw [run]
    exact noArticle
  · rw [run, commands_log_sent]
    rfl
  · rw [run, callbacks_log_sent]
    rfl

/-- An answer that is not accepted has a status line the reader does not know, and selects no group. -/
theorem rejected_answer {call : Call} (rejected : call.accepted server = false) (current : Option Text) :
    recognise ((server.answer current (firstCommand call)).1.status ++ crlf.symbols) = none ∧
      (server.answer current (firstCommand call)).2 = current := by
  have noSuchGroup : recognise (Server.noSuchGroup.status ++ crlf.symbols) = none := by decide
  cases call with
  | listGroups =>
    refine ⟨?_, rfl⟩
    show recognise (("215 ".toList ++ server.list.1) ++ crlf.symbols) = none
    cases heard : recognise (("215 ".toList ++ server.list.1) ++ crlf.symbols) with
    | none => rfl
    | some known =>
      -- a 215 that the reader hears would be the greeting of an accepted list
      have code : "215 ".toList <+: ("215 ".toList ++ server.list.1) ++ crlf.symbols := by
        rw [List.append_assoc]
        exact List.prefix_append _ _
      obtain rfl := only_list_begins code (replyText_begins heard)
      have begins := starts_of_recognise (by decide) heard
      have words : replyText .newsGroupsFollow = "215 ".toList ++ "NewsGroups Follow".toList := by decide
      have line := starts_line (by decide : '\r' ∉ "NewsGroups Follow".toList) server.list.1 []
      rw [List.append_nil] at line
      rw [words, List.append_assoc, starts_append_append, line] at begins
      rw [Call.accepted, begins] at rejected
      cases rejected
  | listArticles groupName =>
    have unknown : server.listGroup groupName = none := by simpa [Call.accepted] using rejected
    rw [firstCommand, Server.answer, unknown]
    exact ⟨noSuchGroup, rfl⟩
  | article groupName articleId =>
    have unknown : server.group groupName = none := by simpa [Call.accepted] using rejected
    rw [firstCommand, Server.answer, unknown]
    exact ⟨noSuchGroup, rfl⟩
  | articleHeader groupName articleId =>
    have unknown : server.group groupName = none := by simpa [Call.accepted] using rejected
    rw [firstCommand, Server.answer, unknown]
    exact ⟨noSuchGroup, rfl⟩

theorem recognise_fronts {answer : Answer} (unknown : recognise (answer.status ++ crlf.symbols) = none)
    {fronts : List Text} (inside : fronts <+: answer.fronts) :
    recognise (fronts.flatMap fun front => front ++ crlf.symbols) = none := by
  cases fronts with
  | nil => decide
  | cons status fronts =>
    obtain ⟨rest, isFronts⟩ := inside
    obtain ⟨rfl, -⟩ := List.cons.inj isFronts
    rw [List.flatMap_cons, List.append_assoc, recognise_line, unknown]

theorem exists_texts {reads : List (Read × Bool)} {fronts : List Text}
    (lines : reads.map Prod.fst = fronts.map fun front => Read.ofText (front ++ crlf.symbols)) :
    ∃ texts : List (Text × Bool), reads = texts.map (fun (text, more) => (.ofText text, more)) ∧
      texts.map Prod.fst = fronts.map fun front => front ++ crlf.symbols := by
  induction fronts generalizing reads with
  | nil => exact ⟨[], List.map_eq_nil_iff.mp lines, rfl⟩
  | cons front fronts inductionHypothesis =>
    cases reads with
    | nil => cases lines
    | cons read reads =>
      obtain ⟨text, more⟩ := read
      obtain ⟨rfl, rest⟩ := List.cons.inj lines
      obtain ⟨texts, rfl, whole⟩ := inductionHypothesis rest
      exact ⟨(front ++ crlf.symbols, more) :: texts, rfl, by simp [whole]⟩

/-- A call that is not accepted hands over nothing, and the reader waits again. -/
theorem perform_rejected (waiting : Waiting dialogue) {call : Call} (rejected : call.accepted server = false) :
    Waiting (dialogue.perform server together call) ∧
      (dialogue.perform server together call).session.callbacks = dialogue.session.callbacks ∧
      (dialogue.perform server together call).session.reader.currentGroupCommand =
        groupCommandOf call dialogue.session.reader.currentGroupCommand := by
  let asked : Dialogue := { dialogue with session := call.run dialogue.session }
  have isAsked : Asked call dialogue asked := waiting.asked call
  obtain ⟨unheard, -⟩ := rejected_answer rejected asked.group
  let answer := (server.answer asked.group (firstCommand call)).1
  have lines : (markedEvents (events (together asked.answered) answer.reads)).map Prod.fst =
      answer.fronts.map fun front => Read.ofText (front ++ crlf.symbols) := by
    rw [markedEvents_map_fst, events_flatten]
    rfl
  obtain ⟨texts, isTexts, whole⟩ := exists_texts lines
  have received : asked.session.receive .silent (events (together asked.answered) answer.reads) =
      asked.session.readTexts texts := by
    rw [receive_eq_readSteps, isTexts]
    rfl
  have nothing : ∀ front, front <+: texts → recognise (textOf front) = none := by
    intro front inside
    have isFronts := List.prefix_iff_eq_take.mp (inside.map Prod.fst)
    rw [whole, ← List.map_take] at isFronts
    rw [textOf, List.flatMap_def, isFronts, ← List.flatMap_def]
    exact recognise_fronts unheard (List.take_prefix _ _)
  obtain ⟨idle, silent⟩ := isAsked.idle.unheard nothing
  have answered := @answerNext_asked server together asked _ _ isAsked.commands isAsked.answered
  rw [received] at answered
  have settled : (asked.answerNext server together).Settled := by
    rw [answered]
    show asked.answered + 1 = (asked.session.readTexts texts).commands.length
    rw [silent.commands, isAsked.commands, isAsked.answered, List.length_append, List.length_singleton]
  have performed : dialogue.perform server together call = asked.answerNext server together := by
    rw [perform, answerNext_settled settled]
  rw [performed]
  refine ⟨⟨?_, ?_, ?_, settled⟩, ?_, ?_⟩
  · rw [answered]
    exact idle.isOpen
  · rw [answered]
    exact silent.connected.trans isAsked.connected
  · rw [answered]
    exact idle.results
  · rw [answered]
    exact silent.callbacks.trans isAsked.callbacks
  · rw [answered]
    exact idle.groupCommand

/-- The status line that begins a block, and the lines behind it in the same answer. -/
theorem receive_accepted {operation : Option Operation} {groupCommand : Text} {session : Session Unit}
    (idle : Idle operation groupCommand session []) {status : Text} {reply : Reply}
    (heard : recognise (status ++ crlf.symbols) = some reply) (block : isLoud reply = false) {fronts : List Text}
    {events : List (List Read)}
    (lines : events.flatten = (status :: fronts).map fun front => Read.ofText (front ++ crlf.symbols)) :
    (session.receive .silent events).commands =
        session.commands ++ (if reply = .groupSelected ∧ groupCommand ≠ [] then [groupCommand] else []) ∧
      (session.receive .silent events).callbacks = session.callbacks ++ deliverAll session.reader fronts ∧
      (session.receive .silent events).reader =
        { session.reader with resultsComing := true, response := [] }.deliveredAll fronts := by
  have reads : (markedEvents events).map Prod.fst =
      (status :: fronts).map fun front => Read.ofText (front ++ crlf.symbols) := by
    rw [markedEvents_map_fst, lines]
  rw [receive_eq_readSteps]
  cases marks : markedEvents events with
  | nil =>
    rw [marks] at reads
    cases reads
  | cons read rest =>
    obtain ⟨text, more⟩ := read
    rw [marks] at reads
    obtain ⟨isText, isRest⟩ := List.cons.inj reads
    simp only at isText
    rw [isText, readSteps_cons, idle.read, List.nil_append]
    obtain ⟨ready, silent⟩ := idle.waited (status ++ crlf.symbols) (status ++ crlf.symbols)
    let accepted := (collected session (status ++ crlf.symbols) (status ++ crlf.symbols)).processResponse .silent
      (status ++ crlf.symbols)
    have reader : accepted.reader = { session.reader with resultsComing := true, response := [] } ∧
        accepted.callbacks = session.callbacks ∧
        accepted.commands =
          session.commands ++ (if reply = .groupSelected ∧ groupCommand ≠ [] then [groupCommand] else []) := by
      obtain ⟨isReader, called, sent⟩ := ready.accept heard block
      rw [silent.callbacks] at called
      rw [silent.commands] at sent
      exact ⟨isReader, called, sent⟩
    have later := @readSteps_lines accepted (by rw [reader.1]; exact idle.isOpen) (by rw [reader.1])
      (by rw [reader.1]) fronts rest isRest
    refine ⟨later.1.trans reader.2.2, ?_, ?_⟩
    · rw [later.2.1, reader.2.1]
      congr 1
      apply deliverAll_congr
      · rw [reader.1]
      · rw [reader.1]
        exact fun _ => rfl
      · rw [reader.1]
        exact fun _ => rfl
    · rw [later.2.2, reader.1]

/-- The group of an article call. -/
def groupOf : Call → Text
  | .article groupName _ | .articleHeader groupName _ => groupName
  | _ => []

theorem expected_article {call : Call} (isArticle : call.isArticle = true) (accepted : call.accepted server = true)
    {reader : NewsReader} (operation : reader.currentOperation = some (operationOf call))
    (articleId : reader.articleId = articleIdOf call)
    (article : ∀ groupName articleId, call = .article groupName articleId → reader.article = []) :
    deliverAll reader (server.answer (some (groupOf call)) (articleCommand call)).1.fronts =
      call.expected server := by
  cases call with
  | article groupName id =>
    obtain ⟨numbers, found⟩ := Option.isSome_iff_exists.mp accepted
    rw [Call.expected, found]
    exact deliverAll_congr operation (fun _ => articleId) (fun _ => article _ _ rfl) _
  | articleHeader groupName id =>
    obtain ⟨numbers, found⟩ := Option.isSome_iff_exists.mp accepted
    rw [Call.expected, found]
    refine deliverAll_congr operation (fun _ => articleId) (fun isArticle => ?_) _
    rw [operation] at isArticle
    cases isArticle
  | _ => cases isArticle

theorem isArticle_iff (call : Call) :
    call.isArticle = true ↔ operationOf call = .article ∨ operationOf call = .articleHeader := by
  cases call <;> simp [Call.isArticle, operationOf]

theorem accepted_article {call : Call} (isArticle : call.isArticle = true) :
    call.accepted server = (server.group (groupOf call)).isSome := by
  cases call with
  | article groupName articleId => rfl
  | articleHeader groupName articleId => rfl
  | _ => cases isArticle

theorem answer_group {call : Call} (isArticle : call.isArticle = true) (accepted : call.accepted server = true)
    (current : Option Text) : ∃ numbers, server.answer current (firstCommand call) =
      (⟨"211 ".toList ++ Server.groupWords numbers (groupOf call), none⟩, some (groupOf call)) := by
  obtain ⟨numbers, found⟩ : ∃ numbers, server.group (groupOf call) = some numbers := by
    rw [← Option.isSome_iff_exists, ← accepted_article isArticle]
    exact accepted
  refine ⟨numbers, ?_⟩
  cases call with
  | article groupName articleId =>
    rw [groupOf] at found
    rw [firstCommand, Server.answer, found]
    rfl
  | articleHeader groupName articleId =>
    rw [groupOf] at found
    rw [firstCommand, Server.answer, found]
    rfl
  | _ => cases isArticle

theorem recognise_groupWords (numbers : Nat × Nat × Nat) (groupName : Text) :
    recognise (("211 ".toList ++ Server.groupWords numbers groupName) ++ crlf.symbols) = some .groupSelected := by
  rw [List.append_assoc, recognise_211 (Server.joined_groupWords numbers groupName _), Server.groupWords_number]
  rfl

theorem articleCommand_ne_nil {call : Call} (isArticle : call.isArticle = true) : (articleCommand call).text ≠ [] := by
  cases call with
  | article groupName articleId => exact commandLine_ne_nil _ _
  | articleHeader groupName articleId => exact commandLine_ne_nil _ _
  | _ => cases isArticle

/-- The first article call that is accepted: its group is selected, then the article asked for. -/
theorem perform_accepted_article (waiting : Waiting dialogue) {call : Call} (isArticle : call.isArticle = true)
    (accepted : call.accepted server = true) :
    Listening (operationOf call) (groupOf call) (dialogue.perform server together call) ∧
      (dialogue.perform server together call).session.callbacks =
        dialogue.session.callbacks ++ call.expected server := by
  let asked : Dialogue := { dialogue with session := call.run dialogue.session }
  have isAsked : Asked call dialogue asked := waiting.asked call
  obtain ⟨numbers, answer⟩ := answer_group isArticle accepted asked.group
  have heard := recognise_groupWords numbers (groupOf call)
  have command : groupCommandOf call dialogue.session.reader.currentGroupCommand = (articleCommand call).text :=
    if_pos isArticle
  have nonempty := articleCommand_ne_nil isArticle
  have selected := @answerNext_asked server together asked _ _ isAsked.commands isAsked.answered
  rw [answer] at selected
  obtain ⟨sent, called, reader⟩ := @receive_accepted _ _ _ isAsked.idle _ _ heard rfl []
    (events (together asked.answered) _) (events_flatten _ _)
  rw [if_pos ⟨rfl, command ▸ nonempty⟩, command, isAsked.commands] at sent
  let middle := asked.answerNext server together
  have isReader : middle.session.reader = { asked.session.reader with resultsComing := true, response := [] } := by
    rw [show middle = _ from selected]
    exact reader
  have commands : middle.session.commands =
      (dialogue.session.commands ++ [(firstCommand call).text]) ++ [(articleCommand call).text] := by
    rw [show middle = _ from selected]
    exact sent
  have callbacks : middle.session.callbacks = dialogue.session.callbacks := by
    rw [show middle = _ from selected]
    exact called.trans ((List.append_nil _).trans isAsked.callbacks)
  have answered : middle.answered = (dialogue.session.commands ++ [(firstCommand call).text]).length := by
    rw [show middle = _ from selected, List.length_append, List.length_singleton, ← isAsked.answered]
  have group : middle.group = some (groupOf call) := by
    rw [show middle = _ from selected]
  obtain ⟨later, delivered⟩ := @answer_listening server together (operationOf call) (groupOf call) middle call _
    isArticle (by rw [isReader]; exact isAsked.idle.isOpen) (by rw [isReader]; exact isAsked.connected)
    (by rw [isReader]) (by rw [isReader]) (by rw [isReader]; exact isAsked.idle.operation) group commands answered
  refine ⟨later, ?_⟩
  rw [callbacks] at delivered
  rw [perform]
  refine delivered.trans (congrArg _ (expected_article isArticle accepted ?_ ?_ ?_))
  · rw [isReader]
    exact isAsked.idle.operation
  · rw [isReader]
    exact isAsked.articleId isArticle
  · rw [isReader]
    exact isAsked.article

/-- LISTGROUP is not mistaken for the selection of a group. -/
def Clear (server : Server) (groupCommand : Text) (call : Call) : Prop :=
  ∀ groupName words lines, call = .listArticles groupName → server.listGroup groupName = some (words, lines) →
    starts words "Article Numbers Follow".toList = true ∨ groupCommand = []

/-- The answer to an accepted list call: a status line that lets the list in, and sends nothing. -/
theorem answer_list {groupCommand : Text} {call : Call} (isList : call.isArticle = false)
    (accepted : call.accepted server = true) (clear : Clear server groupCommand call) (current : Option Text) :
    ∃ status lines reply, (server.answer current (firstCommand call)).1 = ⟨status, some lines⟩ ∧
      recognise (status ++ crlf.symbols) = some reply ∧ isLoud reply = false ∧
      ¬ (reply = .groupSelected ∧ groupCommand ≠ []) ∧
      call.expected server = deliverAll (listener (operationOf call) []) [Answer.blockText lines] := by
  cases call with
  | listGroups =>
    obtain ⟨words, isWords, unjoined⟩ := starts_iff.mp accepted
    refine ⟨"215 ".toList ++ server.list.1, server.list.2, .newsGroupsFollow, rfl, ?_, rfl,
      fun both => (by cases both.1), if_pos accepted⟩
    have joined : ("215 ".toList ++ server.list.1) ++ crlf.symbols =
        "215 NewsGroups Follow".toList ++ (words ++ crlf.symbols) := by
      rw [isWords]
      simp
    rw [joined, recognise_215 (joined_line unjoined)]
  | listArticles groupName =>
    obtain ⟨⟨words, lines⟩, found⟩ := Option.isSome_iff_exists.mp accepted
    have answer : (server.answer current (.listGroup groupName)).1 = ⟨"211 ".toList ++ words, some lines⟩ := by
      rw [Server.answer, found]
    have expected : Call.expected server (.listArticles groupName) =
        deliverAll (listener .listGroupArticles []) [Answer.blockText lines] := by
      rw [Call.expected, found]
    have unjoined := server.listGroupApart groupName words lines found
    by_cases follow : starts words "Article Numbers Follow".toList = true
    · refine ⟨_, lines, .articleNumbersFollow, answer, ?_, rfl, fun both => (by cases both.1), expected⟩
      have line := starts_line (by decide : '\r' ∉ "Article Numbers Follow".toList) words []
      rw [List.append_nil] at line
      rw [List.append_assoc, recognise_211 (joined_line unjoined), if_pos (line.trans follow)]
    · have nothing := (clear groupName words lines rfl found).resolve_left follow
      obtain ⟨reply, heard, block⟩ : ∃ reply,
          recognise ("211 ".toList ++ (words ++ crlf.symbols)) = some reply ∧ isLoud reply = false := by
        rw [recognise_211 (joined_line unjoined)]
        split
        · exact ⟨_, rfl, rfl⟩
        · exact ⟨_, rfl, rfl⟩
      exact ⟨_, lines, reply, answer, by rw [List.append_assoc, heard], block, fun both => both.2 nothing, expected⟩
  | _ => cases isList

theorem perform_accepted_list (waiting : Waiting dialogue) {call : Call} (isList : call.isArticle = false)
    (accepted : call.accepted server = true)
    (clear : Clear server dialogue.session.reader.currentGroupCommand call) :
    (dialogue.perform server together call).session.callbacks =
      dialogue.session.callbacks ++ call.expected server := by
  let asked : Dialogue := { dialogue with session := call.run dialogue.session }
  have isAsked : Asked call dialogue asked := waiting.asked call
  have command : groupCommandOf call dialogue.session.reader.currentGroupCommand =
      dialogue.session.reader.currentGroupCommand := if_neg (by simp [isList])
  obtain ⟨status, lines, reply, isAnswer, heard, block, nothingSent, expected⟩ :=
    answer_list isList accepted clear asked.group
  obtain ⟨sent, called, -⟩ := @receive_accepted _ _ _ isAsked.idle _ _ heard block [Answer.blockText lines]
    (events (together asked.answered) (server.answer asked.group (firstCommand call)).1.reads) (by
      rw [events_flatten, isAnswer]
      rfl)
  rw [command, if_neg nothingSent, List.append_nil] at sent
  have first := @answerNext_asked server together asked _ _ isAsked.commands isAsked.answered
  have settled : (asked.answerNext server together).Settled := by
    rw [first]
    show asked.answered + 1 = _
    rw [sent, isAsked.commands, isAsked.answered, List.length_append, List.length_singleton]
  rw [perform, answerNext_settled settled, first]
  refine called.trans ?_
  rw [isAsked.callbacks, expected]
  have listOperation : operationOf call ≠ .article ∧ operationOf call ≠ .articleHeader := by
    cases call with
    | listGroups => exact ⟨nofun, nofun⟩
    | listArticles groupName => exact ⟨nofun, nofun⟩
    | _ => cases isList
  congr 1
  apply deliverAll_congr
  · exact isAsked.idle.operation
  · intro isHeader
    exact absurd (Option.some.inj (isAsked.idle.operation.symm.trans isHeader)) listOperation.2
  · intro isArticle
    exact absurd (Option.some.inj (isAsked.idle.operation.symm.trans isArticle)) listOperation.1

end EasyNews.Verified.SessionModes
