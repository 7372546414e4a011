import EasyNews.ListeningRuns
import EasyNews.ReaderClients

/-! # One call, one command line

The reader ends its commands with a bare LF, but takes lines of a reply to end with CR LF only, and fields
with spaces. So a name it has read may contain an LF, and a command with this name is two lines to the
server. A command is one line exactly if the name in it has no LF.
-/

namespace EasyNews.Verified.CommandLines

open Session

/-- The text contains exactly one line feed, at its end. -/
def OneCommand (text : Text) : Prop := text.count '\n' = 1 ∧ text.getLast? = some '\n'

instance : DecidablePred OneCommand := fun text =>
  inferInstanceAs (Decidable (text.count '\n' = 1 ∧ text.getLast? = some '\n'))

theorem oneCommand_commandLine {verb : String} (plain : '\n' ∉ verb.toList) (argument : Text) :
    OneCommand (commandLine verb argument) ↔ '\n' ∉ argument := by
  have ends : (commandLine verb argument).getLast? = some '\n' := List.getLast?_concat
  have inVerb : verb.toList.count '\n' = 0 := List.count_eq_zero.mpr plain
  have total : (commandLine verb argument).count '\n' = argument.count '\n' + 1 := by
    simp [commandLine, inVerb]
  rw [OneCommand, total, and_iff_left ends, Nat.add_eq_right, List.count_eq_zero]

/-! ## One request -/

/-- The group name and the article id a request passes on. -/
def names : Request → List Text
  | .quit | .close | .listGroups => []
  | .listArticles groupName => [groupName]
  | .article groupName articleId | .articleHeader groupName articleId => [groupName, articleId]

/-- No name in the request has a line feed. -/
def Plain (request : Request) : Prop := ∀ name ∈ names request, '\n' ∉ name

variable {δ : Type}

/-- What is written from one session to the later one, or stored until the server has selected a group, is
    one command each time. -/
structure WritesOneCommand (session later : Session δ) : Prop where
  written : ∃ added, later.commands = session.commands ++ added ∧ ∀ text ∈ added, OneCommand text
  selected : later.reader.currentGroupCommand = session.reader.currentGroupCommand ∨
    OneCommand later.reader.currentGroupCommand

section Steps

variable {session later : Session δ}

theorem WritesOneCommand.refl (session : Session δ) : WritesOneCommand session session where
  written := ⟨[], (List.append_nil _).symm, fun _ member => absurd member List.not_mem_nil⟩
  selected := .inl rfl

theorem WritesOneCommand.send (writes : WritesOneCommand session later) {command : Text} (one : OneCommand command) :
    WritesOneCommand session (later.send command) where
  written := by
    obtain ⟨added, isAdded, all⟩ := writes.written
    unfold Session.send
    split
    · refine ⟨added ++ [command], by rw [commands_log_sent, isAdded, List.append_assoc], fun text member => ?_⟩
      cases List.mem_append.mp member with
      | inl earlier => exact all text earlier
      | inr isLast => exact List.mem_singleton.mp isLast ▸ one
    · exact ⟨added, isAdded, all⟩
  selected := by
    rw [send_reader]
    exact writes.selected

theorem WritesOneCommand.update (writes : WritesOneCommand session later) {change : NewsReader → NewsReader}
    (same : (change later.reader).currentGroupCommand = later.reader.currentGroupCommand) :
    WritesOneCommand session (later.update change) where
  written := writes.written
  selected := by
    rw [update_reader, same]
    exact writes.selected

theorem WritesOneCommand.store (writes : WritesOneCommand session later) {change : NewsReader → NewsReader}
    (one : OneCommand (change later.reader).currentGroupCommand) : WritesOneCommand session (later.update change) where
  written := writes.written
  selected := .inr one

theorem WritesOneCommand.notConnected (session : Session δ) : WritesOneCommand session session.notConnected where
  written := ⟨[], by rw [List.append_nil, Session.notConnected, commands_log_called],
    fun _ member => absurd member List.not_mem_nil⟩
  selected := .inl rfl

end Steps

theorem Plain.writesOneCommand {request : Request} (plain : Plain request) (session : Session δ) :
    WritesOneCommand session (session.request request) := by
  have start := WritesOneCommand.refl session
  cases request with
  | quit =>
    simp only [Session.request, quit]
    split
    · exact start.send (by decide)
    · exact start
  | close =>
    simp only [Session.request, close]
    split
    · exact start.update rfl
    · exact start
  | listGroups =>
    simp only [Session.request, listGroups]
    split
    · exact (start.update rfl).send (by decide)
    · exact .notConnected session
  | listArticles groupName =>
    have one := (@oneCommand_commandLine "LISTGROUP" (by decide) groupName).mpr (plain _ (by simp [names]))
    simp only [Session.request, listArticles]
    split
    · exact (start.update rfl).send one
    · exact .notConnected session
  | article groupName articleId =>
    have group := (@oneCommand_commandLine "GROUP" (by decide) groupName).mpr (plain _ (by simp [names]))
    have one := (@oneCommand_commandLine "ARTICLE" (by decide) articleId).mpr (plain _ (by simp [names]))
    simp only [Session.request, Session.article]
    split
    · -- with results coming the group counts as selected, else its command is stored
      split
      · exact (start.update rfl).send one
      · exact ((start.update rfl).store one).send group
    · exact .notConnected session
  | articleHeader groupName articleId =>
    have group := (@oneCommand_commandLine "GROUP" (by decide) groupName).mpr (plain _ (by simp [names]))
    have one := (@oneCommand_commandLine "HEAD" (by decide) articleId).mpr (plain _ (by simp [names]))
    simp only [Session.request, Session.articleHeader]
    split
    · split
      · exact (start.update rfl).send one
      · exact ((start.update rfl).store one).send group
    · exact .notConnected session

def ready : Session Unit where
  reader := { username := [], password := [], isOpen := true, connected := true }
  delegate := ()

theorem plain_pair {groupName articleId : Text} (group : '\n' ∉ groupName) (article : '\n' ∉ articleId) :
    ∀ name ∈ [groupName, articleId], '\n' ∉ name := by
  intro name member
  cases List.mem_cons.mp member with
  | inl isGroup => exact isGroup ▸ group
  | inr isArticle => exact List.mem_singleton.mp isArticle ▸ article

theorem plain_of_writesOneCommand {request : Request} (writes : WritesOneCommand ready (ready.request request)) :
    Plain request := by
  obtain ⟨⟨added, isAdded, all⟩, selected⟩ := writes
  have each : ∀ text ∈ (ready.request request).commands, OneCommand text := fun text member => by
    rw [isAdded] at member
    exact all text member
  cases request with
  | quit | close | listGroups => exact fun name member => absurd member List.not_mem_nil
  | listArticles groupName =>
    intro name member
    rw [List.mem_singleton.mp member]
    exact (@oneCommand_commandLine "LISTGROUP" (by decide) groupName).mp (each _ List.mem_cons_self)
  | article groupName articleId =>
    have stored := selected.resolve_left (commandLine_ne_nil "ARTICLE" articleId)
    exact plain_pair ((@oneCommand_commandLine "GROUP" (by decide) groupName).mp (each _ List.mem_cons_self))
      ((@oneCommand_commandLine "ARTICLE" (by decide) articleId).mp stored)
  | articleHeader groupName articleId =>
    have stored := selected.resolve_left (commandLine_ne_nil "HEAD" articleId)
    exact plain_pair ((@oneCommand_commandLine "GROUP" (by decide) groupName).mp (each _ List.mem_cons_self))
      ((@oneCommand_commandLine "HEAD" (by decide) articleId).mp stored)

/-! ## What the reader has read -/

def namesOf : Callback → List Text
  | .groups groups => groups.map (·.name)
  | .articles articleIds => articleIds
  | _ => []

/-- The names the read loop hands over for the text in front of the last CR LF. -/
def delivered (reader : NewsReader) (front : Text) : List Text := (deliveries reader front).flatMap namesOf

/-- The names in one line of a body. -/
def namesOfLine (operation : Option Operation) (line : Text) : List Text :=
  match operation with
  | some .listGroupArticles => [line]
  | some .listGroups => if (groupOfLine line).isSome then (splitWords line).head?.toList else []
  | _ => []

theorem groupOfLine_name {line : Text} {group : NewsGroup} (isGroup : groupOfLine line = some group) :
    (splitWords line).head? = some group.name := by
  unfold groupOfLine at isGroup
  split at isGroup
  · rename_i name last first flag words
    rw [words]
    simp only [Option.bind_eq_bind, Option.bind_eq_some_iff, Option.pure_def, Option.some.injEq] at isGroup
    obtain ⟨_, -, _, -, rfl⟩ := isGroup
    rfl
  · cases isGroup

theorem mem_delivered_iff (reader : NewsReader) (front name : Text) :
    name ∈ delivered reader front ↔
      ∃ line ∈ split front, line ≠ terminatorLine ∧ name ∈ namesOfLine reader.currentOperation line := by
  unfold delivered deliveries namesOfLine
  cases reader.currentOperation with
  | none => simp
  | some operation =>
    cases operation with
    | article =>
      dsimp only
      split <;> simp [namesOf]
    | articleHeader => simp [namesOf]
    | listGroupArticles =>
      dsimp only
      split <;> simp [namesOf]
    | listGroups =>
      dsimp only
      have inLine : ∀ line, name ∈ (if (groupOfLine line).isSome then (splitWords line).head?.toList else []) ↔
          ∃ group, groupOfLine line = some group ∧ group.name = name := by
        intro line
        cases isGroup : groupOfLine line with
        | none => simp
        | some group => simp [groupOfLine_name isGroup, eq_comm]
      simp only [inLine]
      have groups : name ∈ (((split front).filter (· ≠ terminatorLine)).filterMap groupOfLine).map (·.name) ↔
          ∃ line ∈ split front, line ≠ terminatorLine ∧ ∃ group, groupOfLine line = some group ∧ group.name = name := by
        simp only [List.mem_map, List.mem_filterMap, List.mem_filter, decide_eq_true_iff]
        constructor
        · rintro ⟨group, ⟨line, ⟨inside, notLast⟩, isGroup⟩, isName⟩
          exact ⟨line, inside, notLast, group, isGroup, isName⟩
        · rintro ⟨line, inside, notLast, group, isGroup, isName⟩
          exact ⟨group, ⟨line, ⟨inside, notLast⟩, isGroup⟩, isName⟩
      rw [← groups]
      split
      · rename_i empty
        simp [empty]
      · split <;> simp [namesOf]

/-- Passing on what is read from a text is safe exactly if the names in its lines are plain. -/
theorem delivered_plain_iff (reader : NewsReader) (front : Text) :
    (∀ request, (∀ name ∈ names request, name ∈ delivered reader front) →
        ∀ session : Session Unit, WritesOneCommand session (session.request request)) ↔
      ∀ line ∈ split front, line ≠ terminatorLine →
        ∀ name ∈ namesOfLine reader.currentOperation line, '\n' ∉ name := by
  constructor
  · intro safe line inside notLast name inLine
    have isDelivered := (mem_delivered_iff reader front name).mpr ⟨line, inside, notLast, inLine⟩
    have writes := safe (.listArticles name) (fun other member => List.mem_singleton.mp member ▸ isDelivered) ready
    exact plain_of_writesOneCommand writes name List.mem_cons_self
  · intro plain request passed session
    refine Plain.writesOneCommand (fun name member => ?_) session
    obtain ⟨line, inside, notLast, inLine⟩ := (mem_delivered_iff reader front name).mp (passed name member)
    exact plain line inside notLast name inLine

/-! ## Runs -/

def IsLogin (text : Text) : Prop := "AUTHINFO ".toList <+: text

/-- What has been written, and what is stored to be written, is one command each time. -/
structure AllOneCommand (session : Session δ) : Prop where
  written : ∀ text ∈ session.commands, OneCommand text ∨ IsLogin text
  selected : session.reader.currentGroupCommand = [] ∨ OneCommand session.reader.currentGroupCommand

section Runs

variable {session : Session δ}

theorem AllOneCommand.writes {later : Session δ} (all : AllOneCommand session)
    (writes : WritesOneCommand session later) : AllOneCommand later where
  written text member := by
    obtain ⟨added, isAdded, each⟩ := writes.written
    rw [isAdded] at member
    cases List.mem_append.mp member with
    | inl earlier => exact all.written text earlier
    | inr new => exact .inl (each text new)
  selected := by
    cases writes.selected with
    | inl same => exact same ▸ all.selected
    | inr one => exact .inr one

theorem AllOneCommand.login (all : AllOneCommand session) {command : Text} (isLogin : IsLogin command) :
    AllOneCommand (session.send command) where
  written text member := by
    unfold send at member
    split at member
    · rw [commands_log_sent] at member
      cases List.mem_append.mp member with
      | inl earlier => exact all.written text earlier
      | inr new => exact .inr (List.mem_singleton.mp new ▸ isLogin)
    · exact all.written text member
  selected := by
    rw [send_reader]
    exact all.selected

theorem AllOneCommand.of_same {later : Session δ} (all : AllOneCommand session)
    (commands : later.commands = session.commands)
    (groupCommand : later.reader.currentGroupCommand = session.reader.currentGroupCommand) : AllOneCommand later where
  written := commands ▸ all.written
  selected := groupCommand ▸ all.selected

variable {client : Client δ} (asks : client.Asks Plain)
include asks

theorem AllOneCommand.call (callback : Callback) (session : Session δ) (all : AllOneCommand session) :
    AllOneCommand (session.call client.delegate callback) :=
  client.handle_invariant_of_asks asks (fun _ _ all => all.of_same rfl rfl)
    (fun session _ plain all => all.writes (plain.writesOneCommand session)) callback
    (all.of_same (commands_log_called callback session) rfl)

theorem AllOneCommand.processResponse (buffer : Text) (session : Session δ) (all : AllOneCommand session) :
    AllOneCommand (session.processResponse client.delegate buffer) := by
  unfold Session.processResponse
  cases recognise buffer with
  | none => exact all
  | some reply =>
    cases reply with
    | welcome => exact (all.login (List.prefix_append "AUTHINFO ".toList _)).of_same rfl rfl
    | terminator => exact AllOneCommand.call asks _ _ all
    | passRequired => exact (all.login (List.prefix_append "AUTHINFO ".toList _)).of_same rfl rfl
    | loggedIn =>
      have connected : AllOneCommand (session.update fun reader => { reader with connected := true }) :=
        all.of_same rfl rfl
      exact (AllOneCommand.call asks _ _ connected).of_same rfl rfl
    | authenticationFailed => exact (AllOneCommand.call asks _ _ all).of_same rfl rfl
    | goodbye =>
      have closed : AllOneCommand session.close :=
        all.of_same (commands_of_trace (close_trace session)) (by rw [close_reader])
      exact (AllOneCommand.call asks _ _ closed).of_same rfl rfl
    | newsGroupsFollow | articleNumbersFollow => exact all.of_same rfl rfl
    | groupSelected =>
      have begun : AllOneCommand (session.update fun reader => { reader with resultsComing := true, response := [] }) :=
        all.of_same rfl rfl
      cases all.selected with
      | inl empty =>
        have nothing : ∀ session : Session δ, session.send [] = session := fun session => by simp [send]
        dsimp only
        rw [update_reader, empty, nothing]
        exact begun
      | inr one => exact begun.writes ((WritesOneCommand.refl _).send one)

theorem AllOneCommand.deliver (session : Session δ) (all : AllOneCommand session) :
    AllOneCommand (session.deliver client.delegate) :=
  deliver_invariant (AllOneCommand.call asks) (fun _ _ all => all.of_same rfl rfl)
    (fun _ _ _ all => all.of_same rfl rfl) session all

theorem AllOneCommand.readStep (more : Bool) (read : Read) (session : Session δ) (all : AllOneCommand session) :
    AllOneCommand (session.readStep client.delegate more read) :=
  readStep_invariant (fun output session all => all.of_same (commands_log_received output session) rfl)
    (fun _ _ all => all.of_same rfl rfl) (AllOneCommand.deliver asks)
    (fun _ all => AllOneCommand.processResponse asks _ _ all) more read session all

end Runs

/-- A run whose requests, the client's among them, have plain names. -/
def AsksPlain (client : Client δ) (actions : List (Action δ)) : Prop :=
  client.Asks Plain ∧ ∀ request, .request request ∈ actions → Plain request

theorem allOneCommand_run {client : Client δ} {actions : List (Action δ)} (asks : AsksPlain client actions)
    (username password : Text) (delegate : δ) :
    AllOneCommand ((new username password delegate).run client actions) := by
  refine Runs.invariant_foldl_of_mem _ (fun session action inside all => ?_)
    ⟨fun text member => absurd member List.not_mem_nil, .inl rfl⟩
  cases action with
  | openStreams created =>
    rw [act, openStreams]
    split
    · exact all
    · exact all.of_same rfl rfl
  | request request => exact all.writes ((asks.2 request inside).writesOneCommand session)
  | assign delegate => exact all.of_same rfl rfl
  | receive reads =>
    rw [act, hasBytesAvailable_eq_readSteps]
    exact Runs.invariant_foldl _ (fun session step all => AllOneCommand.readStep asks.1 step.2 step.1 session all) all _

/-- A request writes one command each time, in any state, exactly if its names are plain; the names read
    from a text are plain exactly if those in its lines are; and in a run whose requests are plain every
    text written is one command. -/
theorem one_command_iff (request : Request) (reader : NewsReader) (front : Text) :
    ((∀ session : Session Unit, WritesOneCommand session (session.request request)) ↔ Plain request) ∧
      ((∀ request, (∀ name ∈ names request, name ∈ delivered reader front) →
          ∀ session : Session Unit, WritesOneCommand session (session.request request)) ↔
        ∀ line ∈ split front, line ≠ terminatorLine →
          ∀ name ∈ namesOfLine reader.currentOperation line, '\n' ∉ name) ∧
      ∀ (δ : Type) (client : Client δ) (actions : List (Action δ)), AsksPlain client actions →
        ∀ (username password : Text) (delegate : δ), ∀ text ∈
          ((new username password delegate).run client actions).commands, OneCommand text ∨ IsLogin text := by
  refine ⟨⟨fun writes => plain_of_writesOneCommand (writes ready), Plain.writesOneCommand⟩,
    delivered_plain_iff reader front, fun δ client actions asks username password delegate => ?_⟩
  exact (allOneCommand_run asks username password delegate).written

def awaitingList : Session Unit :=
  { awaitingArticle with reader := { awaitingArticle.reader with currentOperation := some .listGroups } }

/-- A group name with a line feed in it is delivered, and LISTGROUP with it is two lines. -/
theorem delivered_name_is_two_commands :
    ¬ (∀ (reader : NewsReader) (front : Text) (request : Request),
      (∀ name ∈ names request, name ∈ delivered reader front) →
        ∀ session : Session Unit, WritesOneCommand session (session.request request)) ∧
    (awaitingList.hasBytesAvailable .silent [.ofText "a\nQUIT 2 1 y\r\n".toList]).callbacks.flatMap namesOf =
      ["a\nQUIT".toList] ∧
    ((awaitingList.hasBytesAvailable .silent [.ofText "a\nQUIT 2 1 y\r\n".toList]).request
      (.listArticles "a\nQUIT".toList)).commands = ["LISTGROUP a\nQUIT\n".toList] := by
  refine ⟨fun claim => ?_, by decide, by decide⟩
  have isDelivered : "a\nQUIT".toList ∈ delivered awaitingList.reader "a\nQUIT 2 1 y".toList := by decide
  have writes := claim awaitingList.reader "a\nQUIT 2 1 y".toList (.listArticles "a\nQUIT".toList)
    (fun name member => List.mem_singleton.mp member ▸ isDelivered) ready
  exact absurd (plain_of_writesOneCommand writes _ List.mem_cons_self) (by decide)

end EasyNews.Verified.CommandLines
