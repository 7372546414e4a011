import EasyNews.CollectingRuns
import EasyNews.Verified.ArticleFraming

/-! # The sessions of the collecting commands

From the greeting to the end of the connection: every status line comes in a read of its own, and the block
behind them in reads that complete a line each.
-/

namespace EasyNews.Verified.CommandSessions

open Session ArticleTransfer ArticleFraming WaitingRuns

variable {δ : Type} {delegate : NewsReaderDelegate δ} {take : Callback → δ → δ}

/-! ## The login -/

/-- A connection on which nothing has been read. -/
structure Opened (session : Session δ) : Prop where
  isOpen : session.reader.isOpen = true
  results : session.reader.resultsComing = false
  response : session.reader.response = []

/-- The status lines of a login. -/
structure Login where
  greeting : Text
  passRequired : Text
  loggedIn : Text
  isGreeting : recognise greeting = some .welcome
  isPassRequired : recognise passRequired = some .passRequired
  isLoggedIn : recognise loggedIn = some .loggedIn

namespace Login

def texts (login : Login) : List Text := [login.greeting, login.passRequired, login.loggedIn]

def commands (reader : NewsReader) : List Text :=
  [commandLine "AUTHINFO user" reader.username, commandLine "AUTHINFO pass" reader.password]

/-- The session when the command is told that it is connected. -/
def connected (login : Login) (session : Session δ) : Session δ where
  reader := { session.reader with connected := true, response := login.loggedIn }
  delegate := session.delegate
  trace := session.trace ++
    [.received (some login.greeting), .sent (commandLine "AUTHINFO user" session.reader.username),
      .received (some login.passRequired), .sent (commandLine "AUTHINFO pass" session.reader.password),
      .received (some login.loggedIn), .called (.notification .connected)]

theorem connected_commands (login : Login) (session : Session δ) :
    (login.connected session).commands = session.commands ++ commands session.reader := by
  simp [Session.commands, connected, commands]

end Login

/-- A text and whether more follows it in its event, as the loop reads it. -/
def textRead (text : Text × Bool) : Read × Bool := Prod.map Read.ofText id text

theorem receive_textReads (asciiDecode : Bytes → Option Text) (events : List (List Text)) (session : Session δ) :
    session.receive delegate (events.map (·.map fun text => Read.ofBytes asciiDecode (utf8 text))) =
      session.readSteps delegate ((markedEvents events).map textRead) := by
  have decoded : (events.map (·.map fun text => Read.ofBytes asciiDecode (utf8 text))) =
      events.map (·.map Read.ofText) := by
    simp
  rw [receive_eq_readSteps, decoded, markedEvents_map]
  rfl

theorem Opened.readStep {session : Session δ} (opened : Opened session) (text : Text) (more : Bool) :
    session.readStep delegate more (.ofText text) =
      ((session.log (.received (some text))).setResponse text).processResponse delegate text := by
  rw [Read.ofText, readStep_control _ more opened.isOpen opened.results, opened.response, List.nil_append]

theorem Opened.login {session : Session δ} (opened : Opened session) (login : Login) {reads : List (Text × Bool)}
    (arrive : reads.map Prod.fst = login.texts) :
    session.readSteps delegate (reads.map textRead) =
      (delegate.handle (.notification .connected) (login.connected session)).setResponse [] := by
  obtain ⟨⟨greeting, moreGreeting⟩, rest, rfl, isGreeting, atPass⟩ := List.map_eq_cons_iff.mp arrive
  obtain ⟨⟨passRequired, morePass⟩, rest, rfl, isPass, atLoggedIn⟩ := List.map_eq_cons_iff.mp atPass
  obtain ⟨⟨loggedIn, moreLoggedIn⟩, rfl, isLoggedIn⟩ := List.map_eq_singleton_iff.mp atLoggedIn
  dsimp only at isGreeting isPass isLoggedIn
  subst isGreeting isPass isLoggedIn
  let greeted : Session δ :=
    { session with
      trace := session.trace ++
        [.received (some login.greeting), .sent (commandLine "AUTHINFO user" session.reader.username)] }
  let named : Session δ :=
    { session with
      trace := greeted.trace ++
        [.received (some login.passRequired), .sent (commandLine "AUTHINFO pass" session.reader.password)] }
  have emptied : { session.reader with response := [] } = session.reader := by rw [← opened.response]
  have greet : session.readStep delegate moreGreeting (.ofText login.greeting) = greeted := by
    rw [opened.readStep, processResponse, login.isGreeting]
    dsimp only
    rw [send_of_open (by exact opened.isOpen) (commandLine_ne_nil _ _)]
    simp [greeted, log, setResponse, update, emptied]
  have name : greeted.readStep delegate morePass (.ofText login.passRequired) = named := by
    rw [@Opened.readStep δ delegate greeted ⟨opened.isOpen, opened.results, opened.response⟩, processResponse,
      login.isPassRequired]
    dsimp only
    rw [send_of_open (by exact opened.isOpen) (commandLine_ne_nil _ _)]
    simp [named, greeted, log, setResponse, update, emptied]
  have enter : named.readStep delegate moreLoggedIn (.ofText login.loggedIn) =
      (delegate.handle (.notification .connected) (login.connected session)).setResponse [] := by
    rw [@Opened.readStep δ delegate named ⟨opened.isOpen, opened.results, opened.response⟩, processResponse,
      login.isLoggedIn]
    simp [named, greeted, call, log, setResponse, update, Login.connected]
  simp only [List.map_cons, List.map_nil, textRead, Prod.map_apply, id, readSteps_cons, readSteps_nil, greet, name,
    enter]

/-! ## The block -/

/-- The block of an operation is coming, and `received` has come of it. -/
structure Coming (current : Operation) (received : Text) (session : Session δ) : Prop where
  isOpen : session.reader.isOpen = true
  results : session.reader.resultsComing = true
  operation : session.reader.currentOperation = some current
  response : session.reader.response = crlf.tail received

/-- An operation that hands over the lines of its block as they come, the terminator apart. -/
structure Lists (current : Operation) (data : List Text → Callback) : Prop where
  noHeader : current ≠ .articleHeader
  isData : ∀ lines, data lines ≠ .notification .done
  deliveries : ∀ reader front, reader.currentOperation = some current → split front ≠ [] →
    deliveries reader front = data ((split front).filter (· ≠ terminatorLine)) ::
      if terminatorLine ∈ split front then [.notification .done] else []

theorem listGroups_lists : Lists .listGroups fun lines => .groups (lines.filterMap groupOfLine) where
  noHeader := by decide
  isData lines same := by cases same
  deliveries reader front operation nonempty := by
    rw [EasyNews.deliveries, operation]
    exact if_neg nonempty

theorem listGroupArticles_lists : Lists .listGroupArticles .articles where
  noHeader := by decide
  isData lines same := by cases same
  deliveries reader front operation _ := by
    rw [EasyNews.deliveries, operation]

/-- The lines of a list. -/
def AreItems (lines : List Text) : Prop := ∀ line ∈ lines, IsLine line ∧ line ≠ [] ∧ line ≠ terminatorLine

section Block

variable {lines : List Text} {current : Operation} {data : List Text → Callback}

theorem AreItems.blockLines (areItems : AreItems lines) : ∀ line ∈ lines ++ [terminatorLine], IsLine line := by
  intro line member
  cases List.mem_append.mp member with
  | inl inLines => exact (areItems line inLines).1
  | inr isTerminator => exact List.mem_singleton.mp isTerminator ▸ terminatorLine_isLine

theorem AreItems.unfinished (areItems : AreItems lines) : terminatorLine ∉ lines :=
  fun member => (areItems _ member).2.2 rfl

/-- What has come of a block: all of it, or some of its lines in front of the terminator. -/
theorem completeLines_part (blockLines : ∀ line ∈ lines ++ [terminatorLine], IsLine line)
    (unfinished : terminatorLine ∉ lines) {received : Text}
    (part : received <+: crlf.render (lines ++ [terminatorLine])) :
    if received = crlf.render (lines ++ [terminatorLine]) then crlf.completeLines received = lines ++ [terminatorLine]
    else crlf.completeLines received <+: lines := by
  split
  · next whole => rw [whole, completeLines_block blockLines]
  · next notWhole =>
    obtain ⟨rest, joined⟩ := part
    have linesPart := crlf.pieces_dropLast_append received rest
    rw [joined] at linesPart
    change crlf.completeLines received <+: crlf.completeLines _ at linesPart
    rw [completeLines_block blockLines, List.prefix_concat_iff] at linesPart
    refine linesPart.resolve_left fun all => notWhole ?_
    apply (last_line_iff blockLines unfinished ⟨rest, joined⟩).mp
    rw [all, List.filter_append]
    simp [terminatorLine]

theorem tail_block (blockLines : ∀ line ∈ lines ++ [terminatorLine], IsLine line) :
    crlf.tail (crlf.render (lines ++ [terminatorLine])) = [] := by
  have joined := crlf.render_completeLines_append (crlf.render (lines ++ [terminatorLine]))
  rw [completeLines_block blockLines] at joined
  exact List.append_right_eq_self.mp joined

theorem split_new (areItems : AreItems lines) {received text front : Text}
    (part : received ++ text <+: crlf.render (lines ++ [terminatorLine]))
    (pieces : crlf.pieces front = crlf.completeLines (crlf.tail received ++ text)) :
    split front = crlf.completeLines (crlf.tail received ++ text) := by
  rw [split, Delimited.Delimiter.fields, pieces, List.filter_eq_self]
  intro line member
  have inBlock : line ∈ lines ++ [terminatorLine] := by
    have inReceived : line ∈ crlf.completeLines (received ++ text) := by
      rw [crlf.completeLines_append]
      exact List.mem_append_right _ member
    have lines := completeLines_part areItems.blockLines areItems.unfinished part
    split at lines
    · exact lines ▸ inReceived
    · exact List.mem_append_left _ (lines.subset inReceived)
  rw [decide_eq_true_eq]
  cases List.mem_append.mp inBlock with
  | inl item => exact (areItems line item).2.1
  | inr isTerminator =>
    rw [List.mem_singleton.mp isTerminator]
    decide

variable {received text : Text} {session : Session δ}

/-- What is left behind a read, at the end of the block or of an event, is no reply. -/
theorem handed_ends (blockLines : ∀ line ∈ lines ++ [terminatorLine], IsLine line) {front : Text} {more : Bool}
    (quiet : more = false → recognise (crlf.tail (received ++ text)) = none)
    (ends : received ++ text = crlf.render (lines ++ [terminatorLine]) ∨
      (session.handed take text front (crlf.tail (received ++ text))).reader.isOpen = true) :
    (session.handed take text front (crlf.tail (received ++ text))).afterRead delegate more =
      session.handed take text front (crlf.tail (received ++ text)) := by
  apply afterRead_of_quiet
  intro stops
  have carried : (session.handed take text front (crlf.tail (received ++ text))).reader.response =
      crlf.tail (received ++ text) := rfl
  rw [carried]
  cases ends with
  | inl whole =>
    rw [whole, tail_block blockLines]
    exact recognise_nil
  | inr isOpen =>
    rw [isOpen, Bool.and_true] at stops
    exact quiet stops

/-- A read of a list: its lines are handed over, and the last read closes the reader. -/
theorem Coming.listStep (coming : Coming current received session) (collects : Collects delegate take)
    (lists : Lists current data) (areItems : AreItems lines)
    (part : received ++ text <+: crlf.render (lines ++ [terminatorLine]))
    (broken : ¬ crlf.Unbroken (crlf.tail received ++ text)) {more : Bool}
    (quiet : more = false → recognise (crlf.tail (received ++ text)) = none) :
    ∃ batch later, session.readStep delegate more (.ofText text) = later ∧
      later.delegate = take (data batch) session.delegate ∧ later.commands = session.commands ∧
      if received ++ text = crlf.render (lines ++ [terminatorLine]) then
        later.reader.isOpen = false ∧ crlf.completeLines received ++ batch = lines
      else
        Coming current (received ++ text) later ∧
          crlf.completeLines (received ++ text) = crlf.completeLines received ++ batch := by
  obtain ⟨front, pieces, step⟩ := collects.readStep coming.isOpen coming.results
    (by rw [coming.operation]; exact fun same => lists.noHeader (Option.some.inj same)) coming.response broken
  have isNew := split_new areItems part pieces
  have nonempty : split front ≠ [] := by
    rw [isNew, ← pieces]
    exact crlf.pieces_ne_nil front
  have delivered := lists.deliveries session.reader front coming.operation nonempty
  have lines := completeLines_part areItems.blockLines areItems.unfinished part
  rw [crlf.completeLines_append, ← isNew] at lines
  rw [step more]
  split at lines
  · next whole =>
    -- the terminator is the last line of the block, so it is the last one of this read
    obtain ⟨batch, last, isBatch⟩ := (List.eq_nil_or_concat (split front)).resolve_left nonempty
    rw [isBatch, List.concat_eq_append, ← List.append_assoc] at lines
    obtain ⟨before, same⟩ := List.append_inj' lines rfl
    obtain rfl := List.singleton_inj.mp same
    have kept : batch.filter (· ≠ terminatorLine) = batch := by
      rw [List.filter_eq_self]
      intro line member
      have item := areItems line (before ▸ List.mem_append_right _ member)
      simpa using item.2.2
    have calls : deliveries session.reader front = [data batch, .notification .done] := by
      rw [delivered, isBatch, List.concat_eq_append, if_pos (by simp), List.filter_append, kept]
      simp
    refine ⟨batch, _, handed_ends areItems.blockLines quiet (.inl whole), ?_, ?_, if_pos whole ▸ ⟨?_, before⟩⟩
    · simp [handed, taken, calls, collects.passes]
    · exact handed_commands session text front _
    · simp [handed, taken, calls]
  · next notWhole =>
    have unfinished : terminatorLine ∉ split front := by
      intro member
      exact areItems.unfinished (lines.subset (List.mem_append_right _ member))
    have kept : (split front).filter (· ≠ terminatorLine) = split front := by
      rw [List.filter_eq_self]
      intro line member
      simpa using fun same : line = terminatorLine => unfinished (same ▸ member)
    have calls : deliveries session.reader front = [data (split front)] := by
      rw [delivered, kept, if_neg unfinished]
    have goesOn : Coming current (received ++ text) (session.handed take text front (crlf.tail (received ++ text))) := by
      refine ⟨?_, coming.results, coming.operation, rfl⟩
      simp [handed, taken, calls, coming.isOpen, (lists.isData (split front)).symm]
    refine ⟨split front, _, handed_ends areItems.blockLines quiet (.inr goesOn.isOpen), ?_, ?_,
      if_neg notWhole ▸ ⟨goesOn, ?_⟩⟩
    · simp [handed, taken, calls]
    · exact handed_commands session text front _
    · rw [crlf.completeLines_append, isNew]

/-- The whole of a list: its items are handed over in order, and the reader is closed. -/
theorem Coming.listRun (coming : Coming current received session) (collects : Collects delegate take)
    (lists : Lists current data) (areItems : AreItems lines) {reads : List (Text × Bool)}
    (framed : Framed received reads) (whole : received ++ textOf reads = crlf.render (lines ++ [terminatorLine]))
    (unfinished : received ≠ crlf.render (lines ++ [terminatorLine])) :
    ∃ batches : List (List Text), batches ≠ [] ∧ crlf.completeLines received ++ batches.flatten = lines ∧
      let later := session.readSteps delegate (reads.map textRead)
      later.reader.isOpen = false ∧ later.commands = session.commands ∧
        later.delegate = batches.foldl (fun command batch => take (data batch) command) session.delegate := by
  -- over the reads; between two of them the list is not complete
  induction reads generalizing received session with
  | nil =>
    rw [textOf_nil, List.append_nil] at whole
    exact absurd whole unfinished
  | cons read reads inductionHypothesis =>
    obtain ⟨text, more⟩ := read
    obtain ⟨⟨broken, quiet⟩, framedLater⟩ := framed
    rw [textOf_cons, ← List.append_assoc] at whole
    have part : received ++ text <+: crlf.render (lines ++ [terminatorLine]) := whole ▸ List.prefix_append _ _
    obtain ⟨batch, later, step, isDelegate, commands, rest⟩ := coming.listStep collects lists areItems part broken quiet
    have steps : session.readSteps delegate (((text, more) :: reads).map textRead) =
        later.readSteps delegate (reads.map textRead) := by
      rw [← step]
      rfl
    rw [steps]
    split at rest
    · obtain ⟨closed, complete⟩ := rest
      refine ⟨[batch], List.cons_ne_nil _ _, by simpa using complete, ?_⟩
      rw [readSteps_closed delegate _ closed]
      exact ⟨closed, commands, isDelegate⟩
    · next notYet =>
      obtain ⟨goesOn, lines⟩ := rest
      obtain ⟨batches, -, complete, closed, commandsLater, isDelegateLater⟩ :=
        inductionHypothesis goesOn framedLater whole notYet
      refine ⟨batch :: batches, List.cons_ne_nil _ _, ?_, closed, commandsLater.trans commands, ?_⟩
      · rw [List.flatten_cons, ← List.append_assoc, ← lines, complete]
      · rw [isDelegateLater, isDelegate, List.foldl_cons]

/-- What an article's reads leave: the lines that have come are kept, and nobody has been told. -/
structure Collecting (received : Text) (earlier session : Session δ) : Prop extends Coming .article received session where
  article : session.reader.article = crlf.render (crlf.completeLines received)
  delegate : session.delegate = earlier.delegate
  commands : session.commands = earlier.commands

/-- The article has been handed over once, and the reader is closed. -/
structure HandedOver (take : Callback → δ → δ) (block : Text) (earlier session : Session δ) : Prop where
  closed : session.reader.isOpen = false
  delegate : session.delegate = take (.article block) earlier.delegate
  commands : session.commands = earlier.commands

variable {earlier : Session δ}

theorem Collecting.readStep (collecting : Collecting received earlier session) (collects : Collects delegate take)
    (blockLines : ∀ line ∈ lines ++ [terminatorLine], IsLine line) (unfinished : terminatorLine ∉ lines)
    (part : received ++ text <+: crlf.render (lines ++ [terminatorLine]))
    (broken : ¬ crlf.Unbroken (crlf.tail received ++ text)) {more : Bool}
    (quiet : more = false → recognise (crlf.tail (received ++ text)) = none) :
    ∃ later, session.readStep delegate more (.ofText text) = later ∧
      if received ++ text = crlf.render (lines ++ [terminatorLine]) then
        HandedOver take (crlf.render (lines ++ [terminatorLine])) earlier later
      else Collecting (received ++ text) earlier later := by
  obtain ⟨front, pieces, step⟩ := collects.readStep collecting.isOpen collecting.results
    (by simp [collecting.operation]) collecting.response broken
  have stored : session.reader.article ++ front ++ crlf.symbols =
      crlf.render (crlf.completeLines (received ++ text)) := by
    rw [collecting.article, List.append_assoc, ← crlf.render_pieces front, pieces, ← crlf.render_append,
      ← crlf.completeLines_append]
  have cut : split (crlf.render (crlf.completeLines (received ++ text))) =
      (crlf.completeLines (received ++ text)).filter (· ≠ []) :=
    crlf.fields_render fun line member => crlf.unbroken_of_mem_pieces (List.dropLast_subset _ member)
  have delivered : deliveries session.reader front =
      if received ++ text = crlf.render (lines ++ [terminatorLine]) then
        [.article (crlf.render (crlf.completeLines (received ++ text))), .notification .done]
      else [] := by
    rw [deliveries, collecting.operation]
    dsimp only
    rw [stored, cut]
    simp only [last_line_iff blockLines unfinished part]
  have commands := (@handed_commands δ take session text front (crlf.tail (received ++ text))).trans collecting.commands
  rw [step more]
  refine ⟨_, rfl, ?_⟩
  split at delivered
  · next whole =>
    rw [if_pos whole, handed_ends blockLines quiet (.inl whole)]
    rw [whole, completeLines_block blockLines] at delivered
    refine ⟨?_, ?_, commands⟩
    · simp [handed, taken, delivered]
    · simp [handed, taken, delivered, collects.passes, collecting.delegate]
  · next notWhole =>
    have same : session.handed take text front (crlf.tail (received ++ text)) =
        { session.log (.received (some text)) with
          reader := session.reader.delivered front (crlf.tail (received ++ text)) } := by
      rw [handed, delivered, taken_nil]
    have goesOn : Collecting (received ++ text) earlier (session.handed take text front (crlf.tail (received ++ text))) := by
      refine ⟨⟨?_, ?_, ?_, ?_⟩, ?_, ?_, commands⟩
      all_goals rw [same]
      · exact collecting.isOpen
      · exact collecting.results
      · exact collecting.operation
      · rfl
      · simp only [NewsReader.delivered, collecting.operation, if_true]
        exact stored
      · exact collecting.delegate
    rw [if_neg notWhole, handed_ends blockLines quiet (.inr goesOn.isOpen)]
    exact goesOn

theorem Collecting.readSteps (collecting : Collecting received earlier session) (collects : Collects delegate take)
    (blockLines : ∀ line ∈ lines ++ [terminatorLine], IsLine line) (unfinished : terminatorLine ∉ lines)
    {reads : List (Text × Bool)} (framed : Framed received reads)
    (part : received ++ textOf reads <+: crlf.render (lines ++ [terminatorLine]))
    (notYet : received ≠ crlf.render (lines ++ [terminatorLine])) :
    if received ++ textOf reads = crlf.render (lines ++ [terminatorLine]) then
      HandedOver take (crlf.render (lines ++ [terminatorLine])) earlier (session.readSteps delegate (reads.map textRead))
    else Collecting (received ++ textOf reads) earlier (session.readSteps delegate (reads.map textRead)) := by
  induction reads generalizing received session with
  | nil =>
    rw [textOf_nil, List.append_nil, if_neg notYet]
    exact collecting
  | cons read reads inductionHypothesis =>
    obtain ⟨text, more⟩ := read
    obtain ⟨⟨broken, quiet⟩, framedLater⟩ := framed
    rw [textOf_cons, ← List.append_assoc] at part ⊢
    have partNow : received ++ text <+: crlf.render (lines ++ [terminatorLine]) := (List.prefix_append _ _).trans part
    obtain ⟨later, step, outcome⟩ := collecting.readStep collects blockLines unfinished partNow broken quiet
    have steps : session.readSteps delegate (((text, more) :: reads).map textRead) =
        later.readSteps delegate (reads.map textRead) := by
      rw [← step]
      rfl
    rw [steps]
    split at outcome
    · next whole =>
      have last : textOf reads = [] := by
        rw [whole] at part
        have length := part.length_le
        rw [List.length_append] at length
        exact List.eq_nil_of_length_eq_zero (by omega)
      rw [last, List.append_nil, if_pos whole, readSteps_closed delegate _ outcome.closed]
      exact outcome
    · next notWhole => exact inductionHypothesis outcome framedLater part notWhole

end Block

end EasyNews.Verified.CommandSessions
