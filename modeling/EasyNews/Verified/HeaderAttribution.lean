import EasyNews.HeaderRuns

/-! # Which reply a header comes from

The reader and a server that answers one HEAD after another, whatever the reads it takes the
replies apart into. The server has sent no reply it has not been asked for, so the reads are a cut
of the replies to the HEADs sent so far.
-/

namespace EasyNews.Verified.HeaderAttribution

open Session HeaderRuns ArticleGetMultipleHeadersCommand

/-! ## The closed loop -/

def received (reads : List (Text × Bool)) : Text := (reads.map Prod.fst).flatten

def afterReads (dateFormatter : Text → Text → Option Date) (reads : List (Text × Bool))
    (session : Session ArticleGetMultipleHeadersCommand) : Session ArticleGetMultipleHeadersCommand :=
  session.readSteps (newsReaderDelegate dateFormatter) (reads.map (Prod.map Read.ofText id))

/-- How many HEAD commands the server has got. -/
def headsSent (session : Session ArticleGetMultipleHeadersCommand) : Nat :=
  session.commands.countP ("HEAD ".toList.isPrefixOf ·)

/-- How often the command has been told to go on. -/
def nextArticles (session : Session ArticleGetMultipleHeadersCommand) : Nat :=
  session.callbacks.count (.notification .nextArticle)

/-- How many of the replies have arrived to their last byte. -/
def completed : List Text → Text → Nat
  | [], _ => 0
  | reply :: replies, received =>
    if reply.isPrefixOf received then completed replies (received.drop reply.length) + 1 else 0

/-- Reads that cut the replies anywhere, each after the HEAD it answers. `session` has sent the
    HEAD for the first of the blocks. -/
structure Served (dateFormatter : Text → Text → Option Date)
    (session : Session ArticleGetMultipleHeadersCommand) (blocks : List HeaderBlock)
    (reads : List (Text × Bool)) : Prop where
  nonempty : ∀ read ∈ reads, read.1 ≠ []
  causal : ∀ front read, front ++ [read] <+: reads →
    received front ++ read.1 <+:
      ((blocks.map HeaderBlock.text).take
        (headsSent (afterReads dateFormatter front session) - headsSent session + 1)).flatten

/-- A header's fields all stand in the block. -/
def TakenFrom (block : HeaderBlock) (header : Header) : Prop :=
  ∀ key value, header.lookup key = some value →
    ∃ line ∈ block.lines, (parseHeaderLine ∅ line).lookup key = some value

/-- At every point of the reception: the command has gone on once per complete reply, and every
    header delivered so far was taken from the reply to its own HEAD. -/
def Attributed (dateFormatter : Text → Text → Option Date)
    (session : Session ArticleGetMultipleHeadersCommand) (articleIds : List Text)
    (blocks : List HeaderBlock) (reads : List (Text × Bool)) : Prop :=
  ∀ front, front <+: reads →
    let later := afterReads dateFormatter front session
    nextArticles later = nextArticles session + completed (blocks.map HeaderBlock.text) (received front) ∧
      ∀ articleId header, .articleHeader articleId header ∈ later.callbacks.drop session.callbacks.length →
        ∃ block, (articleId, block) ∈ articleIds.zip blocks ∧ TakenFrom block header

/-! ## Complete replies -/

variable (dateFormatter : Text → Text → Option Date)

theorem text_ne_nil (block : HeaderBlock) : block.text ≠ [] := by
  simp [HeaderBlock.text, Delimited.Delimiter.symbols]

@[simp] theorem completed_nil (replies : List Text) (nonempty : ∀ reply ∈ replies, reply ≠ []) :
    completed replies [] = 0 := by
  cases replies with
  | nil => rfl
  | cons reply replies =>
    have notEmpty := nonempty reply List.mem_cons_self
    cases reply with
    | nil => exact absurd rfl notEmpty
    | cons => rfl

theorem completed_append (reply : Text) (replies : List Text) (rest : Text) :
    completed (reply :: replies) (reply ++ rest) = completed replies rest + 1 := by
  have begins : reply.isPrefixOf (reply ++ rest) = true := List.isPrefixOf_iff_prefix.mpr (List.prefix_append _ _)
  rw [completed, begins, List.drop_left]
  rfl

theorem takenFrom_front (block : HeaderBlock) : TakenFrom block (headerOfText block.front) := by
  intro key value found
  rw [block.headerOfText_front] at found
  obtain ⟨line, member, written⟩ := foldl_parseHeaderLine_lookup found
  exact ⟨line, (List.mem_filter.mp member).1, written⟩

theorem nextArticles_replyCallbacks (session later : Session ArticleGetMultipleHeadersCommand)
    {articleId front : Text} (callbacks : later.callbacks = session.callbacks ++ replyCallbacks articleId front) :
    nextArticles later = nextArticles session + 1 := by
  rw [nextArticles, callbacks, List.count_append, nextArticles]
  simp [replyCallbacks]

/-- Reads that are whole replies: the headers delivered are those of the blocks, one by one. -/
theorem awaiting_whole {session : Session ArticleGetMultipleHeadersCommand} {name articleId : Text}
    {rest : List Text} (awaiting : Awaiting session name articleId rest) (block : HeaderBlock)
    (blocks : List HeaderBlock) (reads : List (Text × Bool))
    (whole : reads.map Prod.fst <+: (block :: blocks).map HeaderBlock.text)
    (answered : blocks.length = rest.length) :
    ∃ headers : List (Text × HeaderBlock), headers <+: (articleId :: rest).zip (block :: blocks) ∧
      headers.length = reads.length ∧
      (afterReads dateFormatter reads session).callbacks =
        session.callbacks ++ headers.flatMap fun entry => replyCallbacks entry.1 entry.2.front := by
  induction reads generalizing session articleId rest block blocks with
  | nil => exact ⟨[], List.nil_prefix, rfl, by simp [afterReads]⟩
  | cons read reads inductionHypothesis =>
    obtain ⟨text, more⟩ := read
    rw [List.map_cons, List.map_cons, List.cons_prefix_cons] at whole
    obtain ⟨isText, wholeLater⟩ := whole
    dsimp only at isText
    have split : afterReads dateFormatter ((text, more) :: reads) session =
        afterReads dateFormatter reads (session.readStep (newsReaderDelegate dateFormatter) more
          (.ofText (block.front ++ crlf.symbols))) := by
      rw [isText]
      rfl
    cases rest with
    | nil =>
      obtain rfl := List.eq_nil_of_length_eq_zero answered
      have none : reads = [] := by simpa using wholeLater
      subst none
      obtain ⟨later, step, -, -, -, callbacks⟩ := awaiting.reply_last dateFormatter block.front more
      refine ⟨[(articleId, block)], List.prefix_refl _, rfl, ?_⟩
      rw [split, step, afterReads, List.map_nil, readSteps_nil, callbacks]
      simp
    | cons nextId rest =>
      cases blocks with
      | nil => cases answered
      | cons nextBlock blocks =>
        obtain ⟨later, step, waiting, -, -, -, callbacks⟩ := awaiting.reply_next dateFormatter block.front more
        obtain ⟨headers, inside, length, rest⟩ := inductionHypothesis waiting nextBlock blocks wholeLater
          (by simpa using answered)
        refine ⟨(articleId, block) :: headers, ?_, by simp [length], ?_⟩
        · rw [List.zip_cons_cons, List.cons_prefix_cons]
          exact ⟨rfl, inside⟩
        · rw [split, step, rest, callbacks, List.flatMap_cons, List.append_assoc]

theorem completed_whole {texts : List Text} (nonempty : ∀ text ∈ texts, text ≠ []) {reads : List (Text × Bool)}
    (whole : reads.map Prod.fst <+: texts) : completed texts (received reads) = reads.length := by
  induction reads generalizing texts with
  | nil => exact completed_nil texts nonempty
  | cons read reads inductionHypothesis =>
    cases texts with
    | nil => simp at whole
    | cons text texts =>
      rw [List.map_cons, List.cons_prefix_cons] at whole
      obtain ⟨rfl, wholeLater⟩ := whole
      have later := inductionHypothesis (fun text member => nonempty text (List.mem_cons_of_mem _ member)) wholeLater
      have split : received (read :: reads) = read.1 ++ received reads := rfl
      rw [split, completed_append, later, List.length_cons]

/-- Replies in one read each keep every header with its own article. -/
theorem attributed_of_whole {session : Session ArticleGetMultipleHeadersCommand} {name articleId : Text}
    {rest : List Text} (awaiting : Awaiting session name articleId rest) (block : HeaderBlock)
    (blocks : List HeaderBlock) (answered : blocks.length = rest.length) (reads : List (Text × Bool))
    (whole : reads.map Prod.fst <+: (block :: blocks).map HeaderBlock.text) :
    Attributed dateFormatter session (articleId :: rest) (block :: blocks) reads := by
  intro front before
  have wholeFront := (before.map Prod.fst).trans whole
  obtain ⟨headers, inside, length, callbacks⟩ :=
    awaiting_whole dateFormatter awaiting block blocks front wholeFront answered
  -- an empty reply would complete without a read
  have texts : ∀ text ∈ (block :: blocks).map HeaderBlock.text, text ≠ [] := by
    intro text member
    obtain ⟨other, -, rfl⟩ := List.mem_map.mp member
    exact text_ne_nil other
  refine ⟨?_, ?_⟩
  · rw [completed_whole texts wholeFront, nextArticles, callbacks, List.count_append, ← length, nextArticles]
    congr 1
    clear length inside callbacks
    induction headers with
    | nil => rfl
    | cons entry headers inductionHypothesis =>
      rw [List.flatMap_cons, List.count_append, inductionHypothesis]
      simp [replyCallbacks, Nat.add_comm]
  · intro other header called
    rw [callbacks, List.drop_left, List.mem_flatMap] at called
    obtain ⟨entry, member, isReply⟩ := called
    simp only [replyCallbacks, List.mem_cons, Callback.articleHeader.injEq, reduceCtorEq, List.not_mem_nil,
      or_false] at isReply
    obtain ⟨rfl, rfl⟩ := isReply
    exact ⟨entry.2, inside.subset member, takenFrom_front entry.2⟩

/-! ## Broken replies -/

theorem callbacks_grow {session later : Session ArticleGetMultipleHeadersCommand}
    (grown : session.trace <+: later.trace) : session.callbacks <+: later.callbacks :=
  grown.filterMap _

theorem headsSent_le {session later : Session ArticleGetMultipleHeadersCommand}
    (grown : session.trace <+: later.trace) : headsSent session ≤ headsSent later := by
  have commands : session.commands <+: later.commands := grown.filterMap _
  exact commands.sublist.countP_le

theorem afterReads_trace (reads : List (Text × Bool)) (session : Session ArticleGetMultipleHeadersCommand) :
    session.trace <+: (afterReads dateFormatter reads session).trace :=
  readSteps_trace (handle_trace dateFormatter) _ session

theorem nextArticles_readStep {session : Session ArticleGetMultipleHeadersCommand} {name articleId : Text}
    {rest : List Text} (awaiting : Awaiting session name articleId rest) (more : Bool) (text : Text) :
    nextArticles session + 1 ≤
      nextArticles (session.readStep (newsReaderDelegate dateFormatter) more (.ofText text)) := by
  let cut := splitter (session.reader.response ++ text)
  let delivered := stored dateFormatter cut.1 cut.2 (session.log (.received (some text)))
  have step : session.readStep (newsReaderDelegate dateFormatter) more (.ofText text) =
      (next delivered).afterRead (newsReaderDelegate dateFormatter) more :=
    readStep_header dateFormatter more awaiting.isOpen awaiting.results awaiting.operation rfl
  have callbacks : delivered.callbacks = session.callbacks ++ replyCallbacks session.reader.articleId cut.1 := by
    simp [delivered, stored, Session.callbacks, replyCallbacks]
  have grown := (next_trace delivered).trans (afterRead_trace (handle_trace dateFormatter) more (next delivered))
  rw [step, ← nextArticles_replyCallbacks session delivered callbacks]
  exact (callbacks_grow grown).sublist.count_le _

theorem headsSent_head {session later : Session ArticleGetMultipleHeadersCommand} {articleId : Text}
    (commands : later.commands = session.commands ++ [commandLine "HEAD" articleId]) :
    headsSent later = headsSent session + 1 := by
  have isHead : "HEAD ".toList.isPrefixOf (commandLine "HEAD" articleId) = true := rfl
  rw [headsSent, commands, List.countP_append, headsSent, List.countP_cons, isHead]
  rfl

theorem first_whole {session : Session ArticleGetMultipleHeadersCommand} {name articleId : Text}
    {rest : List Text} (awaiting : Awaiting session name articleId rest) {block : HeaderBlock}
    {blocks : List HeaderBlock} {text : Text} {more : Bool} {reads : List (Text × Bool)}
    (served : Served dateFormatter session (block :: blocks) ((text, more) :: reads))
    (counted : nextArticles (afterReads dateFormatter [(text, more)] session) = nextArticles session +
      completed ((block :: blocks).map HeaderBlock.text) (received [(text, more)])) :
    text = block.text := by
  have available := served.causal [] (text, more) (by simp)
  have within : text <+: block.text := by
    simpa [received, afterReads] using available
  have advanced : nextArticles session + 1 ≤ nextArticles (afterReads dateFormatter [(text, more)] session) :=
    nextArticles_readStep dateFormatter awaiting more text
  by_cases begins : block.text.isPrefixOf text = true
  · exact within.eq_of_length_le (List.isPrefixOf_iff_prefix.mp begins).length_le
  · have none : completed ((block :: blocks).map HeaderBlock.text) (received [(text, more)]) = 0 := by
      simp [received, completed, begins]
    omega

theorem served_tail {session later : Session ArticleGetMultipleHeadersCommand} {block : HeaderBlock}
    {blocks : List HeaderBlock} {more : Bool} {reads : List (Text × Bool)}
    (served : Served dateFormatter session (block :: blocks) ((block.text, more) :: reads))
    (step : session.readStep (newsReaderDelegate dateFormatter) more (.ofText block.text) = later)
    (heads : headsSent later = headsSent session + 1) : Served dateFormatter later blocks reads := by
  refine ⟨fun read member => served.nonempty read (List.mem_cons_of_mem _ member), ?_⟩
  intro front read before
  have available := served.causal ((block.text, more) :: front) read
    (List.cons_prefix_cons.mpr ⟨rfl, before⟩)
  have sameState : afterReads dateFormatter ((block.text, more) :: front) session =
      afterReads dateFormatter front later := by
    rw [← step]
    rfl
  have grown := headsSent_le (afterReads_trace dateFormatter front later)
  have count : headsSent (afterReads dateFormatter front later) - headsSent session + 1 =
      headsSent (afterReads dateFormatter front later) - headsSent later + 1 + 1 := by omega
  rw [sameState, count, List.map_cons, List.take_succ_cons, List.flatten_cons, received, List.map_cons,
    List.flatten_cons, List.append_assoc, List.prefix_append_right_inj] at available
  exact available

/-- If the command goes on once per complete reply, every reply arrives in one read. -/
theorem whole_of_counted {session : Session ArticleGetMultipleHeadersCommand} {name articleId : Text}
    {rest : List Text} (awaiting : Awaiting session name articleId rest) (block : HeaderBlock)
    (blocks : List HeaderBlock) (answered : blocks.length = rest.length) (reads : List (Text × Bool))
    (served : Served dateFormatter session (block :: blocks) reads)
    (counted : ∀ front, front <+: reads → nextArticles (afterReads dateFormatter front session) =
      nextArticles session + completed ((block :: blocks).map HeaderBlock.text) (received front)) :
    reads.map Prod.fst <+: (block :: blocks).map HeaderBlock.text := by
  induction reads generalizing session articleId rest block blocks with
  | nil => exact List.nil_prefix
  | cons read reads inductionHypothesis =>
    obtain ⟨text, more⟩ := read
    obtain rfl := first_whole dateFormatter awaiting served (counted [_] (by simp))
    rw [List.map_cons, List.map_cons, List.cons_prefix_cons]
    refine ⟨rfl, ?_⟩
    cases rest with
    | nil =>
      obtain rfl := List.eq_nil_of_length_eq_zero answered
      -- no HEAD is left to be answered, so no read can follow
      cases reads with
      | nil => exact List.nil_prefix
      | cons next reads =>
        have available := served.causal [(block.text, more)] next (by simp)
        have short : (block.text ++ next.1).length ≤ block.text.length := by
          simpa [received] using available.length_le
        have some := List.length_pos_iff.mpr (served.nonempty next (by simp))
        rw [List.length_append] at short
        omega
    | cons nextId rest =>
      cases blocks with
      | nil => cases answered
      | cons nextBlock blocks =>
        obtain ⟨later, step, waiting, -, -, commands, callbacks⟩ :=
          awaiting.reply_next dateFormatter block.front more
        have heads := headsSent_head commands
        have gone := nextArticles_replyCallbacks session later callbacks
        apply inductionHypothesis waiting nextBlock blocks (by simpa using answered)
          (served_tail dateFormatter served step heads)
        intro front before
        have here := counted ((block.text, more) :: front) (List.cons_prefix_cons.mpr ⟨rfl, before⟩)
        have sameState : afterReads dateFormatter ((block.text, more) :: front) session =
            afterReads dateFormatter front later := by
          rw [← step]
          rfl
        have split : received ((block.text, more) :: front) = block.text ++ received front := rfl
        rw [sameState, split, List.map_cons, completed_append] at here
        omega

/-! ## From the login on -/

/-- The login line and the reply to GROUP, each in an event of its own. -/
def login (digit : Char) (tail : Text) : List (Text × Bool) :=
  [(welcomeLine, false), (groupReply digit tail, false)]

/-- With reads that cut the replies to the HEADs in any way, every header belongs to its article
    and the command goes on once per complete reply, exactly if each read is one whole reply. -/
theorem headers_attributed (dateFormatter : Text → Text → Option Date)
    (session : Session ArticleGetMultipleHeadersCommand) (name : Text) (started : Started session name)
    (digit : Char) (isDigit : digit.isDigit = true) (tail : Text) (blocks : List HeaderBlock)
    (answered : blocks.length = session.delegate.articleIds.length) (reads : List (Text × Bool))
    (served : Served dateFormatter (afterReads dateFormatter (login digit tail) session) blocks reads) :
    Attributed dateFormatter (afterReads dateFormatter (login digit tail) session) session.delegate.articleIds
        blocks reads ↔
      reads.map Prod.fst <+: blocks.map HeaderBlock.text := by
  -- with no article id nothing is asked, and a causal server sends nothing
  cases ids : session.delegate.articleIds with
  | nil =>
    rw [ids] at answered
    obtain rfl := List.eq_nil_of_length_eq_zero answered
    cases reads with
    | nil =>
      refine ⟨fun _ => List.nil_prefix, fun _ front before => ?_⟩
      obtain rfl := List.prefix_nil.mp before
      exact ⟨rfl, by simp [afterReads]⟩
    | cons read reads =>
      have available := served.causal [] read (by simp)
      have nonempty := served.nonempty read List.mem_cons_self
      simp [received, nonempty] at available
  | cons articleId rest =>
    cases blocks with
    | nil => simp [ids] at answered
    | cons block blocks =>
      obtain ⟨selected, stepSelect, selecting, -⟩ := started.select dateFormatter ids false
      obtain ⟨waiting, stepHead, awaiting, -⟩ := selecting.head dateFormatter isDigit tail false
      have asked : afterReads dateFormatter (login digit tail) session = waiting := by
        rw [← stepHead, ← stepSelect]
        rfl
      rw [asked] at served ⊢
      have lengths : blocks.length = rest.length := by simpa [ids] using answered
      constructor
      · intro attributed
        exact whole_of_counted dateFormatter awaiting block blocks lengths reads served
          fun front before => (attributed front before).1
      · exact attributed_of_whole dateFormatter awaiting block blocks lengths reads

/-- The replies to the two HEADs of `fetchingTwo`. -/
def twoBlocks : List HeaderBlock :=
  [{ status := "7".toList, lines := ["Subject: a".toList, "Bytes: 1".toList]
     isStatus := by decide, areLines := by decide, unfinished := by decide },
    { status := "8".toList, lines := ["Subject: b".toList]
      isStatus := by decide, areLines := by decide, unfinished := by decide }]

def wholeReads : List (Text × Bool) :=
  [("221 7\r\nSubject: a\r\nBytes: 1\r\n.\r\n".toList, true), ("221 8\r\nSubject: b\r\n.\r\n".toList, false)]

def brokenReads : List (Text × Bool) :=
  [("221 7\r\nSubject: a\r\n".toList, false), ("Bytes: 1\r\n.\r\n".toList, false)]

theorem served_pair {dateFormatter : Text → Text → Option Date}
    {session : Session ArticleGetMultipleHeadersCommand} {blocks : List HeaderBlock} {first second : Text × Bool}
    (nonempty : first.1 ≠ [] ∧ second.1 ≠ [])
    (available : ∀ front read, (front, read) ∈ [([], first), ([first], second)] →
      received front ++ read.1 <+:
        ((blocks.map HeaderBlock.text).take
          (headsSent (afterReads dateFormatter front session) - headsSent session + 1)).flatten) :
    Served dateFormatter session blocks [first, second] := by
  refine ⟨by simpa using nonempty, ?_⟩
  intro front read before
  apply available
  -- only two reads have a read before them to account for
  match front with
  | [] =>
    obtain ⟨rfl, -⟩ := List.cons_prefix_cons.mp before
    simp
  | [one] =>
    obtain ⟨rfl, second⟩ := List.cons_prefix_cons.mp before
    obtain ⟨rfl, -⟩ := List.cons_prefix_cons.mp second
    simp
  | _ :: _ :: _ :: _ =>
    have short := before.length_le
    simp at short
  | [_, _] =>
    have short := before.length_le
    simp at short

theorem headers_attributed_two :
    Attributed (fun _ _ => none) (afterReads (fun _ _ => none) (login '2' []) fetchingTwo)
      ["7".toList, "8".toList] twoBlocks wholeReads :=
  (headers_attributed (fun _ _ => none) fetchingTwo "alt.a".toList fetchingTwo_started '2' rfl [] twoBlocks rfl
    wholeReads (served_pair (by decide) (by
      simp only [List.mem_cons, List.not_mem_nil, or_false, Prod.mk.injEq]
      rintro front read (⟨rfl, rfl⟩ | ⟨rfl, rfl⟩) <;> decide))).mpr (by decide)

/-- The rest of a broken reply is taken for the reply to the next HEAD. -/
theorem broken_reply_is_misattributed :
    ¬ ∀ reads, Served (fun _ _ => none) (afterReads (fun _ _ => none) (login '2' []) fetchingTwo) twoBlocks reads →
      Attributed (fun _ _ => none) (afterReads (fun _ _ => none) (login '2' []) fetchingTwo)
        ["7".toList, "8".toList] twoBlocks reads := by
  intro claim
  have served : Served (fun _ _ => none) (afterReads (fun _ _ => none) (login '2' []) fetchingTwo) twoBlocks
      brokenReads := by
    apply served_pair (by decide)
    simp only [List.mem_cons, List.not_mem_nil, or_false, Prod.mk.injEq]
    rintro front read (⟨rfl, rfl⟩ | ⟨rfl, rfl⟩) <;> decide
  have counted := (claim brokenReads served (brokenReads.take 1) (List.take_prefix 1 brokenReads)).1
  revert counted
  decide

end EasyNews.Verified.HeaderAttribution
