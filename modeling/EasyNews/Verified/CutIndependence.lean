import EasyNews.HeardReplies
import EasyNews.Rfc3977

/-! # Replies and the network's cuts

A reply with a block in it is never safe: cut in front of its last CR LF, at the end of an event,
it ends twice. A login line is safe as long as no text behind it can be taken for another status.
-/

namespace EasyNews.Verified.CutIndependence

open Session ControlReplies WaitingRuns

/-! ## Blocks -/

/-- The last line of a block, as far as its dot, behind the line end in front. -/
def lastDot : Text := crlf.symbols ++ terminatorLine

/-- The end of every multi-line reply. -/
def blockEnd : Text := lastDot ++ crlf.symbols

/-- While the stream has more bytes, a read changes neither the mode nor the streams. -/
theorem readTexts_more {session : Session Unit} (isOpen : session.reader.isOpen = true)
    (results : session.reader.resultsComing = true) (texts : List Text) :
    (session.readTexts (texts.map fun text => (text, true))).reader.isOpen = true ∧
      (session.readTexts (texts.map fun text => (text, true))).reader.resultsComing = true := by
  induction texts generalizing session with
  | nil => exact ⟨isOpen, results⟩
  | cons text texts inductionHypothesis =>
    cases cut : splitter (session.reader.response ++ text) with
    | mk front rest =>
      have step : session.readStep .silent true (.ofText text) = session.afterDelivery text front rest := by
        rw [Read.ofText, readStep_silent true isOpen results cut, afterRead, if_pos]
        exact isOpen
      rw [List.map_cons, readTexts_cons, step]
      exact inductionHypothesis isOpen results

/-- An event that ends behind the last dot raises Done for it, and the line is read as well. -/
theorem dot_ends_twice {session : Session Unit} (isOpen : session.reader.isOpen = true)
    (results : session.reader.resultsComing = true) :
    (session.readTexts [(lastDot, false), (crlf.symbols, false)]).notifications.length =
      (session.readTexts [(lastDot, true), (crlf.symbols, false)]).notifications.length
        + 1 := by
  have cut : splitter (session.reader.response ++ lastDot) =
      (session.reader.response, terminatorLine) :=
    splitter_append _ terminatorLine_isLine.unbroken
  let delivered := session.afterDelivery lastDot session.reader.response terminatorLine
  have together : session.readStep .silent true (.ofText lastDot) = delivered := by
    rw [Read.ofText, readStep_silent true isOpen results cut, afterRead, if_pos]
    exact isOpen
  have apart : session.readStep .silent false (.ofText lastDot) =
      delivered.log (.called (.notification .done)) := by
    rw [Read.ofText, readStep_silent false isOpen results cut, afterRead_false]
    rfl
  simp only [readTexts_cons, readTexts_nil]
  rw [together, apart]
  have lastTogether := @readStep_silent_lineEnd false delivered isOpen results terminatorLine crlf.symbols rfl
  have lastApart := @readStep_silent_lineEnd false (delivered.log (.called (.notification .done))) isOpen results
    terminatorLine crlf.symbols rfl
  rw [Read.ofText, lastTogether, lastApart, Session.notifications, Session.notifications,
    afterDelivery_callbacks, afterDelivery_callbacks, callbacks_log_called]
  simp only [List.filterMap_append, List.length_append, log_reader]
  simp
  omega

variable (asciiDecode : Bytes → Option Text)

/-- A reply that ends a block, results coming from some place in front of that end on. -/
theorem block_depends_on_cut {session : Session Unit} {reply : Text} (ascii : IsAscii reply) (front : Text)
    (first : List (List Text)) (fits : ∀ read ∈ first.flatten, read ≠ [] ∧ read.length ≤ maxReadLength)
    (isReply : reply = first.flatten.flatten ++ front ++ blockEnd)
    (isOpen : (session.readTexts (markedEvents first)).reader.isOpen = true)
    (results : (session.readTexts (markedEvents first)).reader.resultsComing = true) :
    ¬ CutIndependent asciiDecode session reply := by
  intro independent
  let singles := front.map fun char => [char]
  -- both cuts have these reads; the event ends behind the dot in one of them only
  let reads := first.flatten ++ singles ++ [lastDot, crlf.symbols]
  have apartReads : (first ++ [singles ++ [lastDot], [crlf.symbols]]).flatten = reads := by simp [reads]
  have togetherReads : (first ++ [singles ++ [lastDot] ++ [crlf.symbols]]).flatten = reads := by simp [reads]
  have inOrder : reads.flatten = reply := by
    have whole : singles.flatten = front := by
      simp [singles, List.flatten_eq_flatMap, List.flatMap_map]
    simp [reads, isReply, whole, blockEnd]
  have fitsAll : ∀ read ∈ reads, read ≠ [] ∧ read.length ≤ maxReadLength := by
    intro read inside
    simp only [reads, List.mem_append] at inside
    rcases inside with (old | single) | last
    · exact fits read old
    · obtain ⟨char, -, rfl⟩ := List.mem_map.mp single
      simp [maxReadLength]
    · rcases List.mem_pair.mp last with rfl | rfl
      · decide
      · decide
  have same := congrArg Outcome.notifications (independent
    (Cut.ofTexts ascii _ (apartReads ▸ inOrder) (apartReads ▸ fitsAll))
    (Cut.ofTexts ascii _ (togetherReads ▸ inOrder) (togetherReads ▸ fitsAll)))
  have apartMarked : markedEvents [singles ++ [lastDot], [crlf.symbols]] =
      singles.map (fun text => (text, true)) ++ [(lastDot, false), (crlf.symbols, false)] := by
    simp [markedEvents, marked_append_singleton, marked]
  have togetherMarked : markedEvents [singles ++ [lastDot] ++ [crlf.symbols]] =
      singles.map (fun text => (text, true)) ++ [(lastDot, true), (crlf.symbols, false)] := by
    rw [markedEvents, List.flatMap_singleton, marked_append_singleton]
    simp
  rw [afterCut_ofTexts, afterCut_ofTexts, markedEvents_append, markedEvents_append, apartMarked, togetherMarked,
    readTexts_append, readTexts_append, readTexts_append, readTexts_append] at same
  obtain ⟨openLater, resultsLater⟩ := readTexts_more isOpen results singles
  have twice := dot_ends_twice openLater resultsLater
  have lengths := congrArg List.length same
  exact absurd (lengths.symm.trans twice) (Nat.ne_of_lt (Nat.lt_succ_self _))

/-! ## Both directions for a login line -/

theorem controls_length (session : Session Unit) :
    (controls session).length = (session.notifications.filter (· ≠ .nextArticle)).length := by
  unfold controls Session.notifications
  induction session.callbacks with
  | nil => rfl
  | cons callback callbacks inductionHypothesis =>
    cases callback with
    | notification notification =>
      cases notification with
      | nextArticle => exact inductionHypothesis
      | _ => exact congrArg Nat.succ inductionHypothesis
    | _ => exact inductionHypothesis

theorem noise_of_outcome {session other : Session Unit} (same : session.outcome = other.outcome) :
    noise session = noise other := by
  have commands : session.commands = other.commands := congrArg Outcome.commands same
  have notifications : session.notifications = other.notifications := congrArg Outcome.notifications same
  rw [noise, noise, commands, controls_length, controls_length, notifications]

variable {operation : Option Operation} {groupCommand : Text} {session : Session Unit} {login : Reply} {behind : Text}

theorem login_tolerates (idle : Idle none [] session []) (isLogin : isLogin login = true)
    (ascii : IsAscii (replyText login ++ behind))
    (unheard : ∀ taken < maxReadLength, ¬ Heard (behind.drop taken)) :
    CutIndependent asciiDecode session (replyText login ++ behind) := by
  have unjoined := joined_of_isAscii fun char member => ascii char (List.mem_append_right _ member)
  have answered : ∀ cut : Cut (replyText login ++ behind),
      Answered session (session.afterCut asciiDecode cut) (loginEffect session.reader login) := by
    intro cut
    obtain ⟨texts, isTexts, whole, short⟩ := cut.exists_texts ascii
    have text : textOf (markedEvents texts) = replyText login ++ behind := by
      rw [textOf, List.flatMap_def, markedEvents_map_fst, whole]
    have fits : ∀ read ∈ markedEvents texts, read.1.length ≤ maxReadLength := by
      intro read inside
      apply short
      rw [← markedEvents_map_fst]
      exact List.mem_map_of_mem inside
    obtain ⟨front, back, taken, split, small, rest, later, answered⟩ := idle.after_login isLogin unjoined text fits
    rw [afterCut_eq_readTexts asciiDecode cut isTexts, split, readTexts_append]
    exact answered.silent (later.silent back (rest ▸ unheard taken small))
  intro first second
  have one := answered first
  have other := answered second
  exact outcome_congr (one.commands.trans other.commands.symm) (one.callbacks.trans other.callbacks.symm)

def oneByOne (text : Text) : List (List Text) := text.map fun char => [[char]]

theorem oneByOne_flatten (text : Text) : (oneByOne text).flatten.flatten = text := by
  induction text with
  | nil => rfl
  | cons char text inductionHypothesis =>
    rw [oneByOne] at inductionHypothesis
    simp [oneByOne, inductionHypothesis]

theorem oneByOne_fits {text read : Text} (inside : read ∈ (oneByOne text).flatten) :
    read ≠ [] ∧ read.length ≤ maxReadLength := by
  obtain ⟨event, isEvent, here⟩ := List.mem_flatten.mp inside
  obtain ⟨char, -, rfl⟩ := List.mem_map.mp isEvent
  rw [List.mem_singleton.mp here]
  simp [maxReadLength]

/-- The events of a login reply that takes `taken` characters behind the status text with it. -/
theorem exists_login_cut (isLogin : isLogin login = true) (ascii : IsAscii (replyText login ++ behind))
    {taken : Nat} (small : taken < maxReadLength) (texts : List (List Text))
    (whole : texts.flatten.flatten = behind.drop taken)
    (fits : ∀ read ∈ texts.flatten, read ≠ [] ∧ read.length ≤ maxReadLength) :
    ∃ cut : Cut (replyText login ++ behind), ∀ session : Session Unit, Idle none [] session [] →
      ∃ middle, Idle none [] middle [] ∧ Answered session middle (loginEffect session.reader login) ∧
        session.afterCut asciiDecode cut = middle.readTexts (markedEvents texts) := by
  obtain ⟨front, last, isText⟩ : ∃ front last, replyText login = front ++ [last] :=
    ⟨_, _, (List.dropLast_append_getLast (replyText_ne_nil login)).symm⟩
  have lengths : 1 < (replyText login).length ∧ (replyText login).length ≤ maxReadLength := by
    cases login <;> first | decide | cases isLogin
  rw [isText, List.length_append, List.length_singleton] at lengths
  -- the last character of the login words comes with the text that is to be dropped
  let events : List (List Text) := [[front]] ++ ([[last :: behind.take taken]] ++ texts)
  have inOrder : events.flatten.flatten = replyText login ++ behind := by
    simp [events, whole, isText]
  have fitsAll : ∀ read ∈ events.flatten, read ≠ [] ∧ read.length ≤ maxReadLength := by
    intro read inside
    simp only [events, List.flatten_append, List.flatten_cons, List.flatten_nil, List.append_nil, List.mem_append,
      List.mem_singleton] at inside
    rcases inside with rfl | rfl | later
    · refine ⟨?_, by omega⟩
      rintro rfl
      simp at lengths
    · refine ⟨by simp, ?_⟩
      simp only [List.length_cons, List.length_take]
      omega
    · exact fits read later
  refine ⟨Cut.ofTexts ascii events inOrder fitsAll, fun session idle => ?_⟩
  have unjoined := joined_of_isAscii fun char member => ascii char (List.mem_append_right _ member)
  obtain ⟨later, answered⟩ := idle.two_reads isLogin isText (joined_of_isPrefix (List.take_prefix taken behind) unjoined)
  refine ⟨_, later, answered, ?_⟩
  rw [afterCut_ofTexts, ← readTexts_append]
  rfl

theorem login_depends_on_cut (idle : Idle none [] session []) (isLogin : isLogin login = true)
    (ascii : IsAscii (replyText login ++ behind)) (long : 2 ≤ behind.length) {taken : Nat}
    (small : taken < maxReadLength) (heard : Heard (behind.drop taken)) :
    ¬ CutIndependent asciiDecode session (replyText login ++ behind) := by
  intro independent
  obtain ⟨texts, rest, whole, fits, loud⟩ := heard.loud
  obtain ⟨noisy, isNoisy⟩ := exists_login_cut asciiDecode isLogin ascii small (texts ++ oneByOne rest)
    (by rw [List.flatten_append, List.flatten_append, oneByOne_flatten, whole]) (by
      intro read inside
      rw [List.flatten_append] at inside
      rcases List.mem_append.mp inside with old | new
      · exact fits read old
      · exact oneByOne_fits new)
  obtain ⟨taken', few, unheard⟩ := @Idle.unheard_reads none [] behind long
  let next := behind.drop taken'
  have small' : taken' < maxReadLength := by
    rw [maxReadLength]
    omega
  obtain ⟨quiet, isQuiet⟩ := exists_login_cut asciiDecode isLogin ascii small'
    ([[next.take 2]] ++ oneByOne (next.drop 2))
    (by simp [oneByOne_flatten, next]) (by
      intro read inside
      rw [List.flatten_append] at inside
      rcases List.mem_append.mp inside with first | new
      · have isFirst : read = next.take 2 := by simpa using first
        have lengths : (next.take 2).length = min 2 (behind.length - taken') := by simp [next]
        rw [isFirst]
        refine ⟨fun empty => ?_, by rw [maxReadLength]; omega⟩
        rw [empty, List.length_nil] at lengths
        omega
      · exact oneByOne_fits new)
  have same := noise_of_outcome (independent noisy quiet)
  obtain ⟨before, ready, answered, afterNoisy⟩ := isNoisy session idle
  obtain ⟨before', ready', answered', afterQuiet⟩ := isQuiet session idle
  have quietReads := unheard before' ready' (markedEvents (oneByOne (next.drop 2))) (by
    rw [textOf, List.flatMap_def, markedEvents_map_fst, oneByOne_flatten])
  rw [afterNoisy, afterQuiet, markedEvents_append, markedEvents_append, markedEvents_singleton, readTexts_append,
    List.singleton_append] at same
  have louder := loud before ready
  have grown : noise (before.readTexts (markedEvents texts)) ≤
      noise ((before.readTexts (markedEvents texts)).readTexts (markedEvents (oneByOne rest))) :=
    noise_le (readSteps_trace silent_trace _ _)
  have effects : noise before = noise before' := by
    rw [noise, noise, controls, controls, answered.commands, answered.callbacks, answered'.commands,
      answered'.callbacks]
  have quietNoise : noise (before'.readTexts ((next.take 2, false) :: markedEvents (oneByOne (next.drop 2)))) =
      noise before' := quietReads.noise_eq
  omega

/-! ## Every reply -/

/-- One operation is outstanding, and the server's reply to it. -/
inductive Outstanding (session : Session Unit) (reply : Text) : Prop where
  /-- A reader that logs in, and what the server says from one of the login replies on. -/
  | login (idle : Idle none [] session []) (login : Reply) (isLogin : isLogin login = true) (behind : Text)
      (isReply : reply = replyText login ++ behind) (line : crlf.symbols <:+ behind)
  /-- The first operation of a reader that has logged in, and a reply with a block. -/
  | first (operation : Operation) (groupCommand : Text) (idle : Idle (some operation) groupCommand session [])
      (front : Text) (isReply : reply = front ++ blockEnd)
      (code : (if operation = .listGroups then "215 ".toList else "211 ".toList) <+: front)
  /-- An operation of a reader that has had results before. -/
  | later (operation : Operation) (isOpen : session.reader.isOpen = true)
      (results : session.reader.resultsComing = true)
      (current : session.reader.currentOperation = some operation)
      (front : Text) (isReply : reply = front ++ blockEnd)

theorem first_block_depends_on_cut {session : Session Unit} {reply front : Text} (ascii : IsAscii reply)
    (idle : Idle operation groupCommand session []) (block : Reply) (quiet : isLoud block = false)
    (isReply : reply = front ++ blockEnd) (begins : replyText block <+: front) :
    ¬ CutIndependent asciiDecode session reply := by
  obtain ⟨rest, rfl⟩ := begins
  obtain ⟨isOpen, results⟩ := idle.reads_block quiet
  refine block_depends_on_cut asciiDecode ascii rest [[replyText block]] ?_ (by simpa using isReply)
    isOpen results
  intro read inside
  have isBlock : read = replyText block := by simpa using inside
  rw [isBlock]
  cases block <;> decide

/-- The replies whose outcome does not depend on the cut. -/
def Tolerated (session : Session Unit) (reply : Text) : Prop :=
  match session.reader.currentOperation with
  | none => ∃ login behind, isLogin login = true ∧ reply = replyText login ++ behind ∧
      ∀ taken < maxReadLength, ¬ Heard (behind.drop taken)
  | some .listGroups => session.reader.resultsComing = false ∧ ¬ replyText .newsGroupsFollow <+: reply
  | some _ => False

theorem cut_independent_iff {session : Session Unit} {reply : Text} (ascii : IsAscii reply)
    (outstanding : Outstanding session reply) :
    CutIndependent asciiDecode session reply ↔ Tolerated session reply := by
  cases outstanding with
  | login idle login isLogin behind isReply line =>
    rw [Tolerated, idle.operation]
    constructor
    · intro independent
      refine ⟨login, behind, isLogin, isReply, fun taken small heard => ?_⟩
      subst isReply
      exact login_depends_on_cut asciiDecode idle isLogin ascii line.length_le small heard independent
    · rintro ⟨login, behind, isLogin, rfl, unheard⟩
      exact login_tolerates asciiDecode idle isLogin ascii unheard
  | first operation groupCommand idle front isReply code =>
    rw [Tolerated, idle.operation]
    cases operation with
    | listGroups =>
      dsimp only
      constructor
      · intro independent
        refine ⟨idle.results, fun known => ?_⟩
        -- the known words end before the block does
        rw [isReply, blockEnd, lastDot, List.append_assoc] at known
        exact first_block_depends_on_cut asciiDecode ascii idle .newsGroupsFollow rfl isReply
          (prefix_of_prefix_line (by decide) known) independent
      · rintro ⟨-, foreign⟩
        have codeInReply : "215 ".toList <+: reply := isReply ▸ code.trans (List.prefix_append _ _)
        have silent : ∀ cut : Cut reply, Silent session (session.afterCut asciiDecode cut) := by
          intro cut
          obtain ⟨texts, isTexts, whole, -⟩ := cut.exists_texts ascii
          rw [afterCut_eq_readTexts asciiDecode cut isTexts]
          refine (idle.unheard fun front inside => ?_).2
          have frontInReply : textOf front <+: reply := by
            have arrived : textOf (markedEvents texts) = reply := by
              rw [textOf, List.flatMap_def, markedEvents_map_fst, whole]
            obtain ⟨back, isFront⟩ := inside
            rw [← arrived, ← isFront]
            exact ⟨textOf back, (textOf_append _ _).symm⟩
          cases heard : recognise (textOf front) with
          | none => rfl
          | some known =>
            have begins := (replyText_begins heard).trans frontInReply
            exact absurd (only_list_begins codeInReply begins ▸ begins) foreign
        intro one other
        exact outcome_congr ((silent one).commands.trans (silent other).commands.symm)
          ((silent one).callbacks.trans (silent other).callbacks.symm)
    | _ =>
      refine iff_of_false ?_ id
      exact first_block_depends_on_cut asciiDecode ascii idle .groupSelected rfl isReply code
  | later operation isOpen results current front isReply =>
    have depends := block_depends_on_cut asciiDecode ascii front [] (by simp) (by simpa using isReply) isOpen results
    rw [Tolerated, current]
    refine iff_of_false depends ?_
    cases operation with
    | listGroups => simp [results]
    | _ => exact id

/-- A reader that has connected, or has sent its user name. -/
def loggingIn : Session Unit where
  reader := { username := "ann".toList, password := "secret".toList, isOpen := true }
  delegate := ()

theorem cut_independent_greeting :
    CutIndependent (fun _ => none) loggingIn "200 news.easynews.com Welcome!\r\n".toList := by
  have outstanding : Outstanding loggingIn "200 news.easynews.com Welcome!\r\n".toList :=
    .login ⟨rfl, rfl, rfl, rfl, rfl⟩ .welcome rfl "\r\n".toList (by decide) (by decide)
  refine (cut_independent_iff (fun _ => none) (by decide) outstanding).mpr ?_
  refine ⟨.welcome, "\r\n".toList, rfl, by decide, fun taken _ heard => ?_⟩
  have begins : ∃ reply, replyText reply <+: "\r\n".toList.drop taken := by
    cases heard with
    | atOnce reply _ here => exact ⟨reply, here⟩
    | behindLine block _ between reply _ here =>
      exact ⟨block, ((((List.prefix_append _ _).trans (List.prefix_append _ _))).trans
        (List.prefix_append _ _)).trans here⟩
  obtain ⟨reply, here⟩ := begins
  match taken with
  | 0 =>
    revert here
    cases reply <;> decide
  | 1 =>
    revert here
    cases reply <;> decide
  | taken + 2 =>
    have nothing : "\r\n".toList.drop (taken + 2) = [] := List.drop_eq_nil_of_le (by simp)
    rw [nothing] at here
    exact replyText_ne_nil reply (List.prefix_nil.mp here)

def listing : Session Unit where
  reader :=
    { username := "ann".toList
      password := "secret".toList
      isOpen := true
      connected := true
      currentOperation := some .listGroupArticles }
  delegate := ()

/-- An id list that arrives in one read with its status line is lost. -/
theorem list_in_one_read_is_lost :
    ¬ ∀ session reply, IsAscii reply → Outstanding session reply →
      CutIndependent (fun _ => none) session reply := by
  intro claim
  let reply := "211 Article Numbers Follow\r\n1\r\n.\r\n".toList
  have ascii : IsAscii reply := by decide
  have outstanding : Outstanding listing reply :=
    .first .listGroupArticles [] ⟨rfl, rfl, rfl, rfl, rfl⟩ "211 Article Numbers Follow\r\n1".toList (by decide)
      (by decide)
  have same := congrArg Outcome.articleIds (claim listing reply ascii outstanding
    (Cut.ofTexts ascii [[reply]] (by decide) (by decide))
    (Cut.ofTexts ascii [["211 Article Numbers Follow\r\n".toList], ["1\r\n.\r\n".toList]] (by decide) (by decide)))
  rw [afterCut_ofTexts, afterCut_ofTexts] at same
  revert same
  decide

end EasyNews.Verified.CutIndependence
