import EasyNews.Decimals
import EasyNews.Verified.ArticleTransfer

/-! # The group list as it reaches the delegate

The reply to LIST, read in pieces that end at line ends: every line `name last first flag` becomes a
group, all other lines are passed over, and Done is raised once, when the single dot has come.
-/

namespace EasyNews.Verified.GroupListing

open Delimited Session ArticleTransfer

/-! ## Numbers -/

/-- A number in decimal, as a server that pads its numbers writes it. -/
def decimal (zeros : Nat) (number : Int) : Text :=
  (if number < 0 then ['-'] else []) ++ (List.replicate zeros '0' ++ Nat.toDigits 10 number.natAbs)

theorem intOfText_decimal (zeros : Nat) (number : Int64) :
    intOfText (decimal zeros number.toInt) = some number.toInt := by
  have low : Int64.minValue.toInt ≤ number.toInt := by
    have bound := number.le_toInt
    exact bound
  have high : number.toInt ≤ Int64.maxValue.toInt := by
    have bound := number.toInt_lt
    have maximum : Int64.maxValue.toInt + 1 = 2 ^ 63 := by decide
    omega
  have value : decimalOfText (List.replicate zeros '0' ++ Nat.toDigits 10 number.toInt.natAbs) =
      some number.toInt.natAbs :=
    decimalOfText_padded zeros number.toInt.natAbs
  -- a minus sign is read off first; what is left are digits in either case
  unfold decimal
  split
  · rename_i negative
    have absolute : -(number.toInt.natAbs : Int) = number.toInt := by omega
    rw [List.cons_append, List.nil_append, intOfText]
    dsimp only
    rw [value]
    show (if Int64.minValue.toInt ≤ -(number.toInt.natAbs : Int) ∧ -(number.toInt.natAbs : Int) ≤ Int64.maxValue.toInt
      then some (-(number.toInt.natAbs : Int)) else none) = some number.toInt
    rw [absolute]
    exact if_pos ⟨low, high⟩
  · rename_i nonnegative
    have absolute : (number.toInt.natAbs : Int) = number.toInt := by omega
    show intOfText (numeral zeros number.toInt.natAbs) = some number.toInt
    rw [intOfText_numeral zeros _ (by omega), absolute]

theorem decimal_plain {zeros : Nat} {number : Int} {symbol : Char} (notDigit : symbol.isDigit = false)
    (notMinus : symbol ≠ '-') : symbol ∉ decimal zeros number := by
  intro member
  cases List.mem_append.mp member with
  | inl sign =>
    split at sign
    · exact notMinus (List.mem_singleton.mp sign)
    · cases sign
  | inr digit =>
    rw [isDigit_padded zeros _ symbol digit] at notDigit
    cases notDigit

theorem decimal_low (zeros : Nat) (number : Int) : ∀ char ∈ decimal zeros number, char.toNat < 0x300 := by
  intro char member
  by_contra high
  have notDigit : char.isDigit = false := by
    rw [Bool.eq_false_iff]
    intro isDigit
    simp only [Char.isDigit, Bool.and_eq_true, decide_eq_true_eq] at isDigit
    have atMost : char.toNat ≤ 0x39 := isDigit.2
    omega
  refine decimal_plain notDigit ?_ member
  rintro rfl
  exact high (by decide)

/-! ## Lines of the reply -/

structure IsWord (word : Text) : Prop where
  nonempty : word ≠ []
  noSpace : ' ' ∉ word
  isLine : IsLine word

theorem decimal_isWord (zeros : Nat) (number : Int) : IsWord (decimal zeros number) where
  nonempty :=
    List.append_ne_nil_of_right_ne_nil _ (List.append_ne_nil_of_right_ne_nil _ Nat.toDigits_ne_nil)
  noSpace := decimal_plain (by decide) (by decide)
  isLine := ⟨decimal_plain (by decide) (by decide), decimal_plain (by decide) (by decide)⟩

/-- What the server knows of a group, with the padding of its numbers. The spaces behind the name and in
    front of the flag are Characters of their own. -/
structure GroupRecord where
  name : Text
  last : Int64
  first : Int64
  flag : Text
  lastZeros : Nat
  firstZeros : Nat
  isName : IsWord name
  isFlag : IsWord flag
  nameApart : attached name = false
  flagApart : joined flag = false

namespace GroupRecord

variable (record : GroupRecord)

/-- `name last first flag` -/
def line : Text :=
  record.name ++ ' ' :: (decimal record.lastZeros record.last.toInt ++
    ' ' :: (decimal record.firstZeros record.first.toInt ++ ' ' :: record.flag))

/-- The group the record is about, as the reader builds it. -/
def group : NewsGroup where
  name := record.name
  first := some record.first.toInt
  last := some record.last.toInt
  canPost := some (record.flag = "y".toList)

theorem splitWords_line :
    splitWords record.line =
      [record.name, decimal record.lastZeros record.last.toInt, decimal record.firstZeros record.first.toInt,
        record.flag] := by
  have last := decimal_isWord record.lastZeros record.last.toInt
  have first := decimal_isWord record.firstZeros record.first.toInt
  have lastLow := decimal_low record.lastZeros record.last.toInt
  have firstLow := decimal_low record.firstZeros record.first.toInt
  have lastApart : joined (decimal record.lastZeros record.last.toInt ++
      ' ' :: (decimal record.firstZeros record.first.toInt ++ ' ' :: record.flag)) = false := by
    rw [joined_append_space]
    exact joined_of_low lastLow
  have firstApart : joined (decimal record.firstZeros record.first.toInt ++ ' ' :: record.flag) = false := by
    rw [joined_append_space]
    exact joined_of_low firstLow
  rw [line, splitWords_append record.nameApart lastApart, splitWords_append (attached_of_low lastLow) firstApart,
    splitWords_append (attached_of_low firstLow) record.flagApart]
  rw [splitWords_word record.isName.nonempty record.isName.noSpace, splitWords_word last.nonempty last.noSpace,
    splitWords_word first.nonempty first.noSpace, splitWords_word record.isFlag.nonempty record.isFlag.noSpace]
  rfl

theorem groupOfLine_line : groupOfLine record.line = some record.group := by
  rw [groupOfLine, splitWords_line]
  dsimp only
  rw [intOfText_decimal, intOfText_decimal]
  rfl

theorem line_isLine : IsLine record.line := by
  have space : IsLine [' '] := by decide
  have last := (decimal_isWord record.lastZeros record.last.toInt).isLine
  have first := (decimal_isWord record.firstZeros record.first.toInt).isLine
  exact record.isName.isLine.append (space.append (last.append (space.append (first.append
    (space.append record.isFlag.isLine)))))

theorem line_ne_nil : record.line ≠ [] := List.append_ne_nil_of_left_ne_nil record.isName.nonempty _

theorem line_ne_terminatorLine : record.line ≠ terminatorLine := by
  intro same
  have space : ' ' ∈ terminatorLine := by
    rw [← same, line]
    simp
  revert space
  decide

end GroupRecord

/-- A line that describes no group: not four fields, or no number in the second or the third. -/
structure IsOtherLine (line : Text) : Prop where
  isLine : IsLine line
  nonempty : line ≠ []
  notTerminator : line ≠ terminatorLine
  notRecord : ∀ name last first flag, splitWords line = [name, last, first, flag] →
    intOfText last = none ∨ intOfText first = none

theorem IsOtherLine.groupOfLine_eq {line : Text} (isOther : IsOtherLine line) : groupOfLine line = none := by
  unfold groupOfLine
  split
  · rename_i name last first flag words
    cases isOther.notRecord name last first flag words with
    | inl noLast =>
      rw [noLast]
      rfl
    | inr noFirst =>
      rw [noFirst]
      cases intOfText last <;> rfl
  · rfl

/-- A line of the body. -/
inductive ListLine where
  | record (record : GroupRecord)
  | other (line : Text) (isOther : IsOtherLine line)

namespace ListLine

def text : ListLine → Text
  | .record described => described.line
  | .other line _ => line

def group : ListLine → Option NewsGroup
  | .record described => some described.group
  | .other _ _ => none

variable (line : ListLine)

theorem groupOfLine_text : groupOfLine line.text = line.group := by
  cases line with
  | record described => exact described.groupOfLine_line
  | other line isOther => exact isOther.groupOfLine_eq

theorem text_isLine : IsLine line.text := by
  cases line with
  | record described => exact described.line_isLine
  | other line isOther => exact isOther.isLine

theorem text_ne_nil : line.text ≠ [] := by
  cases line with
  | record described => exact described.line_ne_nil
  | other line isOther => exact isOther.nonempty

theorem text_ne_terminatorLine : line.text ≠ terminatorLine := by
  cases line with
  | record described => exact described.line_ne_terminatorLine
  | other line isOther => exact isOther.notTerminator

end ListLine

/-! ## Runs -/

/-- LIST has been sent, and its reply is coming. -/
structure Listing (reader : NewsReader) : Prop where
  isOpen : reader.isOpen = true
  results : reader.resultsComing = true
  operation : reader.currentOperation = some .listGroups
  response : reader.response = []

def groupsOf (read : List Text) : List NewsGroup := (read.filter (· ≠ terminatorLine)).filterMap groupOfLine

def arrivedGroups (read : List Text) : List Callback :=
  .groups (groupsOf read) :: if terminatorLine ∈ read then [.notification .done] else []

theorem Listing.readStep {session : Session Unit} (listing : Listing session.reader) {read : List Text}
    (nonempty : read ≠ []) (isLine : ∀ line ∈ read, IsLine line ∧ line ≠ []) (more : Bool) :
    Listing (session.readStep .silent more (lineRead read)).reader ∧
      (session.readStep .silent more (lineRead read)).callbacks = session.callbacks ++ arrivedGroups read ∧
      (session.readStep .silent more (lineRead read)).commands = session.commands := by
  obtain ⟨lines, last, rfl⟩ := List.eq_nil_or_concat read |>.resolve_left nonempty
  have text : crlf.render (lines.concat last) = (crlf.render lines ++ last) ++ crlf.symbols := by
    rw [List.concat_eq_append, render_concat]
  have step := readStep_silent_lineEnd more listing.isOpen listing.results
    (crlf.render lines ++ last) (crlf.render (lines.concat last)) (by rw [listing.response, text]; rfl)
  -- splitting at the line ends gives back the lines of the read, none of them empty
  have cut : split (crlf.render lines ++ last) = lines.concat last := by
    rw [split, ← crlf.fields_append_symbols, ← text]
    rw [crlf.fields_render fun line member => (isLine line member).1.unbroken, List.filter_eq_self]
    exact fun line member => by simpa using (isLine line member).2
  have called : deliveries session.reader (crlf.render lines ++ last) = arrivedGroups (lines.concat last) := by
    rw [deliveries, listing.operation]
    dsimp only
    rw [cut, if_neg (by simp)]
    rfl
  rw [lineRead, Read.ofText, step]
  refine ⟨⟨listing.isOpen, listing.results, listing.operation, rfl⟩, ?_, ?_⟩
  · rw [afterDelivery_callbacks, called]
  · rw [afterDelivery_commands]

theorem Listing.readSteps {session : Session Unit} (listing : Listing session.reader)
    (reads : List (List Text × Bool)) (nonempty : ∀ read ∈ reads.map Prod.fst, read ≠ [])
    (isLine : ∀ read ∈ reads.map Prod.fst, ∀ line ∈ read, IsLine line ∧ line ≠ []) :
    (session.readSteps .silent (reads.map (Prod.map lineRead id))).callbacks =
        session.callbacks ++ (reads.map Prod.fst).flatMap arrivedGroups ∧
      (session.readSteps .silent (reads.map (Prod.map lineRead id))).commands = session.commands := by
  induction reads generalizing session with
  | nil => simp
  | cons head reads inductionHypothesis =>
    obtain ⟨read, more⟩ := head
    rw [List.map_cons] at nonempty isLine
    obtain ⟨later, called, sent⟩ := listing.readStep (nonempty read List.mem_cons_self)
      (isLine read List.mem_cons_self) more
    obtain ⟨calledLater, sentLater⟩ := inductionHypothesis later
      (fun other member => nonempty other (List.mem_cons_of_mem _ member))
      (fun other member => isLine other (List.mem_cons_of_mem _ member))
    rw [List.map_cons, Prod.map_apply, id, readSteps_cons, calledLater, sentLater, called, sent]
    simp

theorem flatMap_arrivedGroups {reads : List (List Text)} {front : List Text}
    (joined : reads.flatten = front ++ [terminatorLine]) (unfinished : terminatorLine ∉ front)
    (nonempty : ∀ read ∈ reads, read ≠ []) :
    reads.flatMap arrivedGroups = (reads.map groupsOf).map .groups ++ [.notification .done] := by
  obtain rfl | ⟨earlier, last, rfl⟩ := List.eq_nil_or_concat reads
  · cases front <;> cases joined
  · rw [List.concat_eq_append] at joined nonempty ⊢
    obtain rfl | ⟨lines, line, rfl⟩ := List.eq_nil_or_concat last
    · exact absurd rfl (nonempty [] (by simp))
    · rw [List.flatten_append, List.flatten_singleton, List.concat_eq_append, ← List.append_assoc] at joined
      obtain ⟨before, same⟩ := List.append_inj' joined rfl
      obtain rfl := List.singleton_inj.mp same
      have quiet : ∀ read ∈ earlier, arrivedGroups read = [.groups (groupsOf read)] := by
        intro read member
        have absent : terminatorLine ∉ read := by
          intro inRead
          apply unfinished
          rw [← before]
          exact List.mem_append_left _ (List.mem_flatten.mpr ⟨read, member, inRead⟩)
        rw [arrivedGroups, if_neg absent]
      have front_ : earlier.flatMap arrivedGroups = (earlier.map groupsOf).map .groups := by
        rw [List.flatMap_congr quiet, List.map_map, List.map_eq_flatMap]
        rfl
      rw [List.flatMap_append, front_, List.flatMap_singleton, arrivedGroups, if_pos (by simp)]
      simp

/-- The groups delivered, one delivery after another, are those of all lines. -/
theorem groupsOf_flatten {reads : List (List Text)} {lines : List ListLine}
    (joined : reads.flatten = lines.map ListLine.text ++ [terminatorLine]) :
    (reads.map groupsOf).flatten = lines.filterMap ListLine.group := by
  have whole : (reads.map groupsOf).flatten = groupsOf reads.flatten := by
    rw [groupsOf, List.filter_flatten, List.filterMap_flatten, List.map_map]
    rfl
  have kept : (lines.map ListLine.text).filter (· ≠ terminatorLine) = lines.map ListLine.text := by
    rw [List.filter_eq_self]
    intro text member
    obtain ⟨line, -, rfl⟩ := List.mem_map.mp member
    simpa using line.text_ne_terminatorLine
  rw [whole, joined, groupsOf, List.filter_append, kept, List.filterMap_append, List.filterMap_map]
  have decoded : groupOfLine ∘ ListLine.text = ListLine.group := funext ListLine.groupOfLine_text
  rw [decoded]
  simp

/-- However the lines are mixed and however the reads group them, the groups delivered are the
    records of the list, and Done is raised once, behind the last of them. -/
theorem group_list_decoded (asciiDecode : Bytes → Option Text) (session : Session Unit)
    (listing : Listing session.reader) (lines : List ListLine)
    (cut : LineCut (lines.map ListLine.text ++ [terminatorLine])) :
    ∃ delivered : List (List NewsGroup), delivered.flatten = lines.filterMap ListLine.group ∧
      (session.receive .silent (cut.reads asciiDecode)).callbacks =
        session.callbacks ++ delivered.map .groups ++ [.notification .done] ∧
      (session.receive .silent (cut.reads asciiDecode)).commands = session.commands := by
  have areLines : ∀ line ∈ lines.map ListLine.text ++ [terminatorLine], IsLine line ∧ line ≠ [] := by
    intro text member
    cases List.mem_append.mp member with
    | inl inLines =>
      obtain ⟨line, -, rfl⟩ := List.mem_map.mp inLines
      exact ⟨line.text_isLine, line.text_ne_nil⟩
    | inr isTerminator =>
      obtain rfl := List.mem_singleton.mp isTerminator
      exact ⟨terminatorLine_isLine, by decide⟩
  have unfinished : terminatorLine ∉ lines.map ListLine.text := by
    intro member
    obtain ⟨line, -, same⟩ := List.mem_map.mp member
    exact line.text_ne_terminatorLine same
  have reads := markedEvents_map_fst cut.events
  obtain ⟨called, sent⟩ := listing.readSteps (markedEvents cut.events)
    (by rw [reads]; exact cut.nonempty)
    (by
      rw [reads]
      intro read inReads line inRead
      apply areLines
      rw [← cut.joined]
      exact List.mem_flatten.mpr ⟨read, inReads, inRead⟩)
  rw [reads, flatMap_arrivedGroups cut.joined unfinished cut.nonempty, ← List.append_assoc] at called
  refine ⟨cut.events.flatten.map groupsOf, groupsOf_flatten cut.joined, ?_, ?_⟩
  · rw [cut.receive_eq, called]
  · rw [cut.receive_eq, sent]

/-- Two groups, one with padded marks and closed for posting, and a status line between them. -/
def twoGroups : List ListLine :=
  [.record
    { name := "alt.test".toList
      last := 120
      first := 7
      flag := "y".toList
      lastZeros := 0
      firstZeros := 0
      isName := ⟨by decide, by decide, by decide⟩
      isFlag := ⟨by decide, by decide, by decide⟩
      nameApart := by decide
      flagApart := by decide },
    .other "215 more".toList
      { isLine := by decide
        nonempty := by decide
        notTerminator := by decide
        notRecord := by
          intro _ _ _ _ words
          have twoWords : splitWords "215 more".toList = ["215".toList, "more".toList] := by decide
          rw [twoWords] at words
          cases words },
    .record
      { name := "comp.lang.c".toList
        last := -1
        first := 1
        flag := "m".toList
        lastZeros := 0
        firstZeros := 9
        isName := ⟨by decide, by decide, by decide⟩
        isFlag := ⟨by decide, by decide, by decide⟩
        nameApart := by decide
        flagApart := by decide }]

def awaitingList : Session Unit :=
  { awaitingArticle with reader := { awaitingArticle.reader with currentOperation := some .listGroups } }

theorem group_list_decoded_two_groups :
    ∃ delivered : List (List NewsGroup), delivered.flatten = twoGroups.filterMap ListLine.group ∧
      (awaitingList.receive .silent
        ((wholeReply (twoGroups.map ListLine.text ++ [terminatorLine]) (by decide)).reads
          fun _ => none)).callbacks = delivered.map .groups ++ [.notification .done] ∧
      (awaitingList.receive .silent
        ((wholeReply (twoGroups.map ListLine.text ++ [terminatorLine]) (by decide)).reads
          fun _ => none)).commands = [] :=
  group_list_decoded (fun _ => none) awaitingList ⟨rfl, rfl, rfl, rfl⟩ twoGroups (wholeReply _ (by decide))

end EasyNews.Verified.GroupListing
