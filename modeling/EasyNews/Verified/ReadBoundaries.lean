import Mathlib.Algebra.Order.BigOperators.Group.List
import Mathlib.Algebra.Order.Ring.Nat
import EasyNews.Library.Utf8Boundaries
import EasyNews.ListeningRuns
import EasyNews.ReplyCuts

/-! # Decoding read by read

`readAvailableBytes` decodes every read on its own. It carries an incomplete line to the next read,
but never the bytes of an incomplete character: a read that begins or ends within one is no UTF-8, and
what the ASCII decoder makes of it is not the text.
-/

namespace EasyNews.Verified.ReadBoundaries

open Session Utf8Boundaries

variable (asciiDecode : Bytes → Option Text)

/-- What one round of the loop of `readAvailableBytes` makes of the text so far. -/
def appendRead (response : Text) (read : Bytes) : Text :=
  match processedMessageString asciiDecode read with
  | some output => response ++ output
  | none => response

def decodeReads (reads : List Bytes) : Text := reads.foldl (appendRead asciiDecode) []

/-- What is assumed of `String(bytesNoCopy:length:encoding: .ascii)`. -/
inductive AsciiDecoder : Prop where
  | fails (aboveAscii : ∀ bytes : Bytes, (∃ byte ∈ bytes, 127 < byte) → asciiDecode bytes = none)
  | mapsBytes (char : UInt8 → Char) (bytewise : ∀ bytes : Bytes, asciiDecode bytes = some (bytes.map char))

/-- Every read begins where a character begins. -/
def BetweenCharacters (reads : List Bytes) : Prop := ∀ read ∈ reads, Leads read

instance : DecidablePred BetweenCharacters := fun reads => List.decidableBAll _ reads

/-! ## Valid UTF-8 -/

theorem decodeUtf8_eq_some_iff {bytes : Bytes} {text : Text} :
    decodeUtf8 bytes = some text ↔ bytes = encode text := by
  constructor
  · intro decoded
    obtain ⟨chars, isDecoded, rfl⟩ := Option.map_eq_some_iff.mp decoded
    have valid : bytes.toByteArray.utf8Decode?.isSome = true := by simp [isDecoded]
    obtain ⟨characters, encoded⟩ := ByteArray.isSome_utf8Decode?_iff.mp valid
    have same : bytes = encode characters := List.toByteArray_inj.mp encoded
    have decodedAgain : decodeUtf8 bytes = some characters := by
      rw [same]
      exact decodeUtf8_utf8 characters
    rw [decoded] at decodedAgain
    rw [same, Option.some.inj decodedAgain]
  · rintro rfl
    exact decodeUtf8_utf8 text

theorem exists_above_of_decodeUtf8_eq_none {bytes : Bytes} (invalid : decodeUtf8 bytes = none) :
    ∃ byte ∈ bytes, 127 < byte := by
  by_contra noneAbove
  simp only [not_exists, not_and, UInt8.not_lt] at noneAbove
  let text : Text := bytes.map Char.ofUInt8
  have ascii : IsAscii text := by
    intro char inside
    obtain ⟨byte, here, rfl⟩ := List.mem_map.mp inside
    have small := UInt8.le_iff_toNat_le.mp (noneAbove byte here)
    have value : (Char.ofUInt8 byte).toNat = byte.toNat := UInt8.toNat_toUInt32 byte
    rw [value]
    exact Nat.lt_succ_of_le small
  have encoded : bytes = encode text := by
    change bytes = utf8 text
    have byteOf : ∀ byte, (Char.ofUInt8 byte).toUInt8 = byte := UInt8.toUInt8_toUInt32
    rw [utf8_eq_map ascii, List.map_map]
    exact (List.map_id'' byteOf bytes).symm
  rw [decodeUtf8_eq_some_iff.mpr encoded] at invalid
  exact absurd invalid (Option.some_ne_none text)

/-! ## What each read adds -/

/-- What a read adds to the text. -/
def decodeRead (read : Bytes) : Text := (processedMessageString asciiDecode read).getD []

theorem appendRead_eq (response : Text) (read : Bytes) :
    appendRead asciiDecode response read = response ++ decodeRead asciiDecode read := by
  unfold appendRead decodeRead
  cases processedMessageString asciiDecode read with
  | none => exact (List.append_nil response).symm
  | some output => rfl

theorem foldl_appendRead (reads : List Bytes) (response : Text) :
    reads.foldl (appendRead asciiDecode) response = response ++ reads.flatMap (decodeRead asciiDecode) := by
  induction reads generalizing response with
  | nil => exact (List.append_nil response).symm
  | cons read reads inductionHypothesis =>
    rw [List.foldl_cons, inductionHypothesis, appendRead_eq, List.flatMap_cons, List.append_assoc]

theorem decodeReads_eq (reads : List Bytes) :
    decodeReads asciiDecode reads = reads.flatMap (decodeRead asciiDecode) :=
  foldl_appendRead asciiDecode reads []

@[simp] theorem decodeRead_encode (text : Text) : decodeRead asciiDecode (encode text) = text := by
  have decoded := processedMessageString_utf8 asciiDecode text
  change processedMessageString asciiDecode (encode text) = some text at decoded
  rw [decodeRead, decoded, Option.getD_some]

theorem decodeRead_invalid {read : Bytes} (invalid : decodeUtf8 read = none) :
    decodeRead asciiDecode read = (asciiDecode read).getD [] := by
  rw [decodeRead, processedMessageString, invalid]
  cases asciiDecode read with
  | none => rfl
  | some message => rfl

/-! ## Boundaries within a character -/

theorem eq_of_sum_eq {α : Type} {list : List α} {small large : α → Nat}
    (bounded : ∀ element ∈ list, small element ≤ large element)
    (same : (list.map small).sum = (list.map large).sum) :
    ∀ element ∈ list, small element = large element := by
  induction list with
  | nil => simp
  | cons head list inductionHypothesis =>
    have headBound := bounded head List.mem_cons_self
    have tailBounds : ∀ element ∈ list, small element ≤ large element := fun element inside =>
      bounded element (List.mem_cons_of_mem _ inside)
    have tailBound := List.sum_le_sum tailBounds
    simp only [List.map_cons, List.sum_cons] at same
    have headSame : small head = large head := by omega
    have tailSame : (list.map small).sum = (list.map large).sum := by omega
    exact List.forall_mem_cons.mpr ⟨headSame, inductionHypothesis tailBounds tailSame⟩

/-- The first bytes among some bytes. -/
def characters (bytes : Bytes) : Nat := bytes.countP fun byte => decide byte.IsUTF8FirstByte

variable {asciiDecode}

theorem betweenCharacters_of_fails
    (aboveAscii : ∀ bytes : Bytes, (∃ byte ∈ bytes, 127 < byte) → asciiDecode bytes = none)
    {reads : List Bytes} (nonempty : [] ∉ reads)
    (whole : reads.flatten = encode (decodeReads asciiDecode reads)) : BetweenCharacters reads := by
  -- a read is decoded whole or lost whole
  have eachRead : ∀ read ∈ reads, read = encode (decodeRead asciiDecode read) ∨
      (encode (decodeRead asciiDecode read) = [] ∧ read ≠ []) := by
    intro read inside
    cases decoded : decodeUtf8 read with
    | some text =>
      have bytes := decodeUtf8_eq_some_iff.mp decoded
      left
      rw [bytes, decodeRead_encode]
    | none =>
      have lost := aboveAscii read (exists_above_of_decodeUtf8_eq_none decoded)
      right
      rw [decodeRead_invalid asciiDecode decoded, lost]
      exact ⟨rfl, fun empty => nonempty (empty ▸ inside)⟩
  have bounded : ∀ read ∈ reads, (encode (decodeRead asciiDecode read)).length ≤ read.length := by
    intro read inside
    obtain kept | ⟨lost, _⟩ := eachRead read inside
    · exact Nat.le_of_eq (congrArg List.length kept).symm
    · rw [lost]
      exact Nat.zero_le _
  -- all bytes are there, so no read can have lost any
  have lengths : (reads.map fun read => (encode (decodeRead asciiDecode read)).length).sum =
      (reads.map List.length).sum := by
    have bytes := congrArg List.length whole
    rw [List.length_flatten, decodeReads_eq, encode, List.flatMap_assoc, List.length_flatMap] at bytes
    exact bytes.symm
  intro read inside
  have same := eq_of_sum_eq bounded lengths read inside
  obtain kept | ⟨lost, full⟩ := eachRead read inside
  · rw [kept]
    exact leads_encode _
  · rw [lost] at same
    exact absurd (List.eq_nil_of_length_eq_zero same.symm) full

/-- A decoder that maps every byte makes a character of each continuation byte. -/
theorem betweenCharacters_of_mapsBytes {char : UInt8 → Char}
    (bytewise : ∀ bytes : Bytes, asciiDecode bytes = some (bytes.map char))
    {reads : List Bytes} (whole : reads.flatten = encode (decodeReads asciiDecode reads)) :
    BetweenCharacters reads := by
  have eachRead : ∀ read ∈ reads, read = encode (decodeRead asciiDecode read) ∨
      (decodeRead asciiDecode read).length = read.length := by
    intro read inside
    cases decoded : decodeUtf8 read with
    | some text =>
      have bytes := decodeUtf8_eq_some_iff.mp decoded
      left
      rw [bytes, decodeRead_encode]
    | none =>
      right
      rw [decodeRead_invalid asciiDecode decoded, bytewise, Option.getD_some, List.length_map]
  have bounded : ∀ read ∈ reads, characters read ≤ (decodeRead asciiDecode read).length := by
    intro read inside
    obtain kept | mapped := eachRead read inside
    · rw [← countP_encode, ← kept]
      exact Nat.le_refl _
    · rw [mapped]
      exact List.countP_le_length
  -- as many characters were sent as were taken in, so no read may gain one
  have counts : (reads.map characters).sum =
      (reads.map fun read => (decodeRead asciiDecode read).length).sum := by
    have firstBytes := congrArg characters whole
    rw [characters, List.countP_flatten, characters, countP_encode, decodeReads_eq, List.length_flatMap] at firstBytes
    exact firstBytes
  intro read inside
  have same := eq_of_sum_eq bounded counts read inside
  obtain kept | mapped := eachRead read inside
  · rw [kept]
    exact leads_encode _
  · -- as many first bytes as bytes
    rw [mapped, characters, List.countP_eq_length] at same
    intro byte isHead
    exact of_decide_eq_true (same byte (List.mem_of_mem_head? isHead))

/-- Read by read the text is decoded as it was sent exactly if no boundary stands within a
    character. -/
theorem decoded_as_sent_iff (decoder : AsciiDecoder asciiDecode) {text : Text} (cut : Cut text) :
    decodeReads asciiDecode cut.events.flatten = text ↔ BetweenCharacters cut.events.flatten := by
  have whole : cut.events.flatten.flatten = encode text := cut.inOrder
  constructor
  · intro decoded
    have same := whole.trans (congrArg encode decoded.symm)
    cases decoder with
    | fails aboveAscii =>
      have nonempty : [] ∉ cut.events.flatten := fun inside => by
        obtain ⟨reads, isEvent, empty⟩ := List.mem_flatten.mp inside
        exact cut.nonempty reads isEvent empty
      exact betweenCharacters_of_fails aboveAscii nonempty same
    | mapsBytes char bytewise => exact betweenCharacters_of_mapsBytes bytewise same
  · intro between
    obtain ⟨texts, isTexts, rfl⟩ := encode_cuts whole between
    rw [isTexts, decodeReads_eq, List.flatMap_map]
    simp [List.flatMap]

/-- An ASCII decoder of each kind. -/
def decodeSevenBits (bytes : Bytes) : Option Text :=
  if bytes.all (· ≤ 127) then some (bytes.map Char.ofUInt8) else none

def decodeEachByte (bytes : Bytes) : Option Text := some (bytes.map Char.ofUInt8)

theorem decodeSevenBits_fails : AsciiDecoder decodeSevenBits := by
  refine .fails fun bytes ⟨byte, inside, above⟩ => if_neg fun all => ?_
  have small : byte ≤ 127 := by simpa using List.all_eq_true.mp all byte inside
  exact absurd above (UInt8.not_lt.mpr small)

theorem decodeEachByte_mapsBytes : AsciiDecoder decodeEachByte := .mapsBytes Char.ofUInt8 fun _ => rfl

def splitCharacter : Cut "é".toList where
  events := [[[0xC3]], [[0xA9]]]
  inOrder := by decide
  nonempty := by decide
  short := by decide

theorem split_character_lost_or_changed :
    decodeUtf8 splitCharacter.events.flatten.flatten = some "é".toList ∧
      (AsciiDecoder decodeSevenBits ∧ decodeReads decodeSevenBits splitCharacter.events.flatten = []) ∧
      AsciiDecoder decodeEachByte ∧ decodeReads decodeEachByte splitCharacter.events.flatten = "Ã©".toList :=
  ⟨by decide, ⟨decodeSevenBits_fails, by decide⟩, decodeEachByte_mapsBytes, by decide⟩

def wholeCharacters : Cut "aé".toList where
  events := [[[0x61], [0xC3, 0xA9]]]
  inOrder := by decide
  nonempty := by decide
  short := by decide

theorem whole_characters_kept :
    decodeReads decodeSevenBits wholeCharacters.events.flatten = "aé".toList :=
  (decoded_as_sent_iff decodeSevenBits_fails wholeCharacters).mpr (by decide)

/-! ## The text a run takes in -/

/-- The text of the reads so far. -/
def takenIn (session : Session Unit) : Text :=
  session.trace.flatMap fun
    | .received (some output) => output
    | _ => []

theorem takenIn_of_called {session later : Session Unit} {callbacks : List Callback}
    (called : later.trace = session.trace ++ callbacks.map .called) : takenIn later = takenIn session := by
  have nothing : (callbacks.map Effect.called).flatMap (fun
      | .received (some output) => output
      | _ => []) = ([] : Text) := by
    simp
  rw [takenIn, called, List.flatMap_append, nothing, List.append_nil, takenIn]

theorem takenIn_received (output : Option Text) (session : Session Unit) :
    takenIn (session.log (.received output)) = takenIn session ++ output.getD [] := by
  cases output with
  | none => simp [takenIn]
  | some output => simp [takenIn]

theorem takenIn_send (command : Text) (session : Session Unit) : takenIn (session.send command) = takenIn session := by
  unfold send
  split
  · simp [takenIn]
  · rfl

theorem takenIn_processResponse (buffer : Text) (session : Session Unit) :
    takenIn (session.processResponse .silent buffer) = takenIn session := by
  unfold processResponse
  split
  · exact takenIn_send _ _
  · simp [takenIn]
  · exact takenIn_send _ _
  · simp [takenIn]
  · simp [takenIn]
  · simp [takenIn]
  · rfl
  · rfl
  · exact takenIn_send _ (session.update fun reader => { reader with resultsComing := true, response := [] })
  · rfl

theorem takenIn_readStep (more : Bool) (read : Bytes) {session : Session Unit}
    (isOpen : session.reader.isOpen = true) :
    takenIn (session.readStep .silent more (Read.ofBytes asciiDecode read)) =
      appendRead asciiDecode (takenIn session) read := by
  rw [appendRead_eq, decodeRead, ← takenIn_received, Read.ofBytes]
  -- a read that cannot be decoded appends nothing; only the end of the event looks at the response
  cases processedMessageString asciiDecode read with
  | none =>
    cases more with
    | true => simp [readStep, isOpen]
    | false =>
      rw [readStep, if_pos isOpen]
      exact takenIn_processResponse _ _
  | some output =>
    let received := (session.log (.received (some output))).setResponse (session.reader.response ++ output)
    cases results : session.reader.resultsComing with
    | false =>
      rw [readStep_control _ _ isOpen results]
      exact takenIn_processResponse _ received
    | true =>
      have delivered := deliver_silent received results rfl
      have taken : takenIn (received.deliver .silent) = takenIn received := by
        rw [delivered]
        exact takenIn_of_called rfl
      have step : session.readStep .silent more (.bytes (some output)) =
          (received.deliver .silent).afterRead .silent more := by
        rw [readStep, if_pos isOpen]
        exact if_pos results
      rw [step, afterRead]
      split
      · exact taken
      · rw [takenIn_processResponse]
        exact taken

/-- A listening session that is still open has taken in what its reads decode to. -/
theorem takenIn_receive (events : List (List Bytes)) (session : Session Unit)
    (stillOpen : (session.receive .silent (events.map (·.map (Read.ofBytes asciiDecode)))).reader.isOpen = true) :
    takenIn (session.receive .silent (events.map (·.map (Read.ofBytes asciiDecode)))) =
      takenIn session ++ decodeReads asciiDecode events.flatten := by
  rw [decodeReads_eq, ← foldl_appendRead, ← markedEvents_map_fst events]
  rw [receive_eq_readSteps, markedEvents_map] at stillOpen ⊢
  generalize markedEvents events = reads at stillOpen ⊢
  induction reads generalizing session with
  | nil => rfl
  | cons head reads inductionHypothesis =>
    obtain ⟨read, more⟩ := head
    have isOpen : session.reader.isOpen = true := by
      by_contra notOpen
      have closed : session.reader.isOpen = false := by simpa using notOpen
      rw [readSteps_closed _ _ closed, closed] at stillOpen
      exact Bool.false_ne_true stillOpen
    have later := inductionHypothesis (session.readStep .silent more (Read.ofBytes asciiDecode read)) stillOpen
    rw [takenIn_readStep more read isOpen] at later
    exact later

end EasyNews.Verified.ReadBoundaries
