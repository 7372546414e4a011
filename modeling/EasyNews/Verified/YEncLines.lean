import EasyNews.Library.EscapeCoding
import EasyNews.YEnc

/-! # The lines of a yEnc text

What encoders write is an escape coding of the bytes, moved up by 42. The decoder reads it line by line, so it
does not matter where the lines are broken, as long as no escape is cut from what it is for, nor which bytes an
encoder masks besides the ones it has to.
-/

namespace EasyNews.Verified.YEncLines

open YEnc

/-- Nulls, line ends and the escape are masked; line ends are passed over. -/
def coding : EscapeCoding UInt8 where
  escape := 61
  special char := special char.toNat
  skipped char := char = 13 ∨ char = 10
  mask char := char + 64
  unmask char := char - 64
  escape_special := by decide
  skipped_special char isSkipped := by
    rcases of_decide_eq_true isSkipped with rfl | rfl <;> decide
  escape_kept := by decide
  mask_not_special char isSpecial := by
    have isOne : char.toNat ∈ [0, 10, 13, 61] := of_decide_eq_true isSpecial
    simp only [List.mem_cons, List.not_mem_nil, or_false] at isOne
    rcases isOne with same | same | same | same <;> simp [special, UInt8.toNat_add, same]
  unmask_mask char := by simp

/-! ## One byte -/

theorem encodedByte_eq (byte : UInt8) : encodedByte byte = coding.encodeSymbol (byte + 42) := by
  have moved : (byte.toNat + 42) % 256 = (byte + 42).toNat := by simp [UInt8.toNat_add]
  simp only [encodedByte, moved, EscapeCoding.encodeSymbol, coding]
  have masked : UInt8.ofNat (((byte + 42).toNat + 64) % 256) = byte + 42 + 64 := by
    apply UInt8.toNat_inj.mp
    simp [UInt8.toNat_add]
  rw [masked, UInt8.ofNat_toNat]
  rfl

theorem flatMap_encodedByte (bytes : Bytes) : bytes.flatMap encodedByte = coding.encode (bytes.map (· + 42)) := by
  rw [EscapeCoding.encode, List.flatMap_map]
  exact congrArg (List.flatMap · bytes) (funext encodedByte_eq)

theorem putc_eq (char : Int) :
    putc (if 0 ≤ char ∧ char ≤ 41 then char + 214 else char - 42) = putc (char - 42) := by
  have same : (char + 214) % 256 = (char - 42) % 256 := by omega
  split
  · rw [putc, putc, same]
  · rfl

theorem putc_sub (char : UInt8) (less : Nat) : putc ((char.toNat : Int) - less) = char - UInt8.ofNat less := by
  apply UInt8.toNat_inj.mp
  simp only [putc, UInt8.toNat_ofNat', UInt8.toNat_sub]
  omega

theorem foldl_decodeByte (line : Bytes) (esc : Bool) (decoded : Bytes) :
    line.foldl decodeByte (esc, decoded) =
      (coding.escapedAfter esc line, decoded ++ (coding.decodeFrom esc line).map (· - 42)) := by
  induction line generalizing esc decoded with
  | nil => simp [EscapeCoding.escapedAfter, EscapeCoding.decodeFrom]
  | cons c line inductionHypothesis =>
    have isSkipped : (coding.skipped c = true) = (c = 13 ∨ c = 10) := by simp [coding]
    have isEscape : coding.escape = 61 := rfl
    simp only [List.foldl_cons, decodeByte, EscapeCoding.escapedAfter, EscapeCoding.decodeFrom, isSkipped, isEscape]
    split
    · exact inductionHypothesis esc decoded
    · split
      · exact inductionHypothesis true decoded
      · rw [inductionHypothesis, putc_eq, List.map_cons, List.append_assoc, List.singleton_append]
        cases esc with
        | false =>
          rw [if_neg Bool.false_ne_true, if_neg Bool.false_ne_true, show (42 : Int) = (42 : Nat) from rfl, putc_sub]
          rfl
        | true =>
          have both : (c.toNat : Int) - 64 - 42 = (c.toNat : Int) - (106 : Nat) := by omega
          have moved : c - UInt8.ofNat 106 = coding.unmask c - 42 := by
            apply UInt8.toNat_inj.mp
            simp [coding, UInt8.toNat_sub]
            omega
          rw [if_pos rfl, if_pos rfl, both, putc_sub, moved]

theorem decodeLine_eq (line : Bytes) : decodeLine line = (coding.decodeFrom false line).map (· - 42) := by
  rw [decodeLine, foldl_decodeByte, List.nil_append]

/-! ## Lines -/

/-- A line with its line feed, the only one. -/
def IsFileLine (line : Bytes) : Prop := ∃ body : Bytes, 10 ∉ body ∧ line = body ++ [10]

theorem eachLine_append {line : Bytes} (isLine : IsFileLine line) (rest : Bytes) :
    eachLine (line ++ rest) = line :: eachLine rest := by
  obtain ⟨body, oneLine, rfl⟩ := isLine
  rw [List.append_assoc, List.singleton_append]
  induction body with
  | nil => simp [eachLine]
  | cons byte body inductionHypothesis =>
    have notEnd : byte ≠ 10 := fun same => oneLine (same ▸ List.mem_cons_self)
    have later := inductionHypothesis fun member => oneLine (List.mem_cons_of_mem _ member)
    rw [List.cons_append, eachLine, if_neg notEnd, later]
    rfl

theorem eachLine_lines {lines : List Bytes} (areLines : ∀ line ∈ lines, IsFileLine line) (rest : Bytes) :
    eachLine (lines.flatten ++ rest) = lines ++ eachLine rest := by
  induction lines with
  | nil => rfl
  | cons line lines inductionHypothesis =>
    have later := inductionHypothesis fun other inside => areLines other (List.mem_cons_of_mem _ inside)
    rw [List.flatten_cons, List.append_assoc, eachLine_append (areLines line List.mem_cons_self), later]
    rfl

/-! ## What the encoders write -/

theorem flatten_buffers {fuel : Nat} {bytes : Bytes} (enough : bytes.length ≤ fuel) :
    (buffers fuel bytes).flatten = bytes := by
  induction fuel generalizing bytes with
  | zero =>
    obtain rfl := List.length_eq_zero_iff.mp (Nat.le_zero.mp enough)
    rfl
  | succ fuel inductionHypothesis =>
    cases bytes with
    | nil => rfl
    | cons byte rest =>
      rw [buffers, List.flatten_cons, inductionHypothesis, List.take_append_drop]
      rw [List.length_drop, List.length_cons]
      rw [List.length_cons] at enough
      omega

theorem length_of_mem_buffers {fuel : Nat} {bytes buffer : Bytes} (member : buffer ∈ buffers fuel bytes) :
    buffer.length ≤ 128 := by
  induction fuel generalizing bytes with
  | zero => cases member
  | succ fuel inductionHypothesis =>
    cases bytes with
    | nil => cases member
    | cons byte rest =>
      rcases List.mem_cons.mp member with rfl | later
      · exact List.length_take_le _ _
      · exact inductionHypothesis later

theorem mem_encodedLines {bytes line : Bytes} :
    line ∈ encodedLines bytes ↔
      ∃ buffer ∈ buffers bytes.length bytes, line = coding.encode (buffer.map (· + 42)) ++ [10] := by
  simp only [encodedLines, List.mem_map, flatMap_encodedByte, eq_comm]

theorem not_special_of_mem {symbols : Bytes} {char : UInt8} (written : char ∈ coding.encode symbols) :
    char ≠ 0 ∧ char ≠ 10 ∧ char ≠ 13 := by
  rcases coding.special_of_mem_encode written with plain | rfl
  · refine ⟨?_, ?_, ?_⟩ <;>
    · rintro rfl
      exact absurd plain (by decide)
  · decide

theorem kept_encode (symbols : Bytes) : coding.kept (coding.encode symbols) = coding.encode symbols := by
  refine List.filter_eq_self.mpr fun char written => ?_
  rw [coding.kept_of_mem_encode written, Bool.not_false]

theorem kept_line (symbols : Bytes) : coding.kept (coding.encode symbols ++ [10]) = coding.encode symbols := by
  have lineEnd : coding.kept [10] = [] := by decide
  rw [EscapeCoding.kept_append, kept_encode, lineEnd, List.append_nil]

/-! ## What the decoder reads -/

theorem map_sub_map_add (bytes : Bytes) : (bytes.map (· + 42)).map (· - 42) = bytes := by
  rw [List.map_map]
  exact List.map_id'' (fun byte => UInt8.add_sub_cancel byte 42) bytes

/-- Lines that carry a file: what they hold but line ends are its bytes, where any may be masked, no line ends in an
    escape, and none could be taken for a header or a trailer. -/
structure Carries (lines : List Bytes) (bytes : Bytes) : Prop where
  areLines : ∀ line ∈ lines, IsFileLine line
  written : coding.Writes (bytes.map (· + 42)) (coding.kept lines.flatten)
  closed : ∀ line ∈ lines, coding.escapedAfter false line = false
  noKeyword : ∀ line ∈ lines, ¬ utf8 "=y".toList <+: line

theorem Carries.decodes {lines : List Bytes} {bytes : Bytes} (carries : Carries lines bytes) :
    lines.flatMap decodeLine = bytes := by
  have each : lines.flatMap decodeLine = (lines.flatMap (coding.decodeFrom false)).map (· - 42) := by
    rw [List.map_flatMap]
    exact congrArg (List.flatMap · lines) (funext decodeLine_eq)
  rw [each, ← coding.decodeFrom_flatten carries.closed, ← (coding.decodeFrom_kept false lines.flatten).1,
    carries.written.decodeFrom.1, map_sub_map_add]

theorem noKeyword_of_kept {line symbols : Bytes} (written : coding.kept line = coding.encode symbols) :
    ¬ utf8 "=y".toList <+: line := by
  rintro ⟨rest, rfl⟩
  have begins : coding.encode symbols = coding.escape :: 121 :: coding.kept rest := by
    rw [← written, EscapeCoding.kept_append]
    rfl
  obtain ⟨symbol, isSpecial, isMasked⟩ := coding.masked_of_encode begins
  have isOne : symbol.toNat ∈ [0, 10, 13, 61] := of_decide_eq_true isSpecial
  have masked := congrArg UInt8.toNat isMasked
  simp only [List.mem_cons, List.not_mem_nil, or_false] at isOne
  rcases isOne with same | same | same | same <;> simp [coding, UInt8.toNat_add, same] at masked

/-- What the encoders write carries the file wherever it is broken, but not in an escape. -/
theorem carries_of_encode {lines : List Bytes} {bytes : Bytes} (areLines : ∀ line ∈ lines, IsFileLine line)
    (written : coding.kept lines.flatten = coding.encode (bytes.map (· + 42)))
    (closed : ∀ line ∈ lines, coding.escapedAfter false line = false) : Carries lines bytes where
  areLines := areLines
  written := written ▸ coding.writes_encode _
  closed := closed
  noKeyword line member := by
    obtain ⟨chunks, -, holds⟩ := coding.chunks_of_closed written closed
    obtain ⟨place, inside, rfl⟩ := List.mem_iff_getElem.mp member
    have isChunk := (List.forall₂_iff_get.mp holds).2 place inside (by rw [← holds.length_eq]; exact inside)
    exact noKeyword_of_kept isChunk

theorem carries_encodedLines (bytes : Bytes) : Carries (encodedLines bytes) bytes := by
  refine carries_of_encode ?_ ?_ ?_
  · intro line member
    obtain ⟨buffer, -, rfl⟩ := mem_encodedLines.mp member
    exact ⟨_, fun written => (not_special_of_mem written).2.1 rfl, rfl⟩
  · have pieces : ∀ buffers : List Bytes,
        coding.kept (buffers.map fun buffer => buffer.flatMap encodedByte ++ [10]).flatten =
          coding.encode (buffers.flatten.map (· + 42)) := by
      intro buffers
      induction buffers with
      | nil => rfl
      | cons buffer buffers inductionHypothesis =>
        rw [List.map_cons, List.flatten_cons, EscapeCoding.kept_append, List.flatten_cons, List.map_append,
          EscapeCoding.encode_append, ← inductionHypothesis, flatMap_encodedByte, kept_line]
    rw [encodedLines, pieces, flatten_buffers (Nat.le_refl _)]
  · intro line member
    obtain ⟨buffer, -, rfl⟩ := mem_encodedLines.mp member
    rw [← (coding.decodeFrom_kept false _).2, kept_line]
    exact (coding.decodeFrom_encode _).2

end EasyNews.Verified.YEncLines
