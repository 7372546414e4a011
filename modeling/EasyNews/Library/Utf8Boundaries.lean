import Mathlib.Data.List.Basic

/-! # Where the characters of a UTF-8 text begin

The encoding of a character is a first byte and continuation bytes, so the first bytes of a text
count its characters, and a cut that stands in front of a first byte cuts the text.

* `encode_cut` — a cut of the bytes in front of a first byte is a cut of the characters.
* `encode_cuts` — the same for any number of cuts.
* `exists_of_mem_encode` — a byte of ASCII stands for its character only.
-/

namespace Utf8Boundaries

def encode (text : List Char) : List UInt8 := text.flatMap String.utf8EncodeChar

@[simp] theorem encode_nil : encode [] = [] := rfl

@[simp] theorem encode_cons (char : Char) (text : List Char) :
    encode (char :: text) = String.utf8EncodeChar char ++ encode text := rfl

/-- The bytes are none, or begin a character. -/
def Leads (bytes : List UInt8) : Prop := ∀ byte ∈ bytes.head?, byte.IsUTF8FirstByte

theorem leads_nil : Leads [] := by simp [Leads]

@[simp] theorem leads_cons {byte : UInt8} {bytes : List UInt8} :
    Leads (byte :: bytes) ↔ byte.IsUTF8FirstByte := by
  simp [Leads]

instance : DecidablePred Leads
  | [] => isTrue leads_nil
  | _ :: _ => decidable_of_iff _ leads_cons.symm

theorem leads_flatten {reads : List (List UInt8)} (leads : ∀ read ∈ reads, Leads read) :
    Leads reads.flatten := by
  induction reads with
  | nil => exact leads_nil
  | cons read reads inductionHypothesis =>
    cases read with
    | nil => exact inductionHypothesis fun other inside => leads other (List.mem_cons_of_mem _ inside)
    | cons byte bytes => exact leads_cons.mpr (leads_cons.mp (leads _ List.mem_cons_self))

/-! ## The first byte of a character and those behind it -/

theorem encodeChar_cases (char : Char) :
    ∃ lead behind, String.utf8EncodeChar char = lead :: behind ∧ lead.IsUTF8FirstByte ∧
      ∀ byte ∈ behind, ¬ byte.IsUTF8FirstByte := by
  cases bytes : String.utf8EncodeChar char with
  | nil =>
    have size := congrArg List.length bytes
    rw [String.length_utf8EncodeChar] at size
    exact absurd size (Nat.ne_of_gt char.utf8Size_pos)
  | cons lead behind =>
    have first : ∀ (place : Nat) (within : place < (String.utf8EncodeChar char).length),
        (String.utf8EncodeChar char)[place].IsUTF8FirstByte ↔ place = 0 :=
      fun place within => UInt8.isUTF8FirstByte_getElem_utf8EncodeChar
    simp only [bytes] at first
    refine ⟨lead, behind, rfl, (first 0 (Nat.succ_pos _)).mpr rfl, fun byte inside isFirst => ?_⟩
    obtain ⟨place, within, rfl⟩ := List.mem_iff_getElem.mp inside
    exact absurd ((first (place + 1) (Nat.succ_lt_succ within)).mp isFirst) (Nat.succ_ne_zero place)

theorem leads_encode (text : List Char) : Leads (encode text) := by
  cases text with
  | nil => exact leads_nil
  | cons char text =>
    obtain ⟨lead, behind, bytes, isFirst, _⟩ := encodeChar_cases char
    rw [encode_cons, bytes]
    exact leads_cons.mpr isFirst

theorem countP_encode (text : List Char) :
    (encode text).countP (fun byte => decide byte.IsUTF8FirstByte) = text.length := by
  induction text with
  | nil => rfl
  | cons char text inductionHypothesis =>
    obtain ⟨lead, behind, bytes, isFirst, noneBehind⟩ := encodeChar_cases char
    have behindCount : behind.countP (fun byte => decide byte.IsUTF8FirstByte) = 0 :=
      List.countP_eq_zero.mpr fun byte inside => by simpa using noneBehind byte inside
    rw [encode_cons, bytes, List.cons_append, List.countP_cons_of_pos (by simpa using isFirst),
      List.countP_append, behindCount, inductionHypothesis, List.length_cons, Nat.zero_add]

theorem toNat_of_mem_encodeChar {char : Char} {byte : UInt8} (ascii : byte.toNat < 128)
    (member : byte ∈ String.utf8EncodeChar char) : char.toNat = byte.toNat := by
  have wraps : ∀ value : Nat, (UInt8.ofNat value).toNat = value % 256 := fun value => UInt8.toNat_ofNat'
  simp only [String.utf8EncodeChar] at member
  split at member
  · rename_i small
    have same := congrArg UInt8.toNat (List.mem_singleton.mp member)
    rw [wraps] at same
    exact (same.trans (Nat.mod_eq_of_lt (Nat.lt_of_le_of_lt small (by decide)))).symm
  · exfalso
    split at member
    · simp only [List.mem_cons, List.not_mem_nil, or_false] at member
      rcases member with rfl | rfl <;> rw [wraps] at ascii <;> omega
    · split at member
      · simp only [List.mem_cons, List.not_mem_nil, or_false] at member
        rcases member with rfl | rfl | rfl <;> rw [wraps] at ascii <;> omega
      · simp only [List.mem_cons, List.not_mem_nil, or_false] at member
        rcases member with rfl | rfl | rfl | rfl <;> rw [wraps] at ascii <;> omega

theorem exists_of_mem_encode {text : List Char} {byte : UInt8} (ascii : byte.toNat < 128) (member : byte ∈ encode text) :
    ∃ char ∈ text, char.toNat = byte.toNat := by
  obtain ⟨char, inside, isByte⟩ := List.mem_flatMap.mp member
  exact ⟨char, inside, toNat_of_mem_encodeChar ascii isByte⟩

/-! ## Cuts in front of a first byte -/

theorem encodeChar_cut {char : Char} {front back : List UInt8}
    (cut : String.utf8EncodeChar char = front ++ back) (leads : Leads back) : front = [] ∨ back = [] := by
  obtain ⟨lead, behind, bytes, _, noneBehind⟩ := encodeChar_cases char
  cases front with
  | nil => exact Or.inl rfl
  | cons byte front =>
    cases back with
    | nil => exact Or.inr rfl
    | cons next back =>
      have tails : behind = front ++ next :: back := (List.cons.inj (bytes.symm.trans cut)).2
      have inBehind : next ∈ behind := by simp [tails]
      exact absurd (leads_cons.mp leads) (noneBehind next inBehind)

theorem encode_cut {front back : List UInt8} {text : List Char} (whole : front ++ back = encode text)
    (leads : Leads back) :
    ∃ before after, text = before ++ after ∧ front = encode before ∧ back = encode after := by
  induction text generalizing front with
  | nil =>
    obtain ⟨rfl, rfl⟩ := List.append_eq_nil_iff.mp whole
    exact ⟨[], [], rfl, rfl, rfl⟩
  | cons char text inductionHypothesis =>
    rw [encode_cons] at whole
    obtain ⟨more, rfl, rest⟩ | ⟨more, charBytes, rfl⟩ := List.append_eq_append_iff.mp whole.symm
    · obtain ⟨before, after, rfl, rfl, rfl⟩ := inductionHypothesis rest.symm
      exact ⟨char :: before, after, rfl, rfl, rfl⟩
    · have leadsMore : Leads more := by
        cases more with
        | nil => exact leads_nil
        | cons byte more => exact leads_cons.mpr (leads_cons.mp leads)
      obtain rfl | rfl := encodeChar_cut charBytes leadsMore
      · exact ⟨[], char :: text, rfl, rfl, by rw [encode_cons, charBytes, List.nil_append]⟩
      · exact ⟨[char], text, rfl, by rw [encode_cons, charBytes]; simp, rfl⟩

theorem encode_cuts {reads : List (List UInt8)} {text : List Char} (whole : reads.flatten = encode text)
    (leads : ∀ read ∈ reads, Leads read) :
    ∃ texts : List (List Char), reads = texts.map encode ∧ texts.flatten = text := by
  induction reads generalizing text with
  | nil =>
    refine ⟨[], rfl, ?_⟩
    have noBytes := congrArg (List.countP fun byte => decide byte.IsUTF8FirstByte) whole
    rw [countP_encode] at noBytes
    exact (List.eq_nil_of_length_eq_zero noBytes.symm).symm
  | cons read reads inductionHypothesis =>
    have leadsRest : ∀ other ∈ reads, Leads other := fun other inside =>
      leads other (List.mem_cons_of_mem _ inside)
    obtain ⟨before, after, rfl, rfl, rest⟩ := encode_cut whole (leads_flatten leadsRest)
    obtain ⟨texts, rfl, rfl⟩ := inductionHypothesis rest leadsRest
    exact ⟨before :: texts, rfl, rfl⟩

end Utf8Boundaries
