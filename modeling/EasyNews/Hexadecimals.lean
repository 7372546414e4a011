import Mathlib.Algebra.Order.Ring.Nat
import Mathlib.Data.Bool.AllAny
import EasyNews.Foundation

/-! # Numbers written in hexadecimal

`to_s(16)` writes the digits in lower case and without zeros in front, so a text of eight digits is the same
number but not always the same text.
-/

namespace EasyNews

def hexDigits : Text := "0123456789abcdef".toList

theorem mem_hexDigits (value : Nat) : ∀ digit ∈ Nat.toDigits 16 value, digit ∈ hexDigits := by
  have lowest : ∀ value < 16, value.digitChar ∈ hexDigits := by decide
  induction value using Nat.strongRecOn with
  | ind value inductionHypothesis =>
    rw [Nat.toDigits_eq_if (by decide)]
    split
    · rename_i small
      intro digit member
      exact List.mem_singleton.mp member ▸ lowest value small
    · intro digit member
      rcases List.mem_append.mp member with higher | last
      · exact inductionHypothesis (value / 16) (by omega) digit higher
      · exact List.mem_singleton.mp last ▸ lowest (value % 16) (Nat.mod_lt _ (by decide))

/-- The number that digits in lower case stand for. -/
def hexValue (digits : Text) : Nat := digits.foldl (fun value digit => 16 * value + hexDigits.idxOf digit) 0

theorem hexValue_toDigits (value : Nat) : hexValue (Nat.toDigits 16 value) = value := by
  have lowest : ∀ value < 16, hexDigits.idxOf value.digitChar = value := by decide
  induction value using Nat.strongRecOn with
  | ind value inductionHypothesis =>
    rw [Nat.toDigits_eq_if (by decide)]
    split
    · rename_i small
      simp [hexValue, lowest value small]
    · have higher := inductionHypothesis (value / 16) (by omega)
      have last := lowest (value % 16) (Nat.mod_lt _ (by decide))
      rw [hexValue, List.foldl_append, ← hexValue, higher]
      simp only [List.foldl_cons, List.foldl_nil, last]
      omega

theorem padded_digits (zeros value : Nat) :
    ∀ digit ∈ List.replicate zeros '0' ++ Nat.toDigits 16 value, digit ∈ hexDigits := by
  intro digit member
  rcases List.mem_append.mp member with zero | digit
  · rw [List.eq_of_mem_replicate zero]
    decide
  · exact mem_hexDigits _ _ digit

theorem hexValue_padded (zeros value : Nat) :
    hexValue (List.replicate zeros '0' ++ Nat.toDigits 16 value) = value := by
  induction zeros with
  | zero => exact hexValue_toDigits value
  | succ zeros inductionHypothesis => exact inductionHypothesis

theorem eq_of_toDigits_eq_padded {zeros value other : Nat}
    (same : Nat.toDigits 16 value = List.replicate zeros '0' ++ Nat.toDigits 16 other) : value = other := by
  rw [← hexValue_toDigits value, same, hexValue_padded]

theorem length_toDigits_eq {value : Nat} (small : value < 16 ^ 8) :
    (Nat.toDigits 16 value).length = 8 ↔ 16 ^ 7 ≤ value := by
  have atMost := @Nat.length_toDigits_le_iff 16 value 8 (by decide) (by decide)
  have less := @Nat.length_toDigits_le_iff 16 value 7 (by decide) (by decide)
  omega

theorem map_toLower {digits : Text} (areDigits : ∀ digit ∈ digits, digit ∈ hexDigits) :
    digits.map Char.toLower = digits := by
  have each : ∀ digit ∈ hexDigits, digit.toLower = digit :=
    List.all_iff_forall_prop.mp (by decide)
  rw [← List.map_id digits, List.map_map]
  exact List.map_congr_left fun digit member => each digit (areDigits digit member)

theorem map_toLower_map_toUpper {digits : Text} (areDigits : ∀ digit ∈ digits, digit ∈ hexDigits) :
    (digits.map Char.toUpper).map Char.toLower = digits := by
  have each : ∀ digit ∈ hexDigits, digit.toUpper.toLower = digit :=
    List.all_iff_forall_prop.mp (by decide)
  rw [List.map_map, ← List.map_id digits, List.map_map]
  exact List.map_congr_left fun digit member => each digit (areDigits digit member)

end EasyNews
