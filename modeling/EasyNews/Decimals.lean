import EasyNews.Foundation

/-! # Numbers written in decimal

`numeral` is what a server or a poster that pads its numbers writes, and `intOfText` reads it back as
long as the number fits.
-/

namespace EasyNews

def numeral (zeros value : Nat) : Text := List.replicate zeros '0' ++ Nat.toDigits 10 value

theorem isDigit_padded (zeros value : Nat) : ∀ digit ∈ numeral zeros value, digit.isDigit = true := by
  intro digit member
  cases List.mem_append.mp member with
  | inl zero =>
    rw [List.eq_of_mem_replicate zero]
    decide
  | inr inValue => exact Nat.isDigit_of_mem_toDigits (by decide) (by decide) inValue

theorem numeral_ne_nil (zeros value : Nat) : numeral zeros value ≠ [] :=
  List.append_ne_nil_of_right_ne_nil _ Nat.toDigits_ne_nil

theorem decimalOfText_padded (zeros value : Nat) : decimalOfText (numeral zeros value) = some value := by
  have allDigits : (numeral zeros value).all Char.isDigit = true :=
    List.all_eq_true.mpr (isDigit_padded zeros value)
  rw [decimalOfText, if_pos ⟨numeral_ne_nil zeros value, allDigits⟩, ← Nat.ofDigitChars_eq_foldl, numeral]
  rw [Nat.ofDigitChars_append, Nat.ofDigitChars_replicate_zero, Nat.mul_zero, Nat.ofDigitChars_ten_toDigits]

theorem intOfText_digits {digits : Text} (areDigits : ∀ digit ∈ digits, digit.isDigit = true) {value : Nat}
    (isValue : decimalOfText digits = some value) (fits : (value : Int) ≤ Int64.maxValue.toInt) :
    intOfText digits = some (value : Int) := by
  have low : Int64.minValue.toInt ≤ (value : Int) := by
    have negative : Int64.minValue.toInt ≤ 0 := by decide
    omega
  unfold intOfText
  split
  · exact absurd (areDigits '-' List.mem_cons_self) (by decide)
  · exact absurd (areDigits '+' List.mem_cons_self) (by decide)
  · rw [isValue]
    exact if_pos ⟨low, fits⟩

theorem intOfText_numeral (zeros value : Nat) (fits : (value : Int) ≤ Int64.maxValue.toInt) :
    intOfText (numeral zeros value) = some (value : Int) :=
  intOfText_digits (isDigit_padded zeros value) (decimalOfText_padded zeros value) fits

end EasyNews
