import Mathlib.Data.Bool.AllAny
import EasyNews.Decimals
import EasyNews.PartMarks

/-! # File numbers

The regular expression of `fileNumber` finds `(n/m)` and `[n/m]` alike, but only the round brackets
are taken off before the number is read. So the square mark always gives 0.
-/

namespace EasyNews.Verified.FileNumbers

/-! ## One mark in a subject -/

theorem isDecimalDigit_numeral (zeros value : Nat) : ∀ digit ∈ numeral zeros value, isDecimalDigit digit = true := by
  intro digit member
  have ascii := isDigit_padded zeros value digit member
  simp only [Char.isDigit, Bool.and_eq_true, decide_eq_true_eq] at ascii
  have low : 0x30 ≤ digit.toNat := ascii.1
  have high : digit.toNat ≤ 0x39 := ascii.2
  rw [isDecimalDigit, List.any_eq_true]
  exact ⟨0x30, by decide, by simp; omega⟩

variable {front back : Text}

theorem fileMark_matches_indexMark {opening closing : Char} (isPair : (opening, closing) ∈ [('(', ')'), ('[', ']')])
    (plain : ∀ symbol ∈ front ++ back, symbol ∉ "()[]".toList) (zeros value zeros' total : Nat) :
    regexMatches fileMark
        (front ++ (indexMark opening closing (numeral zeros value) (numeral zeros' total) ++ back)) =
      [indexMark opening closing (numeral zeros value) (numeral zeros' total)] := by
  have silent : ∀ text : Text, (∀ symbol ∈ text, symbol ∉ "()[]".toList) → ∀ symbol ∈ text, ∀ rest,
      fileMark (symbol :: rest) = none := by
    intro text noBracket symbol member rest
    have notBracket := noBracket symbol member
    show (matchIndex '(' ')' (symbol :: rest) <|> matchIndex '[' ']' (symbol :: rest)) = none
    have notRound : symbol ≠ '(' := by
      rintro rfl
      exact notBracket (by decide)
    have notSquare : symbol ≠ '[' := by
      rintro rfl
      exact notBracket (by decide)
    rw [matchIndex_of_ne notRound, matchIndex_of_ne notSquare]
    rfl
  have found : fileMark (indexMark opening closing (numeral zeros value) (numeral zeros' total) ++ back) =
      some (indexMark opening closing (numeral zeros value) (numeral zeros' total)) := by
    have here := fun notDigit => @matchIndex_indexMark opening closing notDigit _ _ (numeral_ne_nil zeros value)
      (numeral_ne_nil zeros' total) (isDecimalDigit_numeral zeros value) (isDecimalDigit_numeral zeros' total) back
    simp only [List.mem_cons, Prod.mk.injEq, List.not_mem_nil, or_false] at isPair
    obtain ⟨rfl, rfl⟩ | ⟨rfl, rfl⟩ := isPair
    · rw [fileMark, here (by decide)]
      rfl
    · rw [fileMark, here (by decide)]
      rfl
  rw [regexMatches_append (silent front fun symbol member => plain symbol (List.mem_append_left _ member))]
  rw [regexMatches_mark (by simp [indexMark]) found]
  have nothing := regexMatches_append
    (silent back fun symbol member => plain symbol (List.mem_append_right _ member)) []
  rw [List.append_nil] at nothing
  rw [nothing]
  rfl

theorem fileNumber_round (plain : ∀ symbol ∈ front ++ back, symbol ∉ "()[]".toList) (zeros value zeros' total : Nat)
    (inRange : (value : Int) ≤ Int64.maxValue.toInt) :
    fileNumber (front ++ (indexMark '(' ')' (numeral zeros value) (numeral zeros' total) ++ back)) = value := by
  have numberDigits := isDecimalDigit_numeral zeros value
  have countDigits := isDecimalDigit_numeral zeros' total
  have words : [numeral zeros value, numeral zeros' total].filter (· ≠ []) =
      [numeral zeros value, numeral zeros' total] := by
    simp [numeral_ne_nil]
  rw [fileNumber, fileMark_matches_indexMark (by decide) plain]
  dsimp only [indexMark]
  rw [removingOccurrences_mark numberDigits countDigits, splitOn_slash numberDigits countDigits, words]
  dsimp only
  rw [intOfText_numeral zeros value inRange]
  rfl

theorem intOfText_bracket (rest : Text) : intOfText ('[' :: rest) = none := by
  have notNumber : decimalOfText ('[' :: rest) = none := by
    simp [decimalOfText, Char.isDigit]
  rw [intOfText]
  · rw [notNumber]
    rfl
  · intro digits same
    cases same
  · intro digits same
    cases same

theorem fileNumber_square (plain : ∀ symbol ∈ front ++ back, symbol ∉ "()[]".toList) (zeros value zeros' total : Nat) :
    fileNumber (front ++ (indexMark '[' ']' (numeral zeros value) (numeral zeros' total) ++ back)) = 0 := by
  have numberDigits := isDecimalDigit_numeral zeros value
  have countDigits := isDecimalDigit_numeral zeros' total
  have kept : ∀ bracket ∈ ['(', ')'], removingOccurrences [bracket]
      (indexMark '[' ']' (numeral zeros value) (numeral zeros' total)) =
        indexMark '[' ']' (numeral zeros value) (numeral zeros' total) := by
    intro bracket isBracket
    have absent : bracket ∉ indexMark '[' ']' (numeral zeros value) (numeral zeros' total) := by
      obtain rfl | rfl : bracket = '(' ∨ bracket = ')' := by simpa using isBracket
      · simp [indexMark, notMem_digits numberDigits, notMem_digits countDigits, show isDecimalDigit '(' = false by decide]
      · simp [indexMark, notMem_digits numberDigits, notMem_digits countDigits, show isDecimalDigit ')' = false by decide]
    have unjoined : ∀ char ∈ indexMark '[' ']' (numeral zeros value) (numeral zeros' total), joins char = false := by
      intro char member
      simp only [indexMark, List.mem_append, List.mem_cons, List.not_mem_nil, or_false] at member
      obtain ((rfl | inNumber) | rfl | inCount) | rfl := member
      · decide
      · exact joins_of_isDecimalDigit (numberDigits char inNumber)
      · decide
      · exact joins_of_isDecimalDigit (countDigits char inCount)
      · decide
    rw [removingOccurrences_singleton bracket unjoined, List.filter_eq_self]
    intro symbol member
    rw [decide_eq_true_iff]
    rintro rfl
    exact absent member
  have noSlash : '/' ∉ '[' :: numeral zeros value ∧ '/' ∉ numeral zeros' total ++ [']'] := by
    have slash : isDecimalDigit '/' = false := by decide
    simp [notMem_digits numberDigits slash, notMem_digits countDigits slash]
  have parts : (indexMark '[' ']' (numeral zeros value) (numeral zeros' total)).splitOn '/' =
      ['[' :: numeral zeros value, numeral zeros' total ++ [']']] := by
    have shape : indexMark '[' ']' (numeral zeros value) (numeral zeros' total) =
        ('[' :: numeral zeros value) ++ '/' :: (numeral zeros' total ++ [']']) := by
      simp [indexMark]
    rw [shape, List.splitOn_append_cons_self, List.splitOn_eq_singleton noSlash.1,
      List.splitOn_eq_singleton noSlash.2]
    rfl
  rw [fileNumber, fileMark_matches_indexMark (by decide) plain]
  dsimp only
  rw [show "(".toList = ['('] from rfl, show ")".toList = [')'] from rfl, kept '(' (by decide), kept ')' (by decide), parts]
  simp [intOfText_bracket]

/-! ## Both styles -/

/-- The two styles of one index give the same part number, its own, exactly for part 0. -/
theorem both_styles_iff (front back : Text) (plain : ∀ symbol ∈ front ++ back, symbol ∉ "()[]".toList)
    (zeros number zeros' total : Nat) (inRange : (number : Int) ≤ Int64.maxValue.toInt) :
    (fileNumber (front ++ (indexMark '(' ')' (numeral zeros number) (numeral zeros' total) ++ back)) = number ∧
        fileNumber (front ++ (indexMark '[' ']' (numeral zeros number) (numeral zeros' total) ++ back)) = number) ↔
      number = 0 := by
  rw [fileNumber_round plain zeros number zeros' total inRange, fileNumber_square plain zeros number zeros' total]
  omega

theorem both_styles_iff_seventh :
    (fileNumber "holiday (007/12) jpg".toList = (7 : Nat) ∧ fileNumber "holiday [007/12] jpg".toList = (7 : Nat)) ↔ 7 = 0 :=
  both_styles_iff "holiday ".toList " jpg".toList (List.all_iff_forall_prop.mp (by decide)) 2 7 0 12 (by decide)

theorem square_style_reads_zero :
    ¬ ∀ (front back : Text), (∀ symbol ∈ front ++ back, symbol ∉ "()[]".toList) →
      ∀ zeros number zeros' total : Nat, (number : Int) ≤ Int64.maxValue.toInt →
      fileNumber (front ++ (indexMark '(' ')' (numeral zeros number) (numeral zeros' total) ++ back)) = number ∧
        fileNumber (front ++ (indexMark '[' ']' (numeral zeros number) (numeral zeros' total) ++ back)) = number := by
  intro claim
  have both := claim "holiday ".toList [] (List.all_iff_forall_prop.mp (by decide)) 0 2 0 7 (by decide)
  revert both
  decide

end EasyNews.Verified.FileNumbers
