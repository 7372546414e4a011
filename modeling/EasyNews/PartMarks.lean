import EasyNews.StringExtension

/-! # Part marks

The table files a subject by its marks `(n/m)`; `fileNumber` and `nudeSubject` look for marks `[a/b]` too.
-/

namespace EasyNews

/-! ## Part numbers -/

/-- The `n` of a mark `(n/m)`. -/
def numberOfMark (mark : Text) : Option Int := intOfText ((mark.drop 1).takeWhile (· ≠ '/'))

/-- The number of a subject with one mark `(n/m)`. -/
def partNumber (subject : Text) : Option Int :=
  match regexMatches partMark subject with
  | [mark] => numberOfMark mark
  | _ => none

/-- The second alternative of the pattern of `fileNumber`. -/
def squareMark : Text → Option Text := matchIndex '[' ']'

/-! ## Matches -/

theorem regexMatches_mem {pattern : Text → Option Text} {text mark : Text} {taken : Nat}
    (member : mark ∈ regexMatches pattern text taken) : ∃ back, back <:+ text ∧ pattern back = some mark := by
  induction text generalizing taken with
  | nil => cases taken <;> cases member
  | cons symbol rest inductionHypothesis =>
    have later : ∀ {taken}, mark ∈ regexMatches pattern rest taken →
        ∃ back, back <:+ symbol :: rest ∧ pattern back = some mark := by
      intro taken inRest
      obtain ⟨back, inside, found⟩ := inductionHypothesis inRest
      exact ⟨back, inside.trans (List.suffix_cons _ _), found⟩
    cases taken with
    | succ taken => exact later member
    | zero =>
      rw [regexMatches] at member
      cases here : pattern (symbol :: rest) with
      | some matched =>
        rw [here] at member
        cases List.mem_cons.mp member with
        | inl same => exact ⟨_, List.suffix_refl _, same ▸ here⟩
        | inr inRest => exact later inRest
      | none =>
        rw [here] at member
        exact later member

theorem matchDigits_eq_some {next : Char} {text digits rest : Text}
    (found : matchDigits next text = some (digits, rest)) :
    text = digits ++ next :: rest ∧ digits ≠ [] ∧ ∀ digit ∈ digits, isDecimalDigit digit = true := by
  unfold matchDigits at found
  cases taken : text.takeWhile isDecimalDigit with
  | nil =>
    rw [taken] at found
    cases found
  | cons digit more =>
    cases behind : text.dropWhile isDecimalDigit with
    | nil =>
      rw [taken, behind] at found
      cases found
    | cons symbol rest =>
      rw [taken, behind] at found
      dsimp only at found
      split at found
      · rename_i isNext
        cases found
        rw [← isNext, ← behind, ← taken]
        exact ⟨List.takeWhile_append_dropWhile.symm, by simp [taken], fun digit member => List.mem_takeWhile_imp member⟩
      · cases found

theorem matchIndex_eq_some {opening closing : Char} {text mark : Text}
    (found : matchIndex opening closing text = some mark) :
    ∃ number count back, text = mark ++ back ∧ mark = opening :: number ++ '/' :: count ++ [closing] ∧
      number ≠ [] ∧ count ≠ [] ∧ ∀ digit ∈ number ++ count, isDecimalDigit digit = true := by
  cases text with
  | nil => cases found
  | cons symbol text =>
    rw [matchIndex] at found
    split at found
    · rename_i isOpening
      simp only [Option.bind_eq_bind, Option.bind_eq_some_iff] at found
      obtain ⟨⟨number, afterNumber⟩, isNumber, ⟨count, afterCount⟩, isCount, same⟩ := found
      cases same
      obtain ⟨numberFirst, numberNonempty, numberDigits⟩ := matchDigits_eq_some isNumber
      obtain ⟨countFirst, countNonempty, countDigits⟩ := matchDigits_eq_some isCount
      dsimp only at countFirst
      refine ⟨number, count, afterCount, ?_, rfl, numberNonempty, countNonempty, fun digit member => ?_⟩
      · rw [isOpening, numberFirst, countFirst]
        simp
      · cases List.mem_append.mp member with
        | inl inNumber => exact numberDigits digit inNumber
        | inr inCount => exact countDigits digit inCount
    · cases found

/-! ## Marks inside a text -/

theorem regexMatches_taken (pattern : Text → Option Text) (text : Text) (taken : Nat) :
    regexMatches pattern text taken = regexMatches pattern (text.drop taken) := by
  induction text generalizing taken with
  | nil => cases taken <;> rfl
  | cons symbol rest inductionHypothesis =>
    cases taken with
    | zero => rfl
    | succ taken => exact inductionHypothesis taken

theorem regexMatches_append {pattern : Text → Option Text} {front : Text}
    (silent : ∀ symbol ∈ front, ∀ rest, pattern (symbol :: rest) = none) (back : Text) :
    regexMatches pattern (front ++ back) = regexMatches pattern back := by
  induction front with
  | nil => rfl
  | cons symbol rest inductionHypothesis =>
    rw [List.cons_append, regexMatches, silent symbol List.mem_cons_self]
    exact inductionHypothesis fun other member => silent other (List.mem_cons_of_mem _ member)

theorem regexMatches_mark {pattern : Text → Option Text} {mark : Text} (nonempty : mark ≠ []) {back : Text}
    (isMatch : pattern (mark ++ back) = some mark) :
    regexMatches pattern (mark ++ back) = mark :: regexMatches pattern back := by
  cases mark with
  | nil => exact absurd rfl nonempty
  | cons symbol rest =>
    rw [List.cons_append] at isMatch ⊢
    rw [regexMatches, isMatch]
    dsimp only
    rw [regexMatches_taken, List.length_cons, Nat.add_sub_cancel, List.drop_left]

theorem matchIndex_of_ne {opening closing symbol : Char} (different : symbol ≠ opening) (rest : Text) :
    matchIndex opening closing (symbol :: rest) = none := if_neg different

theorem matchDigits_digits {next : Char} (notDigit : isDecimalDigit next = false) {digits : Text}
    (nonempty : digits ≠ []) (areDigits : ∀ digit ∈ digits, isDecimalDigit digit = true) (rest : Text) :
    matchDigits next (digits ++ next :: rest) = some (digits, rest) := by
  have taken : (digits ++ next :: rest).takeWhile isDecimalDigit = digits := by
    rw [List.takeWhile_append_of_pos areDigits, List.takeWhile_cons_of_neg (by simp [notDigit]), List.append_nil]
  have behind : (digits ++ next :: rest).dropWhile isDecimalDigit = next :: rest := by
    rw [List.dropWhile_append_of_pos areDigits, List.dropWhile_cons_of_neg (by simp [notDigit])]
  rw [matchDigits, taken, behind]
  cases digits with
  | nil => exact absurd rfl nonempty
  | cons digit more => exact if_pos rfl

/-- `(n/m)` and `[n/m]`, `number` and `count` being digits. -/
def indexMark (opening closing : Char) (number count : Text) : Text :=
  opening :: number ++ '/' :: count ++ [closing]

theorem matchIndex_indexMark {opening closing : Char} (notDigit : isDecimalDigit closing = false)
    {number count : Text} (numberNonempty : number ≠ []) (countNonempty : count ≠ [])
    (numberDigits : ∀ digit ∈ number, isDecimalDigit digit = true)
    (countDigits : ∀ digit ∈ count, isDecimalDigit digit = true) (back : Text) :
    matchIndex opening closing (indexMark opening closing number count ++ back) =
      some (indexMark opening closing number count) := by
  have text : indexMark opening closing number count ++ back =
      opening :: (number ++ '/' :: (count ++ closing :: back)) := by
    simp [indexMark]
  rw [text, matchIndex, if_pos rfl, matchDigits_digits (by decide) numberNonempty numberDigits]
  dsimp only [Option.bind_eq_bind, Option.bind_some]
  rw [matchDigits_digits notDigit countNonempty countDigits]
  rfl

theorem matchIndex_silent {opening closing other : Char} {text mark : Text}
    (found : matchIndex opening closing text = some mark) (notDigit : isDecimalDigit other = false)
    (notSymbol : other ∉ [opening, '/', closing]) (otherClosing : Char) :
    ∀ symbol ∈ mark, ∀ rest, matchIndex other otherClosing (symbol :: rest) = none := by
  obtain ⟨number, count, -, -, shape, -, -, areDigits⟩ := matchIndex_eq_some found
  intro symbol member rest
  apply matchIndex_of_ne
  rintro rfl
  have inside : symbol ∈ [opening, '/', closing] ∨ symbol ∈ number ++ count := by
    simp only [shape, List.mem_append, List.mem_cons, List.not_mem_nil, or_false] at member ⊢
    tauto
  cases inside with
  | inl isSymbol => exact notSymbol isSymbol
  | inr isDigit =>
    rw [areDigits symbol isDigit] at notDigit
    cases notDigit

theorem matchIndex_ne_nil {opening closing : Char} {text mark : Text}
    (found : matchIndex opening closing text = some mark) : mark ≠ [] := by
  obtain ⟨number, count, -, -, shape, -⟩ := matchIndex_eq_some found
  rw [shape]
  simp

theorem regexMatches_of_found {pattern : Text → Option Text} {opening closing : Char} {text mark : Text}
    (found : matchIndex opening closing text = some mark) (same : pattern text = some mark) :
    ∃ back, text = mark ++ back ∧ back.length < text.length ∧
      regexMatches pattern text = mark :: regexMatches pattern back := by
  obtain ⟨-, -, back, isText, -⟩ := matchIndex_eq_some found
  have nonempty := matchIndex_ne_nil found
  have shorter : back.length < text.length := by
    have positive := List.length_pos_iff.mpr nonempty
    rw [isText, List.length_append]
    omega
  subst isText
  exact ⟨back, rfl, shorter, regexMatches_mark nonempty same⟩

/-- The expression with both alternatives finds the marks of both kinds, and nothing else. -/
theorem fileMark_matches (text : Text) :
    (regexMatches fileMark text).Perm (regexMatches partMark text ++ regexMatches squareMark text) := by
  induction isLength : text.length using Nat.strong_induction_on generalizing text with
  | _ length inductionHypothesis =>
    cases isPart : partMark text with
    | some mark =>
      have isFile : fileMark text = some mark := by
        show (partMark text <|> squareMark text) = some mark
        rw [isPart]
        rfl
      obtain ⟨back, isText, shorter, inFile⟩ := regexMatches_of_found isPart isFile
      have inPart := regexMatches_mark (matchIndex_ne_nil isPart) (isText ▸ isPart)
      have inSquare : regexMatches squareMark (mark ++ back) = regexMatches squareMark back :=
        regexMatches_append (matchIndex_silent isPart (by decide) (by decide) ']') back
      rw [inFile, isText, inPart, inSquare, List.cons_append]
      exact (inductionHypothesis _ (isLength ▸ shorter) back rfl).cons mark
    | none =>
      cases isSquare : squareMark text with
      | some mark =>
        have isFile : fileMark text = some mark := by
          show (partMark text <|> squareMark text) = some mark
          rw [isPart, isSquare]
          rfl
        obtain ⟨back, isText, shorter, inFile⟩ := regexMatches_of_found isSquare isFile
        have inSquare := regexMatches_mark (matchIndex_ne_nil isSquare) (isText ▸ isSquare)
        have inPart : regexMatches partMark (mark ++ back) = regexMatches partMark back :=
          regexMatches_append (matchIndex_silent isSquare (by decide) (by decide) ')') back
        rw [inFile, isText, inPart, inSquare]
        exact ((inductionHypothesis _ (isLength ▸ shorter) back rfl).cons mark).trans List.perm_middle.symm
      | none =>
        -- no mark starts here, so all three scans pass on
        cases text with
        | nil => exact List.Perm.refl _
        | cons symbol rest =>
          have isFile : fileMark (symbol :: rest) = none := by
            show (partMark (symbol :: rest) <|> squareMark (symbol :: rest)) = none
            rw [isPart, isSquare]
            rfl
          rw [regexMatches, regexMatches, regexMatches, isPart, isSquare, isFile]
          exact inductionHypothesis rest.length (isLength ▸ Nat.lt_succ_self _) rest rfl

/-! ## The number of a mark -/

theorem joins_of_isDecimalDigit {digit : Char} (isDigit : isDecimalDigit digit = true) : joins digit = false := by
  have apart : (decimalZeros.all fun first => joiningRanges.all fun range =>
      first + 10 ≤ range.1 || range.2 < first) = true := by decide +kernel
  obtain ⟨first, isZero, fromFirst⟩ := List.any_eq_true.mp isDigit
  have outside : inRanges joiningRanges digit = false := by
    rw [inRanges, List.any_eq_false]
    intro range isRange
    have different := List.all_eq_true.mp (List.all_eq_true.mp apart first isZero) range isRange
    simp only [Bool.or_eq_true, Bool.and_eq_true, decide_eq_true_eq] at different fromFirst ⊢
    omega
  rw [joins, outside, Bool.and_false]

theorem removingOccurrences_singleton (symbol : Char) {text : Text} (unjoined : ∀ char ∈ text, joins char = false) :
    removingOccurrences [symbol] text = text.filter (· ≠ symbol) := by
  induction text with
  | nil => rfl
  | cons head rest inductionHypothesis =>
    have later := inductionHypothesis fun char member => unjoined char (List.mem_cons_of_mem _ member)
    have notJoined : joined rest = false := by
      cases rest with
      | nil => rfl
      | cons next rest => exact unjoined next (by simp)
    rw [removingOccurrences]
    by_cases same : head = symbol
    · simp [same, starts, notJoined, later]
    · have differs : (symbol == head) = false := by simpa using Ne.symm same
      simp [same, starts, differs, List.isPrefixOf, later]

theorem notMem_digits {digits : Text} (areDigits : ∀ digit ∈ digits, isDecimalDigit digit = true) {symbol : Char}
    (notDigit : isDecimalDigit symbol = false) : symbol ∉ digits := by
  intro member
  rw [areDigits symbol member] at notDigit
  cases notDigit

theorem filter_digits {digits : Text} (areDigits : ∀ digit ∈ digits, isDecimalDigit digit = true)
    {symbol : Char} (notDigit : isDecimalDigit symbol = false) : digits.filter (· ≠ symbol) = digits := by
  rw [List.filter_eq_self]
  intro digit member
  rw [decide_eq_true_iff]
  rintro rfl
  exact notMem_digits areDigits notDigit member

theorem removingOccurrences_mark {number count : Text} (numberDigits : ∀ digit ∈ number, isDecimalDigit digit = true)
    (countDigits : ∀ digit ∈ count, isDecimalDigit digit = true) :
    removingOccurrences ")".toList (removingOccurrences "(".toList ('(' :: number ++ '/' :: count ++ [')'])) =
      number ++ '/' :: count := by
  have noOpening : ('(' :: number ++ '/' :: count ++ [')']).filter (· ≠ '(') = number ++ '/' :: count ++ [')'] := by
    rw [List.cons_append, List.cons_append, List.filter_cons_of_neg (by decide)]
    rw [List.filter_append, List.filter_append, List.filter_cons_of_pos (by decide)]
    rw [filter_digits numberDigits (by decide), filter_digits countDigits (by decide)]
    rfl
  have noClosing : (number ++ '/' :: count ++ [')']).filter (· ≠ ')') = number ++ '/' :: count := by
    rw [List.filter_append, List.filter_append, List.filter_cons_of_pos (by decide)]
    rw [filter_digits numberDigits (by decide), filter_digits countDigits (by decide)]
    exact List.append_nil _
  have unjoined : ∀ char ∈ '(' :: number ++ '/' :: count ++ [')'], joins char = false := by
    intro char member
    simp only [List.mem_append, List.mem_cons, List.not_mem_nil, or_false] at member
    obtain ((rfl | inNumber) | rfl | inCount) | rfl := member
    · decide
    · exact joins_of_isDecimalDigit (numberDigits char inNumber)
    · decide
    · exact joins_of_isDecimalDigit (countDigits char inCount)
    · decide
  have unjoinedLater : ∀ char ∈ number ++ '/' :: count ++ [')'], joins char = false := fun char member =>
    unjoined char (List.mem_cons_of_mem _ member)
  rw [show ")".toList = [')'] from rfl, show "(".toList = ['('] from rfl]
  rw [removingOccurrences_singleton '(' unjoined, noOpening, removingOccurrences_singleton ')' unjoinedLater, noClosing]

theorem splitOn_slash {number count : Text} (numberDigits : ∀ digit ∈ number, isDecimalDigit digit = true)
    (countDigits : ∀ digit ∈ count, isDecimalDigit digit = true) :
    (number ++ '/' :: count).splitOn '/' = [number, count] := by
  rw [List.splitOn_append_cons_self, List.splitOn_eq_singleton (notMem_digits numberDigits (by decide))]
  rw [List.splitOn_eq_singleton (notMem_digits countDigits (by decide))]
  rfl

end EasyNews
