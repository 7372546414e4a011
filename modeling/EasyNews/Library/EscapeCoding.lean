import Mathlib.Data.List.Flatten
import Mathlib.Data.List.Forall2

/-! # Escape codings

Symbols that may not be written are masked and stand behind an escape. A reader passes over some of these
symbols, so they may be put anywhere between what is written: lines may be broken at will, but not
between an escape and what it is for.

* `encode`, `decodeFrom`, `escapedAfter` — writing, reading from a state, and the state behind a text.
* `Writes` — what other writers may write, who mask more than they have to.
* `decodeFrom_encode`, `Writes.decodeFrom` — round trips.
* `chunks_of_closed` — pieces that end in no escape are codings of pieces.
-/

structure EscapeCoding (α : Type*) where
  escape : α
  special : α → Bool
  skipped : α → Bool
  mask : α → α
  unmask : α → α
  escape_special : special escape = true
  skipped_special : ∀ symbol, skipped symbol = true → special symbol = true
  escape_kept : skipped escape = false
  mask_not_special : ∀ symbol, special symbol = true → special (mask symbol) = false
  unmask_mask : ∀ symbol, unmask (mask symbol) = symbol

namespace EscapeCoding

variable {α : Type*} (coding : EscapeCoding α)

def encodeSymbol (symbol : α) : List α :=
  if coding.special symbol then [coding.escape, coding.mask symbol] else [symbol]

def encode (symbols : List α) : List α := symbols.flatMap coding.encodeSymbol

@[simp] theorem encode_nil : coding.encode [] = [] := rfl

@[simp] theorem encode_cons (symbol : α) (rest : List α) :
    coding.encode (symbol :: rest) = coding.encodeSymbol symbol ++ coding.encode rest := rfl

@[simp] theorem encode_append (front back : List α) :
    coding.encode (front ++ back) = coding.encode front ++ coding.encode back := List.flatMap_append

/-- A text of symbols in which others than the special ones may be masked, too. -/
inductive Writes : List α → List α → Prop where
  | nil : Writes [] []
  | plain {symbol : α} {symbols text : List α} (isPlain : coding.special symbol = false) (rest : Writes symbols text) :
      Writes (symbol :: symbols) (symbol :: text)
  | masked {symbol : α} {symbols text : List α} (isKept : coding.skipped (coding.mask symbol) = false)
      (rest : Writes symbols text) : Writes (symbol :: symbols) (coding.escape :: coding.mask symbol :: text)

/-! ## What is written -/

theorem special_of_mem_encode {symbols : List α} {symbol : α} (written : symbol ∈ coding.encode symbols) :
    coding.special symbol = false ∨ symbol = coding.escape := by
  obtain ⟨source, -, inside⟩ := List.mem_flatMap.mp written
  unfold encodeSymbol at inside
  split at inside
  · rename_i isSpecial
    simp only [List.mem_cons, List.not_mem_nil, or_false] at inside
    rcases inside with rfl | rfl
    · exact Or.inr rfl
    · exact Or.inl (coding.mask_not_special source isSpecial)
  · rename_i isPlain
    obtain rfl := List.mem_singleton.mp inside
    exact Or.inl (Bool.eq_false_iff.mpr isPlain)

theorem kept_of_mem_encode {symbols : List α} {symbol : α} (written : symbol ∈ coding.encode symbols) :
    coding.skipped symbol = false := by
  rcases coding.special_of_mem_encode written with plain | rfl
  · exact Bool.eq_false_iff.mpr fun isSkipped => Bool.eq_false_iff.mp plain (coding.skipped_special symbol isSkipped)
  · exact coding.escape_kept

theorem kept_mask {symbol : α} (isSpecial : coding.special symbol = true) :
    coding.skipped (coding.mask symbol) = false := by
  have plain := coding.mask_not_special symbol isSpecial
  exact Bool.eq_false_iff.mpr fun isSkipped => Bool.eq_false_iff.mp plain (coding.skipped_special _ isSkipped)

theorem writes_encode (symbols : List α) : coding.Writes symbols (coding.encode symbols) := by
  induction symbols with
  | nil => exact .nil
  | cons symbol symbols inductionHypothesis =>
    rw [encode_cons, encodeSymbol]
    split
    · rename_i isSpecial
      exact .masked (coding.kept_mask isSpecial) inductionHypothesis
    · rename_i isPlain
      exact .plain (Bool.eq_false_iff.mpr isPlain) inductionHypothesis

theorem length_encode_le (symbols : List α) : (coding.encode symbols).length ≤ 2 * symbols.length := by
  induction symbols with
  | nil => exact Nat.le_refl 0
  | cons symbol rest inductionHypothesis =>
    have short : (coding.encodeSymbol symbol).length ≤ 2 := by
      unfold encodeSymbol
      split <;> simp
    simp only [encode_cons, List.length_append, List.length_cons]
    omega

theorem masked_of_encode {symbols rest : List α} {second : α}
    (begins : coding.encode symbols = coding.escape :: second :: rest) :
    ∃ symbol, coding.special symbol = true ∧ second = coding.mask symbol := by
  cases symbols with
  | nil => cases begins
  | cons symbol symbols =>
    rw [encode_cons, encodeSymbol] at begins
    split at begins
    · rename_i isSpecial
      simp only [List.cons_append, List.nil_append, List.cons.injEq] at begins
      exact ⟨symbol, isSpecial, begins.2.1.symm⟩
    · rename_i isPlain
      simp only [List.cons_append, List.nil_append, List.cons.injEq] at begins
      exact absurd (begins.1 ▸ coding.escape_special) isPlain

/-! ## What is read -/

/-- What a reader does not pass over. -/
def kept (text : List α) : List α := text.filter fun symbol => !coding.skipped symbol

theorem kept_append (front back : List α) : coding.kept (front ++ back) = coding.kept front ++ coding.kept back :=
  List.filter_append _ _

variable [DecidableEq α]

/-- What is read; `escaped` says whether an escape came last. -/
def decodeFrom (escaped : Bool) : List α → List α
  | [] => []
  | symbol :: rest =>
    if coding.skipped symbol then decodeFrom escaped rest
    else if symbol = coding.escape ∧ escaped = false then decodeFrom true rest
    else (if escaped then coding.unmask symbol else symbol) :: decodeFrom false rest

/-- Whether a text ends in an escape. -/
def escapedAfter (escaped : Bool) : List α → Bool
  | [] => escaped
  | symbol :: rest =>
    if coding.skipped symbol then escapedAfter escaped rest
    else if symbol = coding.escape ∧ escaped = false then escapedAfter true rest
    else escapedAfter false rest

theorem decodeFrom_append (escaped : Bool) (front back : List α) :
    coding.decodeFrom escaped (front ++ back) =
      coding.decodeFrom escaped front ++ coding.decodeFrom (coding.escapedAfter escaped front) back := by
  induction front generalizing escaped with
  | nil => rfl
  | cons symbol front inductionHypothesis =>
    simp only [List.cons_append, decodeFrom, escapedAfter]
    split
    · exact inductionHypothesis escaped
    · split
      · exact inductionHypothesis true
      · rw [inductionHypothesis, List.cons_append]

theorem escapedAfter_append (escaped : Bool) (front back : List α) :
    coding.escapedAfter escaped (front ++ back) =
      coding.escapedAfter (coding.escapedAfter escaped front) back := by
  induction front generalizing escaped with
  | nil => rfl
  | cons symbol front inductionHypothesis =>
    simp only [List.cons_append, escapedAfter]
    split
    · exact inductionHypothesis escaped
    · split
      · exact inductionHypothesis true
      · exact inductionHypothesis false

theorem decodeFrom_kept (escaped : Bool) (text : List α) :
    coding.decodeFrom escaped (coding.kept text) = coding.decodeFrom escaped text ∧
      coding.escapedAfter escaped (coding.kept text) = coding.escapedAfter escaped text := by
  induction text generalizing escaped with
  | nil => exact ⟨rfl, rfl⟩
  | cons symbol rest inductionHypothesis =>
    by_cases isSkipped : coding.skipped symbol = true
    · simpa [kept, decodeFrom, escapedAfter, isSkipped] using inductionHypothesis escaped
    · have isKept : coding.kept (symbol :: rest) = symbol :: coding.kept rest := by simp [kept, isSkipped]
      simp only [isKept, decodeFrom, escapedAfter, isSkipped, Bool.false_eq_true, if_false]
      split
      · exact inductionHypothesis true
      · exact ⟨by rw [(inductionHypothesis false).1], (inductionHypothesis false).2⟩

/-- What has been written is read back, and no escape is left open. -/
theorem Writes.decodeFrom {symbols text : List α} (writes : coding.Writes symbols text) :
    coding.decodeFrom false text = symbols ∧ coding.escapedAfter false text = false := by
  induction writes with
  | nil => exact ⟨rfl, rfl⟩
  | plain isPlain rest inductionHypothesis =>
    rename_i symbol _ _
    have isKept : coding.skipped symbol = false :=
      Bool.eq_false_iff.mpr fun isSkipped => Bool.eq_false_iff.mp isPlain (coding.skipped_special symbol isSkipped)
    have noEscape : symbol ≠ coding.escape := by
      rintro rfl
      exact Bool.eq_false_iff.mp isPlain coding.escape_special
    simp [EscapeCoding.decodeFrom, escapedAfter, isKept, noEscape, inductionHypothesis]
  | masked isKept rest inductionHypothesis =>
    simp [EscapeCoding.decodeFrom, escapedAfter, coding.escape_kept, isKept, coding.unmask_mask, inductionHypothesis]

theorem decodeFrom_encode (symbols : List α) :
    coding.decodeFrom false (coding.encode symbols) = symbols ∧
      coding.escapedAfter false (coding.encode symbols) = false :=
  (coding.writes_encode symbols).decodeFrom

theorem escapedAfter_encodeSymbol (symbol : α) : coding.escapedAfter false (coding.encodeSymbol symbol) = false := by
  have closed := (coding.decodeFrom_encode [symbol]).2
  rwa [encode_cons, encode_nil, List.append_nil] at closed

/-! ## Pieces -/

/-- Where no escape is open, what is written can be cut. -/
theorem split_of_closed {symbols front back : List α} (written : coding.encode symbols = front ++ back)
    (closed : coding.escapedAfter false front = false) :
    ∃ first second, symbols = first ++ second ∧ front = coding.encode first ∧ back = coding.encode second := by
  induction symbols generalizing front with
  | nil =>
    obtain ⟨rfl, rfl⟩ := List.append_eq_nil_iff.mp written.symm
    exact ⟨[], [], rfl, rfl, rfl⟩
  | cons symbol symbols inductionHypothesis =>
    rw [encode_cons] at written
    rcases List.append_eq_append_iff.mp written with ⟨more, rfl, rest⟩ | ⟨rest, isSymbol, rfl⟩
    · -- the symbol is in front
      rw [escapedAfter_append, coding.escapedAfter_encodeSymbol symbol] at closed
      obtain ⟨first, second, rfl, rfl, rfl⟩ := inductionHypothesis rest closed
      exact ⟨symbol :: first, second, rfl, rfl, rfl⟩
    · -- the cut is before the symbol, or would leave its escape open
      cases front with
      | nil => exact ⟨[], symbol :: symbols, rfl, rfl, by rw [encode_cons, isSymbol]; rfl⟩
      | cons head tail =>
        unfold encodeSymbol at isSymbol
        split at isSymbol
        · rename_i isSpecial
          simp only [List.cons_append, List.cons.injEq] at isSymbol
          obtain ⟨rfl, isTail⟩ := isSymbol
          cases tail with
          | nil => simp [escapedAfter, coding.escape_kept] at closed
          | cons masked tail =>
            simp only [List.cons_append, List.cons.injEq] at isTail
            obtain ⟨rfl, isNil⟩ := isTail
            obtain ⟨rfl, rfl⟩ := List.append_eq_nil_iff.mp isNil.symm
            exact ⟨[symbol], symbols, rfl, by simp [encodeSymbol, isSpecial], rfl⟩
        · rename_i isPlain
          simp only [List.cons_append, List.cons.injEq] at isSymbol
          obtain ⟨rfl, isNil⟩ := isSymbol
          obtain ⟨rfl, rfl⟩ := List.append_eq_nil_iff.mp isNil.symm
          exact ⟨[symbol], symbols, rfl, by simp [encodeSymbol, isPlain], rfl⟩

/-- Pieces of a coding, none of which ends in an escape, are codings of pieces. -/
theorem chunks_of_closed {symbols : List α} {lines : List (List α)}
    (written : coding.kept lines.flatten = coding.encode symbols)
    (closed : ∀ line ∈ lines, coding.escapedAfter false line = false) :
    ∃ chunks : List (List α), chunks.flatten = symbols ∧
      List.Forall₂ (fun line chunk => coding.kept line = coding.encode chunk) lines chunks := by
  induction lines generalizing symbols with
  | nil =>
    have none : symbols = [] := by
      have reads := (coding.decodeFrom_encode symbols).1
      rw [← written] at reads
      exact reads.symm
    exact ⟨[], none.symm, .nil⟩
  | cons line lines inductionHypothesis =>
    rw [List.flatten_cons, kept_append] at written
    have lineClosed : coding.escapedAfter false (coding.kept line) = false :=
      (coding.decodeFrom_kept false line).2.trans (closed line List.mem_cons_self)
    obtain ⟨first, second, rfl, isFirst, isSecond⟩ := coding.split_of_closed written.symm lineClosed
    obtain ⟨chunks, rfl, pieces⟩ := inductionHypothesis isSecond fun other inside =>
      closed other (List.mem_cons_of_mem _ inside)
    exact ⟨first :: chunks, rfl, .cons isFirst pieces⟩

/-- Pieces that leave no escape open are read one by one. -/
theorem decodeFrom_flatten {lines : List (List α)}
    (closed : ∀ line ∈ lines, coding.escapedAfter false line = false) :
    coding.decodeFrom false lines.flatten = lines.flatMap (coding.decodeFrom false) := by
  induction lines with
  | nil => rfl
  | cons line lines inductionHypothesis =>
    have later := inductionHypothesis fun other inside => closed other (List.mem_cons_of_mem _ inside)
    rw [List.flatten_cons, decodeFrom_append, closed line List.mem_cons_self, later, List.flatMap_cons]

theorem decodeFrom_of_kept {line chunk : List α} (written : coding.kept line = coding.encode chunk) :
    coding.decodeFrom false line = chunk := by
  rw [← (coding.decodeFrom_kept false line).1, written, (coding.decodeFrom_encode chunk).1]

end EscapeCoding
