import Mathlib.Data.List.Basic
import Mathlib.Data.List.Zip

/-! # Cyclic redundancy

A remainder takes in bits one after another, the lowest place first. With a polynomial that has its top
place, a burst of at most as many bits as the remainder has places never goes unnoticed.

* `shift`, `feed`, `run` — a place down, one bit, a sequence of bits.
* `run_xor` — runs are linear in exclusive or; `run_injective`, `run_bits_injective`.
* `run_ne_of_burst` — two sequences that differ in a short burst only have different remainders.
-/

namespace CyclicRedundancy

variable {width : Nat} (polynomial : BitVec width)

/-- One place down; the polynomial comes in for a bit that falls out. -/
def shift (remainder : BitVec width) : BitVec width :=
  if remainder.getLsbD 0 then (remainder >>> 1) ^^^ polynomial else remainder >>> 1

def feed (remainder : BitVec width) (bit : Bool) : BitVec width :=
  shift polynomial (remainder ^^^ (BitVec.ofBool bit).setWidth width)

def run (remainder : BitVec width) (bits : List Bool) : BitVec width := bits.foldl (feed polynomial) remainder

@[simp] theorem run_nil (remainder : BitVec width) : run polynomial remainder [] = remainder := rfl

@[simp] theorem run_cons (remainder : BitVec width) (bit : Bool) (bits : List Bool) :
    run polynomial remainder (bit :: bits) = run polynomial (feed polynomial remainder bit) bits := rfl

theorem run_append (remainder : BitVec width) (front back : List Bool) :
    run polynomial remainder (front ++ back) = run polynomial (run polynomial remainder front) back :=
  List.foldl_append

/-! ## Linearity -/

theorem xor_cancel (first second common : BitVec width) :
    (first ^^^ common) ^^^ (second ^^^ common) = first ^^^ second := by
  rw [BitVec.xor_comm second common, BitVec.xor_assoc, ← BitVec.xor_assoc common, BitVec.xor_self, BitVec.zero_xor]

theorem shift_xor (first second : BitVec width) :
    shift polynomial (first ^^^ second) = shift polynomial first ^^^ shift polynomial second := by
  simp only [shift, BitVec.getLsbD_xor, BitVec.ushiftRight_xor_distrib]
  cases first.getLsbD 0 <;> cases second.getLsbD 0
  · rfl
  · simp [BitVec.xor_assoc]
  · simp only [Bool.true_xor, Bool.not_false, if_true, Bool.false_eq_true, if_false]
    rw [BitVec.xor_assoc, BitVec.xor_comm (second >>> 1), ← BitVec.xor_assoc]
  · simp only [Bool.true_xor, Bool.not_true, Bool.false_eq_true, if_false, if_true]
    exact (xor_cancel _ _ _).symm

theorem ofBool_xor (first second : Bool) :
    (BitVec.ofBool (first ^^ second)).setWidth width =
      (BitVec.ofBool first).setWidth width ^^^ (BitVec.ofBool second).setWidth width := by
  rw [← BitVec.setWidth_xor, BitVec.ofBool_xor_ofBool]

theorem feed_xor (first second : BitVec width) (bit other : Bool) :
    feed polynomial (first ^^^ second) (bit ^^ other) =
      feed polynomial first bit ^^^ feed polynomial second other := by
  rw [feed, feed, feed, ← shift_xor, ofBool_xor]
  congr 1
  ac_rfl

theorem run_xor (first second : BitVec width) {bits others : List Bool} (length : bits.length = others.length) :
    run polynomial (first ^^^ second) (List.zipWith Bool.xor bits others) =
      run polynomial first bits ^^^ run polynomial second others := by
  induction bits generalizing first second others with
  | nil =>
    obtain rfl := List.length_eq_zero_iff.mp length.symm
    rfl
  | cons bit bits inductionHypothesis =>
    cases others with
    | nil => cases length
    | cons other others =>
      have lengths : bits.length = others.length := Nat.succ.inj length
      rw [List.zipWith_cons_cons, run_cons, feed_xor, inductionHypothesis _ _ lengths, run_cons, run_cons]

/-! ## Going back -/

section Back

variable {polynomial} (top : polynomial.msb = true)

include top

theorem getLsbD_of_shift {remainder : BitVec width} (noTop : (shift polynomial remainder).msb = false) :
    remainder.getLsbD 0 = false ∧
      ∀ place, remainder.getLsbD (place + 1) = (shift polynomial remainder).getLsbD place := by
  cases out : remainder.getLsbD 0 with
  | true =>
    -- the polynomial brings its top place in
    have noneAbove : (remainder >>> 1).msb = false := by
      rw [BitVec.msb_eq_getLsbD_last, BitVec.getLsbD_ushiftRight]
      exact BitVec.getLsbD_of_ge _ _ (by omega)
    rw [shift, out, if_pos rfl, BitVec.msb_xor, noneAbove, top] at noTop
    cases noTop
  | false =>
    refine ⟨rfl, fun place => ?_⟩
    simp [shift, out, Nat.add_comm]

/-- A short run that ends on a small remainder: the bits are the lowest places of where it started. -/
theorem getLsbD_of_run {remainder : BitVec width} {bits : List Bool} (short : bits.length ≤ width)
    (small : ∀ place, width ≤ place + bits.length → (run polynomial remainder bits).getLsbD place = false) :
    (∀ place (inside : place < bits.length), remainder.getLsbD place = bits[place]) ∧
      ∀ place, remainder.getLsbD (place + bits.length) = (run polynomial remainder bits).getLsbD place := by
  induction bits generalizing remainder with
  | nil => exact ⟨fun place inside => absurd inside (Nat.not_lt_zero _), fun _ => rfl⟩
  | cons bit bits inductionHypothesis =>
    rw [List.length_cons] at short
    simp only [List.length_cons, run_cons] at small
    obtain ⟨lower, upper⟩ := @inductionHypothesis (feed polynomial remainder bit) (by omega)
      fun place outside => small place (by omega)
    have noTop : (feed polynomial remainder bit).msb = false := by
      rw [BitVec.msb_eq_getLsbD_last, show width - 1 = (width - 1 - bits.length) + bits.length by omega, upper]
      exact small _ (by omega)
    obtain ⟨lowest, above⟩ := getLsbD_of_shift top noTop
    -- above the lowest place, the bit that came in changes nothing
    have moved : ∀ place, remainder.getLsbD (place + 1) = (feed polynomial remainder bit).getLsbD place := by
      intro place
      rw [feed, ← above]
      simp [BitVec.getLsbD_setWidth]
    refine ⟨fun place inside => ?_, fun place => ?_⟩
    · cases place with
      | zero =>
        rw [BitVec.getLsbD_xor, BitVec.getLsbD_setWidth, decide_eq_true (by omega : 0 < width), Bool.true_and,
          BitVec.getLsbD_ofBool, decide_eq_true rfl, Bool.true_and] at lowest
        simpa using lowest
      | succ place =>
        rw [moved, lower place (Nat.lt_of_succ_lt_succ inside)]
        rfl
    · rw [List.length_cons, ← Nat.add_assoc, moved, upper, run_cons]

theorem shift_injective : Function.Injective (shift polynomial) := by
  intro first second same
  have isZero : shift polynomial (first ^^^ second) = BitVec.ofNat width 0 := by rw [shift_xor, same, BitVec.xor_self]
  obtain ⟨lowest, above⟩ := getLsbD_of_shift top (isZero ▸ BitVec.msb_zero)
  apply BitVec.xor_eq_zero_iff.mp
  apply BitVec.eq_of_getLsbD_eq
  intro place _
  cases place with
  | zero => rw [lowest, BitVec.getLsbD_zero]
  | succ place => rw [above, isZero, BitVec.getLsbD_zero, BitVec.getLsbD_zero]

theorem run_injective (bits : List Bool) : Function.Injective fun remainder => run polynomial remainder bits := by
  induction bits with
  | nil => exact fun _ _ same => same
  | cons bit bits inductionHypothesis =>
    intro first second same
    exact (BitVec.xor_left_inj _).mp (shift_injective top (inductionHypothesis same))

theorem run_bits_injective (remainder : BitVec width) {bits others : List Bool} (length : bits.length = others.length)
    (short : bits.length ≤ width) (same : run polynomial remainder bits = run polynomial remainder others) :
    bits = others := by
  have isZero : run polynomial (BitVec.ofNat width 0) (List.zipWith Bool.xor bits others) = BitVec.ofNat width 0 := by
    have both := run_xor polynomial remainder remainder length
    rwa [BitVec.xor_self, same, BitVec.xor_self] at both
  have lengths : (List.zipWith Bool.xor bits others).length = bits.length := by
    rw [List.length_zipWith, length, Nat.min_self]
  obtain ⟨places, -⟩ := getLsbD_of_run top (lengths ▸ short) (by
    rw [isZero]
    exact fun _ _ => BitVec.getLsbD_zero)
  apply List.ext_getElem length
  intro place inside insideOther
  have agree := places place (by omega)
  rw [BitVec.getLsbD_zero, List.getElem_zipWith] at agree
  simpa using agree.symm

/-- A burst of at most as many bits as there are places is noticed, whatever stands around it. -/
theorem run_ne_of_burst (remainder : BitVec width) (front back : List Bool) {bits others : List Bool}
    (length : bits.length = others.length) (short : bits.length ≤ width) (different : bits ≠ others) :
    run polynomial remainder (front ++ bits ++ back) ≠ run polynomial remainder (front ++ others ++ back) := by
  intro same
  rw [run_append, run_append, run_append, run_append] at same
  exact different (run_bits_injective top _ length short (run_injective top back same))

end Back

end CyclicRedundancy
