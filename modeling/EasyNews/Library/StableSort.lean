import Mathlib.Data.List.Sort

/-! # What a stable sort does to the order of pairs

`List.insertionSort` keeps two items in their order when the relation allows it, and exchanges them
else. So any relation between the items of the sorted list, not only the one it was sorted by, can be
read off the list as it was.

* `pairwise_orderedInsert_iff` — one item put into a sorted list.
* `pairwise_insertionSort_iff` — the whole list.
* `pairwise_changed_iff` — a list in order whose relation changes at one item only.
-/

namespace StableSort

variable {α : Type*} {r : α → α → Prop} [DecidableRel r]

/-- Two items that stand in this order before the sort are in relation `R` after it. -/
def AfterSort (r : α → α → Prop) [DecidableRel r] (R : α → α → Prop) (x y : α) : Prop :=
  if r x y then R x y else R y x

theorem afterSort_of_rel {R : α → α → Prop} {x y : α} (allowed : r x y) : AfterSort r R x y ↔ R x y := by
  rw [AfterSort, if_pos allowed]

theorem afterSort_of_not_rel {R : α → α → Prop} {x y : α} (refused : ¬ r x y) : AfterSort r R x y ↔ R y x := by
  rw [AfterSort, if_neg refused]

theorem pairwise_orderedInsert_iff [IsTrans α r] (R : α → α → Prop) (item : α) {list : List α}
    (isSorted : list.Pairwise r) :
    (list.orderedInsert r item).Pairwise R ↔ (∀ other ∈ list, AfterSort r R item other) ∧ list.Pairwise R := by
  induction list with
  | nil => simp
  | cons head rest inductionHypothesis =>
    obtain ⟨headFirst, restSorted⟩ := List.pairwise_cons.mp isSorted
    by_cases allowed : r item head
    · -- the item stays in front of the whole list
      have inFront : ∀ other ∈ head :: rest, (AfterSort r R item other ↔ R item other) := by
        intro other member
        apply afterSort_of_rel
        cases List.mem_cons.mp member with
        | inl same => exact same ▸ allowed
        | inr later => exact IsTrans.trans item head other allowed (headFirst other later)
      rw [List.orderedInsert_cons_of_le r rest allowed, List.pairwise_cons]
      have translated : (∀ other ∈ head :: rest, AfterSort r R item other) ↔ ∀ other ∈ head :: rest, R item other :=
        forall₂_congr inFront
      rw [translated]
    · -- the item goes behind the head, so their order is the head first
      rw [List.orderedInsert_of_not_le r rest allowed, List.pairwise_cons, List.pairwise_cons]
      rw [inductionHypothesis restSorted, List.forall_mem_cons, afterSort_of_not_rel allowed]
      have members : (∀ other ∈ rest.orderedInsert r item, R head other) ↔
          R head item ∧ ∀ other ∈ rest, R head other := by
        simp only [List.mem_orderedInsert, forall_eq_or_imp]
      rw [members]
      constructor
      · rintro ⟨⟨behind, headOthers⟩, others, restOrdered⟩
        exact ⟨⟨behind, others⟩, headOthers, restOrdered⟩
      · rintro ⟨⟨behind, others⟩, headOthers, restOrdered⟩
        exact ⟨⟨behind, headOthers⟩, others, restOrdered⟩

theorem pairwise_insertionSort_iff [Std.Total r] [IsTrans α r] (R : α → α → Prop) (list : List α) :
    (list.insertionSort r).Pairwise R ↔ list.Pairwise (AfterSort r R) := by
  induction list with
  | nil => simp
  | cons head rest inductionHypothesis =>
    rw [List.insertionSort_cons, pairwise_orderedInsert_iff R head (List.pairwise_insertionSort r rest)]
    rw [List.pairwise_cons, inductionHypothesis]
    simp only [List.mem_insertionSort]

/-- Where only the relations of one item change, only its neighbours on both sides are to be looked at. -/
theorem pairwise_changed_iff {R later : α → α → Prop} {item : α} {list : List α} (before : list.Pairwise R)
    (others : ∀ x y, x ≠ item → y ≠ item → (later x y ↔ R x y)) (self : later item item) :
    list.Pairwise later ↔ ∀ front back, list = front ++ item :: back →
      (∀ x ∈ front, x ≠ item → later x item) ∧ ∀ y ∈ back, y ≠ item → later item y := by
  constructor
  · rintro ordered front back rfl
    obtain ⟨-, behind, inFront⟩ := List.pairwise_append.mp ordered
    exact ⟨fun x member _ => inFront x member item List.mem_cons_self,
      fun y member _ => (List.pairwise_cons.mp behind).1 y member⟩
  · intro fits
    induction list with
    | nil => exact List.Pairwise.nil
    | cons head rest inductionHypothesis =>
      obtain ⟨headFirst, restBefore⟩ := List.pairwise_cons.mp before
      refine List.pairwise_cons.mpr ⟨fun y member => ?_, ?_⟩
      · by_cases atItem : head = item
        · subst atItem
          by_cases same : y = head
          · exact same ▸ self
          · exact (fits [] rest rfl).2 y member same
        · by_cases same : y = item
          · subst same
            obtain ⟨front, back, rfl⟩ := List.append_of_mem member
            exact (fits (head :: front) back rfl).1 head List.mem_cons_self atItem
          · exact (others head y atItem same).mpr (headFirst y member)
      · refine inductionHypothesis restBefore fun front back isRest => ?_
        obtain ⟨inFront, behind⟩ := fits (head :: front) back (by rw [isRest]; rfl)
        exact ⟨fun x member => inFront x (List.mem_cons_of_mem _ member), behind⟩

end StableSort
