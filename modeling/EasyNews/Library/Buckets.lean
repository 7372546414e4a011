import Mathlib.Data.List.Nodup
import Mathlib.Data.List.Perm.Basic

/-! # Buckets, some of them visible

Items are put into buckets that are kept in the order of their creation; a list of bucket numbers
says which buckets are looked at. The results say what each operation adds to the `items` that the
visible buckets hold, up to the order within a bucket.
-/

namespace Buckets

variable {α : Type*}

/-- Counting one in all buckets means that one bucket holds the item once and the others do not
    hold it. -/
theorem count_flatMap_eq_one_iff {β : Type*} [BEq β] [LawfulBEq β] (content : α → List β) (item : β) (buckets : List α) :
    (buckets.flatMap content).count item = 1 ↔
      ∃ front bucket back, buckets = front ++ bucket :: back ∧ (content bucket).count item = 1 ∧
        ∀ other ∈ front ++ back, item ∉ content other := by
  induction buckets with
  | nil => simp
  | cons first rest inductionHypothesis =>
    rw [List.flatMap_cons, List.count_append]
    constructor
    · intro total
      -- the one occurrence is behind the first bucket, or in it
      rcases Nat.eq_zero_or_pos ((content first).count item) with absent | present
      · obtain ⟨front, bucket, back, rfl, once, others⟩ := inductionHypothesis.mp (by omega)
        refine ⟨first :: front, bucket, back, rfl, once, ?_⟩
        intro other inside
        rcases List.mem_cons.mp inside with rfl | inside
        · exact List.count_eq_zero.mp absent
        · exact others other inside
      · have absent : (rest.flatMap content).count item = 0 := by omega
        rw [List.count_eq_zero, List.mem_flatMap] at absent
        refine ⟨[], first, rest, rfl, by omega, ?_⟩
        intro other inside holdsIt
        exact absent ⟨other, inside, holdsIt⟩
    · rintro ⟨front, bucket, back, split, once, others⟩
      cases front with
      | nil =>
        obtain ⟨rfl, rfl⟩ := List.cons.inj split
        have absent : (rest.flatMap content).count item = 0 := by
          rw [List.count_eq_zero, List.mem_flatMap]
          rintro ⟨other, inside, holdsIt⟩
          exact others other inside holdsIt
        omega
      | cons head front =>
        obtain ⟨rfl, rfl⟩ := List.cons.inj split
        have absent := List.count_eq_zero.mpr (others first (by simp))
        have once := inductionHypothesis.mpr
          ⟨front, bucket, back, rfl, once, fun other inside => others other (by simp_all)⟩
        omega

structure Board (α : Type*) where
  buckets : List (List α)
  visible : List Nat

namespace Board

def bucket (board : Board α) (number : Nat) : List α := board.buckets.getD number []

def contents (board : Board α) : List (List α) := board.visible.map board.bucket

/-- What the visible buckets hold, one bucket after another. -/
def items (board : Board α) : List α := board.visible.flatMap board.bucket

/-- Every visible bucket exists, and is looked at once. -/
structure Valid (board : Board α) : Prop where
  nodup : board.visible.Nodup
  exist : ∀ number ∈ board.visible, number < board.buckets.length

/-- A new bucket with one item, not visible. -/
def addHidden (item : α) (board : Board α) : Board α :=
  { board with buckets := board.buckets ++ [[item]] }

/-- A new visible bucket with one item. -/
def addVisible (item : α) (board : Board α) : Board α where
  buckets := board.buckets ++ [[item]]
  visible := board.visible ++ [board.buckets.length]

/-- Another item in a bucket, which is then arranged anew. -/
def put (arrange : List α → List α) (number : Nat) (item : α) (board : Board α) : Board α :=
  { board with buckets := board.buckets.modify number fun content => arrange (content ++ [item]) }

theorem valid_empty : Valid (⟨[], []⟩ : Board α) where
  nodup := List.nodup_nil
  exist := by simp

variable {board : Board α}

theorem Valid.addHidden (valid : board.Valid) (item : α) : (board.addHidden item).Valid where
  nodup := valid.nodup
  exist number inside := by
    have old := valid.exist number inside
    simp only [Board.addHidden, List.length_append, List.length_singleton]
    omega

theorem Valid.addVisible (valid : board.Valid) (item : α) : (board.addVisible item).Valid where
  nodup := by
    refine List.nodup_append.mpr ⟨valid.nodup, List.nodup_singleton _, ?_⟩
    intro number inside other isNew
    have old := valid.exist number inside
    rw [List.mem_singleton.mp isNew]
    omega
  exist number inside := by
    simp only [Board.addVisible, List.length_append, List.length_singleton]
    rcases List.mem_append.mp inside with old | isNew
    · have shorter := valid.exist number old
      omega
    · rw [List.mem_singleton.mp isNew]
      omega

theorem Valid.put (valid : board.Valid) (arrange : List α → List α) (number : Nat) (item : α) :
    (board.put arrange number item).Valid where
  nodup := valid.nodup
  exist other inside := by
    simp only [Board.put, List.length_modify]
    exact valid.exist other inside

theorem bucket_addHidden (item : α) {number : Nat} (exist : number < board.buckets.length) :
    (board.addHidden item).bucket number = board.bucket number := by
  simp [bucket, Board.addHidden, List.getD_eq_getElem?_getD, List.getElem?_append_left exist]

theorem items_eq_flatten : board.items = board.contents.flatten := List.flatMap_def

theorem contents_addHidden (valid : board.Valid) (item : α) : (board.addHidden item).contents = board.contents := by
  apply List.map_congr_left
  intro number inside
  exact bucket_addHidden item (valid.exist number inside)

theorem contents_addVisible (valid : board.Valid) (item : α) :
    (board.addVisible item).contents = board.contents ++ [[item]] := by
  have old : board.visible.map (board.addVisible item).bucket = board.contents := contents_addHidden valid item
  have new : (board.addVisible item).bucket board.buckets.length = [item] := by
    simp [bucket, Board.addVisible, List.getD_eq_getElem?_getD]
  rw [contents, Board.addVisible, List.map_append, ← Board.addVisible, old, List.map_singleton, new]

theorem items_addHidden (valid : board.Valid) (item : α) : (board.addHidden item).items = board.items := by
  rw [items_eq_flatten, items_eq_flatten, contents_addHidden valid]

theorem items_addVisible (valid : board.Valid) (item : α) :
    (board.addVisible item).items = board.items ++ [item] := by
  rw [items_eq_flatten, items_eq_flatten, contents_addVisible valid, List.flatten_append, List.flatten_singleton]

section Put

variable (arrange : List α → List α) {number : Nat} (item : α)

theorem bucket_put_of_ne {other : Nat} (different : other ≠ number) :
    (board.put arrange number item).bucket other = board.bucket other := by
  simp [bucket, Board.put, List.getD_eq_getElem?_getD, different.symm]

theorem bucket_put (exist : number < board.buckets.length) :
    (board.put arrange number item).bucket number = arrange (board.bucket number ++ [item]) := by
  simp [bucket, Board.put, List.getD_eq_getElem?_getD, exist]

theorem contents_put_hidden (hidden : number ∉ board.visible) :
    (board.put arrange number item).contents = board.contents := by
  apply List.map_congr_left
  intro other inside
  exact bucket_put_of_ne arrange item fun same => hidden (same ▸ inside)

theorem contents_put_visible (valid : board.Valid) (visible : number ∈ board.visible) :
    ∃ front back, board.contents = front ++ board.bucket number :: back ∧
      (board.put arrange number item).contents = front ++ arrange (board.bucket number ++ [item]) :: back := by
  obtain ⟨front, back, split⟩ := List.append_of_mem visible
  have nodup := valid.nodup
  rw [split] at nodup
  have others : ∀ other ∈ front ++ back, (board.put arrange number item).bucket other = board.bucket other := by
    intro other inside
    apply bucket_put_of_ne
    intro same
    have twice := (List.nodup_middle.mp nodup).notMem
    exact twice (same ▸ inside)
  have frontSame := List.map_congr_left fun other inside => others other (List.mem_append_left back inside)
  have backSame := List.map_congr_left fun other inside => others other (List.mem_append_right front inside)
  refine ⟨front.map board.bucket, back.map board.bucket, ?_, ?_⟩
  · rw [contents, split, List.map_append, List.map_cons]
  · rw [contents, Board.put, split, List.map_append, List.map_cons]
    rw [← split, ← Board.put, frontSame, backSame, bucket_put arrange item (valid.exist number visible)]

theorem items_put_hidden (hidden : number ∉ board.visible) :
    (board.put arrange number item).items = board.items := by
  rw [items_eq_flatten, items_eq_flatten, contents_put_hidden arrange item hidden]

theorem items_put_visible (valid : board.Valid) (arranged : ∀ content, (arrange content).Perm content)
    (visible : number ∈ board.visible) :
    ((board.put arrange number item).items).Perm (board.items ++ [item]) := by
  obtain ⟨front, back, before, after⟩ := contents_put_visible arrange item valid visible
  rw [items_eq_flatten, items_eq_flatten, before, after]
  simp only [List.flatten_append, List.flatten_cons, List.append_assoc]
  apply List.Perm.append_left
  calc arrange (board.bucket number ++ [item]) ++ back.flatten
      _ |>.Perm (board.bucket number ++ [item] ++ back.flatten) :=
        (arranged _).append_right _
      _ |>.Perm (board.bucket number ++ (back.flatten ++ [item])) := by
        rw [List.append_assoc]
        exact List.Perm.append_left _ List.perm_append_comm

end Put

end Board

end Buckets
