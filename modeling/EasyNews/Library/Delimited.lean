import Mathlib.Data.List.Infix
import Mathlib.Data.List.TakeWhile

/-! # Cutting a list at a delimiter

Finding the first or the last occurrence of a pattern, and cutting a list into the pieces
between the occurrences of a two-symbol delimiter such as CR LF.

* `lastRange`, `firstRange` — what stands before and after one occurrence.
* `Delimiter` — two different symbols, so two occurrences never overlap.
* `pieces`, `fields` — all pieces, and the nonempty ones.
* `pieces_render_append`, `lastRange_append` — what cutting does to text rendered line by line.
-/

namespace Delimited

variable {α : Type*}

/-! ## One occurrence of a pattern -/

section Occurrences

variable [DecidableEq α]

/-- What stands before and after the last occurrence of `pattern`. -/
def lastRange (pattern : List α) : List α → Option (List α × List α)
  | [] => none
  | symbol :: rest =>
    match lastRange pattern rest with
    | some (before, after) => some (symbol :: before, after)
    | none =>
      if pattern.isPrefixOf (symbol :: rest) then some ([], (symbol :: rest).drop pattern.length)
      else none

/-- What stands before and after the first occurrence of `pattern`, symbols being compared after
    `fold`; what stands behind it must be a text that `ends` it. -/
def firstRange (fold : α → α) (ends : List α → Bool) (pattern : List α) : List α → Option (List α × List α)
  | [] => none
  | symbol :: rest =>
    if (pattern.map fold).isPrefixOf ((symbol :: rest).map fold) && ends ((symbol :: rest).drop pattern.length) then
      some ([], (symbol :: rest).drop pattern.length)
    else
      match firstRange fold ends pattern rest with
      | some (before, after) => some (symbol :: before, after)
      | none => none

theorem lastRange_eq_none_iff {pattern : List α} (nonempty : pattern ≠ []) (list : List α) :
    lastRange pattern list = none ↔ ¬ pattern <:+: list := by
  induction list with
  | nil => simp [lastRange, nonempty]
  | cons symbol rest inductionHypothesis =>
    rw [List.infix_cons_iff]
    cases found : lastRange pattern rest with
    | some split =>
      have inRest : pattern <:+: rest := by
        by_contra absent
        rw [inductionHypothesis.mpr absent] at found
        cases found
      simp [lastRange, found, inRest]
    | none =>
      have absent := inductionHypothesis.mp found
      simp [lastRange, found, absent]

theorem lastRange_eq_some {pattern : List α} (nonempty : pattern ≠ []) {list before after : List α}
    (found : lastRange pattern list = some (before, after)) :
    list = before ++ pattern ++ after ∧ ¬ pattern <:+: after := by
  induction list generalizing before with
  | nil => cases found
  | cons symbol rest inductionHypothesis =>
    simp only [lastRange] at found
    -- an occurrence further behind is preferred to the one here
    cases later : lastRange pattern rest with
    | some split =>
      obtain ⟨front, back⟩ := split
      rw [later] at found
      cases found
      obtain ⟨joined, unbroken⟩ := inductionHypothesis later
      exact ⟨by simp [joined], unbroken⟩
    | none =>
      rw [later] at found
      dsimp only at found
      split at found
      · rename_i starts
        cases found
        obtain ⟨tail, joined⟩ := List.isPrefixOf_iff_prefix.mp starts
        have absent := (lastRange_eq_none_iff nonempty rest).mp later
        -- what is behind the occurrence is part of the rest, which holds none
        refine ⟨by rw [← joined]; simp, fun inside => absent ?_⟩
        cases pattern with
        | nil => exact absurd rfl nonempty
        | cons head patternTail =>
          exact inside.trans ((List.drop_suffix _ rest).isInfix)
      · cases found

theorem firstRange_singleton (fold : α → α) (ends : List α → Bool) (symbol : α) {front back : List α}
    (absent : ∀ other ∈ front, fold other ≠ fold symbol) (ended : ends back = true) :
    firstRange fold ends [symbol] (front ++ symbol :: back) = some (front, back) := by
  induction front with
  | nil => simp [firstRange, ended]
  | cons head front inductionHypothesis =>
    have different := absent head List.mem_cons_self
    rw [List.cons_append, firstRange,
      inductionHypothesis fun other member => absent other (List.mem_cons_of_mem _ member)]
    simp [Ne.symm different]

end Occurrences

/-! ## Two-symbol delimiters -/

/-- A delimiter of two different symbols. -/
structure Delimiter (α : Type*) where
  first : α
  second : α
  distinct : first ≠ second

namespace Delimiter

variable (delimiter : Delimiter α)

def symbols : List α := [delimiter.first, delimiter.second]

/-- The list holds no delimiter. -/
def Unbroken (list : List α) : Prop := ¬ delimiter.symbols <:+: list

theorem symbols_ne_nil : delimiter.symbols ≠ [] := by simp [symbols]

theorem unbroken_nil : delimiter.Unbroken [] := by simp [Unbroken, symbols]

theorem unbroken_cons_cons (head next : α) (rest : List α) :
    delimiter.Unbroken (head :: next :: rest) ↔
      ¬ (head = delimiter.first ∧ next = delimiter.second) ∧ delimiter.Unbroken (next :: rest) := by
  simp only [Unbroken, symbols, List.infix_cons_iff, List.cons_prefix_cons, List.nil_prefix, and_true,
    not_or, eq_comm]

theorem unbroken_singleton (symbol : α) : delimiter.Unbroken [symbol] := by
  intro inside
  have short := inside.length_le
  simp [symbols] at short

theorem unbroken_of_not_mem {list : List α} (absent : delimiter.second ∉ list) :
    delimiter.Unbroken list := by
  intro inside
  exact absent (inside.subset (by simp [symbols]))

theorem unbroken_second_cons {list : List α} (unbroken : delimiter.Unbroken list) :
    delimiter.Unbroken (delimiter.second :: list) := by
  cases list with
  | nil => exact delimiter.unbroken_singleton _
  | cons head rest =>
    rw [unbroken_cons_cons]
    exact ⟨fun same => delimiter.distinct same.1.symm, unbroken⟩

section Cutting

variable [DecidableEq α]

instance (list : List α) : Decidable (delimiter.Unbroken list) :=
  inferInstanceAs (Decidable (¬ delimiter.symbols <:+: list))

theorem lastRange_of_unbroken {list : List α} (unbroken : delimiter.Unbroken list) :
    lastRange delimiter.symbols list = none :=
  (lastRange_eq_none_iff delimiter.symbols_ne_nil list).mpr unbroken

theorem lastRange_append (front : List α) {back : List α} (unbroken : delimiter.Unbroken back) :
    lastRange delimiter.symbols (front ++ (delimiter.symbols ++ back)) = some (front, back) := by
  induction front with
  | nil =>
    have later := delimiter.lastRange_of_unbroken (delimiter.unbroken_second_cons unbroken)
    rw [symbols] at later ⊢
    simp only [List.nil_append, List.cons_append]
    rw [lastRange, later]
    simp
  | cons symbol front inductionHypothesis =>
    rw [List.cons_append, lastRange, inductionHypothesis]

/-- The pieces between the delimiters, empty ones included. -/
def pieces : List α → List (List α)
  | [] => [[]]
  | [symbol] => [[symbol]]
  | symbol :: next :: rest =>
    if symbol = delimiter.first ∧ next = delimiter.second then [] :: pieces rest
    else (pieces (next :: rest)).modifyHead (symbol :: ·)

def fields (list : List α) : List (List α) := (delimiter.pieces list).filter (· ≠ [])

theorem pieces_ne_nil : ∀ list : List α, delimiter.pieces list ≠ []
  | [] => by simp [pieces]
  | [_] => by simp [pieces]
  | symbol :: next :: rest => by
    simp only [pieces]
    split
    · simp
    · simp only [ne_eq, List.modifyHead_eq_nil_iff]
      exact pieces_ne_nil (next :: rest)

theorem pieces_of_unbroken : ∀ {list : List α}, delimiter.Unbroken list → delimiter.pieces list = [list]
  | [], _ => rfl
  | [_], _ => rfl
  | symbol :: next :: rest, unbroken => by
    obtain ⟨different, tailUnbroken⟩ := (delimiter.unbroken_cons_cons symbol next rest).mp unbroken
    rw [pieces, if_neg different, pieces_of_unbroken tailUnbroken]
    rfl

theorem pieces_append : ∀ front back : List α,
    delimiter.pieces (front ++ (delimiter.symbols ++ back)) =
      delimiter.pieces front ++ delimiter.pieces back
  | [], back => by simp [symbols, pieces]
  | [symbol], back => by
    have different : ¬ (symbol = delimiter.first ∧ delimiter.first = delimiter.second) :=
      fun same => delimiter.distinct same.2
    simp [symbols, pieces, different]
  | symbol :: next :: rest, back => by
    have tailSplit := pieces_append (next :: rest) back
    simp only [List.cons_append, pieces] at tailSplit ⊢
    split
    · rw [pieces_append rest back, List.cons_append]
    · rw [tailSplit]
      cases tailPieces : delimiter.pieces (next :: rest) with
      | nil => exact absurd tailPieces (delimiter.pieces_ne_nil _)
      | cons piece more => rfl

theorem pieces_dropLast_append : ∀ front back : List α,
    (delimiter.pieces front).dropLast <+: (delimiter.pieces (front ++ back)).dropLast
  | [], _ => by simp [pieces]
  | [_], _ => by simp [pieces]
  | symbol :: next :: rest, back => by
    have later := pieces_dropLast_append (next :: rest) back
    simp only [List.cons_append, pieces] at later ⊢
    split
    · -- the two symbols are a delimiter: a piece ends here on both sides
      rw [List.dropLast_cons_of_ne_nil (delimiter.pieces_ne_nil _),
        List.dropLast_cons_of_ne_nil (delimiter.pieces_ne_nil _), List.cons_prefix_cons]
      exact ⟨rfl, pieces_dropLast_append rest back⟩
    · -- the symbol joins the first piece on both sides
      cases front : delimiter.pieces (next :: rest) with
      | nil => exact absurd front (delimiter.pieces_ne_nil _)
      | cons piece pieces =>
        cases pieces with
        | nil => simp
        | cons second pieces =>
          cases both : delimiter.pieces (next :: (rest ++ back)) with
          | nil => exact absurd both (delimiter.pieces_ne_nil _)
          | cons first others =>
            rw [front, both] at later
            cases others with
            | nil => simp at later
            | cons other others =>
              simp only [List.dropLast_cons_cons, List.cons_prefix_cons, List.modifyHead_cons] at later ⊢
              exact ⟨congrArg _ later.1, later.2⟩

@[simp] theorem fields_nil : delimiter.fields [] = [] := by simp [fields, pieces]

theorem fields_append (front back : List α) :
    delimiter.fields (front ++ (delimiter.symbols ++ back)) =
      delimiter.fields front ++ delimiter.fields back := by
  simp [fields, pieces_append]

theorem fields_of_unbroken {list : List α} (unbroken : delimiter.Unbroken list) :
    delimiter.fields list = if list = [] then [] else [list] := by
  rw [fields, delimiter.pieces_of_unbroken unbroken]
  by_cases empty : list = [] <;> simp [empty]

theorem fields_append_symbols (front : List α) :
    delimiter.fields (front ++ delimiter.symbols) = delimiter.fields front := by
  simpa using delimiter.fields_append front []

end Cutting

/-! ## Text rendered line by line -/

/-- Every line followed by the delimiter. -/
def render (lines : List (List α)) : List α := lines.flatMap (· ++ delimiter.symbols)

@[simp] theorem render_nil : delimiter.render [] = [] := rfl

theorem render_cons (line : List α) (lines : List (List α)) :
    delimiter.render (line :: lines) = line ++ (delimiter.symbols ++ delimiter.render lines) := by
  simp [render]

theorem render_append (front back : List (List α)) :
    delimiter.render (front ++ back) = delimiter.render front ++ delimiter.render back := by
  simp [render]

variable [DecidableEq α]

theorem pieces_render_append {lines : List (List α)} (unbroken : ∀ line ∈ lines, delimiter.Unbroken line)
    (rest : List α) :
    delimiter.pieces (delimiter.render lines ++ rest) = lines ++ delimiter.pieces rest := by
  induction lines with
  | nil => simp
  | cons line lines inductionHypothesis =>
    have tail := inductionHypothesis fun other member => unbroken other (List.mem_cons_of_mem _ member)
    rw [render_cons, List.append_assoc, List.append_assoc, pieces_append, tail,
      delimiter.pieces_of_unbroken (unbroken line List.mem_cons_self)]
    rfl

/-- Rendering undoes cutting. -/
theorem render_pieces : ∀ list : List α, delimiter.render (delimiter.pieces list) = list ++ delimiter.symbols
  | [] => by simp [pieces, render]
  | [symbol] => by simp [pieces, render]
  | symbol :: next :: rest => by
    simp only [pieces]
    split
    · rename_i same
      rw [render_cons, render_pieces rest, same.1, same.2]
      simp [symbols]
    · have later := render_pieces (next :: rest)
      cases cut : delimiter.pieces (next :: rest) with
      | nil => exact absurd cut (delimiter.pieces_ne_nil _)
      | cons piece more =>
        rw [cut, render_cons] at later
        rw [List.modifyHead_cons, render_cons, List.cons_append, later]
        rfl

/-- The lines that a delimiter has ended. -/
def completeLines (list : List α) : List (List α) := (delimiter.pieces list).dropLast

/-- What stands behind the last delimiter: the whole list when there is none. -/
def tail (list : List α) : List α := (delimiter.pieces list).getLast (delimiter.pieces_ne_nil list)

theorem completeLines_append_tail (list : List α) :
    delimiter.completeLines list ++ [delimiter.tail list] = delimiter.pieces list :=
  List.dropLast_append_getLast (delimiter.pieces_ne_nil list)

theorem render_completeLines_append (list : List α) :
    delimiter.render (delimiter.completeLines list) ++ delimiter.tail list = list := by
  have whole := delimiter.render_pieces list
  rw [← completeLines_append_tail, render_append, render_cons, render_nil, List.append_nil,
    ← List.append_assoc] at whole
  exact List.append_cancel_right whole

theorem head_of_pieces {symbol : α} {rest piece : List α} {more : List (List α)}
    (cut : delimiter.pieces (symbol :: rest) = piece :: more) : piece = [] ∨ piece.head? = some symbol := by
  cases rest with
  | nil =>
    cases cut
    exact .inr rfl
  | cons next rest =>
    rw [pieces] at cut
    split at cut
    · cases cut
      exact .inl rfl
    · cases later : delimiter.pieces (next :: rest) with
      | nil => exact absurd later (delimiter.pieces_ne_nil _)
      | cons first others =>
        rw [later] at cut
        cases cut
        exact .inr rfl

theorem unbroken_of_mem_pieces : ∀ {list piece : List α}, piece ∈ delimiter.pieces list → delimiter.Unbroken piece
  | [], piece, member => by
    rw [List.mem_singleton.mp member]
    exact delimiter.unbroken_nil
  | [symbol], piece, member => by
    rw [List.mem_singleton.mp member]
    exact delimiter.unbroken_singleton symbol
  | symbol :: next :: rest, piece, member => by
    rw [pieces] at member
    split at member
    · cases List.mem_cons.mp member with
      | inl empty => exact empty ▸ delimiter.unbroken_nil
      | inr later => exact unbroken_of_mem_pieces later
    · rename_i different
      cases cut : delimiter.pieces (next :: rest) with
      | nil => exact absurd cut (delimiter.pieces_ne_nil _)
      | cons first others =>
        rw [cut] at member
        cases List.mem_cons.mp member with
        | inr later => exact unbroken_of_mem_pieces (cut ▸ List.mem_cons_of_mem _ later)
        | inl joined =>
          have firstUnbroken : delimiter.Unbroken first :=
            unbroken_of_mem_pieces (cut ▸ List.mem_cons_self)
          rw [joined]
          cases first with
          | nil => exact delimiter.unbroken_singleton symbol
          | cons head others =>
            -- the joined piece goes on with `next`, so no delimiter arises
            have isNext : head = next := by simpa using delimiter.head_of_pieces cut
            rw [unbroken_cons_cons, isNext]
            exact ⟨different, isNext ▸ firstUnbroken⟩

theorem unbroken_tail (list : List α) : delimiter.Unbroken (delimiter.tail list) :=
  delimiter.unbroken_of_mem_pieces (List.getLast_mem _)

theorem pieces_append_tail (front back : List α) :
    delimiter.pieces (front ++ back) =
      delimiter.completeLines front ++ delimiter.pieces (delimiter.tail front ++ back) := by
  have unbroken : ∀ line ∈ delimiter.completeLines front, delimiter.Unbroken line := fun line member =>
    delimiter.unbroken_of_mem_pieces (List.dropLast_subset _ member)
  have cut := delimiter.pieces_render_append unbroken (delimiter.tail front ++ back)
  rwa [← List.append_assoc, render_completeLines_append] at cut

theorem completeLines_append_and_tail_append (front back : List α) :
    delimiter.completeLines (front ++ back) =
        delimiter.completeLines front ++ delimiter.completeLines (delimiter.tail front ++ back) ∧
      delimiter.tail (front ++ back) = delimiter.tail (delimiter.tail front ++ back) := by
  have cut := delimiter.pieces_append_tail front back
  rw [← completeLines_append_tail, ← completeLines_append_tail, ← List.append_assoc] at cut
  obtain ⟨lines, last⟩ := List.append_inj' cut rfl
  exact ⟨lines, List.singleton_inj.mp last⟩

theorem completeLines_append (front back : List α) :
    delimiter.completeLines (front ++ back) =
      delimiter.completeLines front ++ delimiter.completeLines (delimiter.tail front ++ back) :=
  (delimiter.completeLines_append_and_tail_append front back).1

theorem tail_append (front back : List α) :
    delimiter.tail (front ++ back) = delimiter.tail (delimiter.tail front ++ back) :=
  (delimiter.completeLines_append_and_tail_append front back).2

theorem completeLines_of_unbroken {list : List α} (unbroken : delimiter.Unbroken list) :
    delimiter.completeLines list = [] := by
  rw [completeLines, delimiter.pieces_of_unbroken unbroken]
  rfl

theorem tail_of_unbroken {list : List α} (unbroken : delimiter.Unbroken list) : delimiter.tail list = list := by
  simp only [tail, delimiter.pieces_of_unbroken unbroken, List.getLast_singleton]

@[simp] theorem tail_nil : delimiter.tail [] = [] := rfl

@[simp] theorem completeLines_nil : delimiter.completeLines [] = [] := rfl

theorem exists_of_mem_completeLines {list line : List α} (member : line ∈ delimiter.completeLines list) :
    ∃ before after, list = before ++ line ++ delimiter.symbols ++ after ∧
      (before = [] ∨ delimiter.symbols <:+ before) := by
  obtain ⟨front, back, split⟩ := List.append_of_mem member
  have joined := delimiter.render_completeLines_append list
  rw [split, render_append, render_cons] at joined
  refine ⟨delimiter.render front, delimiter.render back ++ delimiter.tail list, ?_, ?_⟩
  · simp only [List.append_assoc] at joined ⊢
    exact joined.symm
  · obtain rfl | ⟨earlier, last, rfl⟩ := List.eq_nil_or_concat front
    · exact .inl rfl
    · right
      rw [List.concat_eq_append, render_append, render_cons, render_nil, List.append_nil, ← List.append_assoc]
      exact List.suffix_append _ _

theorem completeLines_render {lines : List (List α)} (unbroken : ∀ line ∈ lines, delimiter.Unbroken line) :
    delimiter.completeLines (delimiter.render lines) = lines := by
  have cut := delimiter.pieces_render_append unbroken []
  rw [List.append_nil] at cut
  rw [completeLines, cut]
  simp [pieces]

theorem exists_lastRange {list : List α} (broken : ¬ delimiter.Unbroken list) :
    ∃ front, lastRange delimiter.symbols list = some (front, delimiter.tail list) ∧
      list = front ++ (delimiter.symbols ++ delimiter.tail list) ∧
      delimiter.pieces front = delimiter.completeLines list := by
  cases found : lastRange delimiter.symbols list with
  | none =>
    have absent := (lastRange_eq_none_iff delimiter.symbols_ne_nil list).mp found
    exact absurd absent broken
  | some parts =>
    obtain ⟨front, back⟩ := parts
    obtain ⟨joined, unbroken⟩ := lastRange_eq_some delimiter.symbols_ne_nil found
    have cut : delimiter.pieces list = delimiter.pieces front ++ [back] := by
      rw [joined, List.append_assoc, pieces_append, delimiter.pieces_of_unbroken unbroken]
    have isTail : delimiter.tail list = back := by simp [tail, cut]
    refine ⟨front, by rw [isTail], ?_, ?_⟩
    · rw [isTail, ← List.append_assoc]
      exact joined
    · rw [completeLines, cut, List.dropLast_concat]

theorem fields_render {lines : List (List α)} (unbroken : ∀ line ∈ lines, delimiter.Unbroken line) :
    delimiter.fields (delimiter.render lines) = lines.filter (· ≠ []) := by
  have cut := delimiter.pieces_render_append unbroken []
  rw [List.append_nil] at cut
  simp [fields, cut, pieces]

end Delimiter

end Delimited
