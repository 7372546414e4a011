import Mathlib.Data.List.Basic

/-! # Paths

The components of a path are steps from a directory: one separator or several end a component, a dot stays,
two dots climb. A directory is the list of the names that lead to it from the root, where climbing stays.

* `climbs` — what steps do from every directory: they climb a number of times and descend again.
* `isChild_walk_iff` — when steps lead from a directory to one of its children.
-/

namespace Paths

inductive Step (ν : Type*) where
  | stay
  | climb
  | descend (name : ν)
deriving DecidableEq, Repr

section Steps

variable {ν : Type*}

def Step.take (directory : List ν) : Step ν → List ν
  | .stay => directory
  | .climb => directory.dropLast
  | .descend name => directory ++ [name]

def walk (directory : List ν) (steps : List (Step ν)) : List ν := steps.foldl Step.take directory

/-- First up, then down. -/
structure Climbs (ν : Type*) where
  ups : Nat := 0
  downs : List ν := []
deriving DecidableEq, Repr

namespace Climbs

def run (climbs : Climbs ν) (directory : List ν) : List ν :=
  directory.take (directory.length - climbs.ups) ++ climbs.downs

def step (climbs : Climbs ν) : Step ν → Climbs ν
  | .stay => climbs
  | .climb =>
    match climbs.downs with
    | [] => { climbs with ups := climbs.ups + 1 }
    | _ :: _ => { climbs with downs := climbs.downs.dropLast }
  | .descend name => { climbs with downs := climbs.downs ++ [name] }

theorem run_step (climbs : Climbs ν) (directory : List ν) (step : Step ν) :
    (climbs.step step).run directory = step.take (climbs.run directory) := by
  cases step with
  | stay => rfl
  | climb =>
    obtain ⟨ups, downs⟩ := climbs
    cases downs with
    | nil =>
      -- another directory is left; at the root there is none
      simp only [Climbs.step, run, Step.take, List.append_nil, List.dropLast_eq_take, List.take_take, List.length_take]
      congr 1
      omega
    | cons name downs => exact (List.dropLast_append_of_ne_nil (List.cons_ne_nil name downs)).symm
  | descend name => exact (List.append_assoc _ climbs.downs [name]).symm

/-- The steps lead from the directory to a child. -/
def Returns (climbs : Climbs ν) (directory : List ν) : Prop :=
  climbs.downs ≠ [] ∧ climbs.downs.dropLast = directory.drop (directory.length - climbs.ups)

instance [DecidableEq ν] (climbs : Climbs ν) (directory : List ν) : Decidable (climbs.Returns directory) :=
  inferInstanceAs (Decidable (_ ∧ _))

theorem isChild_run_iff (climbs : Climbs ν) (directory : List ν) :
    (∃ child, climbs.run directory = directory ++ [child]) ↔ climbs.Returns directory := by
  have parts := List.take_append_drop (directory.length - climbs.ups) directory
  constructor
  · rintro ⟨child, isChild⟩
    rw [run] at isChild
    have same : climbs.downs = directory.drop (directory.length - climbs.ups) ++ [child] := by
      rw [← List.append_cancel_left_eq (directory.take (directory.length - climbs.ups)), ← List.append_assoc, parts]
      exact isChild
    rw [Returns, same]
    exact ⟨List.concat_ne_nil _ _, List.dropLast_concat⟩
  · rintro ⟨nonempty, returns⟩
    refine ⟨climbs.downs.getLast nonempty, ?_⟩
    calc climbs.run directory
        = directory.take (directory.length - climbs.ups) ++
            (climbs.downs.dropLast ++ [climbs.downs.getLast nonempty]) := by
          rw [List.dropLast_append_getLast nonempty]
          rfl
      _ = directory ++ [climbs.downs.getLast nonempty] := by
          rw [returns, ← List.append_assoc, parts]

end Climbs

def climbs (steps : List (Step ν)) : Climbs ν := steps.foldl Climbs.step {}

theorem run_foldl_step (steps : List (Step ν)) (start : Climbs ν) (directory : List ν) :
    (steps.foldl Climbs.step start).run directory = walk (start.run directory) steps := by
  induction steps generalizing start with
  | nil => rfl
  | cons step steps inductionHypothesis =>
    rw [List.foldl_cons, inductionHypothesis, Climbs.run_step]
    rfl

theorem run_climbs (steps : List (Step ν)) (directory : List ν) : (climbs steps).run directory = walk directory steps := by
  rw [climbs, run_foldl_step]
  simp [Climbs.run]

theorem isChild_walk_iff (steps : List (Step ν)) (directory : List ν) :
    (∃ child, walk directory steps = directory ++ [child]) ↔ (climbs steps).Returns directory := by
  rw [← run_climbs]
  exact (climbs steps).isChild_run_iff directory

end Steps

/-! ## Paths as texts -/

structure PathSyntax (σ : Type*) where
  separator : σ
  dot : σ

namespace PathSyntax

variable {σ : Type*} [DecidableEq σ] (paths : PathSyntax σ)

def stepOf (component : List σ) : Step (List σ) :=
  if component = [paths.dot] then .stay
  else if component = [paths.dot, paths.dot] then .climb
  else .descend component

def stepsOf (path : List σ) : List (Step (List σ)) :=
  ((path.splitOn paths.separator).filter (· ≠ [])).map paths.stepOf

/-- What a path from the root leads to. -/
def resolve (path : List σ) : List (List σ) := walk [] (paths.stepsOf path)

theorem stepsOf_append (front back : List σ) :
    paths.stepsOf (front ++ paths.separator :: back) = paths.stepsOf front ++ paths.stepsOf back := by
  rw [stepsOf, List.splitOn_append_cons_self, List.filter_append, List.map_append]
  rfl

theorem resolve_append (front back : List σ) :
    paths.resolve (front ++ paths.separator :: back) = walk (paths.resolve front) (paths.stepsOf back) := by
  rw [resolve, stepsOf_append, walk, List.foldl_append]
  rfl

/-- A path goes on from a directory to one of its children if the rest climbs and comes back. -/
theorem isChild_resolve_iff (directory rest : List σ) :
    (∃ child, paths.resolve (directory ++ paths.separator :: rest) = paths.resolve directory ++ [child]) ↔
      (climbs (paths.stepsOf rest)).Returns (paths.resolve directory) := by
  rw [resolve_append, isChild_walk_iff]

end PathSyntax

end Paths
