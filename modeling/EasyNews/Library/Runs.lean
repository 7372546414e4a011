import Mathlib.Data.List.Induction
import Mathlib.Data.List.Infix

/-! # Runs of a step function

A run is the fold of `step` over its inputs; its front parts are the moments of the run.

* `invariant_foldl` — what every step keeps holds at the end; `invariant_foldl_of_mem` asks it of the
  steps of the run only, `invariant_foldlM` and `invariant_foldlM_of_mem` of those that succeed.
* `foldl_prefixes_iff` — when each step keeps a property exactly under a condition, the property
  holds at every moment of a run exactly if each of its steps meets the condition.
-/

namespace Runs

variable {σ ι : Type*} (step : σ → ι → σ)

theorem invariant_foldl_of_mem {invariant : σ → Prop} {inputs : List ι}
    (keeps : ∀ state, ∀ input ∈ inputs, invariant state → invariant (step state input))
    {start : σ} (holds : invariant start) : invariant (inputs.foldl step start) := by
  induction inputs generalizing start with
  | nil => exact holds
  | cons input inputs inductionHypothesis =>
    have next := keeps start input List.mem_cons_self holds
    exact inductionHypothesis (fun state other inside => keeps state other (List.mem_cons_of_mem _ inside)) next

theorem invariant_foldl {invariant : σ → Prop} (keeps : ∀ state input, invariant state → invariant (step state input))
    {start : σ} (holds : invariant start) (inputs : List ι) : invariant (inputs.foldl step start) :=
  invariant_foldl_of_mem step (fun state input _ => keeps state input) holds

theorem foldl_prefixes_iff {invariant good : σ → Prop} {condition : σ → ι → Prop}
    (keeps : ∀ state input, invariant state → invariant (step state input))
    (keepsGood : ∀ state input, invariant state → good state →
      (good (step state input) ↔ condition state input))
    {start : σ} (holds : invariant start) (goodStart : good start) (inputs : List ι) :
    (∀ front, front <+: inputs → good (front.foldl step start)) ↔
      ∀ front input, front ++ [input] <+: inputs → condition (front.foldl step start) input := by
  constructor
  · intro always front input inside
    have earlier := always front ((List.prefix_append _ _).trans inside)
    have later := always (front ++ [input]) inside
    rw [List.foldl_append] at later
    exact (keepsGood _ input (invariant_foldl step keeps holds front) earlier).mp later
  · intro meets front
    induction front using List.reverseRecOn with
    | nil => exact fun _ => goodStart
    | append_singleton front input inductionHypothesis =>
      intro inside
      have earlier := inductionHypothesis ((List.prefix_append _ _).trans inside)
      rw [List.foldl_append]
      exact (keepsGood _ input (invariant_foldl step keeps holds front) earlier).mpr (meets front input inside)

/-- A run whose steps may fail: what every step that succeeds keeps holds at the end. -/
theorem invariant_foldlM_of_mem {step : σ → ι → Option σ} {invariant : σ → Prop} {inputs : List ι}
    (keeps : ∀ state, ∀ input ∈ inputs, ∀ later, step state input = some later → invariant state → invariant later)
    {start finish : σ} (run : inputs.foldlM step start = some finish) (holds : invariant start) : invariant finish := by
  induction inputs generalizing start with
  | nil =>
    cases run
    exact holds
  | cons input inputs inductionHypothesis =>
    rw [List.foldlM_cons, Option.bind_eq_bind, Option.bind_eq_some_iff] at run
    obtain ⟨middle, stepped, rest⟩ := run
    have next := keeps start input List.mem_cons_self middle stepped holds
    exact inductionHypothesis (fun state other inside => keeps state other (List.mem_cons_of_mem _ inside)) rest next

theorem invariant_foldlM {step : σ → ι → Option σ} {invariant : σ → Prop}
    (keeps : ∀ state input later, step state input = some later → invariant state → invariant later)
    {inputs : List ι} {start finish : σ} (run : inputs.foldlM step start = some finish) (holds : invariant start) :
    invariant finish :=
  invariant_foldlM_of_mem (fun state input _ => keeps state input) run holds

/-- Own steps are taken by the part as well, and all others leave it related to the state. -/
theorem relation_foldlM {τ : Type*} {step : σ → ι → Option σ} {alone : τ → ι → τ} {own : ι → Bool}
    {invariant : σ → Prop} {relation : σ → τ → Prop}
    (keeps : ∀ state input later, step state input = some later → invariant state → invariant later)
    (follows : ∀ state input later part, own input = true → step state input = some later → invariant state →
      relation state part → relation later (alone part input))
    (ignores : ∀ state input later part, own input = false → step state input = some later → invariant state →
      relation state part → relation later part)
    {inputs : List ι} {start finish : σ} {part : τ} (run : inputs.foldlM step start = some finish)
    (holds : invariant start) (related : relation start part) :
    relation finish ((inputs.filter own).foldl alone part) := by
  induction inputs generalizing start part with
  | nil =>
    cases run
    exact related
  | cons input inputs inductionHypothesis =>
    rw [List.foldlM_cons, Option.bind_eq_bind, Option.bind_eq_some_iff] at run
    obtain ⟨middle, stepped, rest⟩ := run
    have next := keeps start input middle stepped holds
    cases mine : own input with
    | true =>
      rw [List.filter_cons_of_pos mine]
      exact inductionHypothesis rest next (follows start input middle part mine stepped holds related)
    | false =>
      rw [List.filter_cons_of_neg (by simp [mine])]
      exact inductionHypothesis rest next (ignores start input middle part mine stepped holds related)

end Runs
