import Mathlib.Data.List.Nodup

/-! # First mentions

A catalogue takes in requests one after another and keeps those whose key it does not know yet.
`firsts` lists what it takes in.

* `mem_keys_firsts`, `nodup_firsts` — every requested key is known afterwards, and only once.
* `firsts_append` — requests may come in several parts.
* `mem_firsts_iff` — the request that is kept is the first one with its key.
-/

namespace FirstMention

variable {α κ : Type*} [DecidableEq κ] (key : α → κ)

/-- The requests whose key is neither among `seen` nor that of an earlier request. -/
def firsts (seen : List κ) : List α → List α
  | [] => []
  | request :: requests =>
    if key request ∈ seen then firsts seen requests
    else request :: firsts (seen ++ [key request]) requests

@[simp] theorem firsts_nil (seen : List κ) : firsts key seen [] = [] := rfl

theorem firsts_cons_of_mem {seen : List κ} {request : α} (known : key request ∈ seen)
    (requests : List α) : firsts key seen (request :: requests) = firsts key seen requests :=
  if_pos known

theorem firsts_cons_of_not_mem {seen : List κ} {request : α} (unknown : key request ∉ seen)
    (requests : List α) :
    firsts key seen (request :: requests) =
      request :: firsts key (seen ++ [key request]) requests :=
  if_neg unknown

theorem firsts_append (seen : List κ) (front back : List α) :
    firsts key seen (front ++ back) =
      firsts key seen front ++ firsts key (seen ++ (firsts key seen front).map key) back := by
  induction front generalizing seen with
  | nil => simp
  | cons request requests inductionHypothesis =>
    rw [List.cons_append]
    by_cases known : key request ∈ seen
    · rw [firsts_cons_of_mem key known, firsts_cons_of_mem key known, inductionHypothesis]
    · rw [firsts_cons_of_not_mem key known, firsts_cons_of_not_mem key known, inductionHypothesis]
      simp only [List.map_cons, List.append_assoc, List.cons_append, List.nil_append]

theorem mem_of_mem_firsts {seen : List κ} {requests : List α} {request : α}
    (kept : request ∈ firsts key seen requests) : request ∈ requests := by
  induction requests generalizing seen with
  | nil => exact kept
  | cons head requests inductionHypothesis =>
    by_cases known : key head ∈ seen
    · rw [firsts_cons_of_mem key known] at kept
      exact List.mem_cons_of_mem _ (inductionHypothesis kept)
    · rw [firsts_cons_of_not_mem key known, List.mem_cons] at kept
      rcases kept with rfl | kept
      · exact List.mem_cons_self
      · exact List.mem_cons_of_mem _ (inductionHypothesis kept)

theorem firsts_sublist (seen : List κ) (requests : List α) : (firsts key seen requests).Sublist requests := by
  induction requests generalizing seen with
  | nil => exact List.Sublist.refl []
  | cons request requests inductionHypothesis =>
    by_cases known : key request ∈ seen
    · rw [firsts_cons_of_mem key known]
      exact (inductionHypothesis seen).cons request
    · rw [firsts_cons_of_not_mem key known]
      exact (inductionHypothesis _).cons_cons request

/-- What is kept is the first request with its key, and nothing `seen` knew. -/
theorem mem_firsts_iff {seen : List κ} {requests : List α} {request : α} :
    request ∈ firsts key seen requests ↔
      key request ∉ seen ∧ requests.find? (key · = key request) = some request := by
  induction requests generalizing seen with
  | nil => simp
  | cons head requests inductionHypothesis =>
    rw [List.find?_cons]
    by_cases known : key head ∈ seen
    · rw [firsts_cons_of_mem key known, inductionHypothesis]
      by_cases same : key head = key request
      · simp [same ▸ known]
      · simp [same]
    · rw [firsts_cons_of_not_mem key known, List.mem_cons, inductionHypothesis]
      by_cases same : key head = key request
      · rw [← same]
        simp [known, eq_comm]
      · have different : request ≠ head := fun equal => same (by rw [equal])
        simp [same, different, Ne.symm same]

theorem mem_keys_firsts {seen : List κ} {requests : List α} {k : κ} :
    k ∈ (firsts key seen requests).map key ↔ k ∈ requests.map key ∧ k ∉ seen := by
  constructor
  · intro member
    obtain ⟨request, kept, rfl⟩ := List.mem_map.mp member
    exact ⟨List.mem_map_of_mem (mem_of_mem_firsts key kept), ((mem_firsts_iff key).mp kept).1⟩
  · rintro ⟨member, unknown⟩
    obtain ⟨request, requested, rfl⟩ := List.mem_map.mp member
    cases found : requests.find? (key · = key request) with
    | none =>
      have missed := List.find?_eq_none.mp found request requested
      simp at missed
    | some first =>
      have same : key first = key request := by simpa using List.find?_some found
      refine List.mem_map.mpr ⟨first, (mem_firsts_iff key).mpr ⟨?_, ?_⟩, same⟩
      · rw [same]
        exact unknown
      · rw [same]
        exact found

theorem nodup_firsts {seen : List κ} (distinct : seen.Nodup) (requests : List α) :
    (seen ++ (firsts key seen requests).map key).Nodup := by
  induction requests generalizing seen with
  | nil => simpa using distinct
  | cons request requests inductionHypothesis =>
    by_cases known : key request ∈ seen
    · rw [firsts_cons_of_mem key known]
      exact inductionHypothesis distinct
    · rw [firsts_cons_of_not_mem key known]
      have extended : (seen ++ [key request]).Nodup := by
        refine List.nodup_append.mpr ⟨distinct, List.nodup_singleton _, ?_⟩
        rintro k member other single rfl
        rw [List.mem_singleton] at single
        exact known (single ▸ member)
      simpa using inductionHypothesis extended

end FirstMention
