import Mathlib.Data.List.Nodup
import Mathlib.Data.List.Infix

/-! # Records that are updated by key

A request puts a value for its key: into the first record that has the key, or into a new record
behind the others. With at most one record per key, a run of requests keeps every old record in
its place, and each record is what the requests for its key make of it.

* `mem_keys_upserts`, `nodup_upserts` — which keys have a record, and that they have one.
* `getElem?_upserts` — an old record afterwards.
* `last_upserts` — the last request for a key decides.
* `map_upserts` — a projection of the records follows the projected requests.
-/

namespace KeyedRecords

variable {α κ ρ : Type*} [DecidableEq κ] (key : α → κ)

/-- `put` makes the new record from the old one, if there is one. -/
def upsert (k : κ) (put : Option α → α) (records : List α) : List α :=
  match records.findIdx? (key · = k) with
  | some place => records.modify place fun record => put (some record)
  | none => records ++ [put none]

theorem findIdx?_of_nodup {records : List α} (unique : (records.map key).Nodup) {place : Nat} {record : α}
    (here : records[place]? = some record) : records.findIdx? (key · = key record) = some place := by
  obtain ⟨inside, atPlace⟩ := List.getElem?_eq_some_iff.mp here
  rw [List.findIdx?_eq_some_iff_getElem]
  refine ⟨inside, by simp [atPlace], fun earlier before => ?_⟩
  have different := (List.nodup_iff_getElem?_ne_getElem?.mp unique) earlier place before (by simpa using inside)
  rw [List.getElem?_map, List.getElem?_map, here, List.getElem?_eq_getElem (by omega)] at different
  simpa using different

theorem findIdx?_unknown {records : List α} {k : κ} (unknown : k ∉ records.map key) :
    records.findIdx? (key · = k) = none := by
  rw [List.findIdx?_eq_none_iff]
  intro record inside
  rw [decide_eq_false_iff_not]
  rintro rfl
  exact unknown (List.mem_map_of_mem inside)

theorem upsert_known {records : List α} (unique : (records.map key).Nodup) {place : Nat} {record : α}
    (here : records[place]? = some record) (put : Option α → α) :
    upsert key (key record) put records = records.modify place fun record => put (some record) := by
  rw [upsert, findIdx?_of_nodup key unique here]

theorem upsert_unknown {records : List α} {k : κ} (unknown : k ∉ records.map key) (put : Option α → α) :
    upsert key k put records = records ++ [put none] := by
  rw [upsert, findIdx?_unknown key unknown]

omit [DecidableEq κ] in
theorem exists_place {records : List α} {k : κ} (known : k ∈ records.map key) :
    ∃ (place : Nat) (record : α), records[place]? = some record ∧ key record = k := by
  obtain ⟨record, inside, rfl⟩ := List.mem_map.mp known
  obtain ⟨place, here⟩ := List.mem_iff_getElem?.mp inside
  exact ⟨place, record, here, rfl⟩

section OneRequest

variable {key} {records : List α} {k : κ} {put : Option α → α}

theorem keys_upsert (unique : (records.map key).Nodup) (keeps : ∀ record, key (put (some record)) = key record)
    (starts : key (put none) = k) :
    (upsert key k put records).map key = if k ∈ records.map key then records.map key else records.map key ++ [k] := by
  split
  · rename_i known
    obtain ⟨place, record, here, rfl⟩ := exists_place key known
    rw [upsert_known key unique here]
    apply List.ext_getElem?
    intro other
    rw [List.getElem?_map, List.getElem?_map, List.getElem?_modify]
    split
    · cases records[other]? with
      | none => rfl
      | some record => simp [keeps]
    · simp
  · rename_i unknown
    rw [upsert_unknown key unknown, List.map_append, List.map_singleton, starts]

/-- An old record: the request changes it exactly if it has the request's key. -/
theorem getElem?_upsert (unique : (records.map key).Nodup) {place : Nat} {record : α}
    (here : records[place]? = some record) :
    (upsert key k put records)[place]? = some (if key record = k then put (some record) else record) := by
  obtain ⟨inside, -⟩ := List.getElem?_eq_some_iff.mp here
  by_cases known : k ∈ records.map key
  · obtain ⟨other, found, there, rfl⟩ := exists_place key known
    rw [upsert_known key unique there, List.getElem?_modify, here]
    by_cases same : other = place
    · subst same
      rw [here] at there
      cases there
      simp
    · -- an unknown key makes a new record behind all the others
      have different : key record ≠ key found := by
        intro equal
        have placed := findIdx?_of_nodup key unique here
        rw [equal, findIdx?_of_nodup key unique there] at placed
        exact same (Option.some.inj placed)
      simp [same, different]
  · have different : key record ≠ k := by
      rintro rfl
      exact known (List.mem_map_of_mem (List.mem_of_getElem? here))
    rw [upsert_unknown key known, List.getElem?_append_left inside, here, if_neg different]

theorem mem_upsert (unique : (records.map key).Nodup) :
    ∃ old : Option α, (∀ record ∈ old, key record = k) ∧ put old ∈ upsert key k put records := by
  by_cases known : k ∈ records.map key
  · obtain ⟨place, record, here, rfl⟩ := exists_place key known
    have later := @getElem?_upsert α κ _ key records (key record) put unique place record here
    rw [if_pos rfl] at later
    exact ⟨some record, by simp, List.mem_of_getElem? later⟩
  · refine ⟨none, by simp, ?_⟩
    rw [upsert_unknown key known]
    simp

end OneRequest

/-! ## Runs -/

section Run

variable (keyOf : ρ → κ) (put : ρ → Option α → α)

def upserts (requests : List ρ) (records : List α) : List α :=
  requests.foldl (fun records request => upsert key (keyOf request) (put request) records) records

@[simp] theorem upserts_nil (records : List α) : upserts key keyOf put [] records = records := rfl

@[simp] theorem upserts_cons (request : ρ) (requests : List ρ) (records : List α) :
    upserts key keyOf put (request :: requests) records =
      upserts key keyOf put requests (upsert key (keyOf request) (put request) records) := rfl

theorem upserts_append (front back : List ρ) (records : List α) :
    upserts key keyOf put (front ++ back) records =
      upserts key keyOf put back (upserts key keyOf put front records) := by
  rw [upserts, List.foldl_append]
  rfl

variable {key} {keyOf} {put} {records : List α}
  (keeps : ∀ request record, key (put request (some record)) = key record)
  (starts : ∀ request, key (put request none) = keyOf request)

include keeps starts

theorem nodup_upsert (unique : (records.map key).Nodup) (request : ρ) :
    ((upsert key (keyOf request) (put request) records).map key).Nodup := by
  rw [keys_upsert unique (keeps request) (starts request)]
  split
  · exact unique
  · rename_i unknown
    refine List.nodup_append.mpr ⟨unique, List.nodup_singleton _, ?_⟩
    intro k inside other single same
    rw [List.mem_singleton.mp single] at same
    exact unknown (same ▸ inside)

theorem nodup_upserts (unique : (records.map key).Nodup) (requests : List ρ) :
    ((upserts key keyOf put requests records).map key).Nodup := by
  induction requests generalizing records with
  | nil => exact unique
  | cons request requests inductionHypothesis => exact inductionHypothesis (nodup_upsert keeps starts unique request)

theorem mem_keys_upserts (unique : (records.map key).Nodup) (requests : List ρ) {k : κ} :
    k ∈ (upserts key keyOf put requests records).map key ↔ k ∈ records.map key ∨ k ∈ requests.map keyOf := by
  induction requests generalizing records with
  | nil => simp
  | cons request requests inductionHypothesis =>
    rw [upserts_cons, inductionHypothesis (nodup_upsert keeps starts unique request),
      keys_upsert unique (keeps request) (starts request), List.map_cons, List.mem_cons]
    split
    · rename_i known
      constructor
      · rintro (old | later)
        · exact Or.inl old
        · exact Or.inr (Or.inr later)
      · rintro (old | rfl | later)
        · exact Or.inl old
        · exact Or.inl known
        · exact Or.inr later
    · rw [List.mem_append, List.mem_singleton, or_assoc]

/-- An old record keeps its place: the requests for its key change it one after another. -/
theorem getElem?_upserts (unique : (records.map key).Nodup) {place : Nat} {record : α}
    (here : records[place]? = some record) (requests : List ρ) :
    (upserts key keyOf put requests records)[place]? =
      some ((requests.filter (keyOf · = key record)).foldl (fun record request => put request (some record)) record) := by
  induction requests generalizing records record with
  | nil => exact here
  | cons request requests inductionHypothesis =>
    have step := @getElem?_upsert α κ _ key records (keyOf request) (put request) unique place record here
    have later := inductionHypothesis (nodup_upsert keeps starts unique request) step
    rw [upserts_cons, later]
    by_cases same : keyOf request = key record
    · rw [if_pos same.symm, List.filter_cons_of_pos (by simpa using same), List.foldl_cons, keeps]
    · rw [if_neg (Ne.symm same), List.filter_cons_of_neg (by simpa using same)]

theorem last_upserts (unique : (records.map key).Nodup) (front back : List ρ) (request : ρ)
    (last : keyOf request ∉ back.map keyOf) :
    ∃ old : Option α, (∀ record ∈ old, key record = keyOf request) ∧
      put request old ∈ upserts key keyOf put (front ++ request :: back) records := by
  have uniqueFront := nodup_upserts keeps starts unique front
  obtain ⟨old, ofKey, made⟩ := @mem_upsert α κ _ key _ (keyOf request) (put request) uniqueFront
  refine ⟨old, ofKey, ?_⟩
  obtain ⟨place, here⟩ := List.mem_iff_getElem?.mp made
  rw [upserts_append, upserts_cons]
  have hasKey : key (put request old) = keyOf request := by
    cases old with
    | none => exact starts request
    | some record => exact (keeps request record).trans (ofKey record rfl)
  have later := getElem?_upserts keeps starts (nodup_upsert keeps starts uniqueFront request) here back
  -- no later request is for this key
  have untouched : back.filter (keyOf · = key (put request old)) = [] := by
    rw [List.filter_eq_nil_iff]
    intro other inside
    rw [hasKey, decide_eq_true_eq]
    intro same
    exact last (same ▸ List.mem_map_of_mem inside)
  rw [untouched] at later
  exact List.mem_of_getElem? later

end Run

/-! ## Projections -/

section Projection

variable {β σ : Type*} {key} {keyOf : ρ → κ} {put : ρ → Option α → α} {otherKey : β → κ} {otherKeyOf : σ → κ}
  {otherPut : σ → Option β → β} {project : α → β} {projectRequest : ρ → σ}

theorem map_upsert (sameKey : ∀ record, otherKey (project record) = key record) (k : κ) {put : Option α → α}
    {otherPut : Option β → β} (samePut : ∀ old, project (put old) = otherPut (old.map project)) (records : List α) :
    (upsert key k put records).map project = upsert otherKey k otherPut (records.map project) := by
  have place : (records.map project).findIdx? (otherKey · = k) = records.findIdx? (key · = k) := by
    rw [List.findIdx?_map]
    simp only [Function.comp_def, sameKey]
  rw [upsert, upsert, place]
  cases records.findIdx? (key · = k) with
  | none => simp [samePut]
  | some place =>
    apply List.ext_getElem?
    intro other
    simp only [List.getElem?_map, List.getElem?_modify]
    split
    · cases records[other]? with
      | none => rfl
      | some record => simp [samePut]
    · simp

theorem map_upserts (sameKey : ∀ record, otherKey (project record) = key record)
    (sameKeyOf : ∀ request, otherKeyOf (projectRequest request) = keyOf request)
    (samePut : ∀ request old, project (put request old) = otherPut (projectRequest request) (old.map project))
    (requests : List ρ) (records : List α) :
    (upserts key keyOf put requests records).map project =
      upserts otherKey otherKeyOf otherPut (requests.map projectRequest) (records.map project) := by
  induction requests generalizing records with
  | nil => rfl
  | cons request requests inductionHypothesis =>
    rw [upserts_cons, inductionHypothesis, map_upsert sameKey _ (samePut request), List.map_cons, upserts_cons,
      sameKeyOf]

end Projection

end KeyedRecords
