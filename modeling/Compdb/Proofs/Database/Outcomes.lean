/-
# Compdb.Proofs.Database.Outcomes — what merging entries reports

Each merge reports one outcome, so merging a list reports a list of them (`outcomes`). The
database grows by the entries which are reported as added (`size_mergeAll`). An entry whose key is
stored is never added; what is reported of it is up to the policy alone
(`MergePolicy.outcomeOfStored`), and so the other policy's outcome is never reported
(`Indexed.count_outcomes_eq_zero`). When all keys are stored, the policy decides all outcomes
(`Indexed.outcomes_of_stored`).
-/
import Compdb.Proofs.Database.Merging

namespace Compdb

set_option autoImplicit false

/-- What is reported of an entry whose key is stored already. -/
def MergePolicy.outcomeOfStored : MergePolicy → Merge
  | .overwrite => .updated
  | .skipExisting => .kept

namespace Database

/-- The outcomes of merging entries one after another, in order. -/
def outcomes (d : Database) : List Entry → List Merge
  | [] => []
  | e :: entries => (d.merge e).2 :: (d.merge e).1.outcomes entries

theorem length_outcomes (d : Database) (entries : List Entry) :
    (d.outcomes entries).length = entries.length := by
  induction entries generalizing d with
  | nil => rfl
  | cons e entries ih => simp [outcomes, ih]

theorem outcomes_append (d : Database) (entries more : List Entry) :
    d.outcomes (entries ++ more) = d.outcomes entries ++ (d.mergeAll entries).outcomes more := by
  induction entries generalizing d with
  | nil => rfl
  | cons e entries ih => simp [outcomes, mergeAll, ih]

namespace Indexed

variable {d : Database}

theorem size_merge (indexed : d.Indexed) (e : Entry) :
    (d.merge e).1.size = d.size + [(d.merge e).2].count .added := by
  rcases indexed.merge_cases e with ⟨-, same⟩ | ⟨position, -, ⟨-, same⟩ | ⟨-, same⟩⟩ <;>
    simp [same, size, Database.append]

/-- Every entry which is reported as added is one entry more. -/
theorem size_mergeAll (indexed : d.Indexed) (entries : List Entry) :
    (d.mergeAll entries).size = d.size + (d.outcomes entries).count .added := by
  induction entries generalizing d with
  | nil => rfl
  | cons e entries ih =>
      have rest := ih (indexed.merge e)
      rw [indexed.size_merge e] at rest
      have reported : d.outcomes (e :: entries) =
          [(d.merge e).2] ++ (d.merge e).1.outcomes entries := rfl
      rw [reported, List.count_append, ← Nat.add_assoc]
      exact rest

/-- An entry is added, or what the policy says about stored keys is reported of it. -/
theorem outcome_merge (indexed : d.Indexed) (e : Entry) :
    (d.merge e).2 = if e.key ∈ d.keys then d.policy.outcomeOfStored else .added := by
  rcases indexed.merge_cases e with ⟨new, same⟩ | ⟨position, place, ⟨policy, same⟩ | ⟨policy, same⟩⟩
  · rw [same, if_neg new]
  · rw [same, if_pos (List.mem_of_getElem? place), policy]
    rfl
  · rw [same, if_pos (List.mem_of_getElem? place), policy]
    rfl

theorem mem_outcomes (indexed : d.Indexed) {entries : List Entry} {outcome : Merge}
    (member : outcome ∈ d.outcomes entries) :
    outcome = .added ∨ outcome = d.policy.outcomeOfStored := by
  induction entries generalizing d with
  | nil => cases member
  | cons e entries ih =>
      rcases List.mem_cons.mp member with first | later
      · rw [first, indexed.outcome_merge]
        split
        · exact Or.inr rfl
        · exact Or.inl rfl
      · rw [← policy_merge indexed e]
        exact ih (indexed.merge e) later

theorem count_outcomes_eq_zero (indexed : d.Indexed) {outcome : Merge} (old : outcome ≠ .added)
    (other : outcome ≠ d.policy.outcomeOfStored) (entries : List Entry) :
    (d.outcomes entries).count outcome = 0 := by
  rw [List.count_eq_zero]
  intro member
  rcases indexed.mem_outcomes member with added | stored
  · exact old added
  · exact other stored

/-- Merging entries whose keys are stored adds nothing. -/
theorem outcomes_of_stored (indexed : d.Indexed) {entries : List Entry}
    (stored : ∀ e ∈ entries, e.key ∈ d.keys) :
    d.outcomes entries = List.replicate entries.length d.policy.outcomeOfStored := by
  induction entries generalizing d with
  | nil => rfl
  | cons e entries ih =>
      rw [List.forall_mem_cons] at stored
      obtain ⟨first, more⟩ := stored
      have sameKeys : (d.merge e).1.keys = d.keys := by
        rw [keys_merge indexed, if_pos first]
      have rest := ih (indexed.merge e) (by rwa [sameKeys])
      rw [policy_merge indexed] at rest
      rw [outcomes, indexed.outcome_merge, if_pos first, rest]
      rfl

end Indexed

end Database

end Compdb
