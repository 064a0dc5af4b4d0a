/-
# Compdb.Proofs.Database.Commutation — lists of entries which can be merged in either order

Two lists of entries are apart when no key is in both (`Apart`). Merging one and then the other
leaves the same entry under every key, in whichever order (`Indexed.get?_append_comm`), and reports
the same outcomes, list by list (`Indexed.outcomes_of_apart`). The databases are not equal: new
keys stand in the order in which they were merged. What is stored before keeps its place
(`Indexed.keys_isPrefix_mergeAll`).

The entries of a database follow from its keys and its look-ups, as a list
(`Indexed.getElem?_entries`) and as a collection (`Indexed.perm_of_get?_eq`). So nothing has to be
followed through two runs but the look-ups, and those have a closed form (`Indexed.get?_mergeAll`).
-/
import Compdb.Proofs.Database.Agreement
import Compdb.Proofs.Database.Lookup
import Compdb.Proofs.Database.Outcomes
import Mathlib.Data.List.Perm.Basic

namespace Compdb.Database

set_option autoImplicit false

/-- No entry of the first list has the key of an entry of the second one. -/
def Apart (first second : List Entry) : Prop :=
  ∀ a ∈ first, ∀ b ∈ second, a.key ≠ b.key

instance (first second : List Entry) : Decidable (Apart first second) :=
  inferInstanceAs (Decidable (∀ a ∈ first, ∀ b ∈ second, a.key ≠ b.key))

namespace Apart

variable {first second : List Entry}

theorem symm (apart : Apart first second) : Apart second first :=
  fun b inSecond a inFirst same => apart a inFirst b inSecond same.symm

theorem reverse (apart : Apart first second) : Apart first.reverse second.reverse := by
  intro a inFirst b inSecond
  exact apart a (List.mem_reverse.mp inFirst) b (List.mem_reverse.mp inSecond)

/-- A key is searched in one of the two lists only. -/
theorem firstWith_append_comm (apart : Apart first second) (key : Key) :
    firstWith key (first ++ second) = firstWith key (second ++ first) := by
  have both : ∀ one other : List Entry,
      firstWith key (one ++ other) = (firstWith key one).or (firstWith key other) := by
    intro one other
    simp [firstWith, List.find?_append]
  rw [both, both]
  cases found : firstWith key first with
  | none => rw [Option.none_or, Option.or_none]
  | some a =>
      have inFirst : a ∈ first := mem_of_firstWith found
      have here : a.key = key := by simpa using List.find?_some found
      have absent : key ∉ second.map Entry.key := by
        intro old
        obtain ⟨b, inSecond, same⟩ := List.mem_map.mp old
        exact apart a inFirst b inSecond (here.trans same.symm)
      rw [firstWith_eq_none absent, Option.none_or, Option.or_none]

theorem winner_append_comm (apart : Apart first second) (policy : MergePolicy)
    (previous : List Entry) (key : Key) :
    winner policy previous (first ++ second) key =
      winner policy previous (second ++ first) key := by
  cases policy with
  | overwrite =>
      have last : lastWith key (first ++ second) = lastWith key (second ++ first) := by
        rw [lastWith, lastWith, List.reverse_append, List.reverse_append]
        exact apart.reverse.symm.firstWith_append_comm key
      rw [winner, winner, last]
  | skipExisting => rw [winner, winner, apart.firstWith_append_comm]

end Apart

namespace Indexed

variable {d d' : Database}

/-! ## What determines the entries -/

theorem mem_entries_iff (indexed : d.Indexed) (e : Entry) :
    e ∈ d.entries ↔ d.get? e.directory e.file = some e := by
  refine ⟨indexed.get?_of_mem, fun found => ?_⟩
  rw [indexed.get?_eq_firstWith] at found
  exact mem_of_firstWith found

/-- The entry at a position is the one which is found under the key at this position. -/
theorem getElem?_entries (indexed : d.Indexed) (i : Nat) :
    d.entries[i]? = d.keys[i]?.bind fun key => d.get? key.directory key.file := by
  rw [keys, List.getElem?_map]
  cases place : d.entries[i]? with
  | none => rfl
  | some e => exact (indexed.get?_of_mem (List.mem_of_getElem? place)).symm

/-- Databases with the same look-ups hold the same entries, maybe in another order. -/
theorem perm_of_get?_eq (indexed : d.Indexed) (indexed' : d'.Indexed)
    (same : ∀ directory file, d.get? directory file = d'.get? directory file) :
    d.entries.Perm d'.entries := by
  have distinct : d.entries.Nodup := indexed.nodup.of_map
  have distinct' : d'.entries.Nodup := indexed'.nodup.of_map
  rw [List.perm_ext_iff_of_nodup distinct distinct']
  intro e
  rw [indexed.mem_entries_iff, indexed'.mem_entries_iff, same]

/-! ## Look-ups and keys after merging -/

variable (indexed : d.Indexed)
include indexed

/-- What is found under a key is its winner. -/
theorem get?_mergeAll (merged : List Entry) (directory file : Text) :
    (d.mergeAll merged).get? directory file =
      winner d.policy d.entries merged ⟨directory, file⟩ := by
  have after := indexed.mergeAll merged
  rw [after.get?_eq_firstWith]
  cases found : firstWith ⟨directory, file⟩ (d.mergeAll merged).entries with
  | some e =>
      have here : e.key = ⟨directory, file⟩ := by simpa using List.find?_some found
      have member := mem_of_firstWith found
      rw [indexed.entries_mergeAll_eq] at member
      rw [← here]
      exact (winner_of_mem_mergeAll member).symm
  | none =>
      -- a winner would be stored, and found
      cases won : winner d.policy d.entries merged ⟨directory, file⟩ with
      | none => rfl
      | some e =>
          exfalso
          have offered : e ∈ d.entries ++ merged := List.mem_append.mpr (mem_of_winner won)
          have stored : e.key ∈ (d.mergeAll merged).keys := by
            rw [indexed.keys_mergeAll, List.mem_eraseDups]
            exact List.mem_map_of_mem offered
          obtain ⟨x, member, same⟩ := List.mem_map.mp stored
          have here := key_of_winner won
          have missing := List.find?_eq_none.mp found x member
          exact missing (by simp [same, here])

theorem mem_keys_mergeAll (merged : List Entry) (key : Key) :
    key ∈ (d.mergeAll merged).keys ↔ key ∈ d.keys ∨ key ∈ merged.map Entry.key := by
  rw [indexed.keys_mergeAll, List.mem_eraseDups, List.map_append, List.mem_append, keys]

/-- The keys which are stored keep their places. -/
theorem keys_isPrefix_mergeAll (merged : List Entry) : d.keys <+: (d.mergeAll merged).keys := by
  induction merged using List.reverseRecOn with
  | nil => exact List.prefix_rfl
  | append_singleton merged e ih =>
      rw [mergeAll_concat, keys_merge (indexed.mergeAll merged)]
      split
      · exact ih
      · exact ih.trans (List.prefix_append _ _)

omit indexed in
/-- The outcomes are up to the policy and to which keys are stored. -/
theorem outcomes_congr {entries : List Entry} (indexed : d.Indexed) (indexed' : d'.Indexed)
    (policy : d'.policy = d.policy)
    (same : ∀ e ∈ entries, e.key ∈ d'.keys ↔ e.key ∈ d.keys) :
    d'.outcomes entries = d.outcomes entries := by
  induction entries generalizing d d' with
  | nil => rfl
  | cons e entries ih =>
      rw [List.forall_mem_cons] at same
      obtain ⟨first, others⟩ := same
      have step : ∀ {d : Database}, d.Indexed → ∀ key,
          key ∈ (d.merge e).1.keys ↔ key ∈ d.keys ∨ key ∈ [e].map Entry.key :=
        fun indexed key => indexed.mem_keys_mergeAll [e] key
      have rest : (d'.merge e).1.outcomes entries = (d.merge e).1.outcomes entries := by
        apply ih (indexed.merge e) (indexed'.merge e)
        · rw [policy_merge indexed, policy_merge indexed', policy]
        · intro other member
          rw [step indexed, step indexed', others other member]
      rw [outcomes, outcomes, rest, indexed.outcome_merge, indexed'.outcome_merge, policy]
      simp only [first]

/-! ## Either order -/

variable {first second : List Entry} (apart : Apart first second)
include apart

/-- The same entry is found under every key, in whichever order the lists are merged. -/
theorem get?_append_comm (directory file : Text) :
    (d.mergeAll (first ++ second)).get? directory file =
      (d.mergeAll (second ++ first)).get? directory file := by
  rw [indexed.get?_mergeAll, indexed.get?_mergeAll, apart.winner_append_comm]

/-- So the positions which were taken before hold the same entries in both orders. -/
theorem getElem?_append_comm {i : Nat} (taken : i < d.size) :
    (d.mergeAll (first ++ second)).entries[i]? = (d.mergeAll (second ++ first)).entries[i]? := by
  have sameKey : ∀ merged, (d.mergeAll merged).keys[i]? = d.keys[i]? := by
    intro merged
    obtain ⟨more, whole⟩ := indexed.keys_isPrefix_mergeAll merged
    rw [← whole]
    exact List.getElem?_append_left (by rwa [length_keys])
  rw [(indexed.mergeAll _).getElem?_entries, (indexed.mergeAll _).getElem?_entries, sameKey,
    sameKey]
  exact congrArg _ (funext fun key => indexed.get?_append_comm apart key.directory key.file)

/-- The outcomes of a list are not changed by merging another one before it. -/
theorem outcomes_of_apart : (d.mergeAll first).outcomes second = d.outcomes second := by
  apply indexed.outcomes_congr (indexed.mergeAll first) (policy_mergeAll indexed first)
  intro b inSecond
  have new : b.key ∉ first.map Entry.key := by
    intro old
    obtain ⟨a, inFirst, same⟩ := List.mem_map.mp old
    exact apart a inFirst b inSecond same
  rw [indexed.mem_keys_mergeAll, or_iff_left new]

end Indexed

end Compdb.Database
