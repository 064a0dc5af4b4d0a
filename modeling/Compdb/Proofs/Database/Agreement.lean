/-
# Compdb.Proofs.Database.Agreement — databases which merge alike

What merging does to the entries depends on the entries and the policy alone. The index has to
give the positions of the keys, but how it was built makes no difference (`Agrees`). In
particular a database merges like the one which is restored from its entries
(`Indexed.agrees_ofEntries`), and what is known of restored databases holds of all.

So the entries after some merges have a closed form for every database, and from it follows that
merging the same entries once more changes nothing (`Indexed.entries_mergeAll_again`): a key which
was merged with several entries goes through all of them again, and ends with the same one.
-/
import Compdb.Proofs.Database.Merging

namespace Compdb

set_option autoImplicit false

namespace Database

/-- Two databases hold the same entries under the same policy; their indexes may have been built
in different ways. -/
structure Agrees (d d' : Database) : Prop where
  entries : d'.entries = d.entries
  policy : d'.policy = d.policy

variable {d d' : Database}

namespace Agrees

theorem merge (agrees : d.Agrees d') (indexed : d.Indexed) (indexed' : d'.Indexed) (e : Entry) :
    (d.merge e).1.Agrees (d'.merge e).1 := by
  -- with the same keys, both append the entry, or both look at the one position of its key
  have sameKeys : d'.keys = d.keys := by rw [keys, keys, agrees.entries]
  rcases indexed.merge_cases e with ⟨new, same⟩ | ⟨position, place, kind⟩
  · rcases indexed'.merge_cases e with ⟨-, same'⟩ | ⟨position', place', -⟩
    · rw [same, same']
      refine ⟨?_, agrees.policy⟩
      show d'.entries ++ [e] = d.entries ++ [e]
      rw [agrees.entries]
    · rw [sameKeys] at place'
      exact absurd (List.mem_of_getElem? place') new
  · rcases indexed'.merge_cases e with ⟨new', -⟩ | ⟨position', place', kind'⟩
    · rw [sameKeys] at new'
      exact absurd (List.mem_of_getElem? place) new'
    · rw [sameKeys] at place'
      obtain rfl : position' = position := indexed.unique place' place
      rcases kind with ⟨overwrite, same⟩ | ⟨skip, same⟩
      · rcases kind' with ⟨-, same'⟩ | ⟨skip', -⟩
        · rw [same, same']
          exact ⟨by rw [agrees.entries], agrees.policy⟩
        · rw [agrees.policy, overwrite] at skip'
          cases skip'
      · rcases kind' with ⟨overwrite', -⟩ | ⟨-, same'⟩
        · rw [agrees.policy, skip] at overwrite'
          cases overwrite'
        · rw [same, same']
          exact agrees

theorem mergeAll (agrees : d.Agrees d') (indexed : d.Indexed) (indexed' : d'.Indexed)
    (merged : List Entry) : (d.mergeAll merged).Agrees (d'.mergeAll merged) := by
  induction merged generalizing d d' with
  | nil => exact agrees
  | cons e merged ih =>
      exact ih (agrees.merge indexed indexed' e) (indexed.merge e) (indexed'.merge e)

end Agrees

/-- Entries with distinct keys are all restored. -/
theorem entries_ofEntries {entries : List Entry} (distinct : (entries.map Entry.key).Nodup)
    (policy : MergePolicy) : (ofEntries entries policy).entries = entries := by
  induction entries using List.reverseRecOn with
  | nil => rfl
  | append_singleton entries e ih =>
      rw [List.map_append, List.map_singleton, List.nodup_append] at distinct
      obtain ⟨before, -, apart⟩ := distinct
      have restored := ih before
      have new : e.key ∉ (ofEntries entries policy).keys := by
        rw [keys, restored]
        intro old
        exact apart e.key old e.key (List.mem_singleton_self _) rfl
      rw [ofEntries_concat, (indexed_ofEntries entries policy).restore_eq, if_neg new, append,
        restored]

/-- A database is restored from its own entries. -/
theorem Indexed.agrees_ofEntries (indexed : d.Indexed) :
    d.Agrees (ofEntries d.entries d.policy) :=
  ⟨entries_ofEntries indexed.nodup d.policy, policy_ofEntries d.entries d.policy⟩

/-! ## Merging again -/

/-- The first entry of a key stays the first one, and the last one the last, when all are merged
again. -/
theorem winner_append_self (policy : MergePolicy) (previous merged : List Entry) (key : Key) :
    winner policy previous (merged ++ merged) key = winner policy previous merged key := by
  cases policy <;> simp [winner, lastWith, firstWith, List.find?_append]

/-- Entries which stand under the same keys, and which their keys determine, are the same. -/
theorem eq_of_map_key_eq {select : Key → Option Entry} {entries entries' : List Entry}
    (sameKeys : entries.map Entry.key = entries'.map Entry.key)
    (selected : ∀ e ∈ entries, select e.key = some e)
    (selected' : ∀ e ∈ entries', select e.key = some e) : entries = entries' := by
  have chosen : entries.map some = (entries.map Entry.key).map select := by
    rw [List.map_map]
    exact List.map_congr_left fun e member => (selected e member).symm
  have chosen' : entries'.map some = (entries'.map Entry.key).map select := by
    rw [List.map_map]
    exact List.map_congr_left fun e member => (selected' e member).symm
  rw [← sameKeys, ← chosen] at chosen'
  exact (List.map_injective_iff.mpr (fun _ _ => Option.some.inj) chosen').symm

namespace Indexed

variable (indexed : d.Indexed) (merged : List Entry)
include indexed

/-- The entries after some merges, as if those before had been restored. -/
theorem entries_mergeAll_eq : (d.mergeAll merged).entries =
    ((ofEntries d.entries d.policy).mergeAll merged).entries :=
  (indexed.agrees_ofEntries.mergeAll indexed (indexed_ofEntries _ _) merged).entries.symm

theorem keys_mergeAll :
    (d.mergeAll merged).keys = ((d.entries ++ merged).map Entry.key).eraseDups := by
  rw [keys, indexed.entries_mergeAll_eq]
  exact Database.keys_mergeAll d.entries merged d.policy

/-- Every merged key is stored afterwards. -/
theorem key_mem_keys_mergeAll {e : Entry} (member : e ∈ merged) :
    e.key ∈ (d.mergeAll merged).keys := by
  rw [indexed.keys_mergeAll, List.mem_eraseDups]
  exact List.mem_map_of_mem (List.mem_append_right d.entries member)

/-- **Merging again changes nothing.** -/
theorem entries_mergeAll_again :
    ((d.mergeAll merged).mergeAll merged).entries = (d.mergeAll merged).entries := by
  have sameKeys : (d.mergeAll (merged ++ merged)).keys = (d.mergeAll merged).keys := by
    rw [indexed.keys_mergeAll, indexed.keys_mergeAll, ← List.append_assoc, List.map_append]
    have known : ∀ key ∈ merged.map Entry.key, key ∈ (d.entries ++ merged).map Entry.key := by
      intro key member
      rw [List.map_append]
      exact List.mem_append_right _ member
    simpa using eraseDups_append_of_subset known []
  have winners : ∀ merged, ∀ e ∈ (d.mergeAll merged).entries,
      winner d.policy d.entries merged e.key = some e := by
    intro merged e member
    rw [indexed.entries_mergeAll_eq] at member
    exact winner_of_mem_mergeAll member
  rw [← mergeAll_append]
  refine eq_of_map_key_eq sameKeys ?_ (winners merged)
  intro e member
  rw [← winner_append_self]
  exact winners (merged ++ merged) e member

end Indexed

end Database

end Compdb
