/-
# Compdb.Proofs.Database.Lookup — a look-up is a search of the entries

Whatever was restored and merged so far (`Reachable`), the index of a database gives the
position of each key which is stored and of no other, and a look-up by the index finds what
a search through all entries would find (`Indexed.get?_eq_find?`). Both parts of a key are
compared on their own there, so two keys are different when only their concatenations agree.

What one merge does to such a database is said in full by `MergeEffect`: which positions stay,
which keys stay, and which outcome is reported. It is read off `Indexed.merge_cases`.
-/
import Compdb.Proofs.Database.Merging

namespace Compdb.Database

set_option autoImplicit false

/-- The databases which a policy leads to: the empty one, those of the entries of an earlier run,
and what merging makes of them. -/
inductive Reachable (policy : MergePolicy) : Database → Prop where
  | empty : Reachable policy (empty policy)
  | ofEntries (entries : List Entry) : Reachable policy (ofEntries entries policy)
  | merge {d : Database} (reached : Reachable policy d) (e : Entry) :
      Reachable policy (d.merge e).1

/-- What merging an entry under a policy may do, from the first database to the second. -/
structure MergeEffect (policy : MergePolicy) (d : Database) (e : Entry) (d' : Database)
    (outcome : Merge) : Prop where
  /-- The number of entries stays or grows by one. -/
  size : d'.size = d.size ∨ d'.size = d.size + 1
  /-- The key at each position stays. -/
  keys : d.keys <+: d'.keys
  /-- A position which changes is the one of the merged key, and has the merged entry then. -/
  changed : ∀ i : Nat, d'.entries[i]? ≠ d.entries[i]? →
    d'.keys[i]? = some e.key ∧ d'.entries[i]? = some e
  /-- The outcome tells whether the key was stored, and what the policy made of it then. -/
  reported : outcome =
    if e.key ∉ d.keys then Merge.added
    else match policy with
      | .overwrite => Merge.updated
      | .skipExisting => Merge.kept
  /-- Where the stored entry is kept, the whole database is. -/
  unchanged : outcome = Merge.kept → d' = d
  /-- Otherwise the merged entry is found under its key. -/
  stored : outcome ≠ Merge.kept → d'.get? e.directory e.file = some e

variable {d : Database} {policy : MergePolicy}

namespace Indexed

/-- A position in the index is one of the entries, and the entry there has the key. -/
theorem entry_of_index (indexed : d.Indexed) {key : Key} {position : Nat}
    (found : d.index[key]? = some position) :
    ∃ e, d.entries[position]? = some e ∧ e.key = key := by
  have place : d.keys[position]? = some key := (indexed key position).mp found
  rw [keys, List.getElem?_map] at place
  exact Option.map_eq_some_iff.mp place

/-- An entry at the position of a key is the first one with this key, since it is the only one. -/
theorem firstWith_eq_some (indexed : d.Indexed) {e : Entry} {position : Nat}
    (place : d.entries[position]? = some e) : firstWith e.key d.entries = some e := by
  obtain ⟨inside, here⟩ := List.getElem?_eq_some_iff.mp place
  rw [firstWith, List.find?_eq_some_iff_getElem]
  refine ⟨by simp, position, inside, here, ?_⟩
  intro earlier before
  have keyHere : d.keys[position]? = some e.key := by
    rw [keys, List.getElem?_map, place, Option.map_some]
  have different : d.entries[earlier].key ≠ e.key := by
    intro same
    have keyEarlier : d.keys[earlier]? = some e.key := by
      rw [keys, List.getElem?_map, List.getElem?_eq_getElem (by omega), Option.map_some, same]
    have := indexed.unique keyEarlier keyHere
    omega
  simpa using different

theorem get?_eq_firstWith (indexed : d.Indexed) (directory file : Text) :
    d.get? directory file = firstWith ⟨directory, file⟩ d.entries := by
  rw [get?]
  cases found : d.index[Key.mk directory file]? with
  | none =>
      have absent : Key.mk directory file ∉ d.keys := by
        rw [← indexed.mem_index, Std.HashMap.mem_iff_isSome_getElem?, found]
        simp
      exact (firstWith_eq_none absent).symm
  | some position =>
      obtain ⟨e, place, same⟩ := indexed.entry_of_index found
      rw [← same]
      exact place.trans (indexed.firstWith_eq_some place).symm

/-- A look-up finds what a search for both parts of the key finds. -/
theorem get?_eq_find? (indexed : d.Indexed) (directory file : Text) :
    d.get? directory file =
      d.entries.find? fun e => e.directory == directory && e.file == file := by
  have sameTest : (fun e : Entry => e.key == Key.mk directory file) =
      fun e => e.directory == directory && e.file == file := by
    funext e
    rw [Bool.eq_iff_iff]
    simp [Entry.key]
  rw [indexed.get?_eq_firstWith, firstWith, sameTest]

/-- An entry which stands somewhere is found under its key. -/
theorem get?_of_mem (indexed : d.Indexed) {e : Entry} (member : e ∈ d.entries) :
    d.get? e.directory e.file = some e := by
  obtain ⟨position, place⟩ := List.mem_iff_getElem?.mp member
  rw [indexed.get?_eq_firstWith]
  exact indexed.firstWith_eq_some place

/-- Appending an entry changes the position behind the last one. -/
theorem mergeEffect_append (indexed : d.Indexed) {e : Entry} (new : e.key ∉ d.keys) :
    MergeEffect d.policy d e (d.append e) .added := by
  have after : (d.append e).Indexed := indexed.append new
  have entries : (d.append e).entries = d.entries ++ [e] := rfl
  refine ⟨Or.inr ?_, ?_, ?_, by rw [if_pos new], by simp, fun _ => ?_⟩
  · simp [size, entries]
  · rw [keys_append]
    exact List.prefix_append _ _
  · intro i different
    -- before the last position nothing moved, and behind it nothing stands, before or after
    have last : i = d.entries.length := by
      by_contra elsewhere
      apply different
      rw [entries]
      rcases Nat.lt_or_gt_of_ne elsewhere with before | behind
      · exact List.getElem?_append_left before
      · rw [List.getElem?_eq_none (by simp; omega), List.getElem?_eq_none (by omega)]
    subst last
    simp [Database.keys, entries]
  · exact after.get?_of_mem (by simp [entries])

/-- Replacing the entry at the position of its key changes nothing else. -/
theorem mergeEffect_set (indexed : d.Indexed) (policy : d.policy = .overwrite) {e : Entry}
    {position : Nat} (place : d.keys[position]? = some e.key) :
    MergeEffect d.policy d e { d with entries := d.entries.set position e } .updated := by
  have after := indexed.set place
  have sameKeys : Database.keys { d with entries := d.entries.set position e } = d.keys :=
    map_key_set place
  have old : e.key ∈ d.keys := List.mem_of_getElem? place
  have inside : position < d.entries.length := by
    rw [← length_keys]
    exact (List.getElem?_eq_some_iff.mp place).1
  refine ⟨Or.inl ?_, ?_, ?_, by rw [if_neg (not_not_intro old), policy], by simp,
    fun _ => ?_⟩
  · simp [size]
  · exact sameKeys ▸ List.prefix_rfl
  · intro i different
    have here : position = i := by
      by_contra elsewhere
      exact different (List.getElem?_set_ne elsewhere)
    subst here
    rw [sameKeys]
    exact ⟨place, List.getElem?_set_self inside⟩
  · exact after.get?_of_mem (List.mem_set inside e)

theorem mergeEffect_kept (policy : d.policy = .skipExisting) {e : Entry} (old : e.key ∈ d.keys) :
    MergeEffect d.policy d e d .kept := by
  refine ⟨Or.inl rfl, List.prefix_rfl, ?_, by rw [if_neg (not_not_intro old), policy],
    fun _ => rfl, ?_⟩
  · intro i different
    exact absurd rfl different
  · intro other
    exact absurd rfl other

theorem mergeEffect (indexed : d.Indexed) (e : Entry) :
    MergeEffect d.policy d e (d.merge e).1 (d.merge e).2 := by
  rcases indexed.merge_cases e with ⟨new, same⟩ | ⟨position, place, ⟨policy, same⟩ | ⟨policy, same⟩⟩
  · rw [same]
    exact indexed.mergeEffect_append new
  · rw [same]
    exact indexed.mergeEffect_set policy place
  · rw [same]
    exact mergeEffect_kept policy (List.mem_of_getElem? place)

end Indexed

namespace Reachable

theorem indexed (reached : Reachable policy d) : d.Indexed := by
  induction reached with
  | empty => exact indexed_empty policy
  | ofEntries entries => exact indexed_ofEntries entries policy
  | merge _ e ih => exact ih.merge e

theorem policy_eq (reached : Reachable policy d) : d.policy = policy := by
  induction reached with
  | empty => rfl
  | ofEntries entries => exact policy_ofEntries entries policy
  | merge reached e ih => rw [policy_merge reached.indexed, ih]

end Reachable

/-- **Entries and index agree, always.** In every database which was restored and merged into, no
key is stored twice, and the index has the stored keys and gives each the position of its entry;
so a look-up is a search of the entries for the pair. Merging one more entry changes at most
the place of its key, and reports what happened. -/
theorem reachable_consistent (reached : Reachable policy d) :
    d.keys.Nodup ∧
      (∀ key, key ∈ d.index ↔ key ∈ d.keys) ∧
      (∀ (key : Key) (position : Nat), d.index[key]? = some position →
        ∃ e, d.entries[position]? = some e ∧ e.key = key) ∧
      (∀ directory file, d.get? directory file =
        d.entries.find? fun e => e.directory == directory && e.file == file) ∧
      ∀ e, MergeEffect policy d e (d.merge e).1 (d.merge e).2 := by
  have indexed := reached.indexed
  refine ⟨indexed.nodup, indexed.mem_index, ?_, indexed.get?_eq_find?, ?_⟩
  · intro key position found
    exact indexed.entry_of_index found
  · intro e
    rw [← reached.policy_eq]
    exact indexed.mergeEffect e

/-- Two keys with one concatenation, after a repeated key was left out: each is found on its own,
and a third key with the same concatenation is not found. -/
theorem reachable_consistent_concatenated :
    ∃ d : Database,
      d = ((ofEntries [⟨['a'], ['b', 'c'], [['x']]⟩, ⟨['a'], ['b', 'c'], [['y']]⟩] .overwrite).merge
        ⟨['a', 'b'], ['c'], [['z']]⟩).1 ∧
      Reachable .overwrite d ∧
      d.get? ['a'] ['b', 'c'] = some ⟨['a'], ['b', 'c'], [['x']]⟩ ∧
      d.get? ['a', 'b'] ['c'] = some ⟨['a', 'b'], ['c'], [['z']]⟩ ∧
      d.get? ['a', 'b', 'c'] [] = none := by
  have reached : Reachable .overwrite
      ((ofEntries [⟨['a'], ['b', 'c'], [['x']]⟩, ⟨['a'], ['b', 'c'], [['y']]⟩] .overwrite).merge
        ⟨['a', 'b'], ['c'], [['z']]⟩).1 := .merge (.ofEntries _) _
  have entries : ((ofEntries [⟨['a'], ['b', 'c'], [['x']]⟩, ⟨['a'], ['b', 'c'], [['y']]⟩]
      .overwrite).merge ⟨['a', 'b'], ['c'], [['z']]⟩).1.entries =
      [⟨['a'], ['b', 'c'], [['x']]⟩, ⟨['a', 'b'], ['c'], [['z']]⟩] := by
    cbv
  obtain ⟨-, -, -, search, -⟩ := reachable_consistent reached
  refine ⟨_, rfl, reached, ?_⟩
  rw [search, search, search, entries]
  decide

end Compdb.Database
