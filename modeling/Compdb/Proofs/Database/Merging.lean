/-
# Compdb.Proofs.Database.Merging — which entries a database holds in the end

The entries of a run are those of an earlier database, restored, and those which are merged
afterwards. The keys stand in the order of their first occurrence among all of them. Which
entry a key has depends on the phase and on the policy (`winner`): restoring keeps the
first one always, merging keeps the last one or the first one.

`entries_mergeAll` says so of every pair of lists. The two phases are two inductions over the
entries, each from its end; the step is `Indexed.merge_cases`.
-/
import Compdb.Proofs.Database.Index
import Compdb.Proofs.FirstOccurrence

namespace Compdb.Database

set_option autoImplicit false

/-- The first entry of a list with this key. -/
def firstWith (key : Key) (entries : List Entry) : Option Entry :=
  entries.find? fun e => e.key == key

/-- The last entry of a list with this key. -/
def lastWith (key : Key) (entries : List Entry) : Option Entry :=
  firstWith key entries.reverse

/-- The entry of a key after restoring some entries and merging others. -/
def winner (policy : MergePolicy) (previous merged : List Entry) (key : Key) : Option Entry :=
  match policy with
  | .overwrite => (lastWith key merged).or (firstWith key previous)
  | .skipExisting => (firstWith key previous).or (firstWith key merged)

/-! ## First and last -/

theorem firstWith_concat (key : Key) (entries : List Entry) (e : Entry) :
    firstWith key (entries ++ [e]) =
      (firstWith key entries).or (if e.key = key then some e else none) := by
  by_cases same : e.key = key <;> simp [firstWith, List.find?_append, same]

theorem lastWith_concat (key : Key) (entries : List Entry) (e : Entry) :
    lastWith key (entries ++ [e]) =
      (if e.key = key then some e else none).or (lastWith key entries) := by
  by_cases same : e.key = key <;> simp [lastWith, firstWith, same]

theorem firstWith_eq_none {key : Key} {entries : List Entry}
    (absent : key ∉ entries.map Entry.key) : firstWith key entries = none := by
  rw [firstWith, List.find?_eq_none]
  intro e member same
  exact absent (List.mem_map.mpr ⟨e, member, by simpa using same⟩)

theorem mem_of_firstWith {key : Key} {entries : List Entry} {e : Entry}
    (found : firstWith key entries = some e) : e ∈ entries :=
  List.mem_of_find?_eq_some found

theorem mem_of_winner {policy : MergePolicy} {previous merged : List Entry} {key : Key}
    {e : Entry} (found : winner policy previous merged key = some e) :
    e ∈ previous ∨ e ∈ merged := by
  cases policy <;> rw [winner, Option.or_eq_some_iff] at found
  · rcases found with late | ⟨-, early⟩
    · exact Or.inr (List.mem_reverse.mp (mem_of_firstWith late))
    · exact Or.inl (mem_of_firstWith early)
  · rcases found with early | ⟨-, late⟩
    · exact Or.inl (mem_of_firstWith early)
    · exact Or.inr (mem_of_firstWith late)

theorem key_of_winner {policy : MergePolicy} {previous merged : List Entry} {key : Key} {e : Entry}
    (found : winner policy previous merged key = some e) : e.key = key := by
  have test : ∀ {entries : List Entry}, firstWith key entries = some e → e.key = key := by
    intro entries here
    simpa using List.find?_some here
  cases policy <;> rw [winner, Option.or_eq_some_iff] at found
  · exact found.elim test fun late => test late.2
  · exact found.elim test fun late => test late.2

/-! ## One merge -/

variable {d : Database}

theorem keys_merge (indexed : d.Indexed) (e : Entry) :
    (d.merge e).1.keys = if e.key ∈ d.keys then d.keys else d.keys ++ [e.key] := by
  rcases indexed.merge_cases e with ⟨new, same⟩ | ⟨position, place, ⟨-, same⟩ | ⟨-, same⟩⟩
  · rw [same, if_neg new, keys_append]
  · rw [same, if_pos (List.mem_of_getElem? place)]
    exact map_key_set place
  · rw [same, if_pos (List.mem_of_getElem? place)]

theorem policy_merge (indexed : d.Indexed) (e : Entry) : (d.merge e).1.policy = d.policy := by
  rcases indexed.merge_cases e with ⟨-, same⟩ | ⟨position, -, ⟨-, same⟩ | ⟨-, same⟩⟩ <;>
    simp [same, append]

/-- Under `overwrite` the merged entry is the only one with its key. -/
theorem mem_merge_overwrite (indexed : d.Indexed) (policy : d.policy = .overwrite) {e x : Entry}
    (member : x ∈ (d.merge e).1.entries) : x = e ∨ x ∈ d.entries ∧ x.key ≠ e.key := by
  rcases indexed.merge_cases e with ⟨new, same⟩ | ⟨position, place, ⟨-, same⟩ | ⟨skip, -⟩⟩
  · rw [same] at member
    rcases List.mem_append.mp member with old | last
    · exact Or.inr ⟨old, fun key => new (key ▸ List.mem_map_of_mem old)⟩
    · exact Or.inl (List.mem_singleton.mp last)
  · rw [same] at member
    obtain ⟨i, found⟩ := List.mem_iff_getElem?.mp member
    by_cases here : position = i
    · subst here
      rw [List.getElem?_set, if_pos rfl] at found
      split at found
      · exact Or.inl (Option.some.inj found).symm
      · cases found
    · rw [List.getElem?_set_ne here] at found
      refine Or.inr ⟨List.mem_of_getElem? found, fun key => here ?_⟩
      exact indexed.unique place (by simp [keys, found, key])
  · rw [policy] at skip
    cases skip

/-- Under `skipExisting` the merged entry is added only when its key is new. -/
theorem mem_merge_skipExisting (indexed : d.Indexed) (policy : d.policy = .skipExisting)
    {e x : Entry} (member : x ∈ (d.merge e).1.entries) :
    x ∈ d.entries ∨ x = e ∧ e.key ∉ d.keys := by
  rcases indexed.merge_cases e with ⟨new, same⟩ | ⟨position, place, ⟨overwrite, -⟩ | ⟨-, same⟩⟩
  · rw [same] at member
    rcases List.mem_append.mp member with old | last
    · exact Or.inl old
    · exact Or.inr ⟨List.mem_singleton.mp last, new⟩
  · rw [policy] at overwrite
    cases overwrite
  · rw [same] at member
    exact Or.inl member

/-! ## Many merges -/

theorem mergeAll_concat (d : Database) (merged : List Entry) (e : Entry) :
    d.mergeAll (merged ++ [e]) = ((d.mergeAll merged).merge e).1 :=
  mergeAll_append d merged [e]

theorem ofEntries_concat (previous : List Entry) (e : Entry) (policy : MergePolicy) :
    ofEntries (previous ++ [e]) policy = (ofEntries previous policy).restore e := by
  simp [ofEntries]

theorem policy_ofEntries (previous : List Entry) (policy : MergePolicy) :
    (ofEntries previous policy).policy = policy := by
  induction previous using List.reverseRecOn with
  | nil => rfl
  | append_singleton previous e ih =>
      rw [ofEntries_concat, (indexed_ofEntries previous policy).restore_eq]
      split
      · exact ih
      · exact ih

theorem policy_mergeAll (indexed : d.Indexed) (merged : List Entry) :
    (d.mergeAll merged).policy = d.policy := by
  induction merged using List.reverseRecOn with
  | nil => rfl
  | append_singleton merged e ih =>
      rw [mergeAll_concat, policy_merge (indexed.mergeAll merged), ih]

/-- One more key, seen from the list of all keys so far. -/
theorem eraseDups_key_concat (entries : List Entry) (e : Entry) :
    ((entries ++ [e]).map Entry.key).eraseDups =
      if e.key ∈ (entries.map Entry.key).eraseDups then (entries.map Entry.key).eraseDups
      else (entries.map Entry.key).eraseDups ++ [e.key] := by
  rw [List.map_append, List.map_singleton]
  split
  · next old => exact eraseDups_concat_of_mem (List.mem_eraseDups.mp old)
  · next new => exact eraseDups_concat_of_not_mem fun old => new (List.mem_eraseDups.mpr old)

/-- Restored entries stand in the order of their keys' first occurrence. -/
theorem keys_ofEntries (previous : List Entry) (policy : MergePolicy) :
    (ofEntries previous policy).keys = (previous.map Entry.key).eraseDups := by
  induction previous using List.reverseRecOn with
  | nil => rfl
  | append_singleton previous e ih =>
      rw [ofEntries_concat, (indexed_ofEntries previous policy).restore_eq, eraseDups_key_concat,
        ← ih]
      split
      · rfl
      · exact keys_append _ _

/-- So do entries which are merged on top of them. -/
theorem keys_mergeAll (previous merged : List Entry) (policy : MergePolicy) :
    ((ofEntries previous policy).mergeAll merged).keys =
      ((previous ++ merged).map Entry.key).eraseDups := by
  induction merged using List.reverseRecOn with
  | nil =>
      rw [List.append_nil]
      exact keys_ofEntries previous policy
  | append_singleton merged e ih =>
      rw [mergeAll_concat, keys_merge ((indexed_ofEntries previous policy).mergeAll merged), ih,
        ← List.append_assoc, eraseDups_key_concat]

/-- A restored entry is the first one with its key, under every policy. -/
theorem firstWith_of_mem_ofEntries {previous : List Entry} {policy : MergePolicy} {x : Entry}
    (member : x ∈ (ofEntries previous policy).entries) : firstWith x.key previous = some x := by
  induction previous using List.reverseRecOn with
  | nil => cases member
  | append_singleton previous e ih =>
      rw [ofEntries_concat, (indexed_ofEntries previous policy).restore_eq, keys_ofEntries]
        at member
      rw [firstWith_concat]
      split at member
      · rw [ih member, Option.some_or]
      · next new =>
        rcases List.mem_append.mp member with old | last
        · rw [ih old, Option.some_or]
        · obtain rfl := List.mem_singleton.mp last
          rw [firstWith_eq_none fun old => new (List.mem_eraseDups.mpr old), if_pos rfl,
            Option.none_or]

/-- A stored entry is the winner for its key. -/
theorem winner_of_mem_mergeAll {previous merged : List Entry} {policy : MergePolicy} {x : Entry}
    (member : x ∈ ((ofEntries previous policy).mergeAll merged).entries) :
    winner policy previous merged x.key = some x := by
  induction merged using List.reverseRecOn generalizing x with
  | nil =>
      have first := firstWith_of_mem_ofEntries member
      have none : firstWith x.key [] = none := rfl
      cases policy <;> simp [winner, lastWith, first, none]
  | append_singleton merged e ih =>
      have indexed := (indexed_ofEntries previous policy).mergeAll merged
      have same : ((ofEntries previous policy).mergeAll merged).policy = policy := by
        rw [policy_mergeAll (indexed_ofEntries previous policy), policy_ofEntries]
      rw [mergeAll_concat] at member
      cases policy with
      | overwrite =>
          rcases mem_merge_overwrite indexed same member with rfl | ⟨old, different⟩
          · simp [winner, lastWith_concat]
          · have before := ih old
            rw [winner] at before ⊢
            rw [lastWith_concat, if_neg (Ne.symm different), Option.none_or, before]
      | skipExisting =>
          have split : winner .skipExisting previous (merged ++ [e]) x.key =
              (winner .skipExisting previous merged x.key).or
                (if e.key = x.key then some e else none) := by
            rw [winner, winner, firstWith_concat, Option.or_assoc]
          rw [split]
          rcases mem_merge_skipExisting indexed same member with old | ⟨rfl, new⟩
          · rw [ih old, Option.some_or]
          · rw [keys_mergeAll, List.mem_eraseDups, List.map_append, List.mem_append,
              not_or] at new
            rw [winner, firstWith_eq_none new.1, firstWith_eq_none new.2, if_pos rfl]
            rfl

/-- The entries, read off the lists: for each key its winner. -/
theorem entries_eq_filterMap_winner (previous merged : List Entry) (policy : MergePolicy) :
    ((ofEntries previous policy).mergeAll merged).entries =
      ((previous ++ merged).map Entry.key).eraseDups.filterMap
        (winner policy previous merged) := by
  rw [← keys_mergeAll previous merged policy, keys, List.filterMap_map]
  have each : ∀ e ∈ ((ofEntries previous policy).mergeAll merged).entries,
      (winner policy previous merged ∘ Entry.key) e = some e :=
    fun _ member => winner_of_mem_mergeAll member
  rw [List.filterMap_congr each, List.filterMap_some]

/-- Every stored entry was restored or merged, and is unchanged. -/
theorem mem_of_mem_mergeAll {previous merged : List Entry} {policy : MergePolicy} {e : Entry}
    (member : e ∈ ((ofEntries previous policy).mergeAll merged).entries) :
    e ∈ previous ∨ e ∈ merged :=
  mem_of_winner (winner_of_mem_mergeAll member)

/-- **The entries after a run.** Their keys are those of all entries, restored and merged, in the
order of their first occurrence. The entry of a key is, under `overwrite`, the last one merged
with it, or else the first one restored; under `skipExisting` the first one restored, or else
the first one merged. Each entry is one of those given, unchanged. -/
theorem entries_mergeAll (policy : MergePolicy) (previous merged : List Entry) :
    ((ofEntries previous policy).mergeAll merged).entries.map Entry.key =
        ((previous ++ merged).map Entry.key).eraseDups ∧
      ∀ e ∈ ((ofEntries previous policy).mergeAll merged).entries,
        winner policy previous merged e.key = some e ∧ (e ∈ previous ∨ e ∈ merged) :=
  ⟨keys_mergeAll previous merged policy,
    fun _ member => ⟨winner_of_mem_mergeAll member, mem_of_winner (winner_of_mem_mergeAll member)⟩⟩

end Compdb.Database
