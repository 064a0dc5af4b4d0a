/-
# Compdb.Proofs.Database.Index — the index and the entries say the same

A database keeps its entries twice: as a list, and as the position of each key. `Indexed` ties
the two: the index gives a key exactly the positions at which it stands. Since it gives one
position at most, no key stands twice (`Indexed.nodup`).

`Indexed.merge_cases` says once what merging an entry can do, in terms of the list alone;
whatever is proved about merging starts from it. `Indexed` holds of the empty database and
is kept by `restore` and `merge`, hence in every database of a run (`indexed_ofEntries`,
`Indexed.mergeAll`).
-/
import Compdb.Database
import Mathlib.Data.List.Induction
import Mathlib.Data.List.Nodup

namespace Compdb.Database

set_option autoImplicit false

/-- The keys of the entries, in order. -/
def keys (d : Database) : List Key :=
  d.entries.map Entry.key

/-- The index gives each key the position at which it stands, and no other key a position. -/
def Indexed (d : Database) : Prop :=
  ∀ (key : Key) (position : Nat),
    d.index[key]? = some position ↔ d.keys[position]? = some key

variable {d : Database}

theorem keys_append (d : Database) (e : Entry) : (d.append e).keys = d.keys ++ [e.key] := by
  simp [keys, append]

theorem mergeAll_append (d : Database) (entries more : List Entry) :
    d.mergeAll (entries ++ more) = (d.mergeAll entries).mergeAll more := by
  simp [mergeAll]

theorem length_keys (d : Database) : d.keys.length = d.entries.length := by
  simp [keys]

/-- Replacing an entry by one with its key leaves the keys as they are. -/
theorem map_key_set {entries : List Entry} {position : Nat} {e : Entry}
    (place : (entries.map Entry.key)[position]? = some e.key) :
    (entries.set position e).map Entry.key = entries.map Entry.key := by
  apply List.ext_getElem?
  intro i
  rw [List.map_set, List.getElem?_set]
  split
  · next same =>
      subst same
      have inside := (List.getElem?_eq_some_iff.mp place).1
      rw [if_pos inside, place]
  · rfl

namespace Indexed

/-- The positions of a key which stands somewhere are in the index. -/
theorem mem_index (indexed : d.Indexed) (key : Key) : key ∈ d.index ↔ key ∈ d.keys := by
  rw [Std.HashMap.mem_iff_isSome_getElem?, Option.isSome_iff_exists, List.mem_iff_getElem?]
  exact exists_congr fun position => indexed key position

/-- No key stands at two positions, since the index gives one. -/
theorem unique (indexed : d.Indexed) {key : Key} {i j : Nat} (hi : d.keys[i]? = some key)
    (hj : d.keys[j]? = some key) : i = j := by
  rw [← indexed] at hi hj
  exact Option.some.inj (hi.symm.trans hj)

theorem nodup (indexed : d.Indexed) : d.keys.Nodup := by
  rw [List.nodup_iff_injective_get]
  intro i j same
  apply Fin.ext
  refine indexed.unique (List.getElem?_eq_getElem i.isLt) ?_
  rw [List.getElem?_eq_getElem j.isLt]
  exact congrArg some same.symm

theorem append (indexed : d.Indexed) {e : Entry} (new : e.key ∉ d.keys) :
    (d.append e).Indexed := by
  intro key position
  have step : (d.append e).index[key]? =
      if e.key == key then some d.keys.length else d.index[key]? := by
    rw [length_keys]
    exact Std.HashMap.getElem?_insert
  rw [step, keys_append, List.getElem?_append]
  by_cases same : e.key = key
  · subst same
    rw [if_pos (beq_self_eq_true _)]
    split
    · next inside =>
      constructor
      · intro place
        have := Option.some.inj place
        omega
      · intro place
        exact absurd (List.mem_of_getElem? place) new
    · next outside =>
      constructor
      · intro place
        rw [← Option.some.inj place, Nat.sub_self]
        rfl
      · intro place
        obtain ⟨bound, -⟩ := List.getElem?_eq_some_iff.mp place
        have : position = d.keys.length := by
          simp only [List.length_singleton] at bound
          omega
        rw [this]
  · rw [if_neg (by simpa using same), indexed]
    split
    · rfl
    · next outside =>
      constructor
      · intro place
        have := (List.getElem?_eq_some_iff.mp place).1
        omega
      · intro place
        have := List.mem_of_getElem? place
        exact absurd (List.mem_singleton.mp this).symm same

theorem set (indexed : d.Indexed) {e : Entry} {position : Nat}
    (place : d.keys[position]? = some e.key) :
    Indexed { d with entries := d.entries.set position e } := by
  intro key i
  have same : keys { d with entries := d.entries.set position e } = d.keys := map_key_set place
  rw [same]
  exact indexed key i

/-- What merging an entry can do: append it when its key is new; otherwise put it in the place of
its key, or leave everything as it is, by the policy. -/
theorem merge_cases (indexed : d.Indexed) (e : Entry) :
    (e.key ∉ d.keys ∧ d.merge e = (d.append e, .added)) ∨
      ∃ position, d.keys[position]? = some e.key ∧
        ((d.policy = .overwrite ∧
            d.merge e = ({ d with entries := d.entries.set position e }, .updated)) ∨
          (d.policy = .skipExisting ∧ d.merge e = (d, .kept))) := by
  unfold Database.merge
  cases place : d.index[e.key]? with
  | none =>
      left
      refine ⟨fun old => ?_, rfl⟩
      rw [← indexed.mem_index, Std.HashMap.mem_iff_isSome_getElem?, place] at old
      cases old
  | some position =>
      right
      refine ⟨position, (indexed _ _).mp place, ?_⟩
      cases policy : d.policy with
      | overwrite => exact Or.inl ⟨rfl, rfl⟩
      | skipExisting => exact Or.inr ⟨rfl, rfl⟩

theorem merge (indexed : d.Indexed) (e : Entry) : (d.merge e).1.Indexed := by
  rcases indexed.merge_cases e with ⟨new, same⟩ | ⟨position, place, ⟨-, same⟩ | ⟨-, same⟩⟩
  · rw [same]
    exact indexed.append new
  · rw [same]
    exact indexed.set place
  · rw [same]
    exact indexed

theorem mergeAll (indexed : d.Indexed) (entries : List Entry) : (d.mergeAll entries).Indexed := by
  induction entries generalizing d with
  | nil => exact indexed
  | cons e entries ih => exact ih (indexed.merge e)

/-- Restoring an entry appends it when its key is new, under every policy. -/
theorem restore_eq (indexed : d.Indexed) (e : Entry) :
    d.restore e = if e.key ∈ d.keys then d else d.append e := by
  rw [Database.restore]
  exact if_congr (by rw [← indexed.mem_index]; rfl) rfl rfl

theorem restore (indexed : d.Indexed) (e : Entry) : (d.restore e).Indexed := by
  rw [indexed.restore_eq]
  split
  · exact indexed
  · next new => exact indexed.append new

end Indexed

theorem indexed_empty (policy : MergePolicy) : (empty policy).Indexed := by
  intro key position
  simp [empty, keys]

theorem indexed_ofEntries (entries : List Entry) (policy : MergePolicy) :
    (ofEntries entries policy).Indexed := by
  induction entries using List.reverseRecOn with
  | nil => exact indexed_empty policy
  | append_singleton entries e ih =>
      rw [ofEntries, List.foldl_append]
      exact ih.restore e

end Compdb.Database
