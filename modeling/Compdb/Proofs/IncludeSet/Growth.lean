/-
# Compdb.Proofs.IncludeSet.Growth — an include set only grows, and counts what is new

Each operation on an include set appends directories and counts them (`GrowsBy`). Which ones it
appends is up to what it offers (`Operation.Offers`, and `Operation.offered` as a function): a set
which was made by operations on the empty one holds what they offered, each directory at its first
occurrence (`paths_performAll`). So it holds no directory twice, and what was offered once is known
for good (`insertAll_of_known`).

The directories of two values with a separator in between are those of the one and then those of the
other (`directories_append`), and inserting follows (`insertAll_append`). `collected_performAll`
says all of it of every set which operations lead to.
-/
import Compdb.Proofs.IncludeSet
import Compdb.Proofs.Text.Items
import Mathlib.Data.List.Forall2

namespace Compdb

set_option autoImplicit false

/-! ## The directories of a value -/

namespace Environment

/-- A directory as a value lists it: not empty, and without white space around it. -/
structure IsTidy (path : Text) : Prop where
  filled : path ≠ []
  front : path.head?.any Text.isBlank = false
  back : path.getLast?.any Text.isBlank = false

theorem isTidy_of_mem_directories {value path : Text} (member : path ∈ directories value) :
    IsTidy path := by
  obtain ⟨listed, filled⟩ := List.mem_filter.mp member
  obtain ⟨piece, -, rfl⟩ := List.mem_map.mp listed
  exact ⟨by simpa using filled, Text.head?_trimWhere _ piece, Text.getLast?_trimWhere _ piece⟩

/-- A separator between two values separates their directories. -/
theorem directories_append (v w : Text) :
    directories (v ++ ';' :: w) = directories v ++ directories w :=
  Text.listItems_append ';' v w

end Environment

namespace IncludeSet

/-! ## Growing -/

/-- What a set holds stays in front, and the count is the number of the directories behind. -/
structure GrowsBy (s : IncludeSet) (result : IncludeSet × Nat) : Prop where
  isPrefix : s.paths <+: result.1.paths
  size_eq : result.1.size = s.size + result.2

theorem GrowsBy.refl (s : IncludeSet) : GrowsBy s (s, 0) :=
  ⟨List.prefix_rfl, rfl⟩

theorem GrowsBy.trans {s t u : IncludeSet} {m n : Nat} (first : GrowsBy s (t, m))
    (second : GrowsBy t (u, n)) : GrowsBy s (u, m + n) := by
  refine ⟨first.isPrefix.trans second.isPrefix, ?_⟩
  rw [second.size_eq, first.size_eq, Nat.add_assoc]

theorem growsBy_insert (s : IncludeSet) (path : Text) :
    GrowsBy s ((s.insert path).1, if (s.insert path).2 then 1 else 0) := by
  rw [insert]
  split
  · exact GrowsBy.refl s
  · exact ⟨List.prefix_append _ _, by simp [size]⟩

/-- Inserting says whether the set has grown. -/
theorem insert_isNew_iff (s : IncludeSet) (path : Text) :
    (s.insert path).2 = true ↔ s.size < (s.insert path).1.size := by
  rw [insert]
  split <;> simp [size]

theorem growsBy_insertAll (s : IncludeSet) (paths : List Text) :
    GrowsBy s (s.insertAll paths) := by
  induction paths generalizing s with
  | nil => exact GrowsBy.refl s
  | cons path paths ih =>
      have both := (growsBy_insert s path).trans (ih (s.insert path).1)
      rwa [Nat.add_comm] at both

theorem growsBy_extendValues (s : IncludeSet) (values : List Text) :
    GrowsBy s (s.extendValues values) := by
  induction values generalizing s with
  | nil => exact GrowsBy.refl s
  | cons value values ih => exact (growsBy_insertAll s _).trans (ih (s.extendValue value).1)

/-! ## Inserting lists -/

theorem insertAll_append (s : IncludeSet) (a b : List Text) :
    s.insertAll (a ++ b) =
      (((s.insertAll a).1.insertAll b).1,
        (s.insertAll a).2 + ((s.insertAll a).1.insertAll b).2) := by
  induction a generalizing s with
  | nil => simp [insertAll]
  | cons path a ih =>
      simp only [List.cons_append, insertAll, ih (s.insert path).1]
      congr 1
      omega

/-- Known directories change nothing. -/
theorem insertAll_of_known {s : IncludeSet} {paths : List Text}
    (known : ∀ path ∈ paths, path ∈ s.paths) : s.insertAll paths = (s, 0) := by
  induction paths with
  | nil => rfl
  | cons path paths ih =>
      rw [List.forall_mem_cons] at known
      have same : s.insert path = (s, false) := by
        rw [insert, if_pos (List.contains_iff_mem.mpr known.1)]
      simp [insertAll, same, ih known.2]

/-! ## Sequences of operations -/

/-- What can be done to an include set. -/
inductive Operation where
  | insert (path : Text)
  | extendValue (value : Text)
  | extendEnvironment (env : Environment)

namespace Operation

/-- The values which an operation takes apart into directories. -/
def values : Operation → List Text
  | insert _ => []
  | extendValue value => [value]
  | extendEnvironment env => Environment.includeNames.flatMap fun name => env.valuesOf name

/-- The directories which an operation offers: the one which is inserted, or the items of its
values. -/
inductive Offers : Operation → List Text → Prop where
  | insert (path : Text) : Offers (.insert path) [path]
  | extend {operation : Operation} {items : List (List Text)}
      (noInsertion : ∀ path, operation ≠ .insert path)
      (has : List.Forall₂ (Text.HasItems ';') operation.values items) :
      Offers operation items.flatten

/-- The directories which an operation offers, as its values are taken apart. -/
def offered : Operation → List Text
  | insert path => [path]
  | operation => operation.values.flatMap Environment.directories

theorem offers_offered (operation : Operation) : operation.Offers operation.offered := by
  have has : List.Forall₂ (Text.HasItems ';') operation.values
      (operation.values.map Environment.directories) := by
    rw [List.forall₂_map_right_iff, List.forall₂_same]
    exact fun value _ => Text.hasItems_listItems ';' value
  cases operation with
  | insert path => exact .insert path
  | extendValue value => exact .extend (by simp) has
  | extendEnvironment env => exact .extend (by simp) has

end Operation

/-- The set after an operation. -/
def perform (s : IncludeSet) : Operation → IncludeSet
  | .insert path => (s.insert path).1
  | .extendValue value => (s.extendValue value).1
  | .extendEnvironment env => (s.extendEnvironment env).1

/-- The set after operations, one after the other. -/
def performAll (s : IncludeSet) (operations : List Operation) : IncludeSet :=
  operations.foldl perform s

theorem paths_perform {s : IncludeSet} {seen : List Text} (holds : s.paths = seen.eraseDups)
    (operation : Operation) :
    (s.perform operation).paths = (seen ++ operation.offered).eraseDups := by
  cases operation with
  | insert path => exact paths_insert holds path
  | extendValue value =>
      have offered : (Operation.extendValue value).offered = Environment.directories value := by
        simp [Operation.offered, Operation.values]
      rw [offered]
      exact paths_insertAll holds _
  | extendEnvironment env => exact paths_extendValues holds _

/-- A set holds what the operations offered, in the order of the first occurrence. -/
theorem paths_performAll (operations : List Operation) :
    (empty.performAll operations).paths =
      (operations.flatMap Operation.offered).eraseDups := by
  induction operations using List.reverseRecOn with
  | nil => rfl
  | append_singleton operations operation ih =>
      have last : empty.performAll (operations ++ [operation]) =
          (empty.performAll operations).perform operation := by
        rw [performAll, List.foldl_append]
        rfl
      rw [last, paths_perform ih, List.flatMap_append, List.flatMap_singleton]

theorem mem_paths_performAll {operations : List Operation} {path : Text} :
    path ∈ (empty.performAll operations).paths ↔
      ∃ operation ∈ operations, path ∈ operation.offered := by
  rw [paths_performAll, List.mem_eraseDups, List.mem_flatMap]

/-- The directories of the values which an operation takes apart are offered by it. -/
theorem Operation.mem_offered {operation : Operation} {value path : Text}
    (processed : value ∈ operation.values) (listed : path ∈ Environment.directories value) :
    path ∈ operation.offered := by
  cases operation with
  | insert path => cases processed
  | extendValue value => exact List.mem_flatMap.mpr ⟨_, processed, listed⟩
  | extendEnvironment env => exact List.mem_flatMap.mpr ⟨_, processed, listed⟩

/-- An operation which is no insertion offers tidy directories only. -/
theorem Operation.isTidy_of_mem_offered {operation : Operation} {path : Text}
    (noInsertion : ∀ path, operation ≠ .insert path) (member : path ∈ operation.offered) :
    Environment.IsTidy path := by
  cases operation with
  | insert path => exact absurd rfl (noInsertion path)
  | extendValue value =>
      obtain ⟨_, -, listed⟩ := List.mem_flatMap.mp member
      exact Environment.isTidy_of_mem_directories listed
  | extendEnvironment env =>
      obtain ⟨_, -, listed⟩ := List.mem_flatMap.mp member
      exact Environment.isTidy_of_mem_directories listed

/-- What operations on the empty set make, and what the next one does to it. -/
structure Collected (operations : List Operation) (s : IncludeSet) : Prop where
  /-- The set holds what the operations offered, each directory at its first occurrence. -/
  holds : ∃ offered, List.Forall₂ Operation.Offers operations offered ∧
    s.paths = offered.flatten.eraseDups
  nodup : s.paths.Nodup
  /-- Inserting appends one directory at most, and says whether the set has grown. -/
  insert : ∀ path, GrowsBy s ((s.insert path).1, if (s.insert path).2 then 1 else 0) ∧
    ((s.insert path).2 = true ↔ s.size < (s.insert path).1.size)
  /-- Extending appends, and counts by how many directories the set has grown. -/
  extendValue : ∀ value, GrowsBy s (s.extendValue value)
  extendEnvironment : ∀ env, GrowsBy s (s.extendEnvironment env)
  /-- Without insertions there are tidy directories only. -/
  tidy : (∀ path, Operation.insert path ∉ operations) → ∀ path ∈ s.paths, Environment.IsTidy path
  /-- A value of two parts is taken apart as the one and then the other. -/
  parts : ∀ v w, s.extendValue (v ++ ';' :: w) =
    (((s.extendValue v).1.extendValue w).1,
      (s.extendValue v).2 + ((s.extendValue v).1.extendValue w).2)
  /-- A value which was taken apart before changes nothing. -/
  again : ∀ operation ∈ operations, ∀ value ∈ operation.values, s.extendValue value = (s, 0)

/-- **An include set only grows, counts what is new, and knows what it was given**, whatever
operations have led to it. -/
theorem collected_performAll (operations : List Operation) :
    Collected operations (empty.performAll operations) where
  holds := by
    refine ⟨operations.map Operation.offered, ?_, paths_performAll operations⟩
    rw [List.forall₂_map_right_iff, List.forall₂_same]
    exact fun operation _ => operation.offers_offered
  nodup := by
    rw [paths_performAll]
    exact nodup_eraseDups _
  insert path := ⟨growsBy_insert _ path, insert_isNew_iff _ path⟩
  extendValue value := growsBy_insertAll _ _
  extendEnvironment env := growsBy_extendValues _ _
  tidy noInsertion path member := by
    obtain ⟨operation, performed, offered⟩ := mem_paths_performAll.mp member
    refine operation.isTidy_of_mem_offered ?_ offered
    rintro path rfl
    exact noInsertion path performed
  parts v w := by
    rw [IncludeSet.extendValue, Environment.directories_append, insertAll_append]
    rfl
  again operation performed value processed := by
    refine insertAll_of_known fun path listed => ?_
    exact mem_paths_performAll.mpr ⟨operation, performed, operation.mem_offered processed listed⟩

/-- Empty parts and known directories are passed over, in any letter case of the name. -/
example :
    (empty.performAll [.extendValue "a; b;;a;".toList, .insert "c".toList,
      .extendEnvironment [("Include".toList, "b;d".toList)]]).paths =
        ["a".toList, "b".toList, "c".toList, "d".toList] := by
  decide

end IncludeSet

end Compdb
