/-
# Compdb.Proofs.IncludeSet.Agreement — what of an environment matters to an include set

An environment is a list of variables, but neither their order nor the spelling of their names
says anything, and only two of them contribute directories. So an include set is extended by the
values of these two and by nothing else (`extendEnvironment_eq`), and two environments which agree
on them extend every set alike (`readsIncludes`).

When no two names are the same up to letter case, a name has one value, so the order of the
variables makes no difference (`valuesOf_of_perm`). The spelling and the other variables never
make one (`valuesOf_of_respells`, `valuesOf_filter_isRelevant`).
-/
import Compdb.Proofs.IncludeSet
import Mathlib.Data.List.Forall2

namespace Compdb

set_option autoImplicit false

namespace Environment

/-- The value of the variable with this name, in any letter case. A variable which is missing counts
as empty. -/
def textOf (env : Environment) (name : Text) : Text :=
  (env.valueOf? name).getD []

/-- The variables of the second environment are those of the first one, up to the letter case of
their names. -/
def Respells (env env' : Environment) : Prop :=
  List.Forall₂ (fun pair pair' => Text.sameFolded pair.1 pair'.1 = true ∧ pair.2 = pair'.2) env env'

/-- The variables which matter. -/
def relevant (env : Environment) : Environment :=
  env.filter fun pair => isRelevant pair.1

/-- No environment has two names which are the same up to letter case, and the variables which
matter have the same values in both. -/
structure Agrees (env env' : Environment) : Prop where
  distinct : env.NamesDistinct
  distinct' : env'.NamesDistinct
  values : ∀ name ∈ includeNames, env.textOf name = env'.textOf name

instance (env env' : Environment) : Decidable (env.Agrees env') :=
  decidable_of_iff
    (env.NamesDistinct ∧ env'.NamesDistinct ∧
      ∀ name ∈ includeNames, env.textOf name = env'.textOf name)
    ⟨fun ⟨distinct, distinct', values⟩ => ⟨distinct, distinct', values⟩,
      fun ⟨distinct, distinct', values⟩ => ⟨distinct, distinct', values⟩⟩

variable {env env' : Environment}

/-- With one value for each name, the order of the variables does not show. -/
theorem valuesOf_of_perm (distinct : env.NamesDistinct) (perm : env.Perm env') (name : Text) :
    env'.valuesOf name = env.valuesOf name := by
  have same : (env.valuesOf name).Perm (env'.valuesOf name) := (perm.filter _).map Prod.snd
  rw [valuesOf_eq distinct] at same ⊢
  cases value : env.valueOf? name with
  | none =>
      rw [value] at same
      exact List.nil_perm.mp same
  | some value' =>
      rw [value] at same
      exact List.perm_singleton.mp same.symm

theorem valuesOf_of_respells (respells : env.Respells env') (name : Text) :
    env'.valuesOf name = env.valuesOf name := by
  induction respells with
  | nil => rfl
  | @cons pair pair' env env' same _ ih =>
      obtain ⟨spelling, value⟩ := same
      have met : Text.sameFolded pair'.1 name = Text.sameFolded pair.1 name := by
        simp only [Text.sameFolded, beq_iff_eq] at spelling ⊢
        rw [spelling]
      simp only [valuesOf, List.filter_cons, met] at ih ⊢
      split
      · rw [List.map_cons, List.map_cons, ih, value]
      · exact ih

theorem valuesOf_filter_isRelevant {name : Text} (matters : name ∈ includeNames) :
    env.relevant.valuesOf name = env.valuesOf name := by
  rw [valuesOf, relevant, List.filter_filter, valuesOf]
  congr 1
  refine List.filter_congr fun pair _ => ?_
  cases met : Text.sameFolded pair.1 name with
  | false => rfl
  | true =>
      have same : Text.sameFolded name pair.1 = true := by
        simp only [Text.sameFolded, beq_iff_eq] at met ⊢
        exact met.symm
      exact List.any_eq_true.mpr ⟨name, matters, same⟩

end Environment

namespace IncludeSet

open Environment

theorem extendEnvironment_congr {env env' : Environment}
    (same : ∀ name ∈ includeNames, env'.valuesOf name = env.valuesOf name) (s : IncludeSet) :
    s.extendEnvironment env' = s.extendEnvironment env := by
  rw [extendEnvironment, extendEnvironment, List.flatMap_congr same]

theorem extendValue_nil (s : IncludeSet) : s.extendValue [] = (s, 0) :=
  rfl

/-- The value of the one variable extends the set, and then that of the other one. -/
theorem extendEnvironment_eq (s : IncludeSet) {env : Environment} (distinct : env.NamesDistinct) :
    s.extendEnvironment env =
      s.extendValues [env.textOf includeName, env.textOf externalIncludeName] := by
  have values : includeNames.flatMap (fun name => env.valuesOf name) =
      (env.valueOf? includeName).toList ++ (env.valueOf? externalIncludeName).toList := by
    rw [includeNames, List.flatMap_cons, List.flatMap_singleton, valuesOf_eq distinct,
      valuesOf_eq distinct]
  rw [extendEnvironment, values, textOf, textOf]
  cases env.valueOf? includeName <;> cases env.valueOf? externalIncludeName <;>
    simp [extendValues, extendValue_nil]

/-- Extending a set by an environment comes down to the values of the two variables. -/
structure ReadsIncludes (s : IncludeSet) (env : Environment) : Prop where
  /-- `INCLUDE` comes first, and a missing variable counts as empty. -/
  directories : (s.extendEnvironment env).1 =
    ((s.extendValue (env.textOf includeName)).1.extendValue (env.textOf externalIncludeName)).1
  count : (s.extendEnvironment env).2 =
    (s.extendValue (env.textOf includeName)).2
      + ((s.extendValue (env.textOf includeName)).1.extendValue
          (env.textOf externalIncludeName)).2
  reordered : ∀ env', env.Perm env' → s.extendEnvironment env' = s.extendEnvironment env
  respelled : ∀ env', env.Respells env' → s.extendEnvironment env' = s.extendEnvironment env
  /-- Variables which do not matter may be added, dropped and changed. -/
  others : ∀ env', env.relevant = env'.relevant →
    s.extendEnvironment env' = s.extendEnvironment env
  agreeing : ∀ env', env.Agrees env' → s.extendEnvironment env' = s.extendEnvironment env

theorem extendEnvironment_of_agrees (s : IncludeSet) {env env' : Environment}
    (agrees : env.Agrees env') : s.extendEnvironment env' = s.extendEnvironment env := by
  obtain ⟨distinct, distinct', values⟩ := agrees
  have same : env.textOf includeName = env'.textOf includeName := values _ (by simp [includeNames])
  have same' : env.textOf externalIncludeName = env'.textOf externalIncludeName :=
    values _ (by simp [includeNames])
  rw [extendEnvironment_eq s distinct', extendEnvironment_eq s distinct, same, same']

theorem readsIncludes (s : IncludeSet) {env : Environment} (distinct : env.NamesDistinct) :
    s.ReadsIncludes env where
  directories := by
    rw [extendEnvironment_eq s distinct]
    rfl
  count := by
    rw [extendEnvironment_eq s distinct]
    rfl
  reordered _ perm := extendEnvironment_congr (fun name _ => valuesOf_of_perm distinct perm name) s
  respelled _ respells :=
    extendEnvironment_congr (fun name _ => valuesOf_of_respells respells name) s
  others env' same := by
    refine extendEnvironment_congr (fun name matters => ?_) s
    rw [← valuesOf_filter_isRelevant matters, ← same, valuesOf_filter_isRelevant matters]
  agreeing _ agrees := extendEnvironment_of_agrees s agrees

end IncludeSet

end Compdb
