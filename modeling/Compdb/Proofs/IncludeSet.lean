/-
# Compdb.Proofs.IncludeSet — an include set holds what was offered, once

`paths_insertAll`: a set which holds the directories offered so far, without repetitions, holds
those and the new ones afterwards. The directories which an environment offers are read off
its two variables (`Environment.contribution`); an environment whose names are distinct in
any letter case has one value for each (`paths_extendEnvironment`).
-/
import Compdb.Environment
import Compdb.Proofs.FirstOccurrence

namespace Compdb

set_option autoImplicit false

namespace Environment

/-- No two names are the same up to letter case. -/
def NamesDistinct (env : Environment) : Prop :=
  (env.map fun pair => Text.foldCase pair.1).Nodup

instance (env : Environment) : Decidable env.NamesDistinct :=
  inferInstanceAs (Decidable (env.map fun pair => Text.foldCase pair.1).Nodup)

/-- The value of the variable with this name, in any letter case. -/
def valueOf? (env : Environment) (name : Text) : Option Text :=
  (env.find? fun pair => Text.sameFolded pair.1 name).map Prod.snd

/-- The directories which an environment offers, repetitions included: those of `INCLUDE`, then
those of `EXTERNAL_INCLUDE`. -/
def contribution (env : Environment) : List Text :=
  includeNames.flatMap fun name => ((env.valueOf? name).map directories).getD []

/-- A name has at most one value when no two names are the same. -/
theorem valuesOf_eq {env : Environment} (distinct : env.NamesDistinct) (name : Text) :
    env.valuesOf name = (env.valueOf? name).toList := by
  induction env with
  | nil => rfl
  | cons pair env ih =>
      obtain ⟨new, rest⟩ := List.nodup_cons.mp distinct
      cases same : Text.sameFolded pair.1 name with
      | false => simpa [valuesOf, valueOf?, same] using ih rest
      | true =>
          have none : env.filter (fun pair => Text.sameFolded pair.1 name) = [] := by
            rw [List.filter_eq_nil_iff]
            intro other member again
            simp only [Text.sameFolded, beq_iff_eq] at same again
            exact new (List.mem_map.mpr ⟨other, member, again.trans same.symm⟩)
          simp [valuesOf, valueOf?, same, none]

end Environment

namespace IncludeSet

variable {s : IncludeSet} {seen : List Text}

theorem paths_insert (holds : s.paths = seen.eraseDups) (path : Text) :
    (s.insert path).1.paths = (seen ++ [path]).eraseDups := by
  rw [insert]
  split
  · next old =>
    rw [eraseDups_concat_of_mem, holds]
    rw [List.contains_iff_mem, holds] at old
    exact List.mem_eraseDups.mp old
  · next new =>
    rw [eraseDups_concat_of_not_mem, holds]
    rw [List.contains_iff_mem, holds] at new
    exact fun old => new (List.mem_eraseDups.mpr old)

theorem paths_insertAll (holds : s.paths = seen.eraseDups) (paths : List Text) :
    (s.insertAll paths).1.paths = (seen ++ paths).eraseDups := by
  induction paths generalizing s seen with
  | nil => simpa [insertAll] using holds
  | cons path paths ih =>
      have rest := ih (paths_insert holds path)
      simpa [insertAll, List.append_assoc] using rest

theorem paths_extendValues (holds : s.paths = seen.eraseDups) (values : List Text) :
    (s.extendValues values).1.paths =
      (seen ++ values.flatMap Environment.directories).eraseDups := by
  induction values generalizing s seen with
  | nil => simpa [extendValues] using holds
  | cons value values ih =>
      have rest := ih (paths_insertAll holds (Environment.directories value))
      simpa [extendValues, extendValue, List.append_assoc] using rest

/-- Extending a set by an environment offers the directories which the environment contributes. -/
theorem paths_extendEnvironment (holds : s.paths = seen.eraseDups) {env : Environment}
    (distinct : env.NamesDistinct) :
    (s.extendEnvironment env).1.paths = (seen ++ env.contribution).eraseDups := by
  have offered : (Environment.includeNames.flatMap env.valuesOf).flatMap Environment.directories =
      env.contribution := by
    rw [List.flatMap_assoc, Environment.contribution]
    congr 1
    funext name
    rw [Environment.valuesOf_eq distinct]
    cases env.valueOf? name <;> simp
  rw [extendEnvironment, paths_extendValues holds, offered]

end IncludeSet

end Compdb
