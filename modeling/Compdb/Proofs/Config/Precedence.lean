/-
# Compdb.Proofs.Config.Precedence — which layer settles a field

A configuration is settled in layers: what was loaded, the settings of the parameter string, and
the flags of the command line. Each field has the value of the uppermost layer which says something
about it; within the parameter string that is the last item for the field (`layered`).

A parameter string is read as a whole, so an item which is refused fails the run even where a flag
settles its field. Empty values are looked for in the result alone, so one which a higher layer
replaces does no harm, and one of a higher layer is not made up for by a lower one. These are all
the failures, but for those of loading (`Fails`, `configure_layered`).
-/
import Compdb.Program
import Compdb.Proofs.Config.Settings

namespace Compdb

set_option autoImplicit false

namespace Config

/-- A field which must not be empty is. -/
def HasEmptyField (c : Config) : Prop :=
  c.output = [] ∨ c.customTask = some [] ∨ c.logFile = some (.file [])

theorem emptyFields_eq_nil_iff {c : Config} : c.emptyFields = [] ↔ ¬ c.HasEmptyField := by
  simp [emptyFields, HasEmptyField, not_or]

theorem validate_eq_ok_iff {c c' : Config} : c.validate = .ok c' ↔ c' = c ∧ ¬ c.HasEmptyField := by
  rw [← emptyFields_eq_nil_iff, validate]
  split
  · next none => simp [none, eq_comm]
  · next some => simp [some]

end Config

namespace Program

open Overrides (GivesAll Refuses lastOf)

/-- The configuration which a run loads: from the file which is named, from the first one which is
found, or else the default. -/
def loadedConfig (s : Surroundings) (arguments : Arguments) : Except ConfigFileError Config :=
  Config.File.find s.tree s.workingDirectory s.configDirectories arguments.config

/-- The items of a parameter string, if there is one. -/
inductive ParameterItems : Option Text → List Text → Prop where
  | none : ParameterItems none []
  | some {parameters : Text} {items : List Text} (has : Text.HasItems ';' parameters items) :
      ParameterItems (some parameters) items

theorem exists_parameterItems (parameters : Option Text) :
    ∃ items, ParameterItems parameters items := by
  cases parameters with
  | none => exact ⟨[], .none⟩
  | some parameters => exact ⟨_, .some (Text.hasItems_listItems ';' parameters)⟩

theorem ParameterItems.eq {parameters : Option Text} {items items' : List Text}
    (has : ParameterItems parameters items) (has' : ParameterItems parameters items') :
    items = items' := by
  cases has with
  | none =>
      cases has'
      rfl
  | some has =>
      cases has' with
      | some has' => rw [Text.hasItems_iff.mp has, Text.hasItems_iff.mp has']

/-- For every field the flag, or else the last setting of the parameter string, or else what was
loaded. The schema is always that of the loaded configuration. -/
def layered (loaded : Config) (settings : List Setting) (flags : Overrides) : Config where
  schema := loaded.schema
  output := flags.output.getD
    ((settings.filterMap Setting.output?).getLast?.getD loaded.output)
  customTask := flags.customTask.or
    ((settings.filterMap Setting.customTask?).getLast?.or loaded.customTask)
  logFile := flags.logFile.or
    ((settings.filterMap Setting.logFile?).getLast?.or loaded.logFile)
  merge := flags.merge.getD
    ((settings.filterMap Setting.merge?).getLast?.getD loaded.merge)

theorem layered_eq (loaded : Config) (settings : List Setting) (flags : Overrides) :
    layered loaded settings flags = flags.apply ((lastOf settings).apply loaded) :=
  rfl

theorem applyParameters_eq {parameters : Option Text} {items : List Text}
    (has : ParameterItems parameters items) (c : Config) :
    applyParameters parameters c =
      match Overrides.takeItems {} true items with
      | .error reason => .error reason
      | .ok overrides => .ok (overrides.apply c) := by
  cases has with
  | none => rfl
  | some has =>
      rw [Text.hasItems_iff.mp has]
      rfl

section Items

variable {arguments : Arguments} {items : List Text}
  (has : ParameterItems arguments.parameters items)
include has

/-- A configuration is settled when every item gives a setting and the result has no empty field. -/
theorem settle_eq_ok_iff {loaded c : Config} :
    settle loaded arguments = .ok c ↔
      ∃ settings, GivesAll true items settings ∧
        c = layered loaded settings arguments.overrides ∧ ¬ c.HasEmptyField := by
  have read : settle loaded arguments = .ok c ↔
      ∃ o, Overrides.takeItems {} true items = .ok o ∧
        (arguments.overrides.apply (o.apply loaded)).validate = .ok c := by
    rw [settle, applyParameters_eq has]
    cases Overrides.takeItems {} true items with
    | error reason => simp
    | ok o => cases validated : (arguments.overrides.apply (o.apply loaded)).validate <;>
        simp [validated]
  rw [read]
  constructor
  · rintro ⟨o, taken, accepted⟩
    obtain ⟨settings, gives, rfl⟩ := Overrides.takeItems_eq_ok_iff.mp taken
    rw [Overrides.empty_followedBy, ← layered_eq, Config.validate_eq_ok_iff] at accepted
    obtain ⟨rfl, filled⟩ := accepted
    exact ⟨settings, gives, rfl, filled⟩
  · rintro ⟨settings, gives, rfl, filled⟩
    refine ⟨_, gives.takeItems_eq {}, ?_⟩
    rw [Overrides.empty_followedBy, ← layered_eq]
    exact Config.validate_eq_ok_iff.mpr ⟨rfl, filled⟩

theorem configure_eq_ok_iff {s : Surroundings} {c : Config} :
    configure s arguments = .ok c ↔
      ∃ loaded settings, loadedConfig s arguments = .ok loaded ∧ GivesAll true items settings ∧
        c = layered loaded settings arguments.overrides ∧ ¬ c.HasEmptyField := by
  rw [configure, ← loadedConfig]
  cases loadedConfig s arguments with
  | error reason => simp
  | ok loaded => simp [settle_eq_ok_iff has]

end Items

/-- What keeps a run from being configured. -/
inductive Fails (s : Surroundings) (arguments : Arguments) : Prop where
  | loading {reason : ConfigFileError} (failed : loadedConfig s arguments = .error reason)
  /-- An item has no key, an unknown key or an unknown policy. No flag makes up for it. -/
  | item {before after : List Text} {item : Text} {reason : ParameterError}
      (has : ParameterItems arguments.parameters (before ++ item :: after))
      (refused : Refuses before.isEmpty item reason)
  /-- A field is empty after all layers. -/
  | emptyField {loaded : Config} {items : List Text} {settings : List Setting}
      (found : loadedConfig s arguments = .ok loaded)
      (has : ParameterItems arguments.parameters items) (gives : GivesAll true items settings)
      (empty : (layered loaded settings arguments.overrides).HasEmptyField)

theorem Fails.configure_ne_ok {s : Surroundings} {arguments : Arguments}
    (fails : Fails s arguments) (c : Config) : configure s arguments ≠ .ok c := by
  intro settled
  obtain ⟨items, has⟩ := exists_parameterItems arguments.parameters
  obtain ⟨loaded, settings, found, gives, rfl, filled⟩ := (configure_eq_ok_iff has).mp settled
  cases fails with
  | loading failed =>
      rw [found] at failed
      cases failed
  | item has' refused =>
      rw [has.eq has'] at gives
      exact absurd (by simpa using refused) gives.not_refuses
  | emptyField found' has' gives' empty =>
      rw [found] at found'
      rw [has.eq has'] at gives
      cases found'
      -- the items decide the settings as far as they count
      rw [layered_eq, gives.lastOf_eq gives', ← layered_eq] at filled
      exact filled empty

theorem fails_of_configure {s : Surroundings} {arguments : Arguments} {reason : RunError}
    (failed : configure s arguments = .error reason) : Fails s arguments := by
  cases found : loadedConfig s arguments with
  | error cause => exact .loading found
  | ok loaded =>
      obtain ⟨items, has⟩ := exists_parameterItems arguments.parameters
      rcases Overrides.givesAll_or_refusesOne true items with
        ⟨settings, gives⟩ | ⟨cause, refuses⟩
      · refine .emptyField found has gives ?_
        by_contra filled
        rw [(configure_eq_ok_iff has).mpr ⟨loaded, settings, found, gives, rfl, filled⟩] at failed
        cases failed
      · obtain ⟨before, item, after, rfl, refused⟩ := refuses.exists_item
        exact .item has refused

/-- **Every field is settled by its uppermost layer**: the flag, or else the last item of the
parameter string, or else the loaded configuration. Configuring fails exactly when loading fails,
or an item of the parameter string is refused, whatever the flags say, or the result has an empty
field. -/
theorem configure_layered (s : Surroundings) (arguments : Arguments) :
    (∀ c, configure s arguments = .ok c ↔
      ∃ loaded items settings, loadedConfig s arguments = .ok loaded ∧
        ParameterItems arguments.parameters items ∧ GivesAll true items settings ∧
        c = layered loaded settings arguments.overrides ∧ ¬ c.HasEmptyField) ∧
    ((∃ reason, configure s arguments = .error reason) ↔ Fails s arguments) := by
  refine ⟨fun c => ⟨fun settled => ?_, ?_⟩, ?_⟩
  · obtain ⟨items, has⟩ := exists_parameterItems arguments.parameters
    obtain ⟨loaded, settings, found, whole⟩ := (configure_eq_ok_iff has).mp settled
    exact ⟨loaded, items, settings, found, has, whole⟩
  · rintro ⟨loaded, items, settings, found, has, whole⟩
    exact (configure_eq_ok_iff has).mpr ⟨loaded, settings, found, whole⟩
  constructor
  · rintro ⟨reason, failed⟩
    exact fails_of_configure failed
  · intro fails
    cases settled : configure s arguments with
    | error reason => exact ⟨reason, rfl⟩
    | ok c => exact absurd settled (fails.configure_ne_ok c)

/-- The flag replaces the empty custom task, and of the outputs the last one counts. -/
example :
    settle Config.default
        { config := none
          input := []
          parameters := some "a.json;customtask=;output=b.json".toList
          overrides := { customTask := some "Tidy".toList }
          verbose := 0 } =
      .ok { Config.default with output := "b.json".toList, customTask := some "Tidy".toList } := by
  decide

end Program

end Compdb
