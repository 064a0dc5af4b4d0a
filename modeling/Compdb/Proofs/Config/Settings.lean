/-
# Compdb.Proofs.Config.Settings — which settings a parameter string gives

An item of a parameter string gives one setting (`Gives`), or it is refused for a reason
(`Refuses`); which of the two, is a matter of the item and of whether it is the first one
(`gives_or_refuses`). A list of items gives a list of settings, or one of its items is the first to
be refused (`givesAll_or_refusesOne`). Reading the items follows this: of the settings the last one
for each field counts (`Overrides.lastOf`), on top of what is there already
(`takeItems_eq_ok_iff`), and the first item which is refused decides the error
(`takeItems_eq_error_iff`).

Overrides on top of others (`Overrides.followedBy`) are replaced field by field, and applying them
is applying the ones after the others (`apply_followedBy`).
-/
import Compdb.Config.Overrides
import Compdb.Proofs.Text.Items

namespace Compdb

set_option autoImplicit false

/-- One setting of a configuration which can be overridden. -/
inductive Setting where
  | output (path : Text)
  | customTask (name : Text)
  | logFile (destination : LogDestination)
  | merge (policy : MergePolicy)
  deriving DecidableEq, Repr

namespace Setting

/-- The key of the setting in a parameter string. -/
def key : Setting → Text
  | output _ => Overrides.outputKey
  | customTask _ => Overrides.customTaskKey
  | logFile _ => Overrides.logFileKey
  | merge _ => Overrides.mergeKey

/-- Whether the text is a value for the setting. -/
def HasValue : Setting → Text → Prop
  | output path, value => path = value
  | customTask name, value => name = value
  | logFile destination, value => destination = LogDestination.ofText value
  | merge policy, value => policy.name = value

def output? : Setting → Option Text
  | output path => some path
  | _ => none

def customTask? : Setting → Option Text
  | customTask name => some name
  | _ => none

def logFile? : Setting → Option LogDestination
  | logFile destination => some destination
  | _ => none

def merge? : Setting → Option MergePolicy
  | merge policy => some policy
  | _ => none

end Setting

theorem MergePolicy.ofName?_name (policy : MergePolicy) : ofName? policy.name = some policy := by
  cases policy <;> decide

theorem MergePolicy.ofName?_eq_none {value : Text} (unknown : ∀ policy, name policy ≠ value) :
    ofName? value = none := by
  rw [ofName?, List.find?_eq_none]
  intro policy _ named
  exact unknown policy (by simpa using named)

namespace Overrides

/-! ## Overrides on top of others -/

/-- The overrides with further ones on top of them. -/
def followedBy (o later : Overrides) : Overrides where
  output := later.output.or o.output
  customTask := later.customTask.or o.customTask
  logFile := later.logFile.or o.logFile
  merge := later.merge.or o.merge

/-- The last of the settings for each field. -/
def lastOf (settings : List Setting) : Overrides where
  output := (settings.filterMap Setting.output?).getLast?
  customTask := (settings.filterMap Setting.customTask?).getLast?
  logFile := (settings.filterMap Setting.logFile?).getLast?
  merge := (settings.filterMap Setting.merge?).getLast?

theorem followedBy_assoc (o later latest : Overrides) :
    (o.followedBy later).followedBy latest = o.followedBy (later.followedBy latest) := by
  simp [followedBy, Option.or_assoc]

theorem empty_followedBy (o : Overrides) : ({} : Overrides).followedBy o = o := by
  simp [followedBy]

/-- Applying overrides with others on top of them is applying the ones and then the others. -/
theorem apply_followedBy (o later : Overrides) (c : Config) :
    (o.followedBy later).apply c = later.apply (o.apply c) := by
  simp [followedBy, apply, Option.getD_or, Option.or_assoc]

theorem lastOf_cons (setting : Setting) (settings : List Setting) :
    lastOf (setting :: settings) = (lastOf [setting]).followedBy (lastOf settings) := by
  rw [← List.singleton_append]
  simp only [lastOf, followedBy, List.filterMap_append, List.getLast?_append]

/-! ## Items -/

/-- The item has an equals sign; in front of the first one stands the key, and behind it the value,
both without the white space around them. -/
def IsPair (item key value : Text) : Prop :=
  ∃ before after, item = before ++ '=' :: after ∧ '=' ∉ before ∧
    Text.trim before = key ∧ Text.trim after = value

/-- The item gives the setting: by its key, in any letter case, and its value. The first item can be
the output path alone. -/
inductive Gives (isFirst : Bool) (item : Text) : Setting → Prop where
  | bare (first : isFirst = true) (noKey : '=' ∉ item) : Gives isFirst item (.output item)
  | pair {key value : Text} {setting : Setting} (isPair : IsPair item key value)
      (named : Text.foldCase key = setting.key) (hasValue : setting.HasValue value) :
      Gives isFirst item setting

/-- The item gives no setting, for a reason: it has no key and is not the first one, or its key is
unknown, or no policy has the name which is its value. -/
inductive Refuses (isFirst : Bool) (item : Text) : ParameterError → Prop where
  | noKey (later : isFirst = false) (noKey : '=' ∉ item) : Refuses isFirst item (.unknownKey item)
  | unknownKey {key value : Text} (isPair : IsPair item key value)
      (unknown : ∀ setting : Setting, Text.foldCase key ≠ setting.key) :
      Refuses isFirst item (.unknownKey key)
  | unknownPolicy {key value : Text} (isPair : IsPair item key value)
      (named : Text.foldCase key = mergeKey)
      (unknown : ∀ policy : MergePolicy, policy.name ≠ value) :
      Refuses isFirst item (.unknownPolicy value)

theorem exists_isPair {item : Text} (keyed : '=' ∈ item) : ∃ key value, IsPair item key value := by
  obtain ⟨before, after, whole, first⟩ := List.eq_append_cons_of_mem keyed
  exact ⟨_, _, before, after, whole, first, rfl, rfl⟩

theorem IsPair.takeItem_eq {item key value : Text} (isPair : IsPair item key value)
    (o : Overrides) (isFirst : Bool) : o.takeItem isFirst item = o.takeValue key value := by
  obtain ⟨before, after, rfl, first, rfl, rfl⟩ := isPair
  rw [takeItem, Text.splitFirst_append first]

theorem takeItem_of_gives {isFirst : Bool} {item : Text} {setting : Setting}
    (gives : Gives isFirst item setting) (o : Overrides) :
    o.takeItem isFirst item = .ok (o.followedBy (lastOf [setting])) := by
  cases gives with
  | bare first noKey =>
      rw [takeItem, Text.splitFirst_of_not_mem noKey, first]
      rfl
  | pair isPair named hasValue =>
      rw [isPair.takeItem_eq, takeValue, named]
      cases setting with
      | output path =>
          cases hasValue
          rfl
      | customTask name =>
          cases hasValue
          rfl
      | logFile destination =>
          cases hasValue
          rfl
      | merge policy =>
          cases hasValue
          simp only [Setting.key, MergePolicy.ofName?_name]
          rfl

theorem takeItem_of_refuses {isFirst : Bool} {item : Text} {reason : ParameterError}
    (refuses : Refuses isFirst item reason) (o : Overrides) :
    o.takeItem isFirst item = .error reason := by
  cases refuses with
  | noKey later noKey =>
      rw [takeItem, Text.splitFirst_of_not_mem noKey, later]
      rfl
  | unknownKey isPair unknown =>
      have notOutput := unknown (.output [])
      have notCustomTask := unknown (.customTask [])
      have notLogFile := unknown (.logFile .stdout)
      have notMerge := unknown (.merge .overwrite)
      simp only [Setting.key] at notOutput notCustomTask notLogFile notMerge
      rw [isPair.takeItem_eq, takeValue]
      simp [notOutput, notCustomTask, notLogFile, notMerge]
  | unknownPolicy isPair named unknown =>
      rw [isPair.takeItem_eq, takeValue, named, MergePolicy.ofName?_eq_none unknown]
      rfl

theorem gives_or_refuses (isFirst : Bool) (item : Text) :
    (∃ setting, Gives isFirst item setting) ∨ ∃ reason, Refuses isFirst item reason := by
  by_cases keyed : '=' ∈ item
  · obtain ⟨key, value, isPair⟩ := exists_isPair keyed
    by_cases known : ∃ setting : Setting, Text.foldCase key = setting.key
    · obtain ⟨setting, named⟩ := known
      cases setting with
      | output path => exact .inl ⟨.output value, .pair isPair named rfl⟩
      | customTask name => exact .inl ⟨.customTask value, .pair isPair named rfl⟩
      | logFile destination =>
          exact .inl ⟨.logFile (LogDestination.ofText value), .pair isPair named rfl⟩
      | merge policy =>
          by_cases policyKnown : ∃ policy : MergePolicy, policy.name = value
          · obtain ⟨policy, hasValue⟩ := policyKnown
            exact .inl ⟨.merge policy, .pair isPair named hasValue⟩
          · exact .inr ⟨_, .unknownPolicy isPair named (not_exists.mp policyKnown)⟩
    · exact .inr ⟨_, .unknownKey isPair (not_exists.mp known)⟩
  · cases isFirst with
    | true => exact .inl ⟨_, .bare rfl keyed⟩
    | false => exact .inr ⟨_, .noKey rfl keyed⟩

/-! ## Lists of items -/

/-- Each item gives the setting at its place. -/
inductive GivesAll : Bool → List Text → List Setting → Prop where
  | nil (isFirst : Bool) : GivesAll isFirst [] []
  | cons {isFirst : Bool} {item : Text} {setting : Setting} {items : List Text}
      {settings : List Setting} (first : Gives isFirst item setting)
      (others : GivesAll false items settings) :
      GivesAll isFirst (item :: items) (setting :: settings)

/-- An item is refused, and those in front of it give settings. -/
inductive RefusesOne : Bool → List Text → ParameterError → Prop where
  | here {isFirst : Bool} {item : Text} {reason : ParameterError} (items : List Text)
      (refuses : Refuses isFirst item reason) : RefusesOne isFirst (item :: items) reason
  | later {isFirst : Bool} {item : Text} {setting : Setting} {items : List Text}
      {reason : ParameterError} (first : Gives isFirst item setting)
      (refuses : RefusesOne false items reason) : RefusesOne isFirst (item :: items) reason

theorem givesAll_or_refusesOne (isFirst : Bool) (items : List Text) :
    (∃ settings, GivesAll isFirst items settings) ∨ ∃ reason, RefusesOne isFirst items reason := by
  induction items generalizing isFirst with
  | nil => exact .inl ⟨[], .nil isFirst⟩
  | cons item items ih =>
      rcases gives_or_refuses isFirst item with ⟨setting, first⟩ | ⟨reason, refuses⟩
      · rcases ih false with ⟨settings, others⟩ | ⟨reason, refuses⟩
        · exact .inl ⟨_, .cons first others⟩
        · exact .inr ⟨_, .later first refuses⟩
      · exact .inr ⟨_, .here items refuses⟩

theorem GivesAll.takeItems_eq {isFirst : Bool} {items : List Text} {settings : List Setting}
    (gives : GivesAll isFirst items settings) (o : Overrides) :
    o.takeItems isFirst items = .ok (o.followedBy (lastOf settings)) := by
  induction gives generalizing o with
  | nil isFirst => rfl
  | @cons isFirst item setting items settings first _ ih =>
      have rest := ih (o.followedBy (lastOf [setting]))
      rw [followedBy_assoc, ← lastOf_cons] at rest
      rw [takeItems, takeItem_of_gives first]
      exact rest

/-- The items decide which settings they give. -/
theorem GivesAll.lastOf_eq {isFirst : Bool} {items : List Text} {settings settings' : List Setting}
    (gives : GivesAll isFirst items settings) (gives' : GivesAll isFirst items settings') :
    lastOf settings = lastOf settings' := by
  have taken := gives.takeItems_eq {}
  rw [gives'.takeItems_eq, empty_followedBy, empty_followedBy] at taken
  exact (Except.ok.inj taken).symm

theorem RefusesOne.takeItems_eq {isFirst : Bool} {items : List Text} {reason : ParameterError}
    (refuses : RefusesOne isFirst items reason) (o : Overrides) :
    o.takeItems isFirst items = .error reason := by
  induction refuses generalizing o with
  | here items refuses => rw [takeItems, takeItem_of_refuses refuses]
  | later first _ ih =>
      rw [takeItems, takeItem_of_gives first]
      exact ih _

/-- A list of items which gives settings has no item that is refused. -/
theorem GivesAll.not_refuses {isFirst : Bool} {before after : List Text} {item : Text}
    {settings : List Setting} {reason : ParameterError}
    (gives : GivesAll isFirst (before ++ item :: after) settings) :
    ¬ Refuses (isFirst && before.isEmpty) item reason := by
  induction before generalizing isFirst settings with
  | nil =>
      intro refuses
      rw [List.isEmpty_nil, Bool.and_true] at refuses
      cases gives with
      | cons first _ =>
          have taken := takeItem_of_gives first {}
          rw [takeItem_of_refuses refuses] at taken
          cases taken
  | cons earlier before ih =>
      cases gives with
      | cons _ others => simpa using ih others

theorem RefusesOne.exists_item {isFirst : Bool} {items : List Text} {reason : ParameterError}
    (refuses : RefusesOne isFirst items reason) :
    ∃ before item after, items = before ++ item :: after ∧
      Refuses (isFirst && before.isEmpty) item reason := by
  induction refuses with
  | @here isFirst item reason items refuses =>
      exact ⟨[], item, items, rfl, by simpa using refuses⟩
  | @later isFirst item setting items reason first _ ih =>
      obtain ⟨before, refused, after, rfl, refuses⟩ := ih
      exact ⟨item :: before, refused, after, rfl, by simpa using refuses⟩

/-- Reading succeeds when every item gives a setting. -/
theorem takeItems_eq_ok_iff {o o' : Overrides} {isFirst : Bool} {items : List Text} :
    o.takeItems isFirst items = .ok o' ↔
      ∃ settings, GivesAll isFirst items settings ∧ o' = o.followedBy (lastOf settings) := by
  constructor
  · intro taken
    rcases givesAll_or_refusesOne isFirst items with ⟨settings, gives⟩ | ⟨reason, refuses⟩
    · rw [gives.takeItems_eq] at taken
      exact ⟨settings, gives, (Except.ok.inj taken).symm⟩
    · rw [refuses.takeItems_eq] at taken
      cases taken
  · rintro ⟨settings, gives, rfl⟩
    exact gives.takeItems_eq o

/-- Reading fails by the first item which is refused. -/
theorem takeItems_eq_error_iff {o : Overrides} {isFirst : Bool} {items : List Text}
    {reason : ParameterError} :
    o.takeItems isFirst items = .error reason ↔ RefusesOne isFirst items reason := by
  refine ⟨fun failed => ?_, fun refuses => refuses.takeItems_eq o⟩
  rcases givesAll_or_refusesOne isFirst items with ⟨settings, gives⟩ | ⟨reason', refuses⟩
  · rw [gives.takeItems_eq] at failed
    cases failed
  · rw [refuses.takeItems_eq] at failed
    cases failed
    exact refuses

end Overrides

end Compdb
