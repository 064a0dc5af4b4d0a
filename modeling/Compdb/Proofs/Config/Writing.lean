/-
# Compdb.Proofs.Config.Writing — overrides written as parameter strings

Overrides can be written as a parameter string in many ways: their settings come in any order, with
keys in any letter case and with white space around every key, value and item; blank items stand
wherever one likes, and the output path may come first without a key (`Writes`). Each of these
strings is read as the overrides which it was written from (`ofParameters_of_writes`).

A value must not have a separator or white space at its ends, since reading would cut it there, and
a file of the records must not be spelled like the standard output (`IsWritable`). Nothing else is
asked of it: it may be empty, have equals signs and look like a setting itself.
-/
import Compdb.Proofs.Config.Settings
import Compdb.Proofs.Invocation
import Mathlib.Data.List.Basic

namespace Compdb

set_option autoImplicit false

/-! ## What is written -/

/-- A value which reading leaves as it is: without separators, and without white space around it. -/
structure Text.IsPlain (value : Text) : Prop where
  unseparated : ';' ∉ value
  front : value.head?.any Text.isBlank = false
  back : value.getLast?.any Text.isBlank = false

/-- The value of the setting as a text. -/
def Setting.text : Setting → Text
  | output path => path
  | customTask name => name
  | logFile destination => destination.toText
  | merge policy => policy.name

/-- The item is the key of the setting, in any letter case, an equals sign and the value, with white
space around the key and the value. -/
inductive Setting.Writes (setting : Setting) : Text → Prop where
  | mk (key before behind ahead after : Text) (named : Text.foldCase key = setting.key)
      (blankBefore : Text.allBlank before = true) (blankBehind : Text.allBlank behind = true)
      (blankAhead : Text.allBlank ahead = true) (blankAfter : Text.allBlank after = true) :
      Writes setting (before ++ key ++ behind ++ '=' :: (ahead ++ setting.text ++ after))

namespace Overrides

/-- The settings which are present. -/
def settings (o : Overrides) : List Setting :=
  o.output.toList.map .output ++ o.customTask.toList.map .customTask
    ++ o.logFile.toList.map .logFile ++ o.merge.toList.map .merge

/-- The values can be written in a parameter string. -/
structure IsWritable (o : Overrides) : Prop where
  output : ∀ path, o.output = some path → path.IsPlain
  customTask : ∀ name, o.customTask = some name → name.IsPlain
  logFile : ∀ path, o.logFile = some (.file path) →
    path.IsPlain ∧ Text.sameFolded path LogDestination.stdoutName = false

/-- The items are the settings in order, with blank items between them. -/
inductive WritesItems : List Setting → List Text → Prop where
  | nil : WritesItems [] []
  | blank {settings : List Setting} {item : Text} {items : List Text}
      (blank : Text.allBlank item = true) (rest : WritesItems settings items) :
      WritesItems settings (item :: items)
  | setting {setting : Setting} {settings : List Setting} {item : Text} {items : List Text}
      (first : setting.Writes item) (rest : WritesItems settings items) :
      WritesItems (setting :: settings) (item :: items)

/-- The items are the settings of the overrides in some order. The first one can be the output path
without its key, when it is not empty and is not taken for a setting itself. -/
inductive Writes (o : Overrides) : List Text → Prop where
  | keyed {settings : List Setting} {items : List Text} (order : settings.Perm o.settings)
      (written : WritesItems settings items) : Writes o items
  | bare {path before after : Text} {blanks items : List Text} {settings : List Setting}
      (present : o.output = some path) (filled : path ≠ []) (noKey : '=' ∉ path)
      (blank : ∀ item ∈ blanks, Text.allBlank item = true)
      (blankBefore : Text.allBlank before = true) (blankAfter : Text.allBlank after = true)
      (order : settings.Perm { o with output := none }.settings)
      (written : WritesItems settings items) :
      Writes o (blanks ++ (before ++ path ++ after) :: items)

end Overrides

/-! ## Reading what is written -/

/-- White space has no separator and no equals sign. -/
theorem Text.not_mem_of_allBlank {t : Text} (blank : allBlank t = true) : ';' ∉ t ∧ '=' ∉ t := by
  rw [allBlank, List.all_eq_true] at blank
  refine ⟨fun inside => ?_, fun inside => ?_⟩
  · exact absurd (blank _ inside) (by decide)
  · exact absurd (blank _ inside) (by decide)

theorem Text.IsPlain.trim_eq {value : Text} (plain : value.IsPlain) : trim value = value :=
  trimWhere_of_ends plain.front plain.back

namespace Setting

/-- A key has no character at which an item is cut and none which is trimmed away, whatever the case
of its letters. -/
theorem kept_of_foldCase_eq_key {key : Text} {setting : Setting}
    (named : Text.foldCase key = setting.key) :
    (∀ c ∈ key, Text.isBlank c = false) ∧ ';' ∉ key ∧ '=' ∉ key := by
  have kept : setting.key.any (fun c => Text.isBlank c || c == ';' || c == '=') = false := by
    cases setting <;> rfl
  have caseless : ∀ c, (Text.isBlank c || c == ';' || c == '=') = true → c.toLower = c := by
    intro c met
    simp only [Bool.or_eq_true, beq_iff_eq] at met
    rcases met with (blank | rfl) | rfl
    · exact Text.toLower_of_isBlank blank
    · rfl
    · rfl
  have solid := Text.kept_of_foldCase named caseless kept
  simp only [Bool.or_eq_false_iff, beq_eq_false_iff_ne] at solid
  exact ⟨fun c inside => (solid c inside).1.1, fun inside => (solid _ inside).1.2 rfl,
    fun inside => (solid _ inside).2 rfl⟩

theorem trim_of_foldCase_eq_key {key : Text} {setting : Setting}
    (named : Text.foldCase key = setting.key) : Text.trim key = key := by
  have solid := (kept_of_foldCase_eq_key named).1
  refine Text.trimWhere_of_ends ?_ ?_
  · cases front : key.head? with
    | none => rfl
    | some c => exact solid c (List.mem_of_head? front)
  · cases back : key.getLast? with
    | none => rfl
    | some c => exact solid c (List.mem_of_getLast? back)

variable {setting : Setting} {item : Text}

/-- White space does not keep the key and the value from being read. -/
theorem Writes.exists_isPair (writes : setting.Writes item) (plain : setting.text.IsPlain) :
    ∃ key, Text.foldCase key = setting.key ∧ Overrides.IsPair item key setting.text := by
  obtain ⟨key, before, behind, ahead, after, named, blankBefore, blankBehind, blankAhead,
    blankAfter⟩ := writes
  refine ⟨key, named, _, _, rfl, ?_, ?_, ?_⟩
  · simp [(Text.not_mem_of_allBlank blankBefore).2, (Text.not_mem_of_allBlank blankBehind).2,
      (kept_of_foldCase_eq_key named).2.2]
  · rw [Text.trim_pad blankBefore blankBehind, trim_of_foldCase_eq_key named]
  · rw [Text.trim_pad blankAhead blankAfter, plain.trim_eq]

theorem Writes.unseparated (writes : setting.Writes item) (plain : setting.text.IsPlain) :
    ';' ∉ item := by
  obtain ⟨key, before, behind, ahead, after, named, blankBefore, blankBehind, blankAhead,
    blankAfter⟩ := writes
  simp [(Text.not_mem_of_allBlank blankBefore).1, (Text.not_mem_of_allBlank blankBehind).1,
    (Text.not_mem_of_allBlank blankAhead).1, (Text.not_mem_of_allBlank blankAfter).1,
    (kept_of_foldCase_eq_key named).2.1, plain.unseparated]

end Setting

namespace Overrides

/-- White space around an item does not matter to its key and its value. -/
theorem IsPair.trim {item key value : Text} (isPair : IsPair item key value) :
    IsPair (Text.trim item) key value := by
  obtain ⟨before, after, rfl, first, rfl, rfl⟩ := isPair
  refine ⟨_, _, Text.trimWhere_around (by decide) before after, fun inside => ?_,
    Text.trim_dropWhile before, Text.trim_dropEndWhile after⟩
  exact first ((List.dropWhile_suffix _).subset inside)

theorem IsPair.mem {item key value : Text} (isPair : IsPair item key value) : '=' ∈ item := by
  obtain ⟨before, after, rfl, -⟩ := isPair
  simp

/-- An item which is written for a setting is one item, and gives the setting. -/
theorem gives_of_writes {setting : Setting} {item : Text} (writes : setting.Writes item)
    (plain : setting.text.IsPlain) (hasValue : setting.HasValue setting.text) (isFirst : Bool) :
    Text.listItems ';' item = [Text.trim item] ∧ Gives isFirst (Text.trim item) setting := by
  obtain ⟨key, named, isPair⟩ := writes.exists_isPair plain
  have filled : Text.allBlank item = false := by
    rw [Bool.eq_false_iff]
    exact fun blank => (Text.not_mem_of_allBlank blank).2 isPair.mem
  refine ⟨?_, .pair isPair.trim named hasValue⟩
  rw [Text.listItems_of_not_mem (writes.unseparated plain), filled]
  rfl

theorem listItems_of_allBlank {item : Text} (blank : Text.allBlank item = true) :
    Text.listItems ';' item = [] := by
  rw [Text.listItems_of_not_mem (Text.not_mem_of_allBlank blank).1, if_pos blank]

/-- A value without its key is one item, when it is not empty. -/
theorem listItems_of_isPlain {value before after : Text} (plain : value.IsPlain)
    (filled : value ≠ []) (blankBefore : Text.allBlank before = true)
    (blankAfter : Text.allBlank after = true) :
    Text.listItems ';' (before ++ value ++ after) = [value] := by
  have unseparated : ';' ∉ before ++ value ++ after := by
    simp [(Text.not_mem_of_allBlank blankBefore).1, (Text.not_mem_of_allBlank blankAfter).1,
      plain.unseparated]
  have trimmed : Text.trim (before ++ value ++ after) = value := by
    rw [Text.trim_pad blankBefore blankAfter, plain.trim_eq]
  have notBlank : ¬ Text.allBlank (before ++ value ++ after) = true := by
    rw [← Text.trim_eq_nil_iff, trimmed]
    exact filled
  rw [Text.listItems_of_not_mem unseparated, if_neg notBlank, trimmed]

/-- The items which are written for settings give these settings; blank items drop out. -/
theorem givesAll_of_writesItems {settings : List Setting} {items : List Text}
    (written : WritesItems settings items)
    (plain : ∀ setting ∈ settings, setting.text.IsPlain ∧ setting.HasValue setting.text)
    (isFirst : Bool) : GivesAll isFirst (items.flatMap (Text.listItems ';')) settings := by
  induction written generalizing isFirst with
  | nil => exact .nil isFirst
  | blank blank _ ih =>
      rw [List.flatMap_cons, listItems_of_allBlank blank]
      exact ih plain isFirst
  | setting first _ ih =>
      rw [List.forall_mem_cons] at plain
      obtain ⟨one, gives⟩ := gives_of_writes first plain.1.1 plain.1.2 isFirst
      rw [List.flatMap_cons, one]
      exact .cons gives (ih plain.2 false)

theorem mem_settings {o : Overrides} {setting : Setting} :
    setting ∈ o.settings ↔
      (∃ path, o.output = some path ∧ .output path = setting) ∨
      (∃ name, o.customTask = some name ∧ .customTask name = setting) ∨
      (∃ destination, o.logFile = some destination ∧ .logFile destination = setting) ∨
      ∃ policy, o.merge = some policy ∧ .merge policy = setting := by
  simp [settings]

/-- The text of a setting can be a value, and is one for this setting. -/
theorem IsWritable.isPlain_and_hasValue {o : Overrides} (writable : o.IsWritable) :
    ∀ setting ∈ o.settings, setting.text.IsPlain ∧ setting.HasValue setting.text := by
  intro setting member
  rcases mem_settings.mp member with ⟨path, present, rfl⟩ | ⟨name, present, rfl⟩ |
    ⟨destination, present, rfl⟩ | ⟨policy, present, rfl⟩
  · exact ⟨writable.output path present, rfl⟩
  · exact ⟨writable.customTask name present, rfl⟩
  · cases destination with
    | stdout => exact ⟨⟨by decide, by decide, by decide⟩, rfl⟩
    | file path =>
        obtain ⟨plain, apart⟩ := writable.logFile path present
        refine ⟨plain, ?_⟩
        show LogDestination.file path = LogDestination.ofText path
        rw [LogDestination.ofText, apart]
        rfl
  · cases policy <;> exact ⟨⟨by decide, by decide, by decide⟩, rfl⟩

theorem getLast?_of_perm_toList {α : Type} {values : List α} {value? : Option α}
    (order : values.Perm value?.toList) : values.getLast? = value? := by
  cases value? with
  | none => rw [order.eq_nil]; rfl
  | some value => rw [List.perm_singleton.mp order]; rfl

/-- A field has one setting at most, so the order of the settings makes no difference. -/
theorem lastOf_of_perm {o : Overrides} {settings : List Setting}
    (order : settings.Perm o.settings) : lastOf settings = o := by
  have outputs : o.settings.filterMap Setting.output? = o.output.toList := by
    simp [Overrides.settings, List.filterMap_map, Function.comp_def, Setting.output?]
  have customTasks : o.settings.filterMap Setting.customTask? = o.customTask.toList := by
    simp [Overrides.settings, List.filterMap_map, Function.comp_def, Setting.customTask?]
  have logFiles : o.settings.filterMap Setting.logFile? = o.logFile.toList := by
    simp [Overrides.settings, List.filterMap_map, Function.comp_def, Setting.logFile?]
  have merges : o.settings.filterMap Setting.merge? = o.merge.toList := by
    simp [Overrides.settings, List.filterMap_map, Function.comp_def, Setting.merge?]
  rw [lastOf, getLast?_of_perm_toList (outputs ▸ order.filterMap Setting.output?),
    getLast?_of_perm_toList (customTasks ▸ order.filterMap Setting.customTask?),
    getLast?_of_perm_toList (logFiles ▸ order.filterMap Setting.logFile?),
    getLast?_of_perm_toList (merges ▸ order.filterMap Setting.merge?)]

/-- A parameter string whose items give the settings in some order is read as the overrides. -/
theorem ofParameters_of_givesAll {o : Overrides} {settings : List Setting} {items : List Text}
    (gives : GivesAll true (items.flatMap (Text.listItems ';')) settings)
    (order : settings.Perm o.settings) : ofParameters ([';'].intercalate items) = .ok o := by
  rw [ofParameters, Text.listItems_intercalate, gives.takeItems_eq, empty_followedBy,
    lastOf_of_perm order]

/-- **Reading undoes writing**: overrides which are written as a parameter string, in whichever way,
are read back from it. -/
theorem ofParameters_of_writes {o : Overrides} (writable : o.IsWritable) {items : List Text}
    (writes : o.Writes items) : ofParameters ([';'].intercalate items) = .ok o := by
  have plain := writable.isPlain_and_hasValue
  cases writes with
  | keyed order written =>
      refine ofParameters_of_givesAll (givesAll_of_writesItems written ?_ true) order
      exact fun setting member => plain setting (order.mem_iff.mp member)
  | @bare path before after blanks items settings present filled noKey blank blankBefore blankAfter
      order written =>
      have whole : o.settings = .output path :: { o with output := none }.settings := by
        simp [Overrides.settings, present]
      have orderWhole : (Setting.output path :: settings).Perm o.settings := by
        rw [whole]
        exact order.cons _
      refine ofParameters_of_givesAll ?_ orderWhole
      have noItems : blanks.flatMap (Text.listItems ';') = [] :=
        List.flatMap_eq_nil_iff.mpr fun item member => listItems_of_allBlank (blank item member)
      rw [List.flatMap_append, noItems, List.nil_append, List.flatMap_cons,
        listItems_of_isPlain (writable.output path present) filled blankBefore blankAfter]
      refine .cons (.bare rfl noKey) (givesAll_of_writesItems written ?_ false)
      exact fun setting member =>
        plain setting (orderWhole.mem_iff.mp (List.mem_cons_of_mem _ member))

/-- The output path stands alone and looks like a key, the custom task looks like a setting, and the
file of the records is empty. -/
theorem ofParameters_of_writes_bare :
    ∃ o, o = Overrides.mk (some "merge".toList) (some "output=x".toList) (some (.file []))
        (some .skipExisting) ∧
      o.IsWritable ∧
      ofParameters " ;\tmerge ; Merge= skip-existing;; LOGFILE =;customTask=output=x ".toList =
        .ok o := by
  refine ⟨_, rfl, ?_⟩
  have writable : IsWritable
      ⟨some "merge".toList, some "output=x".toList, some (.file []), some .skipExisting⟩ := by
    refine ⟨?_, ?_, ?_⟩
    · rintro path ⟨⟩
      exact ⟨by decide, by decide, by decide⟩
    · rintro name ⟨⟩
      exact ⟨by decide, by decide, by decide⟩
    · rintro path ⟨⟩
      exact ⟨⟨by decide, by decide, by decide⟩, by decide⟩
  have keyed : WritesItems
      [.merge .skipExisting, .logFile (.file []), .customTask "output=x".toList]
      [" Merge= skip-existing".toList, [], " LOGFILE =".toList, "customTask=output=x ".toList] :=
    .setting (.mk "Merge".toList [' '] [] [' '] [] (by decide) rfl rfl rfl rfl)
      (.blank rfl
        (.setting (.mk "LOGFILE".toList [' '] [' '] [] [] (by decide) rfl rfl rfl rfl)
          (.setting (.mk "customTask".toList [] [] [] [' '] (by decide) rfl rfl rfl rfl) .nil)))
  have written : Writes
      ⟨some "merge".toList, some "output=x".toList, some (.file []), some .skipExisting⟩
      ([[' ']] ++ (['\t'] ++ "merge".toList ++ [' ']) ::
        [" Merge= skip-existing".toList, [], " LOGFILE =".toList, "customTask=output=x ".toList]) :=
    .bare rfl (by decide) (by decide) (by decide) rfl rfl (by decide) keyed
  exact ⟨writable, ofParameters_of_writes writable written⟩

end Overrides

end Compdb
