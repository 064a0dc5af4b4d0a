/-
# Compdb.Proofs.Config.Composition — parameter strings one after the other

The items of a parameter string of two parts are those of the one part and then those of the other.
Only the very first item may be an output path alone, so the second part is not read as it would be
by itself when it begins with such an item (`Composes.bare`), unless the first part is blank. In
all other cases nothing tells the parts apart: what the second part gives is put on top of what the
first one gives, and the first item which is refused decides the error (`ofParameters_append`).
-/
import Compdb.Proofs.Config.Settings

namespace Compdb.Overrides

set_option autoImplicit false

theorem takeItems_append (o : Overrides) (isFirst : Bool) (items more : List Text) :
    o.takeItems isFirst (items ++ more) =
      match o.takeItems isFirst items with
      | .ok o' => o'.takeItems (isFirst && items.isEmpty) more
      | .error reason => .error reason := by
  induction items generalizing o isFirst with
  | nil => simp [takeItems]
  | cons item items ih =>
      rw [List.cons_append, takeItems, takeItems]
      cases o.takeItem isFirst item with
      | ok o' => simp [ih]
      | error reason => rfl

/-- The second part is read on top of the first one, and begins the string when that has no item. -/
theorem ofParameters_append_eq (a b : Text) :
    ofParameters (a ++ ';' :: b) =
      match ofParameters a with
      | .ok o => o.takeItems (Text.listItems ';' a).isEmpty (Text.listItems ';' b)
      | .error reason => .error reason := by
  rw [ofParameters, Text.listItems_append, takeItems_append, Bool.true_and, ofParameters]

/-- An item with a key is read alike wherever it stands. -/
theorem Gives.moved {isFirst : Bool} {item : Text} {setting : Setting}
    (gives : Gives isFirst item setting) (keyed : '=' ∈ item) (isFirst' : Bool) :
    Gives isFirst' item setting := by
  cases gives with
  | bare _ noKey => exact absurd keyed noKey
  | pair isPair named hasValue => exact .pair isPair named hasValue

theorem Refuses.moved {isFirst : Bool} {item : Text} {reason : ParameterError}
    (refuses : Refuses isFirst item reason) (keyed : '=' ∈ item) (isFirst' : Bool) :
    Refuses isFirst' item reason := by
  cases refuses with
  | noKey _ noKey => exact absurd keyed noKey
  | unknownKey isPair unknown => exact .unknownKey isPair unknown
  | unknownPolicy isPair named unknown => exact .unknownPolicy isPair named unknown

/-- Items which begin with a keyed one can as well follow others: what they give is put on top of
what is there, and what is refused among them stays refused. -/
theorem takeItems_of_keyed {items : List Text}
    (keyed : ∀ item, items.head? = some item → '=' ∈ item) (o : Overrides) (isFirst : Bool) :
    o.takeItems isFirst items =
      match takeItems {} true items with
      | .ok later => .ok (o.followedBy later)
      | .error reason => .error reason := by
  cases read : takeItems {} true items with
  | ok later =>
      obtain ⟨settings, gives, rfl⟩ := takeItems_eq_ok_iff.mp read
      refine takeItems_eq_ok_iff.mpr ⟨settings, ?_, by rw [empty_followedBy]⟩
      cases gives with
      | nil => exact .nil isFirst
      | cons first others => exact .cons (first.moved (keyed _ rfl) isFirst) others
  | error reason =>
      refine takeItems_eq_error_iff.mpr ?_
      cases takeItems_eq_error_iff.mp read with
      | here items refuses => exact .here items (refuses.moved (keyed _ rfl) isFirst)
      | later first refuses => exact .later (first.moved (keyed _ rfl) isFirst) refuses

/-- What a parameter string of two parts is read as, given what its parts are read as, and which
items they have. -/
structure Composes (a b : Text) (result : Except ParameterError Overrides) : Prop where
  /-- The first error decides. -/
  failed : ∀ reason, ofParameters a = .error reason → result = .error reason
  /-- A part without items does not count. -/
  blank : Text.HasItems ';' a [] → result = ofParameters b
  /-- Behind another item, an item without a key is refused. -/
  bare : ∀ o first items item more, ofParameters a = .ok o →
    Text.HasItems ';' a (first :: items) → Text.HasItems ';' b (item :: more) → '=' ∉ item →
    result = .error (.unknownKey item)
  failedLater : ∀ o items reason, ofParameters a = .ok o → Text.HasItems ';' b items →
    (∀ item, items.head? = some item → '=' ∈ item) → ofParameters b = .error reason →
    result = .error reason
  /-- The later setting of a field wins, as if the parts were applied one after the other. -/
  both : ∀ o items later, ofParameters a = .ok o → Text.HasItems ';' b items →
    (∀ item, items.head? = some item → '=' ∈ item) → ofParameters b = .ok later →
    result = .ok (o.followedBy later) ∧ ∀ c, (o.followedBy later).apply c = later.apply (o.apply c)

/-- **Parameter strings compose**: the later setting of a field wins, and the first error
decides. -/
theorem ofParameters_append (a b : Text) : Composes a b (ofParameters (a ++ ';' :: b)) := by
  rw [ofParameters_append_eq]
  refine ⟨?_, ?_, ?_, ?_, ?_⟩
  · intro reason failed
    rw [failed]
  · intro blank
    rw [ofParameters, ← Text.hasItems_iff.mp blank]
    rfl
  · intro o first items item more read inFront behind noKey
    rw [read, ← Text.hasItems_iff.mp inFront, ← Text.hasItems_iff.mp behind]
    exact takeItems_eq_error_iff.mpr (.here more (.noKey rfl noKey))
  · intro o items reason read has keyed failed
    obtain rfl := Text.hasItems_iff.mp has
    have behind := takeItems_of_keyed keyed o (Text.listItems ';' a).isEmpty
    rw [← ofParameters, failed] at behind
    rw [read]
    exact behind
  · intro o items later read has keyed readLater
    obtain rfl := Text.hasItems_iff.mp has
    have behind := takeItems_of_keyed keyed o (Text.listItems ';' a).isEmpty
    rw [← ofParameters, readLater] at behind
    rw [read]
    exact ⟨behind, apply_followedBy o later⟩

/-- An output path without its key, then a field which is given twice, with a blank item in between,
and an empty value. -/
example :
    ofParameters "cdb.json;merge=overwrite; ; Merge = skip-existing;customtask=".toList =
      .ok { output := "cdb.json".toList, customTask := some [], merge := some .skipExisting } := by
  decide

end Compdb.Overrides
