/-
# Compdb.Proofs.Classification.Values — which options have a value

A parameterized option takes the token behind it, whatever that is. So the only option which can be
without a value is the last token, and then the list awaits one (`complete_or_awaits`).
-/
import Compdb.Proofs.Classification.Composition

namespace Compdb.Tokens

set_option autoImplicit false

/-- A token which has no value and is none. -/
def Item.single (token : Text) : Item := ⟨token, none⟩

/-- Has a value, or is no parameterized option. -/
def Item.IsComplete (item : Item) : Prop :=
  isNamed keptNames item.token = true → item.value.isSome = true

theorem Item.arguments_single {option : Text} (named : isNamed keptNames option = true) :
    (Item.single option).arguments = [option] := by
  simp [Item.arguments, Item.single, named]

/-- An option with a token behind it has a value. -/
theorem isComplete_of_itemAt {tokens : List Text} {i : Nat} {item : Item}
    (here : itemAt tokens i = some item) (more : i + 1 < tokens.length) : item.IsComplete := by
  intro named
  unfold itemAt at here
  split at here
  · cases here
  · next free =>
    obtain ⟨token, stands, rfl⟩ := Option.map_eq_some_iff.mp here
    have behind : tokens[i + 1]? = some tokens[i + 1] := List.getElem?_eq_getElem more
    have taken : isValueAt tokens (i + 1) = true := by
      rw [isValueAt_succ, stands, behind]
      simpa [free] using takesNext_of_parameterized named tokens[i + 1]
    simp [taken, behind]

/-- A list which awaits no value gives every option one: an option at the end would be awaiting. -/
theorem isComplete_of_settled {tokens : List Text}
    (settled : awaitsValue keptNames tokens = false) :
    ∀ item ∈ items tokens, item.IsComplete := by
  intro item member named
  obtain ⟨i, before, here⟩ := List.mem_filterMap.mp member
  rw [List.mem_range] at before
  have short := linkPosition_le tokens
  rcases Nat.lt_or_ge (i + 1) tokens.length with more | last
  · exact isComplete_of_itemAt here more named
  · obtain rfl : i = tokens.length - 1 := by omega
    unfold itemAt at here
    split at here
    · cases here
    · next free =>
      obtain ⟨token, stands, rfl⟩ := Option.map_eq_some_iff.mp here
      rw [← List.getLast?_eq_getElem?] at stands
      have awaits : awaitsValue keptNames tokens = true :=
        awaitsValue_iff.mpr ⟨by omega, by simpa using free, token, stands, named⟩
      rw [settled] at awaits
      cases awaits

/-- All items have their values, but for the option at the end of a list which awaits one. -/
theorem complete_or_awaits (tokens : List Text) :
    (awaitsValue keptNames tokens = false ∧ ∀ item ∈ items tokens, item.IsComplete) ∨
      (awaitsValue keptNames tokens = true ∧ ∃ front option,
        items tokens = front ++ [Item.single option] ∧
          isNamed keptNames option = true ∧ ∀ item ∈ front, item.IsComplete) := by
  cases awaits : awaitsValue keptNames tokens with
  | false => exact Or.inl ⟨rfl, isComplete_of_settled awaits⟩
  | true =>
      obtain ⟨front, option, rfl, before, free, named⟩ := exists_of_awaitsValue awaits
      have alone : items [option] = [Item.single option] :=
        items_cons (isLink_of_parameterized named) (by simp)
      refine Or.inr ⟨rfl, items front, option, ?_, named, fun item member => ?_⟩
      · rw [items_append before free, alone]
      · obtain ⟨i, inside, here⟩ := List.mem_filterMap.mp member
        rw [before, List.mem_range] at inside
        rw [← itemAt_append inside (Or.inr free)] at here
        exact isComplete_of_itemAt here (by simpa using inside)

end Compdb.Tokens
