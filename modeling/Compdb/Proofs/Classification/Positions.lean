/-
# Compdb.Proofs.Classification.Positions — which tokens are values, and which ones matter

What a token means depends on its place. An option can take the token behind it as its value, and
a value is not an option itself, whatever it looks like (`isValueAt`). The first `link` which is
no value ends the compiler arguments (`linkPosition`). What matters are the other tokens before
it, each with its value: the items (`items`).

All of this is said by positions, from the front of the list. The laws are about cutting a list:
at a position which is no value, the rest reads like a list of its own (`isValueAt_append_add`), so
the items of both parts follow each other (`items_append`), and what stands behind a link is not
looked at (`items_append_of_link`). From these come the items of a list by its first token
(`items_cons`, `items_cons_cons`), and an induction from one item to the next
(`induction_items`).
-/
import Compdb.Proofs.Classification.Names
import Mathlib.Data.List.Basic

namespace Compdb.Tokens

set_option autoImplicit false

/-! ## Positions -/

/-- Whether the token at a position is the value of the one before it. -/
def isValueAt (tokens : List Text) : Nat → Bool
  | 0 => false
  | i + 1 =>
      match tokens[i]?, tokens[i + 1]? with
      | some token, some next => !isValueAt tokens i && takesNext token next
      | _, _ => false

/-- Whether a `link` which is no value stands at a position. -/
def isLinkAt (tokens : List Text) (i : Nat) : Bool :=
  !isValueAt tokens i && tokens[i]?.any isLink

/-- The position of the first `link` which is no value, or the length of the list. -/
def linkPosition (tokens : List Text) : Nat :=
  (List.range tokens.length).findIdx (isLinkAt tokens)

/-- A token which is not a value, with its value when it has one. -/
structure Item where
  token : Text
  value : Option Text
  deriving DecidableEq, Repr

/-- What stands at a position, unless a value does. -/
def itemAt (tokens : List Text) (i : Nat) : Option Item :=
  if isValueAt tokens i then none
  else
    tokens[i]?.map fun token =>
      ⟨token, if isValueAt tokens (i + 1) then tokens[i + 1]? else none⟩

/-- The items before the link. -/
def items (tokens : List Text) : List Item :=
  (List.range (linkPosition tokens)).filterMap (itemAt tokens)

/-- Whether a list without a link ends in an option with one of these names, which has no value
yet. -/
def awaitsValue (names tokens : List Text) : Bool :=
  linkPosition tokens == tokens.length && !isValueAt tokens (tokens.length - 1)
    && tokens.getLast?.any (isNamed names)

variable {a b tokens : List Text} {i : Nat}

/-! ## The link -/

theorem isLinkAt_of_lt (before : i < linkPosition tokens) : isLinkAt tokens i = false := by
  have passed := List.not_of_lt_findIdx before
  simpa using passed

theorem linkPosition_le (tokens : List Text) : linkPosition tokens ≤ tokens.length := by
  have short : linkPosition tokens ≤ (List.range tokens.length).length := List.findIdx_le_length
  rwa [List.length_range] at short

theorem isLinkAt_linkPosition (met : linkPosition tokens < tokens.length) :
    isLinkAt tokens (linkPosition tokens) = true := by
  have inside : linkPosition tokens < (List.range tokens.length).length := by
    rwa [List.length_range]
  have found : isLinkAt tokens (List.range tokens.length)[linkPosition tokens] = true :=
    List.findIdx_getElem (w := inside)
  rwa [List.getElem_range] at found

theorem linkPosition_eq {n : Nat} (short : n ≤ tokens.length)
    (before : ∀ i < n, isLinkAt tokens i = false)
    (here : n < tokens.length → isLinkAt tokens n = true) : linkPosition tokens = n := by
  rcases Nat.lt_trichotomy (linkPosition tokens) n with earlier | same | later
  · have link := isLinkAt_linkPosition (Nat.lt_of_lt_of_le earlier short)
    rw [before _ earlier] at link
    cases link
  · exact same
  · have link := here (Nat.lt_of_lt_of_le later (linkPosition_le tokens))
    rw [isLinkAt_of_lt later] at link
    cases link

/-! ## Cutting a list -/

theorem isValueAt_succ (tokens : List Text) (i : Nat) :
    isValueAt tokens (i + 1) =
      match tokens[i]?, tokens[i + 1]? with
      | some token, some next => !isValueAt tokens i && takesNext token next
      | _, _ => false := rfl

/-- Behind its end a list has no values. -/
theorem isValueAt_length (tokens : List Text) : isValueAt tokens tokens.length = false := by
  cases n : tokens.length with
  | zero => rfl
  | succ n' =>
      have none : tokens[n' + 1]? = none := List.getElem?_eq_none (by omega)
      rw [isValueAt_succ, none]
      cases tokens[n']? <;> rfl

theorem getElem?_append_add (a b : List Text) (i : Nat) : (a ++ b)[a.length + i]? = b[i]? := by
  rw [List.getElem?_append_right (Nat.le_add_right _ _), Nat.add_sub_cancel_left]

/-- A position is a value by what stands before it. -/
theorem isValueAt_append (inside : i < a.length) : isValueAt (a ++ b) i = isValueAt a i := by
  induction i with
  | zero => rfl
  | succ i ih =>
      rw [isValueAt_succ, isValueAt_succ, List.getElem?_append_left inside,
        List.getElem?_append_left (by omega), ih (by omega)]

/-- Behind a position which is no value, the rest reads like a list of its own. -/
theorem isValueAt_append_add (free : isValueAt (a ++ b) a.length = false) (i : Nat) :
    isValueAt (a ++ b) (a.length + i) = isValueAt b i := by
  induction i with
  | zero => exact free
  | succ i ih =>
      rw [← Nat.add_assoc, isValueAt_succ, isValueAt_succ, ih, getElem?_append_add, Nat.add_assoc,
        getElem?_append_add]

theorem isLinkAt_append (inside : i < a.length) : isLinkAt (a ++ b) i = isLinkAt a i := by
  rw [isLinkAt, isLinkAt, isValueAt_append inside, List.getElem?_append_left inside]

theorem isLinkAt_append_add (free : isValueAt (a ++ b) a.length = false) (i : Nat) :
    isLinkAt (a ++ b) (a.length + i) = isLinkAt b i := by
  rw [isLinkAt, isLinkAt, isValueAt_append_add free, getElem?_append_add]

/-- The first link of a list stays the first one. -/
theorem linkPosition_append_of_link (met : linkPosition a < a.length) (b : List Text) :
    linkPosition (a ++ b) = linkPosition a := by
  refine linkPosition_eq ?_ ?_ ?_
  · rw [List.length_append]
    omega
  · intro i before
    rw [isLinkAt_append (Nat.lt_trans before met)]
    exact isLinkAt_of_lt before
  · intro _
    rw [isLinkAt_append met]
    exact isLinkAt_linkPosition met

theorem linkPosition_append (noLink : linkPosition a = a.length)
    (free : isValueAt (a ++ b) a.length = false) :
    linkPosition (a ++ b) = a.length + linkPosition b := by
  have short := linkPosition_le b
  refine linkPosition_eq ?_ ?_ ?_
  · rw [List.length_append]
    omega
  · intro i before
    rcases Nat.lt_or_ge i a.length with inside | behind
    · rw [isLinkAt_append inside]
      exact isLinkAt_of_lt (noLink ▸ inside)
    · obtain ⟨j, rfl⟩ := Nat.exists_eq_add_of_le behind
      rw [isLinkAt_append_add free]
      exact isLinkAt_of_lt (by omega)
  · intro met
    rw [isLinkAt_append_add free]
    rw [List.length_append] at met
    exact isLinkAt_linkPosition (by omega)

/-- An item depends on the next position too. -/
theorem itemAt_append (inside : i < a.length)
    (next : i + 1 < a.length ∨ isValueAt (a ++ b) a.length = false) :
    itemAt (a ++ b) i = itemAt a i := by
  rw [itemAt, itemAt, isValueAt_append inside, List.getElem?_append_left inside]
  rcases Nat.lt_or_ge (i + 1) a.length with further | last
  · rw [isValueAt_append further, List.getElem?_append_left further]
  · have last : i + 1 = a.length := by omega
    have free : isValueAt (a ++ b) a.length = false := next.resolve_left (by omega)
    rw [last, free, isValueAt_length]
    rfl

theorem itemAt_append_add (free : isValueAt (a ++ b) a.length = false) (i : Nat) :
    itemAt (a ++ b) (a.length + i) = itemAt b i := by
  rw [itemAt, itemAt, isValueAt_append_add free, Nat.add_assoc, isValueAt_append_add free,
    getElem?_append_add, getElem?_append_add]

/-- What stands behind a link is not looked at. -/
theorem items_append_of_link (met : linkPosition a < a.length) (b : List Text) :
    items (a ++ b) = items a := by
  rw [items, items, linkPosition_append_of_link met]
  refine List.filterMap_congr fun i before => ?_
  rw [List.mem_range] at before
  exact itemAt_append (Nat.lt_trans before met) (Or.inl (by omega))

/-- Without a link, and with no value across the cut, the items of both parts follow each other. -/
theorem items_append (noLink : linkPosition a = a.length)
    (free : isValueAt (a ++ b) a.length = false) : items (a ++ b) = items a ++ items b := by
  rw [items, linkPosition_append noLink free, List.range_add, List.filterMap_append,
    List.filterMap_map, items, items, noLink]
  congr 1
  · refine List.filterMap_congr fun i inside => ?_
    exact itemAt_append (List.mem_range.mp inside) (Or.inr free)
  · exact List.filterMap_congr fun i _ => itemAt_append_add free i

/-! ## Items from the front -/

theorem linkPosition_singleton {token : Text} (noLink : isLink token = false) :
    linkPosition [token] = 1 := by
  refine linkPosition_eq (Nat.le_refl _) ?_ (fun met => absurd met (by simp))
  intro i first
  obtain rfl : i = 0 := by omega
  simp [isLinkAt, noLink]

/-- Nothing is looked at from a link on. -/
theorem items_cons_of_link {token : Text} (link : isLink token = true) (rest : List Text) :
    items (token :: rest) = [] := by
  have here : linkPosition (token :: rest) = 0 := by
    refine linkPosition_eq (Nat.zero_le _) (by simp) fun _ => ?_
    simp [isLinkAt, isValueAt, link]
  rw [items, here]
  rfl

/-- A token which does not take the next one is an item by itself. -/
theorem items_cons {token : Text} {rest : List Text} (noLink : isLink token = false)
    (alone : ∀ next ∈ rest.head?, takesNext token next = false) :
    items (token :: rest) = ⟨token, none⟩ :: items rest := by
  have free : isValueAt ([token] ++ rest) 1 = false := by
    cases rest with
    | nil => rfl
    | cons next rest => simpa [isValueAt] using alone next rfl
  have first : items [token] = [⟨token, none⟩] := by
    rw [items, linkPosition_singleton noLink]
    rfl
  have cut := items_append (a := [token]) (linkPosition_singleton noLink) free
  rw [first] at cut
  exact cut

/-- A token and its value are an item. -/
theorem items_cons_cons {token value : Text} (takes : takesNext token value = true)
    (rest : List Text) :
    items (token :: value :: rest) = ⟨token, some value⟩ :: items rest := by
  have taken : isValueAt [token, value] 1 = true := by simp [isValueAt, takes]
  have noLink : linkPosition [token, value] = [token, value].length := by
    refine linkPosition_eq (Nat.le_refl _) ?_ (fun met => absurd met (by simp))
    intro i inside
    match i, inside with
    | 0, _ => simp [isLinkAt, isLink_of_takesNext takes]
    | 1, _ => simp [isLinkAt, taken]
  have free : isValueAt ([token, value] ++ rest) 2 = false := by
    have value' : isValueAt (token :: value :: rest) 1 = true := by simp [isValueAt, takes]
    rw [List.cons_append, List.singleton_append, isValueAt_succ, value']
    cases (token :: value :: rest)[2]? <;> rfl
  have first : items [token, value] = [⟨token, some value⟩] := by
    rw [items, noLink]
    simp [List.range_succ, itemAt, isValueAt, takes]
  have cut := items_append (a := [token, value]) noLink free
  rw [first] at cut
  exact cut

/-- From one item to the next: a list is empty, begins with a token which does not take the next
one, or with a token and its value. -/
theorem induction_items {motive : List Text → Prop} (nil : motive [])
    (alone : ∀ token rest, (∀ next ∈ rest.head?, takesNext token next = false) →
      motive rest → motive (token :: rest))
    (pair : ∀ token value rest, takesNext token value = true →
      motive rest → motive (token :: value :: rest)) : ∀ tokens, motive tokens
  | [] => nil
  | [token] => alone token [] (by simp) nil
  | token :: next :: rest => by
      cases takes : takesNext token next with
      | true => exact pair token next rest takes (induction_items nil alone pair rest)
      | false =>
          refine alone token (next :: rest) ?_ (induction_items nil alone pair (next :: rest))
          simpa using takes

end Compdb.Tokens
