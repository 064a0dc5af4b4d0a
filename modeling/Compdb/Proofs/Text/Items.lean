/-
# Compdb.Proofs.Text.Items — the items of a list, and the parts of an item

A list which is put together from parts with separators in between has the items of the parts, in
order (`listItems_append`, `listItems_intercalate`). A part without separator is one item, or none
when it is blank (`listItems_of_not_mem`). So the items of a list are those which its grammar gives
it (`HasItems`, `hasItems_iff`).

An item is cut at the first occurrence of a character, if it has one (`splitFirst_append`,
`splitFirst_of_not_mem`). White space around a text is trimmed away (`trim_pad`), and nothing is
left of a blank text (`trim_eq_nil_iff`).
-/
import Compdb.Proofs.Text.Cutting
import Compdb.Text.Blank

namespace Compdb.Text

set_option autoImplicit false

/-! ## Cutting at the first occurrence -/

theorem splitFirst_append {c : Char} {before : Text} (first : c ∉ before) (after : Text) :
    splitFirst c (before ++ c :: after) = some (before, after) := by
  induction before with
  | nil => simp [splitFirst]
  | cons d before ih =>
      rw [List.mem_cons, not_or] at first
      rw [List.cons_append, splitFirst, if_neg (by simpa using Ne.symm first.1), ih first.2]
      rfl

theorem splitFirst_of_not_mem {c : Char} {t : Text} (absent : c ∉ t) : splitFirst c t = none := by
  induction t with
  | nil => rfl
  | cons d t ih =>
      rw [List.mem_cons, not_or] at absent
      rw [splitFirst, if_neg (by simpa using Ne.symm absent.1), ih absent.2]
      rfl

/-! ## Trimming -/

/-- White space around a text is trimmed away. -/
theorem trim_pad {before after : Text} (blankBefore : allBlank before = true)
    (blankAfter : allBlank after = true) (t : Text) : trim (before ++ t ++ after) = trim t := by
  rw [allBlank, List.all_eq_true] at blankBefore blankAfter
  rw [trim, trimWhere, List.append_assoc, List.dropWhile_append_of_pos blankBefore,
    List.dropWhile_append, trim, trimWhere]
  cases kept : t.dropWhile isBlank with
  | nil =>
      have nothing : after.dropWhile isBlank = [] := List.dropWhile_eq_nil_iff.mpr blankAfter
      simp [nothing]
  | cons c rest =>
      rw [List.isEmpty_cons, if_neg Bool.false_ne_true, dropEndWhile_append_of_all blankAfter]

/-- What is dropped in front of a text is blank. -/
theorem exists_front (t : Text) :
    ∃ before, allBlank before = true ∧ before ++ t.dropWhile isBlank = t := by
  refine ⟨t.takeWhile isBlank, ?_, List.takeWhile_append_dropWhile⟩
  rw [allBlank, List.all_eq_true]
  exact fun c inside => List.mem_takeWhile_imp inside

/-- What is dropped behind a text is blank. -/
theorem exists_back (t : Text) :
    ∃ after, allBlank after = true ∧ dropEndWhile isBlank t ++ after = t := by
  obtain ⟨after, blank, whole⟩ := exists_front t.reverse
  refine ⟨after.reverse, ?_, ?_⟩
  · rwa [allBlank, List.all_reverse]
  · rw [dropEndWhile, ← List.reverse_append, whole, List.reverse_reverse]

/-- A text is what is left of it by trimming, with white space around it. -/
theorem exists_pad (t : Text) :
    ∃ before after, t = before ++ trim t ++ after ∧ allBlank before = true ∧
      allBlank after = true := by
  obtain ⟨before, blankBefore, front⟩ := exists_front t
  obtain ⟨after, blankAfter, back⟩ := exists_back (t.dropWhile isBlank)
  refine ⟨before, after, ?_, blankBefore, blankAfter⟩
  rw [trim, trimWhere, List.append_assoc, back, front]

theorem trim_dropWhile (t : Text) : trim (t.dropWhile isBlank) = trim t := by
  obtain ⟨before, blank, whole⟩ := exists_front t
  have nothing : allBlank [] = true := rfl
  have padded := trim_pad blank nothing (t.dropWhile isBlank)
  rwa [List.append_nil, whole, eq_comm] at padded

theorem trim_dropEndWhile (t : Text) : trim (dropEndWhile isBlank t) = trim t := by
  obtain ⟨after, blank, whole⟩ := exists_back t
  have nothing : allBlank [] = true := rfl
  have padded := trim_pad nothing blank (dropEndWhile isBlank t)
  rwa [List.nil_append, whole, eq_comm] at padded

theorem trim_eq_nil_iff {t : Text} : trim t = [] ↔ allBlank t = true := by
  rw [allBlank, List.all_eq_true, ← List.dropWhile_eq_nil_iff, trim, trimWhere, dropEndWhile,
    List.reverse_eq_nil_iff, List.dropWhile_eq_nil_iff]
  refine ⟨fun all => ?_, fun nothing => by simp [nothing]⟩
  have stops := List.head?_dropWhile_not isBlank t
  cases kept : t.dropWhile isBlank with
  | nil => rfl
  | cons c rest =>
      rw [kept] at all stops
      simp [all c (by simp)] at stops

/-! ## Lists of items -/

theorem splitAt_of_not_mem {c : Char} {t : Text} (absent : c ∉ t) : splitAt c t = [t] := by
  induction t with
  | nil => rfl
  | cons d t ih =>
      rw [List.mem_cons, not_or] at absent
      have rest := ih absent.2
      rw [splitAt] at rest
      rw [splitAt, splitWhere, if_neg (by simpa using Ne.symm absent.1), rest]

theorem listItems_append (c : Char) (t u : Text) :
    listItems c (t ++ c :: u) = listItems c t ++ listItems c u := by
  rw [listItems, splitAt, splitWhere_append (by simp), List.map_append, List.filter_append]
  rfl

theorem listItems_intercalate (c : Char) (parts : List Text) :
    listItems c ([c].intercalate parts) = parts.flatMap (listItems c) := by
  induction parts with
  | nil => rfl
  | cons part parts ih =>
      cases parts with
      | nil => simp
      | cons next parts =>
          rw [List.intercalate_cons_cons, List.append_assoc, List.singleton_append,
            listItems_append, ih]
          rfl

/-- A part without separator is one item, unless it is blank. -/
theorem listItems_of_not_mem {c : Char} {t : Text} (absent : c ∉ t) :
    listItems c t = if allBlank t then [] else [trim t] := by
  rw [listItems, splitAt_of_not_mem absent, List.map_singleton]
  cases blank : allBlank t with
  | true => simp [trim_eq_nil_iff.mpr blank]
  | false =>
      have filled : trim t ≠ [] := by
        rw [Ne, trim_eq_nil_iff, blank]
        exact Bool.false_ne_true
      simp [filled]

/-! ## The grammar of a list -/

/-- What is left of a part of a list: nothing of white space, and else the text between the white
space at its ends. -/
inductive Leaves : Text → List Text → Prop where
  | nothing {part : Text} (blank : allBlank part = true) : Leaves part []
  | item {before item after : Text} (blankBefore : allBlank before = true)
      (blankAfter : allBlank after = true) (filled : item ≠ [])
      (front : item.head?.any isBlank = false) (back : item.getLast?.any isBlank = false) :
      Leaves (before ++ item ++ after) [item]

/-- The items of a list: what is left of its parts, which stand between the separators. -/
inductive HasItems (separator : Char) : Text → List Text → Prop where
  | last {part : Text} {items : List Text} (unseparated : separator ∉ part)
      (leaves : Leaves part items) : HasItems separator part items
  | part {part rest : Text} {items more : List Text} (unseparated : separator ∉ part)
      (leaves : Leaves part items) (others : HasItems separator rest more) :
      HasItems separator (part ++ separator :: rest) (items ++ more)

theorem leaves_iff {part : Text} {items : List Text} :
    Leaves part items ↔ items = if allBlank part then [] else [trim part] := by
  constructor
  · intro leaves
    cases leaves with
    | nothing blank => rw [if_pos blank]
    | @item before item after blankBefore blankAfter filled front back =>
        have trimmed : trim (before ++ item ++ after) = item := by
          rw [trim_pad blankBefore blankAfter]
          exact trimWhere_of_ends front back
        have notBlank : ¬ allBlank (before ++ item ++ after) = true := by
          rwa [← trim_eq_nil_iff, trimmed]
        rw [if_neg notBlank, trimmed]
  · rintro rfl
    split
    · next blank => exact .nothing blank
    · next notBlank =>
      obtain ⟨before, after, whole, blankBefore, blankAfter⟩ := exists_pad part
      have leaves : Leaves (before ++ trim part ++ after) [trim part] :=
        .item blankBefore blankAfter (mt trim_eq_nil_iff.mp notBlank) (head?_trimWhere _ part)
          (getLast?_trimWhere _ part)
      rwa [← whole] at leaves

/-- Every list has its items, and no other ones. -/
theorem hasItems_iff {separator : Char} {t : Text} {items : List Text} :
    HasItems separator t items ↔ items = listItems separator t := by
  constructor
  · intro has
    induction has with
    | last unseparated leaves => rw [listItems_of_not_mem unseparated, leaves_iff.mp leaves]
    | part unseparated leaves _ ih =>
        rw [listItems_append, listItems_of_not_mem unseparated, leaves_iff.mp leaves, ih]
  · rintro rfl
    induction length : t.length using Nat.strongRecOn generalizing t with
    | ind n ih =>
        by_cases separated : separator ∈ t
        · obtain ⟨part, rest, rfl, unseparated⟩ := List.eq_append_cons_of_mem separated
          have shorter : rest.length < n := by
            rw [← length, List.length_append, List.length_cons]
            omega
          rw [listItems_append]
          refine .part unseparated (leaves_iff.mpr ?_) (ih _ shorter rfl)
          exact listItems_of_not_mem unseparated
        · exact .last separated (leaves_iff.mpr (listItems_of_not_mem separated))

theorem hasItems_listItems (separator : Char) (t : Text) :
    HasItems separator t (listItems separator t) :=
  hasItems_iff.mpr rfl

end Compdb.Text
