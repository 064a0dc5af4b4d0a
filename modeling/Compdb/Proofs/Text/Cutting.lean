/-
# Compdb.Proofs.Text.Cutting — where a text is cut, and what trimming leaves

Around a character of the class, the pieces of both parts of a text follow each other
(`splitWhere_append`). A text is cut at the last character of a class exactly when it is put
together from two parts around such a character, and the second part has none
(`splitLast_eq_some_iff`).

Trimming leaves a text whose ends are not in the class (`head?_trimWhere`, `getLast?_trimWhere`),
and such a text is left alone (`trimWhere_of_ends`); so trimming twice is trimming once
(`trimWhere_trimWhere`). Around a character which is not in the class, each end is trimmed by
itself (`trimWhere_around`).
-/
import Compdb.Text.Basic
import Mathlib.Data.List.TakeWhile

namespace Compdb.Text

set_option autoImplicit false

variable {p : Char → Bool} {t : Text}

theorem splitWhere_ne_nil (p : Char → Bool) (t : Text) : splitWhere p t ≠ [] := by
  cases t with
  | nil => simp [splitWhere]
  | cons c t =>
      rw [splitWhere]
      split
      · simp
      · split <;> simp

/-- A character of the class ends the pieces in front of it. -/
theorem splitWhere_append {c : Char} (cuts : p c = true) (before after : Text) :
    splitWhere p (before ++ c :: after) = splitWhere p before ++ splitWhere p after := by
  induction before with
  | nil => simp [splitWhere, cuts]
  | cons d before ih =>
      rw [List.cons_append, splitWhere, splitWhere, ih]
      split
      · rfl
      · cases pieces : splitWhere p before with
        | nil => exact absurd pieces (splitWhere_ne_nil p before)
        | cons piece pieces => rfl

theorem splitLast_eq_some_iff {before after : Text} :
    splitLast p t = some (before, after) ↔
      ∃ c, p c = true ∧ t = before ++ c :: after ∧ ∀ d ∈ after, p d = false := by
  constructor
  · intro cut
    have whole := List.takeWhile_append_dropWhile (p := fun c => !p c) (l := t.reverse)
    unfold splitLast at cut
    split at cut
    · cases cut
    · next c rest behind =>
      cases cut
      have stops := List.head?_dropWhile_not (fun c => !p c) t.reverse
      rw [behind] at stops whole
      refine ⟨c, by simpa using stops, ?_, fun d inside => ?_⟩
      · simpa using congrArg List.reverse whole.symm
      · simpa using List.mem_takeWhile_imp (List.mem_reverse.mp inside)
  · rintro ⟨c, cuts, rfl, kept⟩
    have passed : ∀ d ∈ after.reverse, (!p d) = true := by
      intro d inside
      simp [kept d (List.mem_reverse.mp inside)]
    have back : (before ++ c :: after).reverse = after.reverse ++ c :: before.reverse := by
      simp
    unfold splitLast
    rw [back, List.dropWhile_append_of_pos passed, List.takeWhile_append_of_pos passed,
      List.dropWhile_cons_of_neg (by simp [cuts]), List.takeWhile_cons_of_neg (by simp [cuts])]
    simp

/-! ## Trimming -/

theorem dropEndWhile_prefix (p : Char → Bool) (t : Text) : dropEndWhile p t <+: t := by
  rw [dropEndWhile, ← List.reverse_suffix, List.reverse_reverse]
  exact List.dropWhile_suffix p

theorem getLast?_dropEndWhile (p : Char → Bool) (t : Text) :
    (dropEndWhile p t).getLast?.any p = false := by
  have stops := List.head?_dropWhile_not p t.reverse
  rw [dropEndWhile, List.getLast?_reverse]
  cases head : (t.reverse.dropWhile p).head? with
  | none => rfl
  | some c => simpa [head] using stops

theorem getLast?_trimWhere (p : Char → Bool) (t : Text) :
    (trimWhere p t).getLast?.any p = false :=
  getLast?_dropEndWhile p _

theorem head?_trimWhere (p : Char → Bool) (t : Text) : (trimWhere p t).head?.any p = false := by
  have stops := List.head?_dropWhile_not p t
  obtain ⟨cut, whole⟩ := dropEndWhile_prefix p (t.dropWhile p)
  rw [trimWhere]
  cases kept : dropEndWhile p (t.dropWhile p) with
  | nil => rfl
  | cons c rest =>
      rw [← whole, kept] at stops
      simpa using stops

theorem dropEndWhile_append_of_all {after : Text}
    (all : ∀ c ∈ after, p c = true) (t : Text) :
    dropEndWhile p (t ++ after) = dropEndWhile p t := by
  have back : ∀ c ∈ after.reverse, p c = true := by simpa using all
  rw [dropEndWhile, List.reverse_append, List.dropWhile_append_of_pos back, dropEndWhile]

theorem dropWhile_append_cons {c : Char} (stays : p c = false) (before after : Text) :
    (before ++ c :: after).dropWhile p = before.dropWhile p ++ c :: after := by
  induction before with
  | nil => exact List.dropWhile_cons_of_neg (by simp [stays])
  | cons d before ih =>
      rw [List.cons_append, List.dropWhile_cons, List.dropWhile_cons]
      split
      · exact ih
      · rfl

/-- Around a character which stays, each end is trimmed by itself. -/
theorem trimWhere_around {c : Char} (stays : p c = false) (before after : Text) :
    trimWhere p (before ++ c :: after) = before.dropWhile p ++ c :: dropEndWhile p after := by
  have back : (before.dropWhile p ++ c :: after).reverse =
      after.reverse ++ c :: (before.dropWhile p).reverse := by
    simp
  rw [trimWhere, dropWhile_append_cons stays, dropEndWhile, back, dropWhile_append_cons stays,
    List.reverse_append, List.reverse_cons, List.reverse_reverse, dropEndWhile, List.append_assoc,
    List.singleton_append]

theorem dropWhile_append_solid {solid : Text} (nonempty : solid ≠ [])
    (kept : ∀ c ∈ solid, p c = false) (t : Text) :
    (t ++ solid).dropWhile p = t.dropWhile p ++ solid := by
  cases solid with
  | nil => exact absurd rfl nonempty
  | cons c solid => exact dropWhile_append_cons (kept c List.mem_cons_self) t solid

theorem dropEndWhile_of_kept (kept : ∀ c ∈ t, p c = false) : dropEndWhile p t = t := by
  have keptBack : ∀ c ∈ t.reverse, ¬ p c = true := by simpa using kept
  rw [dropEndWhile, List.dropWhile_eq_self_iff.mpr fun _ => keptBack _ (List.getElem_mem _),
    List.reverse_reverse]

/-- Only the end in front of a solid text is trimmed. -/
theorem trimWhere_append_solid {solid : Text} (nonempty : solid ≠ [])
    (kept : ∀ c ∈ solid, p c = false) (t : Text) :
    trimWhere p (t ++ solid) = t.dropWhile p ++ solid := by
  cases solid with
  | nil => exact absurd rfl nonempty
  | cons c solid =>
      rw [List.forall_mem_cons] at kept
      rw [trimWhere_around kept.1, dropEndWhile_of_kept kept.2]

/-- A text whose ends stay is not trimmed. -/
theorem trimWhere_of_ends (front : t.head?.any p = false) (back : t.getLast?.any p = false) :
    trimWhere p t = t := by
  have keeps (u : Text) (head : u.head?.any p = false) : u.dropWhile p = u := by
    cases u with
    | nil => rfl
    | cons c u => exact List.dropWhile_cons_of_neg (by simpa using head)
  rw [trimWhere, keeps t front, dropEndWhile, keeps t.reverse (by simpa using back),
    List.reverse_reverse]

theorem trimWhere_trimWhere (p : Char → Bool) (t : Text) :
    trimWhere p (trimWhere p t) = trimWhere p t :=
  trimWhere_of_ends (head?_trimWhere p t) (getLast?_trimWhere p t)

end Compdb.Text
