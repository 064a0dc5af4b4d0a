/-
# Compdb.Proofs.Invocation.Reading — what a command line is read as

A line with the marker is read around the leftmost occurrence of it (`ReadAround`). Leftmost means
two things which are the same here: no occurrence in the line begins further left
(`EndsAtMarker.leftmost`), and the part up to its end has no other one (`EndsAtMarker`).

The compiler is what is left of that part without the white space and then without the quotes in
front. It still ends with the occurrence, and as an end of a text which has one occurrence it has no
other one (`EndsAtMarker.of_suffix`). So the line is the compiler and the arguments, with white
space and quotes in front of the compiler, and one quote at most between the two.
-/
import Compdb.Proofs.Invocation.Marker
import Mathlib.Data.List.TakeWhile

namespace Compdb.Invocation

set_option autoImplicit false

variable {start found after line : Text}

/-- No occurrence of the marker in a line begins further left than the one at the end of a beginning
which has no other. -/
theorem EndsAtMarker.leftmost (ends : EndsAtMarker (start ++ found))
    (isMarker : Text.foldCase found = marker) {start' found' after' : Text}
    (isMarker' : Text.foldCase found' = marker)
    (same : start ++ found ++ after = start' ++ found' ++ after') :
    start.length ≤ start'.length := by
  have lengths : found'.length = found.length := by
    rw [← Text.length_foldCase, isMarker', ← isMarker, Text.length_foldCase]
  by_contra further
  have begins : start' ++ found' <+: start ++ found ++ after := by
    rw [same]
    exact List.prefix_append _ _
  obtain ⟨more, whole⟩ : start' ++ found' <+: start ++ found := by
    refine List.prefix_of_prefix_length_le begins (List.prefix_append _ _) ?_
    simp only [List.length_append]
    omega
  have nothing : Text.foldCase more = [] := by
    refine ends.only (Text.foldCase start') _ ?_
    rw [← whole, Text.foldCase_append, Text.foldCase_append, isMarker']
  have sizes := congrArg List.length whole
  rw [List.map_eq_nil_iff.mp nothing] at sizes
  simp only [List.length_append, List.length_nil] at sizes
  omega

/-- An end of such a beginning is one itself when the marker is still there. -/
theorem EndsAtMarker.of_suffix {t rest : Text} (ends : EndsAtMarker t) (suffix : rest <:+ t)
    (kept : marker <:+ Text.foldCase rest) : EndsAtMarker rest := by
  refine ⟨kept, fun left right occurrence => ?_⟩
  obtain ⟨cut, rfl⟩ := suffix
  refine ends.only (Text.foldCase cut ++ left) right ?_
  rw [Text.foldCase_append, occurrence, List.append_assoc, List.append_assoc, List.append_assoc]

/-- What a line around an occurrence of the marker is read as. -/
structure ReadAround (line start found after : Text) (invocation : Invocation) : Prop where
  whole : line = start ++ found ++ after
  isMarker : Text.foldCase found = marker
  leftmost : ∀ start' found' after', line = start' ++ found' ++ after' →
    Text.foldCase found' = marker → start.length ≤ start'.length
  noEarlier : EndsAtMarker (start ++ found)
  /-- White space is dropped first, and then quotes; both in front only. -/
  compiler : invocation.compiler =
    ((start ++ found).dropWhile Text.isBlank).dropWhile (· == '"')
  isSuffix : invocation.compiler <:+ start ++ found
  keepsMarker : found <:+ invocation.compiler
  filled : invocation.compiler ≠ []
  noOther : EndsAtMarker invocation.compiler
  arguments : invocation.arguments = if after.head? = some '"' then after.tail else after
  /-- Nothing else is lost. -/
  parts : ∃ blanks quotes closing,
    line = blanks ++ quotes ++ invocation.compiler ++ closing ++ invocation.arguments ∧
      (∀ c ∈ blanks, Text.isBlank c = true) ∧ (∀ c ∈ quotes, c = '"') ∧
        (closing = [] ∨ closing = ['"'])

theorem dropClosingQuote_eq (after : Text) :
    dropClosingQuote after = if after.head? = some '"' then after.tail else after := by
  unfold dropClosingQuote
  split
  · rfl
  · next other =>
    rw [if_neg]
    intro quote
    obtain ⟨rest, rfl⟩ := List.head?_eq_some_iff.mp quote
    exact other rest rfl

/-- In front of the arguments stands one quote at most. -/
theorem exists_closing (after : Text) :
    ∃ closing, after = closing ++ dropClosingQuote after ∧ (closing = [] ∨ closing = ['"']) := by
  unfold dropClosingQuote
  split
  · exact ⟨['"'], rfl, Or.inr rfl⟩
  · exact ⟨[], rfl, Or.inl rfl⟩

theorem suffix_trimmed (start found : Text) :
    (start.dropWhile Text.isBlank).dropWhile (· == '"') ++ found <:+ start ++ found := by
  have dropped := (List.dropWhile_suffix (· == '"')).trans
    (List.dropWhile_suffix Text.isBlank (l := start))
  exact List.suffix_append_self_iff.mpr dropped

theorem readAround_trimmed (isMarker : Text.foldCase found = marker)
    (ends : EndsAtMarker (start ++ found)) (after : Text) :
    ReadAround (start ++ found ++ after) start found after
      ⟨(start.dropWhile Text.isBlank).dropWhile (· == '"') ++ found, dropClosingQuote after⟩ where
  whole := rfl
  isMarker := isMarker
  leftmost _ _ _ same isMarker' := ends.leftmost isMarker isMarker' same
  noEarlier := ends
  compiler := by
    have kept := kept_of_foldCase_eq_marker isMarker
    have nonempty := ne_nil_of_foldCase_eq_marker isMarker
    rw [Text.dropWhile_append_solid nonempty fun c member => (kept c member).1,
      Text.dropWhile_append_solid nonempty fun c member => (kept c member).2]
  isSuffix := suffix_trimmed start found
  keepsMarker := List.suffix_append _ _
  filled := by simp [ne_nil_of_foldCase_eq_marker isMarker]
  noOther := by
    refine ends.of_suffix (suffix_trimmed start found) ?_
    rw [Text.foldCase_append, isMarker]
    exact List.suffix_append _ _
  arguments := dropClosingQuote_eq after
  parts := by
    obtain ⟨closing, behind, one⟩ := exists_closing after
    refine ⟨start.takeWhile Text.isBlank, (start.dropWhile Text.isBlank).takeWhile (· == '"'),
      closing, ?_, fun c member => List.mem_takeWhile_imp member, fun c member => ?_, one⟩
    · conv_lhs => rw [behind, ← List.takeWhile_append_dropWhile (p := Text.isBlank) (l := start),
        ← List.takeWhile_append_dropWhile (p := (· == '"')) (l := start.dropWhile Text.isBlank)]
      simp only [List.append_assoc]
    · simpa using List.mem_takeWhile_imp member

/-- **A line is read exactly when the marker is somewhere in it**, in any case of its letters; it is
read around the leftmost occurrence then. -/
theorem ofLine_cases (line : Text) :
    (ofLine line = none ∧ ¬ marker <:+: Text.foldCase line) ∨
      (marker <:+: Text.foldCase line ∧ ∃ invocation start found after,
        ofLine line = some invocation ∧ ReadAround line start found after invocation) := by
  cases parsed : ofLine line with
  | none => exact Or.inl ⟨rfl, (ofLine_eq_none_iff line).mp parsed⟩
  | some invocation =>
      obtain ⟨⟨before, after⟩, cut, rfl⟩ := Option.map_eq_some_iff.mp parsed
      have ends := endsAtMarker_of_splitAtMarker cut
      obtain ⟨rfl, start, found, rfl, isMarker⟩ := splitAtMarker_eq_some cut
      have occurs : marker <:+: Text.foldCase (start ++ found ++ after) := by
        rw [Text.foldCase_append, Text.foldCase_append, isMarker]
        exact ⟨_, _, rfl⟩
      refine Or.inr ⟨occurs, _, start, found, after, rfl, ?_⟩
      show ReadAround _ _ _ _ ⟨Text.trimQuotes (Text.trim (start ++ found)), dropClosingQuote after⟩
      rw [trim_append_found isMarker]
      exact readAround_trimmed isMarker ends after

/-- White space behind a quote stays, and so does a later occurrence. -/
example :
    ofLine "\t\" é\\CL.Exe\"/c cl.exe".toList =
      some ⟨" é\\CL.Exe".toList, "/c cl.exe".toList⟩ := by
  decide

end Compdb.Invocation
