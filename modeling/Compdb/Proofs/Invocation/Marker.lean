/-
# Compdb.Proofs.Invocation.Marker — which tasks and lines name the compiler

A task runs the compiler when its name is one of the known ones or has the custom task in it
(`TaskFilter.accepts_ofCustomTask_iff`), and its line names the compiler when the marker is
somewhere in it, in any letter case (`Invocation.ofLine_eq_none_iff`).

A line is cut behind the leftmost occurrence of the marker. That is a property of the part in
front of the cut alone: it ends with the marker and has it nowhere else (`EndsAtMarker`). A line
has one such beginning at most, so a beginning which ends at the marker is where the line is cut,
whatever follows (`splitAtMarker_append`).
-/
import Compdb.Proofs.Invocation
import Mathlib.Data.List.Infix

namespace Compdb

set_option autoImplicit false

/-- Searching for a part of a text finds it wherever it stands. -/
theorem Text.occursIn_iff_infix (part t : Text) : occursIn part t = true ↔ part <:+: t := by
  induction t with
  | nil => rw [occursIn, List.isEmpty_iff, List.infix_nil]
  | cons c t ih =>
      rw [occursIn, Bool.or_eq_true, List.isPrefixOf_iff_prefix, ih, List.infix_cons_iff]

/-- The tasks which run the compiler: the two known ones, and those whose names have the custom
task in them, unless that is empty. -/
def IsCompilerTask (customTask : Option Text) (taskName : Text) : Prop :=
  taskName = "CL".toList ∨ taskName = "CLCommandLine".toList ∨
    ∃ custom, customTask = some custom ∧ custom ≠ [] ∧ custom <:+: taskName

theorem TaskFilter.accepts_ofCustomTask_iff (customTask : Option Text) (taskName : Text) :
    (ofCustomTask customTask).accepts taskName = true ↔ IsCompilerTask customTask taskName := by
  have known : compilerTasks.contains taskName = true ↔
      taskName = "CL".toList ∨ taskName = "CLCommandLine".toList := by
    simp [compilerTasks]
  have further : (ofCustomTask customTask).customTask.any (fun custom =>
      Text.occursIn custom taskName) = true ↔
        ∃ custom, customTask = some custom ∧ custom ≠ [] ∧ custom <:+: taskName := by
    rw [ofCustomTask, Option.any_eq_true_iff_get]
    cases customTask with
    | none => simp
    | some custom => cases custom <;> simp [Text.occursIn_iff_infix]
  rw [accepts, Bool.or_eq_true, known, further, or_assoc]
  rfl

namespace Invocation

/-- A text ends with the marker, in any letter case, and has no other occurrence of it. -/
structure EndsAtMarker (t : Text) : Prop where
  suffix : marker <:+ Text.foldCase t
  only : ∀ before after, Text.foldCase t = before ++ marker ++ after → after = []

/-- A line without a result is a line without the marker. -/
theorem splitAtMarker_eq_none_iff (line : Text) :
    splitAtMarker line = none ↔ ¬ marker <:+: Text.foldCase line := by
  induction line with
  | nil => decide
  | cons c line ih =>
      rw [splitAtMarker]
      split
      · next here =>
        have occurs : marker <:+: Text.foldCase (c :: line) :=
          (List.isPrefixOf_iff_prefix.mp here).isInfix
        simp [occurs]
      · next further =>
        have elsewhere :
            marker <:+: Text.foldCase (c :: line) ↔ marker <:+: Text.foldCase line := by
          rw [Text.foldCase, List.map_cons, List.infix_cons_iff]
          refine or_iff_right fun start => further ?_
          exact List.isPrefixOf_iff_prefix.mpr start
        rw [Option.map_eq_none_iff, ih, elsewhere]

theorem ofLine_eq_none_iff (line : Text) :
    ofLine line = none ↔ ¬ marker <:+: Text.foldCase line := by
  rw [ofLine, Option.map_eq_none_iff, splitAtMarker_eq_none_iff]

/-- What stands in front of a cut has one occurrence of the marker, at its end. -/
theorem endsAtMarker_of_splitAtMarker {line before after : Text}
    (cut : splitAtMarker line = some (before, after)) : EndsAtMarker before := by
  obtain ⟨-, start, found, rfl, isMarker⟩ := splitAtMarker_eq_some cut
  refine ⟨?_, ?_⟩
  · rw [Text.foldCase_append, isMarker]
    exact List.suffix_append _ _
  -- an occurrence further left would begin where the search already looked
  · generalize start ++ found = before at cut
    induction line generalizing before with
    | nil => cases cut
    | cons c line ih =>
        rw [splitAtMarker] at cut
        split at cut
        · obtain ⟨rfl, -⟩ := Prod.mk.inj (Option.some.inj cut)
          intro left right occurrence
          have lengths := congrArg List.length occurrence
          simp only [Text.length_foldCase, List.length_append, List.length_take] at lengths
          exact List.length_eq_zero_iff.mp (by omega)
        · next further =>
          obtain ⟨⟨before', after'⟩, later, same⟩ := Option.map_eq_some_iff.mp cut
          obtain ⟨rfl, rfl⟩ := Prod.mk.inj same
          intro left right occurrence
          cases left with
          | nil =>
              refine absurd ?_ further
              obtain ⟨rfl, -⟩ := splitAtMarker_eq_some later
              rw [List.isPrefixOf_iff_prefix, ← List.cons_append, Text.foldCase_append, occurrence]
              exact ⟨right ++ Text.foldCase after', by simp⟩
          | cons d left =>
              exact ih before' later left right (List.cons.inj occurrence).2

/-- A line has one beginning at most which ends at the marker. -/
theorem EndsAtMarker.unique {before before' after after' : Text} (ends : EndsAtMarker before)
    (ends' : EndsAtMarker before') (same : before ++ after = before' ++ after') :
    before = before' := by
  -- the longer one of two beginnings has the marker of the shorter one inside
  have shorter : ∀ {t t' : Text}, EndsAtMarker t → EndsAtMarker t' → t <+: t' → t = t' := by
    rintro t - ends ends' ⟨more, rfl⟩
    obtain ⟨start, startsSo⟩ := ends.suffix
    have none : Text.foldCase more = [] := by
      refine ends'.only start _ ?_
      rw [Text.foldCase_append, ← startsSo]
    rw [List.map_eq_nil_iff.mp none, List.append_nil]
  have first : before <+: before' ++ after' := ⟨after, same⟩
  rcases List.prefix_or_prefix_of_prefix first (List.prefix_append before' after') with le | ge
  · exact shorter ends ends' le
  · exact (shorter ends' ends ge).symm

/-- A line is cut behind a beginning which ends at the marker, whatever follows. -/
theorem splitAtMarker_append {before : Text} (ends : EndsAtMarker before) (after : Text) :
    splitAtMarker (before ++ after) = some (before, after) := by
  cases cut : splitAtMarker (before ++ after) with
  | none =>
      refine absurd ?_ ((splitAtMarker_eq_none_iff _).mp cut)
      rw [Text.foldCase_append]
      exact ends.suffix.isInfix.trans (List.prefix_append _ _).isInfix
  | some parts =>
      obtain ⟨before', after'⟩ := parts
      obtain ⟨same, -⟩ := splitAtMarker_eq_some cut
      obtain rfl := ends.unique (endsAtMarker_of_splitAtMarker cut) same
      rw [List.append_cancel_left same]

theorem endsAtMarker_iff (t : Text) : EndsAtMarker t ↔ splitAtMarker t = some (t, []) := by
  refine ⟨fun ends => ?_, endsAtMarker_of_splitAtMarker⟩
  simpa using splitAtMarker_append ends []

instance (t : Text) : Decidable (EndsAtMarker t) :=
  decidable_of_iff _ (endsAtMarker_iff t).symm

/-- So is a line read which begins so: the beginning is trimmed, and behind it a quote is
dropped. -/
theorem ofLine_append {before : Text} (ends : EndsAtMarker before) (after : Text) :
    ofLine (before ++ after) =
      some ⟨Text.trimQuotes (Text.trim before), dropClosingQuote after⟩ := by
  rw [ofLine, splitAtMarker_append ends, Option.map_some]

end Invocation

end Compdb
