/-
# Compdb.Proofs.Statistics — counters add up

Statistics are added field by field, and what a part of a run counts is added to what was counted
before it. So the order in which things are counted makes no difference, and no counter ever
decreases (`le_add_right`). Counting the outcome of one merge adds the statistics of that outcome
(`count_eq_add`).
-/
import Compdb.Statistics
import Mathlib.Algebra.Group.Basic

namespace Compdb.Statistics

set_option autoImplicit false

attribute [ext] Statistics

instance : Zero Statistics := ⟨{}⟩

instance : Add Statistics where
  add a b :=
    { events := a.events + b.events
      ignored := a.ignored + b.ignored
      invocations := a.invocations + b.invocations
      rejected := a.rejected + b.rejected
      added := a.added + b.added
      updated := a.updated + b.updated
      kept := a.kept + b.kept }

/-- No counter of the first statistics is larger than in the second. -/
instance : LE Statistics where
  le a b :=
    a.events ≤ b.events ∧ a.ignored ≤ b.ignored ∧ a.invocations ≤ b.invocations ∧
      a.rejected ≤ b.rejected ∧ a.added ≤ b.added ∧ a.updated ≤ b.updated ∧ a.kept ≤ b.kept

theorem add_eq (a b : Statistics) :
    a + b =
      { events := a.events + b.events
        ignored := a.ignored + b.ignored
        invocations := a.invocations + b.invocations
        rejected := a.rejected + b.rejected
        added := a.added + b.added
        updated := a.updated + b.updated
        kept := a.kept + b.kept } :=
  rfl

instance : AddCommMonoid Statistics where
  add_assoc a b c := by ext <;> exact Nat.add_assoc _ _ _
  zero_add a := by ext <;> exact Nat.zero_add _
  add_zero a := by ext <;> exact Nat.add_zero _
  add_comm a b := by ext <;> exact Nat.add_comm _ _
  nsmul := nsmulRec

theorem le_add_right (a b : Statistics) : a ≤ a + b :=
  ⟨Nat.le_add_right _ _, Nat.le_add_right _ _, Nat.le_add_right _ _, Nat.le_add_right _ _,
    Nat.le_add_right _ _, Nat.le_add_right _ _, Nat.le_add_right _ _⟩

/-- The statistics of merging entries, by the outcomes. -/
def ofOutcomes (outcomes : List Merge) : Statistics where
  added := outcomes.count .added
  updated := outcomes.count .updated
  kept := outcomes.count .kept

theorem ofOutcomes_append (outcomes more : List Merge) :
    ofOutcomes (outcomes ++ more) = ofOutcomes outcomes + ofOutcomes more := by
  simp [ofOutcomes, add_eq]

theorem count_eq_add (s : Statistics) (outcome : Merge) :
    s.count outcome = s + ofOutcomes [outcome] := by
  cases outcome <;> rfl

/-- Each outcome is counted once. -/
theorem length_of_outcomes (outcomes : List Merge) :
    (ofOutcomes outcomes).added + (ofOutcomes outcomes).updated + (ofOutcomes outcomes).kept =
      outcomes.length := by
  induction outcomes with
  | nil => rfl
  | cons outcome outcomes ih =>
      have first := ofOutcomes_append [outcome] outcomes
      rw [List.singleton_append] at first
      have one : (ofOutcomes [outcome]).added + (ofOutcomes [outcome]).updated
          + (ofOutcomes [outcome]).kept = 1 := by
        cases outcome <;> rfl
      rw [first, List.length_cons, ← ih]
      simp only [add_eq]
      omega

end Compdb.Statistics
