/-
# Compdb.Proofs.FirstOccurrence — lists without repetitions, one element at a time

Keys and include directories are both collected in the order of their first occurrence, which
is `List.eraseDups` of everything that was offered. What grows such a list is one more
element at the end.
-/
import Mathlib.Data.List.Induction

namespace Compdb

set_option autoImplicit false

variable {α : Type} [BEq α] [LawfulBEq α]

theorem eraseDups_concat_of_mem {seen : List α} {a : α} (old : a ∈ seen) :
    (seen ++ [a]).eraseDups = seen.eraseDups := by
  simp [List.eraseDups_append, List.removeAll, old]

theorem eraseDups_concat_of_not_mem {seen : List α} {a : α} (new : a ∉ seen) :
    (seen ++ [a]).eraseDups = seen.eraseDups ++ [a] := by
  simp [List.eraseDups_append, List.removeAll, new, List.eraseDups_cons]

theorem nodup_eraseDups (seen : List α) : seen.eraseDups.Nodup := by
  induction seen using List.reverseRecOn with
  | nil => simp
  | append_singleton seen a ih =>
      by_cases known : a ∈ seen
      · rwa [eraseDups_concat_of_mem known]
      · rw [eraseDups_concat_of_not_mem known, List.nodup_append]
        refine ⟨ih, by simp, fun b old c new => ?_⟩
        rintro rfl
        rw [List.mem_singleton.mp new] at old
        exact known (List.mem_eraseDups.mp old)

/-- What was offered before makes no difference when it is offered again. -/
theorem eraseDups_append_of_subset {seen again : List α}
    (known : ∀ a ∈ again, a ∈ seen) (more : List α) :
    (seen ++ again ++ more).eraseDups = (seen ++ more).eraseDups := by
  have nothing : again.removeAll seen = [] := by
    rw [List.removeAll, List.filter_eq_nil_iff]
    intro a member
    simpa using known a member
  have rest : (again ++ more).removeAll seen = more.removeAll seen := by
    rw [List.removeAll, List.filter_append, ← List.removeAll, nothing]
    rfl
  rw [List.append_assoc, List.eraseDups_append, rest, List.eraseDups_append]

end Compdb
