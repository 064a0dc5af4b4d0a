/-
# Compdb.Proofs.Classification.ForcedSource — a forced source counts wherever it stands

A flag which makes every positional token a source file says nothing else, takes no value and is
no link; so it adds the same to what is found in front of a list and behind it (`found_flag`).
What is found with it are the findings without it, forced (`found_append_flag`): the arguments and
the headers stay, and the files are all names and all candidates (`classification_forced`), of
which the ones without the flag are a part (`files_sublist_forced`).

Only the border in front of the flag matters. An option there which awaits a value would lose it
to the list behind the flag when the flag is moved to the front.
-/
import Compdb.Proofs.Classification.Composition

namespace Compdb

set_option autoImplicit false

/-! ## Forced findings -/

namespace Findings

/-- The findings of a flag. -/
def forced : Findings := { forceSource := true }

/-- Flags are found from anywhere. -/
theorem append_forced_append (f g : Findings) : f ++ (forced ++ g) = forced ++ (f ++ g) := by
  simp [append_eq, forced]

/-- Forced, all names and all candidates are files. -/
theorem classification_forced (f : Findings) :
    (forced ++ f).classification =
      ⟨f.arguments, f.namedFiles ++ f.candidates, f.pchHeaders⟩ := by
  simp [append_eq, forced, classification]

theorem files_sublist_forced (f : Findings) :
    f.classification.files.Sublist (forced ++ f).classification.files := by
  rw [classification_forced]
  exact (List.Sublist.refl f.namedFiles).append List.filter_sublist

end Findings

namespace Tokens

open Findings

/-- The flags which make every positional token a source file. -/
def forceFlags : List Text :=
  ["/TC".toList, "-TC".toList, "/TP".toList, "-TP".toList]

variable {flag : Text}

theorem reads_of_flag (forces : flag ∈ forceFlags) :
    ∃ name, optionName flag = some name ∧ Reads name false none none true false := by
  have each : ∀ flag ∈ forceFlags, isNamed forceNames flag = true := by decide
  obtain ⟨option, member⟩ := isNamed_iff.mp (each flag forces)
  exact ⟨_, optionName_eq_some_iff.mpr ⟨option, rfl⟩, reads_force _ member⟩

/-- A flag adds nothing but itself to what is found behind it. -/
theorem found_flag (forces : flag ∈ forceFlags) (rest : List Text) :
    found (flag :: rest) = forced ++ found rest := by
  obtain ⟨name, option, reads⟩ := reads_of_flag forces
  have alone (next : Text) : takesNext flag next = false := by simp [reads.takesNext option]
  rw [found_cons (reads.isLink option) fun next _ => alone next, reads.findings option]
  rfl

/-- Behind a list which has no link and awaits no value, a flag adds the same. -/
theorem found_append_flag {a : List Text} (forces : flag ∈ forceFlags)
    (noLink : linkPosition a = a.length) (settled : awaitsValue takingNames a = false)
    (b : List Text) : found (a ++ flag :: b) = forced ++ found (a ++ b) := by
  have free := isValueAt_append_length noLink settled
  rw [found_append noLink (free (flag :: b)), found_flag forces, append_forced_append,
    found_append noLink (free b)]

/-- **A forced source says the same wherever it stands**, in front of both lists or between them:
the arguments and the headers are the ones without it, and the files are all names and then all
candidates, of which the files without it are a part. -/
theorem classify_forced {a : List Text} (forces : flag ∈ forceFlags)
    (noLink : linkPosition a = a.length) (settled : awaitsValue takingNames a = false)
    (b : List Text) :
    classify (a ++ [flag] ++ b) = classify ([flag] ++ a ++ b) ∧
      classify (a ++ [flag] ++ b) =
        ⟨(classify (a ++ b)).arguments,
          (items (a ++ b)).flatMap (Item.names fileNames)
            ++ (items (a ++ b)).flatMap Item.positional,
          (classify (a ++ b)).pchHeaders⟩ ∧
      (classify (a ++ b)).files.Sublist (classify (a ++ [flag] ++ b)).files := by
  have between : found (a ++ [flag] ++ b) = forced ++ found (a ++ b) := by
    rw [List.append_assoc, List.singleton_append, found_append_flag forces noLink settled]
  have before : found ([flag] ++ a ++ b) = forced ++ found (a ++ b) := by
    rw [List.append_assoc, List.singleton_append, found_flag forces]
  refine ⟨?_, ?_, ?_⟩
  · rw [classify_eq, classify_eq, between, before]
  · rw [classify_eq (a ++ [flag] ++ b), between, classification_forced, classify_eq (a ++ b),
      found_eq (a ++ b)]
    rfl
  · rw [classify_eq, classify_eq, between]
    exact files_sublist_forced (found (a ++ b))

/-- A flag as a value, a value in front of the flag, a named file behind a candidate, and a file
which only the flag makes one. -/
theorem classify_forced_between :
    ("-TP".toList ∈ forceFlags ∧
      linkPosition ["/D".toList, "/TC".toList, "b.txt".toList, "/Yc".toList, "p.h".toList] = 5 ∧
      awaitsValue takingNames
        ["/D".toList, "/TC".toList, "b.txt".toList, "/Yc".toList, "p.h".toList] = false) ∧
    classify (["/D".toList, "/TC".toList, "b.txt".toList, "/Yc".toList, "p.h".toList]
        ++ ["-TP".toList] ++ ["a.cpp".toList, "/Tcm.inl".toList, "@r.c".toList]) =
      ⟨["/D".toList, "/TC".toList], ["m.inl".toList, "b.txt".toList, "a.cpp".toList],
        ["p.h".toList]⟩ := by
  have forces : "-TP".toList ∈ forceFlags := by decide
  have noLink : linkPosition
      ["/D".toList, "/TC".toList, "b.txt".toList, "/Yc".toList, "p.h".toList] = 5 := by decide
  have settled : awaitsValue takingNames
      ["/D".toList, "/TC".toList, "b.txt".toList, "/Yc".toList, "p.h".toList] = false := by decide
  have forced := classify_forced forces noLink settled
    ["a.cpp".toList, "/Tcm.inl".toList, "@r.c".toList]
  exact ⟨⟨forces, noLink, settled⟩, forced.2.1.trans (by decide)⟩

end Tokens

end Compdb
