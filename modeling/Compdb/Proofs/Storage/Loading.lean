/-
# Compdb.Proofs.Storage.Loading — what is loaded from the databases of others

A stored database is parsed as a whole, however it is laid out, and only then its entries are
validated in order. So complete entries are loaded as they are, and otherwise the first entry which
is not complete decides, even when a later one has another defect (`load_of_writesDatabase`).
-/
import Compdb.Proofs.Storage

namespace Compdb

set_option autoImplicit false

namespace Entry

/-- None of the three fields is empty. -/
def IsComplete (e : Entry) : Prop :=
  e.file ≠ [] ∧ e.directory ≠ [] ∧ e.arguments ≠ []

/-- What is wrong with an entry: first the file counts, then the directory, then the arguments. -/
inductive HasDefect (e : Entry) : EntryError → Prop where
  | file : e.file = [] → HasDefect e .emptyFileName
  | directory : e.file ≠ [] → e.directory = [] → HasDefect e .emptyDirectory
  | arguments : e.file ≠ [] → e.directory ≠ [] → e.arguments = [] →
      HasDefect e .argumentsAreMissing

theorem HasDefect.validate_eq {e : Entry} {reason : EntryError} (defect : e.HasDefect reason) :
    e.validate = .error reason := by
  cases defect with
  | file file => simp [validate, file]
  | directory file directory => simp [validate, file, directory]
  | arguments file directory arguments => simp [validate, file, directory, arguments]

/-- An entry is complete, or there is one thing which is wrong with it. -/
theorem isComplete_or_hasDefect (e : Entry) : e.IsComplete ∨ ∃ reason, e.HasDefect reason := by
  rcases eq_or_ne e.file [] with file | file
  · exact Or.inr ⟨_, .file file⟩
  · rcases eq_or_ne e.directory [] with directory | directory
    · exact Or.inr ⟨_, .directory file directory⟩
    · rcases eq_or_ne e.arguments [] with arguments | arguments
      · exact Or.inr ⟨_, .arguments file directory arguments⟩
      · exact Or.inl ⟨file, directory, arguments⟩

/-- Behind complete entries, the first one which is not decides. -/
theorem validateAll_of_hasDefect {before after : List Entry} {e : Entry} {reason : EntryError}
    (complete : ∀ e' ∈ before, e'.IsComplete) (defect : e.HasDefect reason) :
    validateAll (before ++ e :: after) = .error reason := by
  induction before with
  | nil =>
      rw [List.nil_append, validateAll, List.mapM_cons, defect.validate_eq]
      rfl
  | cons e' before ih =>
      rw [List.forall_mem_cons] at complete
      have more := ih complete.2
      rw [validateAll] at more
      rw [List.cons_append, validateAll, List.mapM_cons, validate_eq_ok_iff.mpr complete.1, more]
      rfl

/-- When not all entries are complete, one of them is the first which is not. -/
theorem exists_first_defect {entries : List Entry} (incomplete : ∃ e ∈ entries, ¬ e.IsComplete) :
    ∃ before e after reason, entries = before ++ e :: after ∧
      (∀ e' ∈ before, e'.IsComplete) ∧ e.HasDefect reason := by
  induction entries with
  | nil =>
      obtain ⟨e, member, -⟩ := incomplete
      cases member
  | cons first entries ih =>
      rcases first.isComplete_or_hasDefect with complete | ⟨reason, defect⟩
      · have later : ∃ e ∈ entries, ¬ e.IsComplete := by
          obtain ⟨e, member, not⟩ := incomplete
          rcases List.mem_cons.mp member with rfl | later
          · exact absurd complete not
          · exact ⟨e, later, not⟩
        obtain ⟨before, e, after, reason, rfl, each, defect⟩ := ih later
        exact ⟨first :: before, e, after, reason, rfl,
          List.forall_mem_cons.mpr ⟨complete, each⟩, defect⟩
      · exact ⟨[], first, entries, reason, rfl, List.forall_mem_nil _, defect⟩

end Entry

namespace Storage

open Json (Padded WellFormed WritesString)

/-- **The layout of a database makes no difference.** Whatever the order of the keys, the other
members and the spelling of the texts are, complete entries are loaded as they are. When they are
not all complete, the first one which is not is the reason why none of them is loaded. -/
theorem load_of_writesDatabase {entries : List Entry} {text : Text}
    (writes : EntryFormat.WritesDatabase entries text) {tree : FileTree} {workingDirectory : Way}
    {path : Text}
    (found : tree.find workingDirectory path = .ok (.file (Utf8.encode text))) :
    ((∀ e ∈ entries, e.IsComplete) → load tree workingDirectory path = .ok entries) ∧
      ((∃ e ∈ entries, ¬ e.IsComplete) →
        ∃ before e after reason, entries = before ++ e :: after ∧
          (∀ e' ∈ before, e'.IsComplete) ∧ e.HasDefect reason ∧
          load tree workingDirectory path = .error (.entry reason)) := by
  have parsed := EntryFormat.parse_of_writesDatabase writes
  constructor
  · intro complete
    have accepted : Entry.validateAll entries = .ok entries :=
      Entry.validateAll_eq_ok_iff.mpr
        ⟨rfl, fun e member => Entry.validate_eq_ok_iff.mpr (complete e member)⟩
    simp only [load, found, parsed, accepted]
  · intro incomplete
    obtain ⟨before, e, after, reason, rfl, complete, defect⟩ :=
      Entry.exists_first_defect incomplete
    refine ⟨before, e, after, reason, rfl, complete, defect, ?_⟩
    simp only [load, found, parsed, Entry.validateAll_of_hasDefect complete defect]

/-- A database whose only entry has its keys in another order, one of them with an escape, and
beside them a value with half of a pair of surrogates. -/
theorem load_of_writesDatabase_foreign :
    ∃ tree, tree = FileTree.mk ['/', 'r'] [([['x']], .file (Utf8.encode
        ('\n' :: (Json.compactArray [Json.compactObject
          [("\"\\u0066ile\"".toList, "\"f\"".toList),
           ("\"x\"".toList, Json.compactArray [['0'], "\"\\ud800\"".toList]),
           ("\"arguments\"".toList, Json.compactArray ["\"c\"".toList]),
           ("\"directory\"".toList, "\"d\"".toList)]] ++ [' ']))))] ∧
      load tree [] ['x'] = .ok [⟨['d'], ['f'], [['c']]⟩] := by
  have fileName : WritesString "file".toList "\"\\u0066ile\"".toList :=
    ⟨[['\\', 'u', '0', '0', '6', '6'], ['i'], ['l'], ['e']],
      .cons (.unit ⟨'0', '0', '6', '6', .inl rfl, .inl rfl, .inl rfl, .inl rfl, rfl⟩)
        (.cons (.raw (by decide) (by decide) (by decide))
          (.cons (.raw (by decide) (by decide) (by decide))
            (.cons (.raw (by decide) (by decide) (by decide)) .nil))), rfl⟩
  have high : Json.IsString "\"\\ud800\"".toList :=
    ⟨[['\\', 'u', 'd', '8', '0', '0']], List.forall_mem_singleton.mpr
      (.unit (n := 0xD800) ⟨'d', '8', '0', '0', .inl rfl, .inl rfl, .inl rfl, .inl rfl, rfl⟩), rfl⟩
  have zero : Json.IsNumber ['0'] :=
    ⟨[], ['0'], [], [], by decide, .inl rfl, .inl rfl, .inl rfl, rfl⟩
  have other : WellFormed (Json.compactArray [['0'], "\"\\ud800\"".toList]) :=
    .array (List.forall_mem_cons.mpr ⟨.number zero, List.forall_mem_singleton.mpr (.string high)⟩)
      (Json.arrayLayout_compact _)
  have arguments : List.Forall₂ WritesString [['c']] ["\"c\"".toList] :=
    .cons (Json.writesString_raw (t := ['c']) (by decide)) .nil
  have entry : EntryFormat.WritesEntry ⟨['d'], ['f'], [['c']]⟩ (Json.compactObject
      [("\"\\u0066ile\"".toList, "\"f\"".toList),
       ("\"x\"".toList, Json.compactArray [['0'], "\"\\ud800\"".toList]),
       ("\"arguments\"".toList, Json.compactArray ["\"c\"".toList]),
       ("\"directory\"".toList, "\"d\"".toList)]) := by
    refine ⟨["file".toList, "x".toList, "arguments".toList, "directory".toList], _, ?_, by decide,
      Json.objectLayout_compact _⟩
    refine .cons ⟨fileName, .file ?_⟩ <| .cons ⟨?_, .other (by decide) other⟩ <|
      .cons ⟨?_, .arguments arguments (Json.arrayLayout_compact _)⟩ <|
      .cons ⟨?_, .directory ?_⟩ .nil
    · exact Json.writesString_raw (t := ['f']) (by decide)
    · exact Json.writesString_raw (t := ['x']) (by decide)
    · exact Json.writesString_raw (t := "arguments".toList) (by decide)
    · exact Json.writesString_raw (t := "directory".toList) (by decide)
    · exact Json.writesString_raw (t := ['d']) (by decide)
  have gaps (t : Text) : Padded t ('\n' :: (t ++ [' '])) :=
    ⟨['\n'], [' '], by decide, by decide, rfl⟩
  have writes : EntryFormat.WritesDatabase [⟨['d'], ['f'], [['c']]⟩] _ :=
    ⟨_, _, .cons entry .nil, Json.arrayLayout_compact _, gaps _⟩
  refine ⟨_, rfl, (load_of_writesDatabase writes rfl).1 ?_⟩
  simp [Entry.IsComplete]

end Storage

end Compdb
