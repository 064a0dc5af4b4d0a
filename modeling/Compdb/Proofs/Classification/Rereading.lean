/-
# Compdb.Proofs.Classification.Rereading — the arguments of an entry, read again

The arguments of an entry are the kept ones, the include directories and the file, with nothing in
between. Whoever reads them gives each parameterized option the argument behind it (`reread`). So
the file is an argument of its own only if no option in front of it is left without a value.

The kept options have their values, but for one at the end of the tokens (`complete_or_awaits`), and
with their values they are read as they are, whatever follows (`reread_append`). Of the
directories only the empty one makes an argument which is such an option
(`isNamed_includeArgument`). In these two cases the argument behind is taken as a value, and in no
other one (`reread_arguments`).
-/
import Compdb.Proofs.Classification.Values
import Compdb.Proofs.Invocation

namespace Compdb.Tokens

set_option autoImplicit false

/-! ## Reading arguments -/

/-- Arguments as they are read: a parameterized option takes the next argument as its value,
whatever that is, and the others stand by themselves. -/
def reread : List Text → List Item
  | [] => []
  | [last] => [Item.single last]
  | argument :: next :: rest =>
      if isNamed keptNames argument then ⟨argument, some next⟩ :: reread rest
      else Item.single argument :: reread (next :: rest)

/-- Every argument stands by itself when none but the last one is such an option. -/
theorem reread_eq_map_single_iff (arguments : List Text) :
    reread arguments = arguments.map Item.single ↔
      ∀ argument ∈ arguments.dropLast, isNamed keptNames argument = false := by
  induction arguments using reread.induct with
  | case1 => simp [reread]
  | case2 last => simp [reread]
  | case3 argument next rest named => simp [reread, named, Item.single]
  | case4 argument next rest other ih => simpa [reread, other] using ih

/-! ## The kept items -/

def Item.isKept (item : Item) : Bool :=
  isNamed keptNames item.token

/-- The parameterized options before the link, each with the value which it has there. -/
def keptItems (tokens : List Text) : List Item :=
  (items tokens).filter Item.isKept

/-- Complete items are read as they are, whatever follows them. -/
theorem reread_append {front : List Item} (complete : ∀ item ∈ front, item.IsComplete)
    (rest : List Text) :
    reread (front.flatMap Item.arguments ++ rest) =
      front.filter Item.isKept ++ reread rest := by
  induction front with
  | nil => rfl
  | cons item front ih =>
      rw [List.forall_mem_cons] at complete
      obtain ⟨token, value⟩ := item
      cases named : isNamed keptNames token with
      | false => simpa [Item.arguments, Item.isKept, named] using ih complete.2
      | true =>
          obtain ⟨value, rfl⟩ := Option.isSome_iff_exists.mp (complete.1 named)
          simpa [Item.arguments, Item.isKept, named, reread] using ih complete.2

theorem filter_isSome_of_complete {front : List Item}
    (complete : ∀ item ∈ front, item.IsComplete) :
    (front.filter Item.isKept).filter (fun item => item.value.isSome) =
      front.filter Item.isKept := by
  rw [List.filter_eq_self]
  intro item member
  obtain ⟨inside, named⟩ := List.mem_filter.mp member
  exact complete item inside named

/-! ## The arguments of an entry -/

/-- The arguments which are added to the kept ones: the directories of the headers, and the include
directories. -/
def includeArguments (tokens : List Text) (includes : IncludeSet) : List Text :=
  (classify tokens).pchIncludeArguments ++ includes.paths.map Classification.includeArgument

/-- The arguments of an entry behind the compiler read as they are meant: the kept options with
the values which they have on the command line, then each include directory and the file as an
argument of its own. -/
def ReadsAsMeant (tokens : List Text) (includes : IncludeSet) (entry : Entry) : Prop :=
  reread entry.arguments.tail =
    keptItems tokens ++ (includeArguments tokens includes ++ [entry.file]).map Item.single

instance (tokens : List Text) (includes : IncludeSet) (entry : Entry) :
    Decidable (ReadsAsMeant tokens includes entry) :=
  inferInstanceAs (Decidable (_ = _))

/-- An include argument is an option without a directory when the directory is empty. -/
theorem isNamed_includeArgument (directory : Text) :
    isNamed keptNames (Classification.includeArgument directory) = directory.isEmpty := by
  cases directory <;>
    simp [isNamed, isOption, Classification.includeArgument, keptNames]

theorem isNamed_of_mem_pchIncludeArguments {c : Classification} {argument : Text}
    (member : argument ∈ c.pchIncludeArguments) :
    isNamed keptNames argument = false := by
  obtain ⟨directory, inside, rfl⟩ := List.mem_map.mp member
  obtain ⟨header, -, parent⟩ := List.mem_filterMap.mp inside
  rw [isNamed_includeArgument]
  simpa using Path.parentDirectory_ne_nil parent

theorem isNamed_includeArguments_iff (tokens : List Text) (includes : IncludeSet) :
    (∀ argument ∈ includeArguments tokens includes,
      isNamed keptNames argument = false) ↔ [] ∉ includes.paths := by
  constructor
  · intro others empty
    have option := others (Classification.includeArgument []) <|
      List.mem_append_right _ (List.mem_map_of_mem empty)
    rw [isNamed_includeArgument] at option
    cases option
  · intro filled argument member
    rcases List.mem_append.mp member with header | directory
    · exact isNamed_of_mem_pchIncludeArguments header
    · obtain ⟨path, inside, rfl⟩ := List.mem_map.mp directory
      rw [isNamed_includeArgument, List.isEmpty_eq_false_iff]
      rintro rfl
      exact filled inside

variable {tokens : List Text} {compiler directory : Text} {includes : IncludeSet} {entry : Entry}

/-- Behind the compiler stand what the items keep, the include arguments, and the file. -/
theorem tail_arguments_of_mem
    (member : entry ∈ (classify tokens).entries compiler directory includes) :
    entry.arguments.tail =
      (items tokens).flatMap Item.arguments
        ++ (includeArguments tokens includes ++ [entry.file]) := by
  obtain ⟨file, -, rfl⟩ := List.mem_map.mp member
  have kept : (classify tokens).arguments = (items tokens).flatMap Item.arguments := by
    rw [classify_eq, found_eq]
    rfl
  simp [Classification.commonArguments, includeArguments, kept]

/-- **The file and the include directories are arguments of their own exactly when no option in
front of them is left without a value**: when the tokens do not end in a parameterized option which
awaits its value, and no include directory is empty. The options which have a value on the command
line keep it in any case. -/
theorem reread_arguments
    (member : entry ∈ (classify tokens).entries compiler directory includes) :
    (ReadsAsMeant tokens includes entry ↔
        awaitsValue keptNames tokens = false ∧ [] ∉ includes.paths) ∧
      (keptItems tokens).filter (fun item => item.value.isSome) <+:
        reread entry.arguments.tail := by
  rw [ReadsAsMeant, tail_arguments_of_mem member, keptItems]
  rcases complete_or_awaits tokens with
    ⟨settled, complete⟩ | ⟨awaits, front, option, whole, named, complete⟩
  · rw [reread_append complete, filter_isSome_of_complete complete, List.append_cancel_left_eq,
      reread_eq_map_single_iff, List.dropLast_concat, isNamed_includeArguments_iff]
    exact ⟨by simp [settled], List.prefix_append _ _⟩
  -- the option at the end takes the first argument which is added, and has a value then
  · obtain ⟨first, more, added⟩ : ∃ first more,
        includeArguments tokens includes ++ [entry.file] = first :: more :=
      List.exists_cons_of_ne_nil (by simp)
    have taken : reread ((front ++ [Item.single option]).flatMap Item.arguments ++ first :: more) =
        front.filter Item.isKept ++ ⟨option, some first⟩ :: reread more := by
      rw [List.flatMap_append, List.flatMap_singleton, Item.arguments_single named,
        List.append_assoc, reread_append complete, List.singleton_append, reread, if_pos named]
    rw [whole, added, taken, List.filter_append, List.filter_append,
      filter_isSome_of_complete complete]
    constructor
    · simp [awaits, Item.single, Item.isKept, named]
    · simp [Item.single, Item.isKept, named]

/-- An option and a link as values, a link in front of an option without a value, and directories
from a header and from the environment. -/
theorem reread_arguments_behindLink :
    (⟨"p".toList, "a.cpp".toList, ["cl.exe".toList, "/D".toList, "/link".toList, "-I".toList,
        "/FI".toList, "/Ih".toList, "/Ii".toList, "a.cpp".toList]⟩ : Entry) ∈
      (classify ["/D".toList, "/link".toList, "/Yuh/s.h".toList, "-I".toList, "/FI".toList,
        "a.cpp".toList, "/LINK".toList, "/U".toList]).entries "cl.exe".toList "p".toList
          ⟨["i".toList]⟩ ∧
    reread ["/D".toList, "/link".toList, "-I".toList, "/FI".toList, "/Ih".toList, "/Ii".toList,
        "a.cpp".toList] =
      [⟨"/D".toList, some "/link".toList⟩, ⟨"-I".toList, some "/FI".toList⟩,
        ⟨"/Ih".toList, none⟩, ⟨"/Ii".toList, none⟩, ⟨"a.cpp".toList, none⟩] := by
  have member : (⟨"p".toList, "a.cpp".toList, ["cl.exe".toList, "/D".toList, "/link".toList,
      "-I".toList, "/FI".toList, "/Ih".toList, "/Ii".toList, "a.cpp".toList]⟩ : Entry) ∈
      (classify ["/D".toList, "/link".toList, "/Yuh/s.h".toList, "-I".toList, "/FI".toList,
        "a.cpp".toList, "/LINK".toList, "/U".toList]).entries "cl.exe".toList "p".toList
          ⟨["i".toList]⟩ := by decide
  have meant := (reread_arguments member).1.mpr ⟨by decide, by decide⟩
  exact ⟨member, meant.trans (by decide)⟩

/-- An option without a value at the end of the tokens takes the file as its value, and so does the
argument of an empty include directory. -/
theorem not_readsAsMeant :
    (∃ entry ∈ (classify ["a.cpp".toList, "/I".toList]).entries "cl.exe".toList "p".toList
        IncludeSet.empty,
      reread entry.arguments.tail = [⟨"/I".toList, some entry.file⟩] ∧
        ¬ ReadsAsMeant ["a.cpp".toList, "/I".toList] IncludeSet.empty entry) ∧
    (∃ entry ∈ (classify ["a.cpp".toList]).entries "cl.exe".toList "p".toList
        (IncludeSet.empty.insert []).1,
      reread entry.arguments.tail = [⟨"/I".toList, some entry.file⟩] ∧
        ¬ ReadsAsMeant ["a.cpp".toList] (IncludeSet.empty.insert []).1 entry) := by
  decide

end Compdb.Tokens
