/-
# Compdb.Proofs.Classification.Names — what the name of an option says

What a token is called is said here in words of its own: an option begins with a slash or a dash,
and each kind of option has a list of names. `optionName_eq` and `parameterizedNames_eq` say that
the pass over the tokens takes its options in the same way.

The names of options compete: some are the beginning of others, and some differ in the case of a
letter only. `Reads` tells of a name which lists it is in, or begins with; each meaning has names
which read in one way (`meaningReads_ofName`), so no name has two meanings, and whether an option
takes the next token, or is a link, is seen from how its name reads (`Reads.takesNext`,
`Reads.isLink`).
-/
import Compdb.Classification
import Mathlib.Data.List.Basic

namespace Compdb.Tokens

set_option autoImplicit false

/-! ## Options by their names -/

/-- Whether a token is an option: it begins with a slash or a dash. The rest of it is its name. -/
def isOption (token : Text) : Bool :=
  token.head? == some '/' || token.head? == some '-'

/-- The options which are kept, each with the token behind it. -/
def keptNames : List Text :=
  ["D".toList, "I".toList, "F".toList, "U".toList, "FI".toList, "FU".toList,
   "analyze:log".toList, "analyze:stacksize".toList, "analyze:max_paths".toList,
   "analyze:ruleset".toList, "analyze:plugin".toList]

/-- The options which name a precompiled header. -/
def headerNames : List Text := ["Yc".toList, "Yu".toList]

/-- The options which name a source file. -/
def fileNames : List Text := ["Tc".toList, "Tp".toList]

/-- The options which make every positional token a source file. -/
def forceNames : List Text := ["TC".toList, "TP".toList]

/-- The options which can take the next token as their value. -/
def takingNames : List Text := keptNames ++ (headerNames ++ fileNames)

/-- Whether a token is an option with exactly one of these names. -/
def isNamed (names : List Text) (token : Text) : Bool :=
  isOption token && names.contains token.tail

/-- Whether a token is the option `link`, in any letter case. -/
def isLink (token : Text) : Bool :=
  isOption token && token.tail.map Char.toLower == "link".toList

/-- Whether a token takes the next one as its value: a parameterized option takes any token, an
option which names a header or a file, without a name of its own, one which is not an option. -/
def takesNext (token next : Text) : Bool :=
  isNamed keptNames token || (isNamed (headerNames ++ fileNames) token && !isOption next)

/-- The rest of a name behind the first of these texts with which it begins. -/
def restAfter (starts : List Text) (name : Text) : Option Text :=
  starts.findSome? fun start => Text.afterStart start name

/-- What stands behind one of these names in an option. -/
def optionRest (starts : List Text) (token : Text) : Option Text :=
  if isOption token then restAfter starts token.tail else none

/-! ## What the pass takes for an option -/

/-- The pass takes the same tokens for options, and calls them alike. -/
theorem optionName_eq (token : Text) :
    optionName token = if isOption token then some token.tail else none := by
  unfold optionName
  split
  · rfl
  · rfl
  · next noSlash noDash =>
    cases token with
    | nil => rfl
    | cons c name =>
        have other : isOption (c :: name) = false := by
          have slash : c ≠ '/' := fun same => noSlash name (by rw [same])
          have dash : c ≠ '-' := fun same => noDash name (by rw [same])
          simp [isOption, slash, dash]
        rw [other]
        rfl

theorem optionName_eq_some_iff {token name : Text} :
    optionName token = some name ↔ isOption token = true ∧ token.tail = name := by
  rw [optionName_eq]
  split <;> simp [*]

theorem optionName_eq_none_iff {token : Text} :
    optionName token = none ↔ isOption token = false := by
  rw [optionName_eq]
  split <;> simp [*]

theorem isNone_optionName (token : Text) : (optionName token).isNone = !isOption token := by
  rw [optionName_eq]
  split <;> simp [*]

/-- The pass keeps the options with the same names. -/
theorem parameterizedNames_eq : parameterizedNames = keptNames :=
  rfl

theorem sameFolded_linkName (name : Text) :
    Text.sameFolded name linkName = (name.map Char.toLower == "link".toList) :=
  rfl

/-! ## Names and meanings -/

/-- How a name reads: which of the lists of names it is in or begins with. -/
structure Reads (name : Text) (parameterized : Bool) (header file : Option Text)
    (forces link : Bool) : Prop where
  parameterized : keptNames.contains name = parameterized
  header : restAfter headerNames name = header
  file : restAfter fileNames name = file
  forces : forceNames.contains name = forces
  link : (name.map Char.toLower == "link".toList) = link

theorem restAfter_eq_none {starts : List Text} {name : Text}
    (other : ∀ start ∈ starts, ∀ rest, name ≠ start ++ rest) : restAfter starts name = none := by
  rw [restAfter, List.findSome?_eq_none_iff]
  intro start member
  rw [Text.afterStart, if_neg]
  rw [List.isPrefixOf_iff_prefix]
  rintro ⟨rest, whole⟩
  exact other start member rest whole.symm

theorem reads_header {start : Text} (member : start ∈ headerNames) (rest : Text) :
    Reads (start ++ rest) false (some rest) none false false := by
  simp only [headerNames, List.mem_cons, List.not_mem_nil, or_false] at member
  rcases member with rfl | rfl <;> constructor <;>
    simp [keptNames, restAfter, headerNames, fileNames, forceNames, Text.afterStart]

theorem reads_file {start : Text} (member : start ∈ fileNames) (rest : Text) :
    Reads (start ++ rest) false none (some rest) false false := by
  simp only [fileNames, List.mem_cons, List.not_mem_nil, or_false] at member
  rcases member with rfl | rfl <;> constructor <;>
    simp [keptNames, restAfter, headerNames, fileNames, forceNames, Text.afterStart]

theorem reads_parameterized : ∀ name ∈ keptNames,
    Reads name true none none false false := by
  have each : ∀ name ∈ keptNames, restAfter headerNames name = none ∧
      restAfter fileNames name = none ∧ forceNames.contains name = false ∧
      (name.map Char.toLower == "link".toList) = false := by decide
  intro name member
  obtain ⟨header, file, forces, link⟩ := each name member
  exact ⟨by simpa using member, header, file, forces, link⟩

theorem reads_force : ∀ name ∈ forceNames, Reads name false none none true false := by
  have each : ∀ name ∈ forceNames, keptNames.contains name = false ∧
      restAfter headerNames name = none ∧ restAfter fileNames name = none ∧
      (name.map Char.toLower == "link".toList) = false := by decide
  intro name member
  obtain ⟨parameterized, header, file, link⟩ := each name member
  exact ⟨parameterized, header, file, by simpa using member, link⟩

/-- Each meaning, by how its names read. -/
def MeaningReads (name : Text) : OptionMeaning → Prop
  | .parameterized => Reads name true none none false false
  | .precompiledHeader rest => Reads name false (some rest) none false false
  | .sourceFile rest => Reads name false none (some rest) false false
  | .forceSource => Reads name false none none true false
  | .link => Reads name false none none false true
  | .other => Reads name false none none false false

theorem meaningReads_ofName (name : Text) : MeaningReads name (OptionMeaning.ofName name) := by
  unfold OptionMeaning.ofName
  rw [parameterizedNames_eq]
  split
  · next parameterized => exact reads_parameterized name (by simpa using parameterized)
  · next parameterized =>
    rw [Bool.not_eq_true] at parameterized
    split
    · next header => exact @reads_header ['Y', 'c'] (by decide) header
    · next header => exact @reads_header ['Y', 'u'] (by decide) header
    · next file => exact @reads_file ['T', 'c'] (by decide) file
    · next file => exact @reads_file ['T', 'p'] (by decide) file
    · exact reads_force _ (by decide)
    · exact reads_force _ (by decide)
    · next yc yu tc tp tC tP =>
      have header : restAfter headerNames name = none := by
        refine restAfter_eq_none ?_
        simpa [headerNames] using ⟨yc, yu⟩
      have file : restAfter fileNames name = none := by
        refine restAfter_eq_none ?_
        simpa [fileNames] using ⟨tc, tp⟩
      have forces : forceNames.contains name = false := by
        simpa [forceNames] using ⟨tC, tP⟩
      rw [sameFolded_linkName]
      split
      · next link => exact ⟨parameterized, header, file, forces, link⟩
      · next link => exact ⟨parameterized, header, file, forces, Bool.eq_false_iff.mpr link⟩

theorem mem_of_restAfter_eq_nil {starts : List Text} {name : Text}
    (whole : restAfter starts name = some []) : name ∈ starts := by
  obtain ⟨start, member, rest⟩ := List.exists_of_findSome?_eq_some whole
  rw [Text.afterStart] at rest
  split at rest
  · next begins =>
    obtain ⟨more, rfl⟩ := List.isPrefixOf_iff_prefix.mp begins
    rw [List.drop_left, Option.some.injEq] at rest
    rwa [rest, List.append_nil]
  · cases rest

theorem contains_headerNames (name : Text) :
    headerNames.contains name = (restAfter headerNames name == some []) := by
  rw [Bool.eq_iff_iff, List.contains_iff_mem, beq_iff_eq]
  refine ⟨fun member => ?_, mem_of_restAfter_eq_nil⟩
  simpa using (reads_header member []).header

theorem contains_fileNames (name : Text) :
    fileNames.contains name = (restAfter fileNames name == some []) := by
  rw [Bool.eq_iff_iff, List.contains_iff_mem, beq_iff_eq]
  refine ⟨fun member => ?_, mem_of_restAfter_eq_nil⟩
  simpa using (reads_file member []).file

/-! ## Options -/

section Option

variable {token name : Text} {parameterized forces link : Bool} {header file : Option Text}

theorem Reads.takesNext (reads : Reads name parameterized header file forces link)
    (option : optionName token = some name) (next : Text) :
    takesNext token next =
      (parameterized || ((header == some [] || file == some []) && !isOption next)) := by
  have bare : (headerNames ++ fileNames).contains name =
      (headerNames.contains name || fileNames.contains name) := by
    simp [Bool.decide_or]
  obtain ⟨isOption, rfl⟩ := optionName_eq_some_iff.mp option
  simp only [Tokens.takesNext, isNamed, isOption, Bool.true_and, reads.parameterized, bare,
    contains_headerNames, contains_fileNames, reads.header, reads.file]

theorem Reads.isLink (reads : Reads name parameterized header file forces link)
    (option : optionName token = some name) : isLink token = link := by
  obtain ⟨isOption, rfl⟩ := optionName_eq_some_iff.mp option
  rw [Tokens.isLink, isOption, Bool.true_and, reads.link]

end Option

/-! ## Tokens -/

variable {token next : Text}

theorem isNamed_iff {names : List Text} :
    isNamed names token = true ↔ isOption token = true ∧ token.tail ∈ names := by
  simp [isNamed]

theorem reads_of_parameterized (named : isNamed keptNames token = true) :
    ∃ name, optionName token = some name ∧ Reads name true none none false false := by
  obtain ⟨option, member⟩ := isNamed_iff.mp named
  exact ⟨_, optionName_eq_some_iff.mpr ⟨option, rfl⟩, reads_parameterized _ member⟩

theorem isLink_of_parameterized (named : isNamed keptNames token = true) :
    isLink token = false := by
  obtain ⟨name, option, reads⟩ := reads_of_parameterized named
  exact reads.isLink option

theorem takesNext_of_parameterized (named : isNamed keptNames token = true)
    (next : Text) : takesNext token next = true := by
  rw [takesNext, named, Bool.true_or]

theorem isNamed_of_takesNext (takes : takesNext token next = true) :
    isNamed takingNames token = true := by
  simp only [takesNext, Bool.or_eq_true, Bool.and_eq_true, isNamed_iff] at takes
  rw [isNamed_iff, takingNames]
  rcases takes with ⟨option, member⟩ | ⟨⟨option, member⟩, -⟩
  · exact ⟨option, List.mem_append_left _ member⟩
  · exact ⟨option, List.mem_append_right _ member⟩

/-- A link takes no value. -/
theorem isLink_of_takesNext (takes : takesNext token next = true) : isLink token = false := by
  have noLink : ∀ name ∈ takingNames, (name.map Char.toLower == "link".toList) = false := by decide
  obtain ⟨-, member⟩ := isNamed_iff.mp (isNamed_of_takesNext takes)
  rw [isLink, noLink _ member, Bool.and_false]

/-- Only parameterized options take a link as their value. -/
theorem takesNext_of_isLink (link : isLink next = true) (token : Text) :
    takesNext token next = isNamed keptNames token := by
  rw [isLink, Bool.and_eq_true] at link
  simp [takesNext, link.1]

end Compdb.Tokens
