/-
# Compdb.Proofs.Classification.Canonical — classifying a classification again

What a classification keeps can be written as tokens once more: each header behind `Yu`, each file
behind `Tp`, and then the kept arguments as they are (`canonical`). These tokens have the same
classification (`classify_canonical`), unless a file has quotes at its ends, which `Tp` drops.

The names are no trouble: they are not empty and their quotes are gone already. The arguments are
read correctly since every list of them is put together from complete pairs of an option and its
value, with at most one option without a value, at its end (`IsOptionList`). So a value is a
value again, even if it looks like a link or a forced source, and an option without a value still
has none.
-/
import Compdb.Proofs.Classification.Files
import Compdb.Proofs.Classification.Values

namespace Compdb.Tokens

set_option autoImplicit false

/-! ## The kept arguments -/

/-- A list of parameterized options, each with its value; the last one can be without. -/
inductive IsOptionList : List Text → Prop where
  | nil : IsOptionList []
  | last {option : Text} (named : isNamed keptNames option = true) : IsOptionList [option]
  | pair {option : Text} (value : Text) {rest : List Text}
      (named : isNamed keptNames option = true) (more : IsOptionList rest) :
      IsOptionList (option :: value :: rest)

/-- Items which have their values keep complete pairs. -/
theorem isOptionList_append {front : List Item} (complete : ∀ item ∈ front, item.IsComplete)
    {rest : List Text} (options : IsOptionList rest) :
    IsOptionList (front.flatMap Item.arguments ++ rest) := by
  induction front with
  | nil => exact options
  | cons item front ih =>
      rw [List.forall_mem_cons] at complete
      obtain ⟨token, value⟩ := item
      cases named : isNamed keptNames token with
      | false => simpa [Item.arguments, named] using ih complete.2
      | true =>
          obtain ⟨value, rfl⟩ := Option.isSome_iff_exists.mp (complete.1 named)
          have more := IsOptionList.pair value named (ih complete.2)
          simpa [Item.arguments, named] using more

/-- What is kept of a list is an option list: an option without a value is the last token. -/
theorem isOptionList_arguments (tokens : List Text) : IsOptionList (found tokens).arguments := by
  rw [found_eq, gather]
  dsimp only
  rcases complete_or_awaits tokens with ⟨-, complete⟩ | ⟨-, front, option, whole, named, complete⟩
  · simpa using isOptionList_append complete .nil
  · rw [whole, List.flatMap_append, List.flatMap_singleton, Item.arguments_single named]
    exact isOptionList_append complete (.last named)

/-- An option list is kept as it is. -/
theorem IsOptionList.found_eq {arguments : List Text} (options : IsOptionList arguments) :
    found arguments = ({ arguments := arguments } : Findings) := by
  induction options with
  | nil => rfl
  | last named =>
      rw [found_cons (isLink_of_parameterized named) (by simp), findings_of_parameterized named]
      rfl
  | pair value named more ih =>
      rw [found_cons_cons (takesNext_of_parameterized named value),
        findings_of_parameterized named, ih]
      rfl

/-! ## The names -/

theorem isBareName_of_ends {name : Text} (filled : name ≠ []) (front : name.head? ≠ some '"')
    (back : name.getLast? ≠ some '"') : IsBareName name := by
  refine ⟨filled, Text.trimWhere_of_ends ?_ ?_⟩
  · cases head : name.head? with
    | none => rfl
    | some c => simpa [head] using front
  · cases last : name.getLast? with
    | none => rfl
    | some c => simpa [last] using back

/-- The headers of a classification behind `Yu`, its files behind `Tp`, and its arguments. -/
def canonical (c : Classification) : List Text :=
  c.pchHeaders.map (fun header => '/' :: 'Y' :: 'u' :: header)
    ++ c.files.map (fun file => '/' :: 'T' :: 'p' :: file) ++ c.arguments

/-- An option with its name in the same token stands by itself. -/
theorem found_cons_named {token name : Text} {header file : Option Text}
    (option : optionName token = some name) (reads : Reads name false header file false false)
    (noHeader : header ≠ some []) (noFile : file ≠ some []) (rest : List Text) :
    found (token :: rest) =
      ({ namedFiles := (file.bind bareName).toList,
         pchHeaders := (header.bind bareName).toList } : Findings) ++ found rest := by
  have alone (next : Text) : takesNext token next = false := by
    simp [reads.takesNext option, noHeader, noFile]
  rw [found_cons (reads.isLink option) fun next _ => alone next, reads.findings option]
  congr 2
  · split <;> simp_all
  · split <;> simp_all

theorem found_header {header : Text} (bare : IsBareName header) (rest : List Text) :
    found (('/' :: 'Y' :: 'u' :: header) :: rest) =
      ({ pchHeaders := [header] } : Findings) ++ found rest := by
  have reads := @reads_header ['Y', 'u'] (by decide) header
  rw [found_cons_named rfl reads (by simp [bare.filled]) (by simp)]
  simp [bare.bareName_eq]

theorem found_file {file : Text} (bare : IsBareName file) (rest : List Text) :
    found (('/' :: 'T' :: 'p' :: file) :: rest) =
      ({ namedFiles := [file] } : Findings) ++ found rest := by
  have reads := @reads_file ['T', 'p'] (by decide) file
  rw [found_cons_named rfl reads (by simp) (by simp [bare.filled])]
  simp [bare.bareName_eq]

/-- Options which each keep one name keep all of them, in their order. -/
theorem found_map {write : Text → Text} {keep : List Text → Findings} (nothing : keep [] = {})
    (further : ∀ name names, keep (name :: names) = keep [name] ++ keep names)
    {names : List Text}
    (each : ∀ name ∈ names, ∀ rest, found (write name :: rest) = keep [name] ++ found rest)
    (rest : List Text) : found (names.map write ++ rest) = keep names ++ found rest := by
  induction names with
  | nil =>
      rw [nothing]
      rfl
  | cons name names ih =>
      rw [List.forall_mem_cons] at each
      rw [List.map_cons, List.cons_append, each.1, ih each.2, further name names,
        Findings.append_assoc]

theorem found_headers {headers : List Text} (bare : ∀ header ∈ headers, IsBareName header)
    (rest : List Text) :
    found (headers.map (fun header => '/' :: 'Y' :: 'u' :: header) ++ rest) =
      ({ pchHeaders := headers } : Findings) ++ found rest :=
  @found_map _ (fun headers => { pchHeaders := headers }) rfl (fun _ _ => rfl) _
    (fun header member => found_header (bare header member)) rest

theorem found_files {files : List Text} (bare : ∀ file ∈ files, IsBareName file)
    (rest : List Text) :
    found (files.map (fun file => '/' :: 'T' :: 'p' :: file) ++ rest) =
      ({ namedFiles := files } : Findings) ++ found rest :=
  @found_map _ (fun files => { namedFiles := files }) rfl (fun _ _ => rfl) _
    (fun file member => found_file (bare file member)) rest

/-- **Classifying a classification again gives the same one**, when no file has quotes at its
ends. -/
theorem classify_canonical {tokens : List Text}
    (unquoted : ∀ file ∈ (classify tokens).files,
      file.head? ≠ some '"' ∧ file.getLast? ≠ some '"') :
    classify (canonical (classify tokens)) = classify tokens := by
  have files : ∀ file ∈ (classify tokens).files, IsBareName file := by
    intro file member
    obtain ⟨front, back⟩ := unquoted file member
    exact isBareName_of_ends (Classification.ne_nil_of_mem_files member) front back
  have headers : ∀ header ∈ (classify tokens).pchHeaders, IsBareName header :=
    fun _ member => isBareName_of_mem_pchHeaders member
  have options : IsOptionList (classify tokens).arguments := isOptionList_arguments tokens
  rw [classify_eq (canonical (classify tokens)), canonical, List.append_assoc,
    found_headers headers, found_files files, options.found_eq]
  simp [Findings.append_eq, Findings.classification]

/-- A header in quotes, a value which looks like a link, a response file, a forced source, a file
behind its option, and an option without a value. -/
theorem classify_canonical_dangling :
    (∀ file ∈ (classify ["/Yc\"a\\b.h\"".toList, "/D".toList, "/link".toList, "@x.c".toList,
        "/TP".toList, "y.txt".toList, "/Tc".toList, "\"z\"".toList, "-I".toList]).files,
      file.head? ≠ some '"' ∧ file.getLast? ≠ some '"') ∧
    classify ["/Yua\\b.h".toList, "/Tpz".toList, "/Tpy.txt".toList, "/D".toList, "/link".toList,
        "-I".toList] =
      ⟨["/D".toList, "/link".toList, "-I".toList], ["z".toList, "y.txt".toList],
        ["a\\b.h".toList]⟩ := by
  have unquoted : ∀ file ∈ (classify ["/Yc\"a\\b.h\"".toList, "/D".toList, "/link".toList,
      "@x.c".toList, "/TP".toList, "y.txt".toList, "/Tc".toList, "\"z\"".toList,
      "-I".toList]).files, file.head? ≠ some '"' ∧ file.getLast? ≠ some '"' := by decide
  have again := classify_canonical unquoted
  exact ⟨unquoted, again.trans (by decide)⟩

end Compdb.Tokens
