/-
# Compdb.Proofs.Invocation — which compiler a command line names

A line which has a result is cut behind an occurrence of the marker (`splitAtMarker_eq_some`).
What is trimmed away in front of the marker never reaches into it, since no character of the
marker is white space or a quote; so the compiler ends with the occurrence
(`compiler_of_ofLine`).

A relative compiler is appended to the working directory. A path which begins like an absolute
one is absolute, whatever follows, so the resolved compiler is absolute when the working
directory is (`isAbsolute_resolveCompiler`), and it still ends with the marker.
-/
import Compdb.Invocation
import Compdb.Proofs.Text.Cutting

namespace Compdb

set_option autoImplicit false

/-! ## Folding -/

namespace Text

variable {p : Char → Bool}

/-- White space has no case. -/
theorem toLower_of_isBlank {c : Char} (blank : isBlank c = true) : c.toLower = c := by
  refine dif_neg fun letter => ?_
  obtain ⟨low, high⟩ : 65 ≤ c.toNat ∧ c.toNat ≤ 90 := letter
  simp [isBlank, blankRanges] at blank
  omega

/-- A class of characters without case which a folded text does not meet, is not met by the text
itself. -/
theorem kept_of_foldCase {t folded : Text} (same : foldCase t = folded)
    (caseless : ∀ c, p c = true → c.toLower = c) (kept : folded.any p = false) :
    ∀ c ∈ t, p c = false := by
  intro c member
  have inFolded : c.toLower ∈ folded := by
    rw [← same]
    exact List.mem_map_of_mem member
  rw [Bool.eq_false_iff]
  intro met
  rw [caseless c met] at inFolded
  exact List.any_eq_false.mp kept c inFolded met

end Text

/-! ## Absolute paths -/

namespace Path

theorem hasDrive_append {start : Text} (drive : hasDrive start = true) (t : Text) :
    hasDrive (start ++ t) = true := by
  match start, drive with
  | letter :: colon :: separator :: rest, drive => exact drive

/-- What a path begins with makes it absolute. -/
theorem isAbsolute_append {start : Text} (absolute : isAbsolute start = true) (t : Text) :
    isAbsolute (start ++ t) = true := by
  simp only [isAbsolute, Bool.or_eq_true, List.isPrefixOf_iff_prefix] at absolute ⊢
  rcases absolute with (drive | share) | root
  · exact Or.inl (Or.inl (hasDrive_append drive t))
  · exact Or.inl (Or.inr (share.trans (List.prefix_append start t)))
  · exact Or.inr (root.trans (List.prefix_append start t))

theorem ne_nil_of_isAbsolute {path : Text} (absolute : isAbsolute path = true) : path ≠ [] := by
  rintro rfl
  cases absolute

/-- What is joined to an absolute directory is absolute: it stays behind the directory, or is a
path from the root of the host. -/
theorem isAbsolute_join {directory : Text} (absolute : isAbsolute directory = true) (path : Text) :
    isAbsolute (join directory path) = true := by
  rw [join]
  split
  · next whole =>
    rcases Bool.or_eq_true_iff.mp whole with root | nothing
    · simp [isAbsolute, root]
    · exact absurd (List.isEmpty_iff.mp nothing) (ne_nil_of_isAbsolute absolute)
  · split
    · exact isAbsolute_append absolute path
    · exact isAbsolute_append absolute ('/' :: path)

theorem suffix_join (directory path : Text) : path <:+ join directory path := by
  rw [join]
  split
  · exact List.suffix_rfl
  · split
    · exact List.suffix_append directory path
    · exact (List.suffix_cons '/' path).trans (List.suffix_append directory ('/' :: path))

/-- A directory part is never empty. -/
theorem parentDirectory_ne_nil {path directory : Text}
    (parent : parentDirectory path = some directory) : directory ≠ [] := by
  rw [parentDirectory] at parent
  split at parent
  · cases parent
    simp
  · cases parent

end Path

/-! ## The compiler in a command line -/

namespace Invocation

/-- A line is cut behind an occurrence of the marker. -/
theorem splitAtMarker_eq_some {line before after : Text}
    (cut : splitAtMarker line = some (before, after)) :
    line = before ++ after ∧
      ∃ start found, before = start ++ found ∧ Text.foldCase found = marker := by
  induction line generalizing before with
  | nil => cases cut
  | cons c rest ih =>
      rw [splitAtMarker] at cut
      split at cut
      · next here =>
        have isMarker : Text.foldCase ((c :: rest).take marker.length) = marker := by
          rw [Text.foldCase, List.map_take]
          exact (List.prefix_iff_eq_take.mp (List.isPrefixOf_iff_prefix.mp here)).symm
        obtain ⟨rfl, rfl⟩ := Prod.mk.inj (Option.some.inj cut)
        exact ⟨(List.take_append_drop _ _).symm, [], _, rfl, isMarker⟩
      -- the first occurrence is further on: one more character stands in front of it
      · obtain ⟨⟨before', after'⟩, later, same⟩ := Option.map_eq_some_iff.mp cut
        obtain ⟨rfl, rfl⟩ := Prod.mk.inj same
        obtain ⟨rfl, start, found, rfl, isMarker⟩ := ih later
        exact ⟨rfl, c :: start, found, rfl, isMarker⟩

/-- No character of the marker is trimmed, whatever the case of its letters. -/
theorem kept_of_foldCase_eq_marker {found : Text} (isMarker : Text.foldCase found = marker) :
    ∀ c ∈ found, Text.isBlank c = false ∧ (c == '"') = false := by
  have quotes : ∀ c, (c == '"') = true → c.toLower = c := by
    intro c quote
    obtain rfl : c = '"' := by simpa using quote
    rfl
  intro c member
  exact ⟨Text.kept_of_foldCase isMarker (fun _ => Text.toLower_of_isBlank) rfl c member,
    Text.kept_of_foldCase isMarker quotes rfl c member⟩

theorem ne_nil_of_foldCase_eq_marker {found : Text} (isMarker : Text.foldCase found = marker) :
    found ≠ [] := by
  rintro rfl
  cases isMarker

/-- In front of the marker, white space and then quotes are trimmed away; behind it there is nothing
to trim. -/
theorem trim_append_found {found : Text} (isMarker : Text.foldCase found = marker) (start : Text) :
    Text.trimQuotes (Text.trim (start ++ found)) =
      (start.dropWhile Text.isBlank).dropWhile (· == '"') ++ found := by
  have kept := kept_of_foldCase_eq_marker isMarker
  have nonempty := ne_nil_of_foldCase_eq_marker isMarker
  rw [Text.trim, Text.trimWhere_append_solid nonempty fun c member => (kept c member).1,
    Text.trimQuotes, Text.trimWhere_append_solid nonempty fun c member => (kept c member).2]

/-- The compiler is the line up to an occurrence of the marker, without the white space and then
without the quotes in front. -/
theorem compiler_of_ofLine {line : Text} {invocation : Invocation}
    (parsed : ofLine line = some invocation) :
    ∃ start found after, line = start ++ found ++ after ∧ Text.foldCase found = marker ∧
      invocation =
        ⟨(start.dropWhile Text.isBlank).dropWhile (· == '"') ++ found, dropClosingQuote after⟩ := by
  obtain ⟨⟨before, after⟩, cut, rfl⟩ := Option.map_eq_some_iff.mp parsed
  obtain ⟨rfl, start, found, rfl, isMarker⟩ := splitAtMarker_eq_some cut
  refine ⟨start, found, after, rfl, isMarker, ?_⟩
  show Invocation.mk (Text.trimQuotes (Text.trim (start ++ found))) (dropClosingQuote after) = _
  rw [trim_append_found isMarker]

theorem marker_suffix_compiler {line : Text} {invocation : Invocation}
    (parsed : ofLine line = some invocation) :
    marker <:+ Text.foldCase invocation.compiler := by
  obtain ⟨start, found, after, -, isMarker, rfl⟩ := compiler_of_ofLine parsed
  rw [Text.foldCase_append, isMarker]
  exact List.suffix_append _ _

/-- The resolved compiler is absolute in every absolute working directory. -/
theorem isAbsolute_resolveCompiler {workingDirectory : Text}
    (absolute : Path.isAbsolute workingDirectory = true) (compiler : Text) :
    Path.isAbsolute (resolveCompiler compiler workingDirectory) = true := by
  rw [resolveCompiler]
  split
  · next already => exact already
  · exact Path.isAbsolute_join absolute compiler

/-- Resolving adds nothing behind the compiler. -/
theorem suffix_resolveCompiler (compiler workingDirectory : Text) :
    compiler <:+ resolveCompiler compiler workingDirectory := by
  rw [resolveCompiler]
  split
  · exact List.suffix_rfl
  · exact Path.suffix_join workingDirectory compiler

theorem projectDirectory_ne_nil {workingDirectory : Text} (nonempty : workingDirectory ≠ [])
    (projectFile : Text) : projectDirectory projectFile workingDirectory ≠ [] := by
  rw [projectDirectory]
  cases parent : Path.parentDirectory projectFile with
  | none => exact nonempty
  | some directory => exact Path.parentDirectory_ne_nil parent

end Invocation

end Compdb
