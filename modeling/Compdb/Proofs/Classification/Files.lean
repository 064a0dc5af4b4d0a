/-
# Compdb.Proofs.Classification.Files — every file of an invocation has a name

An empty token and a name of nothing but quotes reach the pass in several ways: as a positional
token, within an option, or behind one. None of them becomes a file or a header. A name which an
option gives is noted without the quotes around it, and only when something is left then
(`IsBareName`); a positional token is a candidate only when it is not empty. So no file of a
classification is empty (`ne_nil_of_mem_files`).
-/
import Compdb.Proofs.Classification.Findings

namespace Compdb

set_option autoImplicit false

namespace Tokens

/-- A name as it is noted: not empty, and without quotes at its ends. -/
structure IsBareName (name : Text) : Prop where
  filled : name ≠ []
  trimmed : Text.trimQuotes name = name

theorem IsBareName.bareName_eq {name : Text} (bare : IsBareName name) :
    bareName name = some name := by
  simp [bareName_eq_trimQuotes, bare.trimmed, bare.filled]

theorem isBareName_of_bareName {text name : Text} (noted : bareName text = some name) :
    IsBareName name := by
  rw [bareName_eq_trimQuotes] at noted
  split at noted
  · cases noted
  · next filled =>
    cases noted
    exact ⟨by simpa using filled, Text.trimWhere_trimWhere _ text⟩

theorem isBareName_of_mem_names {starts : List Text} {item : Item} {name : Text}
    (member : name ∈ item.names starts) : IsBareName name := by
  obtain ⟨subject, -, noted⟩ := Option.bind_eq_some_iff.mp (Option.mem_toList.mp member)
  exact isBareName_of_bareName noted

theorem ne_nil_of_mem_positional {item : Item} {token : Text} (member : token ∈ item.positional) :
    token ≠ [] := by
  unfold Item.positional at member
  split at member
  · next accepted =>
    rw [List.mem_singleton] at member
    rintro rfl
    simp [← member] at accepted
  · cases member

/-- Every header is noted like that. -/
theorem isBareName_of_mem_pchHeaders {tokens : List Text} {header : Text}
    (member : header ∈ (classify tokens).pchHeaders) : IsBareName header := by
  rw [classify_eq, found_eq] at member
  obtain ⟨item, -, noted⟩ := List.mem_flatMap.mp member
  exact isBareName_of_mem_names noted

end Tokens

namespace Classification

open Tokens

/-- **Every file has a name**, whatever the tokens are. -/
theorem ne_nil_of_mem_files {tokens : List Text} {file : Text}
    (member : file ∈ (classify tokens).files) : file ≠ [] := by
  rw [classify_eq, found_eq] at member
  rcases List.mem_append.mp member with named | promoted
  · obtain ⟨item, -, noted⟩ := List.mem_flatMap.mp named
    exact (isBareName_of_mem_names noted).filled
  · obtain ⟨item, -, token⟩ := List.mem_flatMap.mp (List.mem_filter.mp promoted).1
    exact ne_nil_of_mem_positional token

end Classification

end Compdb
