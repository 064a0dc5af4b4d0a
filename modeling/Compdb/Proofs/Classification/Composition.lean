/-
# Compdb.Proofs.Classification.Composition — the classification of two lists, one behind the other

What the pass finds in `a ++ b` is what it finds in `a` and then in `b`, list by list, unless a link
in `a` ends the pass or the last option of `a` takes the first token of `b` as its value
(`found_append`). Which of the two happens is seen from `a` alone: only an option which awaits a
value takes one (`isValueAt_append_length`), and a link is taken by parameterized options only.

So a link behind `a` ends the pass, unless it is such a value; then it is kept, and the pass goes on
behind it (`found_append_awaited`). `classify_append` says all of it.
-/
import Compdb.Proofs.Classification.Findings

namespace Compdb.Tokens

set_option autoImplicit false

variable {a b : List Text}

/-! ## The border -/

theorem awaitsValue_iff {names tokens : List Text} :
    awaitsValue names tokens = true ↔
      linkPosition tokens = tokens.length ∧ isValueAt tokens (tokens.length - 1) = false ∧
        ∃ last, tokens.getLast? = some last ∧ isNamed names last = true := by
  simp [awaitsValue, Option.any_eq_true, and_assoc]

/-- The first token of the second list is a value when the last one of the first list takes it. -/
theorem exists_of_isValueAt (value : isValueAt (a ++ b) a.length = true) :
    ∃ last next, a.getLast? = some last ∧ b.head? = some next ∧
      isValueAt a (a.length - 1) = false ∧ takesNext last next = true := by
  rcases List.eq_nil_or_concat a with rfl | ⟨front, last, rfl⟩
  · cases value
  · rw [List.concat_eq_append] at value ⊢
    have before : isValueAt (front ++ [last] ++ b) front.length =
        isValueAt (front ++ [last]) front.length := isValueAt_append (by simp)
    rw [List.length_append, List.length_singleton, isValueAt_succ, before] at value
    cases b with
    | nil => simp at value
    | cons next rest =>
        refine ⟨last, next, by simp, rfl, ?_⟩
        simpa using value

/-- A list which awaits no value gives none to the list behind it. -/
theorem isValueAt_append_length (noLink : linkPosition a = a.length)
    (settled : awaitsValue takingNames a = false) (b : List Text) :
    isValueAt (a ++ b) a.length = false := by
  refine Bool.eq_false_iff.mpr fun value => Bool.eq_false_iff.mp settled ?_
  obtain ⟨last, next, back, -, free, takes⟩ := exists_of_isValueAt value
  exact awaitsValue_iff.mpr ⟨noLink, free, last, back, isNamed_of_takesNext takes⟩

/-- A link is a value behind a parameterized option only. -/
theorem isValueAt_append_length_of_isLink {link : Text} (isLink : isLink link = true)
    (noLink : linkPosition a = a.length) (settled : awaitsValue keptNames a = false)
    (rest : List Text) : isValueAt (a ++ link :: rest) a.length = false := by
  refine Bool.eq_false_iff.mpr fun value => Bool.eq_false_iff.mp settled ?_
  obtain ⟨last, next, back, front, free, takes⟩ := exists_of_isValueAt value
  cases front
  rw [takesNext_of_isLink isLink] at takes
  exact awaitsValue_iff.mpr ⟨noLink, free, last, back, takes⟩

/-! ## What is found across the border -/

theorem found_append_of_link (met : linkPosition a < a.length) (b : List Text) :
    found (a ++ b) = found a := by
  rw [found_eq, items_append_of_link met, found_eq]

theorem found_append (noLink : linkPosition a = a.length)
    (free : isValueAt (a ++ b) a.length = false) : found (a ++ b) = found a ++ found b := by
  rw [found_eq, items_append noLink free, gather_append, found_eq, found_eq]

/-- The beginning of a list without a link has none either. -/
theorem linkPosition_of_append {front back : List Text}
    (noLink : linkPosition (front ++ back) = (front ++ back).length) :
    linkPosition front = front.length := by
  rcases Nat.lt_or_ge (linkPosition front) front.length with met | whole
  · rw [linkPosition_append_of_link met, List.length_append] at noLink
    omega
  · exact Nat.le_antisymm (linkPosition_le front) whole

/-- A list which awaits a value ends in an option for which nothing waits. -/
theorem exists_of_awaitsValue {names : List Text} (awaits : awaitsValue names a = true) :
    ∃ front option, a = front ++ [option] ∧ linkPosition front = front.length ∧
      isValueAt (front ++ [option]) front.length = false ∧ isNamed names option = true := by
  obtain ⟨noLink, free, option, back, named⟩ := awaitsValue_iff.mp awaits
  obtain ⟨front, rfl⟩ := List.getLast?_eq_some_iff.mp back
  exact ⟨front, option, rfl, linkPosition_of_append noLink, by simpa using free, named⟩

/-- A parameterized option at the end keeps the first token behind it, whatever that is. -/
theorem found_append_awaited (awaits : awaitsValue keptNames a = true) (value : Text)
    (rest : List Text) :
    found (a ++ value :: rest) =
      found a ++ ({ arguments := [value] } : Findings) ++ found rest := by
  obtain ⟨front, option, rfl, before, free, named⟩ := exists_of_awaitsValue awaits
  have takes := takesNext_of_parameterized named value
  have whole : front ++ [option] ++ value :: rest = front ++ option :: value :: rest := by simp
  have freePair : isValueAt (front ++ option :: value :: rest) front.length = false := by
    rw [← whole, isValueAt_append (by simp), free]
  have alone : found [option] = ({ arguments := [option] } : Findings) := by
    rw [found_cons (isLink_of_parameterized named) (by simp), findings_of_parameterized named]
    rfl
  have pair : found (option :: value :: rest) =
      ({ arguments := [option, value] } : Findings) ++ found rest := by
    rw [found_cons_cons takes, findings_of_parameterized named]
    rfl
  rw [whole, found_append before freePair, pair, found_append before free, alone]
  simp [Findings.append_eq]

/-- **The classification of two lists, one behind the other.** After a link in the first list
nothing is looked at. Without one, and when the first list awaits no value, everything which is
found in the second list follows what is found in the first one. A link in between ends the first
list, unless a parameterized option awaits a value there; then it is kept as that value, and the
rest is looked at. -/
theorem classify_append (a b : List Text) :
    (linkPosition a < a.length → classify (a ++ b) = classify a) ∧
      (linkPosition a = a.length → awaitsValue takingNames a = false →
        found (a ++ b) = found a ++ found b ∧
          classify (a ++ b) = (found a ++ found b).classification) ∧
      ∀ link, isLink link = true →
        (awaitsValue keptNames a = false →
          classify (a ++ [link] ++ b) = classify a) ∧
        (awaitsValue keptNames a = true →
          found (a ++ [link] ++ b) = found a ++ ({ arguments := [link] } : Findings) ++ found b ∧
            classify (a ++ [link] ++ b) =
              (found a ++ ({ arguments := [link] } : Findings) ++ found b).classification) := by
  refine ⟨fun met => ?_, fun noLink settled => ?_, fun link isLink => ⟨fun settled => ?_, ?_⟩⟩
  · rw [classify_eq, found_append_of_link met, classify_eq]
  · have both := found_append noLink (isValueAt_append_length noLink settled b)
    exact ⟨both, by rw [classify_eq, both]⟩
  · rw [List.append_assoc, List.singleton_append, classify_eq, classify_eq]
    rcases Nat.lt_or_ge (linkPosition a) a.length with met | whole
    · rw [found_append_of_link met]
    · have noLink := Nat.le_antisymm (linkPosition_le a) whole
      have nothing : found (link :: b) = {} := by
        rw [found_eq, items_cons_of_link isLink, gather_nil]
      rw [found_append noLink (isValueAt_append_length_of_isLink isLink noLink settled b), nothing,
        Findings.append_empty]
  · intro awaits
    rw [List.append_assoc, List.singleton_append]
    have kept := found_append_awaited awaits link b
    exact ⟨kept, by rw [classify_eq, kept]⟩

/-- A link as a value, as the first token behind a precompiled header option and behind a
parameterized one, and a list which goes on behind a link. -/
theorem classify_append_links :
    (linkPosition ["/D".toList, "/link".toList, "a.h".toList] = 3 ∧
      awaitsValue takingNames ["/D".toList, "/link".toList, "a.h".toList] = false ∧
      classify (["/D".toList, "/link".toList, "a.h".toList] ++ ["b.h".toList, "/TC".toList]) =
        ⟨["/D".toList, "/link".toList], ["a.h".toList, "b.h".toList], []⟩) ∧
    (linkPosition ["a.c".toList, "-LINK".toList, "/D".toList] < 3 ∧
      classify (["a.c".toList, "-LINK".toList, "/D".toList] ++ ["b.h".toList, "/TC".toList]) =
        ⟨[], ["a.c".toList], []⟩) ∧
    (isLink "/Link".toList = true ∧ awaitsValue keptNames ["a.c".toList, "/Yc".toList] = false ∧
      classify (["a.c".toList, "/Yc".toList] ++ ["/Link".toList] ++ ["b.h".toList, "/TC".toList]) =
        ⟨[], ["a.c".toList], []⟩) ∧
    (awaitsValue keptNames ["a.c".toList, "/FI".toList] = true ∧
      classify (["a.c".toList, "/FI".toList] ++ ["/Link".toList] ++ ["b.h".toList, "/TC".toList]) =
        ⟨["/FI".toList, "/Link".toList], ["a.c".toList, "b.h".toList], []⟩) := by
  have valued := (classify_append ["/D".toList, "/link".toList, "a.h".toList]
    ["b.h".toList, "/TC".toList]).2.1 (by decide) (by decide)
  have linked := (classify_append ["a.c".toList, "-LINK".toList, "/D".toList]
    ["b.h".toList, "/TC".toList]).1 (by decide)
  have ended := ((classify_append ["a.c".toList, "/Yc".toList]
    ["b.h".toList, "/TC".toList]).2.2 "/Link".toList (by decide)).1 (by decide)
  have kept := ((classify_append ["a.c".toList, "/FI".toList]
    ["b.h".toList, "/TC".toList]).2.2 "/Link".toList (by decide)).2 (by decide)
  refine ⟨⟨by decide, by decide, ?_⟩, ⟨by decide, ?_⟩, ⟨by decide, by decide, ?_⟩, by decide, ?_⟩
  · exact valued.2.trans (by decide)
  · exact linked.trans (by decide)
  · exact ended.trans (by decide)
  · exact kept.2.trans (by decide)

end Compdb.Tokens
