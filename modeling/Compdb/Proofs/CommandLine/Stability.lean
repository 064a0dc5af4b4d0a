/-
# Compdb.Proofs.CommandLine.Stability — the tokens of any line can be quoted again

A line can be quoted badly, or end within quotes; its tokens are still tokens which quoting and
tokenizing give back (`Settled`). Three things make up for that.

* There is a token: a normalized line begins with a character of one (`tokensOfRuns_ne_nil`).
* The splitter writes no character which the line does not have (`mem_of_mem_split`).
* No token has two spaces side by side. Both would be spaces within quotes, and something would
  stand between them in the line. A run of backslashes and quotes which writes nothing there is a
  single quote, and it leaves the quoting (`Run.text_eq_nil`), so no quote opens it again before
  the next space ends the token. The invariant is `GoesOn`: what is begun can go on with the line.

`tokenize_cases` puts them together, with the two ways in which a line has no tokens.
-/
import Compdb.Proofs.CommandLine.Quoting
import Compdb.Proofs.CommandLine.Runs

namespace Compdb.CommandLine

set_option autoImplicit false

open Text (allBlank isBlank normalize SpacesIsolated)

/-! ## Tokens which can be quoted again -/

/-- Tokens which a line can hold: there is one, and a token has no NUL and no white space but
isolated spaces. -/
structure Settled (tokens : List Text) : Prop where
  filled : tokens ≠ []
  noNul : ∀ token ∈ tokens, '\x00' ∉ token
  isolated : ∀ token ∈ tokens, SpacesIsolated token

/-- Quoted tokens, joined by single spaces. -/
def quoteAll (tokens : List Text) : Text :=
  [' '].intercalate (tokens.map quote)

theorem written_quoteAll {tokens : List Text} (filled : tokens ≠ []) :
    Written tokens (quoteAll tokens) := by
  induction tokens with
  | nil => exact absurd rfl filled
  | cons token tokens ih =>
      rcases eq_or_ne tokens [] with rfl | more
      · simpa [quoteAll] using @Written.last _ _ [] [] (.quoted token) rfl rfl
      · have rest := ih more
        have joined :
            quoteAll (token :: tokens) = [] ++ quote token ++ [' '] ++ quoteAll tokens := by
          have parts : tokens.map quote ≠ [] := by simpa using more
          rw [quoteAll, List.map_cons, List.intercalate_cons_of_ne_nil parts, quoteAll]
          simp
        rw [joined]
        exact .cons (.quoted token) rfl (by decide) (by decide) rest

theorem Settled.tokenize_quoteAll {tokens : List Text} (settled : Settled tokens) :
    tokenize (quoteAll tokens) = .ok tokens := by
  have same : tokens.map Text.collapse = tokens := by
    refine List.map_congr_left (fun token member => ?_) |>.trans (List.map_id tokens)
    exact Text.collapse_of_isolated (settled.isolated token member)
  rw [(written_quoteAll settled.filled).tokenize_eq settled.noNul, same]

/-! ## The characters of a token -/

namespace Splitter

/-- A step writes the character it reads, or none. -/
theorem mem_current_step {s : Splitter} {c d : Char} (member : d ∈ (s.step c).current) :
    d = c ∨ d ∈ s.current := by
  unfold step at member
  split at member
  · next quote =>
    rw [beq_iff_eq] at quote
    have kept (n : Nat) (inside : d ∈ s.current.drop n) : d ∈ s.current :=
      List.mem_of_mem_drop inside
    split at member
    · rw [nextQuote] at member
      split at member
      · exact (List.mem_cons.mp member).imp_left fun same => same.trans quote.symm
      · exact Or.inr member
    · rw [firstQuote] at member
      split at member
      · exact Or.inr (kept _ member)
      · exact (List.mem_cons.mp member).imp (fun same => same.trans quote.symm) (kept _)
  · dsimp only at member
    split at member
    · rw [separator] at member
      split at member
      · cases member
      · exact Or.inr (by simpa using member)
    · split at member
      · next backslash =>
        rw [Splitter.backslash] at member
        exact (List.mem_cons.mp member).imp (fun same => same.trans (beq_iff_eq.mp backslash).symm)
          (by simp)
      · exact (List.mem_cons.mp member).imp_right (by simp)

/-- A step finishes the token being written, or none. -/
theorem mem_tokens_step {s : Splitter} {c : Char} {token : Text}
    (member : token ∈ (s.step c).tokens) : token = s.current.reverse ∨ token ∈ s.tokens := by
  unfold step at member
  split at member
  · split at member
    · rw [nextQuote] at member
      split at member <;> exact Or.inr member
    · rw [firstQuote] at member
      split at member <;> exact Or.inr member
  · dsimp only at member
    split at member
    · rw [separator] at member
      split at member
      · simpa using member
      · exact Or.inr (by simpa using member)
    · split at member <;> exact Or.inr (by simpa [backslash, ordinary] using member)

theorem mem_of_mem_foldl_finish {line : Text} {p : Char → Prop} (read : ∀ c ∈ line, p c) :
    ∀ {s : Splitter}, (∀ c ∈ s.current, p c) → (∀ token ∈ s.tokens, ∀ c ∈ token, p c) →
      ∀ token ∈ (line.foldl step s).finish, ∀ c ∈ token, p c := by
  induction line with
  | nil =>
      intro s current tokens token member
      rw [List.foldl_nil, finish, List.mem_reverse] at member
      split at member
      · rcases List.mem_cons.mp member with rfl | finished
        · intro c inside
          exact current c (List.mem_reverse.mp inside)
        · exact tokens token finished
      · exact tokens token member
  | cons c line ih =>
      intro s current tokens
      rw [List.forall_mem_cons] at read
      refine ih read.2 ?_ ?_
      · intro d inside
        rcases mem_current_step inside with rfl | earlier
        · exact read.1
        · exact current d earlier
      · intro token finished
        rcases mem_tokens_step finished with rfl | earlier
        · intro d inside
          exact current d (List.mem_reverse.mp inside)
        · exact tokens token earlier

end Splitter

/-- Splitting invents no character. -/
theorem mem_of_mem_split {line token : Text} (member : token ∈ split line) {c : Char}
    (inside : c ∈ token) : c ∈ line :=
  Splitter.mem_of_mem_foldl_finish (p := (· ∈ line)) (fun _ read => read) (by simp) (by simp)
    token member c inside

/-! ## The spaces of a token -/

namespace Run

/-- Backslashes and quotes write backslashes and quotes. -/
theorem isBlank_of_mem_text {isQuoted : Bool} {k m : Nat} {c : Char}
    (member : c ∈ (marks k m).text isQuoted) : isBlank c = false := by
  have solid : c = '\\' ∨ c = '"' := by
    cases m with
    | zero => exact Or.inl (List.eq_of_mem_replicate member)
    | succ m =>
        simp only [text, List.mem_append, or_assoc] at member
        rcases member with half | literal | third
        · exact Or.inl (List.eq_of_mem_replicate half)
        · split at literal
          · exact Or.inr (List.mem_singleton.mp literal)
          · cases literal
        · exact Or.inr (List.eq_of_mem_replicate third)
  rcases solid with rfl | rfl
  · exact isBlank_backslash
  · exact isBlank_quote

/-- Marks which write nothing within quotes are one quote, and it leaves the quoting. -/
theorem text_eq_nil {isQuoted : Bool} {k m : Nat} (filled : 0 < k + m)
    (nothing : (marks k m).text isQuoted = []) :
    k = 0 ∧ 0 < m ∧ (isQuoted = true → (marks k m).isQuotedAfter isQuoted = false) := by
  cases m with
  | zero =>
      rw [text, List.replicate_eq_nil_iff] at nothing
      omega
  | succ m =>
      simp only [text, List.append_eq_nil_iff, List.replicate_eq_nil_iff, ite_eq_right_iff]
        at nothing
      obtain ⟨⟨half, odd⟩, third⟩ := nothing
      have none : k = 0 := by
        have even : k % 2 ≠ 1 := fun h => by cases odd h
        omega
      refine ⟨none, Nat.succ_pos m, ?_⟩
      rintro rfl
      subst none
      have two : count true 0 (m + 1) = 2 := by
        simp only [count, Bool.toNat_true] at third ⊢
        simp at third ⊢
        omega
      rw [isQuotedAfter, two]
      · decide
      · exact Nat.succ_ne_zero m

end Run

/-- What is begun can go on with the line: its spaces are isolated, and when it ends in one, no
space comes next within quotes, and no quote which would open them. -/
structure GoesOn (isQuoted : Bool) (begun line : Text) : Prop where
  isolated : SpacesIsolated begun
  quoted : begun.getLast? = some ' ' → isQuoted = true → line.head? ≠ some ' '
  unquoted : begun.getLast? = some ' ' → isQuoted = false → line.head? ≠ some '"'

namespace GoesOn

variable {isQuoted : Bool} {begun line rest : Text}

theorem nil (isQuoted : Bool) (line : Text) : GoesOn isQuoted [] line :=
  ⟨Text.isolated_nil, by simp, by simp⟩

/-- Any space at the end is the space. -/
theorem isBlank_getLast? (isolated : SpacesIsolated begun) (noSpace : begun.getLast? ≠ some ' ') :
    begun.getLast?.any isBlank = false := by
  cases last : begun.getLast? with
  | none => rfl
  | some c =>
      refine Bool.eq_false_iff.mpr fun blank => noSpace ?_
      rw [last, isolated.1 c (List.mem_of_getLast? last) (by simpa using blank)]

theorem space (goesOn : GoesOn true begun (' ' :: rest)) (isolated : SpacesIsolated (' ' :: rest)) :
    GoesOn true (begun ++ [' ']) rest := by
  have noSpace : begun.getLast? ≠ some ' ' := fun last => goesOn.quoted last rfl rfl
  refine ⟨?_, fun _ _ second => ?_, fun _ open' => Bool.noConfusion open'⟩
  · exact goesOn.isolated.append (by decide) (Or.inl (isBlank_getLast? goesOn.isolated noSpace))
  · have alone := ((Text.isolated_cons.mp isolated).1 (by decide)).2
    rw [second] at alone
    revert alone
    decide

theorem other {c : Char} (goesOn : GoesOn isQuoted begun (c :: rest)) (solid : isBlank c = false) :
    GoesOn isQuoted (begun ++ [c]) rest := by
  have isolated : SpacesIsolated (begun ++ [c]) :=
    goesOn.isolated.append (Text.isolated_of_solid (by simpa using solid))
      (Or.inr (by simpa using solid))
  have noSpace : (begun ++ [c]).getLast? ≠ some ' ' := by
    rw [List.getLast?_concat]
    rintro ⟨⟩
    revert solid
    decide
  exact ⟨isolated, fun last => absurd last noSpace, fun last => absurd last noSpace⟩

/-- Behind marks which write something, a token does not end in a space; marks which write nothing
leave the quoting. -/
theorem marks {k m : Nat} (filled : 0 < k + m) (quotesEnd : rest.head? ≠ some '"')
    (goesOn : GoesOn isQuoted begun (List.replicate k '\\' ++ (List.replicate m '"' ++ rest))) :
    GoesOn ((Run.marks k m).isQuotedAfter isQuoted) (begun ++ (Run.marks k m).text isQuoted)
      rest := by
  have solid : ∀ c ∈ (Run.marks k m).text isQuoted, isBlank c = false := fun c inside =>
    Run.isBlank_of_mem_text inside
  have isolated : SpacesIsolated (begun ++ (Run.marks k m).text isQuoted) := by
    refine goesOn.isolated.append (Text.isolated_of_solid solid) (Or.inr ?_)
    cases text : (Run.marks k m).text isQuoted with
    | nil => rfl
    | cons c more => exact solid c (by simp [text])
  refine ⟨isolated, fun last opens => ?_, fun _ _ => quotesEnd⟩
  exfalso
  rcases eq_or_ne ((Run.marks k m).text isQuoted) [] with nothing | something
  · obtain ⟨rfl, some, leaves⟩ := Run.text_eq_nil filled nothing
    rw [nothing, List.append_nil] at last
    cases isQuoted with
    | true =>
        rw [leaves rfl] at opens
        cases opens
    | false =>
        obtain ⟨n, rfl⟩ : ∃ n, m = n + 1 := ⟨m - 1, by omega⟩
        exact goesOn.unquoted last rfl rfl
  · rw [List.getLast?_append_of_ne_nil begun something] at last
    have := solid ' ' (List.mem_of_getLast? last)
    revert this
    decide

end GoesOn

/-- From what can go on, all tokens of the rest have isolated spaces. -/
theorem isolated_of_mem_tokensOfRuns {line : Text} (isolated : SpacesIsolated line) :
    ∀ {isQuoted : Bool} {begun : Option Text}, GoesOn isQuoted (begun.getD []) line →
      ∀ token ∈ tokensOfRuns isQuoted begun (runs line), SpacesIsolated token := by
  induction line using runs.induct with
  | case1 =>
      intro isQuoted begun goesOn token member
      rw [runs, tokensOfRuns, Option.mem_toList] at member
      cases member
      exact goesOn.isolated
  | case2 rest ih =>
      intro isQuoted begun goesOn token member
      have further : SpacesIsolated rest := (Text.isolated_cons.mp isolated).2
      rw [runs, if_pos rfl, tokensOfRuns] at member
      cases isQuoted with
      | false =>
          rw [if_pos ⟨rfl, rfl⟩, List.mem_append, Option.mem_toList] at member
          rcases member with ended | later
          · cases ended
            exact goesOn.isolated
          · exact ih further (.nil false rest) token later
      | true =>
          rw [if_neg (by simp)] at member
          exact ih further (goesOn.space isolated) token member
  | case3 c rest space marked ih =>
      intro isQuoted begun goesOn token member
      have behind : behindMarks (c :: rest) <:+ c :: rest :=
        (List.dropWhile_suffix _).trans (List.dropWhile_suffix _)
      rw [runs, if_neg space, if_pos marked, tokensOfRuns, if_neg (by simp)] at member
      rw [marks_append (c :: rest)] at goesOn
      have further := goesOn.marks (marks_filled marked rest)
        (head?_behindMarks_ne_quote (c :: rest))
      exact ih (isolated.of_infix behind.isInfix) further token member
  | case4 c rest space unmarked ih =>
      intro isQuoted begun goesOn token member
      rw [Text.isolated_cons] at isolated
      have solid : isBlank c = false :=
        Bool.eq_false_iff.mpr fun blank => space (isolated.1 blank).1
      rw [runs, if_neg space, if_neg unmarked, tokensOfRuns, if_neg (by simp)] at member
      exact ih isolated.2 (goesOn.other solid) token member

/-! ## The tokens of a line -/

theorem tokensOfRuns_ne_nil (line : List Run) :
    ∀ (isQuoted : Bool) (begun : Text), tokensOfRuns isQuoted (some begun) line ≠ [] := by
  induction line with
  | nil => simp [tokensOfRuns]
  | cons run more ih =>
      intro isQuoted begun
      rw [tokensOfRuns]
      split
      · simp
      · exact ih _ _

/-- A line which begins with no space has a token. -/
theorem tokensOfRuns_runs_ne_nil {c : Char} (space : c ≠ ' ') (rest : Text) :
    tokensOfRuns false none (runs (c :: rest)) ≠ [] := by
  rw [runs, if_neg space]
  split
  · rw [tokensOfRuns, if_neg (by simp)]
    exact tokensOfRuns_ne_nil _ _ _
  · rw [tokensOfRuns, if_neg (by simp)]
    exact tokensOfRuns_ne_nil _ _ _

/-- The tokens of a normalized line which is not empty. -/
theorem settled_split_normalize {line : Text} (noNul : '\x00' ∉ line)
    (notBlank : allBlank line = false) : Settled (split (normalize line)) := by
  obtain ⟨isolated, front⟩ := Text.isolated_normalize line
  have noTab : '\t' ∉ normalize line := fun tab => absurd (isolated.1 _ tab (by decide)) (by decide)
  refine ⟨?_, ?_, ?_⟩
  · rw [split_eq_tokensOfRuns noTab]
    cases whole : normalize line with
    | nil =>
        rw [Text.normalize_eq_nil_iff.mp whole] at notBlank
        cases notBlank
    | cons c rest =>
        refine tokensOfRuns_runs_ne_nil ?_ rest
        rintro rfl
        rw [whole] at front
        cases front
  · intro token member nul
    rcases Text.mem_of_mem_normalize (mem_of_mem_split member nul) with inLine | space
    · exact noNul inLine
    · cases space
  · rw [split_eq_tokensOfRuns noTab]
    exact isolated_of_mem_tokensOfRuns isolated (.nil false (normalize line))

/-- **The tokens of any line can be quoted again.** A line with a NUL has no tokens, and neither has
a blank one; every other line has some, however it is quoted. None of them is there with a NUL,
with white space other than spaces or with two spaces side by side, and the line of the quoted
tokens has the same tokens. -/
theorem tokenize_cases (line : Text) :
    ('\x00' ∈ line ∧ tokenize line = .error .interiorNul) ∨
      ('\x00' ∉ line ∧ allBlank line = true ∧ tokenize line = .error .empty) ∨
      ('\x00' ∉ line ∧ allBlank line = false ∧
        ∃ tokens, tokenize line = .ok tokens ∧ Settled tokens ∧
          tokenize (quoteAll tokens) = .ok tokens) := by
  by_cases nul : '\x00' ∈ line
  · exact Or.inl ⟨nul, by simp [tokenize, nul]⟩
  · right
    have passed : line.contains '\x00' = false := by simpa using nul
    cases blank : allBlank line with
    | true =>
        have nothing := Text.normalize_eq_nil_iff.mpr blank
        exact Or.inl ⟨nul, rfl, by simp [tokenize, nul, nothing]⟩
    | false =>
        have settled := settled_split_normalize nul blank
        have something : (normalize line).isEmpty = false := by
          rw [List.isEmpty_eq_false_iff]
          intro nothing
          rw [Text.normalize_eq_nil_iff.mp nothing] at blank
          cases blank
        refine Or.inr ⟨nul, rfl, split (normalize line), ?_, settled, settled.tokenize_quoteAll⟩
        rw [tokenize, passed]
        simp [something]

/-- Two quotes within quotes write one and leave the quoting, so the second space ends the token. -/
example : tokenize "\"a \"\" b\"".toList = .ok ["a \"".toList, "b".toList] := by decide

end Compdb.CommandLine
