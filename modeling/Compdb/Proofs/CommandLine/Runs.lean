/-
# Compdb.Proofs.CommandLine.Runs — splitting, read off the runs of a line

The splitter goes through a line character by character: it writes backslashes down, takes some of
them back when a quote follows, and counts quotes up to three. What comes of it depends only on the
maximal runs of backslashes and quotes (`runs`) and on whether a run begins inside of quotes. A run
of `k` backslashes in front of `m` quotes writes `k / 2` backslashes, a literal quote when `k` is
odd, and one more quote for every three which are counted; it ends inside of quotes when one quote
is left over (`Run.text`, `Run.isQuotedAfter`). `tokensOfRuns` puts the tokens together from that.

`split_eq_tokensOfRuns` says that splitting does the same, on every line without tabs. The
invariant is about the places between two runs (`Splitter.Between`): there no backslash can be
taken back any more, and the quotes which are counted are none or one, once the run is left.
A normalized line has no tabs (`split_normalize`).
-/
import Compdb.CommandLine
import Compdb.Proofs.Text.Normalize
import Mathlib.Data.List.TakeWhile

namespace Compdb.CommandLine

set_option autoImplicit false

/-- A part of a line which is read as a whole. -/
inductive Run where
  | space
  /-- Backslashes and the quotes behind them, as many as there are. One of both can be missing. -/
  | marks (backslashes quotes : Nat)
  | other (c : Char)
  deriving DecidableEq, Repr

/-- The length of the run of backslashes at the front. -/
def leadingBackslashes (line : Text) : Nat :=
  (line.takeWhile (· == '\\')).length

/-- The length of the run of quotes behind these backslashes. -/
def quotesBehind (line : Text) : Nat :=
  ((line.dropWhile (· == '\\')).takeWhile (· == '"')).length

/-- The rest of the line behind both. -/
def behindMarks (line : Text) : Text :=
  (line.dropWhile (· == '\\')).dropWhile (· == '"')

theorem length_behindMarks_lt {c : Char} (marked : c = '\\' ∨ c = '"') (rest : Text) :
    (behindMarks (c :: rest)).length < (c :: rest).length := by
  have inner := (List.dropWhile_suffix (l := rest) (· == '\\')).length_le
  have outer (t : Text) := (List.dropWhile_suffix (l := t) (· == '"')).length_le
  rw [behindMarks]
  rcases marked with rfl | rfl
  · have := outer (rest.dropWhile (· == '\\'))
    rw [List.dropWhile_cons_of_pos rfl, List.length_cons]
    omega
  · have := outer rest
    rw [List.dropWhile_cons_of_neg (by decide), List.dropWhile_cons_of_pos rfl, List.length_cons]
    omega

/-- The maximal runs of a line. -/
def runs : Text → List Run
  | [] => []
  | c :: rest =>
      if c = ' ' then .space :: runs rest
      else if c = '\\' ∨ c = '"' then
        .marks (leadingBackslashes (c :: rest)) (quotesBehind (c :: rest))
          :: runs (behindMarks (c :: rest))
      else .other c :: runs rest
  termination_by line => line.length
  decreasing_by
    · exact Nat.lt_succ_self _
    · next marked => exact length_behindMarks_lt marked rest
    · exact Nat.lt_succ_self _

namespace Run

/-- The quotes which are counted, from a state of quoting on: after an odd number of backslashes the
first one is literal and does not count. -/
def count (isQuoted : Bool) (backslashes quotes : Nat) : Nat :=
  if backslashes % 2 = 0 then isQuoted.toNat + quotes else isQuoted.toNat + quotes - 1

/-- What a run writes. -/
def text (isQuoted : Bool) : Run → Text
  | .space => [' ']
  | .marks backslashes 0 => List.replicate backslashes '\\'
  | .marks backslashes quotes =>
      List.replicate (backslashes / 2) '\\' ++ (if backslashes % 2 = 1 then ['"'] else [])
        ++ List.replicate (count isQuoted backslashes quotes / 3) '"'
  | .other c => [c]

/-- Whether the quoting is open behind a run. -/
def isQuotedAfter (isQuoted : Bool) : Run → Bool
  | .marks _ 0 => isQuoted
  | .marks backslashes quotes => count isQuoted backslashes quotes % 3 == 1
  | _ => isQuoted

end Run

/-- The tokens of some runs, behind the beginning of a token if one was begun. A space outside of
quotes ends the token, and so does the end of the line. -/
def tokensOfRuns (isQuoted : Bool) (begun : Option Text) : List Run → List Text
  | [] => begun.toList
  | run :: more =>
      if run = .space ∧ isQuoted = false then begun.toList ++ tokensOfRuns false none more
      else
        tokensOfRuns (run.isQuotedAfter isQuoted) (some (begun.getD [] ++ run.text isQuoted)) more

/-! ## The runs of a line -/

theorem takeWhile_eq_replicate (c : Char) (t : Text) :
    t.takeWhile (· == c) = List.replicate (t.takeWhile (· == c)).length c := by
  rw [List.eq_replicate_iff]
  refine ⟨rfl, fun d member => ?_⟩
  simpa using List.mem_takeWhile_imp member

theorem head?_dropWhile_ne (c : Char) (t : Text) : (t.dropWhile (· == c)).head? ≠ some c := by
  intro head
  have stop := List.head?_dropWhile_not (· == c) t
  rw [head] at stop
  simp at stop

/-- A line begins with its run of backslashes and the run of quotes behind them. -/
theorem marks_append (line : Text) :
    line = List.replicate (leadingBackslashes line) '\\' ++
      (List.replicate (quotesBehind line) '"' ++ behindMarks line) := by
  rw [leadingBackslashes, quotesBehind, behindMarks, ← takeWhile_eq_replicate,
    ← takeWhile_eq_replicate, List.takeWhile_append_dropWhile, List.takeWhile_append_dropWhile]

/-- No quote goes on with the run of quotes. -/
theorem head?_behindMarks_ne_quote (line : Text) : (behindMarks line).head? ≠ some '"' :=
  head?_dropWhile_ne '"' _

/-- No backslash goes on with the run of backslashes, when no quote stands behind it. -/
theorem head?_behindMarks_ne_backslash {line : Text} (none : quotesBehind line = 0) :
    (behindMarks line).head? ≠ some '\\' := by
  have whole := List.takeWhile_append_dropWhile (p := (· == '"')) (l := line.dropWhile (· == '\\'))
  rw [List.length_eq_zero_iff.mp none, List.nil_append] at whole
  rw [behindMarks, whole]
  exact head?_dropWhile_ne '\\' line

theorem marks_filled {c : Char} (marked : c = '\\' ∨ c = '"') (rest : Text) :
    0 < leadingBackslashes (c :: rest) + quotesBehind (c :: rest) := by
  rcases marked with rfl | rfl
  · rw [leadingBackslashes, List.takeWhile_cons_of_pos rfl, List.length_cons]
    omega
  · rw [quotesBehind, List.dropWhile_cons_of_neg (by decide), List.takeWhile_cons_of_pos rfl,
      List.length_cons]
    omega

namespace Splitter

variable {s : Splitter}

@[simp] theorem tokens_endQuoteRun (s : Splitter) : s.endQuoteRun.tokens = s.tokens := by
  cases h : s.inQuoteRun <;> simp [endQuoteRun, h]

@[simp] theorem current_endQuoteRun (s : Splitter) : s.endQuoteRun.current = s.current := by
  cases h : s.inQuoteRun <;> simp [endQuoteRun, h]

@[simp] theorem inToken_endQuoteRun (s : Splitter) : s.endQuoteRun.inToken = s.inToken := by
  cases h : s.inQuoteRun <;> simp [endQuoteRun, h]

@[simp] theorem backslashes_endQuoteRun (s : Splitter) :
    s.endQuoteRun.backslashes = s.backslashes := by
  cases h : s.inQuoteRun <;> simp [endQuoteRun, h]

@[simp] theorem inQuoteRun_endQuoteRun (s : Splitter) : s.endQuoteRun.inQuoteRun = false := by
  cases h : s.inQuoteRun <;> simp [endQuoteRun, h]

theorem endQuoteRun_of_idle (idle : s.inQuoteRun = false) : s.endQuoteRun = s := by
  simp [endQuoteRun, idle]

/-! ## Runs of one character -/

theorem step_backslash (s : Splitter) : s.step '\\' = s.endQuoteRun.backslash := by
  simp [step]

/-- Backslashes write themselves, and are remembered. -/
theorem foldl_backslashes (s : Splitter) (k : Nat) :
    (List.replicate (k + 1) '\\').foldl step s =
      { s.endQuoteRun with
        current := List.replicate (k + 1) '\\' ++ s.current, inToken := true,
        backslashes := s.backslashes + (k + 1) } := by
  induction k with
  | zero => simp [step_backslash, backslash]
  | succ k ih =>
      rw [List.replicate_succ', List.foldl_append, ih, List.foldl_cons, List.foldl_nil,
        step_backslash, endQuoteRun_of_idle (by simp), backslash]
      simp [← List.replicate_succ', List.replicate_succ, Nat.add_assoc]

/-- Within a run of quotes every third one is literal, and the count starts again. -/
theorem foldl_quotes (inside : s.inQuoteRun = true) (few : s.quotes ≤ 2) (n : Nat) :
    (List.replicate n '"').foldl step s =
      { s with current := List.replicate ((s.quotes + n) / 3) '"' ++ s.current,
               quotes := (s.quotes + n) % 3 } := by
  induction n with
  | zero =>
      have none : s.quotes / 3 = 0 := by omega
      have same : s.quotes % 3 = s.quotes := by omega
      simp [none, same]
  | succ n ih =>
      rw [List.replicate_succ', List.foldl_append, ih]
      by_cases third : (s.quotes + n) % 3 = 2
      · have more : (s.quotes + (n + 1)) / 3 = (s.quotes + n) / 3 + 1 := by omega
        have again : (s.quotes + (n + 1)) % 3 = 0 := by omega
        simp [step, nextQuote, inside, third, more, again, List.replicate_succ]
      · have same : (s.quotes + (n + 1)) / 3 = (s.quotes + n) / 3 := by omega
        have next : (s.quotes + (n + 1)) % 3 = (s.quotes + n) % 3 + 1 := by omega
        simp [step, nextQuote, inside, third, same, next]

/-! ## Between two runs -/

/-- Between two runs, in front of the rest of the line: the finished tokens, the token which was
begun, and whether the quoting is open once the last run of quotes is left. No quote goes on
with a run of quotes, and no backslash or quote with one of backslashes. -/
structure Between (done : List Text) (begun : Option Text) (isQuoted : Bool) (rest : Text)
    (s : Splitter) : Prop where
  tokens : s.tokens = done.reverse
  current : s.current = (begun.getD []).reverse
  inToken : s.inToken = begun.isSome
  quotes : s.endQuoteRun.quotes = isQuoted.toNat
  quotesEnd : s.inQuoteRun = true → rest.head? ≠ some '"'
  backslashesEnd : rest.head? = some '\\' ∨ rest.head? = some '"' → s.backslashes = 0

variable {done : List Text} {begun : Option Text} {isQuoted : Bool} {rest : Text}

theorem Between.finish_eq (between : Between done begun isQuoted rest s) :
    s.finish = done ++ begun.toList := by
  obtain ⟨tokens, current, inToken, -, -, -⟩ := between
  cases begun <;> simp [finish, tokens, current, inToken]

/-- Outside of quotes a space ends the token. -/
theorem Between.step_separator (between : Between done begun false (' ' :: rest) s) :
    Between (done ++ begun.toList) none false rest (s.step ' ') := by
  obtain ⟨tokens, current, inToken, quotes, -, -⟩ := between
  have outside : s.endQuoteRun.quotes = 0 := quotes
  have stepped : s.step ' ' = s.endQuoteRun.separator := by
    simp [step, outside]
  rw [stepped, separator]
  cases begun with
  | none =>
      have none : s.current = [] := current
      constructor <;> simp [inToken, tokens, none, endQuoteRun_of_idle, outside]
  | some token =>
      have token : s.current = token.reverse := current
      constructor <;> simp [inToken, tokens, token, endQuoteRun_of_idle, outside]

/-- A character without a meaning of its own writes itself; a space is one inside of quotes. -/
theorem Between.step_ordinary {c : Char} (between : Between done begun isQuoted (c :: rest) s)
    (backslash : c ≠ '\\') (quote : c ≠ '"') (tab : c ≠ '\t')
    (space : c = ' ' → isQuoted = true) :
    Between done (some (begun.getD [] ++ [c])) isQuoted rest (s.step c) := by
  obtain ⟨tokens, current, -, quotes, -, -⟩ := between
  have stepped : s.step c = s.endQuoteRun.ordinary c := by
    by_cases here : c = ' '
    · rw [space here, Bool.toNat_true] at quotes
      simp [step, here, quotes]
    · simp [step, here, tab, backslash, quote]
  rw [stepped, ordinary]
  constructor <;> simp [tokens, current, endQuoteRun_of_idle, quotes]

/-- Behind a run of backslashes, all of which a quote could take back. -/
structure Behind (done : List Text) (written : Text) (isQuoted : Bool) (k : Nat) (s : Splitter) :
    Prop where
  tokens : s.tokens = done.reverse
  current : s.current = List.replicate k '\\' ++ written.reverse
  inToken : 0 < k → s.inToken = true
  quotes : s.quotes = isQuoted.toNat
  inQuoteRun : s.inQuoteRun = false
  backslashes : s.backslashes = k

theorem Between.behind {k m : Nat} (filled : 0 < k + m)
    (between : Between done begun isQuoted
      (List.replicate k '\\' ++ (List.replicate m '"' ++ rest)) s) :
    Behind done (begun.getD []) isQuoted k ((List.replicate k '\\').foldl step s) := by
  obtain ⟨tokens, current, -, quotes, quotesEnd, backslashesEnd⟩ := between
  cases k with
  | succ k =>
      have fresh : s.backslashes = 0 := backslashesEnd (Or.inl rfl)
      rw [foldl_backslashes]
      constructor <;> simp [tokens, current, quotes, fresh]
  | zero =>
      obtain ⟨m, rfl⟩ : ∃ n, m = n + 1 := ⟨m - 1, by omega⟩
      have idle : s.inQuoteRun = false := by
        by_contra inside
        exact quotesEnd (by simpa using inside) rfl
      rw [endQuoteRun_of_idle idle] at quotes
      have fresh : s.backslashes = 0 := backslashesEnd (Or.inr rfl)
      exact ⟨tokens, current, by simp, quotes, idle, fresh⟩

/-- Backslashes without a quote behind them stay. -/
theorem Behind.between {written : Text} {k : Nat} (behind : Behind done written isQuoted k s)
    (filled : 0 < k) (backslashesEnd : rest.head? ≠ some '\\')
    (quotesEnd : rest.head? ≠ some '"') :
    Between done (some (written ++ (Run.marks k 0).text isQuoted))
      ((Run.marks k 0).isQuotedAfter isQuoted) rest s := by
  obtain ⟨tokens, current, inToken, quotes, inQuoteRun, backslashes⟩ := behind
  refine ⟨tokens, ?_, inToken filled, ?_, fun _ => quotesEnd, ?_⟩
  · simp [current, Run.text]
  · rw [endQuoteRun_of_idle inQuoteRun]
    exact quotes
  · rintro (backslash | quote)
    · exact absurd backslash backslashesEnd
    · exact absurd quote quotesEnd

/-- The first quote takes half of the backslashes back. It is counted when their number is even, and
literal otherwise. -/
theorem Behind.step_quote {written : Text} {k : Nat} (behind : Behind done written isQuoted k s) :
    s.step '"' =
      { s with
        current := (if k % 2 = 1 then ['"'] else []) ++
          (List.replicate (k / 2) '\\' ++ written.reverse)
        inToken := true, backslashes := 0, inQuoteRun := true
        quotes := if k % 2 = 0 then isQuoted.toNat + 1 else isQuoted.toNat } := by
  obtain ⟨-, current, -, quotes, inQuoteRun, backslashes⟩ := behind
  have taken (n : Nat) (few : n ≤ k) : s.current.drop n =
      List.replicate (k - n) '\\' ++ written.reverse := by
    rw [current, List.drop_append_of_le_length (by simpa using few), List.drop_replicate]
  rcases Nat.mod_two_eq_zero_or_one k with even | odd
  · have left : k - k / 2 = k / 2 := by omega
    simp [step, firstQuote, inQuoteRun, backslashes, even, quotes, taken (k / 2) (by omega), left]
  · have left : k - (k / 2 + 1) = k / 2 := by omega
    simp [step, firstQuote, inQuoteRun, backslashes, odd, quotes,
      taken (k / 2 + 1) (by omega), left]

theorem Behind.foldl_quotes {written : Text} {k : Nat} (behind : Behind done written isQuoted k s)
    (n : Nat) (quotesEnd : rest.head? ≠ some '"') :
    Between done (some (written ++ (Run.marks k (n + 1)).text isQuoted))
      ((Run.marks k (n + 1)).isQuotedAfter isQuoted) rest
      ((List.replicate (n + 1) '"').foldl step s) := by
  have few : isQuoted.toNat ≤ 1 := by cases isQuoted <;> simp
  have counted : (s.step '"').quotes + n = Run.count isQuoted k (n + 1) := by
    rw [behind.step_quote, Run.count]
    simp only
    split <;> omega
  have all := Splitter.foldl_quotes (s := s.step '"') (by rw [behind.step_quote])
    (by rw [behind.step_quote]; simp only; split <;> omega) n
  rw [List.replicate_succ, List.foldl_cons, all, counted, behind.step_quote]
  have tokens := behind.tokens
  refine ⟨tokens, ?_, rfl, ?_, fun _ => quotesEnd, fun _ => rfl⟩
  · simp [Run.text, apply_ite List.reverse]
  · have three := Nat.mod_lt (Run.count isQuoted k (n + 1)) (by decide : 0 < 3)
    simp only [endQuoteRun, if_true, Run.isQuotedAfter, beq_iff_eq]
    split
    · next pair => simp [pair]
    · next noPair =>
      rcases Nat.eq_zero_or_pos (Run.count isQuoted k (n + 1) % 3) with zero | one
      · simp [zero]
      · have one : Run.count isQuoted k (n + 1) % 3 = 1 := by omega
        simp [one]

/-- A run of backslashes and the quotes behind it lead from between two runs to between two runs. -/
theorem Between.foldl_marks {k m : Nat} (filled : 0 < k + m)
    (between : Between done begun isQuoted
      (List.replicate k '\\' ++ (List.replicate m '"' ++ rest)) s)
    (quotesEnd : rest.head? ≠ some '"') (backslashesEnd : m = 0 → rest.head? ≠ some '\\') :
    Between done (some (begun.getD [] ++ (Run.marks k m).text isQuoted))
      ((Run.marks k m).isQuotedAfter isQuoted) rest
      ((List.replicate k '\\' ++ List.replicate m '"').foldl step s) := by
  have behind := between.behind filled
  rw [List.foldl_append]
  cases m with
  | zero => exact behind.between filled (backslashesEnd rfl) quotesEnd
  | succ n => exact behind.foldl_quotes n quotesEnd

/-! ## The whole line -/

/-- From between two runs on, the splitter writes what the runs of the rest write. -/
theorem Between.foldl_finish {line : Text} (noTab : '\t' ∉ line) :
    ∀ {done : List Text} {begun : Option Text} {isQuoted : Bool} {s : Splitter},
      Between done begun isQuoted line s →
        (line.foldl step s).finish = done ++ tokensOfRuns isQuoted begun (runs line) := by
  induction line using runs.induct with
  | case1 =>
      intro done begun isQuoted s between
      rw [runs, tokensOfRuns]
      exact between.finish_eq
  | case2 rest ih =>
      intro done begun isQuoted s between
      replace noTab : '\t' ∉ rest := fun tab => noTab (List.mem_cons_of_mem _ tab)
      rw [runs, if_pos rfl, List.foldl_cons, tokensOfRuns]
      cases isQuoted with
      | false =>
          rw [ih noTab between.step_separator, List.append_assoc]
          simp
      | true =>
          have ordinary := between.step_ordinary (by decide) (by decide) (by decide) fun _ => rfl
          rw [ih noTab ordinary]
          simp [Run.text, Run.isQuotedAfter]
  | case3 c rest space marked ih =>
      intro done begun isQuoted s between
      have cut := marks_append (c :: rest)
      replace noTab : '\t' ∉ behindMarks (c :: rest) := by
        intro tab
        exact noTab (List.dropWhile_subset _ (List.dropWhile_subset _ tab))
      rw [runs, if_neg space, if_pos marked, tokensOfRuns, if_neg (by simp)]
      rw [cut] at between
      have behind := between.foldl_marks (marks_filled marked rest)
        (head?_behindMarks_ne_quote (c :: rest)) head?_behindMarks_ne_backslash
      rw [← ih noTab behind, ← List.foldl_append, List.append_assoc, ← cut]
  | case4 c rest space unmarked ih =>
      intro done begun isQuoted s between
      rw [List.mem_cons, not_or] at noTab
      rw [not_or] at unmarked
      have tab : c ≠ '\t' := Ne.symm noTab.1
      have ordinary := between.step_ordinary unmarked.1 unmarked.2 tab fun here => absurd here space
      rw [runs, if_neg space, if_neg (not_or.mpr unmarked), List.foldl_cons, tokensOfRuns,
        if_neg (by simp)]
      exact ih noTab.2 ordinary

end Splitter

theorem split_eq_tokensOfRuns {line : Text} (noTab : '\t' ∉ line) :
    split line = tokensOfRuns false none (runs line) := by
  have start : Splitter.Between [] none false line {} :=
    ⟨rfl, rfl, rfl, rfl, fun inside => Bool.noConfusion inside, fun _ => rfl⟩
  exact start.foldl_finish noTab

/-- **Splitting is determined by runs.** The tokens of a normalized line are those which its maximal
runs of backslashes and quotes, its spaces and its other characters write. -/
theorem split_normalize (line : Text) :
    split (Text.normalize line) = tokensOfRuns false none (runs (Text.normalize line)) := by
  apply split_eq_tokensOfRuns
  intro tab
  rcases Text.isBlank_of_mem_normalize tab with solid | space
  · revert solid
    decide
  · revert space
    decide

end Compdb.CommandLine
