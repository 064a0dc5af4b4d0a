/-
# Compdb.Proofs.CommandLine.Rounds — backslashes are only taken back from the token which has them

The splitter goes through a line in rounds: a round takes one character, and with a quote all quotes
which follow it. A quote takes some of the backslashes before it back, by cutting as many bytes off
the token which is being written. Such a cut has no result when the token is shorter than that, or
when it would go through a character (`cutOff?`).

Both cannot happen, because of what holds whenever a round begins (`Tracks`): the backslashes which
are counted stand directly before the place in the line, and they are also the end of the token. A
round keeps this (`Tracks.round`): a backslash is counted when it is written, and everything else,
also the end of a token, forgets the count. The quotes which are counted are none or one, since a
run of quotes is left in the round in which it was met.
-/
import Compdb.Proofs.CommandLine.Runs
import Compdb.Text.Utf8.RoundTrip

namespace Compdb.CommandLine

set_option autoImplicit false

/-- Cuts bytes off the end of a text. There is no result when the text has fewer bytes, or when the
cut goes through a character. -/
def cutOff? (t : Text) (count : Nat) : Option Text :=
  let bytes := Utf8.encode t
  if count ≤ bytes.length then Utf8.decode? (bytes.take (bytes.length - count)) else none

namespace Splitter

/-- The text of the token which is being written. -/
def token (s : Splitter) : Text :=
  s.current.reverse

/-- The number of bytes which a quote takes back: half of the backslashes, and the odd one. -/
def takenBack (s : Splitter) : Nat :=
  if s.backslashes % 2 = 0 then s.backslashes / 2 else s.backslashes / 2 + 1

/-- Takes one character in front of the rest of a line, and with a quote all quotes behind it. Gives
the rest which is left. -/
def round (s : Splitter) (c : Char) (rest : Text) : Splitter × Text :=
  if c = '"' then
    (((rest.takeWhile (· == '"')).foldl step (s.step c)).endQuoteRun, rest.dropWhile (· == '"'))
  else (s.step c, rest)

/-- A round of the splitter begins in this state, in front of this rest of the line, or the line
ends there. -/
inductive Begins (line : Text) : Text → Splitter → Prop
  | start : Begins line line {}
  | round {c : Char} {rest : Text} {s : Splitter} : Begins line (c :: rest) s →
      Begins line (s.round c rest).2 (s.round c rest).1

/-- What holds whenever a round begins. -/
structure Tracks (line rest : Text) (s : Splitter) : Prop where
  token : ∃ before, s.token = before ++ List.replicate s.backslashes '\\'
  line : ∃ before, line = before ++ List.replicate s.backslashes '\\' ++ rest
  quotes : s.quotes = 0 ∨ s.quotes = 1
  idle : s.inQuoteRun = false

/-- The quote cuts backslashes off the token, and nothing else changes in the texts but the quote
which an odd backslash makes literal. -/
structure TakesBack (s : Splitter) (kept : Text) : Prop where
  cut : cutOff? s.token s.takenBack = some kept
  removed : s.token = kept ++ List.replicate s.takenBack '\\'
  token : (s.step '"').token = kept ++ if s.backslashes % 2 = 0 then [] else ['"']
  tokens : (s.step '"').tokens = s.tokens

variable {line rest : Text} {s : Splitter}

/-! ## The rounds of a line -/

theorem length_round_lt (s : Splitter) (c : Char) (rest : Text) :
    (s.round c rest).2.length < (c :: rest).length := by
  have shorter := (List.dropWhile_suffix (l := rest) (· == '"')).length_le
  rw [round, List.length_cons]
  split
  · exact Nat.lt_succ_of_le shorter
  · exact Nat.lt_succ_self _

theorem finish_endQuoteRun (s : Splitter) : s.endQuoteRun.finish = s.finish := by
  rw [endQuoteRun]
  split <;> rfl

/-- Nothing but a quote sees whether a run of quotes was left. -/
theorem foldl_endQuoteRun (s : Splitter) (noQuote : rest.head? ≠ some '"') :
    (rest.foldl step s.endQuoteRun).finish = (rest.foldl step s).finish := by
  cases rest with
  | nil => exact finish_endQuoteRun s
  | cons c rest =>
      have quote : c ≠ '"' := fun same => noQuote (congrArg some same)
      have same : s.endQuoteRun.step c = s.step c := by
        simp [step, quote, endQuoteRun_of_idle (inQuoteRun_endQuoteRun s)]
      rw [List.foldl_cons, List.foldl_cons, same]

/-- The rounds are those of the splitting. -/
theorem Begins.finish_eq (begins : Begins line rest s) :
    (rest.foldl step s).finish = split line := by
  induction begins with
  | start => rfl
  | @round c rest s _ ih =>
      rw [← ih, Splitter.round, List.foldl_cons]
      split
      · rw [foldl_endQuoteRun _ (head?_dropWhile_ne '"' rest), ← List.foldl_append,
          List.takeWhile_append_dropWhile]
      · rfl

/-- From each beginning of a round the rounds lead to the end of the line. -/
theorem Begins.exists_end (begins : Begins line rest s) : ∃ s', Begins line [] s' := by
  induction size : rest.length using Nat.strongRecOn generalizing rest s with
  | ind size ih =>
      cases rest with
      | nil => exact ⟨s, begins⟩
      | cons c rest => exact ih _ (size ▸ length_round_lt s c rest) begins.round rfl

/-! ## The invariant -/

theorem Tracks.of_forgotten {before : Text} (forgotten : s.backslashes = 0)
    (whole : line = before ++ rest) (quotes : s.quotes = 0 ∨ s.quotes = 1)
    (idle : s.inQuoteRun = false) : Tracks line rest s := by
  refine ⟨⟨s.token, ?_⟩, ⟨before, ?_⟩, quotes, idle⟩
  · rw [forgotten, List.replicate_zero, List.append_nil]
  · rw [forgotten, List.replicate_zero, List.append_nil, whole]

/-- Every character but a quote ends the token, is a backslash or writes itself. -/
theorem step_of_ne_quote {c : Char} (idle : s.inQuoteRun = false) (quote : c ≠ '"') :
    s.step c = s.separator ∨ (c = '\\' ∧ s.step c = s.backslash) ∨ s.step c = s.ordinary c := by
  rw [step, if_neg (by simpa using quote), endQuoteRun_of_idle idle]
  dsimp only
  split
  · exact Or.inl rfl
  · split
    · next backslash => exact Or.inr (Or.inl ⟨beq_iff_eq.mp backslash, rfl⟩)
    · exact Or.inr (Or.inr rfl)

/-- A backslash is counted where it is written. All other characters but a quote forget the count,
and so does the end of a token. -/
theorem Tracks.step {c : Char} (tracks : Tracks line (c :: rest) s) (quote : c ≠ '"') :
    Tracks line rest (s.step c) := by
  obtain ⟨⟨written, token⟩, ⟨before, whole⟩, quotes, idle⟩ := tracks
  have read : line = before ++ List.replicate s.backslashes '\\' ++ [c] ++ rest := by
    rw [whole, List.append_assoc _ [c], List.singleton_append]
  obtain same | ⟨rfl, same⟩ | same := step_of_ne_quote idle quote
  · rw [same, separator]
    split <;> exact .of_forgotten rfl read quotes idle
  · rw [same, backslash]
    refine ⟨⟨written, ?_⟩, ⟨before, ?_⟩, quotes, idle⟩
    · rw [Splitter.token] at token ⊢
      rw [List.reverse_cons, token, List.append_assoc, List.replicate_succ']
    · rw [read, List.append_assoc before, List.replicate_succ']
  · rw [same, ordinary]
    exact .of_forgotten rfl read quotes idle

theorem step_quote (idle : s.inQuoteRun = false) : s.step '"' = s.firstQuote := by
  simp [step, idle]

@[simp] theorem tokens_firstQuote (s : Splitter) : s.firstQuote.tokens = s.tokens := by
  rw [firstQuote]
  split <;> rfl

@[simp] theorem backslashes_firstQuote (s : Splitter) : s.firstQuote.backslashes = 0 := by
  rw [firstQuote]
  split <;> rfl

@[simp] theorem inQuoteRun_firstQuote (s : Splitter) : s.firstQuote.inQuoteRun = true := by
  rw [firstQuote]
  split <;> rfl

theorem quotes_firstQuote_le (s : Splitter) : s.firstQuote.quotes ≤ s.quotes + 1 := by
  rw [firstQuote]
  split
  · exact Nat.le_refl _
  · exact Nat.le_succ _

/-- A run of quotes is left outside of quotes or inside of them. -/
theorem quotes_endQuoteRun (inside : s.inQuoteRun = true) (few : s.quotes ≤ 2) :
    s.endQuoteRun.quotes = 0 ∨ s.endQuoteRun.quotes = 1 := by
  rw [endQuoteRun, if_pos inside]
  dsimp only
  split
  · exact Or.inl rfl
  · next noPair =>
      rw [beq_iff_eq] at noPair
      omega

/-- A quote and the quotes behind it forget the backslashes before them. -/
theorem Tracks.round_quote (tracks : Tracks line ('"' :: rest) s) :
    Tracks line (s.round '"' rest).2 (s.round '"' rest).1 := by
  obtain ⟨-, ⟨before, whole⟩, quotes, idle⟩ := tracks
  have few : s.firstQuote.quotes ≤ 2 := by
    have := quotes_firstQuote_le s
    omega
  have run := takeWhile_eq_replicate '"' rest
  have read : line = before ++ List.replicate s.backslashes '\\' ++
      '"' :: rest.takeWhile (· == '"') ++ rest.dropWhile (· == '"') := by
    rw [whole, List.append_assoc _ ('"' :: _), List.cons_append, List.takeWhile_append_dropWhile]
  rw [round, if_pos rfl, step_quote idle, run, foldl_quotes (inQuoteRun_firstQuote s) few]
  refine .of_forgotten ?_ read ?_ (inQuoteRun_endQuoteRun _)
  · rw [backslashes_endQuoteRun]
    exact backslashes_firstQuote s
  · exact quotes_endQuoteRun (inQuoteRun_firstQuote s)
      (Nat.le_of_lt_succ (Nat.mod_lt _ (by decide)))

theorem Tracks.round {c : Char} (tracks : Tracks line (c :: rest) s) :
    Tracks line (s.round c rest).2 (s.round c rest).1 := by
  by_cases quote : c = '"'
  · subst quote
    exact tracks.round_quote
  · rw [Splitter.round, if_neg quote]
    exact tracks.step quote

theorem Begins.tracks (begins : Begins line rest s) : Tracks line rest s := by
  induction begins with
  | start => exact .of_forgotten rfl (List.nil_append line).symm (Or.inl rfl) rfl
  | round _ ih => exact ih.round

/-! ## The cut -/

theorem takenBack_le (s : Splitter) : s.takenBack ≤ s.backslashes := by
  rw [takenBack]
  split <;> omega

/-- A quote keeps what stands before the backslashes which it takes back. -/
theorem token_firstQuote {kept : Text}
    (same : s.token = kept ++ List.replicate s.takenBack '\\') :
    s.firstQuote.token = kept ++ if s.backslashes % 2 = 0 then [] else ['"'] := by
  have dropped : s.current.drop s.takenBack = kept.reverse := by
    rw [← List.reverse_reverse s.current, ← token, same, List.reverse_append,
      List.reverse_replicate, List.drop_left' List.length_replicate]
  rw [takenBack] at dropped
  rw [firstQuote, token]
  by_cases even : s.backslashes % 2 = 0
  · rw [if_pos even] at dropped
    simp [even, dropped]
  · rw [if_neg even] at dropped
    simp [even, dropped]

end Splitter

/-- Whole characters can be cut off. -/
theorem cutOff?_append (kept removed : Text) :
    cutOff? (kept ++ removed) (Utf8.encode removed).length = some kept := by
  have bytes : Utf8.encode (kept ++ removed) = Utf8.encode kept ++ Utf8.encode removed :=
    List.flatMap_append
  rw [cutOff?, bytes, List.length_append, if_pos (Nat.le_add_left _ _), Nat.add_sub_cancel,
    List.take_left, Utf8.decode?_encode]

theorem length_encode_backslashes (n : Nat) :
    (Utf8.encode (List.replicate n '\\')).length = n := by
  have one : (Utf8.encodeChar '\\').length = 1 := by decide
  rw [Utf8.encode, List.length_flatMap, List.map_replicate, one, List.sum_replicate_nat,
    Nat.mul_one]

namespace Splitter

variable {line rest : Text} {s : Splitter}

/-- Where a round begins, a quote can take its backslashes back. -/
theorem Tracks.exists_takesBack (tracks : Tracks line rest s) : ∃ kept, s.TakesBack kept := by
  obtain ⟨⟨before, token⟩, -, -, idle⟩ := tracks
  have left : s.backslashes = s.backslashes - s.takenBack + s.takenBack :=
    (Nat.sub_add_cancel s.takenBack_le).symm
  -- the backslashes which stay belong to what is kept
  have removed : s.token =
      before ++ List.replicate (s.backslashes - s.takenBack) '\\' ++
        List.replicate s.takenBack '\\' := by
    rw [List.append_assoc, List.replicate_append_replicate, ← left, token]
  refine ⟨_, ?_, removed, ?_, ?_⟩
  · have cut := cutOff?_append (before ++ List.replicate (s.backslashes - s.takenBack) '\\')
      (List.replicate s.takenBack '\\')
    rwa [length_encode_backslashes, ← removed] at cut
  · rw [step_quote idle, token_firstQuote removed]
  · rw [step_quote idle, tokens_firstQuote]

end Splitter

/-- **A quote takes back backslashes of its own token only.** Whenever a round of the splitting
begins, the backslashes which are counted are the end of the token and stand directly before this
place in the line, and the quotes which are counted are none or one. So a quote can always cut the
bytes off which it takes back: they are backslashes of the token which is being written, and the
finished tokens stay. -/
theorem split_rounds (line : Text) :
    (∃ s, Splitter.Begins line [] s ∧ s.finish = split line) ∧
      ∀ rest s, Splitter.Begins line rest s →
        Splitter.Tracks line rest s ∧ ∃ kept, Splitter.TakesBack s kept := by
  constructor
  · have first : Splitter.Begins line line {} := .start
    obtain ⟨s, ends⟩ := first.exists_end
    exact ⟨s, ends, ends.finish_eq⟩
  · intro rest s begins
    exact ⟨begins.tracks, begins.tracks.exists_takesBack⟩

/-- A quote behind three backslashes, which stand behind a character of two bytes in the second
token. -/
theorem split_rounds_secondToken :
    Splitter.Begins ['a', ' ', 'é', '\\', '\\', '\\', '"', '"'] ['"', '"']
        { tokens := [['a']], current := ['\\', '\\', '\\', 'é'], inToken := true,
          backslashes := 3 } ∧
      Splitter.TakesBack
        { tokens := [['a']], current := ['\\', '\\', '\\', 'é'], inToken := true,
          backslashes := 3 } ['é', '\\'] := by
  have begins : Splitter.Begins ['a', ' ', 'é', '\\', '\\', '\\', '"', '"'] ['"', '"']
      { tokens := [['a']], current := ['\\', '\\', '\\', 'é'], inToken := true,
        backslashes := 3 } := by
    have first : Splitter.Begins ['a', ' ', 'é', '\\', '\\', '\\', '"', '"'] _ {} := .start
    exact first.round.round.round.round.round.round
  obtain ⟨kept, takes⟩ := ((split_rounds _).2 _ _ begins).2
  have same : kept = ['é', '\\'] := Option.some.inj (takes.cut.symm.trans (by decide))
  exact ⟨begins, same ▸ takes⟩

end Compdb.CommandLine
