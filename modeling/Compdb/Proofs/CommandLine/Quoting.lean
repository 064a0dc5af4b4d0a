/-
# Compdb.Proofs.CommandLine.Quoting — tokenizing undoes quoting

A token is written raw or between quotes. Between quotes a backslash is doubled only where it
would otherwise escape a quote: in a run directly before a quote of the token, which is itself
escaped by one more, and in the run at the token's end, before the closing quote (`quote`). A
line holds written tokens with white space between them and around them (`Written`).

* `split_join`: splitting undoes quoting, for tokens which are joined by single spaces.
* `Written.normalize_eq`: normalizing joins the written tokens by single spaces, each with its
  runs of white space collapsed; quoting and collapsing commute (`collapse_quote`).
* `tokenize_written`: so the tokens of the line are the collapsed ones.
-/
import Compdb.CommandLine
import Compdb.Proofs.Text.Normalize
import Mathlib.Data.List.Forall2

namespace Compdb.CommandLine

set_option autoImplicit false

open Text (allBlank collapse isBlank normalize SpacesIsolated)

/-! ## Quoting -/

/-- The inside of a quoted token, behind a run of backslashes which is still to be written. -/
def escape : Nat → Text → Text
  | run, [] => List.replicate (2 * run) '\\'
  | run, c :: rest =>
      if c == '\\' then escape (run + 1) rest
      else if c == '"' then List.replicate (2 * run + 1) '\\' ++ '"' :: escape 0 rest
      else List.replicate run '\\' ++ c :: escape 0 rest

/-- A token between quotes. -/
def quote (token : Text) : Text :=
  '"' :: escape 0 token ++ ['"']

/-- How a token can be written. -/
inductive Renders : Text → Text → Prop where
  /-- As it is, when nothing in it needs quotes. -/
  | raw {token : Text} (filled : token ≠ [])
      (plain : ∀ c ∈ token, isBlank c = false ∧ c ≠ '"') : Renders token token
  /-- Between quotes. -/
  | quoted (token : Text) : Renders token (quote token)

/-- The lines which hold these tokens, at least one, in order. -/
inductive Written : List Text → Text → Prop where
  | last {token rendering before after : Text} (renders : Renders token rendering)
      (blankBefore : allBlank before = true) (blankAfter : allBlank after = true) :
      Written [token] (before ++ rendering ++ after)
  | cons {token rendering before gap line : Text} {tokens : List Text}
      (renders : Renders token rendering) (blankBefore : allBlank before = true)
      (blankGap : allBlank gap = true) (apart : gap ≠ []) (rest : Written tokens line) :
      Written (token :: tokens) (before ++ rendering ++ gap ++ line)

theorem escape_backslash (run : Nat) (t : Text) : escape run ('\\' :: t) = escape (run + 1) t := by
  simp [escape]

theorem escape_quote (run : Nat) (t : Text) :
    escape run ('"' :: t) = List.replicate (2 * run + 1) '\\' ++ '"' :: escape 0 t := by
  simp [escape]

theorem escape_ordinary {c : Char} (backslash : c ≠ '\\') (quote : c ≠ '"') (run : Nat)
    (t : Text) : escape run (c :: t) = List.replicate run '\\' ++ c :: escape 0 t := by
  simp [escape, backslash, quote]

/-! ## Splitting undoes quoting -/

namespace Splitter

/-- Between quotes, behind `run` backslashes which a quote would take back. `written` is the
token before them, its last character first. A run of quotes which is not yet left is harmless:
it counts one quote, and no backslash can follow it uncounted. -/
structure Inside (done : List Text) (written : Text) (run : Nat) (s : Splitter) : Prop where
  tokens : s.tokens = done
  current : s.current = List.replicate run '\\' ++ written
  inToken : s.inToken = true
  backslashes : s.backslashes = run
  quotes : s.quotes = 1
  inQuoteRun : run ≠ 0 → s.inQuoteRun = false

/-- Behind a complete token. -/
structure Complete (done : List Text) (token : Text) (s : Splitter) : Prop where
  tokens : s.tokens = done
  current : s.current = token.reverse
  inToken : s.inToken = true
  quotes : s.endQuoteRun.quotes = 0

theorem Inside.step_backslash {done : List Text} {written : Text} {run : Nat} {s : Splitter}
    (inside : Inside done written run s) : Inside done written (run + 1) (s.step '\\') := by
  obtain ⟨tokens, current, inToken, backslashes, quotes, inQuoteRun⟩ := inside
  cases h : s.inQuoteRun <;>
    constructor <;>
    simp [step, endQuoteRun, backslash, h, tokens, current, backslashes, quotes,
      List.replicate_succ]

theorem Inside.foldl_backslashes {done : List Text} {written : Text} {s : Splitter}
    (inside : Inside done written 0 s) (run : Nat) :
    Inside done written run ((List.replicate run '\\').foldl step s) := by
  induction run with
  | zero => exact inside
  | succ run ih =>
      rw [List.replicate_succ', List.foldl_append]
      exact ih.step_backslash

/-- Taking backslashes back leaves what is written before them. -/
theorem drop_backslashes {taken run : Nat} (enough : taken ≤ run) (written : Text) :
    (List.replicate run '\\' ++ written).drop taken =
      List.replicate (run - taken) '\\' ++ written := by
  rw [List.drop_append_of_le_length (by simpa using enough), List.drop_replicate]

/-- An odd run of backslashes makes the quote behind it part of the token. -/
theorem Inside.step_literalQuote {done : List Text} {written : Text} {run : Nat} {s : Splitter}
    (inside : Inside done written (2 * run + 1) s) :
    Inside done ('"' :: (List.replicate run '\\' ++ written)) 0 (s.step '"') := by
  obtain ⟨tokens, current, inToken, backslashes, quotes, inQuoteRun⟩ := inside
  have idle : s.inQuoteRun = false := inQuoteRun (by omega)
  have odd : (2 * run + 1) % 2 = 1 := by omega
  have half : (2 * run + 1) / 2 + 1 = run + 1 := by omega
  have left : 2 * run + 1 - (run + 1) = run := by omega
  constructor <;>
    simp [step, firstQuote, idle, tokens, current, backslashes, quotes, odd, half,
      drop_backslashes (show run + 1 ≤ 2 * run + 1 by omega), left]

/-- An even run of backslashes leaves the quote behind it to close the token. -/
theorem Inside.step_closingQuote {done : List Text} {written : Text} {run : Nat} {s : Splitter}
    (inside : Inside done written (2 * run) s) :
    Complete done (written.reverse ++ List.replicate run '\\') (s.step '"') := by
  obtain ⟨tokens, current, inToken, backslashes, quotes, inQuoteRun⟩ := inside
  have half : 2 * run / 2 = run := by omega
  have left : 2 * run - run = run := by omega
  cases idle : s.inQuoteRun with
  | false =>
      constructor <;>
        simp [step, firstQuote, endQuoteRun, idle, tokens, current, backslashes, quotes, half,
          drop_backslashes (show run ≤ 2 * run by omega), left]
  | true =>
      -- the quote before was part of the token, so no backslash stands between the two
      have none : run = 0 := by
        rcases Nat.eq_zero_or_pos run with zero | some
        · exact zero
        · rw [inQuoteRun (by omega)] at idle
          cases idle
      subst none
      constructor <;>
        simp [step, nextQuote, endQuoteRun, idle, tokens, current, inToken, quotes]

theorem Inside.step_ordinary {done : List Text} {written : Text} {run : Nat} {s : Splitter}
    (inside : Inside done written run s) {c : Char} (backslash : c ≠ '\\') (quote : c ≠ '"') :
    Inside done (c :: (List.replicate run '\\' ++ written)) 0 (s.step c) := by
  obtain ⟨tokens, current, inToken, backslashes, quotes, inQuoteRun⟩ := inside
  cases h : s.inQuoteRun <;>
    constructor <;>
    simp [step, endQuoteRun, ordinary, h, backslash, quote, tokens, current, quotes]

/-- The inside of a quoted token and the closing quote complete the token. -/
theorem Inside.foldl_escape {done : List Text} (t : Text) :
    ∀ {written : Text} {s : Splitter} (run : Nat), Inside done written 0 s →
      Complete done (written.reverse ++ List.replicate run '\\' ++ t)
        ((escape run t ++ ['"']).foldl step s) := by
  induction t with
  | nil =>
      intro written s run inside
      rw [escape, List.foldl_append, List.append_nil]
      exact (inside.foldl_backslashes (2 * run)).step_closingQuote
  | cons c t ih =>
      intro written s run inside
      by_cases backslash : c = '\\'
      · subst backslash
        rw [escape_backslash]
        simpa [List.replicate_succ'] using ih (run + 1) inside
      · by_cases quote : c = '"'
        · subst quote
          have next := (inside.foldl_backslashes (2 * run + 1)).step_literalQuote
          have cut : escape run ('"' :: t) ++ ['"'] =
              List.replicate (2 * run + 1) '\\' ++ '"' :: (escape 0 t ++ ['"']) := by
            simp [escape_quote]
          rw [cut, List.foldl_append, List.foldl_cons]
          simpa using ih 0 next
        · have next := (inside.foldl_backslashes run).step_ordinary backslash quote
          have cut : escape run (c :: t) ++ ['"'] =
              List.replicate run '\\' ++ c :: (escape 0 t ++ ['"']) := by
            simp [escape_ordinary backslash quote]
          rw [cut, List.foldl_append, List.foldl_cons]
          simpa using ih 0 next

/-- Outside of quotes, a character which is neither white space nor a quote writes itself. -/
theorem step_plain {s : Splitter} (outside : s.quotes = 0) (idle : s.inQuoteRun = false)
    {c : Char} (solid : isBlank c = false) (quote : c ≠ '"') :
    (s.step c).tokens = s.tokens ∧ (s.step c).current = c :: s.current ∧
      (s.step c).inToken = true ∧ (s.step c).quotes = 0 ∧ (s.step c).inQuoteRun = false := by
  have space : c ≠ ' ' := by rintro rfl; simp [isBlank, Text.blankRanges] at solid
  have tab : c ≠ '\t' := by rintro rfl; simp [isBlank, Text.blankRanges] at solid
  by_cases backslash : c = '\\' <;>
    simp [step, endQuoteRun, Splitter.backslash, ordinary, outside, idle, quote, space, tab,
      backslash]

/-- A token without white space and quotes writes itself. -/
theorem foldl_plain {t : Text} (plain : ∀ c ∈ t, isBlank c = false ∧ c ≠ '"') :
    ∀ {s : Splitter}, s.quotes = 0 → s.inQuoteRun = false → (s.inToken = true ∨ t ≠ []) →
      Complete s.tokens (s.current.reverse ++ t) (t.foldl step s) := by
  induction t with
  | nil =>
      intro s outside idle begun
      have inToken : s.inToken = true := by simpa using begun
      exact ⟨rfl, by simp, inToken, by simp [endQuoteRun, idle, outside]⟩
  | cons c t ih =>
      intro s outside idle _
      obtain ⟨solid, quote⟩ := plain c (by simp)
      obtain ⟨tokens, current, inToken, quotes, inQuoteRun⟩ := step_plain outside idle solid quote
      have rest := ih (fun d hd => plain d (by simp [hd])) quotes inQuoteRun (Or.inl inToken)
      simpa [tokens, current] using rest

/-- A written token is completed, from between two tokens. -/
theorem complete_of_renders {token rendering : Text} (renders : Renders token rendering)
    (done : List Text) : Complete done token (rendering.foldl step { tokens := done }) := by
  cases renders with
  | raw filled plain =>
      exact foldl_plain (s := { tokens := done }) plain rfl rfl (Or.inr filled)
  | quoted =>
      have opened : Inside done [] 0 (step { tokens := done } '"') := by
        constructor <;> simp [step, firstQuote]
      simpa [quote] using opened.foldl_escape token 0

/-- The space behind a complete token leads between two tokens. -/
theorem Complete.step_space {done : List Text} {token : Text} {s : Splitter}
    (complete : Complete done token s) : s.step ' ' = { tokens := token :: done } := by
  obtain ⟨tokens, current, inToken, quotes⟩ := complete
  cases idle : s.inQuoteRun <;>
    simp_all [step, endQuoteRun, separator]

theorem Complete.finish {done : List Text} {token : Text} {s : Splitter}
    (complete : Complete done token s) : s.finish = done.reverse ++ [token] := by
  simp [Splitter.finish, complete.inToken, complete.tokens, complete.current]

end Splitter

/-- Splitting undoes quoting, for tokens which are joined by single spaces. -/
theorem split_join {tokens renderings : List Text}
    (renders : List.Forall₂ Renders tokens renderings) (filled : tokens ≠ []) :
    split ([' '].intercalate renderings) = tokens := by
  suffices from_between : ∀ done : List Text,
      (([' '].intercalate renderings).foldl Splitter.step { tokens := done }).finish =
        done.reverse ++ tokens from from_between []
  induction renders with
  | nil => exact absurd rfl filled
  | @cons token rendering tokens renderings first more ih =>
      intro done
      have complete := Splitter.complete_of_renders first done
      cases more with
      | nil => simpa using complete.finish
      | @cons second rendering' tokens renderings next more =>
          have rest := ih (by simp) (token :: done)
          rw [List.intercalate_cons_cons, List.append_assoc, List.foldl_append,
            List.singleton_append, List.foldl_cons, complete.step_space, rest]
          simp

/-! ## Normalizing a written line -/

theorem isBlank_backslash : isBlank '\\' = false := by decide

theorem isBlank_quote : isBlank '"' = false := by decide

theorem collapse_backslashes (run : Nat) (t : Text) :
    collapse (List.replicate run '\\' ++ t) = List.replicate run '\\' ++ collapse t :=
  Text.collapse_append_word
    (fun c hc => by rw [List.eq_of_mem_replicate hc]; exact isBlank_backslash) t

/-- Backslashes which are still to be written come first. -/
theorem head_escape_succ (t : Text) : ∀ run, (escape (run + 1) t).head? = some '\\' := by
  induction t with
  | nil => intro run; simp [escape, Nat.mul_add, List.replicate_succ]
  | cons c t ih =>
      intro run
      by_cases backslash : c = '\\'
      · rw [backslash, escape_backslash]
        exact ih (run + 1)
      · by_cases quote : c = '"'
        · rw [quote, escape_quote]
          simp [List.replicate_succ]
        · rw [escape_ordinary backslash quote]
          simp [List.replicate_succ]

/-- Escaping keeps white space at the front, and puts none there. -/
theorem head_escape_isBlank (t : Text) :
    (escape 0 t).head?.any isBlank = t.head?.any isBlank := by
  cases t with
  | nil => rfl
  | cons c t =>
      by_cases backslash : c = '\\'
      · rw [backslash, escape_backslash, head_escape_succ]
        rfl
      · by_cases quote : c = '"'
        · rw [quote, escape_quote]
          simp [isBlank_backslash, isBlank_quote]
        · rw [escape_ordinary backslash quote]
          simp

/-- Escaping and collapsing commute: no backslash comes between two blank characters. -/
theorem collapse_escape (t : Text) : ∀ run, collapse (escape run t) = escape run (collapse t) := by
  induction t with
  | nil =>
      intro run
      simpa [escape, collapse] using collapse_backslashes (2 * run) []
  | cons c t ih =>
      intro run
      by_cases backslash : c = '\\'
      · rw [backslash, escape_backslash, ih, Text.collapse_cons_word isBlank_backslash,
          escape_backslash]
      · by_cases quote : c = '"'
        · rw [quote, escape_quote, collapse_backslashes, Text.collapse_cons_word isBlank_quote,
            Text.collapse_cons_word isBlank_quote, escape_quote, ih]
        · rw [escape_ordinary backslash quote, collapse_backslashes]
          cases blank : isBlank c with
          | false =>
              rw [Text.collapse_cons_word blank, Text.collapse_cons_word blank,
                escape_ordinary backslash quote, ih]
          | true =>
              have space : ∀ run u, escape run (' ' :: u) =
                  List.replicate run '\\' ++ ' ' :: escape 0 u :=
                escape_ordinary (by decide) (by decide)
              rw [Text.collapse_cons_blank blank, Text.collapse_cons_blank blank,
                head_escape_isBlank, ih]
              cases more : t.head?.any isBlank with
              | false => simp [space]
              | true => simp [Text.collapse_of_head_blank more, space]

theorem collapse_quote (token : Text) : collapse (quote token) = quote (collapse token) := by
  rw [quote, Text.collapse_append (by decide), Text.collapse_cons_word isBlank_quote,
    collapse_escape]
  rfl

namespace Renders

variable {token rendering : Text}

theorem collapse (renders : Renders token rendering) :
    Renders (collapse token) (collapse rendering) := by
  cases renders with
  | raw filled plain =>
      rw [Text.collapse_word fun c hc => (plain c hc).1]
      exact raw filled plain
  | quoted =>
      rw [collapse_quote]
      exact quoted _

/-- A written token neither begins nor ends with white space. -/
theorem ends (renders : Renders token rendering) :
    rendering.head?.any isBlank = false ∧
      ∃ part last, rendering = part ++ [last] ∧ isBlank last = false := by
  cases renders with
  | raw filled plain =>
      refine ⟨?_, token.dropLast, token.getLast filled, (List.dropLast_append_getLast filled).symm,
        (plain _ (List.getLast_mem filled)).1⟩
      cases token with
      | nil => rfl
      | cons c token => simpa using (plain c (by simp)).1
  | quoted => exact ⟨isBlank_quote, '"' :: escape 0 token, '"', rfl, isBlank_quote⟩

theorem not_allBlank (renders : Renders token rendering) (before after : Text) :
    allBlank (before ++ rendering ++ after) = false := by
  obtain ⟨-, part, last, rfl, solid⟩ := renders.ends
  simp [allBlank, solid]

/-- Normalizing a line takes the white space in front of a written token away, and goes on behind
the token. -/
theorem normalize_append (renders : Renders token rendering) {before t : Text}
    (blank : allBlank before = true) (gap : t.head?.all isBlank = true) :
    normalize (before ++ rendering ++ t) =
      Text.collapse rendering ++ if allBlank t then [] else ' ' :: normalize t := by
  obtain ⟨first, part, last, rfl, solid⟩ := renders.ends
  rw [List.append_assoc, Text.normalize_append_blank blank, List.append_assoc,
    List.singleton_append, Text.normalize_append solid gap, Text.dropWhile_of_head_word first]

end Renders

theorem Written.not_allBlank {tokens : List Text} {line : Text} (written : Written tokens line) :
    allBlank line = false := by
  cases written with
  | last renders => exact renders.not_allBlank _ _
  | cons renders =>
      rw [List.append_assoc]
      exact renders.not_allBlank _ _

/-- Normalizing joins the written tokens by single spaces, each of them collapsed. -/
theorem Written.normalize_eq {tokens : List Text} {line : Text} (written : Written tokens line) :
    ∃ renderings, List.Forall₂ Renders (tokens.map collapse) renderings ∧
      normalize line = [' '].intercalate renderings := by
  induction written with
  | @last token rendering before after renders blankBefore blankAfter =>
      refine ⟨[collapse rendering], .cons renders.collapse .nil, ?_⟩
      have gap : after.head?.all isBlank = true := by
        cases after with
        | nil => rfl
        | cons c after => simp_all [allBlank]
      rw [renders.normalize_append blankBefore gap, blankAfter]
      simp
  | @cons token rendering before gap line tokens renders blankBefore blankGap apart rest ih =>
      obtain ⟨renderings, more, joined⟩ := ih
      refine ⟨collapse rendering :: renderings, .cons renders.collapse more, ?_⟩
      have head : (gap ++ line).head?.all isBlank = true := by
        cases gap with
        | nil => exact absurd rfl apart
        | cons c gap => simp_all [allBlank]
      have filled : renderings ≠ [] := by
        rintro rfl
        cases rest <;> cases more
      have word : allBlank (gap ++ line) = false := by
        have := rest.not_allBlank
        simp_all [allBlank]
      rw [List.append_assoc _ gap, renders.normalize_append blankBefore head, word,
        Text.normalize_append_blank blankGap, joined, List.intercalate_cons_of_ne_nil filled]
      simp

/-! ## Tokenizing undoes quoting -/

theorem mem_escape {c : Char} (t : Text) : ∀ run, c ∈ escape run t → c ∈ t ∨ c = '\\' := by
  induction t with
  | nil =>
      intro run member
      exact Or.inr (List.eq_of_mem_replicate member)
  | cons d t ih =>
      intro run member
      by_cases backslash : d = '\\'
      · rw [backslash, escape_backslash] at member
        rcases ih _ member with inside | same
        · exact Or.inl (List.mem_cons_of_mem d inside)
        · exact Or.inr same
      · by_cases quote : d = '"'
        · rw [quote, escape_quote, List.mem_append, List.mem_cons] at member
          rcases member with run | same | rest
          · exact Or.inr (List.eq_of_mem_replicate run)
          · exact Or.inl (by simp [quote, same])
          · exact (ih 0 rest).imp_left (List.mem_cons_of_mem d)
        · rw [escape_ordinary backslash quote, List.mem_append, List.mem_cons] at member
          rcases member with run | same | rest
          · exact Or.inr (List.eq_of_mem_replicate run)
          · exact Or.inl (by simp [same])
          · exact (ih 0 rest).imp_left (List.mem_cons_of_mem d)

/-- Quoting adds quotes and backslashes only. -/
theorem Renders.mem {token rendering : Text} (renders : Renders token rendering) {c : Char}
    (member : c ∈ rendering) : c ∈ token ∨ c = '\\' ∨ c = '"' := by
  cases renders with
  | raw => exact Or.inl member
  | quoted =>
      simp only [quote, List.cons_append, List.mem_cons, List.mem_append, List.not_mem_nil,
        or_false] at member
      rcases member with same | inside | same
      · exact Or.inr (Or.inr same)
      · exact (mem_escape token 0 inside).imp_right Or.inl
      · exact Or.inr (Or.inr same)

theorem nul_not_mem_of_allBlank {t : Text} (blank : allBlank t = true) : '\x00' ∉ t := by
  intro member
  have : isBlank '\x00' = true := List.all_eq_true.mp blank _ member
  revert this
  decide

theorem Renders.nul_not_mem {token rendering : Text} (renders : Renders token rendering)
    (clean : '\x00' ∉ token) : '\x00' ∉ rendering := by
  intro member
  rcases renders.mem member with inside | backslash | quote
  · exact clean inside
  · revert backslash
    decide
  · revert quote
    decide

theorem Written.nul_not_mem {tokens : List Text} {line : Text} (written : Written tokens line)
    (clean : ∀ token ∈ tokens, '\x00' ∉ token) : '\x00' ∉ line := by
  induction written with
  | last renders blankBefore blankAfter =>
      simp only [List.mem_append, not_or]
      exact ⟨⟨nul_not_mem_of_allBlank blankBefore, renders.nul_not_mem (clean _ (by simp))⟩,
        nul_not_mem_of_allBlank blankAfter⟩
  | cons renders blankBefore blankGap apart rest ih =>
      simp only [List.mem_append, not_or]
      exact ⟨⟨⟨nul_not_mem_of_allBlank blankBefore, renders.nul_not_mem (clean _ (by simp))⟩,
        nul_not_mem_of_allBlank blankGap⟩, ih fun token member => clean token (by simp [member])⟩

/-- White space in front of a written line belongs to it. -/
theorem Written.append_blank {tokens : List Text} {line gap : Text} (written : Written tokens line)
    (blank : allBlank gap = true) : Written tokens (gap ++ line) := by
  have both : ∀ before, allBlank before = true → allBlank (gap ++ before) = true := by
    intro before blankBefore
    rw [allBlank, List.all_append, Bool.and_eq_true]
    exact ⟨blank, blankBefore⟩
  cases written with
  | last renders blankBefore blankAfter =>
      rw [← List.append_assoc, ← List.append_assoc]
      exact last renders (both _ blankBefore) blankAfter
  | cons renders blankBefore blankGap apart rest =>
      rw [← List.append_assoc, ← List.append_assoc, ← List.append_assoc]
      exact cons renders (both _ blankBefore) blankGap apart rest

theorem Written.tokenize_eq {tokens : List Text} {line : Text} (written : Written tokens line)
    (clean : ∀ token ∈ tokens, '\x00' ∉ token) : tokenize line = .ok (tokens.map collapse) := by
  obtain ⟨renderings, renders, joined⟩ := written.normalize_eq
  have filled : tokens.map collapse ≠ [] := by
    cases written <;> simp
  have whole : split (normalize line) = tokens.map collapse := by
    rw [joined]
    exact split_join renders filled
  have noNul : line.contains '\x00' = false := by
    simpa using written.nul_not_mem clean
  have notEmpty : (normalize line).isEmpty = false := by
    cases empty : normalize line with
    | nil =>
        rw [empty] at whole
        exact absurd whole.symm filled
    | cons c rest => rfl
  rw [tokenize, noNul]
  simp only [notEmpty, Bool.false_eq_true, if_false, whole]

/-- **Tokenizing undoes quoting.** The tokens of a written line are the tokens which were written,
in order, each with its runs of white space collapsed; a token whose white space is isolated
spaces comes back as it was. -/
theorem tokenize_written {tokens : List Text} {line : Text} (written : Written tokens line)
    (clean : ∀ token ∈ tokens, '\x00' ∉ token) :
    tokenize line = .ok (tokens.map collapse) ∧
      ∀ token ∈ tokens, SpacesIsolated token → collapse token = token :=
  ⟨written.tokenize_eq clean, fun _ _ isolated => Text.collapse_of_isolated isolated⟩

/-- Four tokens: one ends in a quote and has a run of white space, one is empty, one is raw and
ends in a backslash, one begins with backslashes and ends with a space. -/
theorem tokenize_written_mixed :
    Written [['a', ' ', '\t', '"'], [], ['x', '\\'], ['\\', '\\', ' ']]
        ['\n', '"', 'a', ' ', '\t', '\\', '"', '"', '\t', ' ', '"', '"', ' ', 'x', '\\', '\u3000',
          '"', '\\', '\\', ' ', '"'] ∧
      tokenize ['\n', '"', 'a', ' ', '\t', '\\', '"', '"', '\t', ' ', '"', '"', ' ', 'x', '\\',
          '\u3000', '"', '\\', '\\', ' ', '"'] =
        .ok [['a', ' ', '"'], [], ['x', '\\'], ['\\', '\\', ' ']] := by
  have fourth : Written [['\\', '\\', ' ']] ['"', '\\', '\\', ' ', '"'] :=
    @Written.last _ _ [] [] (.quoted _) rfl rfl
  have plain : ∀ c ∈ ['x', '\\'], Text.isBlank c = false ∧ c ≠ '"' := by
    rw [List.forall_mem_cons, List.forall_mem_singleton]
    decide
  have third := @Written.cons _ _ [] ['\u3000'] _ _ (.raw (by decide) plain) rfl (by decide)
    (by decide) fourth
  have second := @Written.cons [] _ [] [' '] _ _ (.quoted _) rfl (by decide) (by decide) third
  have first := @Written.cons ['a', ' ', '\t', '"'] _ ['\n'] ['\t', ' '] _ _ (.quoted _)
    (by decide) (by decide) (by decide) second
  exact ⟨first, (tokenize_written first (by decide)).1⟩

end Compdb.CommandLine
