/-
# Compdb.Proofs.Json.Spelling — texts whose lexemes do not depend on what follows

A text spells some lexemes when the lexer, between two lexemes before it, yields exactly these
and is between two lexemes behind it, whatever comes then (`Spells`). Spelling goes along with
concatenation, so the lexemes of a long text are found part by part; white space spells
nothing.

Within a string the lexer has a state, and `Mode.Leads` says the same of a text which leads
from one place of the lexer to another. A character leads to the state which holds it too,
whether it is written raw, by a short escape or by four hexadecimal digits.
-/
import Compdb.Json.Lexeme
import Mathlib.Data.List.Forall2

namespace Compdb.Json

set_option autoImplicit false

open Utf8 (Piece)

namespace Mode

/-- From one place the text leads to another, and yields the lexemes on the way. -/
def Leads (m : Mode) (t : Text) (lexemes : List Lexeme) (m' : Mode) : Prop :=
  ∀ rest : List Piece, m.lex (t.map .char ++ rest) = lexemes ++ m'.lex rest

theorem leads_nil (m : Mode) : m.Leads [] [] m :=
  fun _ => rfl

theorem leads_one {m m' : Mode} {c : Char} {lexemes : List Lexeme}
    (step : m.step (.char c) = (lexemes, m')) : m.Leads [c] lexemes m' := by
  intro rest
  simp only [List.map_cons, List.map_nil, List.cons_append, List.nil_append, lex, step]

theorem Leads.append {m m' m'' : Mode} {t u : Text} {ls ks : List Lexeme}
    (first : m.Leads t ls m') (second : m'.Leads u ks m'') :
    m.Leads (t ++ u) (ls ++ ks) m'' := by
  intro rest
  rw [List.map_append, List.append_assoc, first, second, List.append_assoc]

/-- A step which yields nothing, before more text. -/
theorem leads_cons {m m' m'' : Mode} {c : Char} {t : Text} {lexemes : List Lexeme}
    (step : m.step (.char c) = ([], m')) (more : m'.Leads t lexemes m'') :
    m.Leads (c :: t) lexemes m'' :=
  (leads_one step).append more

end Mode

/-! ## Strings -/

section Strings

theorem utf8Size_of_hexDigit? {c : Char} {n : Nat} (digit : hexDigit? c = some n) :
    c.utf8Size = 1 := by
  have small : c ≤ 'f' := by
    rw [hexDigit?] at digit
    split at digit
    · next decimal =>
        simp only [Bool.and_eq_true, decide_eq_true_eq] at decimal
        exact Char.le_trans decimal.2 (by decide)
    · split at digit
      · next lower =>
          simp only [Bool.and_eq_true, decide_eq_true_eq] at lower
          exact lower.2
      · split at digit
        · next upper =>
            simp only [Bool.and_eq_true, decide_eq_true_eq] at upper
            exact Char.le_trans upper.2 (by decide)
        · exact absurd digit (by simp)
  rw [Char.utf8Size, if_pos]
  exact UInt32.le_trans small (by decide)

/-- The state within a string of which nothing is refused so far. -/
def StringState.holding (t : Text) : StringState :=
  { content := t.reverse }

variable {s : StringState} {t : Text} {c : Char} {n : Nat}

theorem step_hexDigit {bytes : Nat} (value : Nat) (early : bytes < 3)
    (digit : hexDigit? c = some n) :
    (Mode.inString { s with phase := .hex bytes (some value) }).step (.char c) =
      ([], .inString { s with phase := .hex (bytes + 1) (some (value * 16 + n)) }) := by
  have more : bytes + 1 < 4 := by omega
  simp [Mode.step, StringState.step, StringState.hexPiece, digit, utf8Size_of_hexDigit? digit,
    more]

theorem step_lastHexDigit (value : Nat) (digit : hexDigit? c = some n) :
    (Mode.inString { s with phase := .hex 3 (some value) }).step (.char c) =
      ([], .inString (s.pushUnit (value * 16 + n))) := by
  simp [Mode.step, StringState.step, StringState.hexPiece, digit, utf8Size_of_hexDigit? digit,
    StringState.pushUnit]

/-- Four hexadecimal digits hand over a UTF-16 unit. -/
theorem leads_hexEscape (plain : s.phase = .plain) {a b c d : Char} {i j k l : Nat}
    (ha : hexDigit? a = some i) (hb : hexDigit? b = some j) (hc : hexDigit? c = some k)
    (hd : hexDigit? d = some l) :
    (Mode.inString s).Leads ['\\', 'u', a, b, c, d] []
      (.inString (s.pushUnit (((i * 16 + j) * 16 + k) * 16 + l))) := by
  have backslash : (Mode.inString s).step (.char '\\') =
      ([], .inString { s with phase := .escape }) := by
    simp [Mode.step, StringState.step, plain]
  have letter : (Mode.inString { s with phase := .escape }).step (.char 'u') =
      ([], .inString { s with phase := .hex 0 (some 0) }) :=
    rfl
  have first : (Mode.inString { s with phase := .hex 0 (some 0) }).step (.char a) =
      ([], .inString { s with phase := .hex 1 (some i) }) := by
    simpa using step_hexDigit (s := s) 0 (by decide : 0 < 3) ha
  have second := step_hexDigit (s := s) i (by decide : 1 < 3) hb
  have third := step_hexDigit (s := s) (i * 16 + j) (by decide : 2 < 3) hc
  have last := step_lastHexDigit (s := s) ((i * 16 + j) * 16 + k) hd
  exact Mode.leads_cons backslash <| Mode.leads_cons letter <| Mode.leads_cons first <|
    Mode.leads_cons second <| Mode.leads_cons third <| Mode.leads_one last

/-- A character which is no quote, no backslash and no control stands for itself. -/
theorem leads_raw (notQuote : c ≠ '"') (notBackslash : c ≠ '\\') (printable : 0x20 ≤ c.toNat) :
    (Mode.inString (.holding t)).Leads [c] [] (.inString (.holding (t ++ [c]))) := by
  have visible : ¬ c.toNat < 0x20 := by omega
  apply Mode.leads_one
  simp [Mode.step, StringState.step, StringState.holding, StringState.push, StringState.endPair,
    notQuote, notBackslash, visible]

/-- A backslash and a letter stand for the character which the letter means. -/
theorem leads_shortEscape {letter : Char} (means : StringState.escaped? letter = some c) :
    (Mode.inString (.holding t)).Leads ['\\', letter] [] (.inString (.holding (t ++ [c]))) := by
  have noUnit : letter ≠ 'u' := by
    rintro rfl
    exact absurd means (by simp [StringState.escaped?])
  have backslash : (Mode.inString (.holding t)).step (.char '\\') =
      ([], .inString { StringState.holding t with phase := .escape }) :=
    rfl
  refine Mode.leads_cons backslash (Mode.leads_one ?_)
  simp [Mode.step, StringState.step, StringState.holding, StringState.push, StringState.endPair,
    noUnit, means]

/-- A unit which is no half of a pair is a character. -/
theorem pushUnit_holding (noHalf : n < 0xD800 ∨ 0xDFFF < n) :
    (StringState.holding t).pushUnit n = .holding (t ++ [Char.ofNat n]) := by
  have notLow : ¬ (0xDC00 ≤ n ∧ n ≤ 0xDFFF) := by omega
  have notHigh : ¬ (0xD800 ≤ n ∧ n ≤ 0xDBFF) := by omega
  simp [StringState.pushUnit, StringState.holding, notLow, notHigh]

/-- A string begins with a quote. -/
theorem leads_openQuote : Mode.between.Leads ['"'] [] (.inString (.holding [])) :=
  Mode.leads_one rfl

/-- A string ends with a quote, and has the text which was held. -/
theorem leads_closeQuote :
    (Mode.inString (.holding t)).Leads ['"'] [.string (.ok t)] .between := by
  apply Mode.leads_one
  simp [Mode.step, StringState.step, StringState.holding, StringState.text, StringState.endPair]

end Strings

/-! ## Items and what belongs to them -/

section Items

variable {α β γ : Type} {r : α → β → Prop} {items : List α} {parts : List β}

/-- Each item has what belongs to it. -/
theorem exists_forall₂ (each : ∀ item ∈ items, ∃ part, r item part) :
    ∃ parts, List.Forall₂ r items parts := by
  induction items with
  | nil => exact ⟨[], .nil⟩
  | cons item items ih =>
      rw [List.forall_mem_cons] at each
      obtain ⟨part, head⟩ := each.1
      obtain ⟨parts, more⟩ := ih each.2
      exact ⟨part :: parts, .cons head more⟩

theorem forall_of_forall₂ {p : β → Prop} (implies : ∀ item part, r item part → p part)
    (each : List.Forall₂ r items parts) : ∀ part ∈ parts, p part := by
  induction each with
  | nil => exact List.forall_mem_nil _
  | cons head _ ih => exact List.forall_mem_cons.mpr ⟨implies _ _ head, ih⟩

/-- What belongs to the same items belongs together. -/
theorem forall₂_of_forall₂ {r' : α → γ → Prop} {q : β → γ → Prop}
    (implies : ∀ item part other, r item part → r' item other → q part other) {others : List γ}
    (each : List.Forall₂ r items parts) (each' : List.Forall₂ r' items others) :
    List.Forall₂ q parts others := by
  induction each generalizing others with
  | nil =>
      cases each'
      exact .nil
  | cons head _ ih =>
      cases each' with
      | cons head' more' => exact .cons (implies _ _ _ head head') (ih more')

end Items

/-! ## Whole lexemes -/

/-- The text spells the lexemes, whatever stands before and behind it. -/
def Spells (t : Text) (lexemes : List Lexeme) : Prop :=
  Mode.between.Leads t lexemes .between

/-- The parts with the separator between two of them. -/
def separated {α : Type} (separator : List α) : List (List α) → List α
  | [] => []
  | part :: parts => part ++ parts.flatMap (separator ++ ·)

theorem intercalate_eq_separated {α : Type} (separator : List α) (parts : List (List α)) :
    separator.intercalate parts = separated separator parts := by
  induction parts with
  | nil => rfl
  | cons part parts ih =>
      cases parts with
      | nil => simp [separated]
      | cons next parts =>
          rw [List.intercalate_cons_cons, ih]
          simp [separated]

theorem length_le_separated {α : Type} {separator : List α} {parts : List (List α)}
    (filled : separator ≠ []) (filledParts : ∀ part ∈ parts, part ≠ []) :
    parts.length ≤ (separated separator parts).length := by
  have rounds (more : List (List α)) : more.length ≤ (more.flatMap (separator ++ ·)).length := by
    induction more with
    | nil => simp
    | cons part more ih =>
        have := List.length_pos_of_ne_nil filled
        simp only [List.flatMap_cons, List.length_cons, List.length_append]
        omega
  cases parts with
  | nil => simp
  | cons part parts =>
      have := List.length_pos_of_ne_nil (filledParts part (by simp))
      have := rounds parts
      simp only [separated, List.length_cons, List.length_append]
      omega

namespace Spells

variable {t u : Text} {ls ks : List Lexeme}

theorem append (first : Spells t ls) (second : Spells u ks) : Spells (t ++ u) (ls ++ ks) :=
  Mode.Leads.append first second

theorem lex_eq (spells : Spells t ls) : lex (t.map .char) = ls := by
  have whole := spells []
  simp only [List.append_nil] at whole
  rw [lex, whole]
  simp [Mode.lex, Mode.finish]

theorem space (blank : ∀ c ∈ t, isSpace c = true) : Spells t [] := by
  induction t with
  | nil => exact Mode.leads_nil _
  | cons c t ih =>
      have step : Mode.between.step (.char c) = ([], .between) := by
        simp [Mode.step, beginLexeme, blank c (by simp)]
      exact Mode.leads_cons step (ih fun d member => blank d (by simp [member]))

end Spells

end Compdb.Json
