/-
# Compdb.Proofs.Json.Layout — the ways in which a JSON text can be laid out

The same value has many texts. A character of a string stands for itself, or a short escape does,
or one or two escapes of four hexadecimal digits (`WritesString`); between the words of arrays and
objects there can be white space (`ArrayLayout`, `ObjectLayout`). All layouts of a value spell the
same lexemes.

A word can be a number, which ends where something else begins. So what stands behind a value
matters after all, and `SpellsValue` asks for a delimiter there: white space, a comma or a
closing bracket.
-/
import Compdb.Proofs.Json.Building

namespace Compdb.Json

set_option autoImplicit false

open Utf8 (Piece)

/-! ## Strings -/

/-- The letters which stand for a character behind a backslash, with the character. -/
def shortEscapes : List (Char × Char) :=
  [('"', '"'), ('\\', '\\'), ('/', '/'), ('b', '\x08'), ('f', '\x0c'), ('n', '\n'), ('r', '\r'),
   ('t', '\t')]

/-- The character is a hexadecimal digit of this value, in either case. -/
def WritesDigit (n : Nat) (c : Char) : Prop :=
  "0123456789abcdef".toList[n]? = some c ∨ "0123456789ABCDEF".toList[n]? = some c

/-- The text is the escape of a UTF-16 unit: a backslash, the letter `u` and four digits. -/
def WritesUnit (n : Nat) (t : Text) : Prop :=
  ∃ a b c d, WritesDigit (n / 0x1000) a ∧ WritesDigit (n / 0x100 % 16) b ∧
    WritesDigit (n / 0x10 % 16) c ∧ WritesDigit (n % 16) d ∧ t = ['\\', 'u', a, b, c, d]

/-- The text stands for the character within a string. -/
inductive WritesChar : Char → Text → Prop where
  | raw {c : Char} : c ≠ '"' → c ≠ '\\' → 0x20 ≤ c.toNat → WritesChar c [c]
  | short {letter c : Char} : (letter, c) ∈ shortEscapes → WritesChar c ['\\', letter]
  | unit {c : Char} {t : Text} : WritesUnit c.toNat t → WritesChar c t
  /-- A character beyond the basic plane is a pair of surrogates. -/
  | pair {c : Char} {t u : Text} : 0x10000 ≤ c.toNat →
      WritesUnit (0xD800 + (c.toNat - 0x10000) / 0x400) t →
      WritesUnit (0xDC00 + (c.toNat - 0x10000) % 0x400) u → WritesChar c (t ++ u)

/-- The text is a string with this value. -/
def WritesString (value t : Text) : Prop :=
  ∃ parts : List Text, List.Forall₂ WritesChar value parts ∧ t = '"' :: (parts.flatten ++ ['"'])

theorem escaped?_of_mem : ∀ pair ∈ shortEscapes, StringState.escaped? pair.1 = some pair.2 := by
  decide

theorem hexDigit?_of_writesDigit {n : Nat} {c : Char} (writes : WritesDigit n c) :
    hexDigit? c = some n := by
  have small : n < 16 := by
    rcases writes with lower | upper
    · exact (List.getElem?_eq_some_iff.mp lower).1
    · exact (List.getElem?_eq_some_iff.mp upper).1
  have digits : ∀ k : Fin 16,
      ("0123456789abcdef".toList[k.val]?).bind hexDigit? = some k.val ∧
        ("0123456789ABCDEF".toList[k.val]?).bind hexDigit? = some k.val := by
    decide
  obtain ⟨ofLower, ofUpper⟩ := digits ⟨n, small⟩
  rcases writes with lower | upper
  · rwa [lower] at ofLower
  · rwa [upper] at ofUpper

/-- Where escapes can begin, the escape of a unit hands it over. -/
theorem leads_unit {s : StringState} (plain : s.phase = .plain) {n : Nat} {t : Text}
    (writes : WritesUnit n t) : (Mode.inString s).Leads t [] (.inString (s.pushUnit n)) := by
  obtain ⟨a, b, c, d, first, second, third, last, rfl⟩ := writes
  have leads := leads_hexEscape plain (hexDigit?_of_writesDigit first)
    (hexDigit?_of_writesDigit second) (hexDigit?_of_writesDigit third)
    (hexDigit?_of_writesDigit last)
  have sum : ((n / 0x1000 * 16 + n / 0x100 % 16) * 16 + n / 0x10 % 16) * 16 + n % 16 = n := by
    omega
  rwa [sum] at leads

section Surrogates

variable {t : Text} {n : Nat}

theorem pushUnit_high (high : 0xD800 ≤ n ∧ n ≤ 0xDBFF) :
    (StringState.holding t).pushUnit n = { StringState.holding t with high := some n } := by
  have notLow : ¬ (0xDC00 ≤ n ∧ n ≤ 0xDFFF) := by omega
  simp [StringState.pushUnit, StringState.holding, notLow, high]

/-- The second half of a pair completes a character. -/
theorem pushUnit_low {k : Nat} (low : 0xDC00 ≤ n ∧ n ≤ 0xDFFF) :
    ({ StringState.holding t with high := some k } : StringState).pushUnit n =
      .holding (t ++ [Char.ofNat (0x10000 + (k - 0xD800) * 0x400 + (n - 0xDC00))]) := by
  simp [StringState.pushUnit, StringState.holding, low]

end Surrogates

/-- Every way to write a character leads to the string which holds it too. -/
theorem leads_writesChar (t : Text) {c : Char} {part : Text} (writes : WritesChar c part) :
    (Mode.inString (.holding t)).Leads part [] (.inString (.holding (t ++ [c]))) := by
  have valid : c.toNat < 0xD800 ∨ 0xDFFF < c.toNat ∧ c.toNat < 0x110000 := c.valid
  cases writes with
  | raw notQuote notBackslash printable => exact leads_raw notQuote notBackslash printable
  | short listed => exact leads_shortEscape (escaped?_of_mem _ listed)
  | unit writes =>
      have leads := leads_unit (s := .holding t) rfl writes
      rwa [pushUnit_holding (by omega), Char.ofNat_toNat] at leads
  | pair beyond first second =>
      have high := leads_unit (s := .holding t) rfl first
      rw [pushUnit_high (by omega)] at high
      have low := leads_unit (s := { StringState.holding t with
        high := some (0xD800 + (c.toNat - 0x10000) / 0x400) }) rfl second
      have whole : 0x10000 + (0xD800 + (c.toNat - 0x10000) / 0x400 - 0xD800) * 0x400 +
          (0xDC00 + (c.toNat - 0x10000) % 0x400 - 0xDC00) = c.toNat := by
        omega
      rw [pushUnit_low (by omega), whole, Char.ofNat_toNat] at low
      exact high.append low

/-- The text has no quotes, backslashes and controls. -/
def IsRaw (t : Text) : Prop :=
  ∀ c ∈ t, c ≠ '"' ∧ c ≠ '\\' ∧ 0x20 ≤ c.toNat

instance (t : Text) : Decidable (IsRaw t) :=
  decidable_of_iff (t.all (fun c => c ≠ '"' ∧ c ≠ '\\' ∧ 0x20 ≤ c.toNat) = true)
    (by simp [IsRaw])

/-- A string without quotes, backslashes and controls can stand there as it is. -/
theorem writesString_raw {t : Text} (raw : IsRaw t) : WritesString t ('"' :: (t ++ ['"'])) := by
  refine ⟨t.map ([·]), ?_, by rw [← List.flatMap_def, List.flatMap_singleton']⟩
  rw [List.forall₂_map_right_iff, List.forall₂_same]
  exact fun c inside => .raw (raw c inside).1 (raw c inside).2.1 (raw c inside).2.2

/-- However a string is written, it spells the lexeme of its value. -/
theorem WritesString.spells {value t : Text} (writes : WritesString value t) :
    Spells t [.string (.ok value)] := by
  obtain ⟨parts, each, rfl⟩ := writes
  have inside : ∀ before : Text, (Mode.inString (.holding before)).Leads parts.flatten []
      (.inString (.holding (before ++ value))) := by
    induction each with
    | nil =>
        intro before
        rw [List.append_nil]
        exact Mode.leads_nil _
    | @cons c part _ _ head _ ih =>
        intro before
        have more := (leads_writesChar before head).append (ih (before ++ [c]))
        rw [List.append_assoc] at more
        exact more
  exact leads_openQuote.append ((inside []).append leads_closeQuote)

/-! ## Values before a delimiter -/

/-- The characters of white space. -/
def gapChars : List Char :=
  [' ', '\t', '\n', '\r']

/-- White space between two words. -/
def IsGap (t : Text) : Prop :=
  ∀ c ∈ t, c ∈ gapChars

instance (t : Text) : Decidable (IsGap t) :=
  decidable_of_iff (t.all (· ∈ gapChars) = true) (by simp [IsGap])

/-- The characters which can stand directly behind a value. -/
def delimiters : List Char :=
  gapChars ++ [',', ']', '\x7d']

/-- A delimiter comes next, or nothing does. -/
def Delimited (rest : List Piece) : Prop :=
  ∀ p ∈ rest.head?, ∃ c ∈ delimiters, p = .char c

/-- Before a delimiter the text spells the lexemes. -/
def SpellsValue (t : Text) (lexemes : List Lexeme) : Prop :=
  ∀ rest : List Piece, Delimited rest →
    Mode.between.lex (t.map .char ++ rest) = lexemes ++ Mode.between.lex rest

theorem delimited_cons {c : Char} (delimiter : c ∈ delimiters) (rest : List Piece) :
    Delimited (.char c :: rest) := by
  intro p next
  exact ⟨c, delimiter, (Option.mem_some_iff.mp next).symm⟩

theorem IsGap.spells {gap : Text} (isGap : IsGap gap) : Spells gap [] := by
  have space : gapChars.all isSpace = true := by decide
  exact Spells.space fun c inside => List.all_eq_true.mp space c (isGap c inside)

theorem IsGap.append {gap gap' : Text} (first : IsGap gap) (second : IsGap gap') :
    IsGap (gap ++ gap') :=
  List.forall_mem_append.mpr ⟨first, second⟩

section Values

variable {t u : Text} {ls ks : List Lexeme} {c : Char}

theorem Spells.spellsValue (spells : Spells t ls) : SpellsValue t ls :=
  fun rest _ => spells rest

theorem Spells.appendValue (first : Spells t ls) (second : SpellsValue u ks) :
    SpellsValue (t ++ u) (ls ++ ks) := by
  intro rest delimited
  rw [List.map_append, List.append_assoc, first, second rest delimited, List.append_assoc]

/-- A value and a delimiter, before more. -/
theorem SpellsValue.append (value : SpellsValue t ls) (delimiter : c ∈ delimiters)
    (more : SpellsValue (c :: u) ks) : SpellsValue (t ++ c :: u) (ls ++ ks) := by
  intro rest delimited
  rw [List.map_append, List.append_assoc, List.append_assoc, ← more rest delimited]
  exact value _ (delimited_cons delimiter _)

/-- A value and a delimiter which spells by itself. -/
theorem SpellsValue.ended (value : SpellsValue t ls) (delimiter : c ∈ delimiters)
    (closing : Spells [c] ks) : Spells (t ++ [c]) (ls ++ ks) := by
  intro rest
  rw [List.map_append, List.append_assoc, List.append_assoc, ← closing rest]
  exact value _ (delimited_cons delimiter _)

/-- Behind a value, white space spells nothing. -/
theorem SpellsValue.appendGap (value : SpellsValue t ls) {gap : Text} (isGap : IsGap gap) :
    SpellsValue (t ++ gap) ls := by
  cases gap with
  | nil => rwa [List.append_nil]
  | cons c gap =>
      have delimiter : c ∈ delimiters := List.mem_append_left _ (isGap c (List.mem_cons_self ..))
      have whole := value.append delimiter isGap.spells.spellsValue
      rwa [List.append_nil] at whole

/-- Values with a comma between two of them. -/
theorem SpellsValue.intercalate {parts : List Text} {lexemes : List (List Lexeme)}
    (each : List.Forall₂ SpellsValue parts lexemes) :
    SpellsValue ([','].intercalate parts) (separated [.comma] lexemes) := by
  have comma : Spells [','] [.comma] := Mode.leads_one rfl
  rw [← intercalate_eq_separated]
  induction each with
  | nil => exact Spells.spellsValue (Mode.leads_nil _)
  | cons head more ih =>
      cases more with
      | nil =>
          rw [List.intercalate_singleton, List.intercalate_singleton]
          exact head
      | cons next more =>
          rw [List.intercalate_cons_cons, List.intercalate_cons_cons, List.append_assoc,
            List.append_assoc]
          exact head.append (by decide) (comma.appendValue ih)

end Values

/-! ## Arrays and objects -/

/-- The text stands between white space. -/
def Padded (part t : Text) : Prop :=
  ∃ before after, IsGap before ∧ IsGap after ∧ t = before ++ part ++ after

/-- Some items between two brackets, with commas between them. Without items there can be white
space between the brackets. -/
inductive Bracketed {α : Type} (opening closing : Char) (layout : α → Text → Prop) :
    List α → Text → Prop where
  | empty {gap : Text} : IsGap gap →
      Bracketed opening closing layout [] (opening :: (gap ++ [closing]))
  | filled {items : List α} {parts : List Text} : items ≠ [] → List.Forall₂ layout items parts →
      Bracketed opening closing layout items (opening :: ([','].intercalate parts ++ [closing]))

/-- An array of elements which are texts of values. -/
abbrev ArrayLayout : List Text → Text → Prop :=
  Bracketed '[' ']' Padded

/-- A member of an object, from the texts of its key and its value. -/
def MemberLayout (member : Text × Text) (t : Text) : Prop :=
  ∃ key value, Padded member.1 key ∧ Padded member.2 value ∧ t = key ++ ':' :: value

/-- An object of members which are texts of a key and a value. -/
abbrev ObjectLayout : List (Text × Text) → Text → Prop :=
  Bracketed '\x7b' '\x7d' MemberLayout

/-- The array without white space. -/
def compactArray (items : List Text) : Text :=
  '[' :: ([','].intercalate items ++ [']'])

/-- The object without white space. -/
def compactObject (members : List (Text × Text)) : Text :=
  '\x7b' :: ([','].intercalate (members.map fun member => member.1 ++ ':' :: member.2)
    ++ ['\x7d'])

theorem Padded.refl (part : Text) : Padded part part :=
  ⟨[], [], List.forall_mem_nil _, List.forall_mem_nil _, (List.append_nil part).symm⟩

/-- More white space around it makes no difference. -/
theorem Padded.pad {part t before after : Text} (padded : Padded part t) (gap : IsGap before)
    (gap' : IsGap after) : Padded part (before ++ t ++ after) := by
  obtain ⟨before', after', inner, inner', rfl⟩ := padded
  exact ⟨before ++ before', after' ++ after, gap.append inner, inner'.append gap', by simp⟩

theorem MemberLayout.pad {member : Text × Text} {t before after : Text}
    (layout : MemberLayout member t) (gap : IsGap before) (gap' : IsGap after) :
    MemberLayout member (before ++ t ++ after) := by
  obtain ⟨key, value, padded, padded', rfl⟩ := layout
  have none : IsGap [] := List.forall_mem_nil _
  exact ⟨_, _, padded.pad gap none, padded'.pad none gap', by simp⟩

theorem arrayLayout_compact (items : List Text) : ArrayLayout items (compactArray items) := by
  cases items with
  | nil => exact .empty (List.forall_mem_nil _)
  | cons item items =>
      exact .filled (List.cons_ne_nil _ _) (List.forall₂_same.mpr fun part _ => .refl part)

theorem objectLayout_compact (members : List (Text × Text)) :
    ObjectLayout members (compactObject members) := by
  cases members with
  | nil => exact .empty (List.forall_mem_nil _)
  | cons member members =>
      refine .filled (List.cons_ne_nil _ _) ?_
      rw [List.forall₂_map_right_iff, List.forall₂_same]
      exact fun member _ => ⟨_, _, .refl _, .refl _, rfl⟩

theorem Padded.spellsValue {part t : Text} (padded : Padded part t) {ls : List Lexeme}
    (spells : SpellsValue part ls) : SpellsValue t ls := by
  obtain ⟨before, after, gapBefore, gapAfter, rfl⟩ := padded
  exact (gapBefore.spells.appendValue spells).appendGap gapAfter

theorem Padded.spells {part t : Text} (padded : Padded part t) {ls : List Lexeme}
    (spells : Spells part ls) : Spells t ls := by
  obtain ⟨before, after, gapBefore, gapAfter, rfl⟩ := padded
  have whole := (gapBefore.spells.append spells).append gapAfter.spells
  rwa [List.append_nil] at whole

theorem Bracketed.exists_inner {α : Type} {opening closing : Char} {layout : α → Text → Prop}
    {items : List α} {t : Text} (bracketed : Bracketed opening closing layout items t) :
    ∃ inner, t = opening :: (inner ++ [closing]) := by
  cases bracketed with
  | empty _ => exact ⟨_, rfl⟩
  | filled _ _ => exact ⟨_, rfl⟩

/-- What stands between brackets spells the lexemes of the items between those of the brackets. -/
theorem Bracketed.spells {α β : Type} {opening closing : Char} {layout : α → Text → Prop}
    {items : List α} {t : Text} (bracketed : Bracketed opening closing layout items t)
    {l l' : Lexeme} (opens : Spells [opening] [l]) (closes : Spells [closing] [l'])
    (delimiter : closing ∈ delimiters) {spells : α → β → Prop} (lexemes : β → List Lexeme)
    (item : ∀ a b part, layout a part → spells a b → SpellsValue part (lexemes b)) {parts : List β}
    (each : List.Forall₂ spells items parts) :
    Spells t (l :: (separated [.comma] (parts.map lexemes) ++ [l'])) := by
  cases bracketed with
  | empty gap =>
      cases each
      exact opens.append (gap.spells.append closes)
  | @filled _ texts _ layouts =>
      have values : List.Forall₂ SpellsValue texts (parts.map lexemes) := by
        rw [List.forall₂_map_right_iff]
        exact forall₂_of_forall₂ (fun a part b inLayout spells => item a b part inLayout spells)
          layouts each
      exact opens.append ((SpellsValue.intercalate values).ended delimiter closes)

/-- An array spells the lexemes of its elements, however it is laid out. -/
theorem spells_arrayLayout {items : List Text} {t : Text} (layout : ArrayLayout items t)
    {parts : List (List Lexeme)} (each : List.Forall₂ SpellsValue items parts) :
    Spells t (arrayLexemes parts) := by
  have whole := layout.spells (Mode.leads_one rfl : Spells ['['] [.openArray])
    (Mode.leads_one rfl : Spells [']'] [.closeArray]) (by decide) id
    (fun _ _ _ padded spells => padded.spellsValue spells) each
  rwa [List.map_id] at whole

/-- The text of a key and the text of a value spell the lexemes of a member. -/
def SpellsMember (member : Text × Text) (part : Except Fault Text × List Lexeme) : Prop :=
  Spells member.1 [.string part.1] ∧ SpellsValue member.2 part.2

theorem MemberLayout.spellsValue {member : Text × Text} {t : Text} (layout : MemberLayout member t)
    {part : Except Fault Text × List Lexeme} (spells : SpellsMember member part) :
    SpellsValue t (.string part.1 :: .colon :: part.2) := by
  obtain ⟨key, value, paddedKey, paddedValue, rfl⟩ := layout
  have colon : Spells [':'] [.colon] := Mode.leads_one rfl
  have second := colon.appendValue (paddedValue.spellsValue spells.2)
  exact (paddedKey.spells spells.1).appendValue second

/-- An object spells the lexemes of its members, however it is laid out. -/
theorem spells_objectLayout {members : List (Text × Text)} {t : Text}
    (layout : ObjectLayout members t) {parts : List (Except Fault Text × List Lexeme)}
    (each : List.Forall₂ SpellsMember members parts) : Spells t (keyedLexemes parts) :=
  layout.spells (Mode.leads_one rfl : Spells ['\x7b'] [.openObject])
    (Mode.leads_one rfl : Spells ['\x7d'] [.closeObject]) (by decide)
    (fun part : Except Fault Text × List Lexeme => .string part.1 :: .colon :: part.2)
    (fun _ _ _ member spells => member.spellsValue spells) each

end Compdb.Json
