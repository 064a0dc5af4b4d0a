/-
# Compdb.Json.Lexeme — the words of a JSON text

White space (space, tab, carriage return, line feed) separates lexemes and disappears. A
string and a number are judged twice: a strict reader wants their value, while a reader that
skims over them only needs their end. A string with a lone surrogate or with bytes that
are not UTF-8, or a number beyond the largest value, can be skimmed but not read. A value
which has no end, or which is no value at all, is the last lexeme.

The lexer is a machine over the pieces of the text.
-/
import Compdb.Json.Fault
import Compdb.Text.Utf8

namespace Compdb.Json

set_option autoImplicit false

open Utf8 (Piece)

/-- What a broken value began as. -/
inductive Form where
  | word
  | number
  | string
  deriving DecidableEq, Repr

/-- A word of a JSON text. -/
inductive Lexeme where
  | openArray
  | closeArray
  | openObject
  | closeObject
  | comma
  | colon
  | null
  | bool (value : Bool)
  /-- A complete string, with its text if it has one. -/
  | string (text : Except Fault Text)
  /-- A complete number, with its value if it has one. -/
  | number (value : Except Fault Number)
  /-- A value without an end: why it can be neither read nor skimmed. -/
  | broken (form : Form) (strict skimmed : Fault)
  | stray

/-- The white space of JSON. -/
def isSpace (c : Char) : Bool :=
  c == ' ' || c == '\t' || c == '\n' || c == '\r'

def hexDigit? (c : Char) : Option Nat :=
  if '0' ≤ c && c ≤ '9' then some (c.toNat - '0'.toNat)
  else if 'a' ≤ c && c ≤ 'f' then some (c.toNat - 'a'.toNat + 10)
  else if 'A' ≤ c && c ≤ 'F' then some (c.toNat - 'A'.toNat + 10)
  else none

def digit? (c : Char) : Option Nat :=
  if '0' ≤ c && c ≤ '9' then some (c.toNat - '0'.toNat) else none

/-- Where in a string the lexer is. -/
inductive StringPhase where
  | plain
  | escape
  /-- Behind the letter `u`: how many bytes were met, and the value of their digits unless one
  of them is no digit. -/
  | hex (bytes : Nat) (value : Option Nat)
  deriving DecidableEq, Repr

structure StringState where
  /-- The text so far, its last character first. -/
  content : Text := []
  /-- The first reason why the string has no text. -/
  fault : Option Fault := none
  /-- Whether the string has bytes which are not UTF-8. -/
  hasIllFormed : Bool := false
  /-- The first half of a pair of surrogates. -/
  high : Option Nat := none
  phase : StringPhase := .plain
  deriving DecidableEq, Repr

namespace StringState

/-- Notes a reason against the text; the first one stays. -/
def refuse (s : StringState) (f : Fault) : StringState :=
  { s with fault := s.fault.or (some f), high := none }

/-- Refuses the text when the first half of a pair stands alone. -/
def endPair (s : StringState) : StringState :=
  if s.high.isSome then s.refuse .malformed else s

def push (s : StringState) (c : Char) : StringState :=
  let s := s.endPair
  { s with content := c :: s.content, phase := .plain }

/-- Notes bytes which are not UTF-8. The text is refused for them at its end. -/
def pushIllFormed (s : StringState) : StringState :=
  { s.endPair with hasIllFormed := true }

/-- The text of a complete string. -/
def text (s : StringState) : Except Fault Text :=
  let s := s.endPair
  match s.fault with
  | some f => .error f
  | none => if s.hasIllFormed then .error .malformed else .ok s.content.reverse

def pushUnit (s : StringState) (n : Nat) : StringState :=
  let s := { s with phase := .plain }
  match s.high with
  | some high =>
      if 0xDC00 ≤ n && n ≤ 0xDFFF then
        let code := 0x10000 + (high - 0xD800) * 0x400 + (n - 0xDC00)
        { s with content := Char.ofNat code :: s.content, high := none }
      else s.refuse .malformed
  | none =>
      if 0xDC00 ≤ n && n ≤ 0xDFFF then s.refuse .malformed
      else if 0xD800 ≤ n && n ≤ 0xDBFF then { s with high := some n }
      else { s with content := Char.ofNat n :: s.content }

/-- The character for a letter behind a backslash. -/
def escaped? (c : Char) : Option Char :=
  match c with
  | '"' => some '"'
  | '\\' => some '\\'
  | '/' => some '/'
  | 'b' => some '\x08'
  | 'f' => some '\x0c'
  | 'n' => some '\n'
  | 'r' => some '\r'
  | 't' => some '\t'
  | _ => none

/-- How many bytes a piece has, and its hexadecimal digit. -/
def hexPiece : Piece → Nat × Option Nat
  | .char c => (c.utf8Size, hexDigit? c)
  | .illFormed bytes => (bytes.length, none)

/-- What one piece does to a string. -/
inductive Effect where
  | goesOn (s : StringState)
  | ends
  | breaks

/-- Takes the next piece of a string. An escape of four digits takes at least four bytes. -/
def step (s : StringState) (p : Piece) : Effect :=
  match s.phase with
  | .plain =>
      match p with
      | .illFormed _ => .goesOn s.pushIllFormed
      | .char c =>
          if c == '"' then .ends
          else if c == '\\' then .goesOn { s with phase := .escape }
          else if c.toNat < 0x20 then .breaks
          else .goesOn (s.push c)
  | .escape =>
      match p with
      | .illFormed _ => .breaks
      | .char c =>
          if c == 'u' then .goesOn { s with phase := .hex 0 (some 0) }
          else
            match escaped? c with
            | some c => .goesOn (s.push c)
            | none => .breaks
  | .hex bytes value =>
      let (size, digit) := hexPiece p
      let value := do return (← value) * 16 + (← digit)
      if bytes + size < 4 then .goesOn { s with phase := .hex (bytes + size) value }
      else
        match value with
        | some n => .goesOn (s.pushUnit n)
        | none => .breaks

end StringState

/-- Where in a number the lexer is. -/
inductive NumberPhase where
  | sign
  | zero
  | whole
  | point
  | fraction
  | exponent
  | exponentSign
  | exponentDigits
  deriving DecidableEq, Repr

structure NumberState where
  isNegative : Bool := false
  whole : List Nat := []
  fraction : List Nat := []
  hasNegativeExponent : Bool := false
  exponent : List Nat := []
  phase : NumberPhase
  deriving DecidableEq, Repr

namespace NumberState

/-- What one character does to a number. -/
inductive Effect where
  | goesOn (s : NumberState)
  | ended
  | breaks

def takeDigit (s : NumberState) (digit : Nat) : Effect :=
  match s.phase with
  | .sign => .goesOn { s with whole := [digit], phase := if digit == 0 then .zero else .whole }
  | .zero => .breaks
  | .whole => .goesOn { s with whole := digit :: s.whole }
  | .point | .fraction =>
      .goesOn { s with fraction := digit :: s.fraction, phase := .fraction }
  | .exponent | .exponentSign | .exponentDigits =>
      .goesOn { s with exponent := digit :: s.exponent, phase := .exponentDigits }

def takeOther (s : NumberState) (c : Char) : Effect :=
  match s.phase with
  | .zero | .whole =>
      if c == '.' then .goesOn { s with phase := .point }
      else if c == 'e' || c == 'E' then .goesOn { s with phase := .exponent }
      else .ended
  | .fraction =>
      if c == 'e' || c == 'E' then .goesOn { s with phase := .exponent } else .ended
  | .exponent =>
      if c == '+' then .goesOn { s with phase := .exponentSign }
      else if c == '-' then
        .goesOn { s with hasNegativeExponent := true, phase := .exponentSign }
      else .breaks
  | .exponentDigits => .ended
  | .sign | .point | .exponentSign => .breaks

def isComplete (s : NumberState) : Bool :=
  match s.phase with
  | .zero | .whole | .fraction | .exponentDigits => true
  | _ => false

def step (s : NumberState) : Piece → Effect
  | .char c =>
      match digit? c with
      | some digit => s.takeDigit digit
      | none => s.takeOther c
  | .illFormed _ => if s.isComplete then .ended else .breaks

def text (s : NumberState) : NumberText where
  isNegative := s.isNegative
  whole := s.whole.reverse
  fraction := if s.fraction.isEmpty then none else some s.fraction.reverse
  exponent :=
    if s.exponent.isEmpty then none else some (s.hasNegativeExponent, s.exponent.reverse)

def lexeme (s : NumberState) : Lexeme :=
  .number (match s.text.value with
    | some n => .ok n
    | none => .error .malformed)

end NumberState

/-- Where the lexer is between two pieces. -/
inductive Mode where
  | between
  | inString (s : StringState)
  | inNumber (s : NumberState)
  /-- Within a word, with the letters to come. -/
  | inWord (missing : Text) (lexeme : Lexeme)
  /-- Behind a lexeme which is the last one. -/
  | stopped

/-- The last lexeme of a text. -/
def lastWith (l : Lexeme) : List Lexeme × Mode :=
  ([l], .stopped)

/-- What a piece between two lexemes begins. -/
def beginLexeme : Piece → List Lexeme × Mode
  | .illFormed _ => lastWith .stray
  | .char c =>
      if isSpace c then ([], .between)
      else
        match c with
        | '[' => ([.openArray], .between)
        | ']' => ([.closeArray], .between)
        | '\x7b' => ([.openObject], .between)
        | '\x7d' => ([.closeObject], .between)
        | ',' => ([.comma], .between)
        | ':' => ([.colon], .between)
        | '"' => ([], .inString {})
        | '-' => ([], .inNumber { isNegative := true, phase := .sign })
        | 'n' => ([], .inWord "ull".toList .null)
        | 't' => ([], .inWord "rue".toList (.bool true))
        | 'f' => ([], .inWord "alse".toList (.bool false))
        | c =>
            match digit? c with
            | some digit =>
                ([], .inNumber
                  { whole := [digit], phase := if digit == 0 then .zero else .whole })
            | none => lastWith .stray

def Mode.step (m : Mode) (p : Piece) : List Lexeme × Mode :=
  match m with
  | .between => beginLexeme p
  | .stopped => ([], .stopped)
  | .inString s =>
      match s.step p with
      | .goesOn s => ([], .inString s)
      | .ends => ([.string s.text], .between)
      | .breaks => lastWith (.broken .string (s.fault.getD .malformed) .malformed)
  | .inNumber s =>
      match s.step p with
      | .goesOn s => ([], .inNumber s)
      | .ended =>
          let (lexemes, m) := beginLexeme p
          (s.lexeme :: lexemes, m)
      | .breaks => lastWith (.broken .number .malformed .malformed)
  | .inWord [] l =>
      let (lexemes, m) := beginLexeme p
      (l :: lexemes, m)
  | .inWord (c :: missing) l =>
      if p == .char c then
        if missing.isEmpty then ([l], .between) else ([], .inWord missing l)
      else lastWith (.broken .word .malformed .malformed)

/-- The lexemes at the end of the text. -/
def Mode.finish : Mode → List Lexeme
  | .between => []
  | .stopped => []
  | .inString s => [.broken .string (s.fault.getD .truncated) .truncated]
  | .inNumber s =>
      if s.isComplete then [s.lexeme] else [.broken .number .truncated .malformed]
  | .inWord [] l => [l]
  | .inWord _ _ => [.broken .word .truncated .truncated]

def Mode.lex (m : Mode) : List Piece → List Lexeme
  | [] => m.finish
  | p :: rest =>
      let (lexemes, m) := m.step p
      lexemes ++ m.lex rest

def lex (pieces : List Piece) : List Lexeme :=
  Mode.between.lex pieces

end Compdb.Json
