/-
# Compdb.Yaml.Written — texts as scalars of a YAML text

A text is written plainly when it reads back as the same text for every reader: otherwise in
single quotes, as a literal block when it has line feeds, or in double quotes when only
escapes can show it.
-/
import Compdb.Text.Ascii
import Compdb.Text.Quoted
import Compdb.Yaml.Cursor

namespace Compdb.Yaml.Written

set_option autoImplicit false

/-- The texts which some reader takes for a value of another kind, in lower case. -/
def ambiguousWords : List Text :=
  ["y".toList, "yes".toList, "n".toList, "no".toList, "on".toList, "off".toList, "true".toList,
   "false".toList, "null".toList, "nil".toList, "nan".toList, "~".toList]

/-- Whether some reader takes the text for a value of another kind: nothing, a null value, a truth
value, a number or a date. -/
def isAmbiguous (t : Text) : Bool :=
  match t with
  | [] => true
  | c :: _ => c.isDigit || c == '-' || c == '.' || c == '+'
      || ambiguousWords.contains (Text.foldCase t)

/-- Whether the character can be written as it is. -/
def isPrintable (c : Char) : Bool :=
  let n := c.toNat
  c == '\n' || (0x20 ≤ n && n ≤ 0x7E) || (0xA0 ≤ n && n ≤ 0xFFFD && n != 0xFEFF) || 0x10000 ≤ n

/-- Whether some two neighbours are of these two classes. -/
def hasNeighbours (p q : Char → Bool) : Text → Bool
  | c :: d :: rest => (p c && q d) || hasNeighbours p q (d :: rest)
  | _ => false

/-- Whether a blank or a line break begins the text, or it is empty. -/
def beginsBlank (t : Text) : Bool :=
  t.head?.all fun c => isBlank c || isBreak c

/-- Whether the first character has a meaning of its own there. -/
def beginsSpecial (t : Text) : Bool :=
  match t with
  | [] => false
  | c :: rest =>
      [',', '[', ']', '\x7b', '\x7d', '#', '&', '*', '!', '|', '>', '\'', '"', '%', '@',
        '\x60'].contains c
        || ((c == '?' || c == ':' || c == '-') && beginsBlank rest)

/-- Whether a colon in front of a blank or the end, or a number sign behind a blank, follows the
first character. -/
def hasSpecial : Text → Bool
  | c :: d :: rest =>
      (d == ':' && beginsBlank rest) || (d == '#' && (isBlank c || isBreak c))
        || hasSpecial (d :: rest)
  | _ => false

/-- Whether the text cannot be written without escapes. -/
def needsEscapes (t : Text) : Bool :=
  t.any (fun c => !isPrintable c) || hasNeighbours (· == ' ') isBreak t

/-- Whether a text without quotes can be plain. -/
def allowsPlain (t : Text) : Bool :=
  !(needsEscapes t || t.any isBreak || t.head? == some ' ' || t.getLast? == some ' '
    || beginsSpecial t || hasSpecial t || ['-', '-', '-'].isPrefixOf t
    || ['.', '.', '.'].isPrefixOf t)

def allowsSingleQuotes (t : Text) : Bool :=
  !(needsEscapes t || hasNeighbours isBreak (· == ' ') t)

def allowsBlock (t : Text) : Bool :=
  !(t.isEmpty || needsEscapes t || t.getLast? == some ' ')

/-- The letter which stands for a character behind a backslash. -/
def escapeLetter? (c : Char) : Option Char :=
  match c with
  | '\x00' => some '0'
  | '\x07' => some 'a'
  | '\x08' => some 'b'
  | '\t' => some 't'
  | '\n' => some 'n'
  | '\x0b' => some 'v'
  | '\x0c' => some 'f'
  | '\r' => some 'r'
  | '\x1b' => some 'e'
  | '"' => some '"'
  | '\\' => some '\\'
  | '\x85' => some 'N'
  | '\xa0' => some '_'
  | '\u2028' => some 'L'
  | '\u2029' => some 'P'
  | _ => none

def hexDigits (width n : Nat) : Text :=
  let digits := (Text.hex n).map Char.toUpper
  List.replicate (width - digits.length) '0' ++ digits

/-- A character within double quotes. -/
def doubleQuotedChar (c : Char) : Text :=
  if isPrintable c && !isBreak c && c != '"' && c != '\\' then [c]
  else
    match escapeLetter? c with
    | some letter => ['\\', letter]
    | none =>
        let n := c.toNat
        if n ≤ 0xFF then ['\\', 'x'] ++ hexDigits 2 n
        else if n ≤ 0xFFFF then ['\\', 'u'] ++ hexDigits 4 n
        else ['\\', 'U'] ++ hexDigits 8 n

def doubleQuoted (t : Text) : Text :=
  '"' :: t.flatMap doubleQuotedChar ++ ['"']

/-- The lines of a scalar, each behind the indentation of a value but for the empty ones. -/
def indented (atLineStart : Bool) : Text → Text
  | [] => []
  | c :: rest =>
      if isBreak c then c :: indented true rest
      else if atLineStart then ' ' :: ' ' :: c :: indented false rest
      else c :: indented false rest

/-- The text in single quotes, a quote within it written twice. -/
def singleQuoted (t : Text) : Text :=
  '\'' :: (indented false t).flatMap (fun c => if c == '\'' then ['\'', '\''] else [c])
    ++ ['\'']

/-- What states how the line breaks at the end of a literal block are meant. -/
def chompingMark (t : Text) : Text :=
  match t.reverse with
  | c :: rest =>
      if !isBreak c then ['-']
      else
        match rest with
        | [] => ['+']
        | d :: _ => if isBreak d then ['+'] else []
  | [] => ['-']

/-- The text as a literal block. The indentation is stated when the first line does not show
it. -/
def literal (t : Text) : Text :=
  let mark := if t.head?.any (fun c => c == ' ' || isBreak c) then ['2'] else []
  '|' :: mark ++ chompingMark t ++ '\n' :: indented true t

def value (t : Text) : Text :=
  if t.contains '\n' then if allowsBlock t then literal t else doubleQuoted t
  else if !isAmbiguous t && allowsPlain t then t
  else if allowsSingleQuotes t then singleQuoted t
  else doubleQuoted t

/-- A member of a block mapping, with its line end. -/
def member (key text : Text) : Text :=
  let written := value text
  let line := key ++ ": ".toList ++ written
  if line.getLast? == some '\n' then line else line ++ ['\n']

end Compdb.Yaml.Written
