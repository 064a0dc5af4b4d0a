/-
# Compdb.Yaml.Cursor — a place in a YAML text

Layout decides the structure of a YAML text, so a place is known by its line and column. The
characters which may stand in a text, and the classes of blanks and line breaks, are
those of YAML 1.1.
-/
import Compdb.Text.Basic

namespace Compdb.Yaml

set_option autoImplicit false

/-- Whether the character may stand in a text. -/
def isAllowed (c : Char) : Bool :=
  let n := c.toNat
  n == 0x09 || n == 0x0A || n == 0x0D || (0x20 ≤ n && n ≤ 0x7E) || n == 0x85
    || (0xA0 ≤ n && n ≤ 0xFFFD) || 0x10000 ≤ n

def isBlank (c : Char) : Bool :=
  c == ' ' || c == '\t'

def isBreak (c : Char) : Bool :=
  c == '\n' || c == '\r' || c == '\x85' || c == '\u2028' || c == '\u2029'

/-- The characters of anchors and tag handles. -/
def isWordChar (c : Char) : Bool :=
  c.isAlphanum || c == '_' || c == '-'

structure Cursor where
  /-- The characters from this place on. -/
  rest : Text
  line : Nat := 0
  column : Nat := 0
  /-- The number of characters before this place. -/
  index : Nat := 0
  deriving DecidableEq, Repr

namespace Cursor

def atEnd (c : Cursor) : Bool := c.rest.isEmpty

/-- The character some places further on. -/
def peek (c : Cursor) (ahead : Nat) : Option Char := c.rest[ahead]?

def sees (c : Cursor) (x : Char) : Bool := c.peek 0 == some x

def seesBlank (c : Cursor) : Bool := (c.peek 0).any isBlank

def seesBreak (c : Cursor) : Bool := (c.peek 0).any isBreak

/-- Whether a blank, a line break or the end stands some places further on. -/
def isBlankOrEnd (c : Cursor) (ahead : Nat) : Bool :=
  (c.peek ahead).all fun x => isBlank x || isBreak x

/-- Goes on by some characters, none of which is a line break. -/
def skip (c : Cursor) (n : Nat) : Cursor :=
  { c with rest := c.rest.drop n, column := c.column + n, index := c.index + n }

/-- Goes to the next line. A carriage return and a line feed are one line break. -/
def skipBreak (c : Cursor) : Cursor :=
  match c.rest with
  | '\r' :: '\n' :: rest => ⟨rest, c.line + 1, 0, c.index + 2⟩
  | _ :: rest => ⟨rest, c.line + 1, 0, c.index + 1⟩
  | [] => c

/-- What the line break here contributes to a scalar: a line feed, but for the separators of
Unicode, which stay. -/
def breakText (c : Cursor) : Text :=
  match c.rest with
  | '\u2028' :: _ => ['\u2028']
  | '\u2029' :: _ => ['\u2029']
  | x :: _ => if isBreak x then ['\n'] else []
  | [] => []

/-- The characters up to the first one which is not of the class. -/
def takeWhile (c : Cursor) (p : Char → Bool) : Text × Cursor :=
  let taken := c.rest.takeWhile p
  (taken, c.skip taken.length)

def skipComment (c : Cursor) : Cursor :=
  if c.sees '#' then (c.takeWhile fun x => !isBreak x).2 else c

/-- Whether one of the document marks stands here. -/
def seesMark (c : Cursor) (mark : Text) : Bool :=
  c.column == 0 && mark.isPrefixOf c.rest && c.isBlankOrEnd 3

def seesStart (c : Cursor) : Bool := c.seesMark ['-', '-', '-']

def seesStop (c : Cursor) : Bool := c.seesMark ['.', '.', '.']

end Cursor

end Compdb.Yaml
