/-
# Compdb.Yaml.Scalar — scalars in their five styles

Each reader takes a scalar at a place and gives its text and the place behind it; there is
no result when the text is not a scalar of that style. Lines of flow scalars are folded: a
single break is a space, and of more breaks the first one disappears.
-/
import Compdb.Yaml.Cursor

namespace Compdb.Yaml

set_option autoImplicit false

/-- The blanks and line breaks between two words of a flow scalar. -/
structure Gap where
  /-- The blanks before the first line break, the last one first. -/
  blanks : Text := []
  /-- The first line break, if there is one; it can be nothing when it was escaped. -/
  first : Option Text := none
  /-- The line breaks after the first one. -/
  others : Text := []
  deriving DecidableEq, Repr

namespace Gap

/-- What the gap contributes to the text. -/
def text (g : Gap) : Text :=
  match g.first with
  | none => g.blanks.reverse
  | some ['\n'] => if g.others.isEmpty then [' '] else g.others
  | some first => first ++ g.others

/-- Takes blanks and line breaks. A tab before the given column is refused at the start of a
line. -/
def take (g : Gap) (column : Nat) : Nat → Cursor → Option (Gap × Cursor)
  | 0, _ => none
  | fuel + 1, c =>
      if c.seesBlank then
        if g.first.isSome then
          if c.sees '\t' && c.column < column then none else g.take column fuel (c.skip 1)
        else take { g with blanks := (c.peek 0).toList ++ g.blanks } column fuel (c.skip 1)
      else if c.seesBreak then
        match g.first with
        | none => take { g with blanks := [], first := some c.breakText } column fuel c.skipBreak
        | some _ => take { g with others := g.others ++ c.breakText } column fuel c.skipBreak
      else some (g, c)

end Gap

/-- Where a word of a plain scalar ends, besides blanks and line breaks. -/
def endsPlain (inFlow : Bool) (c : Cursor) : Bool :=
  (c.sees ':' && c.isBlankOrEnd 1)
    || (inFlow && (c.peek 0).any fun x => [',', '[', ']', '\x7b', '\x7d'].contains x)

/-- The characters of a word of a plain scalar, the last one first, behind those taken before. In
a flow mapping a colon directly before an indicator is refused. -/
def plainWord (inFlow : Bool) (word : Text) : Nat → Cursor → Option (Text × Cursor)
  | 0, _ => none
  | fuel + 1, c =>
      match c.peek 0 with
      | none => some (word, c)
      | some x =>
          if isBlank x || isBreak x then some (word, c)
          else if inFlow && x == ':'
              && (c.peek 1).any (fun y => [',', '?', '[', ']', '\x7b', '\x7d'].contains y) then
            none
          else if endsPlain inFlow c then some (word, c)
          else plainWord inFlow (x :: word) fuel (c.skip 1)

/-- A plain scalar: its text, whether a line break follows it, and the place behind the blanks
after it. -/
structure Plain where
  text : Text
  endsLine : Bool
  next : Cursor
  deriving DecidableEq, Repr

/-- Reads the words of a plain scalar; the text so far has its last character first. Lines before
the given column do not belong to it. -/
def plainWords (inFlow : Bool) (column : Nat) (text : Text) (gap : Gap) :
    Nat → Cursor → Option Plain
  | 0, _ => none
  | fuel + 1, c => do
      let stop : Plain := ⟨text.reverse, gap.first.isSome, c⟩
      if c.seesStart || c.seesStop || c.sees '#' then return stop
      let (word, c) ← plainWord inFlow [] (c.rest.length + 1) c
      if word.isEmpty then return stop
      let text := word ++ gap.text.reverse ++ text
      if !(c.seesBlank || c.seesBreak) then return ⟨text.reverse, false, c⟩
      let (gap, c) ← Gap.take {} column (c.rest.length + 1) c
      if !inFlow && c.column < column then return ⟨text.reverse, gap.first.isSome, c⟩
      plainWords inFlow column text gap fuel c

def readPlain (inFlow : Bool) (column : Nat) (c : Cursor) : Option Plain :=
  plainWords inFlow column [] {} (c.rest.length + 1) c

/-- The character for a letter behind a backslash. -/
def escaped? (c : Char) : Option Char :=
  match c with
  | '0' => some '\x00'
  | 'a' => some '\x07'
  | 'b' => some '\x08'
  | 't' => some '\t'
  | '\t' => some '\t'
  | 'n' => some '\n'
  | 'v' => some '\x0b'
  | 'f' => some '\x0c'
  | 'r' => some '\r'
  | 'e' => some '\x1b'
  | ' ' => some ' '
  | '"' => some '"'
  | '/' => some '/'
  | '\\' => some '\\'
  | 'N' => some '\x85'
  | '_' => some '\xa0'
  | 'L' => some '\u2028'
  | 'P' => some '\u2029'
  | _ => none

/-- How many hexadecimal digits follow a letter behind a backslash. -/
def escapeWidth? (c : Char) : Option Nat :=
  match c with
  | 'x' => some 2
  | 'u' => some 4
  | 'U' => some 8
  | _ => none

def hexDigit? (c : Char) : Option Nat :=
  if c.isDigit then some (c.toNat - '0'.toNat)
  else if 'a' ≤ c && c ≤ 'f' then some (c.toNat - 'a'.toNat + 10)
  else if 'A' ≤ c && c ≤ 'F' then some (c.toNat - 'A'.toNat + 10)
  else none

def hexValue (digits : Text) : Option Nat :=
  digits.foldlM (fun n c => (hexDigit? c).map (n * 16 + ·)) 0

def readEscape (c : Cursor) : Option (Char × Cursor) := do
  let letter ← c.peek 0
  match escaped? letter with
  | some x => return (x, c.skip 1)
  | none =>
      let width ← escapeWidth? letter
      let digits := (c.rest.drop 1).take width
      if digits.length < width then none
      let n ← hexValue digits
      if n.isValidChar then return (Char.ofNat n, c.skip (width + 1)) else none

/-- A word of a quoted scalar: its characters with the last one first, and whether an escaped line
break ended it. -/
def quotedWord (quote : Char) (word : Text) : Nat → Cursor → Option (Text × Bool × Cursor)
  | 0, _ => none
  | fuel + 1, c =>
      match c.peek 0 with
      | none => some (word, false, c)
      | some x =>
          if isBlank x || isBreak x then some (word, false, c)
          else if quote == '\'' && x == '\'' && c.peek 1 == some '\'' then
            quotedWord quote ('\'' :: word) fuel (c.skip 2)
          else if x == quote then some (word, false, c)
          else if quote == '"' && x == '\\' then
            if (c.peek 1).any isBreak then some (word, true, (c.skip 1).skipBreak)
            else
              match readEscape (c.skip 1) with
              | none => none
              | some (y, c) => quotedWord quote (y :: word) fuel c
          else quotedWord quote (x :: word) fuel (c.skip 1)

/-- Reads a quoted scalar, behind its first quote; the text so far has its last character
first. -/
def quotedWords (quote : Char) (text : Text) : Nat → Cursor → Option (Text × Cursor)
  | 0, _ => none
  | fuel + 1, c => do
      if c.seesStart || c.seesStop || c.atEnd then none
      let (word, hasEscapedBreak, c) ← quotedWord quote [] (c.rest.length + 1) c
      let text := word ++ text
      if c.sees quote then return (text.reverse, c.skip 1)
      let gap : Gap := if hasEscapedBreak then { first := some [] } else {}
      let (gap, c) ← gap.take 0 (c.rest.length + 1) c
      quotedWords quote (gap.text.reverse ++ text) fuel c

def readQuoted (quote : Char) (c : Cursor) : Option (Text × Cursor) :=
  quotedWords quote [] (c.rest.length + 1) (c.skip 1)

/-- What happens to the line breaks at the end of a block scalar. -/
inductive Chomping where
  | strip
  | clip
  | keep
  deriving DecidableEq, Repr

/-- The header of a block scalar: its chomping, and the indentation it states. -/
structure BlockHeader where
  chomping : Chomping := .clip
  indentation : Option Nat := none
  deriving DecidableEq, Repr

/-- The chomping which a character states. -/
def chomping? (c : Char) : Option Chomping :=
  if c == '+' then some .keep else if c == '-' then some .strip else none

/-- The indentation which a character states. -/
def indentation? (c : Char) : Option Nat :=
  if c.isDigit && c != '0' then some (c.toNat - '0'.toNat) else none

/-- Reads the header of a block scalar up to the end of its line: at most one chomping and at most
one indentation, in any order. -/
def readBlockHeader (c : Cursor) : Option (BlockHeader × Cursor) :=
  let (header, c) : BlockHeader × Cursor :=
    match (c.peek 0).bind chomping?, (c.peek 0).bind indentation? with
    | some chomping, _ =>
        match (c.peek 1).bind indentation? with
        | some n => (⟨chomping, some n⟩, c.skip 2)
        | none => (⟨chomping, none⟩, c.skip 1)
    | none, some n =>
        match (c.peek 1).bind chomping? with
        | some chomping => (⟨chomping, some n⟩, c.skip 2)
        | none => (⟨.clip, some n⟩, c.skip 1)
    | none, none => ({}, c)
  let c := (c.takeWhile isBlank).2.skipComment
  if c.atEnd then some (header, c)
  else if c.seesBreak then some (header, c.skipBreak)
  else none

structure EmptyLines where
  breaks : Text := []
  /-- The largest column met. -/
  widest : Nat := 0
  next : Cursor
  deriving DecidableEq, Repr

/-- Takes empty lines and the indentation of the line after them, which is not known before the
first line. A tab within the indentation is refused. -/
def takeEmptyLines (indentation : Option Nat) (lines : EmptyLines) : Nat → Option EmptyLines
  | 0 => none
  | fuel + 1 =>
      let spaces := (lines.next.rest.takeWhile (· == ' ')).length
      let c := lines.next.skip (match indentation with
        | none => spaces
        | some n => min spaces (n - lines.next.column))
      let isWithin := indentation.all (c.column < ·)
      if isWithin && c.sees '\t' then none
      else
        let lines := { lines with widest := max lines.widest c.column, next := c }
        if c.seesBreak then
          takeEmptyLines indentation
            { lines with breaks := lines.breaks ++ c.breakText, next := c.skipBreak } fuel
        else some lines

/-- The text of a block scalar while it is read. -/
structure BlockText where
  /-- The text so far. -/
  text : Text := []
  /-- The break at the end of the last line. -/
  lastBreak : Text := []
  /-- The breaks of the empty lines after it. -/
  emptyLines : Text := []
  /-- Whether the last line began with a blank. -/
  wasIndented : Bool := false
  deriving DecidableEq, Repr

/-- Reads the lines of a block scalar. A folded one joins lines which do not begin with a
blank. -/
def blockLines (isFolded : Bool) (indentation : Nat) (b : BlockText) :
    Nat → Cursor → Option (BlockText × Cursor)
  | 0, _ => none
  | fuel + 1, c => do
      if c.column != indentation || c.atEnd then return (b, c)
      let isIndented := c.seesBlank
      let joint :=
        if isFolded && b.lastBreak == ['\n'] && !b.wasIndented && !isIndented then
          if b.emptyLines.isEmpty then [' '] else []
        else b.lastBreak
      let (line, c) := c.takeWhile fun x => !isBreak x
      let text := b.text ++ joint ++ b.emptyLines ++ line
      let lastBreak := c.breakText
      let lines ← takeEmptyLines (some indentation) { next := c.skipBreak } (c.rest.length + 1)
      blockLines isFolded indentation ⟨text, lastBreak, lines.breaks, isIndented⟩ fuel lines.next

/-- Reads a block scalar, within a mapping whose keys stand in the given column. -/
def readBlock (isFolded : Bool) (keyColumn : Option Nat) (c : Cursor) :
    Option (Text × Cursor) := do
  let (header, c) ← readBlockHeader (c.skip 1)
  let least := match keyColumn with
    | some column => column + 1
    | none => 1
  let stated := header.indentation.map fun n => keyColumn.getD 0 + n
  let lines ← takeEmptyLines stated { next := c } (c.rest.length + 1)
  let indentation := stated.getD (max lines.widest least)
  let (b, c) ← blockLines isFolded indentation { emptyLines := lines.breaks }
    (c.rest.length + 1) lines.next
  let text := match header.chomping with
    | .strip => b.text
    | .clip => b.text ++ b.lastBreak
    | .keep => b.text ++ b.lastBreak ++ b.emptyLines
  return (text, c)

end Compdb.Yaml
