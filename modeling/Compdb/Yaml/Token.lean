/-
# Compdb.Yaml.Token — the tokens of a flat YAML text

A flat text holds one mapping from scalars to scalars, in block or in flow layout. Its tokens
are those of YAML 1.1. A text with a nested collection is no flat text, so the indentation
is that of one mapping, and its tokens end where a second level would begin.

A key in front of its colon is only known as a key when the colon is met. Until then its
place is remembered; a key has to be on one line and at most 1024 characters long.
-/
import Compdb.Yaml.Scalar

namespace Compdb.Yaml

set_option autoImplicit false

inductive Token where
  | version (major minor : Nat)
  | tagHandle (handle start : Text)
  | documentStart
  | documentEnd
  | blockStart
  | blockEnd
  | flowStart
  | flowEnd
  | flowEntry
  | key
  | value
  | alias (name : Text)
  | anchor (name : Text)
  | tag (handle rest : Text)
  | scalar (text : Text) (isPlain : Bool)
  | textEnd
  deriving DecidableEq, Repr

/-- A place where a key may have begun. -/
structure KeyPlace where
  /-- The number of tokens before it. -/
  position : Nat
  line : Nat
  column : Nat
  index : Nat
  /-- Whether nothing but a key can stand there. -/
  isRequired : Bool
  deriving DecidableEq, Repr

/-- The state between two tokens. -/
structure Scan where
  cursor : Cursor
  /-- The tokens so far, the last one first. -/
  tokens : List Token := []
  /-- The column of the block mapping, while it goes on. -/
  mappingColumn : Option Nat := none
  inFlow : Bool := false
  /-- Whether a key may begin here. -/
  allowsKey : Bool := true
  /-- Where a key of the block mapping may have begun. -/
  blockKey : Option KeyPlace := none
  /-- Where a key of the flow mapping may have begun. -/
  flowKey : Option KeyPlace := none
  deriving Repr

namespace Scan

def emit (s : Scan) (t : Token) : Scan :=
  { s with tokens := t :: s.tokens }

/-- Inserts a token behind the first ones. -/
def insert (s : Scan) (position : Nat) (t : Token) : Scan :=
  let after := s.tokens.length - position
  { s with tokens := s.tokens.take after ++ t :: s.tokens.drop after }

/-- Skips blanks, comments and line breaks. A tab is no indentation, so it is not skipped where
a key may begin, but for a flow mapping. -/
def skipToToken (s : Scan) : Nat → Scan
  | 0 => s
  | fuel + 1 =>
      let c := s.cursor
      let c := if c.index == 0 && c.sees '\uFEFF' then c.skip 1 else c
      let allowsTabs := s.inFlow || !s.allowsKey
      let c := (c.takeWhile fun x => x == ' ' || (allowsTabs && x == '\t')).2.skipComment
      if c.seesBreak then
        skipToToken { s with cursor := c.skipBreak, allowsKey := s.allowsKey || !s.inFlow } fuel
      else { s with cursor := c }

/-- Whether the place of a key is out of reach from here. -/
def isStale (s : Scan) (k : KeyPlace) : Bool :=
  k.line < s.cursor.line || k.index + 1024 < s.cursor.index

/-- Forgets a place which is out of reach. -/
def dropStale (s : Scan) (k : Option KeyPlace) : Option (Option KeyPlace) :=
  match k with
  | none => some none
  | some k =>
      if !s.isStale k then some (some k) else if k.isRequired then none else some none

/-- Forgets the places of keys which are out of reach. -/
def dropStaleKeys (s : Scan) : Option Scan := do
  return { s with blockKey := ← s.dropStale s.blockKey, flowKey := ← s.dropStale s.flowKey }

/-- The place of a key which may have begun, on the present level. -/
def currentKey (s : Scan) : Option KeyPlace :=
  if s.inFlow then s.flowKey else s.blockKey

/-- Sets the place of a key on the present level. -/
def setKey (s : Scan) (k : Option KeyPlace) : Scan :=
  if s.inFlow then { s with flowKey := k } else { s with blockKey := k }

/-- Forgets the place of a key on the present level. -/
def removeKey (s : Scan) : Option Scan :=
  if s.currentKey.any KeyPlace.isRequired then none else some (s.setKey none)

/-- Remembers this place if a key may begin here. -/
def saveKey (s : Scan) : Option Scan :=
  if s.allowsKey then do
    let s ← s.removeKey
    let c := s.cursor
    return s.setKey (some
      { position := s.tokens.length, line := c.line, column := c.column, index := c.index
        isRequired := !s.inFlow && s.mappingColumn == some c.column })
  else some s

/-- Begins the block mapping with a key in the given column, or goes on with it. A second level
is refused. -/
def openMapping (s : Scan) (column position : Nat) : Option Scan :=
  if s.inFlow then some s
  else
    match s.mappingColumn with
    | none => some { s.insert position .blockStart with mappingColumn := some column }
    | some present => if present < column then none else some s

/-- Ends the block mapping before a column which is further to the left. -/
def closeMapping (s : Scan) (column : Nat) : Scan :=
  if !s.inFlow && s.mappingColumn.any (column < ·) then
    { s.emit .blockEnd with mappingColumn := none }
  else s

def endMapping (s : Scan) : Scan :=
  if s.mappingColumn.isSome then { s.emit .blockEnd with mappingColumn := none } else s

/-- Goes on behind a token. -/
def moveTo (s : Scan) (c : Cursor) : Scan :=
  { s with cursor := c }

def takeMark (s : Scan) (t : Token) : Option Scan := do
  let s ← s.endMapping.removeKey
  return { (s.emit t).moveTo (s.cursor.skip 3) with allowsKey := false }

/-- Hexadecimal digits behind a percent sign, for one ASCII character of a tag. -/
def percentChar? (c : Cursor) : Option Char := do
  let n ← hexValue ((c.rest.drop 1).take 2)
  if (c.rest.drop 1).length < 2 || 0x80 ≤ n then none else return Char.ofNat n

/-- The characters of a tag, the last one first, behind those taken before. A verbatim tag has
some more. -/
def takeTagChars (isVerbatim : Bool) (text : Text) : Nat → Cursor → Option (Text × Cursor)
  | 0, _ => none
  | fuel + 1, c =>
      match c.peek 0 with
      | none => some (text, c)
      | some '%' => do
          let x ← percentChar? c
          takeTagChars isVerbatim (x :: text) fuel (c.skip 3)
      | some x =>
          if isWordChar x || ";/?:@&=+$.!~*'()".toList.contains x
              || (isVerbatim && ",[]".toList.contains x) then
            takeTagChars isVerbatim (x :: text) fuel (c.skip 1)
          else some (text, c)

def readTagChars (isVerbatim : Bool) (c : Cursor) : Option (Text × Cursor) := do
  let (text, c) ← takeTagChars isVerbatim [] (c.rest.length + 1) c
  return (text.reverse, c)

/-- Reads a tag: in angle brackets, or with one of the handles, or without one. -/
def readTag (inFlow : Bool) (c : Cursor) : Option (Text × Text × Cursor) := do
  let (handle, rest, c) ← (do
    if c.peek 1 == some '<' then
      let (text, c) ← readTagChars true (c.skip 2)
      if text.isEmpty || !c.sees '>' then none
      return ([], text, c.skip 1)
    else
      let (word, d) := (c.skip 1).takeWhile isWordChar
      if d.sees '!' then
        let (text, d) ← readTagChars false (d.skip 1)
        if text.isEmpty then none
        return ('!' :: word ++ ['!'], text, d)
      else
        let (text, d) ← readTagChars false d
        let text := word ++ text
        if text.isEmpty then return ([], ['!'], d) else return (['!'], text, d))
  if c.isBlankOrEnd 0 || (inFlow && c.sees ',') then return (handle, rest, c) else none

def readAnchor (c : Cursor) : Option (Text × Cursor) :=
  let (name, c) := (c.skip 1).takeWhile isWordChar
  let isEnd := c.isBlankOrEnd 0
    || (c.peek 0).any fun x => ['?', ':', ',', ']', '\x7d', '%', '@', '\x60'].contains x
  if name.isEmpty || !isEnd then none else some (name, c)

def readVersionNumber (c : Cursor) : Option (Nat × Cursor) :=
  let (digits, c) := c.takeWhile Char.isDigit
  if digits.isEmpty || 9 < digits.length then none
  else some (digits.foldl (fun n d => n * 10 + (d.toNat - '0'.toNat)) 0, c)

/-- Reads the handle which a directive declares. -/
def readHandle (c : Cursor) : Option (Text × Cursor) :=
  if !c.sees '!' then none
  else
    let (word, c) := (c.skip 1).takeWhile isWordChar
    if c.sees '!' then some ('!' :: word ++ ['!'], c.skip 1)
    else if word.isEmpty then some (['!'], c)
    else none

/-- Reads a directive: the version of YAML, or a handle for tags. -/
def readDirective (c : Cursor) : Option (Token × Cursor) := do
  let (name, c) := (c.skip 1).takeWhile isWordChar
  if !c.isBlankOrEnd 0 then none
  let (_, c) := c.takeWhile isBlank
  let (t, c) ← (do
    if name == "YAML".toList then
      let (major, c) ← readVersionNumber c
      if !c.sees '.' then none
      let (minor, c) ← readVersionNumber (c.skip 1)
      return (Token.version major minor, c)
    else if name == "TAG".toList then
      let (handle, c) ← readHandle c
      if !c.seesBlank then none
      let (start, c) ← readTagChars true (c.takeWhile isBlank).2
      if start.isEmpty || !c.isBlankOrEnd 0 then none
      return (Token.tagHandle handle start, c)
    else none)
  let c := (c.takeWhile isBlank).2.skipComment
  if c.atEnd then return (t, c) else if c.seesBreak then return (t, c.skipBreak) else none

/-- A scalar or one of its properties, behind which no key may begin. -/
def takePart (s : Scan) (t : Token) (c : Cursor) : Option Scan :=
  some { (s.emit t).moveTo c with allowsKey := false }

def takeValue (s : Scan) : Option Scan := do
  let s ← (match s.currentKey with
    | some k => do
        let s ← (s.insert k.position .key).openMapping k.column k.position
        return { s.setKey none with allowsKey := false }
    | none =>
        if s.inFlow then some { s with allowsKey := false }
        else if s.allowsKey then s.openMapping s.cursor.column s.tokens.length
        else none)
  return (s.emit .value).moveTo (s.cursor.skip 1)

def takeKey (s : Scan) : Option Scan := do
  if !s.inFlow && !s.allowsKey then none
  let s ← s.openMapping s.cursor.column s.tokens.length
  let s ← s.removeKey
  return { (s.emit .key).moveTo (s.cursor.skip 1) with allowsKey := !s.inFlow }

def takeFlowStart (s : Scan) : Option Scan := do
  if s.inFlow || s.mappingColumn.isSome then none
  let s ← s.saveKey
  return { (s.emit .flowStart).moveTo (s.cursor.skip 1) with inFlow := true, allowsKey := true }

def takeFlowEnd (s : Scan) : Option Scan := do
  if !s.inFlow then none
  let s ← s.removeKey
  return { (s.emit .flowEnd).moveTo (s.cursor.skip 1) with inFlow := false, allowsKey := false }

def takeFlowEntry (s : Scan) : Option Scan := do
  if !s.inFlow then none
  let s ← s.removeKey
  return { (s.emit .flowEntry).moveTo (s.cursor.skip 1) with allowsKey := true }

def takeBlockScalar (s : Scan) (isFolded : Bool) : Option Scan := do
  let s ← s.removeKey
  let (text, c) ← readBlock isFolded s.mappingColumn s.cursor
  return { (s.emit (.scalar text false)).moveTo c with allowsKey := true }

def takePlain (s : Scan) : Option Scan := do
  let s ← s.saveKey
  let column := match s.mappingColumn with
    | some column => column + 1
    | none => 0
  let plain ← readPlain s.inFlow column s.cursor
  return { (s.emit (.scalar plain.text true)).moveTo plain.next with allowsKey := plain.endsLine }

/-- The characters which no plain scalar begins with. -/
def isIndicator (x : Char) : Bool :=
  ['-', '?', ':', ',', '[', ']', '\x7b', '\x7d', '#', '&', '*', '!', '|', '>', '\'', '"', '%',
    '@', '\x60'].contains x

/-- Whether a plain scalar begins here. Three indicators can begin one in front of a character
which is no blank, two of them only outside of a flow mapping. -/
def beginsPlain (s : Scan) (x : Char) : Bool :=
  let c := s.cursor
  !(isBlank x || isBreak x || isIndicator x)
    || (x == '-' && !(c.peek 1).any isBlank)
    || (!s.inFlow && (x == '?' || x == ':') && !c.isBlankOrEnd 1)

/-- Takes the token which begins with a character. -/
def takeToken (s : Scan) (x : Char) : Option Scan := do
  let c := s.cursor
  if c.column == 0 && x == '%' then
    let s ← s.endMapping.removeKey
    let (t, c) ← readDirective c
    return { (s.emit t).moveTo c with allowsKey := false }
  else if c.seesStart then s.takeMark .documentStart
  else if c.seesStop then s.takeMark .documentEnd
  else if x == '\x7b' then s.takeFlowStart
  else if x == '\x7d' then s.takeFlowEnd
  else if x == ',' then s.takeFlowEntry
  else if x == '-' && c.isBlankOrEnd 1 then none
  else if x == '?' && (s.inFlow || c.isBlankOrEnd 1) then s.takeKey
  else if x == ':' && (s.inFlow || c.isBlankOrEnd 1) then s.takeValue
  else if x == '*' then do
    let s ← s.saveKey
    let (name, c) ← readAnchor c
    s.takePart (.alias name) c
  else if x == '&' then do
    let s ← s.saveKey
    let (name, c) ← readAnchor c
    s.takePart (.anchor name) c
  else if x == '!' then do
    let s ← s.saveKey
    let (handle, rest, c) ← readTag s.inFlow c
    s.takePart (.tag handle rest) c
  else if x == '|' && !s.inFlow then s.takeBlockScalar false
  else if x == '>' && !s.inFlow then s.takeBlockScalar true
  else if x == '\'' || x == '"' then do
    let s ← s.saveKey
    let (text, c) ← readQuoted x c
    s.takePart (.scalar text false) c
  else if s.beginsPlain x then s.takePlain
  else none

def takeAll (s : Scan) : Nat → Option (List Token)
  | 0 => none
  | fuel + 1 => do
      let s ← (s.skipToToken (s.cursor.rest.length + 1)).dropStaleKeys
      let s := s.closeMapping s.cursor.column
      match s.cursor.peek 0 with
      | none =>
          let s ← s.endMapping.removeKey
          return (s.emit .textEnd).tokens.reverse
      | some x => (← s.takeToken x).takeAll fuel

end Scan

def tokens? (t : Text) : Option (List Token) :=
  if t.all isAllowed then ({ cursor := { rest := t } } : Scan).takeAll (t.length + 1) else none

end Compdb.Yaml
