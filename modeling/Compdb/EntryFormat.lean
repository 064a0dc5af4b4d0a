/-
# Compdb.EntryFormat — compilation databases as JSON texts

A database is an array of objects with the keys `directory`, `file` and `arguments`. When
it is read, these keys can stand in any order among others, whose values are skimmed, or
an entry can be an array of its three fields. All entries are read before the first one
is validated. A database is written with two spaces for each level of nesting.
-/
import Compdb.Entry
import Compdb.Json.Reader

namespace Compdb.EntryFormat

set_option autoImplicit false

open Json (Fault Lexeme Reader)

def directoryKey : Text := "directory".toList

def fileKey : Text := "file".toList

def argumentsKey : Text := "arguments".toList

/-- The fields of an entry which were met. -/
structure Fields where
  directory : Option Text := none
  file : Option Text := none
  arguments : Option (List Text) := none
  deriving DecidableEq, Repr

/-- Refuses a field which was met before. -/
def unlessRepeated {α : Type} (name : Text) (before : Option α) : Except Fault Unit :=
  if before.isSome then .error (.mismatch (.duplicateField name)) else .ok ()

def text : Reader Text :=
  Reader.string "a string".toList

/-- Takes a member of an entry. A repeated field is refused before its value is looked at. -/
def member (fields : Fields) (key : Text) : Reader Fields := fun lexemes =>
  if key == directoryKey then do
    unlessRepeated directoryKey fields.directory
    let (t, rest) ← Reader.afterColon text lexemes
    .ok ({ fields with directory := some t }, rest)
  else if key == fileKey then do
    unlessRepeated fileKey fields.file
    let (t, rest) ← Reader.afterColon text lexemes
    .ok ({ fields with file := some t }, rest)
  else if key == argumentsKey then do
    unlessRepeated argumentsKey fields.arguments
    let (ts, rest) ← Reader.afterColon (Reader.array text) lexemes
    .ok ({ fields with arguments := some ts }, rest)
  else do
    let (_, rest) ← Reader.afterColon Json.Builder.skim.read lexemes
    .ok (fields, rest)

/-- A field which has to be there. -/
def required {α : Type} (name : Text) : Option α → Except Fault α
  | some a => .ok a
  | none => .error (.mismatch (.missingField name))

/-- The entry, when no field is missing. -/
def Fields.entry (fields : Fields) : Except Fault Entry := do
  let directory ← required directoryKey fields.directory
  let file ← required fileKey fields.file
  let arguments ← required argumentsKey fields.arguments
  .ok ⟨directory, file, arguments⟩

/-- The element of an entry which is written as an array. -/
def element {α : Type} (position : Nat) (read : Reader α) : Reader α := fun lexemes => do
  match ← Reader.nextItem (position == 0) lexemes with
  | .closed _ =>
      .error (.mismatch (.wrongLength position "struct Entry with 3 elements".toList))
  | .item () rest => read rest

/-- The end of an entry which is written as an array. -/
def arrayEnd : Reader Unit
  | [] => .error .truncated
  | .closeArray :: rest => .ok ((), rest)
  | _ => .error .malformed

def entry : Reader Entry
  | .openObject :: rest => do
      let (fields, rest) ← Reader.members member (rest.length + 1) true {} rest
      .ok (← fields.entry, rest)
  | .openArray :: rest => do
      let (directory, rest) ← element 0 text rest
      let (file, rest) ← element 1 text rest
      let (arguments, rest) ← element 2 (Reader.array text) rest
      let (_, rest) ← arrayEnd rest
      .ok (⟨directory, file, arguments⟩, rest)
  | lexemes => .error (Reader.unexpected "struct Entry".toList lexemes)

/-- Reads the lexemes of a database. -/
def entriesOfLexemes (lexemes : List Lexeme) : Except Fault (List Entry) := do
  let (entries, rest) ← Reader.array entry lexemes
  Reader.atEnd entries rest

/-- Reads a database, without validating its entries. -/
def parse (bytes : List UInt8) : Except Fault (List Entry) :=
  entriesOfLexemes (Json.lex (Utf8.decode bytes))

/-- A character within a JSON string. Quotes, backslashes and controls are escaped. -/
def escapedChar (c : Char) : Text :=
  match c with
  | '"' => ['\\', '"']
  | '\\' => ['\\', '\\']
  | '\x08' => ['\\', 'b']
  | '\x0c' => ['\\', 'f']
  | '\n' => ['\\', 'n']
  | '\r' => ['\\', 'r']
  | '\t' => ['\\', 't']
  | c =>
      if c.toNat < 0x20 then
        "\\u00".toList ++ [Nat.digitChar (c.toNat / 16), Nat.digitChar (c.toNat % 16)]
      else [c]

def renderString (t : Text) : Text :=
  '"' :: t.flatMap escapedChar ++ ['"']

/-- A line break and two spaces for each level. -/
def newLine (level : Nat) : Text :=
  '\n' :: List.replicate (2 * level) ' '

/-- Items between two brackets, each on a line of its own; nothing stands between the brackets
when there are no items. -/
def renderItems (opening closing : Char) (level : Nat) : List Text → Text
  | [] => [opening, closing]
  | items =>
      opening :: newLine (level + 1) ++ (',' :: newLine (level + 1)).intercalate items
        ++ newLine level ++ [closing]

def renderMember (key value : Text) : Text :=
  renderString key ++ ": ".toList ++ value

/-- An entry, at the second level. -/
def renderEntry (e : Entry) : Text :=
  renderItems '\x7b' '\x7d' 1
    [renderMember directoryKey (renderString e.directory),
     renderMember fileKey (renderString e.file),
     renderMember argumentsKey (renderItems '[' ']' 2 (e.arguments.map renderString))]

def render (entries : List Entry) : Text :=
  renderItems '[' ']' 0 (entries.map renderEntry) ++ ['\n']

end Compdb.EntryFormat
