/-
# Compdb.EventFormat — build events as lines of JSON

Each line which is not blank holds one event: an object with its `type` at any position
among its fields, or an array which begins with the type. The whole value is read before
the fields are looked at, since the type decides what they mean; only the type itself is
judged at once.
-/
import Compdb.Event
import Compdb.FileTree
import Compdb.Json.Reader

namespace Compdb.EventFormat

set_option autoImplicit false

open Json (Fault Lexeme Reader Value)

inductive Kind where
  | taskCommandLine
  | environment
  deriving DecidableEq, Repr

def Kind.name : Kind → Text
  | .taskCommandLine => "task_command_line".toList
  | .environment => "environment".toList

def Kind.ofName (name : Text) : Except Fault Kind :=
  if name == Kind.taskCommandLine.name then .ok .taskCommandLine
  else if name == Kind.environment.name then .ok .environment
  else
    .error (.mismatch (.unknownVariant name
      ("\x60".toList ++ Kind.taskCommandLine.name ++ "\x60 or \x60".toList
        ++ Kind.environment.name ++ ['\x60'])))

def typeKey : Text := "type".toList

def taskNameKey : Text := "task_name".toList

def commandLineKey : Text := "command_line".toList

def projectFileKey : Text := "project_file".toList

def variablesKey : Text := "variables".toList

/-- How deep the values within an event can be nested. -/
def fieldDepth : Nat := 126

/-- The fields of an event, as they are written. -/
inductive Body where
  | members (members : List (Text × Value))
  | items (items : List Value)
  deriving Repr

def kind : Reader Kind := fun lexemes => do
  let (name, rest) ← Reader.string "variant identifier".toList lexemes
  .ok (← Kind.ofName name, rest)

/-- The parts of an event which were met; the members are kept with the last one first. -/
structure Parts where
  kind : Option Kind := none
  members : List (Text × Value) := []
  deriving Repr

def field : Reader Value :=
  (Json.Builder.value fieldDepth).read

def member (parts : Parts) (key : Text) : Reader Parts := fun lexemes =>
  if key == typeKey then
    if parts.kind.isSome then .error (.mismatch (.duplicateField typeKey))
    else do
      let (k, rest) ← Reader.afterColon kind lexemes
      .ok ({ parts with kind := some k }, rest)
  else do
    let (v, rest) ← Reader.afterColon field lexemes
    .ok ({ parts with members := (key, v) :: parts.members }, rest)

/-- Reads the kind of an event and the values of its fields. -/
def body : Reader (Kind × Body)
  | .openObject :: rest => do
      let (parts, rest) ← Reader.members member (rest.length + 1) true {} rest
      match parts.kind with
      | some k => .ok ((k, .members parts.members.reverse), rest)
      | none => .error (.mismatch (.missingField typeKey))
  | .openArray :: rest => do
      match ← Reader.nextItem true rest with
      | .closed _ => .error (.mismatch (.missingField typeKey))
      | .item () rest =>
          let (k, rest) ← kind rest
          let (reversed, rest) ← Reader.items
            (fun sofar lexemes => (field lexemes).map fun (v, rest) => (v :: sofar, rest))
            (rest.length + 1) false [] rest
          .ok ((k, .items reversed.reverse), rest)
  | lexemes => .error (Reader.unexpected "internally tagged enum Event".toList lexemes)

/-- A value which is not of the expected shape. -/
def wrongType {α : Type} (v : Value) (expected : Text) : Except Fault α :=
  .error (.mismatch (.wrongType v.found expected))

def textOf : Value → Except Fault Text
  | .string t => .ok t
  | v => wrongType v "a string".toList

/-- The variables of a field. Of a repeated name the last value stays. -/
def variablesOf : Value → Except Fault Environment
  | .object members =>
      members.foldlM (fun env pair => do return env.set pair.1 (← textOf pair.2)) []
  | v => wrongType v "a map".toList

/-- Sets a field, which can be met once. -/
def setOnce {α : Type} (name : Text) (before : Option α) (value : Except Fault α) :
    Except Fault (Option α) :=
  if before.isSome then .error (.mismatch (.duplicateField name)) else value.map some

/-- A field which has to be there. -/
def required {α : Type} (name : Text) : Option α → Except Fault α
  | some a => .ok a
  | none => .error (.mismatch (.missingField name))

/-- The fields of a task which were met. -/
structure TaskFields where
  taskName : Option Text := none
  commandLine : Option Text := none
  projectFile : Option Text := none
  deriving DecidableEq, Repr

/-- Takes a field of a task; other keys mean nothing. -/
def TaskFields.take (f : TaskFields) (pair : Text × Value) : Except Fault TaskFields :=
  let (key, value) := pair
  if key == taskNameKey then do
    return { f with taskName := ← setOnce taskNameKey f.taskName (textOf value) }
  else if key == commandLineKey then do
    return { f with commandLine := ← setOnce commandLineKey f.commandLine (textOf value) }
  else if key == projectFileKey then do
    return { f with projectFile := ← setOnce projectFileKey f.projectFile (textOf value) }
  else .ok f

/-- The event, when no field is missing. -/
def TaskFields.event (f : TaskFields) : Except Fault Event := do
  let taskName ← required taskNameKey f.taskName
  let commandLine ← required commandLineKey f.commandLine
  let projectFile ← required projectFileKey f.projectFile
  .ok (.taskCommandLine taskName commandLine projectFile)

/-- Takes a field of an environment event; other keys mean nothing. -/
def takeVariables (env : Option Environment) (pair : Text × Value) :
    Except Fault (Option Environment) :=
  if pair.1 == variablesKey then setOnce variablesKey env (variablesOf pair.2)
  else .ok env

/-- Too few fields in an event which is written as an array. -/
def tooFew {α : Type} (k : Kind) (length : Nat) : Except Fault α :=
  .error (.mismatch (.wrongLength length (match k with
    | .taskCommandLine => "struct variant Event::TaskCommandLine with 3 elements".toList
    | .environment => "struct variant Event::Environment with 1 element".toList)))

/-- Accepts an event which is written as an array when no fields are left over. -/
def noMore (e : Event) (count : Nat) (expected : Text) (more : List Value) : Except Fault Event :=
  if more.isEmpty then .ok e
  else .error (.mismatch (.wrongLength (count + more.length) expected))

/-- The event of a kind with these fields. -/
def eventOf (k : Kind) (b : Body) : Except Fault Event :=
  match k, b with
  | .taskCommandLine, .members members => do (← members.foldlM TaskFields.take {}).event
  | .environment, .members members => do
      let env ← members.foldlM takeVariables none
      return .environment (← required variablesKey env)
  | .taskCommandLine, .items items => do
      match items with
      | [] => tooFew k 0
      | v :: items =>
          let taskName ← textOf v
          match items with
          | [] => tooFew k 1
          | v :: items =>
              let commandLine ← textOf v
              match items with
              | [] => tooFew k 2
              | v :: items =>
                  let projectFile ← textOf v
                  noMore (.taskCommandLine taskName commandLine projectFile) 3
                    "3 elements in sequence".toList items
  | .environment, .items items => do
      match items with
      | [] => tooFew k 0
      | v :: items =>
          noMore (.environment (← variablesOf v)) 1 "1 element in sequence".toList items

/-- Reads the lexemes of an event. -/
def eventOfLexemes (lexemes : List Lexeme) : Except Fault Event := do
  let ((k, b), rest) ← body lexemes
  let e ← eventOf k b
  Reader.atEnd e rest

/-- Reads a line. -/
def parse (line : Text) : Except Fault Event :=
  eventOfLexemes (Json.lex (line.map .char))

/-- What is wrong with a line. -/
inductive LineFault where
  /-- The line is not UTF-8. -/
  | undecodable
  /-- The line with this number is no event. -/
  | invalid (number : Nat) (fault : Fault)
  deriving DecidableEq, Repr

/-- The text about events which cannot be read. -/
def readMessage (cause : Text) : Text :=
  "Failed to read the events: ".toList ++ cause

/-- The text about an event file which cannot be opened. -/
def openMessage (path : Text) (cause : FileError) : Text :=
  "Failed to open the event file ".toList ++ path ++ ": ".toList ++ cause.message

/-- The text of the fault. What is wrong with a line is not part of it. -/
def LineFault.message : LineFault → Text
  | .undecodable => readMessage "stream did not contain valid UTF-8".toList
  | .invalid number _ => "Invalid event at line ".toList ++ Text.ofNat number

/-- Cuts bytes behind each line feed. -/
def splitLines : List UInt8 → List (List UInt8)
  | [] => []
  | b :: rest =>
      if b == 0x0A then [b] :: splitLines rest
      else
        match splitLines rest with
        | [] => [[b]]
        | line :: lines => (b :: line) :: lines

/-- The line without its end: a line feed, and a carriage return directly before it. -/
def dropLineEnd (line : Text) : Text :=
  match line.reverse with
  | '\n' :: '\r' :: reversed => reversed.reverse
  | '\n' :: reversed => reversed.reverse
  | _ => line

/-- Reads the line with this number, its end included. A blank line gives nothing. -/
def readLine (number : Nat) (bytes : List UInt8) : Option (Except LineFault Event) :=
  match Utf8.decode? bytes with
  | none => some (.error .undecodable)
  | some line =>
      let line := dropLineEnd line
      if Text.allBlank line then none
      else
        some (match parse line with
          | .ok e => .ok e
          | .error f => .error (.invalid number f))

/-- Reads the lines from the one with this number on. -/
def readLines (number : Nat) : List (List UInt8) → List (Except LineFault Event)
  | [] => []
  | line :: lines =>
      match readLine number line with
      | none => readLines (number + 1) lines
      | some result => result :: readLines (number + 1) lines

/-- Reads all lines of an event file. -/
def read (bytes : List UInt8) : List (Except LineFault Event) :=
  readLines 1 (splitLines bytes)

end Compdb.EventFormat
