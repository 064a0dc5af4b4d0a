/-
# Compdb.Json.Reader — reading values from lexemes

One reader serves two purposes: reading values of any shape, with a bound on their nesting,
and skimming over values, which has no bound and keeps nothing. It is a machine with a
stack of open arrays and objects. Above it stand the loops over the elements of an array
and the members of an object, which hand each one to a reader of its own; their fuel is
the number of lexemes, since each round takes at least one.
-/
import Compdb.Json.Lexeme

namespace Compdb.Json

set_option autoImplicit false

/-- A value of any shape. The members of an object are in the order of the text. -/
inductive Value where
  | null
  | bool (value : Bool)
  | number (value : Number)
  | string (value : Text)
  | array (items : List Value)
  | object (members : List (Text × Value))
  deriving Repr

/-- The value, as messages name it. -/
def Value.found : Value → Found
  | .null => .null
  | .bool b => .bool b
  | .number n => .number n
  | .string t => .string t
  | .array _ => .array
  | .object _ => .object

/-- What is made of a value while it is read. -/
structure Builder (α : Type) where
  /-- A lexeme which is a value by itself. -/
  leaf : Lexeme → Except Fault α
  key : Except Fault Text → Except Fault Text
  brokenKey : (strict skimmed : Fault) → Fault
  array : List α → α
  object : List (Text × α) → α
  /-- How many arrays and objects may be open at once. -/
  depth : Option Nat

/-- Reads values, nested at most as deep as given. -/
def Builder.value (depth : Nat) : Builder Value where
  leaf
    | .null => .ok .null
    | .bool b => .ok (.bool b)
    | .number value => value.map .number
    | .string text => text.map .string
    | .broken _ strict _ => .error strict
    | _ => .error .malformed
  key text := text
  brokenKey strict _ := strict
  array := .array
  object := .object
  depth := some depth

/-- Skims over values. -/
def Builder.skim : Builder Unit where
  leaf
    | .null | .bool _ | .number _ | .string _ => .ok ()
    | .broken _ _ skimmed => .error skimmed
    | _ => .error .malformed
  key _ := .ok []
  brokenKey _ skimmed := skimmed
  array _ := ()
  object _ := ()
  depth := none

/-- An array or object which is open; what it has so far is kept with the last one first. -/
inductive Frame (α : Type) where
  | array (items : List α)
  | object (members : List (Text × α))
  /-- An object whose last key has no value yet. -/
  | member (members : List (Text × α)) (key : Text)

/-- What comes next. -/
inductive Place where
  | value
  /-- The first element, or the end of the array. -/
  | firstItem
  /-- The first key, or the end of the object. -/
  | firstKey
  | nextKey
  | colon
  /-- A comma, or the end of the innermost array or object. -/
  | separator
  deriving DecidableEq, Repr

/-- What one lexeme leads to. -/
inductive Progress (α : Type) where
  | done (value : α)
  | more (stack : List (Frame α)) (place : Place)

namespace Builder

variable {α : Type}

/-- Puts a complete value where it belongs. -/
def complete (value : α) : List (Frame α) → Except Fault (Progress α)
  | [] => .ok (.done value)
  | .array items :: stack => .ok (.more (.array (value :: items) :: stack) .separator)
  | .member members key :: stack =>
      .ok (.more (.object ((key, value) :: members) :: stack) .separator)
  | .object _ :: _ => .error .malformed

/-- Opens an array or object, unless too many are open. -/
def enter (b : Builder α) (stack : List (Frame α)) (frame : Frame α) (place : Place) :
    Except Fault (Progress α) :=
  if b.depth.any (· ≤ stack.length) then .error .malformed
  else .ok (.more (frame :: stack) place)

/-- Takes a lexeme which has to begin a value. -/
def stepValue (b : Builder α) (stack : List (Frame α)) : Lexeme → Except Fault (Progress α)
  | .openArray => b.enter stack (.array []) .firstItem
  | .openObject => b.enter stack (.object []) .firstKey
  | l => do complete (← b.leaf l) stack

/-- Closes the innermost array or object. -/
def close (b : Builder α) : List (Frame α) → Lexeme → Except Fault (Progress α)
  | .array items :: stack, .closeArray => complete (b.array items.reverse) stack
  | .object members :: stack, .closeObject => complete (b.object members.reverse) stack
  | _, _ => .error .malformed

/-- Takes a lexeme which has to be a key. -/
def stepKey (b : Builder α) : List (Frame α) → Lexeme → Except Fault (Progress α)
  | .object members :: stack, .string text => do
      .ok (.more (.member members (← b.key text) :: stack) .colon)
  | _, .broken .string strict skimmed => .error (b.brokenKey strict skimmed)
  | _, _ => .error .malformed

/-- Takes a lexeme behind a complete element or member. -/
def stepSeparator (b : Builder α) : List (Frame α) → Lexeme → Except Fault (Progress α)
  | .array items :: stack, .comma => .ok (.more (.array items :: stack) .value)
  | .object members :: stack, .comma => .ok (.more (.object members :: stack) .nextKey)
  | stack, l => b.close stack l

def step (b : Builder α) (stack : List (Frame α)) (place : Place) (l : Lexeme) :
    Except Fault (Progress α) :=
  match place, l with
  | .value, l => b.stepValue stack l
  | .firstItem, .closeArray => b.close stack .closeArray
  | .firstItem, l => b.stepValue stack l
  | .firstKey, .closeObject => b.close stack .closeObject
  | .firstKey, l => b.stepKey stack l
  | .nextKey, l => b.stepKey stack l
  | .colon, .colon => .ok (.more stack .value)
  | .colon, _ => .error .malformed
  | .separator, l => b.stepSeparator stack l

/-- Runs over the lexemes until the value is complete. -/
def run (b : Builder α) (stack : List (Frame α)) (place : Place) :
    List Lexeme → Except Fault (α × List Lexeme)
  | [] => .error .truncated
  | l :: rest =>
      match b.step stack place l with
      | .error f => .error f
      | .ok (.done value) => .ok (value, rest)
      | .ok (.more stack place) => b.run stack place rest

def read (b : Builder α) (lexemes : List Lexeme) : Except Fault (α × List Lexeme) :=
  b.run [] .value lexemes

end Builder

/-- A reader of some value: the value and the lexemes behind it. -/
abbrev Reader (α : Type) := List Lexeme → Except Fault (α × List Lexeme)

namespace Reader

/-- What stands at a place where something else was expected. A scalar is read for the message;
an array or object is only named. -/
def unexpected (expected : Text) : List Lexeme → Fault
  | [] => .truncated
  | .openArray :: _ => .mismatch (.wrongType .array expected)
  | .openObject :: _ => .mismatch (.wrongType .object expected)
  | .null :: _ => .mismatch (.wrongType .null expected)
  | .bool b :: _ => .mismatch (.wrongType (.bool b) expected)
  | .number (.ok n) :: _ => .mismatch (.wrongType (.number n) expected)
  | .number (.error f) :: _ => f
  | .string (.ok t) :: _ => .mismatch (.wrongType (.string t) expected)
  | .string (.error f) :: _ => f
  | .broken _ strict _ :: _ => strict
  | _ => .malformed

def string (expected : Text) : Reader Text
  | .string text :: rest => text.map fun t => (t, rest)
  | lexemes => .error (unexpected expected lexemes)

/-- Takes the colon behind a key. -/
def colon : List Lexeme → Except Fault (List Lexeme)
  | [] => .error .truncated
  | .colon :: rest => .ok rest
  | _ => .error .malformed

/-- Reads the colon and the value behind a key. -/
def afterColon {α : Type} (value : Reader α) : Reader α := fun lexemes => do
  value (← colon lexemes)

/-- Where the elements of an array or the members of an object go on. -/
inductive Next (κ : Type) where
  /-- They are at their end; the lexemes behind it. -/
  | closed (rest : List Lexeme)
  | item (key : κ) (rest : List Lexeme)

/-- The next element of an array. -/
def nextItem (isFirst : Bool) : List Lexeme → Except Fault (Next Unit)
  | [] => .error .truncated
  | .closeArray :: rest => .ok (.closed rest)
  | .comma :: rest =>
      if isFirst then .error .malformed
      else
        match rest with
        | [] => .error .truncated
        | .closeArray :: _ => .error .malformed
        | rest => .ok (.item () rest)
  | lexemes => if isFirst then .ok (.item () lexemes) else .error .malformed

def key : List Lexeme → Except Fault (Next Text)
  | [] => .error .truncated
  | .string text :: rest => text.map fun t => .item t rest
  | .broken .string strict _ :: _ => .error strict
  | _ => .error .malformed

/-- The next member of an object. -/
def nextMember (isFirst : Bool) : List Lexeme → Except Fault (Next Text)
  | .closeObject :: rest => .ok (.closed rest)
  | .comma :: rest => if isFirst then .error .malformed else key rest
  | [] => .error .truncated
  | lexemes => if isFirst then key lexemes else .error .malformed

/-- Takes the elements of an array up to its end. -/
def items {σ : Type} (item : σ → Reader σ) : Nat → Bool → σ → Reader σ
  | 0, _, _, _ => .error .truncated
  | fuel + 1, isFirst, s, lexemes =>
      match nextItem isFirst lexemes with
      | .error f => .error f
      | .ok (.closed rest) => .ok (s, rest)
      | .ok (.item () rest) =>
          match item s rest with
          | .error f => .error f
          | .ok (s, rest) => items item fuel false s rest

/-- Takes the members of an object up to its end. -/
def members {σ : Type} (member : σ → Text → Reader σ) : Nat → Bool → σ → Reader σ
  | 0, _, _, _ => .error .truncated
  | fuel + 1, isFirst, s, lexemes =>
      match nextMember isFirst lexemes with
      | .error f => .error f
      | .ok (.closed rest) => .ok (s, rest)
      | .ok (.item key rest) =>
          match member s key rest with
          | .error f => .error f
          | .ok (s, rest) => members member fuel false s rest

def array {α : Type} (item : Reader α) : Reader (List α)
  | .openArray :: rest => do
      let (reversed, rest) ← items
        (fun sofar lexemes => (item lexemes).map fun (a, rest) => (a :: sofar, rest))
        (rest.length + 1) true [] rest
      .ok (reversed.reverse, rest)
  | lexemes => .error (unexpected "a sequence".toList lexemes)

def atEnd {α : Type} (value : α) (lexemes : List Lexeme) : Except Fault α :=
  if lexemes.isEmpty then .ok value else .error .malformed

end Reader

end Compdb.Json
