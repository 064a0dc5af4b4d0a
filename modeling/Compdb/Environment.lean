/-
# Compdb.Environment — variables and the include directories they contribute

Two variables name include directories, `INCLUDE` and `EXTERNAL_INCLUDE`, in any letter
case. Their values are lists separated by `;`. An `IncludeSet` collects the directories:
it keeps the order of the first occurrence and never forgets one.
-/
import Compdb.Text.Ascii
import Compdb.Text.Blank

namespace Compdb

set_option autoImplicit false

/-- The variables of a process, as pairs of name and value. -/
abbrev Environment := List (Text × Text)

namespace Environment

/-- The variable of the include directories. -/
def includeName : Text := "INCLUDE".toList

/-- The variable of the external include directories. -/
def externalIncludeName : Text := "EXTERNAL_INCLUDE".toList

/-- The variables which matter, in the order in which they contribute. -/
def includeNames : List Text := [includeName, externalIncludeName]

/-- Whether the variable contributes include directories. -/
def isRelevant (name : Text) : Bool :=
  includeNames.any fun relevant => Text.sameFolded relevant name

/-- The values of the variables with this name, in any letter case. -/
def valuesOf (name : Text) (env : Environment) : List Text :=
  (env.filter fun pair => Text.sameFolded pair.1 name).map Prod.snd

/-- Sets a variable. A name is held once, the later value wins. -/
def set (env : Environment) (name value : Text) : Environment :=
  if env.any (fun pair => pair.1 == name) then
    env.map fun pair => if pair.1 == name then (name, value) else pair
  else env ++ [(name, value)]

/-- The value of a variable under its exact name. -/
def get? (env : Environment) (name : Text) : Option Text :=
  (env.find? fun pair => pair.1 == name).map Prod.snd

/-- The variables in a block: each is a name, an equals sign and a value, and ends with a NUL. A
name is not empty, so an equals sign at its start belongs to it. -/
def ofBlock (block : Text) : Environment :=
  (Text.splitAt '\x00' block).foldl
    (fun env item =>
      match item with
      | [] => env
      | c :: rest =>
          match Text.splitFirst '=' rest with
          | some (name, value) => env.set (c :: name) value
          | none => env)
    []

/-- The directories which a value lists. -/
def directories (value : Text) : List Text :=
  Text.listItems ';' value

end Environment

/-- The include directories of a run, without duplicates, in the order of their first
occurrence. -/
structure IncludeSet where
  paths : List Text := []
  deriving DecidableEq, Repr

namespace IncludeSet

def empty : IncludeSet := ⟨[]⟩

def size (s : IncludeSet) : Nat := s.paths.length

/-- Adds a directory, and says whether it was new. -/
def insert (s : IncludeSet) (path : Text) : IncludeSet × Bool :=
  if s.paths.contains path then (s, false) else (⟨s.paths ++ [path]⟩, true)

/-- Adds directories in order, and counts the new ones. -/
def insertAll (s : IncludeSet) : List Text → IncludeSet × Nat
  | [] => (s, 0)
  | path :: paths =>
      let (s, isNew) := s.insert path
      let (s, count) := s.insertAll paths
      (s, count + if isNew then 1 else 0)

/-- Adds the directories which a value lists, and counts the new ones. -/
def extendValue (s : IncludeSet) (value : Text) : IncludeSet × Nat :=
  s.insertAll (Environment.directories value)

/-- Adds the directories of several values in order, and counts the new ones. -/
def extendValues (s : IncludeSet) : List Text → IncludeSet × Nat
  | [] => (s, 0)
  | value :: values =>
      let (s, first) := s.extendValue value
      let (s, more) := s.extendValues values
      (s, first + more)

/-- Adds the directories of the relevant variables, and counts the new ones. -/
def extendEnvironment (s : IncludeSet) (env : Environment) : IncludeSet × Nat :=
  s.extendValues (Environment.includeNames.flatMap fun name => env.valuesOf name)

end IncludeSet

end Compdb
