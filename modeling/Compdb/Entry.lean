/-
# Compdb.Entry — one record of a compilation database

An entry says how one source file of a project is compiled. Its key is the directory
together with the file, both compared exactly.
-/
import Compdb.Text.Basic

namespace Compdb

set_option autoImplicit false

structure Key where
  directory : Text
  file : Text
  deriving DecidableEq, Repr

/-- The two parts are hashed one by one, since the same text can be cut in two in several
ways. -/
instance : Hashable Key where
  hash key := mixHash (hash (String.ofList key.directory)) (hash (String.ofList key.file))

/-- How a source file is compiled. -/
structure Entry where
  /-- The working directory of the compilation. -/
  directory : Text
  /-- The source file, as the command line names it. -/
  file : Text
  /-- The compiler followed by its arguments. -/
  arguments : List Text
  deriving DecidableEq, Repr

/-- The reasons why an entry is not acceptable. -/
inductive EntryError where
  | emptyFileName
  | emptyDirectory
  | argumentsAreMissing
  deriving DecidableEq, Repr

def EntryError.message : EntryError → Text
  | .emptyFileName => "Entry has an empty file field".toList
  | .emptyDirectory => "Entry has an empty directory field".toList
  | .argumentsAreMissing => "Entry has an empty arguments field".toList

namespace Entry

/-- The key under which the entry is stored. -/
def key (e : Entry) : Key :=
  ⟨e.directory, e.file⟩

/-- Accepts an entry whose three fields are not empty. The file is looked at first, then
the directory, then the arguments. -/
def validate (e : Entry) : Except EntryError Entry :=
  if e.file.isEmpty then .error .emptyFileName
  else if e.directory.isEmpty then .error .emptyDirectory
  else if e.arguments.isEmpty then .error .argumentsAreMissing
  else .ok e

/-- Accepts a list of entries, or gives the reason against the first one which is not
acceptable. -/
def validateAll (entries : List Entry) : Except EntryError (List Entry) :=
  entries.mapM validate

end Entry

end Compdb
