/-
# Compdb.Config — the configuration of a run
-/
import Compdb.Database
import Compdb.Text.Ascii

namespace Compdb

set_option autoImplicit false

/-- Where the records of a run are written. -/
inductive LogDestination where
  | stdout
  | file (path : Text)
  deriving DecidableEq, Repr

namespace LogDestination

/-- The name of the standard output. -/
def stdoutName : Text := "stdout".toList

/-- The destination which a text names: the standard output, in any letter case, or a file. -/
def ofText (value : Text) : LogDestination :=
  if Text.sameFolded value stdoutName then .stdout else .file value

def toText : LogDestination → Text
  | .stdout => stdoutName
  | .file path => path

end LogDestination

structure Config where
  /-- The version of the configuration format. -/
  schema : Text
  /-- The path of the compilation database. -/
  output : Text
  /-- A part of the names of further compiler tasks. -/
  customTask : Option Text
  /-- Where the records are written, when not to the standard error. -/
  logFile : Option LogDestination
  /-- What happens to the entries of an earlier run. -/
  merge : MergePolicy
  deriving DecidableEq, Repr

namespace Config

/-- The only version of the configuration format. -/
def supportedSchema : Text := "1.0".toList

/-- The path of the compilation database, unless configured. -/
def defaultOutput : Text := "compile_commands.json".toList

def default : Config where
  schema := supportedSchema
  output := defaultOutput
  customTask := none
  logFile := none
  merge := .overwrite

/-- The fields which can be set to an empty text. -/
inductive Field where
  | output
  | customTask
  | logFile
  deriving DecidableEq, Repr

def Field.name : Field → Text
  | .output => "output".toList
  | .customTask => "custom_task".toList
  | .logFile => "log_file".toList

/-- The fields whose text is empty. -/
def emptyFields (c : Config) : List Field :=
  (if c.output.isEmpty then [.output] else [])
    ++ (if c.customTask == some [] then [.customTask] else [])
    ++ (if c.logFile == some (.file []) then [.logFile] else [])

/-- The reason why a configuration is not acceptable: its empty fields, at least one. -/
structure ValidationError where
  first : Field
  others : List Field
  deriving DecidableEq, Repr

/-- Accepts a configuration without empty fields. -/
def validate (c : Config) : Except ValidationError Config :=
  match c.emptyFields with
  | [] => .ok c
  | first :: others => .error ⟨first, others⟩

/-- One of several reasons. -/
def Field.emptyReason (field : Field) : Text :=
  "EmptyString \x7b field: \"".toList ++ field.name ++ "\" \x7d".toList

def ValidationError.message (e : ValidationError) : Text :=
  match e.others with
  | [] => "Empty string value for field '".toList ++ e.first.name ++ ['\'']
  | others =>
      "Multiple validation errors: [".toList
        ++ [',', ' '].intercalate ((e.first :: others).map Field.emptyReason) ++ [']']

end Config

end Compdb
