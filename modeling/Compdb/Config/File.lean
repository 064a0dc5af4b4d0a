/-
# Compdb.Config.File — configuration files

A configuration file is a flat YAML mapping with the fields of a configuration. Every field but
the schema can be left out; a field is given once, and there are no others. The file is
looked for in several places, unless it is named.
-/
import Compdb.Config
import Compdb.FileTree
import Compdb.Log
import Compdb.Text.Utf8
import Compdb.Yaml.FlatMapping

namespace Compdb

set_option autoImplicit false

/-- The reasons why a configuration file cannot be used. -/
inductive ConfigFileError where
  /-- The file cannot be opened. -/
  | access (path : Text) (cause : FileError)
  /-- The content is no configuration. -/
  | format (path : Text)
  /-- The configuration is not acceptable. -/
  | validation (path : Text) (reason : Config.ValidationError)
  deriving DecidableEq, Repr

/-- The text of the reason. What is wrong with a format is not part of it. -/
def ConfigFileError.message : ConfigFileError → Text
  | .access path cause =>
      "Failed to access configuration file '".toList ++ path ++ "': ".toList ++ cause.message
  | .format path => "Failed to parse configuration from file '".toList ++ path ++ ['\'']
  | .validation path reason =>
      "Configuration validation failed '".toList ++ path ++ "': ".toList ++ reason.message

namespace Config.File

open Yaml (Scalar FlatMapping)

def fileName : Text := "msbear.yml".toList

def nullTag : Text := "tag:yaml.org,2002:null".toList

/-- The plain texts of the null value, but for the empty one. -/
def nullTexts : List Text :=
  ["null".toList, "Null".toList, "NULL".toList, ['~']]

/-- The text of a field which can be left open: nothing when the scalar is null. -/
def optionalText (s : Scalar) : Option (Option Text) :=
  if !s.isPlain then some (some s.text)
  else
    match s.tag with
    | some tag =>
        if tag != nullTag then some (some s.text)
        else if nullTexts.contains s.text then some none
        else none
    | none => if s.text.isEmpty || nullTexts.contains s.text then some none else some (some s.text)

/-- The policy which a scalar names by its text, or by its tag when it is null otherwise. -/
def policy (s : Scalar) : Option MergePolicy :=
  match s.tag with
  | some ('!' :: name) =>
      if s.isPlain && (s.text.isEmpty || nullTexts.contains s.text) then MergePolicy.ofName? name
      else none
  | _ => MergePolicy.ofName? s.text

/-- The fields which were met. -/
structure Fields where
  schema : Option Text := none
  output : Option Text := none
  customTask : Option (Option Text) := none
  logFile : Option (Option Text) := none
  merge : Option MergePolicy := none
  deriving DecidableEq, Repr

/-- Sets a field which is given once. -/
def setOnce {α : Type} (before value : Option α) : Option (Option α) :=
  if before.isSome then none else value.map some

def Fields.take (f : Fields) (member : Scalar × Scalar) : Option Fields :=
  let (key, value) := member
  if key.text == "schema".toList then do
    return { f with schema := ← setOnce f.schema (some value.text) }
  else if key.text == "output".toList then do
    return { f with output := ← setOnce f.output (some value.text) }
  else if key.text == Field.customTask.name then do
    return { f with customTask := ← setOnce f.customTask (optionalText value) }
  else if key.text == Field.logFile.name then do
    return { f with logFile := ← setOnce f.logFile (optionalText value) }
  else if key.text == "merge".toList then do
    return { f with merge := ← setOnce f.merge (policy value) }
  else none

/-- The configuration with these fields. The schema has to be the supported one. -/
def Fields.config (f : Fields) : Option Config :=
  if f.schema == some supportedSchema then
    some
      { schema := supportedSchema
        output := f.output.getD defaultOutput
        customTask := f.customTask.join
        logFile := f.logFile.join.map LogDestination.ofText
        merge := f.merge.getD .overwrite }
  else none

def ofMapping (m : FlatMapping) : Option Config := do
  (← m.foldlM Fields.take {}).config

def ofBytes (content : List UInt8) : Option Config := do
  ofMapping (← FlatMapping.ofText? (← Utf8.decode? content))

def load (tree : FileTree) (workingDirectory : Way) (path : Text) :
    Except ConfigFileError Config :=
  match tree.find workingDirectory path with
  | .error cause => .error (.access path cause)
  | .ok .directory => .error (.format path)
  | .ok (.file content) =>
      match ofBytes content with
      | none => .error (.format path)
      | some c =>
          match c.validate with
          | .ok c => .ok c
          | .error reason => .error (.validation path reason)

/-- The places of configuration files in directories. -/
def places (directories : List Text) : List Text :=
  directories.map fun directory => Path.join directory fileName

/-- Loads the named configuration file, or else the first one which exists in the directories;
without one the configuration is the default. -/
def find (tree : FileTree) (workingDirectory : Way) (directories : List Text)
    (path : Option Text) : Except ConfigFileError Config :=
  match path with
  | some path => load tree workingDirectory path
  | none =>
      match (places directories).find? (tree.contains workingDirectory) with
      | some path => load tree workingDirectory path
      | none => .ok Config.default

def record (level : Log.Level) (message : Text) : Log.Record :=
  ⟨level, .configuration, message⟩

/-- The record about loading the configuration file at a path. -/
def loadRecord (path : Text) : Log.Record :=
  record .info ("Loading configuration file: ".toList ++ path)

/-- The records about places which are looked at in order. -/
def placesRecords (tree : FileTree) (workingDirectory : Way) : List Text → List Log.Record
  | [] =>
      [record .debug
        "Configuration file not found. Using the default configuration.".toList]
  | place :: more =>
      record .debug ("Checking configuration file: ".toList ++ place) ::
        if tree.contains workingDirectory place then [loadRecord place]
        else placesRecords tree workingDirectory more

/-- The records about finding the configuration. -/
def findRecords (tree : FileTree) (workingDirectory : Way) (directories : List Text)
    (path : Option Text) : List Log.Record :=
  match path with
  | some path => [loadRecord path]
  | none => placesRecords tree workingDirectory (places directories)

end Config.File

end Compdb
