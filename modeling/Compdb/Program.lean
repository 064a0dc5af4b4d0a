/-
# Compdb.Program — one run of the program

A run reads its arguments, settles the configuration, begins the file of the records, and
then handles the build. A run which fails before the build leaves no trace but the file of
the records.
-/
import Compdb.Arguments
import Compdb.Build
import Compdb.Config.Display
import Compdb.Config.File

namespace Compdb

set_option autoImplicit false

/-- The reasons why a run fails. -/
inductive RunError where
  | configFile (reason : ConfigFileError)
  | parameter (reason : ParameterError)
  | configuration (reason : Config.ValidationError)
  | logFile (path : Text) (cause : FileError)
  | build (reason : BuildError)
  deriving DecidableEq, Repr

def RunError.message : RunError → Text
  | .configFile reason => reason.message
  | .parameter reason => reason.message
  | .configuration _ => "Invalid configuration".toList
  | .logFile path _ => "Failed to create the log file: ".toList ++ path
  | .build reason => reason.message

namespace Program

/-- Replaces the settings which a parameter string gives. -/
def applyParameters (parameters : Option Text) (c : Config) : Except ParameterError Config :=
  match parameters with
  | none => .ok c
  | some parameters =>
      match Overrides.ofParameters parameters with
      | .error reason => .error reason
      | .ok overrides => .ok (overrides.apply c)

/-- Settles the configuration: the settings of the command line win over those of the parameter
string, and both over the loaded configuration. The result is validated as a whole. -/
def settle (loaded : Config) (arguments : Arguments) : Except RunError Config :=
  match applyParameters arguments.parameters loaded with
  | .error reason => .error (.parameter reason)
  | .ok c =>
      match (arguments.overrides.apply c).validate with
      | .error reason => .error (.configuration reason)
      | .ok c => .ok c

def configure (s : Surroundings) (arguments : Arguments) : Except RunError Config :=
  match Config.File.find s.tree s.workingDirectory s.configDirectories arguments.config with
  | .error reason => .error (.configFile reason)
  | .ok loaded => settle loaded arguments

/-- The first records of a run: what runs, where, and how it is configured. -/
def openingRecords (s : Surroundings) (config : Config) : List Log.Record :=
  [Arguments.versionText, s.context.describe, config.display].map fun message =>
    ⟨.info, .program, message⟩

/-- The least important level of the records which are shown. Each repetition of the switch
shows more; a destination which is configured shows all but the traces. -/
def threshold (verbose : Nat) (destination : Option LogDestination) : Log.Level :=
  let asked :=
    match verbose with
    | 0 => .error
    | 1 => .info
    | 2 => .debug
    | _ => .trace
  if destination.isSome then asked.max .debug else asked

/-- What a run leaves behind. -/
structure Outcome where
  exitCode : Nat
  output : Text := []
  log : Text := []
  error : Text := []
  tree : FileTree
  deriving DecidableEq, Repr

/-- The outcome of a run which failed. -/
def failed (tree : FileTree) (reason : RunError) : Outcome where
  exitCode := 1
  error := "Error: ".toList ++ reason.message
  tree := tree

/-- The outcome of a build, before its records are written. -/
def outcomeOf : FileTree × Except BuildError Statistics → Outcome
  | (tree, .error reason) => failed tree (.build reason)
  | (tree, .ok _) => { exitCode := 0, tree }

/-- Begins the file of the records, where the configuration has one. -/
def openLog (s : Surroundings) (config : Config) (opening : Text) : Except RunError Surroundings :=
  match config.logFile with
  | some (.file path) =>
      match s.tree.write s.workingDirectory path (Utf8.encode opening) with
      | .error cause => .error (.logFile path cause)
      | .ok tree => .ok { s with tree }
  | _ => .ok s

/-- Writes the records to their destination. Their file is completed unless something else took
its place. -/
def Outcome.withRecords (o : Outcome) (s : Surroundings) (destination : Option LogDestination)
    (opening later : Text) : Outcome :=
  match destination with
  | none => { o with log := opening ++ later }
  | some .stdout => { o with output := opening ++ later }
  | some (.file path) =>
      match o.tree.find s.workingDirectory path,
          o.tree.write s.workingDirectory path (Utf8.encode (opening ++ later)) with
      | .ok node, .ok tree =>
          if node == .file (Utf8.encode opening) then { o with tree } else o
      | _, _ => o

/-- Handles a build with a settled configuration. -/
def runBuild (s : Surroundings) (arguments : Arguments) (config : Config) : Outcome :=
  let threshold := threshold arguments.verbose config.logFile
  let opening := Log.text threshold (openingRecords s config)
  match openLog s config opening with
  | .error reason => failed s.tree reason
  | .ok s =>
      let later := Log.text threshold (Build.records s config arguments.input)
      (outcomeOf (Build.run s config arguments.input)).withRecords s config.logFile opening later

def run (s : Surroundings) (arguments : List Text) : Outcome :=
  match Arguments.ofList arguments with
  | .error (.help full) => { exitCode := 0, output := Arguments.helpText full, tree := s.tree }
  | .error .version => { exitCode := 0, output := Arguments.versionText, tree := s.tree }
  | .error (.error reason) => { exitCode := 2, error := reason.message, tree := s.tree }
  | .ok arguments =>
      match configure s arguments with
      | .error reason => failed s.tree reason
      | .ok config => runBuild s arguments config

/-- The paths which decide the configuration of a run. -/
def configPaths (s : Surroundings) (arguments : Arguments) : List Text :=
  match arguments.config with
  | some path => [path]
  | none => Config.File.places s.configDirectories

/-- The paths which a build writes to. -/
def outputPaths (config : Config) : List Text :=
  [Storage.directoryOf config.output, config.output]
    ++ match config.logFile with
      | some (.file path) => [path]
      | _ => []

end Program

end Compdb
