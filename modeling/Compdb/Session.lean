/-
# Compdb.Session — the events of a build, one after another

A session holds everything that a run knows: the include directories collected so far,
the database and the counters. Each event is handled before the next one is looked at.
Only a compiler task without a compiler in its command line fails; a command line which
cannot be split into tokens rejects that invocation alone.
-/
import Compdb.Classification
import Compdb.CommandLine
import Compdb.Config
import Compdb.Event
import Compdb.Invocation
import Compdb.Statistics
import Compdb.Text.Quoted

namespace Compdb

set_option autoImplicit false

/-- What a run takes from its surroundings. -/
structure Context where
  /-- The working directory, to which relative compiler paths belong. -/
  workingDirectory : Text
  /-- The variables at the start. -/
  environment : Environment
  deriving DecidableEq, Repr

namespace Context

/-- The part of the description before the relevant variables. -/
def head (c : Context) : Text :=
  "Application Context:\nCurrent Directory: ".toList ++ c.workingDirectory
    ++ "\nTotal Environment Variables: ".toList ++ Text.ofNat c.environment.length
    ++ " entries\n".toList

/-- One line for each relevant variable. -/
def relevantLines (c : Context) : List Text :=
  (c.environment.filter fun pair => Environment.isRelevant pair.1).map fun pair =>
    "  ".toList ++ pair.1 ++ ['='] ++ pair.2

/-- The description of the context. -/
def describe (c : Context) : Text :=
  c.head ++ "Relevant Environment Variables:\n".toList
    ++ (c.relevantLines.map fun line => line ++ ['\n']).flatten

end Context

/-- The state of a run between two events. -/
structure Session where
  filter : TaskFilter
  workingDirectory : Text
  includes : IncludeSet
  database : Database
  statistics : Statistics

/-- The reasons why an event cannot be handled. -/
inductive SessionError where
  /-- A compiler task whose command line does not name the compiler. -/
  | missingCompiler (taskName commandLine : Text)
  deriving DecidableEq, Repr

def SessionError.message : SessionError → Text
  | .missingCompiler taskName commandLine =>
      "Task '".toList ++ taskName ++ "' was recognized as compiler task, but '".toList
        ++ Invocation.marker ++ "' was not found in the command line: ".toList ++ commandLine

namespace Session

/-- Adds the include directories of the variables. -/
def addEnvironment (s : Session) (env : Environment) : Session :=
  { s with includes := (s.includes.extendEnvironment env).1 }

/-- The session at its start, on top of the entries of an earlier run. -/
def start (config : Config) (context : Context) (previous : List Entry) : Session :=
  addEnvironment
    { filter := TaskFilter.ofCustomTask config.customTask
      workingDirectory := context.workingDirectory
      includes := IncludeSet.empty
      database := Database.ofEntries previous config.merge
      statistics := {} }
    context.environment

/-- Merges one entry and counts the outcome. -/
def mergeEntry (s : Session) (e : Entry) : Session :=
  let (database, outcome) := s.database.merge e
  { s with database, statistics := s.statistics.count outcome }

/-- The entries of an invocation with these tokens, in this session. -/
def entriesOf (s : Session) (compiler projectFile : Text) (tokens : List Text) : List Entry :=
  (classify tokens).entries (Invocation.resolveCompiler compiler s.workingDirectory)
    (Invocation.projectDirectory projectFile s.workingDirectory) s.includes

def countEvent (s : Session) : Session :=
  { s with statistics := { s.statistics with events := s.statistics.events + 1 } }

def countIgnored (s : Session) : Session :=
  { s with statistics := { s.statistics with ignored := s.statistics.ignored + 1 } }

def countInvocation (s : Session) : Session :=
  { s with statistics := { s.statistics with invocations := s.statistics.invocations + 1 } }

/-- Counts a compiler invocation whose arguments have no tokens. -/
def countRejected (s : Session) : Session :=
  { s with statistics := { s.statistics with rejected := s.statistics.rejected + 1 } }

def compile (s : Session) (invocation : Invocation) (projectFile : Text) : Session :=
  let s := s.countInvocation
  match CommandLine.tokenize invocation.arguments with
  | .error _ => s.countRejected
  | .ok tokens => (s.entriesOf invocation.compiler projectFile tokens).foldl mergeEntry s

/-- Handles an event. The session goes on after an error too. -/
def handle (s : Session) (event : Event) : Session × Except SessionError Unit :=
  let s := s.countEvent
  match event with
  | .environment env => (s.addEnvironment env, .ok ())
  | .taskCommandLine taskName commandLine projectFile =>
      if s.filter.accepts taskName then
        match Invocation.ofLine commandLine with
        | none => (s, .error (.missingCompiler taskName commandLine))
        | some invocation => (s.compile invocation projectFile, .ok ())
      else (s.countIgnored, .ok ())

/-- The session after all events of a list, whatever fails. -/
def handleAll (s : Session) (events : List Event) : Session :=
  events.foldl (fun s event => (s.handle event).1) s

/-- The session after all events of a list, or the first failure. -/
def handleUntilError (s : Session) : List Event → Except SessionError Session
  | [] => .ok s
  | event :: events =>
      match s.handle event with
      | (s, .ok ()) => s.handleUntilError events
      | (_, .error e) => .error e

def record (level : Log.Level) (message : Text) : Log.Record :=
  ⟨level, .session, message⟩

/-- The records about adding the variables: the directories, when there are new ones. -/
def addEnvironmentRecords (s : Session) (env : Environment) : List Log.Record :=
  let (includes, count) := s.includes.extendEnvironment env
  if count == 0 then []
  else
    [record .debug ("Include directories from the environment: IncludeSet \x7b paths: ".toList
      ++ Text.quotedList includes.paths ++ " \x7d".toList)]

/-- The records of the start of a session. -/
def startRecords (context : Context) (previous : List Entry) : List Log.Record :=
  Database.ofEntriesRecords previous
    ++ addEnvironmentRecords
      { filter := ⟨none⟩, workingDirectory := [], includes := IncludeSet.empty, database := {},
        statistics := {} }
      context.environment

/-- The records about a compiler invocation. -/
def compileRecords (invocation : Invocation) : List Log.Record :=
  match CommandLine.tokenize invocation.arguments with
  | .error e =>
      [record .warn ("Skipping invocation of ".toList ++ invocation.compiler ++ ": ".toList
        ++ e.message)]
  | .ok tokens =>
      let pass := Pass.ofTokens tokens
      let c := pass.finish
      pass.records ++
        [record .debug ("Recognized: Classification \x7b arguments: ".toList
          ++ Text.quotedList c.arguments ++ ", files: ".toList ++ Text.quotedList c.files
          ++ ", pch_headers: ".toList ++ Text.quotedList c.pchHeaders ++ " \x7d".toList)]

/-- The records about handling an event. -/
def handleRecords (s : Session) : Event → List Log.Record
  | .environment env => s.addEnvironmentRecords env
  | .taskCommandLine taskName commandLine _ =>
      if s.filter.accepts taskName then
        match Invocation.ofLine commandLine with
        | none => []
        | some invocation => compileRecords invocation
      else [record .debug ("Ignoring task: ".toList ++ taskName)]

end Session

end Compdb
