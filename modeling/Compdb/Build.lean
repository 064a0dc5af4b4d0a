/-
# Compdb.Build — from the events of a build to the database on disk

The writer is created before anything else, so a place which cannot be written is found
early. The stored database is read, the events are handled up to the first failure, and the
database is written only when every event was handled. A build which fails leaves the
files as they were.
-/
import Compdb.EventFormat
import Compdb.Storage
import Compdb.Surroundings

namespace Compdb

set_option autoImplicit false

/-- The reasons why the handling of a build fails. -/
inductive BuildError where
  | writerCreation (reason : WriterCreationError)
  | load (path : Text) (reason : LoadError)
  /-- The event file cannot be opened. -/
  | openEvents (path : Text) (cause : FileError)
  /-- The event file can be opened but not read. -/
  | readEvents (cause : FileError)
  | event (fault : EventFormat.LineFault)
  | session (reason : SessionError)
  | write (path : Text) (reason : WriteError)
  deriving DecidableEq, Repr

def BuildError.message : BuildError → Text
  | .writerCreation reason => reason.message
  | .load path reason =>
      "Failed to read the compilation database ".toList ++ path ++ ": ".toList ++ reason.message
  | .openEvents path cause => EventFormat.openMessage path cause
  | .readEvents cause => EventFormat.readMessage cause.message
  | .event fault => fault.message
  | .session reason => reason.message
  | .write path reason =>
      "Serialization error ".toList ++ path ++ ": ".toList ++ reason.message

namespace Build

/-- The name which stands for the standard input. -/
def standardInputName : Text := ['-']

def eventBytes (s : Surroundings) (tree : FileTree) (input : Text) :
    Except BuildError (List UInt8) :=
  if input == standardInputName then .ok s.standardInput
  else
    match tree.find s.workingDirectory input with
    | .error cause => .error (.openEvents input cause)
    | .ok .directory => .error (.readEvents .isDirectory)
    | .ok (.file content) => .ok content

/-- Handles events up to the first one which cannot be read or handled. -/
def handleEvents (session : Session) :
    List (Except EventFormat.LineFault Event) → Except BuildError Session
  | [] => .ok session
  | .error fault :: _ => .error (.event fault)
  | .ok event :: events =>
      match session.handle event with
      | (_, .error reason) => .error (.session reason)
      | (session, .ok ()) => handleEvents session events

/-- The session before the first event, on top of the stored database, and the events. -/
def prepare (s : Surroundings) (tree : FileTree) (config : Config) (input : Text) :
    Except BuildError (Session × List (Except EventFormat.LineFault Event)) :=
  match Storage.load tree s.workingDirectory config.output with
  | .error reason => .error (.load config.output reason)
  | .ok previous =>
      match eventBytes s tree input with
      | .error reason => .error reason
      | .ok bytes => .ok (Session.start config s.context previous, EventFormat.read bytes)

/-- The session after all events. -/
def session (s : Surroundings) (tree : FileTree) (config : Config) (input : Text) :
    Except BuildError Session :=
  match prepare s tree config input with
  | .error reason => .error reason
  | .ok (session, events) => handleEvents session events

/-- Handles a build: the files afterwards, and the counters or the reason of the failure. -/
def run (s : Surroundings) (config : Config) (input : Text) :
    FileTree × Except BuildError Statistics :=
  match Writer.create s.tree s.workingDirectory config.output s.temporaryName with
  | .error reason => (s.tree, .error (.writerCreation reason))
  | .ok writer =>
      match session s writer.tree config input with
      | .error reason => (writer.discard, .error reason)
      | .ok session =>
          match writer.commit session.database.entries with
          | (tree, .error reason) => (tree, .error (.write config.output reason))
          | (tree, .ok ()) => (tree, .ok session.statistics)

/-- The records about events which are handled up to the first failure. -/
def eventsRecords (session : Session) :
    List (Except EventFormat.LineFault Event) → List Log.Record
  | [] | .error _ :: _ => []
  | .ok event :: events =>
      session.handleRecords event ++
        match session.handle event with
        | (_, .error _) => []
        | (session, .ok ()) => eventsRecords session events

/-- The records about the sessions of a build. -/
def sessionRecords (s : Surroundings) (tree : FileTree) (config : Config) (input : Text) :
    List Log.Record :=
  match Storage.load tree s.workingDirectory config.output, prepare s tree config input with
  | .ok previous, .ok (session, events) =>
      Session.startRecords s.context previous ++ eventsRecords session events
  | .ok previous, .error _ => Session.startRecords s.context previous
  | .error _, _ => []

def records (s : Surroundings) (config : Config) (input : Text) : List Log.Record :=
  match Writer.create s.tree s.workingDirectory config.output s.temporaryName with
  | .error _ => []
  | .ok writer =>
      writer.createRecord :: Storage.loadRecords writer.tree s.workingDirectory config.output
        ++ sessionRecords s writer.tree config input
        ++ match session s writer.tree config input with
          | .error _ => []
          | .ok session =>
              ⟨.info, .program, session.statistics.summary⟩
                :: writer.commitRecords session.database.entries

end Build

end Compdb
