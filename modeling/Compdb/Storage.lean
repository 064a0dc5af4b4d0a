/-
# Compdb.Storage — the compilation database on disk

A database is read once and written once. It is written into a temporary file beside its
place, which takes that place at the end, so the place never holds a part of a database. A
`Writer` is the time in between: it owns the temporary file, and whoever has it either
discards it or commits.
-/
import Compdb.EntryFormat
import Compdb.FileTree
import Compdb.Log

namespace Compdb

set_option autoImplicit false

/-- The reasons why a stored database cannot be read. -/
inductive LoadError where
  /-- The file cannot be opened. -/
  | file (cause : FileError)
  /-- The file can be opened but not read. -/
  | content (cause : FileError)
  /-- The content is not a database. -/
  | format (fault : Json.Fault)
  /-- An entry is not acceptable. -/
  | entry (reason : EntryError)
  deriving DecidableEq, Repr

/-- The text of the reason. What is wrong with a format is not part of it. -/
def LoadError.message : LoadError → Text
  | .file cause => "Generic IO error: ".toList ++ cause.message
  | .content _ | .format _ => "Format syntax error".toList
  | .entry reason => "Format semantic error: ".toList ++ reason.message

/-- The temporary file cannot be created. -/
structure WriterCreationError where
  /-- The place of the database. -/
  path : Text
  cause : FileError
  /-- The absolute path of the temporary file. -/
  temporary : Text
  deriving DecidableEq, Repr

def WriterCreationError.message (e : WriterCreationError) : Text :=
  "Failed to create the output writer ".toList ++ e.path ++ ": ".toList ++ e.cause.message
    ++ " at path ".toList ++ Text.quoted e.temporary

/-- The reasons why a database cannot be written. -/
inductive WriteError where
  | file (cause : FileError)
  | entry (reason : EntryError)
  deriving DecidableEq, Repr

def WriteError.message : WriteError → Text
  | .file cause => "Generic IO error: ".toList ++ cause.message
  | .entry reason => "Format semantic error: ".toList ++ reason.message

namespace Storage

/-- Reads the database in a file. A file which does not exist is an empty database. -/
def load (tree : FileTree) (workingDirectory : Way) (path : Text) :
    Except LoadError (List Entry) :=
  match tree.find workingDirectory path with
  | .error .notFound => .ok []
  | .error cause => .error (.file cause)
  | .ok .directory => .error (.content .isDirectory)
  | .ok (.file content) =>
      match EntryFormat.parse content with
      | .error fault => .error (.format fault)
      | .ok entries =>
          match Entry.validateAll entries with
          | .error reason => .error (.entry reason)
          | .ok entries => .ok entries

/-- A record of the storage. -/
def record (level : Log.Level) (message : Text) : Log.Record :=
  ⟨level, .storage, message⟩

/-- The number of entries, and what was done with them at a path. -/
def countRecord (verb : Text) (entries : List Entry) (preposition path : Text) : Log.Record :=
  record .info
    (verb ++ [' '] ++ Text.ofNat entries.length ++ " entries ".toList ++ preposition ++ [' ']
      ++ path)

/-- The records about reading the database in a file. -/
def loadRecords (tree : FileTree) (workingDirectory : Way) (path : Text) : List Log.Record :=
  match tree.find workingDirectory path with
  | .error .notFound =>
      [record .debug ("No previous compilation database found: ".toList ++ path)]
  | _ =>
      match load tree workingDirectory path with
      | .ok entries => [countRecord "Read".toList entries "from".toList path]
      | .error _ => []

/-- Drops what ends a path without naming a part of it: separators, and dots for the directory
itself, but for a dot which is the whole path. The parts are given with the last one first. -/
def dropIdleParts : List Text → List Text
  | [] => []
  | [['.']] => [['.']]
  | part :: more => if part.isEmpty || part == ['.'] then dropIdleParts more else part :: more

/-- The directory part of a path, by its parts: the working directory when there is none. -/
def directoryOf (path : Text) : Text :=
  match dropIdleParts (Text.splitAt '/' path).reverse with
  | [] | [_] => ['.']
  | _ :: directory =>
      match dropIdleParts directory with
      | [] => ['/']
      | directory => ['/'].intercalate directory.reverse

/-- The absolute path of a name beside the place of the database. -/
def pathBeside (tree : FileTree) (workingDirectory : Way) (path name : Text) : Text :=
  let directory := directoryOf path
  Path.join
    (if (tree.belowRoot directory).isSome then directory
      else Path.join (tree.pathOf workingDirectory) directory)
    name

end Storage

/-- A database being written. -/
structure Writer where
  /-- The files, the temporary one included. -/
  tree : FileTree
  workingDirectory : Way
  /-- The place of the temporary file. -/
  temporary : Way
  /-- The place of the database. -/
  path : Text
  deriving DecidableEq, Repr

namespace Writer

/-- Creates the temporary file beside the place of the database. Its name is drawn by the host,
which takes none that something there has already; here it is given. -/
def create (tree : FileTree) (workingDirectory : Way) (path : Text)
    (name : Text := FileTree.temporaryName) : Except WriterCreationError Writer :=
  match tree.findDirectory workingDirectory (Storage.directoryOf path) with
  | .ok way =>
      let temporary := way ++ [name]
      .ok ⟨tree.set temporary (.file []), workingDirectory, temporary, path⟩
  | .error cause =>
      .error ⟨path, cause, Storage.pathBeside tree workingDirectory path name⟩

/-- The record about the creation. -/
def createRecord (w : Writer) : Log.Record :=
  Storage.record .debug
    ("Temporary output file: ".toList
      ++ Storage.pathBeside w.tree w.workingDirectory w.path (w.temporary.getLastD []))

/-- Gives up: the temporary file is removed. -/
def discard (w : Writer) : FileTree :=
  w.tree.remove w.temporary

/-- Writes the entries, all of which have to be acceptable, and moves the result to its place. When
that fails the temporary file is removed. -/
def commit (w : Writer) (entries : List Entry) : FileTree × Except WriteError Unit :=
  match Entry.validateAll entries with
  | .error reason => (w.discard, .error (.entry reason))
  | .ok entries =>
      let content := Utf8.encode (EntryFormat.render entries)
      let tree := w.tree.set w.temporary (.file content)
      match tree.rename w.temporary w.workingDirectory w.path with
      | .error cause => (w.discard, .error (.file cause))
      | .ok tree => (tree, .ok ())

/-- The records about writing the entries. -/
def commitRecords (w : Writer) (entries : List Entry) : List Log.Record :=
  match w.commit entries with
  | (_, .ok ()) => [Storage.countRecord "Written".toList entries "to".toList w.path]
  | (_, .error _) => []

end Writer

end Compdb
