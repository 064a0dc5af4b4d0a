/-
# Compdb.FileTree — files and directories as a value

A run reads and changes files. Here the files below one directory, the root, are a value:
a list of nodes, each with its way from the root. Operations on paths follow the host: a
path is walked part by part, every part before the last one has to be a directory, and an
operation which fails changes nothing. Nothing is known to exist outside of the root.
-/
import Compdb.Path
import Compdb.Text.Quoted

namespace Compdb

set_option autoImplicit false

inductive Node where
  | directory
  | file (content : List UInt8)
  deriving DecidableEq, Repr

/-- The reasons why an operation on files fails. -/
inductive FileError where
  | notFound
  | notDirectory
  | isDirectory
  deriving DecidableEq, Repr

/-- The text of the reason, as the host gives it. -/
def FileError.message : FileError → Text
  | .notFound => "No such file or directory (os error 2)".toList
  | .notDirectory => "Not a directory (os error 20)".toList
  | .isDirectory => "Is a directory (os error 21)".toList

/-- The way from the root to a node: the names of the parts. -/
abbrev Way := List Text

/-- The files and directories below a root. -/
structure FileTree where
  /-- The absolute path of the root, empty for the root of the host. -/
  root : Text
  /-- The nodes; each way occurs once, and its directory is a node too. -/
  nodes : List (Way × Node) := []
  deriving DecidableEq, Repr

/-- What a path leads to. -/
inductive Target where
  /-- A directory which exists. -/
  | directory (way : Way)
  /-- A name in a directory which exists, and whether the path ends in a separator. -/
  | named (directory : Way) (name : Text) (hasSeparator : Bool)
  deriving DecidableEq, Repr

namespace FileTree

def node? (t : FileTree) : Way → Option Node
  | [] => some .directory
  | way => (t.nodes.find? fun pair => pair.1 == way).map Prod.snd

def set (t : FileTree) (way : Way) (node : Node) : FileTree :=
  if t.nodes.any (fun pair => pair.1 == way) then
    { t with nodes := t.nodes.map fun pair => if pair.1 == way then (way, node) else pair }
  else { t with nodes := t.nodes ++ [(way, node)] }

def remove (t : FileTree) (way : Way) : FileTree :=
  { t with nodes := t.nodes.filter fun pair => pair.1 != way }

/-- Sets a node together with the directories on its way. -/
def setWithParents (t : FileTree) (way : Way) (node : Node) : FileTree :=
  let parents := ((List.range way.length).map way.take).filter fun parent => !parent.isEmpty
  let t := parents.foldl
    (fun t parent => if (t.node? parent).isSome then t else t.set parent .directory) t
  if node == .directory && (t.node? way).isSome then t else t.set way node

/-- The parts of a relative path; those between two separators are left out. -/
def parts (path : Text) : List Text :=
  (Text.splitAt '/' path).filter fun part => !part.isEmpty

def pathOf (t : FileTree) (way : Way) : Text :=
  if t.root.isEmpty && way.isEmpty then ['/']
  else t.root ++ (way.map fun part => '/' :: part).flatten

/-- The path below the root, when the path is absolute and leads there. -/
def belowRoot (t : FileTree) (path : Text) : Option Text :=
  if path.isEmpty then none
  else
    match Text.afterStart t.root path with
    | some [] => some []
    | some ('/' :: rest) => some ('/' :: rest)
    | _ => none

/-- Walks from a directory along the parts of a path. -/
def walk (t : FileTree) (hasSeparator : Bool) (way : Way) : List Text → Except FileError Target
  | [] => .ok (.directory way)
  | part :: more =>
      if part == ['.'] then t.walk hasSeparator way more
      else if part == ['.', '.'] then
        if way.isEmpty then .error .notFound else t.walk hasSeparator way.dropLast more
      else if more.isEmpty then .ok (.named way part hasSeparator)
      else
        match t.node? (way ++ [part]) with
        | none => .error .notFound
        | some (.file _) => .error .notDirectory
        | some .directory => t.walk hasSeparator (way ++ [part]) more

/-- What a path leads to, from a working directory. -/
def resolve (t : FileTree) (workingDirectory : Way) (path : Text) : Except FileError Target :=
  let hasSeparator := path.getLast? == some '/'
  match t.belowRoot path with
  | some rest => t.walk hasSeparator [] (parts rest)
  | none =>
      if path.isEmpty || path.head? == some '/' then .error .notFound
      else
        match t.node? workingDirectory with
        | some .directory => t.walk hasSeparator workingDirectory (parts path)
        | _ => .error .notFound

def find (t : FileTree) (workingDirectory : Way) (path : Text) : Except FileError Node := do
  match ← t.resolve workingDirectory path with
  | .directory _ => .ok .directory
  | .named directory name hasSeparator =>
      match t.node? (directory ++ [name]) with
      | none => .error .notFound
      | some (.file content) =>
          if hasSeparator then .error .notDirectory else .ok (.file content)
      | some .directory => .ok .directory

/-- Whether a path leads to a node. -/
def contains (t : FileTree) (workingDirectory : Way) (path : Text) : Bool :=
  (t.find workingDirectory path).toBool

def findDirectory (t : FileTree) (workingDirectory : Way) (path : Text) :
    Except FileError Way := do
  match ← t.resolve workingDirectory path with
  | .directory way => .ok way
  | .named directory name _ =>
      match t.node? (directory ++ [name]) with
      | none => .error .notFound
      | some (.file _) => .error .notDirectory
      | some .directory => .ok (directory ++ [name])

/-- Writes a file, which is created or loses its content. -/
def write (t : FileTree) (workingDirectory : Way) (path : Text) (content : List UInt8) :
    Except FileError FileTree := do
  match ← t.resolve workingDirectory path with
  | .directory _ => .error .isDirectory
  | .named directory name hasSeparator =>
      match t.node? (directory ++ [name]) with
      | some .directory => .error .isDirectory
      | some (.file _) =>
          if hasSeparator then .error .notDirectory
          else .ok (t.set (directory ++ [name]) (.file content))
      | none =>
          if hasSeparator then .error .isDirectory
          else .ok (t.set (directory ++ [name]) (.file content))

/-- Moves a file to the place which a path leads to. Another file there is replaced. -/
def rename (t : FileTree) (source workingDirectory : Way) (path : Text) :
    Except FileError FileTree := do
  match t.node? source with
  | some (.file content) =>
      match ← t.resolve workingDirectory path with
      | .directory _ => .error .isDirectory
      | .named directory name hasSeparator =>
          if hasSeparator then .error .notDirectory
          else if t.node? (directory ++ [name]) == some .directory then .error .isDirectory
          else .ok ((t.remove source).set (directory ++ [name]) (.file content))
  | some .directory => .error .isDirectory
  | none => .error .notFound

/-- A name for a temporary file, with an `X` for each letter which a host draws. -/
def temporaryName : Text := ".tmpXXXXXX".toList

end FileTree

end Compdb
