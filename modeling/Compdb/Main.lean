/-
# Compdb.Main — the command line

A run is a function of its surroundings. Here the surroundings are taken from the host, as
far as the run can ask for them, and what the run leaves behind is given back to the host.
-/
import Compdb.Program

set_option autoImplicit false

namespace Compdb.Host

/-- The files of the host before any of them was looked at. -/
def emptyTree : FileTree := ⟨[], []⟩

/-- The path of a way on the host. -/
def pathOf (way : Way) : String := String.ofList (emptyTree.pathOf way)

/-- The ways which are met along a path. -/
def waysAlong (workingDirectory : Way) (path : Text) : List Way :=
  let start := if path.head? == some '/' then [] else workingDirectory
  let visit (way : Way) (part : Text) : Way :=
    if part == ['.'] then way
    else if part == ['.', '.'] then way.dropLast
    else way ++ [part]
  (FileTree.parts path).scanl visit start

/-- What stands at a path of the host. What is neither a directory nor a file, such as a pipe,
counts as a file, which is read only when its content matters. -/
def node? (readsPipes : Bool) (path : String) : IO (Option Node) := do
  try
    match (← ((← IO.currentDir) / path).metadata).type with
    | .dir => return some .directory
    | .file => return some (.file (← IO.FS.readBinFile path).toList)
    | _ =>
        if readsPipes then return some (.file (← IO.FS.readBinFile path).toList)
        else return some (.file [])
  catch
    | .noFileOrDirectory .. | .inappropriateType .. => return none
    | e => throw e

/-- Adds what stands at a way of the host, once. -/
def look (readsPipes : Bool) (tree : FileTree) (way : Way) : IO FileTree := do
  if (tree.node? way).isSome then return tree
  match ← node? readsPipes (pathOf way) with
  | some node => return tree.set way node
  | none => return tree

/-- Adds what stands along the paths. -/
def lookAt (readsPipes : Bool) (s : Surroundings) (paths : List Text) : IO Surroundings := do
  let tree ← (paths.flatMap (waysAlong s.workingDirectory)).foldlM (look readsPipes) s.tree
  return { s with tree }

def environment : IO Environment := do
  let block ← IO.FS.readBinFile "/proc/self/environ"
  return Environment.ofBlock (Utf8.decodeLossy block.toList)

/-- Draws a name for a temporary file. -/
def temporaryName : IO Text := do
  let letters := "ABCDEFGHIJKLMNOPQRSTUVWXYZabcdefghijklmnopqrstuvwxyz0123456789".toList
  let drawn ← (List.range 6).mapM fun _ => do
    return letters.getD (← IO.rand 0 (letters.length - 1)) 'X'
  return ".tmp".toList ++ drawn

/-- The surroundings of a run, as far as it can ask for them. -/
def surroundings (arguments : List Text) : IO Surroundings := do
  let workingDirectory := (← IO.currentDir).toString.toList
  let s : Surroundings :=
    ⟨emptyTree, FileTree.parts workingDirectory, ← environment, [], ← temporaryName⟩
  let s ← lookAt false s [workingDirectory]
  match Arguments.ofList arguments with
  | .error _ => return s
  | .ok arguments =>
      let s ← lookAt true s (Program.configPaths s arguments)
      match Program.configure s arguments with
      | .error _ => return s
      | .ok config =>
          if arguments.input == Build.standardInputName then
            let s ← lookAt false s (Program.outputPaths config)
            return { s with standardInput := (← (← IO.getStdin).readBinToEnd).toList }
          else
            let s ← lookAt true s [arguments.input]
            lookAt false s (Program.outputPaths config)

/-- Writes a file. A file takes its place as a whole, so none of its readers finds a part. -/
def write (path : String) (content : List UInt8) : IO Unit := do
  let bytes : ByteArray := ⟨content.toArray⟩
  match ← node? false path with
  | some (.file []) => IO.FS.writeBinFile path bytes
  | _ =>
      let temporary := path ++ ".tmp"
      IO.FS.writeBinFile temporary bytes
      IO.FS.rename temporary path

/-- Writes the files which the run changed. -/
def store (before after : FileTree) : IO Unit :=
  after.nodes.forM fun (way, node) =>
    match node with
    | .file content =>
        if before.node? way == some node then pure () else write (pathOf way) content
    | .directory => pure ()

def run (arguments : List Text) : IO UInt32 := do
  let s ← surroundings arguments
  let outcome := Program.run s arguments
  store s.tree outcome.tree
  IO.print (String.ofList outcome.output)
  IO.eprint (String.ofList (outcome.log ++ outcome.error))
  if !outcome.error.isEmpty then IO.eprintln ""
  return outcome.exitCode.toUInt32

end Compdb.Host

def main (arguments : List String) : IO UInt32 := do
  try
    Compdb.Host.run (arguments.map String.toList)
  catch e =>
    IO.eprintln s!"Error: {e}"
    return 1
