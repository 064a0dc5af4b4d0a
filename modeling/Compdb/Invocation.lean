/-
# Compdb.Invocation — compiler tasks and their command lines

A task is a compiler task by its name. Its command line begins with the compiler, which
ends at the first `cl.exe`, in any letter case; what follows are the arguments.
-/
import Compdb.Path
import Compdb.Text.Ascii
import Compdb.Text.Blank

namespace Compdb

set_option autoImplicit false

/-- Decides which tasks run the compiler. -/
structure TaskFilter where
  /-- A part of the names of further compiler tasks; never the empty text. -/
  customTask : Option Text
  deriving DecidableEq, Repr

namespace TaskFilter

/-- The names of the tasks which always run the compiler. -/
def compilerTasks : List Text :=
  ["CL".toList, "CLCommandLine".toList]

/-- The filter for a configured custom task, which counts only when it is not empty. -/
def ofCustomTask (customTask : Option Text) : TaskFilter :=
  ⟨customTask.filter fun task => !task.isEmpty⟩

/-- Whether a task with this name runs the compiler. -/
def accepts (filter : TaskFilter) (taskName : Text) : Bool :=
  compilerTasks.contains taskName
    || filter.customTask.any fun custom => Text.occursIn custom taskName

end TaskFilter

/-- A command line, cut into the compiler and the text of its arguments. -/
structure Invocation where
  /-- The compiler, without the quotes around it. -/
  compiler : Text
  /-- The rest of the line, not split into tokens. -/
  arguments : Text
  deriving DecidableEq, Repr

namespace Invocation

/-- The name of the compiler, in lower case. -/
def marker : Text := "cl.exe".toList

/-- Cuts a line behind the first occurrence of the marker, in any letter case. -/
def splitAtMarker : Text → Option (Text × Text)
  | [] => none
  | c :: rest =>
      if marker.isPrefixOf (Text.foldCase (c :: rest)) then
        some ((c :: rest).take marker.length, (c :: rest).drop marker.length)
      else (splitAtMarker rest).map fun (before, after) => (c :: before, after)

/-- Drops a quote which closes the compiler. -/
def dropClosingQuote : Text → Text
  | '"' :: rest => rest
  | t => t

/-- Reads a command line. There is no result when the marker does not occur. -/
def ofLine (line : Text) : Option Invocation :=
  (splitAtMarker line).map fun (before, after) =>
    ⟨Text.trimQuotes (Text.trim before), dropClosingQuote after⟩

/-- The compiler as an absolute path: a relative one belongs to the working directory. -/
def resolveCompiler (compiler workingDirectory : Text) : Text :=
  if Path.isAbsolute compiler then compiler else Path.join workingDirectory compiler

/-- The directory of the project file, or the working directory when the path of the
project file has no directory. -/
def projectDirectory (projectFile workingDirectory : Text) : Text :=
  (Path.parentDirectory projectFile).getD workingDirectory

end Invocation

end Compdb
