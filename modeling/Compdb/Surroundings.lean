/-
# Compdb.Surroundings — what a run finds around it

The files, the variables and the standard input are values, so a run is a function of its
surroundings and its arguments.
-/
import Compdb.FileTree
import Compdb.Session

namespace Compdb

set_option autoImplicit false

/-- What surrounds a run. -/
structure Surroundings where
  tree : FileTree
  /-- The way to the working directory. -/
  workingDirectory : Way
  environment : Environment
  /-- What the standard input holds. -/
  standardInput : List UInt8
  /-- The name which the host draws for a temporary file. -/
  temporaryName : Text := FileTree.temporaryName
  deriving DecidableEq, Repr

namespace Surroundings

/-- The absolute path of the working directory. -/
def workingPath (s : Surroundings) : Text :=
  s.tree.pathOf s.workingDirectory

/-- What a session takes from the surroundings. -/
def context (s : Surroundings) : Context :=
  ⟨s.workingPath, s.environment⟩

/-- The variables which say where configurations belong. -/
def homeName : Text := "HOME".toList

def configHomeName : Text := "XDG_CONFIG_HOME".toList

/-- The directory for the configurations of the user. -/
def configHome (s : Surroundings) : Option Text :=
  let isAbsolute (path : Text) : Bool :=
    ['/'].isPrefixOf path || (s.tree.belowRoot path).isSome
  match s.environment.get? configHomeName with
  | some path => if isAbsolute path then some path else fromHome
  | none => fromHome
where
  /-- The directory within the home of the user. -/
  fromHome : Option Text :=
    match s.environment.get? homeName with
    | some [] => none
    | home => home.map fun home => Path.join home ".config".toList

/-- The directories where a configuration file is looked for. -/
def configDirectories (s : Surroundings) : List Text :=
  s.workingPath ::
    match s.configHome with
    | some home => [home, Path.join home "msbear".toList]
    | none => []

end Surroundings

end Compdb
