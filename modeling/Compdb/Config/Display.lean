/-
# Compdb.Config.Display — a configuration as text
-/
import Compdb.Config
import Compdb.Text.Basic
import Compdb.Yaml.Written

namespace Compdb.Config

set_option autoImplicit false

/-- The configuration as a YAML mapping. Fields which are not set are left out. -/
def toYaml (c : Config) : Text :=
  let member := Yaml.Written.member
  member "schema".toList c.schema
    ++ member Field.output.name c.output
    ++ (c.customTask.map (member Field.customTask.name)).getD []
    ++ (c.logFile.map fun d => member Field.logFile.name d.toText).getD []
    ++ member "merge".toList c.merge.name

/-- The configuration below a title. -/
def display (c : Config) : Text :=
  "Configuration:\n".toList ++ ((Text.lines c.toYaml).map fun line => line ++ ['\n']).flatten

end Compdb.Config
