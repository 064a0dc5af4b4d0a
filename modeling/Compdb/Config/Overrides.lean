/-
# Compdb.Config.Overrides — settings which replace configured ones

Overrides come from the command line, or from a parameter string: items separated by `;`,
each a key and a value. The first item can be the output path alone. The last item for
a key wins, and the first item which is not acceptable decides the error.
-/
import Compdb.Config
import Compdb.Text.Blank

namespace Compdb

set_option autoImplicit false

/-- Settings which replace the configured ones where they are present. -/
structure Overrides where
  output : Option Text := none
  customTask : Option Text := none
  logFile : Option LogDestination := none
  merge : Option MergePolicy := none
  deriving DecidableEq, Repr

/-- The reasons why a parameter string is not acceptable. -/
inductive ParameterError where
  | unknownKey (key : Text)
  | unknownPolicy (value : Text)
  deriving DecidableEq, Repr

namespace Overrides

def outputKey : Text := "output".toList

def customTaskKey : Text := "customtask".toList

def logFileKey : Text := "logfile".toList

def mergeKey : Text := "merge".toList

/-- Takes the value of a key, in any letter case. -/
def takeValue (o : Overrides) (key value : Text) : Except ParameterError Overrides :=
  let folded := Text.foldCase key
  if folded == outputKey then .ok { o with output := some value }
  else if folded == customTaskKey then .ok { o with customTask := some value }
  else if folded == logFileKey then .ok { o with logFile := some (LogDestination.ofText value) }
  else if folded == mergeKey then
    match MergePolicy.ofName? value with
    | some policy => .ok { o with merge := some policy }
    | none => .error (.unknownPolicy value)
  else .error (.unknownKey key)

/-- Takes an item. Only the first one can be a value without a key, which is the output. -/
def takeItem (o : Overrides) (isFirst : Bool) (item : Text) : Except ParameterError Overrides :=
  match Text.splitFirst '=' item with
  | some (key, value) => o.takeValue (Text.trim key) (Text.trim value)
  | none => if isFirst then .ok { o with output := some item } else .error (.unknownKey item)

def takeItems (o : Overrides) (isFirst : Bool) : List Text → Except ParameterError Overrides
  | [] => .ok o
  | item :: items =>
      match o.takeItem isFirst item with
      | .ok o => o.takeItems false items
      | .error e => .error e

def ofParameters (parameters : Text) : Except ParameterError Overrides :=
  takeItems {} true (Text.listItems ';' parameters)

/-- Replaces the settings which are present. -/
def apply (o : Overrides) (c : Config) : Config :=
  { c with
    output := o.output.getD c.output
    customTask := o.customTask.or c.customTask
    logFile := o.logFile.or c.logFile
    merge := o.merge.getD c.merge }

end Overrides

def ParameterError.message : ParameterError → Text
  | .unknownKey key => "Unknown configuration parameter: '".toList ++ key ++ ['\'']
  | .unknownPolicy value =>
      "Invalid value for configuration parameter '".toList ++ Overrides.mergeKey ++ "': ".toList
        ++ MergePolicy.unknownMessage value

end Compdb
