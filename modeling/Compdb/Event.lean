/-
# Compdb.Event — what a build reports
-/
import Compdb.Environment

namespace Compdb

set_option autoImplicit false

inductive Event where
  | taskCommandLine (taskName commandLine projectFile : Text)
  | environment (env : Environment)
  deriving DecidableEq, Repr

end Compdb
