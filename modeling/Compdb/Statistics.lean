/-
# Compdb.Statistics — the counters of a run
-/
import Compdb.Database

namespace Compdb

set_option autoImplicit false

/-- What happened to the events and entries of a run. -/
structure Statistics where
  events : Nat := 0
  ignored : Nat := 0
  invocations : Nat := 0
  rejected : Nat := 0
  added : Nat := 0
  updated : Nat := 0
  kept : Nat := 0
  deriving DecidableEq, Repr

namespace Statistics

/-- Counts the outcome of merging one entry. -/
def count (s : Statistics) : Merge → Statistics
  | .added => { s with added := s.added + 1 }
  | .updated => { s with updated := s.updated + 1 }
  | .kept => { s with kept := s.kept + 1 }

/-- The counters in the order in which they are shown, each with its label. -/
def rows (s : Statistics) : List (Text × Nat) :=
  [("build events".toList, s.events), ("ignored events".toList, s.ignored),
   ("compiler invocations".toList, s.invocations), ("rejected invocations".toList, s.rejected),
   ("new entries".toList, s.added), ("updated entries".toList, s.updated),
   ("kept entries".toList, s.kept)]

/-- The counters as text, one on a line. -/
def summary (s : Statistics) : Text :=
  ['\n'].intercalate ("Session:".toList ::
    s.rows.map fun (label, n) => "  ".toList ++ label ++ ": ".toList ++ Text.ofNat n)

end Statistics

end Compdb
