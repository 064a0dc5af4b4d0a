/-
# Compdb.Log — the records of what happened

Operations which report something have their records as values, in order. Nothing but
the file of the records depends on a record.
-/
import Compdb.Text.Basic

namespace Compdb.Log

set_option autoImplicit false

/-- How important a record is. -/
inductive Level where
  | error
  | warn
  | info
  | debug
  | trace
  deriving DecidableEq, Repr

def Level.name : Level → Text
  | .error => "ERROR".toList
  | .warn => "WARN".toList
  | .info => "INFO".toList
  | .debug => "DEBUG".toList
  | .trace => "TRACE".toList

/-- The place of the level, from the most important one on. -/
def Level.rank : Level → Nat
  | .error => 0
  | .warn => 1
  | .info => 2
  | .debug => 3
  | .trace => 4

/-- The less important one of two levels, which lets more records through. -/
def Level.max (a b : Level) : Level :=
  if a.rank < b.rank then b else a

/-- The part of the library which reports. -/
inductive Source where
  | classification
  | database
  | session
  | storage
  | configuration
  | program
  deriving DecidableEq, Repr

def Source.name : Source → Text
  | .classification => "classification".toList
  | .database => "database".toList
  | .session => "session".toList
  | .storage => "storage".toList
  | .configuration => "configuration".toList
  | .program => "program".toList

structure Record where
  level : Level
  source : Source
  message : Text
  deriving DecidableEq, Repr

/-- The record as a line. -/
def Record.line (r : Record) : Text :=
  ['['] ++ r.level.name ++ [' '] ++ r.source.name ++ [']', ' '] ++ r.message ++ ['\n']

/-- The records which are important enough, as lines. -/
def text (threshold : Level) (records : List Record) : Text :=
  ((records.filter fun r => r.level.rank ≤ threshold.rank).map Record.line).flatten

end Compdb.Log
