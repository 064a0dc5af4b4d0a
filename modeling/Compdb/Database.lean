/-
# Compdb.Database — the entries, one for each key

The entries stay in the order in which their keys came first. An index gives the position
of each key, so that a look-up does not search the list.
-/
import Compdb.Entry
import Compdb.Log
import Std.Data.HashMap

namespace Compdb

set_option autoImplicit false

/-- What happens to an entry whose key is stored already. -/
inductive MergePolicy where
  /-- The new entry takes the place of the stored one. -/
  | overwrite
  /-- The stored entry stays. -/
  | skipExisting
  deriving DecidableEq, Repr, Inhabited

namespace MergePolicy

def name : MergePolicy → Text
  | .overwrite => "overwrite".toList
  | .skipExisting => "skip-existing".toList

def all : List MergePolicy := [.overwrite, .skipExisting]

def ofName? (value : Text) : Option MergePolicy :=
  all.find? fun policy => policy.name == value

/-- The text about a name which no policy has. -/
def unknownMessage (value : Text) : Text :=
  "unknown merge policy: ".toList ++ value ++ " (expected: overwrite, skip-existing)".toList

end MergePolicy

/-- The outcome of merging one entry. -/
inductive Merge where
  /-- The key was new and the entry was appended. -/
  | added
  /-- The entry took the place of the stored one. -/
  | updated
  /-- The stored entry stayed. -/
  | kept
  deriving DecidableEq, Repr

/-- The entries of a compilation database with the index of their keys. -/
structure Database where
  /-- The entries in the order of their keys' first occurrence. -/
  entries : List Entry := []
  index : Std.HashMap Key Nat := ∅
  policy : MergePolicy := .overwrite

namespace Database

def empty (policy : MergePolicy) : Database where
  policy := policy

def size (d : Database) : Nat := d.entries.length

/-- Appends an entry whose key is not stored. -/
def append (d : Database) (e : Entry) : Database :=
  { d with entries := d.entries ++ [e], index := d.index.insert e.key d.entries.length }

/-- Appends a stored entry of an earlier run, unless its key is stored already. -/
def restore (d : Database) (e : Entry) : Database :=
  if d.index.contains e.key then d else d.append e

/-- The database of the entries of an earlier run. Of several entries with one key the first
stays, under every policy. -/
def ofEntries (entries : List Entry) (policy : MergePolicy) : Database :=
  entries.foldl restore (empty policy)

/-- Merges an entry by the policy. -/
def merge (d : Database) (e : Entry) : Database × Merge :=
  match d.index[e.key]? with
  | some position =>
      match d.policy with
      | .overwrite => ({ d with entries := d.entries.set position e }, .updated)
      | .skipExisting => (d, .kept)
  | none => (d.append e, .added)

def mergeAll (d : Database) (entries : List Entry) : Database :=
  entries.foldl (fun d e => (d.merge e).1) d

def get? (d : Database) (directory file : Text) : Option Entry :=
  match d.index[Key.mk directory file]? with
  | some position => d.entries[position]?
  | none => none

/-- The record about an entry of an earlier run whose key came before. -/
def duplicateRecord (key : Key) : Log.Record :=
  ⟨.warn, .database,
    "Duplicate entry in the previous database: ".toList ++ key.directory ++ [' '] ++ key.file⟩

/-- The records about the entries which `restore` leaves out. -/
def restoreRecords (d : Database) : List Entry → List Log.Record
  | [] => []
  | e :: entries =>
      if d.index.contains e.key then duplicateRecord e.key :: d.restoreRecords entries
      else (d.append e).restoreRecords entries

/-- The records about the entries which `ofEntries` leaves out. -/
def ofEntriesRecords (entries : List Entry) : List Log.Record :=
  (empty .overwrite).restoreRecords entries

end Database

end Compdb
