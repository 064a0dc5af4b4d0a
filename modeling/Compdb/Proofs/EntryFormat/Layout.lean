/-
# Compdb.Proofs.EntryFormat.Layout — databases which others have laid out

A database may come from another program. Then its objects have their keys in any order and among
other keys, and its texts are written and spaced in any way (`WritesDatabase`). None of this makes
a difference to what is read (`parse_of_writesDatabase`): while the members of an object are read,
the fields which were met are those whose keys do not come any more (`awaiting`), so at the end
there are all three. Whether the entries are acceptable is not asked before they are read.
-/
import Compdb.EntryFormat
import Compdb.Proofs.Json.Skimming
import Compdb.Text.Utf8.RoundTrip

namespace Compdb

set_option autoImplicit false

namespace EntryFormat

open Json (ArrayLayout Fault Lexeme ObjectLayout Padded Reader Spells SpellsMember SpellsValue
  WellFormed WritesString arrayLexemes keyedLexemes objectLexemes)

/-- The keys which mean something. -/
def entryKeys : List Text :=
  ["directory".toList, "file".toList, "arguments".toList]

/-- The text is what an entry has under a name. Under other names there can be any value. -/
inductive WritesField (e : Entry) : Text → Text → Prop where
  | directory {t : Text} : WritesString e.directory t → WritesField e "directory".toList t
  | file {t : Text} : WritesString e.file t → WritesField e "file".toList t
  | arguments {items : List Text} {t : Text} : List.Forall₂ WritesString e.arguments items →
      ArrayLayout items t → WritesField e "arguments".toList t
  | other {name t : Text} : name ∉ entryKeys → WellFormed t → WritesField e name t

/-- The member has the name, and what the entry has under it. -/
def WritesMember (e : Entry) (name : Text) (member : Text × Text) : Prop :=
  WritesString name member.1 ∧ WritesField e name member.2

/-- The text is an object for the entry: each key which means something is there once. -/
def WritesEntry (e : Entry) (t : Text) : Prop :=
  ∃ names members, List.Forall₂ (WritesMember e) names members ∧
    (∀ key ∈ entryKeys, names.count key = 1) ∧ ObjectLayout members t

/-- The text is an array with one object for each entry. -/
def WritesDatabase (entries : List Entry) (t : Text) : Prop :=
  ∃ items array, List.Forall₂ WritesEntry entries items ∧ ArrayLayout items array ∧
    Padded array t

/-! ## Fields and members -/

/-- The lexemes of some texts, each a string. -/
def textsLexemes (ts : List Text) : List Lexeme :=
  arrayLexemes (ts.map fun t => [.string (.ok t)])

theorem reads_text (t : Text) : text.Reads [.string (.ok t)] t :=
  fun _ => rfl

theorem reads_texts (ts : List Text) : (Reader.array text).Reads (textsLexemes ts) ts := by
  apply Reader.reads_array
  induction ts with
  | nil => exact .nil
  | cons t ts ih => exact .cons ⟨reads_text t, trivial⟩ ih

/-- The fields of an entry which were met when these names are still to come. -/
def awaiting (e : Entry) (names : List Text) : Fields where
  directory := Reader.fieldBefore directoryKey names e.directory
  file := Reader.fieldBefore fileKey names e.file
  arguments := Reader.fieldBefore argumentsKey names e.arguments

/-- The texts of arguments spell what is read as the arguments. -/
theorem spells_texts {ts items : List Text} (each : List.Forall₂ WritesString ts items) {t : Text}
    (layout : ArrayLayout items t) : Spells t (textsLexemes ts) := by
  refine Json.spells_arrayLayout layout ?_
  rw [List.forall₂_map_right_iff]
  exact each.flip.imp fun _ _ writes => (WritesString.spells writes).spellsValue

section Fields

variable {e : Entry} {names : List Text}

theorem keys_ne :
    directoryKey ≠ fileKey ∧ directoryKey ≠ argumentsKey ∧ fileKey ≠ argumentsKey := by
  decide

theorem reads_directory (later : directoryKey ∉ names) :
    (member (awaiting e (directoryKey :: names)) directoryKey).Reads
      [.colon, .string (.ok e.directory)] (awaiting e names) := by
  intro rest
  simp only [member, awaiting, BEq.rfl, Reader.fieldBefore_self,
    Reader.fieldBefore_of_not_mem later, Reader.fieldBefore_other keys_ne.1.symm,
    Reader.fieldBefore_other keys_ne.2.1.symm]
  rfl

theorem reads_file (later : fileKey ∉ names) :
    (member (awaiting e (fileKey :: names)) fileKey).Reads
      [.colon, .string (.ok e.file)] (awaiting e names) := by
  have notDirectory : (fileKey == directoryKey) = false := by decide
  intro rest
  simp only [member, awaiting, notDirectory, BEq.rfl, Reader.fieldBefore_self,
    Reader.fieldBefore_of_not_mem later, Reader.fieldBefore_other keys_ne.1,
    Reader.fieldBefore_other keys_ne.2.2.symm]
  rfl

theorem reads_arguments (later : argumentsKey ∉ names) :
    (member (awaiting e (argumentsKey :: names)) argumentsKey).Reads
      (.colon :: textsLexemes e.arguments) (awaiting e names) := by
  have missing : (awaiting e (argumentsKey :: names)).arguments = none := by simp [awaiting]
  have met : { awaiting e (argumentsKey :: names) with arguments := some e.arguments } =
      awaiting e names := by
    simp [awaiting, Reader.fieldBefore_of_not_mem later, Reader.fieldBefore_other keys_ne.2.1,
      Reader.fieldBefore_other keys_ne.2.2]
  have notDirectory : (argumentsKey == directoryKey) = false := by decide
  have notFile : (argumentsKey == fileKey) = false := by decide
  intro rest
  rw [← met]
  simp only [member, notDirectory, notFile, BEq.rfl, missing]
  change (Reader.array text (textsLexemes e.arguments ++ rest) >>= fun read => .ok
    ({ awaiting e (argumentsKey :: names) with arguments := some read.1 }, read.2)) = _
  rw [reads_texts]
  rfl

/-- A member under another name leaves the fields as they are. -/
theorem reads_other {name : Text} (unknown : name ∉ entryKeys) {ls : List Lexeme}
    (skim : Reader.Reads Json.Builder.skim.read ls ()) :
    (member (awaiting e (name :: names)) name).Reads (.colon :: ls) (awaiting e names) := by
  have others : name ≠ directoryKey ∧ name ≠ fileKey ∧ name ≠ argumentsKey := by
    refine ⟨?_, ?_, ?_⟩ <;>
      · rintro rfl
        exact unknown (by decide)
  have same : awaiting e (name :: names) = awaiting e names := by
    rw [awaiting, awaiting, Reader.fieldBefore_other others.1.symm,
      Reader.fieldBefore_other others.2.1.symm, Reader.fieldBefore_other others.2.2.symm]
  have notDirectory : ¬ (name == directoryKey) = true := by simp [others.1]
  have notFile : ¬ (name == fileKey) = true := by simp [others.2.1]
  have notArguments : ¬ (name == argumentsKey) = true := by simp [others.2.2]
  intro rest
  rw [same, member, if_neg notDirectory, if_neg notFile, if_neg notArguments]
  change (Json.Builder.skim.read (ls ++ rest) >>= fun read => .ok
    (awaiting e names, read.2)) = _
  rw [skim rest]
  rfl

/-- A member leads from the fields before it to those behind it. -/
theorem reads_field {name value : Text} (writes : WritesField e name value)
    (once : name ∈ entryKeys → name ∉ names) :
    ∃ ls, SpellsValue value ls ∧
      (member (awaiting e (name :: names)) name).Reads (.colon :: ls) (awaiting e names) := by
  cases writes with
  | directory writes =>
      exact ⟨_, writes.spells.spellsValue, reads_directory (once (by decide))⟩
  | file writes => exact ⟨_, writes.spells.spellsValue, reads_file (once (by decide))⟩
  | arguments each layout =>
      exact ⟨_, (spells_texts each layout).spellsValue, reads_arguments (once (by decide))⟩
  | other unknown wellFormed =>
      obtain ⟨ls, skims⟩ := wellFormed.skims
      exact ⟨ls, skims.spells, reads_other unknown (skims.takes.reads nofun)⟩

/-- All members lead to the fields of the entry, when no key which means something comes twice. -/
theorem membersLead_of_writes {members : List (Text × Text)}
    (each : List.Forall₂ (WritesMember e) names members)
    (once : ∀ key ∈ entryKeys, names.count key ≤ 1) :
    ∃ parts : List (Text × List Lexeme),
      List.Forall₂ (fun m part => SpellsMember m (.ok part.1, part.2)) members parts ∧
      Reader.MembersLead member (awaiting e names) parts (awaiting e []) := by
  induction each with
  | nil => exact ⟨[], .nil, .nil _⟩
  | @cons name m names members writes _ ih =>
      have onceLater : ∀ key ∈ entryKeys, names.count key ≤ 1 := fun key known =>
        Nat.le_trans List.count_le_count_cons (once key known)
      have notLater : name ∈ entryKeys → name ∉ names := by
        intro known again
        have count := once name known
        rw [List.count_cons_self] at count
        have := List.count_pos_iff.mpr again
        omega
      obtain ⟨ls, spells, reads⟩ := reads_field writes.2 notLater
      obtain ⟨parts, spellMore, lead⟩ := ih onceLater
      exact ⟨(name, ls) :: parts, .cons ⟨writes.1.spells, spells⟩ spellMore, .cons reads lead⟩

end Fields

/-! ## Entries -/

/-- An object for an entry spells lexemes which are read as the entry. -/
theorem WritesEntry.isItem {e : Entry} {t : Text} (writes : WritesEntry e t) :
    ∃ ls, SpellsValue t ls ∧ Reader.IsItem entry e ls := by
  obtain ⟨names, members, each, once, layout⟩ := writes
  obtain ⟨parts, spell, lead⟩ :=
    membersLead_of_writes each fun key known => Nat.le_of_eq (once key known)
  have start : awaiting e names = {} := by
    have comes : ∀ key ∈ entryKeys, key ∈ names := fun key known =>
      List.count_pos_iff.mp (by rw [once key known]; decide)
    rw [awaiting, Reader.fieldBefore_of_mem (comes directoryKey (by decide)),
      Reader.fieldBefore_of_mem (comes fileKey (by decide)),
      Reader.fieldBefore_of_mem (comes argumentsKey (by decide))]
  rw [start] at lead
  refine ⟨objectLexemes parts, ?_, ?_, trivial⟩
  · rw [Json.objectLexemes_eq_keyedLexemes]
    refine (Json.spells_objectLayout layout ?_).spellsValue
    rw [List.forall₂_map_right_iff]
    exact spell
  · intro rest
    have run := Reader.members_run lead rest
    rw [objectLexemes, List.cons_append, List.append_assoc, List.singleton_append, entry]
    simp only [run]
    rfl

/-- A database is parsed into its entries, however it is laid out. -/
theorem parse_of_writesDatabase {entries : List Entry} {t : Text}
    (writes : WritesDatabase entries t) : parse (Utf8.encode t) = .ok entries := by
  obtain ⟨items, array, each, layout, padded⟩ := writes
  have item : ∃ parts, List.Forall₂ SpellsValue items parts ∧
      List.Forall₂ (Reader.IsItem entry) entries parts := by
    clear layout padded
    induction each with
    | nil => exact ⟨[], .nil, .nil⟩
    | cons writes _ ih =>
        obtain ⟨ls, spells, isItem⟩ := writes.isItem
        obtain ⟨parts, spell, are⟩ := ih
        exact ⟨ls :: parts, .cons spells spell, .cons isItem are⟩
  obtain ⟨parts, spell, are⟩ := item
  have read := Reader.reads_array are []
  rw [List.append_nil] at read
  rw [parse, Utf8.decode_encode, (padded.spells (Json.spells_arrayLayout layout spell)).lex_eq,
    entriesOfLexemes, read]
  rfl

end EntryFormat

end Compdb
