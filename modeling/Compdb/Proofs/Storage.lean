/-
# Compdb.Proofs.Storage — a stored database is loaded as it was written

A writer works on a tree when its temporary file is the only difference to it and nothing stood
at its place before (`Writer.OpenOn`); a writer which was created under a fresh name does
(`FreshBeside`). The way to the place of the database leads through directories, and a temporary
file neither adds nor takes one, so the place is the same before, during and after the writing.
Hence committing puts the whole text there (`Writer.OpenOn.commit_of_valid`), unless an entry is
not acceptable or the place is none, and what stands there is loaded as the entries which were
written (`load_commit`).
-/
import Compdb.Proofs.EntryFormat.RoundTrip
import Compdb.Proofs.FileTree
import Compdb.Storage

namespace Compdb

set_option autoImplicit false

namespace Entry

/-- Validating changes nothing. -/
theorem validate_eq_ok {e e' : Entry} (ok : e.validate = .ok e') : e' = e := by
  unfold validate at ok
  split at ok
  · cases ok
  · split at ok
    · cases ok
    · split at ok
      · cases ok
      · exact (Except.ok.inj ok).symm

theorem validate_eq_ok_iff {e : Entry} :
    e.validate = .ok e ↔ e.file ≠ [] ∧ e.directory ≠ [] ∧ e.arguments ≠ [] := by
  rw [validate]
  split
  · next empty => simp [List.isEmpty_iff.mp empty]
  · next file =>
    split
    · next empty => simp [List.isEmpty_iff.mp empty]
    · next directory =>
      split
      · next empty => simp [List.isEmpty_iff.mp empty]
      · next arguments =>
        simp only [List.isEmpty_iff] at file directory arguments
        simp [file, directory, arguments]

/-- All entries are accepted when each of them is, and then they stay as they are. -/
theorem validateAll_eq_ok_iff {entries accepted : List Entry} :
    validateAll entries = .ok accepted ↔
      accepted = entries ∧ ∀ e ∈ entries, e.validate = .ok e := by
  induction entries generalizing accepted with
  | nil =>
      rw [validateAll, List.mapM_nil]
      constructor
      · intro ok
        exact ⟨(Except.ok.inj ok).symm, by simp⟩
      · rintro ⟨rfl, -⟩
        rfl
  | cons e entries ih =>
      have unfolded : validateAll (e :: entries) =
          e.validate >>= fun first => validateAll entries >>= fun more => .ok (first :: more) := by
        rw [validateAll, List.mapM_cons]
        rfl
      rw [unfolded]
      constructor
      · intro ok
        cases first : e.validate with
        | error reason => simp [first, bind, Except.bind] at ok
        | ok e' =>
            cases more : validateAll entries with
            | error reason => simp [first, more, bind, Except.bind] at ok
            | ok accepted' =>
                obtain rfl := validate_eq_ok first
                obtain ⟨rfl, each⟩ := ih.mp more
                simp only [first, more, bind, Except.bind, Except.ok.injEq] at ok
                refine ⟨ok.symm, ?_⟩
                intro other member
                rcases List.mem_cons.mp member with rfl | later
                · exact first
                · exact each other later
      · rintro ⟨rfl, each⟩
        have more := ih.mpr ⟨rfl, fun other later => each other (List.mem_cons_of_mem _ later)⟩
        simp only [each e (List.mem_cons_self ..), more, bind, Except.bind]

end Entry

namespace Storage

/-- A name for a temporary file: nothing beside the place of the database has it. -/
def FreshBeside (tree : FileTree) (workingDirectory : Way) (path name : Text) : Prop :=
  ∀ way, tree.findDirectory workingDirectory (directoryOf path) = .ok way →
    tree.node? (way ++ [name]) = none

instance (tree : FileTree) (workingDirectory : Way) (path name : Text) :
    Decidable (FreshBeside tree workingDirectory path name) :=
  match found : tree.findDirectory workingDirectory (directoryOf path) with
  | .error _ => .isTrue fun way leads => by simp [found] at leads
  | .ok way =>
      decidable_of_iff (tree.node? (way ++ [name]) = none) (by simp [FreshBeside, found])

/-- A database can be written to the path: its directory part leads to a directory, for the
temporary file, and it names a place. -/
structure Writable (tree : FileTree) (workingDirectory : Way) (path : Text) : Prop where
  directory : ∃ way, tree.findDirectory workingDirectory (directoryOf path) = .ok way
  place : ∃ directory name, tree.IsPlace workingDirectory path directory name

/-- Whatever is loaded is acceptable. -/
theorem validate_of_load {tree : FileTree} {workingDirectory : Way} {path : Text}
    {entries : List Entry} (loaded : load tree workingDirectory path = .ok entries) :
    ∀ e ∈ entries, e.validate = .ok e := by
  rw [load] at loaded
  split at loaded
  · cases loaded
    simp
  · cases loaded
  · cases loaded
  · split at loaded
    · cases loaded
    · split at loaded
      · cases loaded
      · next accepted =>
        obtain rfl := Except.ok.inj loaded
        obtain ⟨rfl, valid⟩ := Entry.validateAll_eq_ok_iff.mp accepted
        exact valid

/-- What was written is loaded. -/
theorem load_of_find {tree : FileTree} {workingDirectory : Way} {path : Text}
    {entries : List Entry}
    (found : tree.find workingDirectory path =
      .ok (.file (Utf8.encode (EntryFormat.render entries))))
    (valid : ∀ e ∈ entries, e.validate = .ok e) :
    load tree workingDirectory path = .ok entries := by
  have accepted : Entry.validateAll entries = .ok entries :=
    Entry.validateAll_eq_ok_iff.mpr ⟨rfl, valid⟩
  simp only [load, found, EntryFormat.parse_render, accepted]

end Storage

namespace Writer

variable {w : Writer} {tree : FileTree} {entries : List Entry}

/-- The writer works on the tree: its temporary file is the only difference, and nothing stood
there. -/
structure OpenOn (w : Writer) (tree : FileTree) : Prop where
  below : w.temporary ≠ []
  free : tree.node? w.temporary = none
  difference : w.tree = tree.set w.temporary (.file [])

/-- A writer is created when there is a directory for its temporary file. -/
theorem create_eq_ok_iff {workingDirectory : Way} {path name : Text} :
    create tree workingDirectory path name = .ok w ↔
      ∃ way, tree.findDirectory workingDirectory (Storage.directoryOf path) = .ok way ∧
        w = ⟨tree.set (way ++ [name]) (.file []), workingDirectory, way ++ [name], path⟩ := by
  rw [create]
  cases tree.findDirectory workingDirectory (Storage.directoryOf path) with
  | error cause => simp
  | ok way => simp [eq_comm]

theorem openOn_create {workingDirectory : Way} {path name : Text}
    (fresh : Storage.FreshBeside tree workingDirectory path name)
    (created : create tree workingDirectory path name = .ok w) :
    w.OpenOn tree ∧ w.workingDirectory = workingDirectory ∧ w.path = path := by
  obtain ⟨way, found, rfl⟩ := create_eq_ok_iff.mp created
  exact ⟨⟨by simp, fresh way found, rfl⟩, rfl, rfl⟩

/-- Acceptable entries are never refused, wherever they are written. -/
theorem commit_ne_entry (w : Writer) (valid : ∀ e ∈ entries, e.validate = .ok e)
    (reason : EntryError) : (w.commit entries).2 ≠ .error (.entry reason) := by
  have accepted : Entry.validateAll entries = .ok entries :=
    Entry.validateAll_eq_ok_iff.mpr ⟨rfl, valid⟩
  rw [commit, accepted]
  dsimp only
  split <;> simp

namespace OpenOn

variable (opened : w.OpenOn tree) (content : List UInt8)
include opened

omit content in
theorem node?_eq (other : Way) :
    w.tree.node? other = if other = w.temporary then some (.file []) else tree.node? other := by
  rw [opened.difference, FileTree.node?_set _ opened.below]

/-- With its content the temporary file is still the only difference. -/
theorem node?_filled (other : Way) :
    (w.tree.set w.temporary (.file content)).node? other =
      if other = w.temporary then some (.file content) else tree.node? other := by
  rw [FileTree.node?_set _ opened.below, opened.node?_eq]
  split <;> rfl

omit content in
theorem keepsDirectories : tree.KeepsDirectories w.tree := by
  rw [opened.difference]
  exact .set opened.below (by rw [opened.free]; simp) []

theorem keepsDirectories_filled :
    tree.KeepsDirectories (w.tree.set w.temporary (.file content)) := by
  refine opened.keepsDirectories.trans (.set opened.below ?_ content)
  rw [opened.difference, FileTree.node?_set _ opened.below, if_pos rfl]
  simp

theorem keepsDirectories_of_filled :
    (w.tree.set w.temporary (.file content)).KeepsDirectories tree := by
  have fromOpened : w.tree.KeepsDirectories tree := by
    rw [opened.difference]
    exact .of_set opened.below []
  exact (FileTree.KeepsDirectories.of_set opened.below content).trans fromOpened

/-- The temporary file makes nothing a place and takes no place away, its own included. -/
theorem isPlace_iff (workingDirectory : Way) (path : Text) (directory : Way) (name : Text) :
    (w.tree.set w.temporary (.file content)).IsPlace workingDirectory path directory name ↔
      tree.IsPlace workingDirectory path directory name := by
  have noDirectory : (w.tree.set w.temporary (.file content)).node? (directory ++ [name]) ≠
      some .directory ↔ tree.node? (directory ++ [name]) ≠ some .directory := by
    rw [opened.node?_filled]
    split
    · next atTemporary => simp [atTemporary, opened.free]
    · rfl
  constructor
  · intro place
    exact ⟨(opened.keepsDirectories_of_filled content).resolve place.leads,
      noDirectory.mp place.noDirectory⟩
  · intro place
    exact ⟨(opened.keepsDirectories_filled content).resolve place.leads,
      noDirectory.mpr place.noDirectory⟩

/-- Acceptable entries are committed to a place, and their text stands there then. -/
theorem commit_of_valid (valid : ∀ e ∈ entries, e.validate = .ok e) {directory : Way} {name : Text}
    (place : tree.IsPlace w.workingDirectory w.path directory name) :
    ∃ after, w.commit entries = (after, .ok ()) ∧
      after.find w.workingDirectory w.path =
        .ok (.file (Utf8.encode (EntryFormat.render entries))) := by
  have temporary := opened.node?_filled (Utf8.encode (EntryFormat.render entries)) w.temporary
  rw [if_pos rfl] at temporary
  obtain ⟨after, renamed, found⟩ :=
    ((opened.isPlace_iff _ _ _ _ _).mpr place).find_of_rename opened.below temporary
  have accepted : Entry.validateAll entries = .ok entries :=
    Entry.validateAll_eq_ok_iff.mpr ⟨rfl, valid⟩
  refine ⟨after, ?_, found⟩
  rw [commit, accepted]
  simp only [renamed]

/-- Where the temporary file is moved with its content, the place which it takes is all that is
different from before the writing. -/
theorem exists_place_of_rename {workingDirectory : Way} {path : Text} {after : FileTree}
    (moved : (w.tree.set w.temporary (.file content)).rename w.temporary workingDirectory path =
      .ok after) :
    ∃ directory name, tree.IsPlace workingDirectory path directory name ∧
      after = tree.set (directory ++ [name]) (.file content) := by
  have free := FileTree.ne_of_node?_eq_none opened.below opened.free
  have temporary := opened.node?_filled content w.temporary
  rw [if_pos rfl] at temporary
  obtain ⟨directory, name, place⟩ := FileTree.isPlace_of_rename moved
  refine ⟨directory, name, (opened.isPlace_iff _ _ _ _ _).mp place, ?_⟩
  rw [place.rename temporary, opened.difference, FileTree.set_set_of_free free,
    FileTree.remove_set_of_free free] at moved
  exact (Except.ok.inj moved).symm

omit content in
/-- What was found before is found beside the temporary file. -/
theorem find_eq_ok {workingDirectory : Way} {path : Text} {node : Node}
    (found : tree.find workingDirectory path = .ok node) :
    w.tree.find workingDirectory path = .ok node := by
  rw [FileTree.find] at found ⊢
  cases leads : tree.resolve workingDirectory path with
  | error cause =>
      rw [leads] at found
      cases found
  | ok target =>
      rw [opened.keepsDirectories.resolve leads]
      rw [leads] at found
      cases target with
      | directory way => exact found
      | named directory name hasSeparator =>
          simp only [bind, Except.bind, opened.node?_eq] at found ⊢
          by_cases atTemporary : directory ++ [name] = w.temporary
          · -- nothing could be found there
            simp only [atTemporary, opened.free] at found
            cases found
          · simpa only [if_neg atTemporary] using found

omit content in
/-- The database which a writer finds at its place was stored there before: its own temporary file
would be no database. -/
theorem load_eq_ok {workingDirectory : Way} {path : Text} {directory : Way} {name : Text}
    (place : tree.IsPlace workingDirectory path directory name)
    (loaded : Storage.load w.tree workingDirectory path = .ok entries) :
    Storage.load tree workingDirectory path = .ok entries := by
  have leads := opened.keepsDirectories.resolve place.leads
  by_cases atTemporary : directory ++ [name] = w.temporary
  · have empty : w.tree.find workingDirectory path = .ok (.file []) := by
      apply FileTree.find_of_resolve leads
      rw [opened.node?_eq, if_pos atTemporary]
    rw [Storage.load, empty] at loaded
    dsimp only at loaded
    split at loaded
    · cases loaded
    · next parsed =>
      -- the empty text is no database
      cases parsed
  · have same : w.tree.find workingDirectory path = tree.find workingDirectory path := by
      rw [FileTree.find, FileTree.find, leads, place.leads]
      simp only [bind, Except.bind, opened.node?_eq, if_neg atTemporary]
    rw [Storage.load, same] at loaded
    exact loaded

omit content in
theorem discard_eq : w.discard = tree := by
  have free := FileTree.ne_of_node?_eq_none opened.below opened.free
  rw [discard, opened.difference]
  exact FileTree.remove_set_of_free free _

omit content in
/-- Committing fails and leaves no trace, or it sets the file at the place of the database and
nothing else. -/
theorem commit_cases (entries : List Entry) :
    (∃ reason, w.commit entries = (tree, .error reason)) ∨
      ∃ directory name, tree.IsPlace w.workingDirectory w.path directory name ∧
        w.commit entries =
          (tree.set (directory ++ [name]) (.file (Utf8.encode (EntryFormat.render entries))),
            .ok ()) := by
  rw [commit]
  cases accepted : Entry.validateAll entries with
  | error reason => exact Or.inl ⟨.entry reason, by rw [← opened.discard_eq]⟩
  | ok same =>
      obtain ⟨rfl, -⟩ := Entry.validateAll_eq_ok_iff.mp accepted
      dsimp only
      cases moved : (w.tree.set w.temporary
          (.file (Utf8.encode (EntryFormat.render same)))).rename w.temporary w.workingDirectory
          w.path with
      | error cause => exact Or.inl ⟨.file cause, by rw [← opened.discard_eq]⟩
      | ok after =>
          obtain ⟨directory, name, place, rfl⟩ := opened.exists_place_of_rename _ moved
          exact Or.inr ⟨directory, name, place, rfl⟩

/-- Whatever is committed is acceptable, and was committed to a place. -/
theorem valid_and_isPlace (committed : (w.commit entries).2 = .ok ()) :
    (∀ e ∈ entries, e.validate = .ok e) ∧
      ∃ directory name, tree.IsPlace w.workingDirectory w.path directory name := by
  rw [commit] at committed
  cases accepted : Entry.validateAll entries with
  | error reason => simp [accepted] at committed
  | ok same =>
      obtain ⟨rfl, valid⟩ := Entry.validateAll_eq_ok_iff.mp accepted
      refine ⟨valid, ?_⟩
      simp only [accepted] at committed
      split at committed
      · cases committed
      · next after moved =>
        obtain ⟨directory, name, place⟩ := FileTree.isPlace_of_rename moved
        exact ⟨directory, name, (opened.isPlace_iff _ _ _ _ _).mp place⟩

end OpenOn

end Writer

namespace Storage

/-- Acceptable entries can be written to a writable path, and are loaded from there. -/
theorem Writable.exists_commit {tree : FileTree} {workingDirectory : Way} {path temporary : Text}
    {entries : List Entry} (writable : Writable tree workingDirectory path)
    (fresh : FreshBeside tree workingDirectory path temporary)
    (valid : ∀ e ∈ entries, e.validate = .ok e) :
    ∃ w, Writer.create tree workingDirectory path temporary = .ok w ∧
      (w.commit entries).2 = .ok () ∧
      load (w.commit entries).1 workingDirectory path = .ok entries := by
  obtain ⟨⟨way, leads⟩, directory, name, place⟩ := writable
  have created : Writer.create tree workingDirectory path temporary = .ok _ :=
    Writer.create_eq_ok_iff.mpr ⟨way, leads, rfl⟩
  obtain ⟨opened, -, -⟩ := Writer.openOn_create fresh created
  obtain ⟨after, committed, found⟩ := opened.commit_of_valid valid place
  refine ⟨_, created, ?_, ?_⟩
  · rw [committed]
  · rw [committed]
    exact load_of_find found valid

/-- **What is written is what is loaded.** A database is written exactly when its path is writable
and each of its entries is acceptable, and what is loaded from there then are the same entries
in the same order, whatever fresh name the temporary file has. -/
theorem load_commit (tree : FileTree) (workingDirectory : Way) (path temporary : Text)
    (fresh : FreshBeside tree workingDirectory path temporary) (entries : List Entry) :
    ((∃ w, Writer.create tree workingDirectory path temporary = .ok w ∧
          (w.commit entries).2 = .ok ()) ↔
        Writable tree workingDirectory path ∧ ∀ e ∈ entries, e.validate = .ok e) ∧
      ∀ w, Writer.create tree workingDirectory path temporary = .ok w →
        (w.commit entries).2 = .ok () →
        load (w.commit entries).1 workingDirectory path = .ok entries := by
  refine ⟨⟨?_, ?_⟩, ?_⟩
  · rintro ⟨w, created, committed⟩
    obtain ⟨way, found, -⟩ := Writer.create_eq_ok_iff.mp created
    obtain ⟨opened, rfl, rfl⟩ := Writer.openOn_create fresh created
    obtain ⟨valid, place⟩ := opened.valid_and_isPlace committed
    exact ⟨⟨⟨way, found⟩, place⟩, valid⟩
  · rintro ⟨⟨⟨way, found⟩, directory, name, place⟩, valid⟩
    have created : Writer.create tree workingDirectory path temporary = .ok _ :=
      Writer.create_eq_ok_iff.mpr ⟨way, found, rfl⟩
    obtain ⟨opened, -, -⟩ := Writer.openOn_create fresh created
    obtain ⟨after, committed, -⟩ := opened.commit_of_valid valid place
    exact ⟨_, created, by rw [committed]⟩
  · intro w created succeeded
    obtain ⟨opened, rfl, rfl⟩ := Writer.openOn_create fresh created
    obtain ⟨valid, directory, name, place⟩ := opened.valid_and_isPlace succeeded
    obtain ⟨after, committed, found⟩ := opened.commit_of_valid valid place
    rw [committed]
    exact load_of_find found valid

/-- Two entries with one key, of quotes, backslashes, controls, line breaks and a character beyond
the first plane, in the place of another file. -/
theorem load_commit_unusual :
    ∃ tree entries,
      tree = FileTree.mk ['/', 'r'] [([['d']], .directory), ([['d'], ['x']], .file [0])] ∧
      entries =
        [⟨['\x00', '"'], ['\n', '\\', 'n'], [[], ['\x7f', '\x1f', Char.ofNat 0x1F600]]⟩,
         ⟨['\x00', '"'], ['\n', '\\', 'n'], [['\t', '/']]⟩] ∧
      FreshBeside tree [['d']] ['x'] ['y'] ∧
      ∃ w, Writer.create tree [['d']] ['x'] ['y'] = .ok w ∧ (w.commit entries).2 = .ok () ∧
        load (w.commit entries).1 [['d']] ['x'] = .ok entries := by
  have fresh : FreshBeside
      (FileTree.mk ['/', 'r'] [([['d']], .directory), ([['d'], ['x']], .file [0])]) [['d']] ['x']
      ['y'] := by decide
  refine ⟨_, _, rfl, rfl, fresh, ?_⟩
  have written := (load_commit
    (FileTree.mk ['/', 'r'] [([['d']], .directory), ([['d'], ['x']], .file [0])]) [['d']] ['x']
    ['y'] fresh
    [⟨['\x00', '"'], ['\n', '\\', 'n'], [[], ['\x7f', '\x1f', Char.ofNat 0x1F600]]⟩,
     ⟨['\x00', '"'], ['\n', '\\', 'n'], [['\t', '/']]⟩]).1.mpr
    ⟨⟨⟨[['d']], rfl⟩, [['d']], ['x'], rfl, by decide⟩, by simp [Entry.validate]⟩
  obtain ⟨w, created, committed⟩ := written
  exact ⟨w, created, committed, (load_commit _ _ _ _ fresh _).2 w created committed⟩

end Storage

end Compdb
