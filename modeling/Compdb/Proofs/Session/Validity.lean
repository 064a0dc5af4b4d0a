/-
# Compdb.Proofs.Session.Validity — what a session generates can be written

Nothing checks an entry when it is generated; it is checked when the database is written, and a
single bad entry would lose the whole run. So every entry has to be good by the way it is made
(`Entry.IsCompilation`): its directory is the one of the project or the working directory, its
file has a name, and its compiler is an absolute path to the marker. `merged` lists what a
session merges while it handles events, and `valid_handleAll` says that all of it is good, and
hence that the final database can be written, provided that the entries which were restored
could be.
-/
import Compdb.Proofs.Classification.Files
import Compdb.Proofs.Database.Merging
import Compdb.Proofs.Invocation
import Compdb.Proofs.Session.Step
import Compdb.Proofs.Storage

namespace Compdb

set_option autoImplicit false

namespace Entry

/-- The entry says how a compiler is run on a file in a directory. -/
structure IsCompilation (e : Entry) : Prop where
  directory : e.directory ≠ []
  file : e.file ≠ []
  /-- There are the compiler and the file at least. -/
  size : 2 ≤ e.arguments.length
  /-- The first argument is an absolute path which ends with the marker, in any letter case. -/
  compiler : ∃ compiler, e.arguments.head? = some compiler ∧ Path.isAbsolute compiler = true ∧
    Invocation.marker <:+ Text.foldCase compiler
  /-- The last argument is the file. -/
  last : e.arguments.getLast? = some e.file

theorem IsCompilation.validate_eq_ok {e : Entry} (compilation : e.IsCompilation) :
    e.validate = .ok e := by
  refine validate_eq_ok_iff.mpr ⟨compilation.file, compilation.directory, ?_⟩
  intro none
  have size := compilation.size
  rw [none] at size
  cases size

end Entry

/-- Whatever an event yields in an absolute working directory is a compilation. -/
theorem Event.isCompilation_of_mem_entries {filter : TaskFilter} {workingDirectory : Text}
    {directories : List Text} {event : Event} {e : Entry}
    (absolute : Path.isAbsolute workingDirectory = true)
    (member : e ∈ event.entries filter workingDirectory directories) : e.IsCompilation := by
  cases event with
  | environment env => cases member
  | taskCommandLine taskName commandLine projectFile =>
      rw [Event.entries] at member
      split at member
      · next invocation _ parsed =>
        split at member
        · cases member
        · next tokens _ =>
          obtain ⟨file, inFiles, rfl⟩ := List.mem_map.mp member
          have nonempty := Path.ne_nil_of_isAbsolute absolute
          have toMarker : Invocation.marker <:+
              Text.foldCase (Invocation.resolveCompiler invocation.compiler workingDirectory) :=
            (Invocation.marker_suffix_compiler parsed).trans
              ((Invocation.suffix_resolveCompiler _ _).map Char.toLower)
          refine ⟨Invocation.projectDirectory_ne_nil nonempty projectFile,
            Classification.ne_nil_of_mem_files inFiles, ?_, ?_, ?_⟩
          · simp
            omega
          · exact ⟨_, rfl, Invocation.isAbsolute_resolveCompiler absolute _, toMarker⟩
          · exact List.getLast?_concat
      · cases member

namespace Session

theorem isCompilation_of_mem_merged {s : Session} {events : List Event} {e : Entry}
    (absolute : Path.isAbsolute s.workingDirectory = true) (member : e ∈ s.merged events) :
    e.IsCompilation := by
  induction events generalizing s with
  | nil => cases member
  | cons event events ih =>
      rcases List.mem_append.mp member with now | later
      · exact Event.isCompilation_of_mem_entries absolute now
      · refine ih ?_ later
        rw [workingDirectory_handle]
        exact absolute

theorem validate_of_mem_handleAll {config : Config} {context : Context} {previous : List Entry}
    (absolute : Path.isAbsolute context.workingDirectory = true)
    (valid : ∀ e ∈ previous, e.validate = .ok e) (events : List Event) :
    ∀ e ∈ ((start config context previous).handleAll events).database.entries,
      e.validate = .ok e := by
  intro e member
  rw [database_eq_mergeAll_merged] at member
  rcases Database.mem_of_mem_mergeAll member with old | new
  · exact valid e old
  · exact (isCompilation_of_mem_merged absolute new).validate_eq_ok

/-- **A session never spoils its database.** On top of acceptable entries and in an absolute working
directory, all entries are acceptable after any events, so none of them is a reason against
writing the database. What the database holds is what was restored with the merged entries on
top, in order, and each merged entry is a compilation. -/
theorem valid_handleAll (config : Config) (context : Context) (previous : List Entry)
    (events : List Event) (absolute : Path.isAbsolute context.workingDirectory = true)
    (valid : ∀ e ∈ previous, e.validate = .ok e) :
    (∀ e ∈ ((start config context previous).handleAll events).database.entries,
        e.validate = .ok e) ∧
      (∀ (w : Writer) (reason : EntryError),
        (w.commit ((start config context previous).handleAll events).database.entries).2 ≠
          .error (.entry reason)) ∧
      ((start config context previous).handleAll events).database =
        (Database.ofEntries previous config.merge).mergeAll
          ((start config context previous).merged events) ∧
      ∀ e ∈ (start config context previous).merged events, e.IsCompilation := by
  have acceptable : ∀ e ∈ ((start config context previous).handleAll events).database.entries,
      e.validate = .ok e := validate_of_mem_handleAll absolute valid events
  refine ⟨acceptable, fun w => w.commit_ne_entry acceptable, ?_, ?_⟩
  · exact database_eq_mergeAll_merged (start config context previous) events
  · intro e member
    exact isCompilation_of_mem_merged absolute member

/-- An empty token and a name of one quote are no files, even where every token is a source; the
project file lies in a directory without a name. -/
theorem valid_handleAll_namelessTokens :
    ∃ s events,
      s = start Config.default ⟨"/work".toList, []⟩
        [⟨"/p".toList, "x.c".toList, ["cl".toList]⟩] ∧
      events = [.taskCommandLine "CL".toList " \"cl.exe\" /TC a.c \"\" /Tc \"\\\"\" b.c".toList
        "\\app.vcxproj".toList] ∧
      s.merged events =
        [⟨"/work".toList, "a.c".toList, ["/work/cl.exe".toList, "a.c".toList]⟩,
         ⟨"/work".toList, "b.c".toList, ["/work/cl.exe".toList, "b.c".toList]⟩] ∧
      ∀ e ∈ (s.handleAll events).database.entries, e.validate = .ok e := by
  refine ⟨_, _, rfl, rfl, by decide, ?_⟩
  exact (valid_handleAll _ _ _ _ (by decide) (by simp [Entry.validate])).1

end Session

end Compdb
