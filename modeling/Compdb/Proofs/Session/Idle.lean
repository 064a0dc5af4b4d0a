/-
# Compdb.Proofs.Session.Idle — events which change nothing but the counters

A task which fails, is ignored or is rejected leaves a session as it is, but for being counted
(`handle_of_isIdle`). Since counting never changes what is done (`handleAll_plus`), such events
can be left out of a run, wherever they stand and as many of them as one likes: the run without
them ends in the same session, and its counters differ by exactly what was left out
(`handleAll_of_leavesOut`).
-/
import Compdb.Proofs.Invocation.Marker
import Compdb.Proofs.Session.Counting

namespace Compdb

set_option autoImplicit false

/-- The event fails, is ignored or is rejected. -/
def Event.IsIdle (filter : TaskFilter) (event : Event) : Prop :=
  event.Fails filter ∨ event.IsIgnored filter ∨ event.IsRejected filter

instance (filter : TaskFilter) (event : Event) : Decidable (event.IsIdle filter) :=
  instDecidableOr

/-- The second list has the events of the first one but for some, which are left out, and the third
list has those. -/
inductive Event.LeavesOut : List Event → List Event → List Event → Prop where
  | nil : LeavesOut [] [] []
  | keep {events rest out : List Event} (event : Event) (leaves : LeavesOut events rest out) :
      LeavesOut (event :: events) (event :: rest) out
  | leave {events rest out : List Event} (event : Event) (leaves : LeavesOut events rest out) :
      LeavesOut (event :: events) rest (event :: out)

/-- Under a configured custom task, a compiler task fails when the marker is not in its line. -/
theorem Event.fails_iff {customTask : Option Text} {taskName commandLine projectFile : Text} :
    (Event.taskCommandLine taskName commandLine projectFile).Fails
        (TaskFilter.ofCustomTask customTask) ↔
      IsCompilerTask customTask taskName ∧ ¬ Invocation.marker <:+: Text.foldCase commandLine := by
  rw [← TaskFilter.accepts_ofCustomTask_iff, ← Invocation.ofLine_eq_none_iff]
  rfl

theorem Event.IsIdle.tokens?_eq_none {filter : TaskFilter} {event : Event}
    (idle : event.IsIdle filter) : event.tokens? filter = none := by
  cases event with
  | environment env => rfl
  | taskCommandLine taskName commandLine projectFile =>
      rcases idle with ⟨accepted, missing⟩ | ignored | ⟨-, none⟩
      · rw [tokens?, invocation?, if_pos accepted, missing]
        rfl
      · have refused : filter.accepts taskName = false := ignored
        rw [tokens?, invocation?, refused]
        rfl
      · exact none

theorem Event.IsIdle.entries_eq_nil {filter : TaskFilter} {event : Event}
    (idle : event.IsIdle filter) (workingDirectory : Text) (directories : List Text) :
    event.entries filter workingDirectory directories = [] := by
  have noFile := event.map_file_entries filter workingDirectory directories
  rw [files, idle.tokens?_eq_none] at noFile
  exact List.map_eq_nil_iff.mp noFile

namespace Session

/-- An idle event counts itself, and does nothing else. -/
theorem handle_of_isIdle {s : Session} {event : Event} (idle : event.IsIdle s.filter) :
    (s.handle event).1 = s.plus (Event.tally s.filter [event]) := by
  cases event with
  | environment env => rcases idle with fails | ignored | ⟨none, -⟩ <;> contradiction
  | taskCommandLine taskName commandLine projectFile =>
      rw [handle_task, idle.entries_eq_nil]
      rfl

theorem handleAll_plus (s : Session) (more : Statistics) (events : List Event) :
    (s.plus more).handleAll events = (s.handleAll events).plus more := by
  induction events generalizing s with
  | nil => rfl
  | cons event events ih => rw [handleAll_cons, handle_plus, ih, handleAll_cons]

/-- A run without some idle events ends in the same session, but for their counts. -/
theorem handleAll_of_leavesOut {events rest out : List Event}
    (leaves : Event.LeavesOut events rest out) {s : Session}
    (idle : ∀ event ∈ out, event.IsIdle s.filter) :
    s.handleAll events = (s.handleAll rest).plus (Event.tally s.filter out) := by
  induction leaves generalizing s with
  | nil => rfl
  | keep event _ ih =>
      rw [handleAll_cons, handleAll_cons, ← filter_handle s event]
      exact ih (by rwa [filter_handle])
  | @leave events rest out event _ ih =>
      rw [List.forall_mem_cons] at idle
      obtain ⟨first, others⟩ := idle
      rw [handleAll_cons, handle_of_isIdle first, handleAll_plus, ih others, plus_plus,
        Event.tally_cons s.filter event out, add_comm]

/-- **Only a compiler task without the compiler fails**, and what fails, is ignored or is rejected
changes nothing but the counters of events. So all such events, or some of them, can be left out:
the database, the directories and the counters of entries are the same without them, and the
other counters differ by what the left out events count. The filter of a session is that of its
configured custom task from the start, and stays so. -/
theorem handle_eq_error_and_leavesOut (s : Session) (customTask : Option Text)
    (configured : s.filter = TaskFilter.ofCustomTask customTask) :
    (∀ event reason, (s.handle event).2 = .error reason ↔
      ∃ taskName commandLine projectFile,
        event = .taskCommandLine taskName commandLine projectFile ∧
        IsCompilerTask customTask taskName ∧ ¬ Invocation.marker <:+: Text.foldCase commandLine ∧
        reason = .missingCompiler taskName commandLine) ∧
    (∀ event, event.IsIdle s.filter →
      (s.handle event).1.database = s.database ∧ (s.handle event).1.includes = s.includes ∧
      (s.handle event).1.statistics = s.statistics + Event.tally s.filter [event] ∧
      (s.handle event).1.statistics.added = s.statistics.added ∧
      (s.handle event).1.statistics.updated = s.statistics.updated ∧
      (s.handle event).1.statistics.kept = s.statistics.kept) ∧
    ∀ events rest out, Event.LeavesOut events rest out →
      (∀ event ∈ out, event.IsIdle s.filter) →
      (s.handleAll events).database = (s.handleAll rest).database ∧
      (s.handleAll events).includes = (s.handleAll rest).includes ∧
      (s.handleAll events).statistics =
        (s.handleAll rest).statistics + Event.tally s.filter out ∧
      (s.handleAll events).statistics.added = (s.handleAll rest).statistics.added ∧
      (s.handleAll events).statistics.updated = (s.handleAll rest).statistics.updated ∧
      (s.handleAll events).statistics.kept = (s.handleAll rest).statistics.kept := by
  refine ⟨?_, ?_, ?_⟩
  · intro event reason
    rw [handle_eq_error_iff, configured]
    constructor
    · rintro ⟨taskName, commandLine, projectFile, rfl, fails, same⟩
      obtain ⟨compiler, missing⟩ := Event.fails_iff.mp fails
      exact ⟨taskName, commandLine, projectFile, rfl, compiler, missing, same⟩
    · rintro ⟨taskName, commandLine, projectFile, rfl, compiler, missing, same⟩
      exact ⟨taskName, commandLine, projectFile, rfl, Event.fails_iff.mpr ⟨compiler, missing⟩, same⟩
  · intro event idle
    rw [handle_of_isIdle idle]
    exact ⟨rfl, rfl, rfl, rfl, rfl, rfl⟩
  · intro events rest out leaves idle
    rw [handleAll_of_leavesOut leaves idle]
    exact ⟨rfl, rfl, rfl, rfl, rfl, rfl⟩

/-- Left out are a failing task, a rejected one which only the custom task makes a compiler task,
and an ignored one. Another failing task is kept. -/
theorem handle_eq_error_and_leavesOut_interleaved :
    ∃ s link tidy copy includes clang compile,
      s = start { Config.default with customTask := some "Tidy".toList } ⟨"/w".toList, []⟩ [] ∧
      link = Event.taskCommandLine "CL".toList "link.exe x.obj".toList "/p/q".toList ∧
      tidy = Event.taskCommandLine "ClangTidyTask".toList "\"CL.exe\" ".toList "/p/q".toList ∧
      copy = Event.taskCommandLine "Copy".toList "cl.exe x.c".toList "/p/q".toList ∧
      includes = Event.environment [("INCLUDE".toList, "a".toList)] ∧
      clang = Event.taskCommandLine "CLCommandLine".toList "clang x.c".toList "/p/q".toList ∧
      compile = Event.taskCommandLine "CL".toList "cl.exe x.c".toList "/p/q".toList ∧
      (s.handle clang).2 =
        .error (.missingCompiler "CLCommandLine".toList "clang x.c".toList) ∧
      (s.handleAll [link, includes, tidy, clang, compile, copy]).database =
        (s.handleAll [includes, clang, compile]).database ∧
      (s.handleAll [link, includes, tidy, clang, compile, copy]).statistics =
        (s.handleAll [includes, clang, compile]).statistics +
          { events := 3, ignored := 1, invocations := 1, rejected := 1 } := by
  refine ⟨_, _, _, _, _, _, _, rfl, rfl, rfl, rfl, rfl, rfl, rfl, ?_⟩
  obtain ⟨fails, -, leftOut⟩ := handle_eq_error_and_leavesOut
    (start { Config.default with customTask := some "Tidy".toList } ⟨"/w".toList, []⟩ [])
    (some "Tidy".toList) rfl
  have without (link tidy copy includes clang compile : Event) :=
    leftOut [link, includes, tidy, clang, compile, copy] [includes, clang, compile]
      [link, tidy, copy] (.leave _ (.keep _ (.leave _ (.keep _ (.keep _ (.leave _ .nil))))))
  refine ⟨(fails _ _).mpr ⟨_, _, _, rfl, .inr (.inl rfl), by decide, rfl⟩, ?_, ?_⟩
  · exact (without _ _ _ _ _ _ (by decide)).1
  · exact (without _ _ _ _ _ _ (by decide)).2.2.1

end Session

end Compdb
