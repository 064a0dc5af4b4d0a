/-
# Compdb.Proofs.Session.Replay — handling tasks a second time

A build which is replayed leaves its database as it is. Tasks collect no directories, so the
second time they yield the same entries (`merged_of_tasks`), and merging the same entries again
changes nothing (`Database.Indexed.entries_mergeAll_again`). That is a fact about all the entries
together: under `overwrite` the second pass goes through entries which the first one replaced, and
only its end is what it started from.

Since all keys are stored by then, no entry is added, and the policy alone decides how the second
pass counts its entries (`handleAll_replayed`).
-/
import Compdb.Proofs.Database.Agreement
import Compdb.Proofs.Database.Lookup
import Compdb.Proofs.Session.Counting

namespace Compdb

set_option autoImplicit false

theorem Database.Reachable.mergeAll {policy : MergePolicy} {d : Database}
    (reached : Reachable policy d) (entries : List Entry) :
    Reachable policy (d.mergeAll entries) := by
  induction entries generalizing d with
  | nil => exact reached
  | cons e entries ih => exact ih (.merge reached e)

namespace Session

/-- Whatever events were handled, the database is one which its policy leads to. -/
theorem reachable_handleAll (config : Config) (context : Context) (previous : List Entry)
    (events : List Event) :
    Database.Reachable config.merge
      ((start config context previous).handleAll events).database := by
  rw [database_eq_mergeAll_merged]
  exact (Database.Reachable.ofEntries previous).mergeAll _

section Tasks

variable {events : List Event} (tasks : ∀ event ∈ events, event.isEnvironment = false)
include tasks

/-- Tasks collect no directories. -/
theorem includes_of_tasks (s : Session) : (s.handleAll events).includes = s.includes := by
  induction events generalizing s with
  | nil => rfl
  | cons event events ih =>
      rw [List.forall_mem_cons] at tasks
      obtain ⟨first, others⟩ := tasks
      rw [handleAll_cons, ih others]
      cases event with
      | environment env => cases first
      | taskCommandLine taskName commandLine projectFile =>
          exact (s.mergesTo_handle_task taskName commandLine projectFile).includes

/-- So each of them yields its entries with the same directories, whatever comes before it. -/
theorem merged_of_tasks (s : Session) :
    s.merged events =
      events.flatMap (Event.entries s.filter s.workingDirectory s.includes.paths) := by
  induction events generalizing s with
  | nil => rfl
  | cons event events ih =>
      rw [List.forall_mem_cons] at tasks
      obtain ⟨first, others⟩ := tasks
      have task : ∀ e ∈ [event], e.isEnvironment = false := by simpa using first
      have sameIncludes : (s.handle event).1.includes = s.includes := includes_of_tasks task s
      rw [merged, ih others, filter_handle, workingDirectory_handle, sameIncludes,
        List.flatMap_cons]

theorem merged_replayed (s : Session) : (s.handleAll events).merged events = s.merged events := by
  rw [merged_of_tasks tasks, merged_of_tasks tasks, filter_handleAll, workingDirectory_handleAll,
    includes_of_tasks tasks]

/-- The second time all keys are stored, so each entry is counted as the policy counts those. -/
theorem statistics_replayed {s : Session} (indexed : s.database.Indexed) :
    ((s.handleAll events).handleAll events).statistics =
      (s.handleAll events).statistics + Event.tally s.filter events + Statistics.ofOutcomes
        (List.replicate (s.merged events).length s.database.policy.outcomeOfStored) := by
  have stored : ∀ e ∈ s.merged events, e.key ∈ (s.handleAll events).database.keys := by
    intro e member
    rw [database_eq_mergeAll_merged]
    exact indexed.key_mem_keys_mergeAll _ member
  have indexedAfter : (s.handleAll events).database.Indexed := by
    rw [database_eq_mergeAll_merged]
    exact indexed.mergeAll _
  have samePolicy : (s.handleAll events).database.policy = s.database.policy := by
    rw [database_eq_mergeAll_merged, Database.policy_mergeAll indexed]
  rw [statistics_handleAll (s.handleAll events), merged_replayed tasks, filter_handleAll,
    indexedAfter.outcomes_of_stored stored, samePolicy]

end Tasks

/-- **Replaying tasks changes nothing.** After a list of tasks was handled, handling it again leaves
the entries and the directories as they are. No entry is added: each one which the tasks yield the
second time is counted as updated or as kept, by the policy. -/
theorem handleAll_replayed {policy : MergePolicy} (s : Session)
    (reached : Database.Reachable policy s.database) (events : List Event)
    (tasks : ∀ event ∈ events, event.isEnvironment = false) :
    ((s.handleAll events).handleAll events).database.entries =
        (s.handleAll events).database.entries ∧
      ((s.handleAll events).handleAll events).includes = (s.handleAll events).includes ∧
      ((s.handleAll events).handleAll events).statistics.added =
        (s.handleAll events).statistics.added ∧
      (policy = .overwrite → ((s.handleAll events).handleAll events).statistics =
        (s.handleAll events).statistics + Event.tally s.filter events
          + { updated := ((s.handleAll events).merged events).length }) ∧
      (policy = .skipExisting → ((s.handleAll events).handleAll events).statistics =
        (s.handleAll events).statistics + Event.tally s.filter events
          + { kept := ((s.handleAll events).merged events).length }) := by
  have indexed : s.database.Indexed := reached.indexed
  have counted := statistics_replayed tasks indexed
  rw [reached.policy_eq] at counted
  refine ⟨?_, includes_of_tasks tasks _, ?_, ?_, ?_⟩
  · rw [database_eq_mergeAll_merged, merged_replayed tasks, database_eq_mergeAll_merged]
    exact indexed.entries_mergeAll_again _
  · rw [counted]
    cases policy <;>
      simp [Statistics.add_eq, Event.tally, Statistics.ofOutcomes, MergePolicy.outcomeOfStored,
        List.count_replicate]
  · rintro rfl
    rw [counted, merged_replayed tasks]
    simp [Statistics.ofOutcomes, MergePolicy.outcomeOfStored, List.count_replicate]
  · rintro rfl
    rw [counted, merged_replayed tasks]
    simp [Statistics.ofOutcomes, MergePolicy.outcomeOfStored, List.count_replicate]

/-- The tasks yield `x.c` twice, with different arguments, so the second pass goes through those of
the first task again. Another task fails, and another one is ignored. -/
theorem handleAll_replayed_differentArguments :
    ∃ s tasks,
      s = (start Config.default ⟨"/w".toList, []⟩
        [⟨"/p".toList, "y.c".toList, ["cl".toList]⟩]).handleAll
          [.environment [("INCLUDE".toList, "a".toList)]] ∧
      tasks =
        [.taskCommandLine "CL".toList "cl.exe /D A x.c".toList "/p/q".toList,
         .taskCommandLine "CL".toList "link.exe x.obj".toList "/p/q".toList,
         .taskCommandLine "Copy".toList "cl.exe x.c".toList "/p/q".toList,
         .taskCommandLine "CL".toList "cl.exe /D B x.c y.c".toList "/p/q".toList] ∧
      s.merged tasks =
        [⟨"/p".toList, "x.c".toList,
          ["/w/cl.exe".toList, "/D".toList, "A".toList, "/Ia".toList, "x.c".toList]⟩,
         ⟨"/p".toList, "x.c".toList,
          ["/w/cl.exe".toList, "/D".toList, "B".toList, "/Ia".toList, "x.c".toList]⟩,
         ⟨"/p".toList, "y.c".toList,
          ["/w/cl.exe".toList, "/D".toList, "B".toList, "/Ia".toList, "y.c".toList]⟩] ∧
      ((s.handleAll tasks).handleAll tasks).database.entries =
        (s.handleAll tasks).database.entries ∧
      ((s.handleAll tasks).handleAll tasks).statistics =
        (s.handleAll tasks).statistics
          + { events := 4, ignored := 1, invocations := 2, updated := 3 } := by
  refine ⟨_, _, rfl, rfl, ?_⟩
  have noEnvironment : ∀ event ∈
      [Event.taskCommandLine "CL".toList "cl.exe /D A x.c".toList "/p/q".toList,
       .taskCommandLine "CL".toList "link.exe x.obj".toList "/p/q".toList,
       .taskCommandLine "Copy".toList "cl.exe x.c".toList "/p/q".toList,
       .taskCommandLine "CL".toList "cl.exe /D B x.c y.c".toList "/p/q".toList],
      event.isEnvironment = false := by decide
  have reached := reachable_handleAll Config.default ⟨"/w".toList, []⟩
    [⟨"/p".toList, "y.c".toList, ["cl".toList]⟩] [.environment [("INCLUDE".toList, "a".toList)]]
  obtain ⟨entries, -, -, overwritten, -⟩ := handleAll_replayed _ reached _ noEnvironment
  refine ⟨by decide, entries, (overwritten rfl).trans ?_⟩
  rw [add_assoc, merged_replayed noEnvironment]
  rfl

end Session

end Compdb
