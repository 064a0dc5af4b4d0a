/-
# Compdb.Proofs.Session.Commutation — independent tasks can be handled in either order

Two tasks are independent when no entry of one has the key of an entry of the other. Handling one
after the other leaves the same look-ups, the same directories and the same counters, in either
order (`handle_comm`). Tasks collect no directories, so what each of them yields does not depend on
the order, and all the rest is about the database: its new entries can stand in another order, and
what was stored before keeps its place.
-/
import Compdb.Proofs.Database.Commutation
import Compdb.Proofs.Session.Replay

namespace Compdb.Session

set_option autoImplicit false

/-- Two tasks merge what each of them yields by itself. -/
theorem merged_pair (s : Session) {first second : Event} (task : first.isEnvironment = false)
    (task' : second.isEnvironment = false) :
    s.merged [first, second] =
      first.entries s.filter s.workingDirectory s.includes.paths
        ++ second.entries s.filter s.workingDirectory s.includes.paths := by
  have tasks : ∀ event ∈ [first, second], event.isEnvironment = false := by
    simp [task, task']
  rw [merged_of_tasks tasks, List.flatMap_cons, List.flatMap_singleton]

/-- **Independent tasks commute.** When no entry which one task yields has the key of an entry which
the other one yields, the two orders of handling them end with the same look-ups, the same
directories and the same counters, and their entries are the same but for their order. The keys
stored before stay where they are, and the two orders have the same entries there. -/
theorem handle_comm {policy : MergePolicy} (s : Session)
    (reached : Database.Reachable policy s.database) (first second : Event)
    (task : first.isEnvironment = false) (task' : second.isEnvironment = false)
    (apart : Database.Apart (first.entries s.filter s.workingDirectory s.includes.paths)
      (second.entries s.filter s.workingDirectory s.includes.paths)) :
    (∀ directory file, (s.handleAll [first, second]).database.get? directory file =
        (s.handleAll [second, first]).database.get? directory file) ∧
      (s.handleAll [first, second]).includes = (s.handleAll [second, first]).includes ∧
      (s.handleAll [first, second]).statistics = (s.handleAll [second, first]).statistics ∧
      (s.handleAll [first, second]).database.entries.Perm
        (s.handleAll [second, first]).database.entries ∧
      s.database.keys <+: (s.handleAll [first, second]).database.keys ∧
      s.database.keys <+: (s.handleAll [second, first]).database.keys ∧
      ∀ i < s.database.size, (s.handleAll [first, second]).database.entries[i]? =
        (s.handleAll [second, first]).database.entries[i]? := by
  have indexed : s.database.Indexed := reached.indexed
  have merged := s.merged_pair task task'
  have merged' := s.merged_pair task' task
  generalize first.entries s.filter s.workingDirectory s.includes.paths = entries
    at apart merged merged'
  generalize second.entries s.filter s.workingDirectory s.includes.paths = entries'
    at apart merged merged'
  have database : (s.handleAll [first, second]).database =
      s.database.mergeAll (entries ++ entries') := by
    rw [database_eq_mergeAll_merged, merged]
  have database' : (s.handleAll [second, first]).database =
      s.database.mergeAll (entries' ++ entries) := by
    rw [database_eq_mergeAll_merged, merged']
  have sameLookups := indexed.get?_append_comm apart
  have counted : (s.handleAll [first, second]).statistics =
      (s.handleAll [second, first]).statistics := by
    -- each list reports the same outcomes, whether the other one was merged before it or not
    have tallies : Event.tally s.filter [first, second] = Event.tally s.filter [second, first] := by
      rw [Event.tally_cons, add_comm, ← Event.tally_cons]
    rw [statistics_handleAll, statistics_handleAll, tallies, merged, merged',
      Database.outcomes_append, Database.outcomes_append, indexed.outcomes_of_apart apart,
      indexed.outcomes_of_apart apart.symm, Statistics.ofOutcomes_append,
      Statistics.ofOutcomes_append, add_comm (Statistics.ofOutcomes (s.database.outcomes entries))]
  have directories : (s.handleAll [first, second]).includes =
      (s.handleAll [second, first]).includes := by
    rw [includes_of_tasks (by simp [task, task']), includes_of_tasks (by simp [task, task'])]
  rw [database, database']
  exact ⟨sameLookups, directories, counted,
    (indexed.mergeAll _).perm_of_get?_eq (indexed.mergeAll _) sameLookups,
    indexed.keys_isPrefix_mergeAll _, indexed.keys_isPrefix_mergeAll _,
    fun i inside => indexed.getElem?_append_comm apart inside⟩

/-- Each task compiles a stored file and a new one, and the first one compiles its new file twice.
The new files stand in the order of the tasks. -/
theorem handle_comm_newAndStored :
    ∃ s first second,
      s = start Config.default ⟨"/w".toList, []⟩
        [⟨"/p".toList, "a.c".toList, ["cl".toList]⟩, ⟨"/p".toList, "b.c".toList, ["cl".toList]⟩] ∧
      first = Event.taskCommandLine "CL".toList "cl.exe b.c x.c x.c".toList "/p/q".toList ∧
      second = Event.taskCommandLine "CL".toList "cl.exe /c y.c a.c".toList "/p/q".toList ∧
      (s.handleAll [first, second]).database.keys.map Key.file =
        ["a.c".toList, "b.c".toList, "x.c".toList, "y.c".toList] ∧
      (s.handleAll [second, first]).database.keys.map Key.file =
        ["a.c".toList, "b.c".toList, "y.c".toList, "x.c".toList] ∧
      (s.handleAll [first, second]).database.entries.Perm
        (s.handleAll [second, first]).database.entries ∧
      (s.handleAll [first, second]).statistics = (s.handleAll [second, first]).statistics := by
  refine ⟨_, _, _, rfl, rfl, rfl, ?_⟩
  have reached := reachable_handleAll Config.default ⟨"/w".toList, []⟩
    [⟨"/p".toList, "a.c".toList, ["cl".toList]⟩, ⟨"/p".toList, "b.c".toList, ["cl".toList]⟩] []
  obtain ⟨-, -, counted, entries, -⟩ := handle_comm _ reached
    (.taskCommandLine "CL".toList "cl.exe b.c x.c x.c".toList "/p/q".toList)
    (.taskCommandLine "CL".toList "cl.exe /c y.c a.c".toList "/p/q".toList) rfl rfl
    (by decide)
  refine ⟨?_, ?_, entries, counted⟩
  · rw [database_eq_mergeAll_merged, start, addEnvironment, Database.keys_mergeAll]
    decide
  · rw [database_eq_mergeAll_merged, start, addEnvironment, Database.keys_mergeAll]
    decide

end Compdb.Session
