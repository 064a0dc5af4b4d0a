/-
# Compdb.Proofs.Session.History — the database of a run, read off its events

A session is a state which every event changes. What its database holds in the end can be said
without that state: each event yields entries which depend on the environments before it, and
on nothing else that happened (`generated`). The database is the restored one with all these
entries merged in order (`database_handleAll`).

The invariant behind it, `Reached`, says of every session of a run that its include set is the
history of directories without repetitions, and its database what was generated so far. Tasks
which fail, are ignored or are rejected generate nothing.
-/
import Compdb.Proofs.Database.Index
import Compdb.Proofs.IncludeSet
import Compdb.Proofs.Session.Step

namespace Compdb

set_option autoImplicit false

/-- The directories which an event offers. -/
def Event.contribution : Event → List Text
  | .environment env => env.contribution
  | .taskCommandLine .. => []

namespace Session

/-- The directories which were offered up to the end of some events, in order, repetitions
included: those of the start first. -/
def history (context : Context) (events : List Event) : List Text :=
  context.environment.contribution ++ events.flatMap Event.contribution

/-- The entries which the events yield, in order. The entries of an event have the directories
which were offered before it, each once. -/
def generated (config : Config) (context : Context) (events : List Event) : List Entry :=
  events.zipIdx.flatMap fun (event, position) =>
    event.entries (TaskFilter.ofCustomTask config.customTask) context.workingDirectory
      (history context (events.take position)).eraseDups

theorem history_concat (context : Context) (events : List Event) (event : Event) :
    history context (events ++ [event]) = history context events ++ event.contribution := by
  simp [history]

theorem generated_concat (config : Config) (context : Context) (events : List Event)
    (event : Event) :
    generated config context (events ++ [event]) =
      generated config context events ++
        event.entries (TaskFilter.ofCustomTask config.customTask) context.workingDirectory
          (history context events).eraseDups := by
  rw [generated, List.zipIdx_append, List.flatMap_append, generated]
  congr 1
  · apply List.flatMap_congr
    rintro ⟨earlier, position⟩ member
    have inside : position < events.length := by
      simpa using List.snd_lt_of_mem_zipIdx member
    simp only [List.take_append_of_le_length (Nat.le_of_lt inside)]
  · simp

/-- The state of a run after some events, as far as later entries depend on it. -/
structure Reached (config : Config) (context : Context) (previous : List Entry)
    (events : List Event) (s : Session) : Prop where
  filter : s.filter = TaskFilter.ofCustomTask config.customTask
  workingDirectory : s.workingDirectory = context.workingDirectory
  includes : s.includes.paths = (history context events).eraseDups
  database : s.database =
    (Database.ofEntries previous config.merge).mergeAll (generated config context events)

variable {config : Config} {context : Context} {previous : List Entry}

theorem reached_start (distinct : context.environment.NamesDistinct) :
    Reached config context previous [] (start config context previous) where
  filter := rfl
  workingDirectory := rfl
  includes := by
    have holds : IncludeSet.empty.paths = ([] : List Text).eraseDups := rfl
    have offered := IncludeSet.paths_extendEnvironment holds distinct
    rw [history, List.flatMap_nil, List.append_nil]
    exact offered
  database := rfl

/-- Every event leads from a state of the run to the next one. -/
theorem Reached.handle {events : List Event} {s : Session}
    (reached : Reached config context previous events s) {event : Event}
    (distinct : ∀ env, event = .environment env → env.NamesDistinct) :
    Reached config context previous (events ++ [event]) (s.handle event).1 := by
  obtain ⟨filter, workingDirectory, includes, database⟩ := reached
  cases event with
  | environment env =>
      have offered := IncludeSet.paths_extendEnvironment includes (distinct env rfl)
      rw [handle_environment]
      refine ⟨filter, workingDirectory, ?_, ?_⟩
      · rw [history_concat]
        exact offered
      · rw [generated_concat, Event.entries, List.append_nil]
        exact database
  | taskCommandLine taskName commandLine projectFile =>
      have merged := s.mergesTo_handle_task taskName commandLine projectFile
      refine ⟨merged.filter.trans filter, merged.workingDirectory.trans workingDirectory, ?_, ?_⟩
      · rw [merged.includes, history_concat, Event.contribution, List.append_nil]
        exact includes
      · rw [merged.database, generated_concat, Database.mergeAll_append, database, filter,
          workingDirectory, includes]

theorem reached_handleAll {events : List Event}
    (distinctStart : context.environment.NamesDistinct)
    (distinct : ∀ env, .environment env ∈ events → env.NamesDistinct) :
    Reached config context previous events ((start config context previous).handleAll events) := by
  induction events using List.reverseRecOn with
  | nil => exact reached_start distinctStart
  | append_singleton events event ih =>
      rw [handleAll_concat]
      have before := ih fun env member => distinct env (List.mem_append_left _ member)
      exact before.handle fun env same => distinct env (by simp [same])

end Session

end Compdb
