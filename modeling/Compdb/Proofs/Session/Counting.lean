/-
# Compdb.Proofs.Session.Counting — what the counters of a run say

The counters of a run are what its events count by themselves, with the outcomes of all entries
which were merged (`statistics_handleAll`). Everything else about them is read off this equation:
an event is exactly one of an environment, an ignored task, a failing task and an invocation
(`Event.one_eq`); the database grew by the added entries (`Database.Indexed.size_mergeAll`);
each file of an invocation which was not rejected has one outcome (`length_outcomes_merged`); and
which of updated and kept stays zero is up to the policy
(`Database.Indexed.count_outcomes_eq_zero`).

`accounts_handleAll` says all of this of every session which a run leads to.
-/
import Compdb.Proofs.Database.Lookup
import Compdb.Proofs.Database.Outcomes
import Compdb.Proofs.Session.Step

namespace Compdb

set_option autoImplicit false

/-! ## Events -/

def Event.isEnvironment : Event → Bool
  | .environment _ => true
  | .taskCommandLine .. => false

/-- The files which the invocation of an event compiles. A rejected one compiles none. -/
def Event.files (filter : TaskFilter) (event : Event) : List Text :=
  match event.tokens? filter with
  | none => []
  | some tokens => (classify tokens).files

/-- An event is an environment, is ignored, fails, or reports an invocation, and is only one of
them. -/
theorem Event.one_eq (filter : TaskFilter) (event : Event) :
    1 = (tally filter [event]).ignored + (tally filter [event]).invocations
      + [event].countP isEnvironment + [event].countP fun event => event.Fails filter := by
  cases event with
  | environment env => rfl
  | taskCommandLine taskName commandLine projectFile =>
      cases accepted : filter.accepts taskName with
      | false => simp [tally, IsIgnored, invocation?, isEnvironment, Fails, accepted]
      | true =>
          cases parsed : Invocation.ofLine commandLine <;>
            simp [tally, IsIgnored, invocation?, isEnvironment, Fails, accepted, parsed]

theorem Event.length_eq (filter : TaskFilter) (events : List Event) :
    events.length =
      (tally filter events).ignored + (tally filter events).invocations
        + events.countP isEnvironment + events.countP fun event => event.Fails filter := by
  induction events with
  | nil => rfl
  | cons event events ih =>
      have first := one_eq filter event
      rw [tally_cons, ← List.singleton_append, List.countP_append, List.countP_append,
        List.length_append, List.length_singleton, ih]
      simp only [Statistics.add_eq]
      omega

theorem Event.rejected_le_invocations (filter : TaskFilter) (events : List Event) :
    (tally filter events).rejected ≤ (tally filter events).invocations := by
  apply List.countP_mono_left
  intro event _ rejected
  exact (of_decide_eq_true rejected).1

/-- An event yields one entry for each file, in order. -/
theorem Event.map_file_entries (filter : TaskFilter) (workingDirectory : Text)
    (directories : List Text) (event : Event) :
    (event.entries filter workingDirectory directories).map Entry.file = event.files filter := by
  cases event with
  | environment env => rfl
  | taskCommandLine taskName commandLine projectFile =>
      rw [files, tokens?, invocation?, entries]
      cases filter.accepts taskName with
      | false => rfl
      | true =>
          cases Invocation.ofLine commandLine with
          | none => rfl
          | some invocation =>
              cases tokenized : CommandLine.tokenize invocation.arguments with
              | error reason => simp [tokenized, Except.toOption]
              | ok tokens => simp [tokenized, Except.toOption, Function.comp_def]

namespace Session

/-! ## Runs -/

/-- The errors of handling events one after another, in order. -/
def errors (s : Session) : List Event → List SessionError
  | [] => []
  | event :: events =>
      match s.handle event with
      | (s, .ok ()) => s.errors events
      | (s, .error reason) => reason :: s.errors events

theorem length_errors (s : Session) (events : List Event) :
    (s.errors events).length = events.countP fun event => event.Fails s.filter := by
  induction events generalizing s with
  | nil => rfl
  | cons event events ih =>
      have rest := ih (s.handle event).1
      rw [filter_handle] at rest
      have succeeds := s.handle_eq_ok_iff event
      rw [errors, List.countP_cons, ← rest]
      cases handled : s.handle event with
      | mk after outcome =>
          rw [handled] at succeeds
          cases outcome with
          | ok _ => simp [succeeds.mp rfl]
          | error reason =>
              have fails : event.Fails s.filter := by simpa using succeeds
              simp [fails]

theorem statistics_foldl_mergeEntry (s : Session) (entries : List Entry) :
    (entries.foldl mergeEntry s).statistics =
      s.statistics + Statistics.ofOutcomes (s.database.outcomes entries) := by
  induction entries generalizing s with
  | nil => exact (add_zero s.statistics).symm
  | cons e entries ih =>
      have first : (s.mergeEntry e).statistics =
          s.statistics + Statistics.ofOutcomes [(s.database.merge e).2] :=
        Statistics.count_eq_add _ _
      have reported : s.database.outcomes (e :: entries) =
          [(s.database.merge e).2] ++ (s.mergeEntry e).database.outcomes entries := rfl
      rw [List.foldl_cons, ih, first, reported, Statistics.ofOutcomes_append, add_assoc]

/-- An event counts itself and the outcomes of its entries. -/
theorem statistics_handle (s : Session) (event : Event) :
    (s.handle event).1.statistics =
      s.statistics + Event.tally s.filter [event] + Statistics.ofOutcomes
        (s.database.outcomes (event.entries s.filter s.workingDirectory s.includes.paths)) := by
  cases event with
  | environment env =>
      rw [handle_environment]
      exact (add_zero _).symm
  | taskCommandLine taskName commandLine projectFile =>
      rw [handle_task, add_right_comm, ← statistics_foldl_mergeEntry]
      rfl

/-- **The counters of a run.** Events count themselves, and the entries which were merged count
their outcomes. -/
theorem statistics_handleAll (s : Session) (events : List Event) :
    (s.handleAll events).statistics =
      s.statistics + Event.tally s.filter events
        + Statistics.ofOutcomes (s.database.outcomes (s.merged events)) := by
  induction events generalizing s with
  | nil => exact ((add_zero _).trans (add_zero _)).symm
  | cons event events ih =>
      rw [handleAll_cons, ih, filter_handle, database_handle, statistics_handle, merged,
        Database.outcomes_append, Statistics.ofOutcomes_append,
        Event.tally_cons s.filter event events]
      simp only [add_assoc, add_left_comm, add_comm]

/-- No counter ever decreases. -/
theorem statistics_le_handleAll (s : Session) (events : List Event) :
    s.statistics ≤ (s.handleAll events).statistics := by
  rw [statistics_handleAll, add_assoc]
  exact Statistics.le_add_right _ _

/-- A run merges one entry for each file, in order. -/
theorem map_file_merged (s : Session) (events : List Event) :
    (s.merged events).map Entry.file = events.flatMap (Event.files s.filter) := by
  induction events generalizing s with
  | nil => rfl
  | cons event events ih =>
      rw [merged, List.map_append, Event.map_file_entries, ih, filter_handle, List.flatMap_cons]

/-- So it reports one outcome for each file. -/
theorem length_outcomes_merged (s : Session) (events : List Event) :
    (s.database.outcomes (s.merged events)).length =
      (events.flatMap (Event.files s.filter)).length := by
  rw [Database.length_outcomes, ← map_file_merged, List.length_map]

/-- How the counters of a session relate to the entries with which it started, the events which it
handled and their failures, and the entries which it holds. -/
structure Accounts (policy : MergePolicy) (previous : List Entry) (events : List Event)
    (failures : List SessionError) (s : Session) : Prop where
  handled : s.statistics.events = events.length
  /-- Each event is counted in one way, or is an environment or a failure. -/
  balance : s.statistics.events =
    s.statistics.ignored + s.statistics.invocations + events.countP Event.isEnvironment
      + failures.length
  rejected : s.statistics.rejected ≤ s.statistics.invocations
  /-- There are the entries of the start, one for each key, and the added ones. -/
  size : s.database.size = (previous.map Entry.key).eraseDups.length + s.statistics.added
  /-- Each file of an invocation which was not rejected is counted once. -/
  entries : s.statistics.added + s.statistics.updated + s.statistics.kept =
    (events.flatMap (Event.files s.filter)).length
  updated : policy = .skipExisting → s.statistics.updated = 0
  kept : policy = .overwrite → s.statistics.kept = 0

/-- **The counters add up.** This holds of every session which some events lead to, whatever failed
or was rejected among them; and no counter is smaller after more events. -/
theorem accounts_handleAll (config : Config) (context : Context) (previous : List Entry)
    (events : List Event) :
    Accounts config.merge previous events ((start config context previous).errors events)
        ((start config context previous).handleAll events) ∧
      ∀ more, ((start config context previous).handleAll events).statistics ≤
        ((start config context previous).handleAll (events ++ more)).statistics := by
  have indexed : (start config context previous).database.Indexed :=
    Database.indexed_ofEntries previous config.merge
  have policy : (start config context previous).database.policy = config.merge :=
    Database.policy_ofEntries previous config.merge
  have startSize : (start config context previous).database.size =
      (previous.map Entry.key).eraseDups.length := by
    rw [← Database.keys_ofEntries previous config.merge, Database.length_keys]
    rfl
  have none : (start config context previous).statistics = 0 := rfl
  generalize start config context previous = s at indexed policy startSize none
  have counted := statistics_handleAll s events
  rw [none, zero_add] at counted
  refine ⟨⟨?_, ?_, ?_, ?_, ?_, ?_, ?_⟩, ?_⟩
  · rw [counted]
    rfl
  · rw [counted, length_errors]
    exact Event.length_eq s.filter events
  · rw [counted]
    exact Event.rejected_le_invocations s.filter events
  · rw [counted, database_eq_mergeAll_merged, indexed.size_mergeAll, startSize]
    simp [Statistics.add_eq, Event.tally, Statistics.ofOutcomes]
  · rw [counted, filter_handleAll, ← length_outcomes_merged]
    simp [Statistics.add_eq, Event.tally, ← Statistics.length_of_outcomes]
  · intro skip
    have never : (s.database.outcomes (s.merged events)).count .updated = 0 :=
      indexed.count_outcomes_eq_zero (by decide) (by rw [policy, skip]; decide) _
    rw [counted]
    simpa [Statistics.add_eq, Event.tally, Statistics.ofOutcomes] using never
  · intro overwrite
    have never : (s.database.outcomes (s.merged events)).count .kept = 0 :=
      indexed.count_outcomes_eq_zero (by decide) (by rw [policy, overwrite]; decide) _
    rw [counted]
    simpa [Statistics.add_eq, Event.tally, Statistics.ofOutcomes] using never
  · intro more
    rw [handleAll_append]
    exact statistics_le_handleAll _ more

end Session

end Compdb
