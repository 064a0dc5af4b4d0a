/-
# Compdb.Proofs.Session.Step — what one event does to a session

What becomes of an event depends on the event and the filter alone. An environment extends the
include set. A task is ignored (`Event.IsIgnored`), or fails (`Event.Fails`), or reports an
invocation (`Event.invocation?`), which is rejected when its arguments have no tokens
(`Event.IsRejected`). `Event.entries` says which entries an event yields, given the directories
collected before it, and `Event.tally` what some events count by themselves.

A task merges its entries, counts itself, and does nothing else (`handle_task`); an environment
extends the include set, counts itself, and does nothing else (`handle_environment`). What later
events depend on follows from these two (`mergesTo_handle_task`), and so does that counting never
changes what is done: what was counted before can as well be added afterwards (`handle_plus`).

Whether an event fails depends on the event and the filter too, so a run up to the first failure
is the whole run exactly when no event fails (`handleUntilError_eq_ok_iff`).
-/
import Compdb.Proofs.Database.Merging
import Compdb.Proofs.Statistics
import Compdb.Session

namespace Compdb

set_option autoImplicit false

/-- The entries which an event yields when these include directories were collected before it: one
for each file of a compiler invocation whose arguments have tokens, in the order of the
files. -/
def Event.entries (filter : TaskFilter) (workingDirectory : Text) (directories : List Text) :
    Event → List Entry
  | .environment _ => []
  | .taskCommandLine taskName commandLine projectFile =>
      match filter.accepts taskName, Invocation.ofLine commandLine with
      | true, some invocation =>
          match CommandLine.tokenize invocation.arguments with
          | .error _ => []
          | .ok tokens =>
              (classify tokens).files.map fun file =>
                { directory := Invocation.projectDirectory projectFile workingDirectory
                  file
                  arguments :=
                    [Invocation.resolveCompiler invocation.compiler workingDirectory]
                      ++ (classify tokens).arguments ++ (classify tokens).pchIncludeArguments
                      ++ directories.map Classification.includeArgument ++ [file] }
      | _, _ => []

/-- A compiler task whose command line does not name the compiler fails, and no other event. -/
def Event.Fails (filter : TaskFilter) : Event → Prop
  | .environment _ => False
  | .taskCommandLine taskName commandLine _ =>
      filter.accepts taskName = true ∧ Invocation.ofLine commandLine = none

instance (filter : TaskFilter) : (event : Event) → Decidable (event.Fails filter)
  | .environment _ => .isFalse not_false
  | .taskCommandLine _ _ _ => instDecidableAnd

/-- A task which does not run the compiler is ignored. -/
def Event.IsIgnored (filter : TaskFilter) : Event → Prop
  | .environment _ => False
  | .taskCommandLine taskName _ _ => filter.accepts taskName = false

instance (filter : TaskFilter) : (event : Event) → Decidable (event.IsIgnored filter)
  | .environment _ => .isFalse not_false
  | .taskCommandLine _ _ _ => instDecidableEqBool _ _

/-- The invocation which an event reports: that of a compiler task whose command line names the
compiler. -/
def Event.invocation? (filter : TaskFilter) : Event → Option Invocation
  | .environment _ => none
  | .taskCommandLine taskName commandLine _ =>
      if filter.accepts taskName then Invocation.ofLine commandLine else none

/-- The tokens of the invocation which an event reports, when its arguments have any. -/
def Event.tokens? (filter : TaskFilter) (event : Event) : Option (List Text) :=
  (event.invocation? filter).bind fun invocation =>
    (CommandLine.tokenize invocation.arguments).toOption

/-- An invocation whose arguments have no tokens is rejected. -/
def Event.IsRejected (filter : TaskFilter) (event : Event) : Prop :=
  (event.invocation? filter).isSome = true ∧ event.tokens? filter = none

instance (filter : TaskFilter) (event : Event) : Decidable (event.IsRejected filter) :=
  instDecidableAnd

/-- What events count by themselves, whatever is made of their entries. -/
def Event.tally (filter : TaskFilter) (events : List Event) : Statistics where
  events := events.length
  ignored := events.countP fun event => event.IsIgnored filter
  invocations := events.countP fun event => (event.invocation? filter).isSome
  rejected := events.countP fun event => event.IsRejected filter

theorem Event.tally_append (filter : TaskFilter) (events more : List Event) :
    tally filter (events ++ more) = tally filter events + tally filter more := by
  simp [tally, Statistics.add_eq]

theorem Event.tally_cons (filter : TaskFilter) (event : Event) (events : List Event) :
    tally filter (event :: events) = tally filter [event] + tally filter events :=
  tally_append filter [event] events

section Tasks

variable {filter : TaskFilter} {taskName commandLine : Text} {invocation : Invocation}
variable (projectFile : Text)

theorem Event.tally_of_refused (refused : filter.accepts taskName = false) :
    tally filter [.taskCommandLine taskName commandLine projectFile] =
      { events := 1, ignored := 1 } := by
  simp [tally, IsIgnored, IsRejected, invocation?, refused]

theorem Event.tally_of_missing (accepted : filter.accepts taskName = true)
    (missing : Invocation.ofLine commandLine = none) :
    tally filter [.taskCommandLine taskName commandLine projectFile] = { events := 1 } := by
  simp [tally, IsIgnored, IsRejected, invocation?, accepted, missing]

theorem Event.tally_of_error {reason : CommandLine.TokenizeError}
    (accepted : filter.accepts taskName = true)
    (parsed : Invocation.ofLine commandLine = some invocation)
    (rejected : CommandLine.tokenize invocation.arguments = .error reason) :
    tally filter [.taskCommandLine taskName commandLine projectFile] =
      { events := 1, invocations := 1, rejected := 1 } := by
  simp [tally, IsIgnored, IsRejected, invocation?, tokens?, Except.toOption, accepted, parsed,
    rejected]

theorem Event.tally_of_ok {tokens : List Text} (accepted : filter.accepts taskName = true)
    (parsed : Invocation.ofLine commandLine = some invocation)
    (tokenized : CommandLine.tokenize invocation.arguments = .ok tokens) :
    tally filter [.taskCommandLine taskName commandLine projectFile] =
      { events := 1, invocations := 1 } := by
  simp [tally, IsIgnored, IsRejected, invocation?, tokens?, Except.toOption, accepted, parsed,
    tokenized]

end Tasks

namespace Session

/-- From the first session to the second, some entries were merged. Nothing else on which the
entries of later events depend is different. -/
structure MergesTo (s : Session) (entries : List Entry) (s' : Session) : Prop where
  database : s'.database = s.database.mergeAll entries
  includes : s'.includes = s.includes
  filter : s'.filter = s.filter
  workingDirectory : s'.workingDirectory = s.workingDirectory

theorem mergesTo_foldl_mergeEntry (s : Session) (entries : List Entry) :
    s.MergesTo entries (entries.foldl mergeEntry s) := by
  induction entries generalizing s with
  | nil => exact ⟨rfl, rfl, rfl, rfl⟩
  | cons e entries ih =>
      obtain ⟨database, includes, filter, workingDirectory⟩ := ih (s.mergeEntry e)
      exact ⟨database, includes, filter, workingDirectory⟩

/-- The entries of an invocation, written out. -/
theorem entriesOf_eq (s : Session) (compiler projectFile : Text) (tokens : List Text) :
    s.entriesOf compiler projectFile tokens =
      (classify tokens).files.map fun file =>
        { directory := Invocation.projectDirectory projectFile s.workingDirectory
          file
          arguments :=
            [Invocation.resolveCompiler compiler s.workingDirectory]
              ++ (classify tokens).arguments ++ (classify tokens).pchIncludeArguments
              ++ s.includes.paths.map Classification.includeArgument ++ [file] } := by
  simp [entriesOf, Classification.entries, Classification.commonArguments]

/-- The session with more counted. -/
def plus (s : Session) (more : Statistics) : Session :=
  { s with statistics := s.statistics + more }

theorem plus_plus (s : Session) (more further : Statistics) :
    (s.plus more).plus further = s.plus (more + further) := by
  simp [plus, add_assoc]

theorem foldl_mergeEntry_plus (s : Session) (more : Statistics) (entries : List Entry) :
    entries.foldl mergeEntry (s.plus more) = (entries.foldl mergeEntry s).plus more := by
  induction entries generalizing s with
  | nil => rfl
  | cons e entries ih =>
      have first : (s.plus more).mergeEntry e = (s.mergeEntry e).plus more := by
        simp [mergeEntry, plus, Statistics.count_eq_add, add_right_comm]
      rw [List.foldl_cons, first, ih, List.foldl_cons]

/-- A task merges the entries which it yields, and counts itself. -/
theorem handle_task (s : Session) (taskName commandLine projectFile : Text) :
    (s.handle (.taskCommandLine taskName commandLine projectFile)).1 =
      (((Event.taskCommandLine taskName commandLine projectFile).entries s.filter
          s.workingDirectory s.includes.paths).foldl mergeEntry s).plus
        (Event.tally s.filter [.taskCommandLine taskName commandLine projectFile]) := by
  cases accepted : s.filter.accepts taskName with
  | false =>
      rw [Event.tally_of_refused projectFile accepted]
      simp only [handle, countEvent, Event.entries, accepted]
      rfl
  | true =>
      cases parsed : Invocation.ofLine commandLine with
      | none =>
          rw [Event.tally_of_missing projectFile accepted parsed]
          simp only [handle, countEvent, Event.entries, accepted, parsed]
          rfl
      | some invocation =>
          have compiled : (s.handle (.taskCommandLine taskName commandLine projectFile)).1 =
              s.countEvent.compile invocation projectFile := by
            simp [handle, countEvent, accepted, parsed]
          rw [compiled, compile]
          cases tokenized : CommandLine.tokenize invocation.arguments with
          | error reason =>
              rw [Event.tally_of_error projectFile accepted parsed tokenized]
              simp only [Event.entries, accepted, parsed, tokenized]
              rfl
          | ok tokens =>
              have before : s.countEvent.countInvocation =
                  s.plus { events := 1, invocations := 1 } := rfl
              rw [Event.tally_of_ok projectFile accepted parsed tokenized]
              simp only [Event.entries, accepted, parsed, tokenized, entriesOf_eq]
              rw [before, foldl_mergeEntry_plus]
              rfl

/-- So it does nothing else that matters to later events. -/
theorem mergesTo_handle_task (s : Session) (taskName commandLine projectFile : Text) :
    s.MergesTo
      ((Event.taskCommandLine taskName commandLine projectFile).entries s.filter
        s.workingDirectory s.includes.paths)
      (s.handle (.taskCommandLine taskName commandLine projectFile)).1 := by
  rw [handle_task]
  obtain ⟨database, includes, filter, workingDirectory⟩ := mergesTo_foldl_mergeEntry s _
  exact ⟨database, includes, filter, workingDirectory⟩

/-- An environment extends the include set, and counts itself. -/
theorem handle_environment (s : Session) (env : Environment) :
    (s.handle (.environment env)).1 =
      (s.addEnvironment env).plus (Event.tally s.filter [.environment env]) := by
  have counted : Event.tally s.filter [.environment env] = { events := 1 } := rfl
  rw [counted]
  rfl

/-- What was counted before can as well be added afterwards. -/
theorem handle_plus (s : Session) (more : Statistics) (event : Event) :
    ((s.plus more).handle event).1 = (s.handle event).1.plus more := by
  have sameFilter : (s.plus more).filter = s.filter := rfl
  cases event with
  | environment env =>
      have extended : (s.plus more).addEnvironment env = (s.addEnvironment env).plus more := rfl
      rw [handle_environment, handle_environment, extended, plus_plus, plus_plus, sameFilter,
        add_comm]
  | taskCommandLine taskName commandLine projectFile =>
      rw [handle_task, handle_task, foldl_mergeEntry_plus, plus_plus, plus_plus, sameFilter,
        add_comm]
      rfl

/-- Every event merges the entries which it yields. -/
theorem database_handle (s : Session) (event : Event) :
    (s.handle event).1.database =
      s.database.mergeAll (event.entries s.filter s.workingDirectory s.includes.paths) := by
  cases event with
  | environment env => rfl
  | taskCommandLine taskName commandLine projectFile =>
      exact (s.mergesTo_handle_task taskName commandLine projectFile).database

theorem filter_handle (s : Session) (event : Event) : (s.handle event).1.filter = s.filter := by
  cases event with
  | environment env => rfl
  | taskCommandLine taskName commandLine projectFile =>
      exact (s.mergesTo_handle_task taskName commandLine projectFile).filter

theorem workingDirectory_handle (s : Session) (event : Event) :
    (s.handle event).1.workingDirectory = s.workingDirectory := by
  cases event with
  | environment env => rfl
  | taskCommandLine taskName commandLine projectFile =>
      exact (s.mergesTo_handle_task taskName commandLine projectFile).workingDirectory

theorem handleAll_cons (s : Session) (event : Event) (events : List Event) :
    s.handleAll (event :: events) = (s.handle event).1.handleAll events :=
  rfl

theorem handleAll_append (s : Session) (events more : List Event) :
    s.handleAll (events ++ more) = (s.handleAll events).handleAll more :=
  List.foldl_append

theorem handleAll_concat (s : Session) (events : List Event) (event : Event) :
    s.handleAll (events ++ [event]) = ((s.handleAll events).handle event).1 :=
  s.handleAll_append events [event]

theorem filter_handleAll (s : Session) (events : List Event) :
    (s.handleAll events).filter = s.filter := by
  induction events generalizing s with
  | nil => rfl
  | cons event events ih => rw [handleAll_cons, ih, filter_handle]

theorem workingDirectory_handleAll (s : Session) (events : List Event) :
    (s.handleAll events).workingDirectory = s.workingDirectory := by
  induction events generalizing s with
  | nil => rfl
  | cons event events ih => rw [handleAll_cons, ih, workingDirectory_handle]

/-! ## What reaches the database -/

/-- The entries which a session merges while it handles events, in order. -/
def merged (s : Session) : List Event → List Entry
  | [] => []
  | event :: events =>
      event.entries s.filter s.workingDirectory s.includes.paths
        ++ (s.handle event).1.merged events

/-- Nothing else reaches the database. -/
theorem database_eq_mergeAll_merged (s : Session) (events : List Event) :
    (s.handleAll events).database = s.database.mergeAll (s.merged events) := by
  induction events generalizing s with
  | nil => rfl
  | cons event events ih =>
      have rest := ih (s.handle event).1
      rw [database_handle, ← Database.mergeAll_append] at rest
      exact rest

/-- The entries after a run, read off the lists: for each key the winner. -/
theorem entries_handleAll_start (config : Config) (context : Context) (previous : List Entry)
    (events : List Event) :
    let merged := (start config context previous).merged events
    ((start config context previous).handleAll events).database.entries =
      ((previous ++ merged).map Entry.key).eraseDups.filterMap
        (Database.winner config.merge previous merged) := by
  rw [database_eq_mergeAll_merged]
  exact Database.entries_eq_filterMap_winner previous _ config.merge

/-! ## Failures -/

/-- The event succeeds or fails whatever happened before it, and says which command line failed. -/
theorem handle_eq_error_iff (s : Session) (event : Event) (reason : SessionError) :
    (s.handle event).2 = .error reason ↔
      ∃ taskName commandLine projectFile,
        event = .taskCommandLine taskName commandLine projectFile ∧ event.Fails s.filter ∧
          reason = .missingCompiler taskName commandLine := by
  cases event with
  | environment env =>
      constructor
      · intro failed
        cases failed
      · rintro ⟨taskName, commandLine, projectFile, same, -⟩
        cases same
  | taskCommandLine taskName commandLine projectFile =>
      have same : s.countEvent.filter = s.filter := rfl
      rw [handle, same]
      cases accepted : s.filter.accepts taskName with
      | false => simp [Event.Fails, accepted]
      | true =>
          cases parsed : Invocation.ofLine commandLine with
          | none => simp [Event.Fails, accepted, parsed, eq_comm]
          | some invocation => simp [Event.Fails, parsed]

theorem handle_eq_ok_iff (s : Session) (event : Event) :
    (s.handle event).2 = .ok () ↔ ¬ event.Fails s.filter := by
  have failing := handle_eq_error_iff s event
  cases outcome : (s.handle event).2 with
  | ok _ =>
      simp only [outcome, reduceCtorEq, false_iff] at failing
      refine iff_of_true rfl fun fails => ?_
      cases event with
      | environment env => exact fails
      | taskCommandLine taskName commandLine projectFile =>
          exact failing _ ⟨taskName, commandLine, projectFile, rfl, fails, rfl⟩
  | error reason =>
      obtain ⟨-, -, -, -, fails, -⟩ := (failing reason).mp outcome
      exact iff_of_false (by simp) (not_not_intro fails)

/-- A run up to the first failure is the whole run when no event fails, and has no result
otherwise. -/
theorem handleUntilError_eq_ok_iff {s s' : Session} {events : List Event} :
    s.handleUntilError events = .ok s' ↔
      (∀ event ∈ events, ¬ event.Fails s.filter) ∧ s' = s.handleAll events := by
  induction events generalizing s with
  | nil => simp [handleUntilError, handleAll, eq_comm]
  | cons event events ih =>
      have rest := ih (s := (s.handle event).1)
      rw [filter_handle] at rest
      rw [handleUntilError, List.forall_mem_cons, ← handle_eq_ok_iff]
      cases handled : s.handle event with
      | mk after outcome =>
          have whole : s.handleAll (event :: events) = after.handleAll events := by
            rw [handleAll, List.foldl_cons, handled]
            rfl
          rw [handled] at rest
          cases outcome with
          | ok _ => simp [rest, whole]
          | error reason => simp

end Session

end Compdb
