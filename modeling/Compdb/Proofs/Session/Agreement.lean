/-
# Compdb.Proofs.Session.Agreement — runs whose environments agree

A run meets environments at its start and among its events. What it takes from one of them are the
values of two variables (`IncludeSet.ReadsIncludes`), so a run cannot tell environments apart which
agree on these: an event and one which agrees with it do the same to every session
(`handle_of_agrees`), and two runs through agreeing events are in the same state after each of them
(`handleAll_eq_of_forall₂`). That the order of the variables is not part of what a run depends on
matters because each include directory ends up in the arguments of every later entry.
-/
import Compdb.Proofs.IncludeSet.Agreement
import Compdb.Proofs.Session.Step
import Mathlib.Data.List.Forall2

namespace Compdb

set_option autoImplicit false

/-- The same task, or environments which agree. -/
inductive Event.Agrees : Event → Event → Prop where
  | environment {env env' : Environment} (agrees : env.Agrees env') :
      Agrees (.environment env) (.environment env')
  | task (taskName commandLine projectFile : Text) :
      Agrees (.taskCommandLine taskName commandLine projectFile)
        (.taskCommandLine taskName commandLine projectFile)

namespace Session

theorem addEnvironment_of_agrees (s : Session) {env env' : Environment}
    (agrees : env.Agrees env') : s.addEnvironment env' = s.addEnvironment env := by
  rw [addEnvironment, addEnvironment, IncludeSet.extendEnvironment_of_agrees s.includes agrees]

/-- Agreeing events lead to the same session, and fail alike. -/
theorem handle_of_agrees (s : Session) {event event' : Event} (agrees : event.Agrees event') :
    s.handle event' = s.handle event := by
  cases agrees with
  | environment agrees => rw [handle, handle, addEnvironment_of_agrees _ agrees]
  | task => rfl

theorem handleAll_eq_of_forall₂ {events events' : List Event}
    (agree : List.Forall₂ Event.Agrees events events') (s : Session) :
    s.handleAll events' = s.handleAll events := by
  induction agree generalizing s with
  | nil => rfl
  | cons first _ ih =>
      rw [handleAll, List.foldl_cons, handle_of_agrees s first]
      exact ih _

theorem handleUntilError_eq_of_forall₂ {events events' : List Event}
    (agree : List.Forall₂ Event.Agrees events events') (s : Session) :
    s.handleUntilError events' = s.handleUntilError events := by
  induction agree generalizing s with
  | nil => rfl
  | cons first _ ih =>
      rw [handleUntilError, handleUntilError, handle_of_agrees s first]
      cases s.handle _ with
      | mk after outcome =>
          cases outcome with
          | ok _ => exact ih after
          | error reason => rfl

/-- **A run depends on its environments through the values of `INCLUDE` and `EXTERNAL_INCLUDE`
only.** Every include set is extended by an environment as by these two values in turn, whatever
the order of the variables, the spelling of their names and the other variables are. So two runs
whose environments agree, at the start and at every event, end in the same session: with the same
entries, and with the same failure when they stop at the first one. -/
theorem handleAll_of_agrees :
    (∀ (s : IncludeSet) (env : Environment), env.NamesDistinct → s.ReadsIncludes env) ∧
    ∀ (config : Config) (workingDirectory : Text) (previous : List Entry)
      (env env' : Environment) (events events' : List Event),
      env.Agrees env' → List.Forall₂ Event.Agrees events events' →
      (start config ⟨workingDirectory, env'⟩ previous).handleAll events' =
          (start config ⟨workingDirectory, env⟩ previous).handleAll events ∧
        (start config ⟨workingDirectory, env'⟩ previous).handleUntilError events' =
          (start config ⟨workingDirectory, env⟩ previous).handleUntilError events := by
  refine ⟨fun s env distinct => s.readsIncludes distinct, ?_⟩
  intro config workingDirectory previous env env' events events' agrees agree
  have sameStart : start config ⟨workingDirectory, env'⟩ previous =
      start config ⟨workingDirectory, env⟩ previous := addEnvironment_of_agrees _ agrees
  rw [sameStart]
  exact ⟨handleAll_eq_of_forall₂ agree _, handleUntilError_eq_of_forall₂ agree _⟩

/-- The environments are listed in another order, under other spellings and with other variables,
and one of them has an empty variable which the other one lacks. -/
theorem handleAll_of_agrees_respelled :
    ∃ env env' later later' task,
      env = [("EXTERNAL_INCLUDE".toList, "b;c".toList), ("PATH".toList, "p".toList),
        ("INCLUDE".toList, "a;b".toList)] ∧
      env' = [("Include".toList, "a;b".toList), ("external_include".toList, "b;c".toList)] ∧
      later = Event.environment [("INCLUDE".toList, "d".toList)] ∧
      later' = Event.environment [("External_Include".toList, []), ("LIB".toList, "l".toList),
        ("include".toList, "d".toList)] ∧
      task = Event.taskCommandLine "CL".toList "cl.exe x.c".toList "/p/q".toList ∧
      IncludeSet.empty.extendEnvironment env =
        (⟨["a".toList, "b".toList, "c".toList]⟩, 3) ∧
      IncludeSet.empty.extendEnvironment env' = IncludeSet.empty.extendEnvironment env ∧
      ((start Config.default ⟨"/w".toList, env'⟩ []).handleAll [later', task]).database.entries =
        ((start Config.default ⟨"/w".toList, env⟩ []).handleAll [later, task]).database.entries ∧
      ((start Config.default ⟨"/w".toList, env⟩ []).handleAll [later, task]).database.entries =
        [⟨"/p".toList, "x.c".toList, ["/w/cl.exe".toList, "/Ia".toList, "/Ib".toList,
          "/Ic".toList, "/Id".toList, "x.c".toList]⟩] := by
  refine ⟨_, _, _, _, _, rfl, rfl, rfl, rfl, rfl, by decide, ?_, ?_, ?_⟩
  · refine (handleAll_of_agrees.1 IncludeSet.empty _ ?_).agreeing _ ?_ <;> decide
  · refine congrArg (fun s => s.database.entries)
      (handleAll_of_agrees.2 Config.default "/w".toList [] _ _ _ _ ?_
        (.cons (.environment ?_) (.cons (.task _ _ _) .nil))).1 <;> decide
  · rw [entries_handleAll_start]
    decide

end Session

end Compdb
