/-
# Compdb.Proofs.Session.Resumption — two runs are as good as one

A run leaves its database behind and forgets the rest: the index, the counters and the include
directories. The next run builds the index anew. Since no key is stored twice, restoring leaves
no entry out, and an index which gives the same positions merges alike, however it was built
(`Database.Agrees`). The include directories are those of the surroundings again; when the events
so far offered no other ones, the entries of later events have the same directories
(`generated_append`).

So the entries after two runs are those after one (`entries_resumed`), and since whatever a run
leaves can be written and loaded, this holds of runs which meet in a file
(`handleUntilError_resumed`).
-/
import Compdb.Proofs.Database.Agreement
import Compdb.Proofs.Session.History
import Compdb.Proofs.Session.Validity
import Mathlib.Data.List.Induction

namespace Compdb

set_option autoImplicit false

namespace Session

variable {config : Config} {context : Context} {previous : List Entry} {events : List Event}

section Known

variable (known : ∀ env, .environment env ∈ events →
  ∀ directory ∈ env.contribution, directory ∈ context.environment.contribution)
include known

/-- Environments which offer nothing new to the surroundings change no later history. -/
theorem eraseDups_history_append (more : List Event) :
    (history context (events ++ more)).eraseDups = (history context more).eraseDups := by
  have offered : ∀ directory ∈ events.flatMap Event.contribution,
      directory ∈ context.environment.contribution := by
    intro directory member
    obtain ⟨event, inEvents, contributed⟩ := List.mem_flatMap.mp member
    cases event with
    | environment env => exact known env inEvents directory contributed
    | taskCommandLine taskName commandLine projectFile => cases contributed
  rw [history, List.flatMap_append, ← List.append_assoc]
  exact eraseDups_append_of_subset offered _

/-- Then later events yield what they would have yielded at the start. -/
theorem generated_append (config : Config) (more : List Event) :
    generated config context (events ++ more) =
      generated config context events ++ generated config context more := by
  induction more using List.reverseRecOn with
  | nil =>
      have none : generated config context [] = [] := rfl
      rw [none, List.append_nil, List.append_nil]
  | append_singleton more event ih =>
      rw [← List.append_assoc, generated_concat, generated_concat, ih,
        eraseDups_history_append known, List.append_assoc]

/-- A session on top of the entries of another one goes on where that one ended. -/
theorem entries_resumed {more : List Event}
    (distinctStart : context.environment.NamesDistinct)
    (distinct : ∀ env, .environment env ∈ events ++ more → env.NamesDistinct) :
    ((start config context
        ((start config context previous).handleAll events).database.entries).handleAll
          more).database.entries =
      ((start config context previous).handleAll (events ++ more)).database.entries := by
  have distinctMore : ∀ env, .environment env ∈ more → env.NamesDistinct :=
    fun env member => distinct env (List.mem_append_right events member)
  have distinctEvents : ∀ env, .environment env ∈ events → env.NamesDistinct :=
    fun env member => distinct env (List.mem_append_left more member)
  have first : ((start config context previous).handleAll events).database =
      (Database.ofEntries previous config.merge).mergeAll (generated config context events) :=
    (reached_handleAll distinctStart distinctEvents).database
  have whole : ((start config context previous).handleAll (events ++ more)).database =
      ((start config context previous).handleAll events).database.mergeAll
        (generated config context more) := by
    rw [(reached_handleAll distinctStart distinct).database, generated_append known,
      Database.mergeAll_append, first]
  -- what remains is about the database between the runs: the index which the second run builds
  -- for it merges the same entries in the same way
  generalize ((start config context previous).handleAll events).database = d at first whole ⊢
  have indexed : d.Indexed := by
    rw [first]
    exact (Database.indexed_ofEntries previous config.merge).mergeAll _
  have policy : d.policy = config.merge := by
    rw [first, Database.policy_mergeAll (Database.indexed_ofEntries previous config.merge),
      Database.policy_ofEntries]
  have resumed : d.Agrees (Database.ofEntries d.entries config.merge) := by
    rw [← policy]
    exact indexed.agrees_ofEntries
  have agrees := resumed.mergeAll indexed (Database.indexed_ofEntries d.entries config.merge)
    (generated config context more)
  rw [(reached_handleAll distinctStart distinctMore).database, whole]
  exact agrees.entries

end Known

/-- **A build may be split over two runs.** None of the events fails, and the environments of the
first ones offer no directory which the start does not offer. Then the first run can be written
to every writable path, whatever fresh name its temporary file has, and a second run with the
remaining events, on top of what is loaded from there, ends with the entries of one run with all
events. -/
theorem handleUntilError_resumed (config : Config) (context : Context) (previous : List Entry)
    (events more : List Event) (tree : FileTree) (workingDirectory : Way) (path temporary : Text)
    (absolute : Path.isAbsolute context.workingDirectory = true)
    (valid : ∀ e ∈ previous, e.validate = .ok e)
    (succeeds : ∀ event ∈ events ++ more, ¬ event.Fails (TaskFilter.ofCustomTask config.customTask))
    (distinctStart : context.environment.NamesDistinct)
    (distinct : ∀ env, .environment env ∈ events ++ more → env.NamesDistinct)
    (known : ∀ env, .environment env ∈ events →
      ∀ directory ∈ env.contribution, directory ∈ context.environment.contribution)
    (writable : Storage.Writable tree workingDirectory path)
    (fresh : Storage.FreshBeside tree workingDirectory path temporary) :
    ∃ whole first second w stored,
      (start config context previous).handleUntilError (events ++ more) = .ok whole ∧
      (start config context previous).handleUntilError events = .ok first ∧
      Writer.create tree workingDirectory path temporary = .ok w ∧
      (w.commit first.database.entries).2 = .ok () ∧
      Storage.load (w.commit first.database.entries).1 workingDirectory path = .ok stored ∧
      (start config context stored).handleUntilError more = .ok second ∧
      second.database.entries = whole.database.entries := by
  have acceptable : ∀ e ∈ ((start config context previous).handleAll events).database.entries,
      e.validate = .ok e := validate_of_mem_handleAll absolute valid events
  obtain ⟨w, created, committed, loaded⟩ := writable.exists_commit fresh acceptable
  refine ⟨_, _, _, w, _, handleUntilError_eq_ok_iff.mpr ⟨succeeds, rfl⟩,
    handleUntilError_eq_ok_iff.mpr ⟨?_, rfl⟩, created, committed, loaded,
    handleUntilError_eq_ok_iff.mpr ⟨?_, rfl⟩, entries_resumed known distinctStart distinct⟩
  · intro event member
    exact succeeds event (List.mem_append_left more member)
  · intro event member
    exact succeeds event (List.mem_append_right events member)

/-- The first run repeats the directory of the start. The second one adds another directory,
replaces the entry of `x.c` and adds one. -/
theorem handleUntilError_resumed_addedDirectory :
    ∃ context previous events more tree,
      context = ⟨"/w".toList, [("INCLUDE".toList, "a".toList)]⟩ ∧
      previous = [⟨"/p".toList, "x.c".toList, ["cl".toList]⟩] ∧
      events =
        [.environment [("EXTERNAL_INCLUDE".toList, "a;a".toList)],
         .taskCommandLine "CL".toList "cl.exe z.c".toList "/p/q".toList] ∧
      more =
        [.environment [("Include".toList, "b".toList)],
         .taskCommandLine "CL".toList "cl.exe y.c x.c".toList "/p/q".toList] ∧
      tree = FileTree.mk ['/', 'r'] [([['d']], .directory)] ∧
      ∃ whole first second w stored,
        (start Config.default context previous).handleUntilError (events ++ more) = .ok whole ∧
        (start Config.default context previous).handleUntilError events = .ok first ∧
        Writer.create tree [['d']] ['x'] ['y'] = .ok w ∧
        Storage.load (w.commit first.database.entries).1 [['d']] ['x'] = .ok stored ∧
        (start Config.default context stored).handleUntilError more = .ok second ∧
        second.database.entries = whole.database.entries ∧
        whole.database.entries =
          [⟨"/p".toList, "x.c".toList,
            ["/w/cl.exe".toList, "/Ia".toList, "/Ib".toList, "x.c".toList]⟩,
           ⟨"/p".toList, "z.c".toList, ["/w/cl.exe".toList, "/Ia".toList, "z.c".toList]⟩,
           ⟨"/p".toList, "y.c".toList,
            ["/w/cl.exe".toList, "/Ia".toList, "/Ib".toList, "y.c".toList]⟩] := by
  refine ⟨_, _, _, _, _, rfl, rfl, rfl, rfl, rfl, ?_⟩
  have distinct : ∀ env : Environment,
      env = [("EXTERNAL_INCLUDE".toList, "a;a".toList)] ∨ env = [("Include".toList, "b".toList)] →
        env.NamesDistinct := by
    rintro env (rfl | rfl) <;> decide
  obtain ⟨whole, first, second, w, stored, ran, ranFirst, created, -, loaded, ranSecond, same⟩ :=
    handleUntilError_resumed Config.default
      ⟨"/w".toList, [("INCLUDE".toList, "a".toList)]⟩
      [⟨"/p".toList, "x.c".toList, ["cl".toList]⟩]
      [.environment [("EXTERNAL_INCLUDE".toList, "a;a".toList)],
       .taskCommandLine "CL".toList "cl.exe z.c".toList "/p/q".toList]
      [.environment [("Include".toList, "b".toList)],
       .taskCommandLine "CL".toList "cl.exe y.c x.c".toList "/p/q".toList]
      (FileTree.mk ['/', 'r'] [([['d']], .directory)]) [['d']] ['x'] ['y']
      (by decide) (by simp [Entry.validate]) (by decide) (by decide)
      (fun env member => distinct env (by simpa using member))
      (by
        intro env member
        obtain rfl : env = [("EXTERNAL_INCLUDE".toList, "a;a".toList)] := by simpa using member
        decide)
      ⟨⟨[['d']], rfl⟩, [['d']], ['x'], rfl, by decide⟩ (by decide)
  refine ⟨whole, first, second, w, stored, ran, ranFirst, created, loaded, ranSecond, same, ?_⟩
  obtain rfl := (handleUntilError_eq_ok_iff.mp ran).2
  rw [entries_handleAll_start]
  decide

end Session

end Compdb
