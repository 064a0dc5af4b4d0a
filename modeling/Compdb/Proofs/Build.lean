/-
# Compdb.Proofs.Build — a build changes the database or nothing

The temporary file of the writer stands in the tree while the stored database is read and the
events are handled, and each of these can fail. Its name is only known to be fresh, which is
what a host grants when it creates the file. A build which fails, at whatever stage, leaves the
very tree which it found; a build which succeeds sets the file at the place of the database and
leaves every other place alone (`run_cases`).

`session_eq_ok_iff` says what the session of a successful build is: the stored entries, with all
events handled and none of them failing. Such a session never fails to be written because of an
entry (`validate_of_session`); only its place can be wrong (`run_of_session`).
-/
import Compdb.Build
import Compdb.Proofs.Session.Validity

namespace Compdb.Build

set_option autoImplicit false

/-- Events are handled to the end exactly when all of them can be read and none fails. -/
theorem handleEvents_eq_ok_iff {start session : Session}
    {results : List (Except EventFormat.LineFault Event)} :
    handleEvents start results = .ok session ↔
      ∃ events : List Event,
        results = events.map .ok ∧ start.handleUntilError events = .ok session := by
  induction results generalizing start with
  | nil =>
      constructor
      · intro handled
        obtain rfl := Except.ok.inj handled
        exact ⟨[], rfl, rfl⟩
      · rintro ⟨events, none, handled⟩
        rw [List.map_eq_nil_iff.mp none.symm] at handled
        obtain rfl := Except.ok.inj handled
        rfl
  | cons result results ih =>
      cases result with
      | error fault =>
          constructor
          · intro handled
            cases handled
          · rintro ⟨events, read, -⟩
            cases events <;> simp at read
      | ok event =>
          rw [handleEvents]
          constructor
          · intro handled
            split at handled
            · cases handled
            · next after succeeded =>
              obtain ⟨events, rfl, rest⟩ := ih.mp handled
              refine ⟨event :: events, rfl, ?_⟩
              rw [Session.handleUntilError, succeeded]
              exact rest
          · rintro ⟨events, read, handled⟩
            cases events with
            | nil => simp at read
            | cons first events =>
                obtain ⟨same, rfl⟩ := List.cons.inj read
                obtain rfl := Except.ok.inj same
                rw [Session.handleUntilError] at handled
                split at handled
                · next after succeeded =>
                  rw [succeeded]
                  exact ih.mpr ⟨events, rfl, handled⟩
                · cases handled

theorem session_eq_ok_iff {s : Surroundings} {tree : FileTree} {config : Config} {input : Text}
    {final : Session} :
    session s tree config input = .ok final ↔
      ∃ previous bytes, ∃ events : List Event,
        Storage.load tree s.workingDirectory config.output = .ok previous ∧
        eventBytes s tree input = .ok bytes ∧
        EventFormat.read bytes = events.map .ok ∧
        (Session.start config s.context previous).handleUntilError events = .ok final := by
  rw [session, prepare]
  cases loaded : Storage.load tree s.workingDirectory config.output with
  | error reason => simp
  | ok previous =>
      cases opened : eventBytes s tree input with
      | error reason => simp
      | ok bytes => simp [handleEvents_eq_ok_iff]

/-- What is loaded is acceptable, and so is what is generated on top of it. -/
theorem validate_of_session {s : Surroundings} {tree : FileTree} {config : Config} {input : Text}
    {final : Session} (absolute : Path.isAbsolute s.context.workingDirectory = true)
    (handled : session s tree config input = .ok final) :
    ∀ e ∈ final.database.entries, e.validate = .ok e := by
  obtain ⟨previous, -, events, loaded, -, -, finished⟩ := session_eq_ok_iff.mp handled
  obtain ⟨-, rfl⟩ := Session.handleUntilError_eq_ok_iff.mp finished
  exact Session.validate_of_mem_handleAll absolute (Storage.validate_of_load loaded) events

/-- The events are those which the input held before the temporary file was there. -/
theorem eventBytes_of_openOn {s : Surroundings} {writer : Writer} (opened : writer.OpenOn s.tree)
    {input : Text} {bytes : List UInt8} (read : eventBytes s s.tree input = .ok bytes) :
    eventBytes s writer.tree input = .ok bytes := by
  unfold eventBytes at read ⊢
  split
  · next standard => rwa [if_pos standard] at read
  · next named =>
    rw [if_neg named] at read
    cases found : s.tree.find s.workingDirectory input with
    | error cause =>
        rw [found] at read
        cases read
    | ok node =>
        rw [found] at read
        rw [opened.find_eq_ok found]
        exact read

/-- A build which has handled all events is written to every place. -/
theorem run_of_session {s : Surroundings} {config : Config} {input : Text} {writer : Writer}
    {final : Session} {directory : Way} {name : Text}
    (absolute : Path.isAbsolute s.context.workingDirectory = true)
    (fresh : Storage.FreshBeside s.tree s.workingDirectory config.output s.temporaryName)
    (created : Writer.create s.tree s.workingDirectory config.output s.temporaryName = .ok writer)
    (handled : session s writer.tree config input = .ok final)
    (place : s.tree.IsPlace s.workingDirectory config.output directory name) :
    ∃ after, run s config input = (after, .ok final.statistics) := by
  obtain ⟨opened, sameDirectory, samePath⟩ := Writer.openOn_create fresh created
  rw [← sameDirectory, ← samePath] at place
  obtain ⟨after, committed, -⟩ :=
    opened.commit_of_valid (validate_of_session absolute handled) place
  refine ⟨after, ?_⟩
  rw [run, created]
  simp only [handled, committed]

/-- **All or nothing**, whatever fresh name the temporary file has. A build which fails leaves the
tree as it was. A build which succeeds has handled all events on top of the stored entries, and
the whole text of the entries which the session holds in the end stands at the place of the
database; nothing else is different. -/
theorem run_cases (s : Surroundings) (config : Config) (input : Text)
    (fresh : Storage.FreshBeside s.tree s.workingDirectory config.output s.temporaryName) :
    (∃ reason, run s config input = (s.tree, .error reason)) ∨
      ∃ (writer : Writer) (previous : List Entry) (bytes : List UInt8) (events : List Event)
        (final : Session) (directory : Way) (name : Text) (after : FileTree),
        Writer.create s.tree s.workingDirectory config.output s.temporaryName = .ok writer ∧
        Storage.load s.tree s.workingDirectory config.output = .ok previous ∧
        eventBytes s writer.tree input = .ok bytes ∧
        (∀ before, eventBytes s s.tree input = .ok before → before = bytes) ∧
        EventFormat.read bytes = events.map .ok ∧
        (Session.start config s.context previous).handleUntilError events = .ok final ∧
        run s config input = (after, .ok final.statistics) ∧
        s.tree.IsPlace s.workingDirectory config.output directory name ∧
        after = s.tree.set (directory ++ [name])
          (.file (Utf8.encode (EntryFormat.render final.database.entries))) ∧
        after.node? (directory ++ [name]) =
          some (.file (Utf8.encode (EntryFormat.render final.database.entries))) ∧
        ∀ other, other ≠ directory ++ [name] → after.node? other = s.tree.node? other := by
  cases created : Writer.create s.tree s.workingDirectory config.output s.temporaryName with
  | error reason =>
      left
      exact ⟨.writerCreation reason, by rw [run, created]⟩
  | ok writer =>
      obtain ⟨opened, sameDirectory, samePath⟩ := Writer.openOn_create fresh created
      cases handled : session s writer.tree config input with
      | error reason =>
          -- nothing was written yet, so only the temporary file has to go
          left
          refine ⟨reason, ?_⟩
          rw [run, created]
          simp only [handled, opened.discard_eq]
      | ok final =>
          obtain ⟨previous, bytes, events, loaded, read, decoded, finished⟩ :=
            session_eq_ok_iff.mp handled
          rcases opened.commit_cases final.database.entries with
            ⟨reason, failed⟩ | ⟨directory, name, place, committed⟩
          · left
            refine ⟨.write config.output reason, ?_⟩
            rw [run, created]
            simp only [handled, failed]
          · right
            rw [sameDirectory, samePath] at place
            refine ⟨writer, previous, bytes, events, final, directory, name, _, rfl,
              opened.load_eq_ok place loaded, read, fun before stored => ?_, decoded, finished, ?_,
              place, rfl, ?_, ?_⟩
            · rw [eventBytes_of_openOn opened stored] at read
              exact Except.ok.inj read
            · rw [run, created]
              simp only [handled, committed]
            · rw [FileTree.node?_set _ (by simp), if_pos rfl]
            · intro other elsewhere
              rw [FileTree.node?_set _ (by simp), if_neg elsewhere]

/-- The stored entry is replaced, and the file of the events stays. -/
theorem run_cases_replaced :
    ∃ s config,
      s = (⟨FileTree.mk "/r".toList
          [(["d".toList], .file (Utf8.encode (EntryFormat.render
            [⟨"/p".toList, "x.c".toList, ["cl".toList]⟩]))),
           (["e".toList], .file (Utf8.encode
            ("\x7b\"type\":\"task_command_line\",\"task_name\":\"CL\",".toList
              ++ "\"command_line\":\"cl.exe x.c\",\"project_file\":\"/p/q\"\x7d".toList)))],
          [], [], [], "t".toList⟩ : Surroundings) ∧
      config = { Config.default with output := "d".toList } ∧
      Storage.FreshBeside s.tree s.workingDirectory config.output s.temporaryName ∧
      ∃ after statistics,
        run s config "e".toList = (after, .ok statistics) ∧
        after.node? ["d".toList] = some (.file (Utf8.encode (EntryFormat.render
          [⟨"/p".toList, "x.c".toList, ["/r/cl.exe".toList, "x.c".toList]⟩]))) ∧
        ∀ other, other ≠ ["d".toList] → after.node? other = s.tree.node? other := by
  obtain ⟨s, isS⟩ : ∃ s, s = (⟨FileTree.mk "/r".toList
      [(["d".toList], .file (Utf8.encode (EntryFormat.render
        [⟨"/p".toList, "x.c".toList, ["cl".toList]⟩]))),
       (["e".toList], .file (Utf8.encode
        ("\x7b\"type\":\"task_command_line\",\"task_name\":\"CL\",".toList
          ++ "\"command_line\":\"cl.exe x.c\",\"project_file\":\"/p/q\"\x7d".toList)))],
      [], [], [], "t".toList⟩ : Surroundings) := ⟨_, rfl⟩
  obtain ⟨config, isConfig⟩ : ∃ config, config = { Config.default with output := "d".toList } :=
    ⟨_, rfl⟩
  have fresh : Storage.FreshBeside s.tree s.workingDirectory config.output s.temporaryName := by
    rw [isS, isConfig]
    decide
  have absolute : Path.isAbsolute s.context.workingDirectory = true := by
    rw [isS]
    decide
  have place : s.tree.IsPlace s.workingDirectory config.output [] "d".toList := by
    rw [isS, isConfig]
    exact ⟨by decide, by decide⟩
  have stored : s.tree.find s.workingDirectory config.output =
      .ok (.file (Utf8.encode (EntryFormat.render
        [⟨"/p".toList, "x.c".toList, ["cl".toList]⟩]))) := by
    rw [isS, isConfig]
    rfl
  obtain ⟨bytes, read, decoded⟩ : ∃ bytes, eventBytes s s.tree "e".toList = .ok bytes ∧
      EventFormat.read bytes =
        [.taskCommandLine "CL".toList "cl.exe x.c".toList "/p/q".toList].map .ok := by
    rw [isS]
    exact ⟨_, rfl, by decide⟩
  obtain ⟨final, handled⟩ : ∃ final,
      (Session.start config s.context [⟨"/p".toList, "x.c".toList, ["cl".toList]⟩]).handleUntilError
        [.taskCommandLine "CL".toList "cl.exe x.c".toList "/p/q".toList] = .ok final := by
    refine ⟨_, Session.handleUntilError_eq_ok_iff.mpr ⟨?_, rfl⟩⟩
    rw [isS, isConfig]
    decide
  have entries : final.database.entries =
      [⟨"/p".toList, "x.c".toList, ["/r/cl.exe".toList, "x.c".toList]⟩] := by
    obtain rfl := (Session.handleUntilError_eq_ok_iff.mp handled).2
    rw [Session.entries_handleAll_start, isS, isConfig]
    decide
  obtain ⟨writer, created⟩ : ∃ writer,
      Writer.create s.tree s.workingDirectory config.output s.temporaryName = .ok writer := by
    rw [isS, isConfig]
    exact ⟨_, rfl⟩
  have opened := (Writer.openOn_create fresh created).1
  have valid : ∀ e ∈ [(⟨"/p".toList, "x.c".toList, ["cl".toList]⟩ : Entry)],
      e.validate = .ok e := by decide
  have whole : session s writer.tree config "e".toList = .ok final :=
    session_eq_ok_iff.mpr ⟨_, bytes, _, Storage.load_of_find (opened.find_eq_ok stored) valid,
      eventBytes_of_openOn opened read, decoded, handled⟩
  obtain ⟨after, ran⟩ := run_of_session absolute fresh created whole place
  refine ⟨s, config, isS, isConfig, fresh, after, final.statistics, ran, ?_⟩
  rcases run_cases s config "e".toList fresh with ⟨reason, failed⟩ |
    ⟨-, previous, bytes', events, final', directory, name, after', -, loaded, -, same, decoded',
      handled', ran', place', -, content, others⟩
  · rw [ran] at failed
    cases failed
  · -- what the theorem speaks of are the stored entry, the event and the place of the database
    rw [Storage.load_of_find stored valid] at loaded
    obtain rfl := Except.ok.inj loaded
    obtain rfl := same bytes read
    rw [decoded] at decoded'
    obtain rfl := List.map_injective_iff.mpr (fun _ _ => Except.ok.inj) decoded'
    rw [handled] at handled'
    obtain rfl := Except.ok.inj handled'
    rw [ran] at ran'
    cases ran'
    have leads := place'.leads
    rw [place.leads] at leads
    cases leads
    rw [entries] at content
    exact ⟨content, others⟩

/-- The second line is no event, after the first one was handled. -/
example :
    let tree := FileTree.mk ['/', 'r'] [([['e']], .file (Utf8.encode
      "\x7b\"type\":\"environment\",\"variables\":\x7b\x7d\x7d\n\x7b".toList))]
    let result := run ⟨tree, [], [], [], ['t']⟩ { Config.default with output := ['d'] } ['e']
    result.1 = tree ∧ result.2.isOk = false := by
  decide

end Compdb.Build
