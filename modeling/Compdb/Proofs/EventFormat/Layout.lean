/-
# Compdb.Proofs.EventFormat.Layout — event files which others have laid out

An event is written as an object with its type and its fields in any order, on a line of its own,
with any spelling of the texts and any white space but line feeds; between the lines there can be
blank ones (`WritesFile`). The type may come last, so the fields are collected first
(`membersLead_of_writes`), and only then the type says what they mean (`eventOf_members`). In both
passes the parts which were met are those whose keys do not come any more.

What is read are the events which were written, in order (`read_of_writesFile`). The variables of
an environment may be written in any order, and so they are compared as a map (`Event.SameAs`).
-/
import Compdb.Proofs.EventFormat.Lines
import Compdb.Proofs.Json.Layout

namespace Compdb

set_option autoImplicit false

/-- The events are the same. Of an environment the value of each name counts. -/
inductive Event.SameAs : Event → Event → Prop where
  | task (taskName commandLine projectFile : Text) :
      SameAs (.taskCommandLine taskName commandLine projectFile)
        (.taskCommandLine taskName commandLine projectFile)
  | environment {env env' : Environment} : (∀ name, env.get? name = env'.get? name) →
      SameAs (.environment env) (.environment env')

/-- A name which is new comes last. -/
theorem Environment.set_of_not_mem {env : Environment} {name : Text}
    (new : name ∉ env.map Prod.fst) (value : Text) :
    env.set name value = env ++ [(name, value)] := by
  have none : ¬ env.any (fun pair => pair.1 == name) = true := by
    rw [List.any_eq_true]
    rintro ⟨pair, member, same⟩
    exact new (List.mem_map.mpr ⟨pair, member, beq_iff_eq.mp same⟩)
  rw [set, if_neg none]

namespace EventFormat

open Json (Fault Lexeme ObjectLayout Padded Reader Spells SpellsMember SpellsValue Value
  WritesString keyedLexemes objectLexemes)

/-! ## Layouts -/

/-- The type of an event, as it is written. -/
def typeName : Event → Text
  | .taskCommandLine _ _ _ => "task_command_line".toList
  | .environment _ => "environment".toList

/-- The keys of an event, besides its type. -/
def fieldKeys : Event → List Text
  | .taskCommandLine _ _ _ =>
      ["task_name".toList, "command_line".toList, "project_file".toList]
  | .environment _ => ["variables".toList]

/-- The member has the name and the value of the variable. -/
def WritesVariable (pair member : Text × Text) : Prop :=
  WritesString pair.1 member.1 ∧ WritesString pair.2 member.2

/-- The text is what an event has under a key. -/
inductive WritesField : Event → Text → Text → Prop where
  | type {e : Event} {t : Text} : WritesString (typeName e) t → WritesField e "type".toList t
  | taskName {taskName commandLine projectFile t : Text} : WritesString taskName t →
      WritesField (.taskCommandLine taskName commandLine projectFile) "task_name".toList t
  | commandLine {taskName commandLine projectFile t : Text} : WritesString commandLine t →
      WritesField (.taskCommandLine taskName commandLine projectFile) "command_line".toList t
  | projectFile {taskName commandLine projectFile t : Text} : WritesString projectFile t →
      WritesField (.taskCommandLine taskName commandLine projectFile) "project_file".toList t
  | environment {env : Environment} {members : List (Text × Text)} {t : Text} :
      (env.map Prod.fst).Nodup → List.Forall₂ WritesVariable env members →
      ObjectLayout members t → WritesField (.environment env) "variables".toList t

/-- The member has the key, and what the event has under it. -/
def WritesMember (e : Event) (key : Text) (member : Text × Text) : Prop :=
  WritesString key member.1 ∧ WritesField e key member.2

/-- The text is an object for the event, with its type and its fields. -/
def WritesObject (e : Event) (t : Text) : Prop :=
  ∃ keys members object, keys.Perm ("type".toList :: fieldKeys e) ∧
    List.Forall₂ (WritesMember e) keys members ∧ ObjectLayout members object ∧ Padded object t

/-- The text is a line for the event. The variables of an environment can be in any order. -/
def WritesLine (e : Event) (t : Text) : Prop :=
  '\n' ∉ t ∧ ∃ e', e.SameAs e' ∧ WritesObject e' t

/-- The text has a line for each event, and blank lines anywhere. -/
inductive WritesFile : List Event → Text → Prop where
  | nil : WritesFile [] []
  | blank {events : List Event} {t ending rest : Text} : Text.allBlank t = true → '\n' ∉ t →
      ending ∈ lineEnds → WritesFile events rest → WritesFile events (t ++ ending ++ rest)
  | event {e : Event} {events : List Event} {t ending rest : Text} : WritesLine e t →
      ending ∈ lineEnds → WritesFile events rest → WritesFile (e :: events) (t ++ ending ++ rest)

theorem nodup_keys (e : Event) : ("type".toList :: fieldKeys e).Nodup := by
  cases e <;>
    · rw [fieldKeys]
      decide

/-! ## The values of an object -/

def kindOf : Event → Kind
  | .taskCommandLine _ _ _ => .taskCommandLine
  | .environment _ => .environment

/-- The value of an object of variables. -/
def variablesValue (env : Environment) : Value :=
  .object (env.map fun pair => (pair.1, .string pair.2))

/-- The event has the value under the key. -/
inductive Holds : Event → Text × Value → Prop where
  | taskName (taskName commandLine projectFile : Text) :
      Holds (.taskCommandLine taskName commandLine projectFile) (taskNameKey, .string taskName)
  | commandLine (taskName commandLine projectFile : Text) :
      Holds (.taskCommandLine taskName commandLine projectFile)
        (commandLineKey, .string commandLine)
  | projectFile (taskName commandLine projectFile : Text) :
      Holds (.taskCommandLine taskName commandLine projectFile)
        (projectFileKey, .string projectFile)
  | environment {env : Environment} : (env.map Prod.fst).Nodup →
      Holds (.environment env) (variablesKey, variablesValue env)

theorem takes_string (t : Text) :
    (Json.Builder.value fieldDepth).Takes 0 [.string (.ok t)] (.string t) :=
  Json.Builder.takes_leaf nofun nofun rfl

theorem reads_string (t : Text) : field.Reads [.string (.ok t)] (.string t) :=
  (takes_string t).reads fun _ _ => Nat.zero_le _

/-- The variables of an environment are read as an object. -/
theorem reads_variables {env : Environment} {members : List (Text × Text)}
    (each : List.Forall₂ WritesVariable env members) {t : Text}
    (layout : ObjectLayout members t) :
    ∃ ls, Spells t ls ∧ field.Reads ls (variablesValue env) := by
  let parts : List (Except Fault Text × List Lexeme) :=
    env.map fun pair => (.ok pair.1, [.string (.ok pair.2)])
  have spells : List.Forall₂ SpellsMember members parts := by
    rw [List.forall₂_map_right_iff]
    exact each.flip.imp fun _ _ writes => ⟨writes.1.spells, writes.2.spells.spellsValue⟩
  have takes : List.Forall₂ ((Json.Builder.value fieldDepth).TakesMember 0) parts
      (env.map fun pair => (pair.1, .string pair.2)) := by
    rw [List.forall₂_map_left_iff, List.forall₂_map_right_iff, List.forall₂_same]
    exact fun pair _ => ⟨rfl, takes_string pair.2⟩
  refine ⟨keyedLexemes parts, Json.spells_objectLayout layout spells, ?_⟩
  exact (Json.Builder.Takes.object takes).reads fun depth limit => by
    rw [← Option.some.inj limit]
    decide

/-- A field is read as the value which the event has under its key. -/
theorem reads_field {e : Event} {key t : Text} (writes : WritesField e key t)
    (noType : key ≠ typeKey) :
    ∃ ls v, SpellsValue t ls ∧ field.Reads ls v ∧ Holds e (key, v) := by
  cases writes with
  | type _ => exact absurd rfl noType
  | taskName writes => exact ⟨_, _, writes.spells.spellsValue, reads_string _, .taskName _ _ _⟩
  | commandLine writes =>
      exact ⟨_, _, writes.spells.spellsValue, reads_string _, .commandLine _ _ _⟩
  | projectFile writes =>
      exact ⟨_, _, writes.spells.spellsValue, reads_string _, .projectFile _ _ _⟩
  | environment distinct each layout =>
      obtain ⟨ls, spells, reads⟩ := reads_variables each layout
      exact ⟨ls, _, spells.spellsValue, reads, .environment distinct⟩

theorem WritesField.writesString_type {e : Event} {key t : Text} (writes : WritesField e key t)
    (isType : key = typeKey) : WritesString (typeName e) t := by
  cases writes with
  | type writes => exact writes
  | taskName _ => exact absurd isType (by decide)
  | commandLine _ => exact absurd isType (by decide)
  | projectFile _ => exact absurd isType (by decide)
  | environment _ _ _ => exact absurd isType (by decide)

theorem reads_kind (e : Event) : kind.Reads [.string (.ok (typeName e))] (kindOf e) := by
  intro rest
  cases e <;> rfl

/-- The parts of an event which were met when these keys are still to come. -/
def awaiting (e : Event) (keys : List Text) (met : List (Text × Value)) : Parts where
  kind := Reader.fieldBefore typeKey keys (kindOf e)
  members := met

section Members

variable {e : Event} {keys : List Text}

/-- The type is judged at once, and can be met once. -/
theorem reads_type (later : typeKey ∉ keys) (met : List (Text × Value)) :
    (member (awaiting e (typeKey :: keys) met) typeKey).Reads
      [.colon, .string (.ok (typeName e))] (awaiting e keys met) := by
  have missing : (awaiting e (typeKey :: keys) met).kind = none := by simp [awaiting]
  have found : { awaiting e (typeKey :: keys) met with kind := some (kindOf e) } =
      awaiting e keys met := by
    simp [awaiting, Reader.fieldBefore_of_not_mem later]
  intro rest
  rw [← found]
  simp only [member, BEq.rfl, missing]
  change (kind ([.string (.ok (typeName e))] ++ rest) >>= fun read => .ok
    ({ awaiting e (typeKey :: keys) met with kind := some read.1 }, read.2)) = _
  rw [reads_kind e rest]
  rfl

/-- Any other member is kept for later. -/
theorem reads_member {key : Text} (noType : key ≠ typeKey) {ls : List Lexeme} {v : Value}
    (reads : field.Reads ls v) (met : List (Text × Value)) :
    (member (awaiting e (key :: keys) met) key).Reads (.colon :: ls)
      (awaiting e keys ((key, v) :: met)) := by
  have notType : ¬ (key == typeKey) = true := by simp [noType]
  have kept : { awaiting e (key :: keys) met with members := (key, v) :: met } =
      awaiting e keys ((key, v) :: met) := by
    simp [awaiting, Reader.fieldBefore_other noType.symm]
  intro rest
  rw [← kept, member, if_neg notType]
  change (field (ls ++ rest) >>= fun read => .ok
    ({ awaiting e (key :: keys) met with members := (key, read.1) :: met }, read.2)) = _
  rw [reads rest]
  rfl

/-- The members lead to the type and to the values of the other keys, in the order of the text. -/
theorem membersLead_of_writes {members : List (Text × Text)}
    (each : List.Forall₂ (WritesMember e) keys members) (distinct : keys.Nodup) :
    ∀ met, ∃ (parts : List (Text × List Lexeme)) (values : List (Text × Value)),
      List.Forall₂ (fun m part => SpellsMember m (.ok part.1, part.2)) members parts ∧
      values.map Prod.fst = keys.filter (· ≠ typeKey) ∧ (∀ pair ∈ values, Holds e pair) ∧
      Reader.MembersLead member (awaiting e keys met) parts
        (awaiting e [] (values.reverse ++ met)) := by
  induction each with
  | nil => exact fun met => ⟨[], [], .nil, rfl, List.forall_mem_nil _, .nil _⟩
  | @cons key m keys members writes _ ih =>
      obtain ⟨new, distinctLater⟩ := List.nodup_cons.mp distinct
      intro met
      by_cases isType : key = typeKey
      · have spells := (writes.2.writesString_type isType).spells
        subst isType
        obtain ⟨parts, values, spell, named, hold, lead⟩ := ih distinctLater met
        refine ⟨(typeKey, _) :: parts, values, .cons ⟨writes.1.spells, spells.spellsValue⟩ spell,
          ?_, hold, .cons (reads_type new met) lead⟩
        simp [named]
      · obtain ⟨ls, v, spells, reads, holds⟩ := reads_field writes.2 isType
        obtain ⟨parts, values, spell, named, hold, lead⟩ := ih distinctLater ((key, v) :: met)
        refine ⟨(key, ls) :: parts, (key, v) :: values, .cons ⟨writes.1.spells, spells⟩ spell, ?_,
          List.forall_mem_cons.mpr ⟨holds, hold⟩, .cons (reads_member isType reads met) ?_⟩
        · simp [isType, named]
        · rw [List.reverse_cons, List.append_assoc, List.singleton_append]
          exact lead

end Members

/-! ## The event of the values -/

/-- The fields of a task which were met when these keys are still to come. -/
def awaitingTask (taskName commandLine projectFile : Text) (keys : List Text) : TaskFields where
  taskName := Reader.fieldBefore taskNameKey keys taskName
  commandLine := Reader.fieldBefore commandLineKey keys commandLine
  projectFile := Reader.fieldBefore projectFileKey keys projectFile

section Task

variable {taskName commandLine projectFile : Text}

/-- Each field is met once. -/
theorem take_awaitingTask {pair : Text × Value} {keys : List Text}
    (holds : Holds (.taskCommandLine taskName commandLine projectFile) pair)
    (later : pair.1 ∉ keys) :
    (awaitingTask taskName commandLine projectFile (pair.1 :: keys)).take pair =
      .ok (awaitingTask taskName commandLine projectFile keys) := by
  have distinct : taskNameKey ≠ commandLineKey ∧ taskNameKey ≠ projectFileKey ∧
      commandLineKey ≠ projectFileKey := by
    decide
  cases holds with
  | taskName =>
      simp only [TaskFields.take, awaitingTask, Reader.fieldBefore_self,
        Reader.fieldBefore_of_not_mem later, Reader.fieldBefore_other distinct.1.symm,
        Reader.fieldBefore_other distinct.2.1.symm]
      rfl
  | commandLine =>
      simp only [TaskFields.take, awaitingTask, Reader.fieldBefore_self,
        Reader.fieldBefore_of_not_mem later, Reader.fieldBefore_other distinct.1,
        Reader.fieldBefore_other distinct.2.2.symm]
      rfl
  | projectFile =>
      simp only [TaskFields.take, awaitingTask, Reader.fieldBefore_self,
        Reader.fieldBefore_of_not_mem later, Reader.fieldBefore_other distinct.2.1,
        Reader.fieldBefore_other distinct.2.2]
      rfl

theorem foldlM_take {values : List (Text × Value)}
    (hold : ∀ pair ∈ values, Holds (.taskCommandLine taskName commandLine projectFile) pair)
    (distinct : (values.map Prod.fst).Nodup) :
    values.foldlM TaskFields.take
        (awaitingTask taskName commandLine projectFile (values.map Prod.fst)) =
      .ok (awaitingTask taskName commandLine projectFile []) := by
  induction values with
  | nil => rfl
  | cons pair values ih =>
      rw [List.forall_mem_cons] at hold
      obtain ⟨new, distinct⟩ := List.nodup_cons.mp distinct
      rw [List.foldlM_cons, List.map_cons, take_awaitingTask hold.1 new]
      exact ih hold.2 distinct

end Task

/-- The variables of an object with different names are these variables. -/
theorem variablesOf_variablesValue {env : Environment} (distinct : (env.map Prod.fst).Nodup) :
    variablesOf (variablesValue env) = .ok env := by
  have fold : ∀ (later before : Environment), ((before ++ later).map Prod.fst).Nodup →
      (later.map fun pair => (pair.1, Value.string pair.2)).foldlM
        (fun env pair => do return Environment.set env pair.1 (← textOf pair.2)) before =
        (.ok (before ++ later) : Except Fault Environment) := by
    intro later
    induction later with
    | nil =>
        intro before _
        rw [List.append_nil]
        rfl
    | cons pair later ih =>
        intro before distinct
        have new : pair.1 ∉ before.map Prod.fst := by
          rw [List.map_append, List.nodup_append] at distinct
          exact fun member => distinct.2.2 _ member _ (List.mem_cons_self ..) rfl
        have again : before ++ pair :: later = (before ++ [pair]) ++ later := by simp
        rw [again] at distinct ⊢
        rw [List.map_cons, List.foldlM_cons]
        change List.foldlM _ (before.set pair.1 pair.2) _ = _
        rw [Environment.set_of_not_mem new]
        exact ih _ distinct
  exact fold env [] distinct

/-- The values of all keys make the event, in any order. -/
theorem eventOf_members {e : Event} {values : List (Text × Value)}
    (hold : ∀ pair ∈ values, Holds e pair) (all : (values.map Prod.fst).Perm (fieldKeys e)) :
    eventOf (kindOf e) (.members values) = .ok e := by
  cases e with
  | taskCommandLine taskName commandLine projectFile =>
      have distinct : (values.map Prod.fst).Nodup := all.nodup_iff.mpr (nodup_keys _).of_cons
      have start : awaitingTask taskName commandLine projectFile (values.map Prod.fst) = {} := by
        have comes : ∀ key ∈ [taskNameKey, commandLineKey, projectFileKey],
            key ∈ values.map Prod.fst := fun key known => all.mem_iff.mpr known
        rw [awaitingTask, Reader.fieldBefore_of_mem (comes taskNameKey (by simp)),
          Reader.fieldBefore_of_mem (comes commandLineKey (by simp)),
          Reader.fieldBefore_of_mem (comes projectFileKey (by simp))]
      have fold := foldlM_take hold distinct
      rw [start] at fold
      simp only [kindOf, eventOf, fold]
      rfl
  | environment env =>
      obtain ⟨pair, rfl, -⟩ := List.map_eq_singleton_iff.mp (List.perm_singleton.mp all)
      cases hold pair (List.mem_singleton_self pair) with
      | environment distinct =>
          have found : takeVariables none (variablesKey, variablesValue env) = .ok (some env) := by
            rw [takeVariables, if_pos BEq.rfl, variablesOf_variablesValue distinct]
            rfl
          simp only [kindOf, eventOf, List.foldlM_cons, found]
          rfl

/-- An object for an event is parsed into the event. -/
theorem parse_of_writesObject {e : Event} {t : Text} (writes : WritesObject e t) :
    parse t = .ok e := by
  obtain ⟨keys, members, object, perm, each, layout, padded⟩ := writes
  obtain ⟨parts, values, spell, named, hold, lead⟩ :=
    membersLead_of_writes each (perm.nodup_iff.mpr (nodup_keys e)) []
  have start : awaiting e keys [] = {} := by
    have comes : typeKey ∈ keys := perm.mem_iff.mpr (List.mem_cons_self ..)
    rw [awaiting, Reader.fieldBefore_of_mem comes]
  have all : (values.map Prod.fst).Perm (fieldKeys e) := by
    have others : ("type".toList :: fieldKeys e).filter (· ≠ typeKey) = fieldKeys e := by
      cases e <;>
        · rw [fieldKeys]
          decide
    rw [named, ← others]
    exact perm.filter _
  rw [start] at lead
  have run := Reader.members_run lead []
  rw [List.append_nil] at run
  have spells : Spells t (objectLexemes parts) := by
    rw [Json.objectLexemes_eq_keyedLexemes]
    refine padded.spells (Json.spells_objectLayout layout ?_)
    rw [List.forall₂_map_right_iff]
    exact spell
  have read : body (objectLexemes parts) = .ok ((kindOf e, .members values), []) := by
    rw [objectLexemes, body]
    simp only [run]
    simp [awaiting, bind, Except.bind]
  rw [parse, spells.lex_eq, eventOfLexemes, read]
  change (eventOf (kindOf e) (.members values) >>= fun e => Reader.atEnd e []) = _
  rw [eventOf_members hold all]
  rfl

/-! ## Lines -/

/-- The object stays when the line loses a carriage return at its end: that is white space. -/
theorem WritesObject.of_append_return {e : Event} {t : Text}
    (writes : WritesObject e (t ++ ['\r'])) : WritesObject e t := by
  obtain ⟨keys, members, object, perm, each, layout, before, after, gap, gap', same⟩ := writes
  refine ⟨keys, members, object, perm, each, layout, ?_⟩
  obtain ⟨inner, closed⟩ := layout.exists_inner
  rcases List.eq_nil_or_concat after with rfl | ⟨after, c, rfl⟩
  · -- the last character would be the closing bracket
    rw [List.append_nil, closed, ← List.cons_append, ← List.append_assoc] at same
    have last := List.append_inj_right' same rfl
    exact absurd last (by decide)
  · rw [List.concat_eq_append] at gap' same
    rw [← List.append_assoc] at same
    exact ⟨before, after, gap, fun d inside => gap' d (List.mem_append_left _ inside),
      List.append_inj_left' same rfl⟩

/-- What is left of the line of an event without its end is still an object for the event. -/
theorem WritesObject.dropLineEnd {e : Event} {t ending : Text} (writes : WritesObject e t)
    (isEnd : ending ∈ lineEnds) : WritesObject e (dropLineEnd (t ++ ending)) := by
  rcases dropLineEnd_line t isEnd with same | shorter
  · rwa [same]
  · rw [shorter] at writes
    exact writes.of_append_return

theorem WritesObject.allBlank_eq_false {e : Event} {t : Text} (writes : WritesObject e t) :
    Text.allBlank t = false := by
  obtain ⟨keys, members, object, perm, each, layout, before, after, gap, gap', rfl⟩ := writes
  obtain ⟨inner, rfl⟩ := layout.exists_inner
  have bracket : Text.isBlank '\x7b' = false := by decide
  simp [Text.allBlank, bracket]

theorem exists_readLines {events : List Event} {content : Text}
    (writes : WritesFile events content) :
    ∀ number, ∃ events', List.Forall₂ Event.SameAs events events' ∧
      readLines number (splitLines (Utf8.encode content)) = events'.map .ok := by
  induction writes with
  | nil => exact fun _ => ⟨[], .nil, rfl⟩
  | blank blank noFeed isEnd _ ih =>
      intro number
      rw [readLines_blank number blank noFeed isEnd]
      exact ih (number + 1)
  | event line isEnd _ ih =>
      intro number
      obtain ⟨noFeed, e', same, object⟩ := line
      have left := object.dropLineEnd isEnd
      obtain ⟨events', sameMore, more⟩ := ih (number + 1)
      refine ⟨e' :: events', .cons same sameMore, ?_⟩
      rw [readLines_event number left.allBlank_eq_false (parse_of_writesObject left) noFeed isEnd,
        more, List.map_cons]

/-- **Reading an event file undoes writing it.** Every line which is not blank gives its event, and
the events are those which were written, in order. -/
theorem read_of_writesFile {events : List Event} {content : Text}
    (writes : WritesFile events content) :
    ∃ events', List.Forall₂ Event.SameAs events events' ∧
      read (Utf8.encode content) = events'.map .ok :=
  exists_readLines writes 1

/-- A blank line, an environment whose variables are in another order, and a task whose type comes
last, with an escape and with a carriage return before the end of its line. -/
theorem read_of_writesFile_reordered :
    ∃ env : Environment, (∀ name, Environment.get? [(['A'], ['1']), (['B'], ['2'])] name =
        env.get? name) ∧
      read (Utf8.encode ([' '] ++ ['\r', '\n'] ++
        (Json.compactObject
          [("\"variables\"".toList, Json.compactObject
              [("\"B\"".toList, "\"2\"".toList), ("\"A\"".toList, "\"1\"".toList)]),
           ("\"type\"".toList, "\"environment\"".toList)] ++ ['\n'] ++
        (('\t' :: (Json.compactObject
          [("\"command_line\"".toList, "\"\\\"\"".toList),
           ("\"project_file\"".toList, "\"p\"".toList),
           ("\"task_name\"".toList, "\"CL\"".toList),
           ("\"type\"".toList, "\"task_command_line\"".toList)] ++ ['\r'])) ++ ['\n'] ++ [])))) =
        [.ok (.environment env), .ok (.taskCommandLine ['C', 'L'] ['"'] ['p'])] := by
  have plain (t : Text) (raw : Json.IsRaw t) : WritesString t ('"' :: (t ++ ['"'])) :=
    Json.writesString_raw raw
  have agree : ∀ name, Environment.get? [(['A'], ['1']), (['B'], ['2'])] name =
      Environment.get? [(['B'], ['2']), (['A'], ['1'])] name := by
    intro name
    by_cases isA : name = ['A']
    · subst isA
      decide
    · have notA : (['A'] == name) = false := beq_eq_false_iff_ne.mpr (Ne.symm isA)
      simp only [Environment.get?, List.find?_cons, List.find?_nil, notA]
  have environment : WritesObject (.environment [(['B'], ['2']), (['A'], ['1'])])
      (Json.compactObject
        [("\"variables\"".toList, Json.compactObject
            [("\"B\"".toList, "\"2\"".toList), ("\"A\"".toList, "\"1\"".toList)]),
         ("\"type\"".toList, "\"environment\"".toList)]) := by
    refine ⟨["variables".toList, "type".toList], _, _, List.Perm.swap _ _ _, ?_,
      Json.objectLayout_compact _, .refl _⟩
    refine .cons ⟨plain "variables".toList (by decide), .environment (by decide) ?_
      (Json.objectLayout_compact _)⟩ (.cons ⟨plain "type".toList (by decide), .type ?_⟩ .nil)
    · exact .cons ⟨plain ['B'] (by decide), plain ['2'] (by decide)⟩
        (.cons ⟨plain ['A'] (by decide), plain ['1'] (by decide)⟩ .nil)
    · exact plain "environment".toList (by decide)
  have task : WritesObject (.taskCommandLine ['C', 'L'] ['"'] ['p'])
      ('\t' :: (Json.compactObject
        [("\"command_line\"".toList, "\"\\\"\"".toList),
         ("\"project_file\"".toList, "\"p\"".toList),
         ("\"task_name\"".toList, "\"CL\"".toList),
         ("\"type\"".toList, "\"task_command_line\"".toList)] ++ ['\r'])) := by
    refine ⟨["command_line".toList, "project_file".toList, "task_name".toList, "type".toList],
      _, _, ?_, ?_, Json.objectLayout_compact _, ['\t'], ['\r'], by decide, by decide, rfl⟩
    · rw [fieldKeys]
      decide
    · refine .cons ⟨plain "command_line".toList (by decide), .commandLine ?_⟩ <|
        .cons ⟨plain "project_file".toList (by decide), .projectFile ?_⟩ <|
        .cons ⟨plain "task_name".toList (by decide), .taskName ?_⟩ <|
        .cons ⟨plain "type".toList (by decide), .type ?_⟩ .nil
      · exact ⟨[['\\', '"']], .cons (.short (by decide)) .nil, rfl⟩
      · exact plain ['p'] (by decide)
      · exact plain ['C', 'L'] (by decide)
      · exact plain "task_command_line".toList (by decide)
  have writes := WritesFile.blank (t := [' ']) (by decide) (by decide)
    (by decide : ['\r', '\n'] ∈ lineEnds) <|
    .event ⟨by decide, _, .environment agree, environment⟩ (by decide : ['\n'] ∈ lineEnds) <|
    .event ⟨by decide, _, .task _ _ _, task⟩ (by decide : ['\n'] ∈ lineEnds) .nil
  obtain ⟨events', same, read⟩ := read_of_writesFile writes
  cases same with
  | cons first more =>
      cases first with
      | environment agree =>
          cases more with
          | cons second last =>
              cases second
              cases last
              exact ⟨_, agree, read⟩

end EventFormat

end Compdb
