/-
# Compdb.Proofs.Classification.Findings — what a pass finds is what its items say

The pass goes from token to token and remembers what it waits for. What it finds does not depend
on that memory: it is the sum of what each item says by itself (`Item.findings`), over the items
before the link. `findings_run` says so for every pass which waits for nothing, by induction from
one item to the next. The step is `took_takeFree`: what a token for which nothing waits makes of a
pass, and of its value when that comes.

So a classification can be read off the positions of its tokens (`classify_eq_specified`).
-/
import Compdb.Proofs.Classification.Positions
import Compdb.Proofs.Text.Cutting
import Mathlib.Data.List.DropRight

namespace Compdb

set_option autoImplicit false

/-! ## Findings -/

/-- What a pass has found, without what it waits for. -/
structure Findings where
  /-- The parameterized options and their values. -/
  arguments : List Text := []
  namedFiles : List Text := []
  /-- The positional tokens which may be source files. -/
  candidates : List Text := []
  pchHeaders : List Text := []
  forceSource : Bool := false
  deriving DecidableEq, Repr

namespace Findings

/-- Findings follow each other list by list; what makes every candidate a source file does so
from anywhere. -/
instance : Append Findings where
  append f g :=
    ⟨f.arguments ++ g.arguments, f.namedFiles ++ g.namedFiles, f.candidates ++ g.candidates,
      f.pchHeaders ++ g.pchHeaders, f.forceSource || g.forceSource⟩

theorem append_eq (f g : Findings) :
    f ++ g =
      ⟨f.arguments ++ g.arguments, f.namedFiles ++ g.namedFiles, f.candidates ++ g.candidates,
        f.pchHeaders ++ g.pchHeaders, f.forceSource || g.forceSource⟩ := rfl

theorem append_assoc (f g h : Findings) : f ++ g ++ h = f ++ (g ++ h) := by
  simp [append_eq, Bool.or_assoc]

theorem append_empty (f : Findings) : f ++ ({} : Findings) = f := by
  simp [append_eq]

/-- The named files come first, then the candidates which are source files. -/
def classification (f : Findings) : Classification where
  arguments := f.arguments
  files := f.namedFiles ++ f.candidates.filter fun c => f.forceSource || hasSourceExtension c
  pchHeaders := f.pchHeaders

end Findings

/-- What a pass has found. -/
def Pass.findings (p : Pass) : Findings :=
  ⟨p.arguments, p.namedFiles, p.candidates, p.pchHeaders, p.forceSource⟩

namespace Tokens

/-- What the pass over a list finds. -/
def found (tokens : List Text) : Findings :=
  (Pass.ofTokens tokens).findings

/-- The classification depends on nothing else. -/
theorem classify_eq (tokens : List Text) : classify tokens = (found tokens).classification := rfl

/-! ## What an item says -/

/-- A name without the quotes around it, unless nothing is left then. -/
def bareName (text : Text) : Option Text :=
  let name := (text.dropWhile (· == '"')).rdropWhile (· == '"')
  if name.isEmpty then none else some name

theorem bareName_eq_trimQuotes (text : Text) :
    bareName text =
      if (Text.trimQuotes text).isEmpty then none else some (Text.trimQuotes text) :=
  rfl

namespace Item

/-- What an option with one of these names is about: the rest of its name, or its value when
nothing is left of the name. -/
def subject (starts : List Text) (item : Item) : Option Text :=
  match optionRest starts item.token with
  | some [] => item.value
  | rest => rest

/-- The name which an option with one of these names gives, if any. -/
def names (starts : List Text) (item : Item) : List Text :=
  ((item.subject starts).bind bareName).toList

/-- A parameterized option, followed by its value. -/
def arguments (item : Item) : List Text :=
  if isNamed keptNames item.token then item.token :: item.value.toList else []

/-- A token which may be a source file: no option, not empty, and no response file. -/
def positional (item : Item) : List Text :=
  if !isOption item.token && !item.token.isEmpty && item.token.head? != some '@' then
    [item.token]
  else []

/-- Everything which an item says. -/
def findings (item : Item) : Findings :=
  ⟨item.arguments, item.names fileNames, item.positional, item.names headerNames,
    isNamed forceNames item.token⟩

end Item

/-- What the items say, one after the other. -/
def gather (items : List Item) : Findings :=
  ⟨items.flatMap Item.arguments, items.flatMap (Item.names fileNames),
    items.flatMap Item.positional, items.flatMap (Item.names headerNames),
    items.any fun item => isNamed forceNames item.token⟩

theorem gather_nil : gather [] = {} := rfl

theorem gather_cons (item : Item) (items : List Item) :
    gather (item :: items) = item.findings ++ gather items := rfl

theorem gather_append (front back : List Item) :
    gather (front ++ back) = gather front ++ gather back := by
  simp [gather, Findings.append_eq]

section Option

variable {token name : Text} {parameterized forces link : Bool} {header file : Option Text}

/-- What an option says, by how its name reads. -/
theorem Reads.findings (reads : Reads name parameterized header file forces link)
    (option : optionName token = some name) (value : Option Text) :
    Item.findings ⟨token, value⟩ =
      ⟨if parameterized then token :: value.toList else [],
        ((match file with | some [] => value | rest => rest).bind bareName).toList, [],
        ((match header with | some [] => value | rest => rest).bind bareName).toList, forces⟩ := by
  obtain ⟨isOption, rfl⟩ := optionName_eq_some_iff.mp option
  simp only [Item.findings, Item.arguments, Item.names, Item.subject, optionRest, Item.positional,
    isNamed, isOption, Bool.true_and, if_true, reads.parameterized, reads.file, reads.header,
    reads.forces, Bool.not_true, Bool.false_and, Bool.false_eq_true, if_false]

end Option

/-! ## One step -/

/-- A pass which is not at its end and waits for nothing. -/
structure IsFree (p : Pass) : Prop where
  stopped : p.stopped = false
  awaited : p.awaited = none

/-- The pass which waits for nothing any more. -/
def release (p : Pass) : Pass :=
  { p with awaited := none }

/-- Whether a token is what is waited for. -/
def accepts (token : Text) : Awaited → Bool
  | .value => true
  | .header => !isOption token
  | .file => !isOption token

/-- Takes a token which was waited for. -/
def note (p : Pass) (token : Text) : Awaited → Pass
  | .value => p.keep token
  | .header => p.addHeader token
  | .file => p.addFile token

/-- What such a token says. -/
def noted (token : Text) : Awaited → Findings
  | .value => { arguments := [token] }
  | .header => { pchHeaders := (bareName token).toList }
  | .file => { namedFiles := (bareName token).toList }

section Frame

variable (p : Pass) (token : Text)

theorem findings_addHeader :
    (p.addHeader token).findings =
      p.findings ++ ({ pchHeaders := (bareName token).toList } : Findings) := by
  cases empty : (Text.trimQuotes token).isEmpty <;>
    simp [Pass.addHeader, bareName_eq_trimQuotes, Pass.findings, Findings.append_eq, empty]

theorem findings_addFile :
    (p.addFile token).findings =
      p.findings ++ ({ namedFiles := (bareName token).toList } : Findings) := by
  cases empty : (Text.trimQuotes token).isEmpty <;>
    simp [Pass.addFile, bareName_eq_trimQuotes, Pass.findings, Findings.append_eq, empty]

theorem findings_note (awaited : Awaited) :
    (note p token awaited).findings = p.findings ++ noted token awaited := by
  cases awaited with
  | value => simp [note, noted, Pass.keep, Pass.findings, Findings.append_eq]
  | header => exact findings_addHeader p token
  | file => exact findings_addFile p token

@[simp] theorem stopped_note (awaited : Awaited) : (note p token awaited).stopped = p.stopped := by
  cases awaited with
  | value => rfl
  | header => rw [note, Pass.addHeader]; split <;> rfl
  | file => rw [note, Pass.addFile]; split <;> rfl

@[simp] theorem awaited_note (awaited : Awaited) : (note p token awaited).awaited = p.awaited := by
  cases awaited with
  | value => rfl
  | header => rw [note, Pass.addHeader]; split <;> rfl
  | file => rw [note, Pass.addFile]; split <;> rfl

@[simp] theorem stopped_addCandidate : (p.addCandidate token).stopped = p.stopped := by
  rw [Pass.addCandidate]
  split <;> rfl

@[simp] theorem awaited_addCandidate : (p.addCandidate token).awaited = p.awaited := by
  rw [Pass.addCandidate]
  split <;> rfl

end Frame

theorem findings_addCandidate (p : Pass) {token : Text} (positional : isOption token = false) :
    (p.addCandidate token).findings = p.findings ++ Item.findings ⟨token, none⟩ := by
  have whole : Item.findings ⟨token, none⟩ = ({ candidates := Item.positional ⟨token, none⟩ } :
      Findings) := by
    simp [Item.findings, Item.arguments, Item.names, Item.subject, optionRest, isNamed, positional]
  rw [whole, Pass.addCandidate]
  by_cases dropped : (token.isEmpty || token.head? == some '@') = true
  · have nothing : Item.positional ⟨token, none⟩ = [] := by
      rw [Item.positional, if_neg]
      simpa [positional, or_iff_not_imp_left] using dropped
    rw [if_pos dropped, nothing, Findings.append_empty]
  · have itself : Item.positional ⟨token, none⟩ = [token] := by
      rw [Item.positional, if_pos]
      simpa [positional] using dropped
    rw [if_neg dropped, itself]
    simp [Pass.findings, Findings.append_eq]

variable {p q : Pass} {token name : Text} {awaited : Awaited}

theorem step_of_free (free : IsFree p) (token : Text) : p.step token = p.takeFree token := by
  rw [Pass.step, free.stopped, free.awaited]
  rfl

/-- A token which is not what is waited for is taken as if nothing were. -/
theorem step_of_waits (running : q.stopped = false) (waits : q.awaited = some awaited)
    (next : Text) :
    q.step next =
      if accepts next awaited then note (release q) next awaited
      else (release q).takeFree next := by
  rw [Pass.step, if_neg (by simp [running]), waits, isNone_optionName]
  cases awaited <;> rfl

/-- What a token for which nothing waits makes of a pass: the pass has what the token says by
itself, and waits for a token which the other one can take; when that comes, it has what both say
together. -/
structure Took (p : Pass) (token : Text) (q : Pass) : Prop where
  findings : q.findings = p.findings ++ Item.findings ⟨token, none⟩
  stopped : q.stopped = isLink token
  awaited : ∀ next, q.awaited.any (accepts next) = takesNext token next
  value : ∀ value, takesNext token value = true →
    IsFree (q.step value) ∧
      (q.step value).findings = p.findings ++ Item.findings ⟨token, some value⟩

/-- A token which takes no value. -/
theorem took_of_alone (free : IsFree p)
    (findings : q.findings = p.findings ++ Item.findings ⟨token, none⟩)
    (stopped : q.stopped = isLink token) (awaited : q.awaited = p.awaited)
    (alone : ∀ next, takesNext token next = false) : Took p token q := by
  refine ⟨findings, stopped, fun next => ?_, fun value takes => ?_⟩
  · rw [awaited, free.awaited, alone next]
    rfl
  · rw [alone value] at takes
    cases takes

/-- A token which waits for its value. -/
theorem took_of_waits (findings : q.findings = p.findings ++ Item.findings ⟨token, none⟩)
    (noLink : isLink token = false) (running : q.stopped = false)
    (waits : q.awaited = some awaited) (takes : ∀ next, takesNext token next = accepts next awaited)
    (both : ∀ value,
      Item.findings ⟨token, some value⟩ = Item.findings ⟨token, none⟩ ++ noted value awaited) :
    Took p token q := by
  refine ⟨findings, running.trans noLink.symm, fun next => ?_, fun value taken => ?_⟩
  · rw [waits, takes]
    rfl
  · have stepped : q.step value = note (release q) value awaited := by
      rw [step_of_waits running waits, ← takes, if_pos taken]
    rw [stepped]
    refine ⟨⟨(stopped_note _ _ _).trans running, awaited_note _ _ _⟩, ?_⟩
    rw [findings_note, both, ← Findings.append_assoc, ← findings]
    rfl

/-- An option which takes no value, by how its name reads. -/
theorem took_of_reads {header file : Option Text} {forces link : Bool} (free : IsFree p)
    (option : optionName token = some name) (reads : Reads name false header file forces link)
    (noHeader : header ≠ some []) (noFile : file ≠ some [])
    (findings : q.findings = p.findings ++ Item.findings ⟨token, none⟩)
    (stopped : q.stopped = link) (awaited : q.awaited = p.awaited) : Took p token q := by
  refine took_of_alone free findings (stopped.trans (reads.isLink option).symm) awaited ?_
  intro next
  simp [reads.takesNext option, noHeader, noFile]

theorem took_takeOption (free : IsFree p) (option : optionName token = some name)
    {meaning : OptionMeaning} (reads : MeaningReads name meaning) :
    Took p token (p.takeOption token meaning) := by
  cases meaning with
  | parameterized =>
      refine took_of_waits ?_ (Reads.isLink reads option) free.stopped rfl ?_ ?_
      · rw [Reads.findings reads option]
        simp [Pass.takeOption, Pass.keep, Pass.findings, Findings.append_eq]
      · exact fun next => Reads.takesNext reads option next
      · intro value
        rw [Reads.findings reads option, Reads.findings reads option]
        rfl
  | precompiledHeader header =>
      cases header with
      | nil =>
          refine took_of_waits ?_ (Reads.isLink reads option) free.stopped rfl ?_ ?_
          · rw [Reads.findings reads option]
            exact (Findings.append_empty p.findings).symm
          · exact fun next => Reads.takesNext reads option next
          · intro value
            rw [Reads.findings reads option, Reads.findings reads option]
            rfl
      | cons c header =>
          have taken : p.takeOption token (.precompiledHeader (c :: header)) =
              note p (c :: header) .header := rfl
          rw [taken]
          refine took_of_reads free option reads (by simp) (by simp) ?_
            ((stopped_note _ _ _).trans free.stopped) (awaited_note _ _ _)
          rw [Reads.findings reads option, findings_note]
          rfl
  | sourceFile file =>
      cases file with
      | nil =>
          refine took_of_waits ?_ (Reads.isLink reads option) free.stopped rfl ?_ ?_
          · rw [Reads.findings reads option]
            exact (Findings.append_empty p.findings).symm
          · exact fun next => Reads.takesNext reads option next
          · intro value
            rw [Reads.findings reads option, Reads.findings reads option]
            rfl
      | cons c file =>
          have taken : p.takeOption token (.sourceFile (c :: file)) =
              note p (c :: file) .file := rfl
          rw [taken]
          refine took_of_reads free option reads (by simp) (by simp) ?_
            ((stopped_note _ _ _).trans free.stopped) (awaited_note _ _ _)
          rw [Reads.findings reads option, findings_note]
          rfl
  | forceSource =>
      refine took_of_reads free option reads (by simp) (by simp) ?_ free.stopped rfl
      rw [Reads.findings reads option]
      simp [Pass.takeOption, Pass.findings, Findings.append_eq]
  | link =>
      refine took_of_reads free option reads (by simp) (by simp) ?_ rfl rfl
      rw [Reads.findings reads option]
      exact (Findings.append_empty p.findings).symm
  | other =>
      refine took_of_reads free option reads (by simp) (by simp) ?_ free.stopped rfl
      rw [Reads.findings reads option]
      exact (Findings.append_empty p.findings).symm

theorem took_takeFree (free : IsFree p) (token : Text) : Took p token (p.takeFree token) := by
  rw [Pass.takeFree]
  cases option : optionName token with
  | none =>
      have positional := optionName_eq_none_iff.mp option
      refine took_of_alone free (findings_addCandidate p positional) ?_
        (awaited_addCandidate p token) ?_
      · rw [stopped_addCandidate, free.stopped, isLink, positional, Bool.false_and]
      · intro next
        simp [takesNext, isNamed, positional]
  | some name => exact took_takeOption free option (meaningReads_ofName name)

/-- A parameterized option keeps itself and its value. -/
theorem findings_of_parameterized (named : isNamed keptNames token = true)
    (value : Option Text) :
    Item.findings ⟨token, value⟩ = ({ arguments := token :: value.toList } : Findings) := by
  obtain ⟨name, option, reads⟩ := reads_of_parameterized named
  rw [reads.findings option]
  rfl

/-- A link says nothing else. -/
theorem findings_of_isLink (link : isLink token = true) :
    Item.findings ⟨token, none⟩ = {} := by
  have isOption : isOption token = true := by
    rw [isLink, Bool.and_eq_true] at link
    exact link.1
  have option := optionName_eq_some_iff.mpr ⟨isOption, rfl⟩
  have reads := meaningReads_ofName token.tail
  generalize OptionMeaning.ofName token.tail = meaning at reads
  cases meaning with
  | link =>
      rw [Reads.findings reads option]
      rfl
  | _ =>
      rw [Reads.isLink reads option] at link
      cases link

/-! ## Whole runs -/

theorem run_cons (p : Pass) (token : Text) (rest : List Text) :
    p.run (token :: rest) = (p.step token).run rest := rfl

/-- A pass at its end stays as it is. -/
theorem run_of_stopped (stopped : p.stopped = true) (tokens : List Text) : p.run tokens = p := by
  induction tokens with
  | nil => rfl
  | cons token tokens ih =>
      have stays : p.step token = p := by
        rw [Pass.step, if_pos stopped]
      rw [run_cons, stays, ih]

/-- What is waited for is forgotten at a token which is not that. -/
theorem findings_run_release (running : q.stopped = false) {rest : List Text}
    (refused : ∀ next ∈ rest.head?, q.awaited.any (accepts next) = false) :
    (q.run rest).findings = ((release q).run rest).findings := by
  cases rest with
  | nil => rfl
  | cons next rest =>
      have released : IsFree (release q) := ⟨running, rfl⟩
      have same : q.step next = (release q).takeFree next := by
        cases waits : q.awaited with
        | none =>
            have idle : release q = q := by rw [release, ← waits]
            rw [idle, step_of_free ⟨running, waits⟩]
        | some awaited =>
            have refused : q.awaited.any (accepts next) = false := refused next rfl
            rw [waits, Option.any_some] at refused
            rw [step_of_waits running waits, refused]
            rfl
      rw [run_cons, run_cons, same, step_of_free released]

/-- **What a pass finds is what the items say**, in order, for every pass which waits for nothing
yet. -/
theorem findings_run (tokens : List Text) :
    ∀ {p : Pass}, IsFree p → (p.run tokens).findings = p.findings ++ gather (items tokens) := by
  induction tokens using induction_items with
  | nil =>
      intro p _
      exact (Findings.append_empty p.findings).symm
  | alone token rest alone ih =>
      intro p free
      have took := took_takeFree free token
      rw [run_cons, step_of_free free]
      cases link : isLink token with
      | true =>
          rw [run_of_stopped (took.stopped.trans link), took.findings, items_cons_of_link link,
            findings_of_isLink link]
          rfl
      | false =>
          have running := took.stopped.trans link
          have refused : ∀ next ∈ rest.head?,
              (p.takeFree token).awaited.any (accepts next) = false :=
            fun next head => (took.awaited next).trans (alone next head)
          have released : IsFree (release (p.takeFree token)) := ⟨running, rfl⟩
          rw [findings_run_release running refused, ih released, items_cons link alone,
            gather_cons, ← Findings.append_assoc, ← took.findings]
          rfl
  | pair token value rest takes ih =>
      intro p free
      obtain ⟨free', findings⟩ := (took_takeFree free token).value value takes
      rw [run_cons, run_cons, step_of_free free, ih free', findings, items_cons_cons takes,
        gather_cons, Findings.append_assoc]

/-! ## The classification of a list -/

theorem isFree_start : IsFree ({} : Pass) :=
  ⟨rfl, rfl⟩

theorem found_eq (tokens : List Text) : found tokens = gather (items tokens) := by
  rw [found, Pass.ofTokens, findings_run tokens isFree_start]
  simp [Findings.append_eq, Pass.findings]

/-- A token which does not take the next one. -/
theorem found_cons {token : Text} {rest : List Text} (noLink : isLink token = false)
    (alone : ∀ next ∈ rest.head?, takesNext token next = false) :
    found (token :: rest) = Item.findings ⟨token, none⟩ ++ found rest := by
  rw [found_eq, items_cons noLink alone, gather_cons, found_eq]

/-- A token and its value. -/
theorem found_cons_cons {token value : Text} (takes : takesNext token value = true)
    (rest : List Text) :
    found (token :: value :: rest) = Item.findings ⟨token, some value⟩ ++ found rest := by
  rw [found_eq, items_cons_cons takes, gather_cons, found_eq]

/-- A text which ends in a dot and the extension of a source file, in any letter case. -/
def IsSourceName (text : Text) : Prop :=
  ∃ stem extension, text = stem ++ '.' :: extension ∧ '.' ∉ extension ∧
    extension.map Char.toLower ∈ ["c".toList, "cpp".toList, "cxx".toList]

/-- The pass knows the same extensions. -/
theorem contains_sourceExtensions (extension : Text) :
    sourceExtensions.contains (Text.foldCase extension) = true ↔
      extension.map Char.toLower ∈ ["c".toList, "cpp".toList, "cxx".toList] := by
  simp only [List.contains_iff_mem, sourceExtensions, Text.foldCase, List.mem_cons]
  tauto

theorem hasSourceExtension_iff (text : Text) :
    hasSourceExtension text = true ↔ IsSourceName text := by
  unfold hasSourceExtension
  constructor
  · intro known
    split at known
    · next stem extension cut =>
      obtain ⟨c, dot, whole, noDot⟩ := Text.splitLast_eq_some_iff.mp cut
      rw [beq_iff_eq] at dot
      subst dot
      refine ⟨stem, extension, whole, fun inside => ?_, (contains_sourceExtensions _).mp known⟩
      simpa using noDot '.' inside
    · cases known
  · rintro ⟨stem, extension, whole, noDot, known⟩
    have cut : Text.splitLast (· == '.') text = some (stem, extension) := by
      refine Text.splitLast_eq_some_iff.mpr ⟨'.', rfl, whole, fun d inside => ?_⟩
      simp only [beq_eq_false_iff_ne]
      rintro rfl
      exact noDot inside
    rw [cut]
    exact (contains_sourceExtensions extension).mpr known

instance (text : Text) : Decidable (IsSourceName text) :=
  decidable_of_iff _ (hasSourceExtension_iff text)

/-- The classification of a list, by its positions: all that is kept comes from the items before the
link. -/
def specified (tokens : List Text) : Classification where
  arguments := (items tokens).flatMap Item.arguments
  files :=
    (items tokens).flatMap (Item.names fileNames)
      ++ ((items tokens).flatMap Item.positional).filter fun text =>
          (∃ item ∈ items tokens, isNamed forceNames item.token = true) ∨ IsSourceName text
  pchHeaders := (items tokens).flatMap (Item.names headerNames)

/-- **A classification is read off the positions of the tokens.** -/
theorem classify_eq_specified (tokens : List Text) : classify tokens = specified tokens := by
  rw [classify_eq, found_eq, Findings.classification, specified, gather]
  congr 3
  funext text
  rw [Bool.eq_iff_iff]
  simp [hasSourceExtension_iff]

end Tokens

end Compdb
