/-
# Compdb.Proofs.Json.Skimming — every well-formed value can be skimmed

A value which nobody wants is skimmed: its words are found and forgotten. The grammar of values
(`WellFormed`) says which texts those are, and it is wider than that of the values which can be
read: an escape may be half of a pair of surrogates, a number may be too large, and arrays and
objects may be nested as deep as one likes. Whatever the lexer makes of such strings and numbers,
it finds their ends, and the builder which skims over them loses nothing of what follows
(`WellFormed.skims`).
-/
import Compdb.Proofs.Json.Layout

namespace Compdb.Json

set_option autoImplicit false

open Utf8 (Piece)

/-! ## Strings -/

/-- A part of a string: a character, a short escape, or the escape of any UTF-16 unit. -/
inductive IsStringPart : Text → Prop where
  | raw {c : Char} : c ≠ '"' → c ≠ '\\' → 0x20 ≤ c.toNat → IsStringPart [c]
  | short {letter c : Char} : (letter, c) ∈ shortEscapes → IsStringPart ['\\', letter]
  | unit {n : Nat} {t : Text} : WritesUnit n t → IsStringPart t

/-- The text is a string, which may have no value. -/
def IsString (t : Text) : Prop :=
  ∃ parts : List Text, (∀ part ∈ parts, IsStringPart part) ∧ t = '"' :: (parts.flatten ++ ['"'])

namespace StringState

variable {s : StringState}

theorem pushUnit_phase (n : Nat) : (s.pushUnit n).phase = .plain := by
  unfold pushUnit refuse
  dsimp only
  split <;> (repeat' split) <;> rfl

end StringState

/-- Behind a part of a string another one can begin. -/
theorem leads_stringPart {s : StringState} (plain : s.phase = .plain) {part : Text}
    (isPart : IsStringPart part) :
    ∃ s' : StringState, s'.phase = .plain ∧ (Mode.inString s).Leads part [] (.inString s') := by
  cases isPart with
  | @raw c notQuote notBackslash printable =>
      have visible : ¬ c.toNat < 0x20 := by omega
      refine ⟨s.push c, rfl, Mode.leads_one ?_⟩
      simp [Mode.step, StringState.step, plain, notQuote, notBackslash, visible]
  | @short letter c listed =>
      have means := escaped?_of_mem _ listed
      have noUnit : letter ≠ 'u' := by
        rintro rfl
        exact absurd means (by simp [StringState.escaped?])
      have backslash : (Mode.inString s).step (.char '\\') =
          ([], .inString { s with phase := .escape }) := by
        simp [Mode.step, StringState.step, plain]
      refine ⟨{ s with phase := .escape }.push c, rfl,
        Mode.leads_cons backslash (Mode.leads_one ?_)⟩
      simp [Mode.step, StringState.step, noUnit, means]
  | @unit n _ writes => exact ⟨s.pushUnit n, StringState.pushUnit_phase n, leads_unit plain writes⟩

/-- A string spells one lexeme, with or without a value. -/
theorem IsString.spells {t : Text} (isString : IsString t) :
    ∃ text : Except Fault Text, Spells t [.string text] := by
  obtain ⟨parts, each, rfl⟩ := isString
  have inside : ∀ s : StringState, s.phase = .plain → ∃ s' : StringState, s'.phase = .plain ∧
      (Mode.inString s).Leads parts.flatten [] (.inString s') := by
    induction parts with
    | nil => exact fun s plain => ⟨s, plain, Mode.leads_nil _⟩
    | cons part parts ih =>
        rw [List.forall_mem_cons] at each
        intro s plain
        obtain ⟨s', plain', first⟩ := leads_stringPart plain each.1
        obtain ⟨s'', plain'', more⟩ := ih each.2 s' plain'
        exact ⟨s'', plain'', first.append more⟩
  obtain ⟨s, plain, leads⟩ := inside (.holding []) rfl
  have closing : (Mode.inString s).Leads ['"'] [.string s.text] .between := by
    apply Mode.leads_one
    simp [Mode.step, StringState.step, plain]
  exact ⟨s.text, leads_openQuote.append (leads.append closing)⟩

/-! ## Numbers -/

def decimalDigits : List Char :=
  ['0', '1', '2', '3', '4', '5', '6', '7', '8', '9']

/-- Some digits, at least one. -/
def IsDigits (t : Text) : Prop :=
  t ≠ [] ∧ ∀ c ∈ t, c ∈ decimalDigits

/-- The part before the point: a zero stands alone. -/
def IsWhole (t : Text) : Prop :=
  t = ['0'] ∨ IsDigits t ∧ t.head? ≠ some '0'

/-- The part behind the point, with the point, or nothing. -/
def IsFraction (t : Text) : Prop :=
  t = [] ∨ ∃ digits, IsDigits digits ∧ t = '.' :: digits

/-- The exponent with its mark, or nothing. -/
def IsExponent (t : Text) : Prop :=
  t = [] ∨ ∃ mark sign digits, mark ∈ ['e', 'E'] ∧ sign ∈ [[], ['+'], ['-']] ∧ IsDigits digits ∧
    t = mark :: (sign ++ digits)

/-- The text is a number, which may be too large to have a value. -/
def IsNumber (t : Text) : Prop :=
  ∃ sign whole fraction exponent, sign ∈ [[], ['-']] ∧ IsWhole whole ∧ IsFraction fraction ∧
    IsExponent exponent ∧ t = sign ++ (whole ++ (fraction ++ exponent))

namespace NumberState

/-- From some place the text leads into a number, to one of these phases. -/
def Reached (m : Mode) (t : Text) (phases : List NumberPhase) : Prop :=
  ∃ s : NumberState, s.phase ∈ phases ∧ m.Leads t [] (.inNumber s)

theorem Reached.weaken {m : Mode} {t : Text} {phases more : List NumberPhase}
    (reached : Reached m t phases) (subset : phases ⊆ more) : Reached m t more := by
  obtain ⟨s, within, leads⟩ := reached
  exact ⟨s, subset within, leads⟩

/-- What comes next goes on from each phase which was reached. -/
theorem Reached.append {m : Mode} {t u : Text} {phases more : List NumberPhase}
    (reached : Reached m t phases)
    (next : ∀ s : NumberState, s.phase ∈ phases → Reached (.inNumber s) u more) :
    Reached m (t ++ u) more := by
  obtain ⟨s, within, leads⟩ := reached
  obtain ⟨s', within', leads'⟩ := next s within
  exact ⟨s', within', leads.append leads'⟩

theorem reached_nil {s : NumberState} {phases : List NumberPhase} (within : s.phase ∈ phases) :
    Reached (.inNumber s) [] phases :=
  ⟨s, within, Mode.leads_nil _⟩

theorem reached_one {s s' : NumberState} {c : Char} {phases : List NumberPhase}
    (step : s.step (.char c) = .goesOn s') (within : s'.phase ∈ phases) :
    Reached (.inNumber s) [c] phases :=
  ⟨s', within, Mode.leads_one (by simp [Mode.step, step])⟩

theorem step_digit (s : NumberState) {c : Char} (isDigit : c ∈ decimalDigits) :
    ∃ digit, s.step (.char c) = s.takeDigit digit := by
  have value : decimalDigits.all (fun d => (digit? d).isSome) = true := by decide
  obtain ⟨digit, same⟩ := Option.isSome_iff_exists.mp (List.all_eq_true.mp value c isDigit)
  exact ⟨digit, by simp [step, same]⟩

/-- Digits can follow in these phases, and lead to one of them. -/
structure TakesDigits (phases : List NumberPhase) (phase : NumberPhase) : Prop where
  again : phase ∈ phases
  takes : ∀ (s : NumberState) (digit : Nat), s.phase ∈ phases →
    ∃ s', s.takeDigit digit = .goesOn s' ∧ s'.phase = phase

theorem takesDigits_whole : TakesDigits [.whole] .whole where
  again := by decide
  takes s digit within := by
    have phase := List.mem_singleton.mp within
    exact ⟨{ s with whole := digit :: s.whole }, by simp [takeDigit, phase], phase⟩

theorem takesDigits_fraction : TakesDigits [.point, .fraction] .fraction where
  again := by decide
  takes s digit within := by
    simp only [List.mem_cons, List.not_mem_nil, or_false] at within
    exact ⟨{ s with fraction := digit :: s.fraction, phase := .fraction },
      by rcases within with phase | phase <;> simp [takeDigit, phase], rfl⟩

theorem takesDigits_exponent :
    TakesDigits [.exponent, .exponentSign, .exponentDigits] .exponentDigits where
  again := by decide
  takes s digit within := by
    simp only [List.mem_cons, List.not_mem_nil, or_false] at within
    exact ⟨{ s with exponent := digit :: s.exponent, phase := .exponentDigits },
      by rcases within with phase | phase | phase <;> simp [takeDigit, phase], rfl⟩

namespace TakesDigits

variable {phases : List NumberPhase} {phase : NumberPhase} {s : NumberState}

theorem reached_one (takesDigits : TakesDigits phases phase) {c : Char}
    (isDigit : c ∈ decimalDigits) (within : s.phase ∈ phases) :
    Reached (.inNumber s) [c] [phase] := by
  obtain ⟨digit, step⟩ := step_digit s isDigit
  obtain ⟨s', takes, then'⟩ := takesDigits.takes s digit within
  exact NumberState.reached_one (step.trans takes) (List.mem_singleton.mpr then')

/-- Once a digit was met, any number of digits can follow. -/
theorem reached_more (takesDigits : TakesDigits phases phase) {digits : Text}
    (all : ∀ c ∈ digits, c ∈ decimalDigits) (here : s.phase ∈ [phase]) :
    Reached (.inNumber s) digits [phase] := by
  induction digits generalizing s with
  | nil => exact reached_nil here
  | cons c digits ih =>
      rw [List.forall_mem_cons] at all
      have within : s.phase ∈ phases := List.mem_singleton.mp here ▸ takesDigits.again
      exact (takesDigits.reached_one all.1 within).append fun s' => ih all.2

theorem reached (takesDigits : TakesDigits phases phase) {digits : Text}
    (isDigits : IsDigits digits) (within : s.phase ∈ phases) :
    Reached (.inNumber s) digits [phase] := by
  obtain ⟨filled, all⟩ := isDigits
  cases digits with
  | nil => exact absurd rfl filled
  | cons c digits =>
      rw [List.forall_mem_cons] at all
      exact (takesDigits.reached_one all.1 within).append fun s' =>
        takesDigits.reached_more all.2

end TakesDigits

/-- The places at which the part before the point can begin. -/
def BeforeWhole (m : Mode) : Prop :=
  m = .between ∨ ∃ s : NumberState, s.phase = .sign ∧ m = .inNumber s

/-- The first digit says whether more of them can follow before the point. -/
theorem BeforeWhole.reached_one {m : Mode} (before : BeforeWhole m) {c : Char}
    (isDigit : c ∈ decimalDigits) : Reached m [c] [if c = '0' then .zero else .whole] := by
  rcases before with rfl | ⟨s, sign, rfl⟩
  · simp only [decimalDigits, List.mem_cons, List.not_mem_nil, or_false] at isDigit
    rcases isDigit with rfl | rfl | rfl | rfl | rfl | rfl | rfl | rfl | rfl | rfl <;>
      exact ⟨_, by decide, Mode.leads_one rfl⟩
  · have value : decimalDigits.all (fun d => digit? d = some (d.toNat - '0'.toNat) ∧
        (d.toNat - '0'.toNat == 0) = (d == '0')) = true := by
      decide
    obtain ⟨digit, same, zero⟩ : ∃ n, digit? c = some n ∧ (n == 0) = (c == '0') :=
      ⟨_, decide_eq_true_eq.mp (List.all_eq_true.mp value c isDigit)⟩
    refine NumberState.reached_one (by simp only [step, same, takeDigit, sign]; rfl) ?_
    simp [zero]

/-- The part before the point. -/
theorem BeforeWhole.reached {m : Mode} (before : BeforeWhole m) {whole : Text}
    (isWhole : IsWhole whole) : Reached m whole [.zero, .whole] := by
  rcases isWhole with rfl | ⟨⟨filled, all⟩, noZero⟩
  · exact (before.reached_one (by decide)).weaken (by decide)
  · cases whole with
    | nil => exact absurd rfl filled
    | cons c digits =>
        rw [List.forall_mem_cons] at all
        have notZero : c ≠ '0' := fun same => noZero (congrArg some same)
        have first := before.reached_one all.1
        rw [if_neg notZero] at first
        have more : Reached m ([c] ++ digits) [.whole] :=
          first.append fun s => takesDigits_whole.reached_more all.2
        exact more.weaken (by decide)

/-- The part before the point, with its sign. -/
theorem reached_signedWhole {sign whole : Text} (isSign : sign ∈ [[], ['-']])
    (isWhole : IsWhole whole) : Reached .between (sign ++ whole) [.zero, .whole] := by
  simp only [List.mem_cons, List.not_mem_nil, or_false] at isSign
  rcases isSign with rfl | rfl
  · exact BeforeWhole.reached (Or.inl rfl) isWhole
  · have minus : Reached .between ['-'] [.sign] :=
      ⟨_, List.mem_singleton_self _, Mode.leads_one rfl⟩
    exact minus.append fun s here =>
      BeforeWhole.reached (Or.inr ⟨s, List.mem_singleton.mp here, rfl⟩) isWhole

theorem reached_fraction {fraction : Text} (isFraction : IsFraction fraction) (s : NumberState)
    (within : s.phase ∈ [.zero, .whole]) :
    Reached (.inNumber s) fraction [.zero, .whole, .fraction] := by
  rcases isFraction with rfl | ⟨digits, isDigits, rfl⟩
  · exact (reached_nil within).weaken (by decide)
  · have goesOn : s.step (.char '.') = .goesOn { s with phase := .point } := by
      simp only [List.mem_cons, List.not_mem_nil, or_false] at within
      rcases within with phase | phase <;> simp [step, digit?, takeOther, phase]
    have point : Reached (.inNumber s) ['.'] [.point, .fraction] :=
      reached_one goesOn (List.mem_cons_self ..)
    have whole : Reached (.inNumber s) (['.'] ++ digits) [.fraction] :=
      point.append fun s' within' => takesDigits_fraction.reached isDigits within'
    exact whole.weaken (by decide)

/-- The phases in which a number can end. -/
def finalPhases : List NumberPhase :=
  [.zero, .whole, .fraction, .exponentDigits]

theorem reached_exponent {exponent : Text} (isExponent : IsExponent exponent) (s : NumberState)
    (within : s.phase ∈ [.zero, .whole, .fraction]) :
    Reached (.inNumber s) exponent finalPhases := by
  rcases isExponent with rfl | ⟨mark, sign, digits, isMark, isSign, isDigits, rfl⟩
  · exact (reached_nil within).weaken (by decide)
  · have marked : s.step (.char mark) = .goesOn { s with phase := .exponent } := by
      simp only [List.mem_cons, List.not_mem_nil, or_false] at within isMark
      rcases isMark with rfl | rfl <;> rcases within with phase | phase | phase <;>
        simp [step, digit?, takeOther, phase]
    have signed : ∀ s' : NumberState, s'.phase ∈ [.exponent] →
        Reached (.inNumber s') sign [.exponent, .exponentSign, .exponentDigits] := by
      intro s' here
      have phase := List.mem_singleton.mp here
      have plus : s'.step (.char '+') = .goesOn { s' with phase := .exponentSign } := by
        simp [step, digit?, takeOther, phase]
      have minus : s'.step (.char '-') =
          .goesOn { s' with hasNegativeExponent := true, phase := .exponentSign } := by
        simp [step, digit?, takeOther, phase]
      simp only [List.mem_cons, List.not_mem_nil, or_false] at isSign
      rcases isSign with rfl | rfl | rfl
      · exact (reached_nil here).weaken (by decide)
      · exact reached_one plus (by simp)
      · exact reached_one minus (by simp)
    have whole : Reached (.inNumber s) ([mark] ++ (sign ++ digits)) [.exponentDigits] :=
      (reached_one marked (List.mem_singleton_self _)).append fun s' here =>
        (signed s' here).append fun s'' within' => takesDigits_exponent.reached isDigits within'
    exact whole.weaken (by decide)

/-- A number which can end does so before a delimiter. -/
theorem lex_of_final {s : NumberState} (final : s.phase ∈ finalPhases) {rest : List Piece}
    (delimited : Delimited rest) :
    (Mode.inNumber s).lex rest = s.lexeme :: Mode.between.lex rest := by
  simp only [finalPhases, List.mem_cons, List.not_mem_nil, or_false] at final
  cases rest with
  | nil =>
      have complete : s.isComplete = true := by
        rcases final with phase | phase | phase | phase <;> simp [isComplete, phase]
      simp [Mode.lex, Mode.finish, complete]
  | cons p rest =>
      obtain ⟨c, delimiter, rfl⟩ := delimited p rfl
      have other : delimiters.all
          (fun d => digit? d = none ∧ d ≠ '.' ∧ d ≠ 'e' ∧ d ≠ 'E') = true := by
        decide
      obtain ⟨noDigit, noPoint, noMark, noMark'⟩ :=
        decide_eq_true_eq.mp (List.all_eq_true.mp other c delimiter)
      have ended : s.step (.char c) = .ended := by
        rcases final with phase | phase | phase | phase <;>
          simp [step, noDigit, takeOther, phase, noPoint, noMark, noMark']
      simp only [Mode.lex, Mode.step, ended, List.cons_append]

end NumberState

/-- Before a delimiter a number spells one lexeme, with or without a value. -/
theorem IsNumber.spellsValue {t : Text} (isNumber : IsNumber t) :
    ∃ value : Except Fault Number, SpellsValue t [.number value] := by
  obtain ⟨sign, whole, fraction, exponent, isSign, isWhole, isFraction, isExponent, rfl⟩ := isNumber
  have behindWhole (s : NumberState) (within : s.phase ∈ [.zero, .whole]) :=
    (NumberState.reached_fraction isFraction s within).append
      (NumberState.reached_exponent isExponent)
  obtain ⟨s, final, leads⟩ :=
    (NumberState.reached_signedWhole isSign isWhole).append behindWhole
  obtain ⟨value, number⟩ : ∃ value, s.lexeme = .number value := ⟨_, rfl⟩
  refine ⟨value, fun rest delimited => ?_⟩
  rw [← List.append_assoc, leads rest, NumberState.lex_of_final final delimited, number]
  rfl

/-! ## Values -/

/-- The text is a value. -/
inductive WellFormed : Text → Prop where
  | word {t : Text} : t ∈ ["null".toList, "true".toList, "false".toList] → WellFormed t
  | number {t : Text} : IsNumber t → WellFormed t
  | string {t : Text} : IsString t → WellFormed t
  | array {items : List Text} {t : Text} : (∀ item ∈ items, WellFormed item) →
      ArrayLayout items t → WellFormed t
  | object {members : List (Text × Text)} {t : Text} :
      (∀ member ∈ members, IsString member.1) → (∀ member ∈ members, WellFormed member.2) →
      ObjectLayout members t → WellFormed t

/-- The text spells lexemes which the builder skims over. -/
structure Skims (t : Text) (lexemes : List Lexeme) : Prop where
  spells : SpellsValue t lexemes
  takes : Builder.skim.Takes 0 lexemes ()
  begins : Reader.BeginsItem lexemes

theorem skims_leaf {t : Text} {l : Lexeme} (spells : SpellsValue t [l])
    (noArray : l ≠ .openArray) (noObject : l ≠ .openObject) (leaf : Builder.skim.leaf l = .ok ()) :
    Skims t [l] where
  spells := spells
  takes := Builder.takes_leaf noArray noObject leaf
  begins := by cases l <;> first | exact trivial | cases leaf

/-- Skimming has no bound, so the number of levels does not matter. -/
theorem takes_skim {levels : Nat} {lexemes : List Lexeme} {value : Unit}
    (takes : Builder.skim.Takes levels lexemes value) : Builder.skim.Takes 0 lexemes () :=
  fun stack rest _ => takes stack rest nofun

/-- An array is skimmed when its elements are. -/
theorem skims_array {items : List Text} {t : Text} (layout : ArrayLayout items t)
    {parts : List (List Lexeme)} (each : List.Forall₂ Skims items parts) :
    Skims t (arrayLexemes parts) where
  spells := (spells_arrayLayout layout (each.imp fun _ _ skims => skims.spells)).spellsValue
  takes := by
    have values : List.Forall₂ (Builder.skim.Takes 0) parts (parts.map fun _ => ()) := by
      rw [List.forall₂_map_right_iff, List.forall₂_same]
      exact forall_of_forall₂ (fun _ _ skims => skims.takes) each
    exact takes_skim (Builder.Takes.array values
      (forall_of_forall₂ (fun _ _ skims => skims.begins) each))
  begins := trivial

/-- The text of a key and the text of a value spell lexemes which are skimmed. -/
def SkimsMember (member : Text × Text) (part : Except Fault Text × List Lexeme) : Prop :=
  Spells member.1 [.string part.1] ∧ Skims member.2 part.2

/-- An object is skimmed when its members are. -/
theorem skims_object {members : List (Text × Text)} {t : Text} (layout : ObjectLayout members t)
    {parts : List (Except Fault Text × List Lexeme)}
    (each : List.Forall₂ SkimsMember members parts) : Skims t (keyedLexemes parts) where
  spells := (spells_objectLayout layout
    (each.imp fun _ _ skims => ⟨skims.1, skims.2.spells⟩)).spellsValue
  takes := by
    have values : List.Forall₂ (Builder.skim.TakesMember 0) parts
        (parts.map fun _ => ([], ())) := by
      rw [List.forall₂_map_right_iff, List.forall₂_same]
      exact forall_of_forall₂ (fun _ _ skims => ⟨rfl, skims.2.takes⟩) each
    exact takes_skim (Builder.Takes.object values)
  begins := trivial

/-- Every value spells lexemes which are skimmed, whatever stands behind it. -/
theorem WellFormed.skims {t : Text} (wellFormed : WellFormed t) : ∃ lexemes, Skims t lexemes := by
  induction wellFormed with
  | word isWord =>
      have null : Spells "null".toList [.null] := fun _ => rfl
      have true' : Spells "true".toList [.bool true] := fun _ => rfl
      have false' : Spells "false".toList [.bool false] := fun _ => rfl
      simp only [List.mem_cons, List.not_mem_nil, or_false] at isWord
      rcases isWord with rfl | rfl | rfl
      · exact ⟨_, skims_leaf null.spellsValue nofun nofun rfl⟩
      · exact ⟨_, skims_leaf true'.spellsValue nofun nofun rfl⟩
      · exact ⟨_, skims_leaf false'.spellsValue nofun nofun rfl⟩
  | number isNumber =>
      obtain ⟨value, spells⟩ := isNumber.spellsValue
      exact ⟨_, skims_leaf spells nofun nofun rfl⟩
  | string isString =>
      obtain ⟨text, spells⟩ := isString.spells
      exact ⟨_, skims_leaf spells.spellsValue nofun nofun rfl⟩
  | array _ layout items =>
      obtain ⟨parts, each⟩ := exists_forall₂ items
      exact ⟨_, skims_array layout each⟩
  | @object members _ keys _ layout values =>
      have member : ∀ member ∈ members, ∃ part, SkimsMember member part := by
        intro member inside
        obtain ⟨text, key⟩ := (keys member inside).spells
        obtain ⟨lexemes, value⟩ := values member inside
        exact ⟨(text, lexemes), key, value⟩
      obtain ⟨parts, each⟩ := exists_forall₂ member
      exact ⟨_, skims_object layout each⟩

end Compdb.Json
