/-
# Compdb.Proofs.Text.Normalize — what normalizing leaves of a text

Normalizing works on a whole line, before anyone knows where its tokens are. So a part of a
line which neither begins nor ends with white space keeps its place, and every run of white
space inside of it becomes one space: that is `collapse`. The main statement,
`normalize_append`, takes such a part off the front of a line; the rest of the line is
normalized by itself.

A text whose white space is isolated spaces is what `collapse` leaves alone
(`collapse_of_isolated`), and what normalizing makes of every text (`isolated_normalize`); it has
no character but those of the text and spaces (`mem_of_mem_normalize`).
-/
import Compdb.Text.Blank
import Compdb.Proofs.Text.Cutting
import Mathlib.Data.List.Infix

namespace Compdb.Text

set_option autoImplicit false

/-! ## One space for every run -/

/-- Replaces every run of white space by one space, also at the ends. The last character of a
run stands for the run. -/
def collapse : Text → Text
  | [] => []
  | c :: rest =>
      if !isBlank c then c :: collapse rest
      else if rest.head?.any isBlank then collapse rest
      else ' ' :: collapse rest

/-- Whether the white space of a text is spaces, no two of them side by side. -/
def SpacesIsolated (t : Text) : Prop :=
  (∀ c ∈ t, isBlank c = true → c = ' ') ∧ ¬ [' ', ' '] <:+: t

instance (t : Text) : Decidable (SpacesIsolated t) :=
  decidable_of_iff ((t.filter isBlank).all (· == ' ') = true ∧ ¬ [' ', ' '] <:+: t)
    (by simp only [SpacesIsolated, List.all_eq_true, List.mem_filter, beq_iff_eq, and_imp])

theorem collapse_cons_word {c : Char} (word : isBlank c = false) (t : Text) :
    collapse (c :: t) = c :: collapse t := by
  simp [collapse, word]

theorem collapse_cons_blank {c : Char} (blank : isBlank c = true) (t : Text) :
    collapse (c :: t) = if t.head?.any isBlank then collapse t else ' ' :: collapse t := by
  simp [collapse, blank]

theorem collapse_append_word {word : Text} (solid : ∀ c ∈ word, isBlank c = false) (t : Text) :
    collapse (word ++ t) = word ++ collapse t := by
  induction word with
  | nil => rfl
  | cons c word ih =>
      rw [List.cons_append, collapse_cons_word (solid c (by simp)),
        ih fun d hd => solid d (by simp [hd]), List.cons_append]

theorem collapse_word {word : Text} (solid : ∀ c ∈ word, isBlank c = false) :
    collapse word = word := by
  have := collapse_append_word solid []
  simpa [collapse] using this

theorem dropWhile_of_head_word {t : Text} (word : t.head?.any isBlank = false) :
    t.dropWhile isBlank = t := by
  cases t with
  | nil => rfl
  | cons c t => exact List.dropWhile_cons_of_neg (by simpa using word)

/-- A run at the front is one space. -/
theorem collapse_of_head_blank {t : Text} (blank : t.head?.any isBlank = true) :
    collapse t = ' ' :: collapse (t.dropWhile isBlank) := by
  induction t with
  | nil => simp at blank
  | cons c t ih =>
      have hc : isBlank c = true := by simpa using blank
      rw [collapse_cons_blank hc, List.dropWhile_cons_of_pos hc]
      cases more : t.head?.any isBlank with
      | true => exact ih more
      | false =>
          rw [dropWhile_of_head_word more]
          rfl

/-- Runs on both sides of a character which is not blank are apart. -/
theorem collapse_append {u : Text} (word : u.head?.any isBlank = false) (t : Text) :
    collapse (t ++ u) = collapse t ++ collapse u := by
  induction t with
  | nil => rfl
  | cons c t ih =>
      rw [List.cons_append]
      cases hc : isBlank c with
      | false => rw [collapse_cons_word hc, collapse_cons_word hc, ih, List.cons_append]
      | true =>
          rw [collapse_cons_blank hc, collapse_cons_blank hc, ih]
          cases t with
          | nil => simp [word, collapse]
          | cons d t => cases hd : isBlank d <;> simp [hd]

/-- White space at the front is a space, and none follows it. -/
theorem isolated_cons {c : Char} {t : Text} :
    SpacesIsolated (c :: t) ↔
      (isBlank c = true → c = ' ' ∧ t.head?.any isBlank = false) ∧ SpacesIsolated t := by
  constructor
  · rintro ⟨spaces, apart⟩
    have rest : SpacesIsolated t :=
      ⟨fun d inside => spaces d (List.mem_cons_of_mem c inside),
        fun pair => apart (pair.trans (List.suffix_cons c t).isInfix)⟩
    refine ⟨fun blank => ?_, rest⟩
    have space : c = ' ' := spaces c List.mem_cons_self blank
    refine ⟨space, ?_⟩
    cases t with
    | nil => rfl
    | cons d t =>
        -- a second blank would be a space too
        refine Bool.eq_false_iff.mpr fun second => apart ?_
        have space' : d = ' ' := spaces d (by simp) (by simpa using second)
        exact ⟨[], t, by simp [space, space']⟩
  · rintro ⟨front, spaces, apart⟩
    refine ⟨?_, ?_⟩
    · intro d inside blank
      rcases List.mem_cons.mp inside with rfl | further
      · exact (front blank).1
      · exact spaces d further blank
    · intro pair
      rcases List.infix_cons_iff.mp pair with first | later
      · obtain ⟨u, both⟩ := first
        cases both
        have alone := (front (by decide)).2
        cases alone
      · exact apart later

theorem isolated_nil : SpacesIsolated [] := by
  decide

/-- Two texts with isolated spaces make one, when white space does not meet white space. -/
theorem SpacesIsolated.append {t u : Text} (front : SpacesIsolated t) (back : SpacesIsolated u)
    (apart : t.getLast?.any isBlank = false ∨ u.head?.any isBlank = false) :
    SpacesIsolated (t ++ u) := by
  induction t with
  | nil => exact back
  | cons c t ih =>
      rw [isolated_cons] at front
      rw [List.cons_append, isolated_cons]
      cases t with
      | nil =>
          refine ⟨fun blank => ⟨(front.1 blank).1, ?_⟩, back⟩
          simpa [blank] using apart
      | cons d t =>
          refine ⟨fun blank => ⟨(front.1 blank).1, by simpa using (front.1 blank).2⟩, ?_⟩
          exact ih front.2 (by simpa using apart)

/-- A part of a text has isolated spaces when the text has. -/
theorem SpacesIsolated.of_infix {t u : Text} (isolated : SpacesIsolated u) (part : t <:+: u) :
    SpacesIsolated t :=
  ⟨fun c inside => isolated.1 c (part.subset inside), fun pair => isolated.2 (pair.trans part)⟩

theorem isolated_of_solid {t : Text} (solid : ∀ c ∈ t, isBlank c = false) : SpacesIsolated t := by
  induction t with
  | nil => exact isolated_nil
  | cons c t ih =>
      rw [List.forall_mem_cons] at solid
      rw [isolated_cons, solid.1]
      exact ⟨fun blank => Bool.noConfusion blank, ih solid.2⟩

/-- Isolated spaces stay as they are. -/
theorem collapse_of_isolated {t : Text} (isolated : SpacesIsolated t) : collapse t = t := by
  induction t with
  | nil => rfl
  | cons c t ih =>
      rw [isolated_cons] at isolated
      have rest := ih isolated.2
      cases hc : isBlank c with
      | false => rw [collapse_cons_word hc, rest]
      | true =>
          obtain ⟨space, alone⟩ := isolated.1 hc
          rw [collapse_cons_blank hc, alone, rest, space]
          rfl

/-! ## Words -/

theorem words_cons_blank {c : Char} (blank : isBlank c = true) (t : Text) :
    words (c :: t) = words t := by
  simp [words, splitWhere, blank]

theorem words_append_blank {gap : Text} (blank : allBlank gap = true) (t : Text) :
    words (gap ++ t) = words t := by
  induction gap with
  | nil => rfl
  | cons c gap ih =>
      simp only [allBlank, List.all_cons, Bool.and_eq_true] at blank
      rw [List.cons_append, words_cons_blank blank.1, ih blank.2]

/-- A character which is not blank begins a word, and goes on with it when the next one is not
blank either. -/
theorem words_cons_word {c : Char} (word : isBlank c = false) (t : Text) :
    (t.head?.all isBlank = true ∧ words (c :: t) = [c] :: words t) ∨
      (t.head?.any isBlank = false ∧
        ∃ first more, words t = first :: more ∧ words (c :: t) = (c :: first) :: more) := by
  cases t with
  | nil => left; simp [words, splitWhere, word]
  | cons d t =>
      cases hd : isBlank d with
      | true => left; simp [words, splitWhere, word, hd]
      | false =>
          right
          cases pieces : splitWhere isBlank t with
          | nil => exact absurd pieces (splitWhere_ne_nil isBlank t)
          | cons piece pieces' => simp [words, splitWhere, word, hd, pieces]

/-- A text which is not blank throughout has a word. -/
theorem words_ne_nil {t : Text} (notBlank : allBlank t = false) : words t ≠ [] := by
  induction t with
  | nil => simp [allBlank] at notBlank
  | cons c t ih =>
      cases hc : isBlank c with
      | true =>
          rw [words_cons_blank hc]
          exact ih (by simpa [allBlank, hc] using notBlank)
      | false =>
          rcases words_cons_word hc t with ⟨-, same⟩ | ⟨-, first, more, -, same⟩ <;> simp [same]

/-! ## Lines -/

theorem normalize_append_blank {gap : Text} (blank : allBlank gap = true) (t : Text) :
    normalize (gap ++ t) = normalize t := by
  rw [normalize, words_append_blank blank, normalize]

theorem normalize_cons_blank {c : Char} (blank : isBlank c = true) (t : Text) :
    normalize (c :: t) = normalize t :=
  normalize_append_blank (show allBlank [c] = true by simp [allBlank, blank]) t

theorem normalize_of_allBlank {t : Text} (blank : allBlank t = true) : normalize t = [] := by
  have := normalize_append_blank blank []
  simpa [normalize, words, splitWhere] using this

/-- Behind a character which is not blank, white space counts when a word follows it. -/
theorem normalize_cons_word {c : Char} (word : isBlank c = false) (t : Text) :
    normalize (c :: t) =
      c :: if t.head?.any isBlank && !allBlank t then ' ' :: normalize t else normalize t := by
  rcases words_cons_word word t with ⟨blank, same⟩ | ⟨solid, first, more, rest, same⟩
  · cases last : allBlank t with
    | true =>
        have none : words t = [] := by simpa [words, splitWhere] using words_append_blank last []
        simp [normalize, same, none]
    | false =>
        have some : words t ≠ [] := words_ne_nil last
        have hd : t.head?.any isBlank = true := by
          cases t with
          | nil => simp [allBlank] at last
          | cons d t => simpa using blank
        rw [hd, normalize, same, List.intercalate_cons_of_ne_nil some]
        rfl
  · rw [solid, normalize, same, List.intercalate_cons_cons_left, normalize, rest]
    rfl

/-- Normalizing leaves isolated spaces, and none at the front. -/
theorem isolated_normalize (t : Text) :
    SpacesIsolated (normalize t) ∧ (normalize t).head?.any isBlank = false := by
  induction t with
  | nil => exact ⟨isolated_nil, rfl⟩
  | cons c t ih =>
      cases hc : isBlank c with
      | true =>
          rw [normalize_cons_blank hc]
          exact ih
      | false =>
          rw [normalize_cons_word hc]
          refine ⟨isolated_cons.mpr ⟨fun blank => ?_, ?_⟩, by simpa using hc⟩
          · rw [hc] at blank
            cases blank
          · split
            · exact isolated_cons.mpr ⟨fun _ => ⟨rfl, ih.2⟩, ih.1⟩
            · exact ih.1

/-- The only white space which normalizing leaves is the space. -/
theorem isBlank_of_mem_normalize {t : Text} {c : Char} (member : c ∈ normalize t) :
    isBlank c = false ∨ c = ' ' := by
  cases hc : isBlank c with
  | false => exact Or.inl rfl
  | true => exact Or.inr ((isolated_normalize t).1.1 c member hc)

/-- Normalizing adds nothing but spaces. -/
theorem mem_of_mem_normalize {t : Text} {c : Char} (member : c ∈ normalize t) :
    c ∈ t ∨ c = ' ' := by
  induction t with
  | nil => simp [normalize, words, splitWhere] at member
  | cons d t ih =>
      have later (inside : c ∈ normalize t) : c ∈ d :: t ∨ c = ' ' :=
        (ih inside).imp_left (List.mem_cons_of_mem d)
      cases hd : isBlank d with
      | true =>
          rw [normalize_cons_blank hd] at member
          exact later member
      | false =>
          rw [normalize_cons_word hd, List.mem_cons] at member
          rcases member with rfl | rest
          · exact Or.inl List.mem_cons_self
          · split at rest
            · rcases List.mem_cons.mp rest with rfl | inside
              · exact Or.inr rfl
              · exact later inside
            · exact later rest

/-- Only a blank text is normalized to nothing. -/
theorem normalize_eq_nil_iff {t : Text} : normalize t = [] ↔ allBlank t = true := by
  refine ⟨fun nothing => ?_, normalize_of_allBlank⟩
  induction t with
  | nil => rfl
  | cons c t ih =>
      cases hc : isBlank c with
      | true =>
          rw [normalize_cons_blank hc] at nothing
          rw [allBlank, List.all_cons, hc, Bool.true_and]
          exact ih nothing
      | false =>
          rw [normalize_cons_word hc] at nothing
          cases nothing

/-- A part of a line which ends in a character that is not blank is collapsed, without the white
space in front of it; what follows is normalized by itself. -/
theorem normalize_append {last : Char} (solid : isBlank last = false) {t : Text}
    (gap : t.head?.all isBlank = true) (part : Text) :
    normalize (part ++ last :: t) =
      collapse ((part ++ [last]).dropWhile isBlank)
        ++ if allBlank t then [] else ' ' :: normalize t := by
  induction part with
  | nil =>
      rw [List.nil_append, List.nil_append, normalize_cons_word solid,
        List.dropWhile_cons_of_neg (by simp [solid]), collapse_cons_word solid]
      cases blank : allBlank t with
      | true => simp [normalize_of_allBlank blank, collapse]
      | false =>
          have hd : t.head?.any isBlank = true := by
            cases t with
            | nil => simp [allBlank] at blank
            | cons d t => simpa using gap
          simp [hd, collapse]
  | cons c part ih =>
      rw [List.cons_append, List.cons_append]
      cases hc : isBlank c with
      | true =>
          rw [List.dropWhile_cons_of_pos hc, ← ih]
          exact normalize_cons_blank hc _
      | false =>
          have word : allBlank (part ++ last :: t) = false := by simp [allBlank, solid]
          rw [normalize_cons_word hc, word, ih, List.dropWhile_cons_of_neg (by simp [hc]),
            collapse_cons_word hc]
          -- white space between `c` and the next word is a run at the front of the rest
          have same : (part ++ last :: t).head? = (part ++ [last]).head? := by
            cases part <;> rfl
          rw [same]
          cases hd : (part ++ [last]).head?.any isBlank with
          | true => simp [collapse_of_head_blank hd]
          | false => simp [dropWhile_of_head_word hd]

end Compdb.Text
