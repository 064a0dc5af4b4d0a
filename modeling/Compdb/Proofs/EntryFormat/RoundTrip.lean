/-
# Compdb.Proofs.EntryFormat.RoundTrip — a database which was written is read back

The way in which a database is written is one of the layouts which are understood
(`writesDatabase_render`): its characters are escaped where they have to be, its items stand on
lines of their own, and the keys of its objects come in order. So what was written is read back as
the entries it was made from (`parse_render`), all of them, whether they are acceptable or not.
-/
import Compdb.Proofs.EntryFormat.Layout

namespace Compdb.EntryFormat

set_option autoImplicit false

open Json (ArrayLayout IsGap Padded WritesString)

theorem writesDigit_digitChar : ∀ k : Fin 16, Json.WritesDigit k.val (Nat.digitChar k.val) := by
  intro k
  have lower : ∀ k : Fin 16, "0123456789abcdef".toList[k.val]? = some (Nat.digitChar k.val) := by
    decide
  exact Or.inl (lower k)

theorem writesChar_escapedChar (c : Char) : Json.WritesChar c (escapedChar c) := by
  unfold escapedChar
  split
  · exact .short (by decide)
  · exact .short (by decide)
  · exact .short (by decide)
  · exact .short (by decide)
  · exact .short (by decide)
  · exact .short (by decide)
  · exact .short (by decide)
  · next notQuote notBackslash _ _ _ _ _ =>
      split
      · next control =>
          have first : c.toNat / 0x1000 = 0 := by omega
          have second : c.toNat / 0x100 % 16 = 0 := by omega
          have third : c.toNat / 0x10 % 16 = c.toNat / 16 := by omega
          refine .unit ⟨'0', '0', _, _, ?_, ?_, ?_, ?_, rfl⟩
          · rw [first]
            exact writesDigit_digitChar 0
          · rw [second]
            exact writesDigit_digitChar 0
          · rw [third]
            exact writesDigit_digitChar ⟨c.toNat / 16, by omega⟩
          · exact writesDigit_digitChar ⟨c.toNat % 16, by omega⟩
      · next printable => exact .raw notQuote notBackslash (Nat.le_of_not_lt printable)

theorem writesString_renderString (t : Text) : WritesString t (renderString t) := by
  refine ⟨t.map escapedChar, ?_, by rw [← List.flatMap_def]; rfl⟩
  rw [List.forall₂_map_right_iff, List.forall₂_same]
  exact fun c _ => writesChar_escapedChar c

theorem isGap_newLine (level : Nat) : IsGap (newLine level) := by
  intro c member
  rcases List.mem_cons.mp member with rfl | inside
  · decide
  · rw [List.eq_of_mem_replicate inside]
    decide

section Items

variable {α : Type} {layout : α → Text → Prop}

/-- A layout of items which can be surrounded by white space. -/
def AllowsGaps (layout : α → Text → Prop) : Prop :=
  ∀ a part before after, layout a part → IsGap before → IsGap after →
    layout a (before ++ part ++ after)

/-- Items on lines of their own have commas between them, and white space around them. -/
theorem exists_parts (allowsGaps : AllowsGaps layout) {gap after : Text} (isGap : IsGap gap)
    (isGap' : IsGap after) {items : List α} {parts : List Text} (filled : items ≠ [])
    (each : List.Forall₂ layout items parts) :
    ∃ parts', List.Forall₂ layout items parts' ∧
      gap ++ (',' :: gap).intercalate parts ++ after = [','].intercalate parts' := by
  induction each with
  | nil => exact absurd rfl filled
  | @cons item part items parts head more ih =>
      cases more with
      | nil =>
          refine ⟨[gap ++ part ++ after], .cons (allowsGaps _ _ _ _ head isGap isGap') .nil, ?_⟩
          rw [List.intercalate_singleton, List.intercalate_singleton]
      | cons next more =>
          obtain ⟨parts', each, same⟩ := ih (List.cons_ne_nil _ _)
          have first := allowsGaps _ _ gap [] head isGap (List.forall_mem_nil _)
          refine ⟨(gap ++ part ++ []) :: parts', .cons first each, ?_⟩
          have some : parts' ≠ [] := by
            rintro rfl
            cases each
          rw [List.intercalate_cons_cons, List.intercalate_cons_of_ne_nil some, ← same]
          simp

/-- Items on lines of their own, between brackets on lines of their own. -/
theorem bracketed_renderItems (allowsGaps : AllowsGaps layout) (opening closing : Char)
    (level : Nat) {items : List α} {parts : List Text} (each : List.Forall₂ layout items parts) :
    Json.Bracketed opening closing layout items (renderItems opening closing level parts) := by
  cases each with
  | nil => exact .empty (List.forall_mem_nil _)
  | cons head more =>
      obtain ⟨parts', each, same⟩ := exists_parts allowsGaps (isGap_newLine (level + 1))
        (isGap_newLine level) (List.cons_ne_nil _ _) (.cons head more)
      have filled : Json.Bracketed opening closing layout _ _ :=
        .filled (List.cons_ne_nil _ _) each
      rw [← same] at filled
      rw [renderItems]
      · simpa using filled
      · simp

end Items

/-- An array on lines of its own, as they are written. -/
theorem arrayLayout_renderItems (level : Nat) (items : List Text) :
    ArrayLayout items (renderItems '[' ']' level items) :=
  bracketed_renderItems (fun _ _ _ _ padded gap gap' => padded.pad gap gap') '[' ']' level
    (List.forall₂_same.mpr fun item _ => Padded.refl item)

/-- The object of an entry is written with its keys in order, and nothing else. -/
theorem writesEntry_renderEntry (e : Entry) : WritesEntry e (renderEntry e) := by
  have colon (key value : Text) :
      Json.MemberLayout (renderString key, value) (renderMember key value) :=
    ⟨_, _, .refl _, ⟨[' '], [], by decide, by decide, (List.append_nil _).symm⟩, by
      simp [renderMember]⟩
  have arguments : List.Forall₂ WritesString e.arguments (e.arguments.map renderString) := by
    rw [List.forall₂_map_right_iff, List.forall₂_same]
    exact fun t _ => writesString_renderString t
  refine ⟨[directoryKey, fileKey, argumentsKey],
    [(renderString directoryKey, renderString e.directory),
     (renderString fileKey, renderString e.file),
     (renderString argumentsKey, renderItems '[' ']' 2 (e.arguments.map renderString))],
    ?_, by decide, ?_⟩
  · exact .cons ⟨writesString_renderString _, .directory (writesString_renderString _)⟩ <|
      .cons ⟨writesString_renderString _, .file (writesString_renderString _)⟩ <|
      .cons ⟨writesString_renderString _,
        .arguments arguments (arrayLayout_renderItems 2 _)⟩ .nil
  · exact bracketed_renderItems (fun _ _ _ _ layout gap gap' => layout.pad gap gap') _ _ 1
      (.cons (colon _ _) (.cons (colon _ _) (.cons (colon _ _) .nil)))

/-- What is written is one of the layouts which are understood. -/
theorem writesDatabase_render (entries : List Entry) : WritesDatabase entries (render entries) := by
  refine ⟨entries.map renderEntry, _, ?_, arrayLayout_renderItems 0 _, [], ['\n'], by decide,
    by decide, rfl⟩
  rw [List.forall₂_map_right_iff, List.forall₂_same]
  exact fun e _ => writesEntry_renderEntry e

/-- The bytes of a database are read back as its entries, all of them, in order. -/
theorem parse_render (entries : List Entry) :
    parse (Utf8.encode (render entries)) = .ok entries :=
  parse_of_writesDatabase (writesDatabase_render entries)

end Compdb.EntryFormat
