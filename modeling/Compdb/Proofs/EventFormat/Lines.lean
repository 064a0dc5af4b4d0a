/-
# Compdb.Proofs.EventFormat.Lines — an event file is read line by line

The byte of a line feed is part of no other character, so the bytes of a file are cut where its
text has line feeds (`splitLines_line`). A line may end with a line feed, or with a carriage
return and a line feed. In the first case a carriage return at the end of the line itself goes
with the line feed (`dropLineEnd_line`), so what is read of a line can be shorter than the line,
by white space. A blank line gives nothing (`readLines_blank`), and any other line what it is
parsed to (`readLines_event`).
-/
import Compdb.EventFormat
import Compdb.Text.Utf8.RoundTrip

namespace Compdb.EventFormat

set_option autoImplicit false

/-- The texts which end a line. -/
def lineEnds : List Text :=
  [['\n'], ['\r', '\n']]

/-! ## Bytes -/

/-- The byte of a line feed is in the encoding of a line feed only. -/
theorem eq_of_feed_mem_encodeChar {c : Char} (member : 0x0A ∈ Utf8.encodeChar c) : c = '\n' := by
  have valid : c.toNat < 0xD800 ∨ 0xDFFF < c.toNat ∧ c.toNat < 0x110000 := c.valid
  have byte {k : Nat} (small : k < 256) (same : (0x0A : UInt8) = k.toUInt8) : k = 10 := by
    rw [← Utf8.toNat_toUInt8 small, ← same]
    rfl
  have number : c.toNat = 10 := by
    rw [Utf8.encodeChar] at member
    dsimp only at member
    split at member
    · exact byte (by omega) (List.mem_singleton.mp member)
    · exfalso
      split at member
      · simp only [List.mem_cons, List.not_mem_nil, or_false] at member
        rcases member with same | same <;> have := byte (by omega) same <;> omega
      · split at member
        · simp only [List.mem_cons, List.not_mem_nil, or_false] at member
          rcases member with same | same | same <;> have := byte (by omega) same <;> omega
        · simp only [List.mem_cons, List.not_mem_nil, or_false] at member
          rcases member with same | same | same | same <;> have := byte (by omega) same <;> omega
  rw [← Char.ofNat_toNat c, number]

theorem encode_append (t u : Text) : Utf8.encode (t ++ u) = Utf8.encode t ++ Utf8.encode u :=
  List.flatMap_append

/-- Bytes without a line feed stay together, with the line feed behind them. -/
theorem splitLines_append {line : List UInt8} (noFeed : 0x0A ∉ line) (rest : List UInt8) :
    splitLines (line ++ 0x0A :: rest) = (line ++ [0x0A]) :: splitLines rest := by
  induction line with
  | nil => rfl
  | cons b line ih =>
      rw [List.mem_cons, not_or] at noFeed
      have notFeed : ¬ (b == 0x0A) = true := fun same => noFeed.1 (beq_iff_eq.mp same).symm
      rw [List.cons_append, splitLines, if_neg notFeed, ih noFeed.2]
      rfl

section Lines

variable {t ending : Text}

/-- A line is what stands before a line feed. -/
theorem exists_content (noFeed : '\n' ∉ t) (isEnd : ending ∈ lineEnds) :
    ∃ content, '\n' ∉ content ∧ t ++ ending = content ++ ['\n'] := by
  simp only [lineEnds, List.mem_cons, List.not_mem_nil, or_false] at isEnd
  rcases isEnd with rfl | rfl
  · exact ⟨t, noFeed, rfl⟩
  · exact ⟨t ++ ['\r'], by simp [noFeed], by simp⟩

/-- The first line of a file is cut off with its end. -/
theorem splitLines_line (noFeed : '\n' ∉ t) (isEnd : ending ∈ lineEnds) (rest : Text) :
    splitLines (Utf8.encode (t ++ ending ++ rest)) =
      Utf8.encode (t ++ ending) :: splitLines (Utf8.encode rest) := by
  obtain ⟨content, noFeed, same⟩ := exists_content noFeed isEnd
  have bytes : (0x0A : UInt8) ∉ Utf8.encode content := by
    intro member
    obtain ⟨c, inside, feed⟩ := List.mem_flatMap.mp member
    exact noFeed (eq_of_feed_mem_encodeChar feed ▸ inside)
  have feed : Utf8.encode ['\n'] = [0x0A] := by decide
  rw [same, encode_append, encode_append, feed, List.append_assoc]
  exact splitLines_append bytes _

/-- What is left of a line without its end is the line, or the line without a carriage return at
its end. -/
theorem dropLineEnd_line (t : Text) (isEnd : ending ∈ lineEnds) :
    dropLineEnd (t ++ ending) = t ∨ t = dropLineEnd (t ++ ending) ++ ['\r'] := by
  simp only [lineEnds, List.mem_cons, List.not_mem_nil, or_false] at isEnd
  rcases isEnd with rfl | rfl
  · rcases List.eq_nil_or_concat t with rfl | ⟨u, c, rfl⟩
    · exact Or.inl rfl
    · by_cases return' : c = '\r'
      · subst return'
        right
        simp [dropLineEnd]
      · left
        simp [dropLineEnd, return']
  · left
    simp [dropLineEnd]

/-- A blank line gives nothing. -/
theorem readLines_blank (number : Nat) (blank : Text.allBlank t = true) (noFeed : '\n' ∉ t)
    (isEnd : ending ∈ lineEnds) (rest : Text) :
    readLines number (splitLines (Utf8.encode (t ++ ending ++ rest))) =
      readLines (number + 1) (splitLines (Utf8.encode rest)) := by
  have left : Text.allBlank (dropLineEnd (t ++ ending)) = true := by
    rcases dropLineEnd_line t isEnd with same | shorter
    · rw [same, blank]
    · rw [shorter, Text.allBlank, List.all_append, Bool.and_eq_true] at blank
      exact blank.1
  have nothing : readLine number (Utf8.encode (t ++ ending)) = none := by
    simp [readLine, Utf8.decode?_encode, left]
  rw [splitLines_line noFeed isEnd, readLines, nothing]

/-- A line gives the event to which it is parsed. -/
theorem readLines_event (number : Nat) {e : Event}
    (filled : Text.allBlank (dropLineEnd (t ++ ending)) = false)
    (parsed : parse (dropLineEnd (t ++ ending)) = .ok e) (noFeed : '\n' ∉ t)
    (isEnd : ending ∈ lineEnds) (rest : Text) :
    readLines number (splitLines (Utf8.encode (t ++ ending ++ rest))) =
      .ok e :: readLines (number + 1) (splitLines (Utf8.encode rest)) := by
  have event : readLine number (Utf8.encode (t ++ ending)) = some (.ok e) := by
    simp [readLine, Utf8.decode?_encode, filled, parsed]
  rw [splitLines_line noFeed isEnd, readLines, event]

end Lines

end Compdb.EventFormat
