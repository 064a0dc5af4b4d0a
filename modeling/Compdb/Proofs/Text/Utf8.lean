/-
# Compdb.Proofs.Text.Utf8 — decoding loses no byte

The decoder looks at one byte at a time, and between two bytes it knows the bits of a character
which has begun and the range in which the next byte has to be. What it knows is enough
(`Partial.Leads`): each number which goes on with these bits, and with a byte in this range, is the
number of a character whose encoding begins with the bytes so far. So a character which is
completed is encoded by just the bytes which were read, and the pieces of some bytes are those
bytes again (`flatMap_bytes_decode`). In particular bytes are well-formed when they are the
encoding of a text, and only then (`decode?_eq_some_iff`).
-/
import Compdb.Text.Utf8.RoundTrip
import Mathlib.Algebra.Group.Nat.Defs

namespace Compdb.Utf8

set_option autoImplicit false

/-! ## Characters from their numbers -/

/-- The last bytes of a character, which have six bits each. -/
def tails : Nat → Nat → List UInt8
  | 0, _ => []
  | k + 1, n => (0x80 + n / 64 ^ k % 64).toUInt8 :: tails k n

theorem tails_one (n : Nat) : tails 1 n = [(0x80 + n % 64).toUInt8] := by
  simp [tails]

theorem toNat_ofNat {n : Nat} (valid : n.isValidChar) : (Char.ofNat n).toNat = n := by
  rw [Char.ofNat, dif_pos valid]
  rfl

theorem encodeChar_one {n : Nat} (high : n < 0x80) : encodeChar (Char.ofNat n) = [n.toUInt8] := by
  rw [encodeChar, toNat_ofNat (Or.inl (by omega))]
  exact if_pos high

theorem encodeChar_two {n : Nat} (low : 0x80 ≤ n) (high : n < 0x800) :
    encodeChar (Char.ofNat n) = (0xC0 + n / 64).toUInt8 :: tails 1 n := by
  rw [encodeChar, toNat_ofNat (Or.inl (by omega))]
  simp [tails, Nat.not_lt.mpr low, high]

theorem encodeChar_three {n : Nat} (low : 0x800 ≤ n) (high : n < 0x10000)
    (valid : n.isValidChar) :
    encodeChar (Char.ofNat n) = (0xE0 + n / 0x1000).toUInt8 :: tails 2 n := by
  have long : ¬ n < 0x80 := by omega
  rw [encodeChar, toNat_ofNat valid]
  simp [tails, long, Nat.not_lt.mpr low, high]

theorem encodeChar_four {n : Nat} (low : 0x10000 ≤ n) (high : n < 0x110000) :
    encodeChar (Char.ofNat n) = (0xF0 + n / 0x40000).toUInt8 :: tails 3 n := by
  have long : ¬ n < 0x80 := by omega
  have longer : ¬ n < 0x800 := by omega
  rw [encodeChar, toNat_ofNat (Or.inr ⟨by omega, high⟩)]
  simp [tails, long, longer, Nat.not_lt.mpr low]

@[simp] theorem Piece.bytes_char (c : Char) : (Piece.char c).bytes = encodeChar c := rfl

@[simp] theorem Piece.bytes_illFormed (bytes : List UInt8) :
    (Piece.illFormed bytes).bytes = bytes := rfl

/-! ## Characters which have begun -/

/-- The bytes so far are the first ones of each character which goes on with their bits, and
whose next byte is in the range which is required. -/
structure Partial.Leads (p : Partial) : Prop where
  low : 0x80 ≤ p.low.toNat
  high : p.high.toNat ≤ 0xBF
  encodeChar : ∀ n, n / 64 ^ (p.missing + 1) = p.bits →
    p.low.toNat ≤ 0x80 + n / 64 ^ p.missing % 64 →
    0x80 + n / 64 ^ p.missing % 64 ≤ p.high.toNat →
    encodeChar (Char.ofNat n) = p.bytes.reverse ++ tails (p.missing + 1) n

theorem toUInt8_of_toNat {b : UInt8} {n : Nat} (same : b.toNat = n) : n.toUInt8 = b := by
  rw [← same]
  exact UInt8.ofNat_toNat

section Begin

variable {b low high : UInt8}

/-- Two bytes cannot be a form which is too long, since the first one is not below `0xC2`. -/
theorem leads_two (lower : 0xC2 ≤ b.toNat) (upper : b.toNat < 0xE0) :
    Partial.Leads ⟨[b], b.toNat % 32, 0, 0x80, 0xBF⟩ := by
  refine ⟨Nat.le_refl 0x80, Nat.le_refl 0xBF, fun n bits _ _ => ?_⟩
  dsimp only at bits ⊢
  rw [encodeChar_two (by omega) (by omega), toUInt8_of_toNat (b := b) (by omega)]
  rfl

/-- Of three bytes the second one keeps out forms which are too long, and surrogates. -/
theorem leads_three {bits : Nat} (first : b.toNat = 0xE0 + bits) (few : bits < 16)
    (above : 0x80 ≤ low.toNat) (below : high.toNat ≤ 0xBF)
    (noLongForm : bits = 0 → 0xA0 ≤ low.toNat)
    (noSurrogate : bits = 13 → high.toNat ≤ 0x9F) :
    Partial.Leads ⟨[b], bits, 1, low, high⟩ := by
  refine ⟨above, below, fun n same lower upper => ?_⟩
  dsimp only at same lower upper ⊢
  have valid : n.isValidChar := by
    rw [Nat.isValidChar]
    omega
  rw [encodeChar_three (by omega) (by omega) valid, toUInt8_of_toNat (b := b) (by omega)]
  rfl

/-- Of four bytes the second one keeps out forms which are too long, and numbers which are too
large. -/
theorem leads_four {bits : Nat} (first : b.toNat = 0xF0 + bits) (few : bits < 5)
    (above : 0x80 ≤ low.toNat) (below : high.toNat ≤ 0xBF)
    (noLongForm : bits = 0 → 0x90 ≤ low.toNat)
    (notTooLarge : bits = 4 → high.toNat ≤ 0x8F) :
    Partial.Leads ⟨[b], bits, 2, low, high⟩ := by
  refine ⟨above, below, fun n same lower upper => ?_⟩
  dsimp only at same lower upper ⊢
  rw [encodeChar_four (by omega) (by omega), toUInt8_of_toNat (b := b) (by omega)]
  rfl

end Begin

/-- Where a character can begin, a byte is a piece of its own, or it leads into a character. -/
theorem begin_cases (b : UInt8) :
    (∃ piece, begin b = .inl piece ∧ piece.bytes = [b]) ∨
      ∃ p, begin b = .inr p ∧ p.bytes = [b] ∧ p.Leads := by
  have value (k : UInt8) : (b < k ↔ b.toNat < k.toNat) ∧ ((b == k) = true ↔ b.toNat = k.toNat) :=
    ⟨UInt8.lt_iff_toNat_lt, by rw [beq_iff_eq, UInt8.toNat_inj]⟩
  have bound : b.toNat < 256 := b.toNat_lt
  rw [begin]
  simp only [value, UInt8.reduceToNat]
  split
  · next ascii =>
      refine Or.inl ⟨_, rfl, ?_⟩
      rw [Piece.bytes_char, encodeChar_one ascii, toUInt8_of_toNat rfl]
  split
  · exact Or.inl ⟨_, rfl, rfl⟩
  -- two bytes
  split
  · exact Or.inr ⟨_, rfl, rfl, leads_two (by omega) (by omega)⟩
  -- three bytes: the two first bytes with a range of their own, then the others
  split
  · exact Or.inr ⟨_, rfl, rfl, leads_three (by omega) (by omega) (by decide) (by decide)
      (by decide) (by decide)⟩
  split
  · exact Or.inr ⟨_, rfl, rfl, leads_three (by omega) (by omega) (by decide) (by decide)
      (by decide) (by decide)⟩
  split
  · refine Or.inr ⟨_, rfl, rfl, leads_three (by omega) (by omega) (by decide) (by decide) ?_ ?_⟩ <;>
      omega
  -- four bytes: again the two first bytes with a range of their own stand around the others
  split
  · exact Or.inr ⟨_, rfl, rfl, leads_four (by omega) (by omega) (by decide) (by decide)
      (by decide) (by decide)⟩
  split
  · refine Or.inr ⟨_, rfl, rfl, leads_four (by omega) (by omega) (by decide) (by decide) ?_ ?_⟩ <;>
      omega
  split
  · exact Or.inr ⟨_, rfl, rfl, leads_four (by omega) (by omega) (by decide) (by decide)
      (by decide) (by decide)⟩
  · exact Or.inl ⟨_, rfl, rfl⟩

/-! ## Decoding -/

theorem Partial.Leads.next {p : Partial} {b : UInt8} {k : Nat} (leads : p.Leads)
    (more : p.missing = k + 1) (low : p.low.toNat ≤ b.toNat) (high : b.toNat ≤ p.high.toNat) :
    Partial.Leads ⟨b :: p.bytes, p.bits * 64 + b.toNat % 64, k, 0x80, 0xBF⟩ := by
  obtain ⟨above, below, encoded⟩ := leads
  refine ⟨Nat.le_refl 0x80, Nat.le_refl 0xBF, fun n bits _ _ => ?_⟩
  dsimp only at bits ⊢
  have before : n / 64 ^ (k + 2) = p.bits := by
    rw [Nat.pow_succ, ← Nat.div_div_eq_div_mul, bits]
    omega
  have byte : b.toNat = 0x80 + n / 64 ^ (k + 1) % 64 := by omega
  rw [encoded n (by rw [more]; exact before) (by rw [more]; omega) (by rw [more]; omega), more]
  simp [tails, toUInt8_of_toNat byte]

/-- The byte which completes a character. -/
theorem Partial.Leads.last {p : Partial} {b : UInt8} (leads : p.Leads) (none : p.missing = 0)
    (low : p.low.toNat ≤ b.toNat) (high : b.toNat ≤ p.high.toNat) :
    Utf8.encodeChar (Char.ofNat (p.bits * 64 + b.toNat % 64)) = p.bytes.reverse ++ [b] := by
  obtain ⟨above, below, encoded⟩ := leads
  have byte : b.toNat = 0x80 + (p.bits * 64 + b.toNat % 64) % 64 := by omega
  rw [encoded _ (by rw [none]; omega) (by rw [none]; omega) (by rw [none]; omega), none,
    tails_one, toUInt8_of_toNat byte]

/-- Within a character the bytes which have begun it are not lost. -/
theorem flatMap_bytes_decodeFrom (bytes : List UInt8) : ∀ state : Option Partial,
    (∀ p ∈ state, p.Leads) →
      (decodeFrom state bytes).flatMap Piece.bytes =
        (state.elim [] fun p => p.bytes.reverse) ++ bytes := by
  induction bytes with
  | nil =>
      intro state _
      cases state <;> simp [decodeFrom]
  | cons b rest ih =>
      intro state leads
      have between := ih none (by simp)
      cases state with
      | none =>
          rw [decodeFrom]
          obtain ⟨piece, same, bytes⟩ | ⟨p, same, bytes, begun⟩ := begin_cases b
          · simp [same, bytes, between]
          · simp [same, bytes, ih (some p) (by simpa using begun)]
      | some p =>
          have leads : p.Leads := leads p rfl
          rw [decodeFrom]
          split
          · next inside =>
              rw [Bool.and_eq_true, decide_eq_true_iff, decide_eq_true_iff] at inside
              obtain ⟨low, high⟩ := inside
              rw [UInt8.le_iff_toNat_le] at low high
              dsimp only
              split
              · next none =>
                  simp [leads.last none low high, between]
              · next k more =>
                  rw [ih (some _) (by simpa using leads.next more low high)]
                  simp
          · obtain ⟨piece, same, bytes⟩ | ⟨q, same, bytes, begun⟩ := begin_cases b
            · simp [same, bytes, between]
            · simp [same, bytes, ih (some q) (by simpa using begun)]

/-- Decoding loses nothing. -/
theorem flatMap_bytes_decode (bytes : List UInt8) :
    (decode bytes).flatMap Piece.bytes = bytes :=
  flatMap_bytes_decodeFrom bytes none (by simp)

/-- There is a text when all pieces are characters. -/
theorem mapM_toChar?_eq_some {pieces : List Piece} : ∀ {t : Text},
    pieces.mapM Piece.toChar? = some t → pieces = t.map .char := by
  induction pieces with
  | nil =>
      intro t whole
      rw [← Option.some.inj whole]
      rfl
  | cons piece pieces ih =>
      intro t whole
      rw [List.mapM_cons] at whole
      obtain ⟨c, isChar, more⟩ := Option.bind_eq_some_iff.mp whole
      obtain ⟨u, rest, same⟩ := Option.bind_eq_some_iff.mp more
      cases piece with
      | illFormed _ => cases isChar
      | char d =>
          rw [← Option.some.inj same, ih rest, List.map_cons, Option.some.inj isChar]

/-- Bytes are well-formed when a text is encoded by them. -/
theorem decode?_eq_some_iff {bytes : List UInt8} {t : Text} :
    decode? bytes = some t ↔ encode t = bytes := by
  constructor
  · intro decoded
    rw [← flatMap_bytes_decode bytes, mapM_toChar?_eq_some decoded, List.flatMap_map]
    rfl
  · rintro rfl
    exact decode?_encode t

end Compdb.Utf8
