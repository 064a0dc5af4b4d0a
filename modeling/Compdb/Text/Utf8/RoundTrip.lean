/-
# Compdb.Text.Utf8.RoundTrip — decoding undoes encoding

The bytes of a character take the decoder from between two characters to between two
characters, whatever follows them (`decodeFrom_encodeChar`). So a text which was encoded is
decoded into its characters (`decode_encode`), none of which is lost or refused
(`decode?_encode`).
-/
import Compdb.Text.Utf8

namespace Compdb.Utf8

set_option autoImplicit false

theorem toNat_toUInt8 {n : Nat} (h : n < 256) : n.toUInt8.toNat = n := by
  simp [Nat.toUInt8, UInt8.toNat_ofNat', Nat.mod_eq_of_lt h]

/-- A byte below 128 is a character. -/
theorem begin_of_one {n : Nat} (h : n < 0x80) :
    begin n.toUInt8 = .inl (.char (Char.ofNat n)) := by
  have hn : n.toUInt8.toNat = n := toNat_toUInt8 (by omega)
  have hb : n.toUInt8 < 0x80 := by rw [UInt8.lt_iff_toNat_lt, hn]; exact h
  rw [begin, if_pos hb, hn]

/-- What the first of two bytes requires. -/
theorem begin_of_two : ∀ k : Fin 32, 2 ≤ k.val →
    begin (0xC0 + k.val).toUInt8 = .inr ⟨[(0xC0 + k.val).toUInt8], k, 0, 0x80, 0xBF⟩ := by
  decide

/-- What the first of three bytes requires. -/
theorem begin_of_three : ∀ k : Fin 16,
    begin (0xE0 + k.val).toUInt8 =
      .inr ⟨[(0xE0 + k.val).toUInt8], k, 1, if k.val = 0 then 0xA0 else 0x80,
        if k.val = 13 then 0x9F else 0xBF⟩ := by
  decide

/-- What the first of four bytes requires. -/
theorem begin_of_four : ∀ k : Fin 5,
    begin (0xF0 + k.val).toUInt8 =
      .inr ⟨[(0xF0 + k.val).toUInt8], k, 2, if k.val = 0 then 0x90 else 0x80,
        if k.val = 4 then 0x8F else 0xBF⟩ := by
  decide

/-- A byte within the range which is required adds its six bits. -/
theorem decodeFrom_tail (p : Partial) (x : Nat) (rest : List UInt8) (hx : x < 64)
    (low : p.low.toNat ≤ 0x80 + x) (high : 0x80 + x ≤ p.high.toNat) :
    decodeFrom (some p) ((0x80 + x).toUInt8 :: rest) =
      match p.missing with
      | 0 => .char (Char.ofNat (p.bits * 64 + x)) :: decodeFrom none rest
      | k + 1 =>
          decodeFrom (some ⟨(0x80 + x).toUInt8 :: p.bytes, p.bits * 64 + x, k, 0x80, 0xBF⟩)
            rest := by
  have hb : (0x80 + x).toUInt8.toNat = 0x80 + x := toNat_toUInt8 (by omega)
  have hm : (0x80 + x) % 64 = x := by omega
  rw [decodeFrom]
  cases p.missing <;>
    simp only [UInt8.le_iff_toNat_le, hb, low, high, hm, decide_true, Bool.and_self, ↓reduceIte]

/-- The bytes of a character are decoded into that character, and the decoder is between two
characters again. The ranges of the second byte hold because the number of a character is no
surrogate and not too large. -/
theorem decodeFrom_encodeChar (c : Char) (rest : List UInt8) :
    decodeFrom none (encodeChar c ++ rest) = .char c :: decodeFrom none rest := by
  have valid : c.toNat < 0xD800 ∨ 0xDFFF < c.toNat ∧ c.toNat < 0x110000 := c.valid
  have back : Char.ofNat c.toNat = c := Char.ofNat_toNat c
  rw [encodeChar]
  generalize c.toNat = n at valid back
  subst back
  dsimp only
  split
  · next h =>
    rw [List.cons_append, List.nil_append, decodeFrom, begin_of_one h]
  · split
    · next h0 h =>
      simp only [List.cons_append, List.nil_append]
      rw [decodeFrom, begin_of_two ⟨n / 64, by omega⟩ (by simp only; omega)]
      dsimp only
      rw [decodeFrom_tail _ _ _ (by omega) (by simp) (by simp; omega)]
      dsimp only
      rw [show n / 64 * 64 + n % 64 = n by omega]
    · split
      · next h0 h1 h =>
        simp only [List.cons_append, List.nil_append]
        rw [decodeFrom, begin_of_three ⟨n / 0x1000, by omega⟩]
        dsimp only
        rw [decodeFrom_tail _ _ _ (by omega)
          (by dsimp only; split <;> simp; omega) (by dsimp only; split <;> simp <;> omega)]
        dsimp only
        rw [decodeFrom_tail _ _ _ (by omega) (by simp) (by simp; omega)]
        dsimp only
        rw [show (n / 0x1000 * 64 + n / 64 % 64) * 64 + n % 64 = n by omega]
      · next h0 h1 h2 =>
        simp only [List.cons_append, List.nil_append]
        rw [decodeFrom, begin_of_four ⟨n / 0x40000, by omega⟩]
        dsimp only
        rw [decodeFrom_tail _ _ _ (by omega)
          (by dsimp only; split <;> simp; omega) (by dsimp only; split <;> simp <;> omega)]
        dsimp only
        rw [decodeFrom_tail _ _ _ (by omega) (by simp) (by simp; omega)]
        dsimp only
        rw [decodeFrom_tail _ _ _ (by omega) (by simp) (by simp; omega)]
        dsimp only
        rw [show ((n / 0x40000 * 64 + n / 0x1000 % 64) * 64 + n / 64 % 64) * 64 + n % 64 = n
          by omega]

/-- Decoding gives back the characters which were encoded. -/
theorem decode_encode (t : Text) : decode (encode t) = t.map .char := by
  induction t with
  | nil => rfl
  | cons c t ih =>
    rw [decode, encode, List.flatMap_cons, decodeFrom_encodeChar, List.map_cons, ← ih]
    rfl

/-- An encoded text is well-formed throughout, and is the text which was encoded. -/
theorem decode?_encode (t : Text) : decode? (encode t) = some t := by
  rw [decode?, decode_encode]
  induction t with
  | nil => rfl
  | cons c t ih => simp [List.mapM_cons, Piece.toChar?, ih]

end Compdb.Utf8
