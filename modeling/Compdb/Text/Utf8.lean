/-
# Compdb.Text.Utf8 — bytes and characters

Bytes are decoded into pieces: a piece is a character, or a part of the bytes which is not
well-formed. A part which is not well-formed is as long as the longest beginning of a
character that it holds, and no shorter than one byte. Nothing is lost: the bytes of the
pieces are the input.
-/
import Compdb.Text.Basic

namespace Compdb.Utf8

set_option autoImplicit false

/-- A part of decoded bytes. -/
inductive Piece where
  | char (c : Char)
  | illFormed (bytes : List UInt8)
  deriving DecidableEq, Repr

/-- What the bytes of a character which has begun require of the next byte. -/
structure Partial where
  /-- The bytes so far, the last one first. -/
  bytes : List UInt8
  /-- The bits of the character so far. -/
  bits : Nat
  /-- How many bytes are missing after the next one. -/
  missing : Nat
  low : UInt8
  high : UInt8
  deriving DecidableEq, Repr

/-- What one byte means where a character can begin. The ranges of the second byte leave
out long forms, surrogates and numbers which are too large. -/
def begin (b : UInt8) : Piece ⊕ Partial :=
  if b < 0x80 then .inl (.char (Char.ofNat b.toNat))
  else if b < 0xC2 then .inl (.illFormed [b])
  else if b < 0xE0 then .inr ⟨[b], b.toNat % 32, 0, 0x80, 0xBF⟩
  else if b == 0xE0 then .inr ⟨[b], 0, 1, 0xA0, 0xBF⟩
  else if b == 0xED then .inr ⟨[b], 13, 1, 0x80, 0x9F⟩
  else if b < 0xF0 then .inr ⟨[b], b.toNat % 16, 1, 0x80, 0xBF⟩
  else if b == 0xF0 then .inr ⟨[b], 0, 2, 0x90, 0xBF⟩
  else if b < 0xF4 then .inr ⟨[b], b.toNat % 8, 2, 0x80, 0xBF⟩
  else if b == 0xF4 then .inr ⟨[b], 4, 2, 0x80, 0x8F⟩
  else .inl (.illFormed [b])

/-- Decodes bytes, within a character when one has begun. -/
def decodeFrom : Option Partial → List UInt8 → List Piece
  | none, [] => []
  | some p, [] => [.illFormed p.bytes.reverse]
  | none, b :: rest =>
      match begin b with
      | .inl piece => piece :: decodeFrom none rest
      | .inr p => decodeFrom (some p) rest
  | some p, b :: rest =>
      if p.low ≤ b && b ≤ p.high then
        let bits := p.bits * 64 + b.toNat % 64
        match p.missing with
        | 0 => .char (Char.ofNat bits) :: decodeFrom none rest
        | n + 1 => decodeFrom (some ⟨b :: p.bytes, bits, n, 0x80, 0xBF⟩) rest
      else
        match begin b with
        | .inl piece => .illFormed p.bytes.reverse :: piece :: decodeFrom none rest
        | .inr q => .illFormed p.bytes.reverse :: decodeFrom (some q) rest

def decode (bytes : List UInt8) : List Piece :=
  decodeFrom none bytes

def Piece.toChar? : Piece → Option Char
  | .char c => some c
  | .illFormed _ => none

/-- The text of bytes which are well-formed throughout. -/
def decode? (bytes : List UInt8) : Option Text :=
  (decode bytes).mapM Piece.toChar?

/-- The text of some bytes, with a replacement character for each part which is not
well-formed. -/
def decodeLossy (bytes : List UInt8) : Text :=
  (decode bytes).map fun piece => piece.toChar?.getD '\uFFFD'

def encodeChar (c : Char) : List UInt8 :=
  let n := c.toNat
  let tail (bits : Nat) : UInt8 := (0x80 + bits % 64).toUInt8
  if n < 0x80 then [n.toUInt8]
  else if n < 0x800 then [(0xC0 + n / 64).toUInt8, tail n]
  else if n < 0x10000 then [(0xE0 + n / 0x1000).toUInt8, tail (n / 64), tail n]
  else [(0xF0 + n / 0x40000).toUInt8, tail (n / 0x1000), tail (n / 64), tail n]

def encode (t : Text) : List UInt8 :=
  t.flatMap encodeChar

def Piece.bytes : Piece → List UInt8
  | .char c => encodeChar c
  | .illFormed bytes => bytes

end Compdb.Utf8
