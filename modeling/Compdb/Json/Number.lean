/-
# Compdb.Json.Number — the numbers of JSON texts

A number without fraction and exponent is an integer when it fits into 64 bits. Every other
number is binary floating point, read from at most 19 or 20 leading digits and a power
of ten. A number beyond the largest finite value cannot be read.
-/
import Compdb.Text.Basic

namespace Compdb.Json

set_option autoImplicit false

inductive Number where
  | integer (value : Int)
  /-- The bits of a binary64 value. -/
  | float (bits : UInt64)
  deriving DecidableEq, Repr

/-- The parts of a number as it is written. -/
structure NumberText where
  isNegative : Bool
  /-- The digits before the point. -/
  whole : List Nat
  /-- The digits behind the point, when there is one. -/
  fraction : Option (List Nat)
  /-- The exponent: whether it is negative, and its digits. -/
  exponent : Option (Bool × List Nat)
  deriving DecidableEq, Repr

namespace NumberText

/-- The largest significand, and the largest integer. -/
def significandLimit : Nat := 0xFFFFFFFFFFFFFFFF

/-- The smallest integer without its sign. -/
def negativeLimit : Nat := 0x8000000000000000

def exponentLimit : Nat := 0x7FFFFFFF

/-- Appends digits to a number as long as it does not pass the limit; the digits from there on
are left over. -/
def takeDigits (limit : Nat) (value : Nat) : List Nat → Nat × List Nat
  | [] => (value, [])
  | digit :: digits =>
      if value * 10 + digit ≤ limit then takeDigits limit (value * 10 + digit) digits
      else (value, digit :: digits)

/-- The power of ten by which the exponent part scales; nothing stands for a power which
is too large to be counted. -/
def scale (shift : Int) : Option (Bool × List Nat) → Option Int
  | none => some shift
  | some (isNegative, digits) =>
      match takeDigits exponentLimit 0 digits with
      | (value, []) =>
          let total := if isNegative then shift - value else shift + value
          some (max (-exponentLimit - 1) (min exponentLimit total))
      | _ => none

/-- Divides by powers of ten which are themselves floating point numbers. -/
def divideByTen (f : Float) : Nat → Nat → Float
  | 0, _ => f
  | fuel + 1, power =>
      if power ≤ 308 then f / Float.ofScientific 1 false power
      else if f == 0 then f
      else divideByTen (f / Float.ofScientific 1 false 308) fuel (power - 308)

/-- A significand times a power of ten. Nothing stands for a value beyond the largest. -/
def scaled (significand : Nat) (power : Int) : Option Float :=
  let f := significand.toUInt64.toFloat
  match power with
  | .ofNat n =>
      if n ≤ 308 then
        let g := f * Float.ofScientific 1 false n
        if g.isInf then none else some g
      else if f == 0 then some f
      else none
  | .negSucc n => some (divideByTen f (n / 308 + 2) (n + 1))

def signed (isNegative : Bool) (f : Float) : Number :=
  .float (if isNegative then -f else f).toBits

def floatValue (t : NumberText) : Option Number :=
  let (whole, extra) := takeDigits significandLimit 0 t.whole
  let (significand, used) :=
    match t.fraction with
    | none => (whole, 0)
    | some digits =>
        let (value, rest) := takeDigits significandLimit whole digits
        (value, digits.length - rest.length)
  match scale ((extra.length : Int) - used) t.exponent with
  | some power => (scaled significand power).map (signed t.isNegative)
  | none =>
      match t.exponent with
      | some (false, _) => if significand == 0 then some (signed t.isNegative 0) else none
      | _ => some (signed t.isNegative 0)

def value (t : NumberText) : Option Number :=
  match t.fraction, t.exponent, takeDigits significandLimit 0 t.whole with
  | none, none, (n, []) =>
      if !t.isNegative then some (.integer n)
      else if 0 < n && n ≤ negativeLimit then some (.integer (-n))
      else some (signed true n.toUInt64.toFloat)
  | _, _, _ => t.floatValue

end NumberText

end Compdb.Json
