/-
# Compdb.Decimal — the shortest decimal of a binary64 value

A finite value is `mantissa · 2 ^ power`. The reals which are read back as it form an
interval around it, whose ends belong to it when the mantissa is even. The digits shown are
the fewest of which some decimal lies in the interval; of several such decimals the
nearest, and of two equally near ones the even one.
-/
import Compdb.Text.Basic

namespace Compdb.Decimal

set_option autoImplicit false

/-- A decimal: `digits · 10 ^ power`. -/
structure Scaled where
  digits : Nat
  power : Int
  deriving DecidableEq, Repr

/-- The value and its interval as fractions with one denominator. -/
structure Interval where
  low : Nat
  value : Nat
  high : Nat
  denominator : Nat
  /-- Whether the ends belong to the interval. -/
  isClosed : Bool
  deriving DecidableEq, Repr

/-- The fraction takes 52 bits, and the exponent the next 11 ones. -/
def fractionLimit : Nat := 0x10000000000000

def exponentLimit : Nat := 0x800

/-- The interval of the positive value with this mantissa and biased exponent. Below a power of
two the neighbour is only half as far away. -/
def interval (fraction biased : Nat) : Interval :=
  let mantissa := if biased == 0 then fraction else fractionLimit + fraction
  let below := if fraction == 0 && 1 < biased then 1 else 2
  let exponent : Int := (max biased 1 : Nat) - 1077
  let up := Nat.pow 2 exponent.toNat
  ⟨(4 * mantissa - below) * up, 4 * mantissa * up, (4 * mantissa + 2) * up,
    Nat.pow 2 (-exponent).toNat, mantissa % 2 == 0⟩

/-- A fraction over a power of ten, as numerator and denominator. -/
def overPower (numerator denominator : Nat) (power : Int) : Nat × Nat :=
  (numerator * Nat.pow 10 (-power).toNat, denominator * Nat.pow 10 power.toNat)

/-- Whether `candidate · 10 ^ power` lies in the interval. -/
def Interval.holds (i : Interval) (candidate : Nat) (power : Int) : Bool :=
  let (low, scale) := overPower i.low i.denominator power
  let (high, _) := overPower i.high i.denominator power
  let x := candidate * scale
  if i.isClosed then low ≤ x && x ≤ high else low < x && x < high

/-- The best decimal of the interval on the grid of one power of ten. -/
def Interval.onGrid (i : Interval) (power : Int) : Option Scaled :=
  let (value, scale) := overPower i.value i.denominator power
  let down := value / scale
  let twice := 2 * (value % scale)
  match i.holds down power && down != 0, i.holds (down + 1) power with
  | true, true =>
      if twice < scale || (twice == scale && down % 2 == 0) then some ⟨down, power⟩
      else some ⟨down + 1, power⟩
  | true, false => some ⟨down, power⟩
  | false, true => some ⟨down + 1, power⟩
  | false, false => none

/-- The first hit on the grids from one power of ten downwards. -/
def Interval.search (i : Interval) : Nat → Int → Scaled
  | 0, power => ⟨i.value, power⟩
  | fuel + 1, power =>
      match i.onGrid power with
      | some d => d
      | none => i.search fuel (power - 1)

/-- The shortest decimal of a positive value. The search starts above the largest value. -/
def shortest (fraction biased : Nat) : Scaled :=
  (interval fraction biased).search 700 310

/-- The text of a decimal: positional where the point falls within 16 digits and not more than
five places before the first one, otherwise with an exponent. -/
def Scaled.text (d : Scaled) : Text :=
  let digits := Text.ofNat d.digits
  let point := digits.length + d.power
  if 0 ≤ d.power && point ≤ 16 then
    digits ++ List.replicate d.power.toNat '0' ++ ".0".toList
  else if 0 < point && point ≤ 16 then
    digits.take point.toNat ++ '.' :: digits.drop point.toNat
  else if -5 < point && point ≤ 0 then
    "0.".toList ++ List.replicate (-point).toNat '0' ++ digits
  else
    let exponent := 'e' :: (toString (point - 1)).toList
    match digits with
    | [digit] => digit :: exponent
    | digit :: more => digit :: '.' :: more ++ exponent
    | [] => exponent

/-- The text of the finite value with these bits. -/
def ofBits (bits : UInt64) : Text :=
  let n := bits.toNat
  let fraction := n % fractionLimit
  let biased := n / fractionLimit % exponentLimit
  let sign : Text := if n / fractionLimit / exponentLimit == 1 then ['-'] else []
  if fraction == 0 && biased == 0 then sign ++ "0.0".toList
  else sign ++ (shortest fraction biased).text

end Compdb.Decimal
