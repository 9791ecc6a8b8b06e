import ModelMapper.Binary64
import ModelMapper.Whole

/-! # Shortest decimals

The decimal with the fewest digits that reads back as a given binary number.

* `Decimal` — a whole number of digits times a power of ten.
* `Decimal.shortest` — for a count of digits from one to seventeen, the two neighbours of
  the value on that decimal grid are tried; the first grid with a hit wins, the nearer
  neighbour on it, and an exact tie goes to the even digit.
-/

namespace ModelMapper

/-- The number `digits * 10 ^ exponent`. -/
structure Decimal where
  digits : Nat
  exponent : Int
deriving DecidableEq, Repr, Inhabited

namespace Decimal

def digitText (d : Decimal) : String := toString d.digits

/-- The number of digits before the point in positional notation; zero or less when the
    point stands before the first digit. -/
def pointAt (d : Decimal) : Int := d.digitText.length + d.exponent

/-- Trailing zeros move into the exponent, at most `fuel` of them. -/
def trim : Nat → Decimal → Decimal
  | 0, d => d
  | fuel + 1, d =>
    if d.digits % 10 = 0 ∧ d.digits ≠ 0 then trim fuel ⟨d.digits / 10, d.exponent + 1⟩
    else d

/-- A positive ratio with the ends of the interval of reals that round to it, all over the
    same denominator. -/
structure Interval where
  low : Nat
  value : Nat
  high : Nat
  denominator : Nat
  /-- Whether the ends themselves round to the value. -/
  closed : Bool

/-- The reals that round to the magnitude of `x`. The gap below a power of two is half as
    wide as the gap above it. -/
def intervalOf (x : Binary64) : Interval :=
  -- A quarter of the smallest step is the unit, so that all three are whole.
  let m := x.significand
  let unit := pow2 x.shift
  let below := if m = pow2 52 ∧ 1 < x.exponentField then 1 else 2
  { low := (4 * m - below) * unit
    value := 4 * m * unit
    high := (4 * m + 2) * unit
    denominator := pow2 1076
    closed := m % 2 == 0 }

def Interval.holds (i : Interval) (d : Decimal) : Bool :=
  let scaled := if 0 ≤ d.exponent then d.digits * pow10 d.exponent.toNat * i.denominator
    else d.digits * i.denominator
  let unit := if 0 ≤ d.exponent then 1 else pow10 (-d.exponent).toNat
  if i.closed then decide (i.low * unit ≤ scaled) && decide (scaled ≤ i.high * unit)
  else decide (i.low * unit < scaled) && decide (scaled < i.high * unit)

/-- The hit among the two neighbours of the value on the grid of step `10 ^ exponent`. -/
def Interval.onGrid (i : Interval) (exponent : Int) : Option Decimal :=
  let num := if 0 ≤ exponent then i.value else i.value * pow10 (-exponent).toNat
  let den := if 0 ≤ exponent then i.denominator * pow10 exponent.toNat else i.denominator
  let floor : Decimal := ⟨num / den, exponent⟩
  let ceil : Decimal := ⟨num / den + 1, exponent⟩
  let twice := 2 * (num % den)
  -- The nearer neighbour is tried first; of two that are as near, the even one.
  let nearest :=
    if twice < den then [floor, ceil]
    else if den < twice then [ceil, floor]
    else if floor.digits % 2 = 0 then [floor, ceil] else [ceil, floor]
  nearest.find? i.holds

/-- The decimal exponent of the leading digit of `num / den`, or one more. -/
def leadingPlace (num den : Nat) : Int :=
  -- The factor is a little less than the decimal logarithm of 2.
  let guess := ((num.log2 : Int) - den.log2) * 1233 / 4096
  let reaches (e : Int) : Bool :=
    if 0 ≤ e then decide (den * pow10 e.toNat ≤ num)
    else decide (den ≤ num * pow10 (-e).toNat)
  if reaches (guess + 1) then guess + 1 else if reaches guess then guess else guess - 1

/-- The shortest decimal that reads back as the magnitude of `x`, without trailing zeros. -/
def shortest (x : Binary64) : Decimal :=
  if x.magnitude = 0 then ⟨0, 0⟩
  else
    let i := intervalOf x
    let top := leadingPlace i.value i.denominator
    -- Seventeen digits tell all doubles apart, so that one of the grids has a hit.
    let hit := (List.range 17).findSome? fun (n : Nat) => i.onGrid (top - n)
    trim 400 (hit.getD ⟨0, 0⟩)

/-- The value of `x` rounded to `count` significant digits, a half going away from zero. -/
def significantDigits (count : Nat) (x : Binary64) : Decimal :=
  if x.magnitude = 0 then ⟨0, 0⟩
  else
    let num := x.magnitude
    let den := pow2 1074
    let exponent := leadingPlace num den - (count - 1 : Nat)
    -- Half a unit is added before the rest is dropped.
    let digits :=
      if 0 ≤ exponent then
        (2 * num + den * pow10 exponent.toNat) / (2 * den * pow10 exponent.toNat)
      else (2 * num * pow10 (-exponent).toNat + den) / (2 * den)
    trim 400 ⟨digits, exponent⟩

end Decimal

end ModelMapper
