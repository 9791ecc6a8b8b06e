import ModelMapper.Whole

/-! # Binary floating-point numbers

Numbers of the 64-bit binary interchange format, kept as their bit pattern so that
every zero, subnormal and not-a-number is told apart.

* `Binary64` — a bit pattern, with its sign, significand and exponent.
* `Binary64.scaled` — the exact value, as an integer multiple of `2 ^ (-1074)`.
* `BinaryFormat.round` — the pattern nearest to a ratio, ties to the even significand.
* `Binary64.ofInt`, `Binary64.toBinary32` — conversions, all through `round`.
-/

namespace ModelMapper

/-- A 64-bit binary floating-point number, by its bit pattern. -/
structure Binary64 where
  bits : UInt64
deriving DecidableEq, Repr, Inhabited

/-! ## Formats -/

/-- An interchange format: the number of significand bits, the leading one included,
    and the number of exponent bits. -/
structure BinaryFormat where
  precision : Nat
  exponentBits : Nat
deriving DecidableEq, Repr

namespace BinaryFormat

def double : BinaryFormat := ⟨53, 11⟩

def single : BinaryFormat := ⟨24, 8⟩

/-- The exponent of the last significand place of the smallest numbers. -/
def minExponent (f : BinaryFormat) : Int :=
  3 - (pow2 (f.exponentBits - 1) : Nat) - f.precision

def infinity (f : BinaryFormat) : Nat :=
  (pow2 f.exponentBits - 1) * pow2 (f.precision - 1)

/-- The quotient rounded to the nearest whole number, a half going to the even one. -/
def roundDiv (num den : Nat) : Nat :=
  let floor := num / den
  let twice := 2 * (num % den)
  if twice < den then floor
  else if den < twice then floor + 1
  else floor + floor % 2

/-- The exponent of the last place in which `num / den` is rounded. -/
def placeOf (f : BinaryFormat) (num den : Nat) : Int :=
  let guess := max ((num.log2 : Int) - den.log2 - f.precision) f.minExponent
  let tooWide :=
    if 0 ≤ guess then decide (den * pow2 (guess.toNat + f.precision) ≤ num)
    else decide (den * pow2 f.precision ≤ num * pow2 (-guess).toNat)
  if tooWide then guess + 1 else guess

/-- The pattern of the non-negative number nearest to `num / den`. A carry out of the
    significand raises the exponent by the sum alone, and overflow gives infinity. -/
def round (f : BinaryFormat) (num den : Nat) : Nat :=
  if num = 0 then 0
  else
    let place := f.placeOf num den
    let significand :=
      if 0 ≤ place then roundDiv num (den * pow2 place.toNat)
      else roundDiv (num * pow2 (-place).toNat) den
    min ((place - f.minExponent).toNat * pow2 (f.precision - 1) + significand) f.infinity

end BinaryFormat

namespace Binary64

/-! ## Parts of a pattern -/

def ofNatBits (n : Nat) : Binary64 := ⟨UInt64.ofNat n⟩

def zero : Binary64 := ⟨0⟩

def negative (x : Binary64) : Bool := decide (pow2 63 ≤ x.bits.toNat)

def exponentField (x : Binary64) : Nat := x.bits.toNat / pow2 52 % pow2 11

def fraction (x : Binary64) : Nat := x.bits.toNat % pow2 52

def isNaN (x : Binary64) : Bool := x.exponentField == 2047 && x.fraction != 0

def isInfinite (x : Binary64) : Bool := x.exponentField == 2047 && x.fraction == 0

def isFinite (x : Binary64) : Bool := x.exponentField != 2047

/-- The whole significand, its leading one included where the format has one. -/
def significand (x : Binary64) : Nat :=
  if x.exponentField = 0 then x.fraction else x.fraction + pow2 52

/-- How many places above `2 ^ (-1074)` the last place of the significand stands. -/
def shift (x : Binary64) : Nat := x.exponentField - 1

/-- The magnitude as a multiple of `2 ^ (-1074)`; infinity comes out above every number. -/
def magnitude (x : Binary64) : Nat := x.significand * pow2 x.shift

/-- The exact value as a multiple of `2 ^ (-1074)`. -/
def scaled (x : Binary64) : Int :=
  if x.negative then -(x.magnitude : Int) else x.magnitude

/-! ## Comparing -/

/-- The order of the numbers themselves: both zeros are equal, a not-a-number compares
    with nothing. -/
def compare? (x y : Binary64) : Option Ordering :=
  if x.isNaN || y.isNaN then none else some (compare x.scaled y.scaled)

def equals (x y : Binary64) : Bool := x.compare? y == some .eq

def toInt? (x : Binary64) : Option Int :=
  if x.isFinite && x.scaled % pow2 1074 == 0 then some (x.scaled / pow2 1074) else none

/-! ## Conversions -/

def withSign (neg : Bool) (pattern : Nat) : Binary64 :=
  ofNatBits (if neg then pow2 63 + pattern else pattern)

/-- The number nearest to `± num / den`. -/
def ofRatio (neg : Bool) (num den : Nat) : Binary64 :=
  withSign neg (BinaryFormat.double.round num den)

def ofInt (n : Int) : Binary64 := ofRatio (decide (n < 0)) n.natAbs 1

/-- The number nearest to `± digits * 10 ^ exponent`. -/
def ofDecimal (neg : Bool) (digits : Nat) (exponent : Int) : Binary64 :=
  if 0 ≤ exponent then ofRatio neg (digits * pow10 exponent.toNat) 1
  else ofRatio neg digits (pow10 (-exponent).toNat)

/-- The 32-bit pattern nearest to a number; a not-a-number stays one, made quiet, with the
    leading bits of its fraction. -/
def toBinary32 (x : Binary64) : Nat :=
  let sign := if x.negative then pow2 31 else 0
  if x.isNaN then sign + 255 * pow2 23 + (x.fraction / pow2 29 ||| pow2 22)
  else if x.isInfinite then sign + 255 * pow2 23
  else sign + BinaryFormat.single.round x.magnitude (pow2 1074)

/-- The number with the value of a 32-bit pattern, which is always exact. -/
def ofBinary32 (pattern : Nat) : Binary64 :=
  let neg := decide (pow2 31 ≤ pattern)
  let exponent := pattern / pow2 23 % pow2 8
  let fraction := pattern % pow2 23
  if exponent = 255 then
    if fraction = 0 then withSign neg (2047 * pow2 52)
    else withSign neg (2047 * pow2 52 + (fraction * pow2 29 ||| pow2 51))
  else
    let significand := if exponent = 0 then fraction else fraction + pow2 23
    ofRatio neg (significand * pow2 (exponent - 1)) (pow2 149)

end Binary64

end ModelMapper
