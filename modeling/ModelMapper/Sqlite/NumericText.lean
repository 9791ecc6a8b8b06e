import ModelMapper.Decimal.Layout

/-! # Numbers as text in the engine

* `NumericText.read?` — the number a text writes: a sign, digits, a point and an exponent,
  with blanks around it.
* `NumericText.ofReal` — a float as text: fifteen significant digits, always with a point.
-/

namespace ModelMapper.Sqlite.NumericText

inductive Number where
  | whole (n : Int)
  | real (x : Binary64)
deriving DecidableEq, Repr

/-- The blanks the engine skips around a number. -/
def isSpace (c : Char) : Bool := c == ' ' || (decide (9 ≤ c.toNat) && decide (c.toNat ≤ 13))

def digitsValue (digits : List Char) : Nat :=
  digits.foldl (fun n c => n * 10 + (c.toNat - 48)) 0

def sign : List Char → Bool × List Char
  | '-' :: rest => (true, rest)
  | '+' :: rest => (false, rest)
  | rest => (false, rest)

def digits (text : List Char) : List Char × List Char :=
  (text.takeWhile Char.isDigit, text.dropWhile Char.isDigit)

/-- The exponent in front of the rest; `none` where an `e` has no digits after it. -/
def exponent : List Char → Option (Option Int × List Char)
  | c :: rest =>
    if c = 'e' ∨ c = 'E' then
      let (neg, after) := sign rest
      let (ds, final) := digits after
      if ds.isEmpty then none
      else
        let n : Int := digitsValue ds
        some (some (if neg then -n else n), final)
    else some (none, c :: rest)
  | [] => some (none, [])

/-- Exponents beyond this one give zero or infinity whatever the digits. -/
def clampExponent (digitCount : Nat) (e : Int) : Int :=
  max (-(400 + digitCount : Nat)) (min (400 + digitCount : Nat) e)

/-- The number a text writes. -/
def read? (text : List Char) : Option Number :=
  let (neg, unsigned) := sign (text.dropWhile isSpace)
  let (whole, afterWhole) := digits unsigned
  let (point, fraction, afterFraction) := match afterWhole with
    | '.' :: rest => (true, (digits rest).1, (digits rest).2)
    | rest => (false, [], rest)
  if whole.isEmpty && fraction.isEmpty then none
  else
    match exponent afterFraction with
    | none => none
    | some (e, rest) =>
      if rest.all isSpace then
        let value := digitsValue (whole ++ fraction)
        if point || e.isSome then
          let count := whole.length + fraction.length
          some (.real (Binary64.ofDecimal neg value
            (clampExponent count (e.getD 0 - fraction.length))))
        else some (.whole (if neg then -(value : Int) else value))
      else none

/-- A float as text. Zero has no sign. -/
def ofReal (x : Binary64) : String :=
  if x.isInfinite then (if x.negative then "-Inf" else "Inf")
  else
    let sign := if x.negative && x.magnitude != 0 then "-" else ""
    let d := Decimal.significantDigits 15 x
    let point := if d.digits = 0 then 1 else d.pointAt
    let body :=
      if -4 < point ∧ point ≤ 15 then NumberLayout.positional true d.digitText point
      else
        let mantissa := match d.digitText.toList with
          | [] => "0.0"
          | [c] => String.ofList [c, '.', '0']
          | c :: rest => String.ofList (c :: '.' :: rest)
        let e := point - 1
        let width := toString e.natAbs
        mantissa ++ (if e < 0 then "e-" else "e+") ++
          (if width.length < 2 then "0" else "") ++ width
    sign ++ body

end ModelMapper.Sqlite.NumericText
