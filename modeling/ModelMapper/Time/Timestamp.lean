import ModelMapper.Time.Calendar

/-! # Timestamps

Moments of universal time and their internet date-time text.

* `Timestamp` — seconds since 1970 with the nanoseconds of the second.
* `Timestamp.toText` — `2024-03-01T12:30:00.500+00:00`: a fraction of 0, 3, 6 or 9 digits,
  the fewest that are exact, and years outside 0–9999 with a sign.
-/

namespace ModelMapper

/-- A moment: Unix seconds and nanoseconds. A leap second belongs to the second before it,
    as a nanosecond count of one billion or more. -/
structure Timestamp where
  secs : Int
  nanos : Nat
deriving DecidableEq, Repr, Inhabited

namespace Timestamp

def nanosPerSecond : Nat := 1000000000

/-- Decimal digits, filled with zeros on the left up to a width. -/
def padded (width n : Nat) : List Char :=
  let digits := Nat.toDigits 10 n
  List.replicate (width - digits.length) '0' ++ digits

/-- Four digits from 0 to 9999, else a sign and at least four digits. -/
def yearText (year : Int) : List Char :=
  if 0 ≤ year ∧ year ≤ 9999 then padded 4 year.toNat
  else (if year < 0 then '-' else '+') :: padded 4 year.natAbs

/-- The fraction of a second with its point, by the fewest groups of three digits. -/
def fractionText (nanos : Nat) : List Char :=
  if nanos = 0 then []
  else if nanos % 1000000 = 0 then '.' :: padded 3 (nanos / 1000000)
  else if nanos % 1000 = 0 then '.' :: padded 6 (nanos / 1000)
  else '.' :: padded 9 nanos

def days (t : Timestamp) : Int := t.secs / 86400

def secondOfDay (t : Timestamp) : Nat := (t.secs % 86400).toNat

def date (t : Timestamp) : Date := Date.ofDays t.days

/-- The second as it is shown: one more within a leap second. -/
def shownSecond (t : Timestamp) : Nat :=
  t.secondOfDay % 60 + t.nanos / nanosPerSecond

/-- The date and the time of day. -/
def civilChars (t : Timestamp) : List Char :=
  yearText t.date.year ++ '-' :: padded 2 t.date.month ++ '-' :: padded 2 t.date.day ++
    'T' :: padded 2 (t.secondOfDay / 3600) ++ ':' :: padded 2 (t.secondOfDay / 60 % 60) ++
    ':' :: padded 2 t.shownSecond ++ fractionText (t.nanos % nanosPerSecond)

def toChars (t : Timestamp) : List Char := t.civilChars ++ ['+', '0', '0', ':', '0', '0']

def toText (t : Timestamp) : String := String.ofList t.toChars

/-- The text of debug output, with a letter for universal time. -/
def debugText (t : Timestamp) : String := String.ofList (t.civilChars ++ ['Z'])

/-- Order in time; a leap second comes after the second it belongs to. -/
def compare (a b : Timestamp) : Ordering :=
  (Ord.compare a.secs b.secs).then (Ord.compare a.nanos b.nanos)

end Timestamp

end ModelMapper
