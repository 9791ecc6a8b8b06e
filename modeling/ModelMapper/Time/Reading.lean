import ModelMapper.Text.Blank
import ModelMapper.Time.Timestamp
import ModelMapper.Whole

/-! # Reading timestamps

Three forms of text are tried in turn.

* `internet?` — the strict date-time with fixed digit counts and an offset.
* `spaced?` — date and time with white space between them, one-digit fields and signed
  years, with or without an offset. Without one the time is universal time.
* `Timestamp.ofText?` — the first form that accepts the whole text.
-/

namespace ModelMapper

namespace Timestamp

/-- A reader consumes the front of a text or refuses it. -/
abbrev Reader := StateT (List Char) Option

namespace Reader

def refuse {α : Type} : Reader α := fun _ => none

def next : Reader Char
  | [] => none
  | c :: rest => some (c, rest)

/-- Skip white space, if there is any. -/
def blanks : Reader Unit := fun text => some ((), trimBlankStart text)

def char (expected : Char) : Reader Unit := do
  if (← next) = expected then pure () else refuse

/-- The value of a row of decimal digits. -/
def digitsValue (digits : List Char) : Nat :=
  digits.foldl (fun n c => n * 10 + (c.toNat - 48)) 0

/-- From `least` to `most` decimal digits, as many as there are. -/
def number (least : Nat) (most : Option Nat) : Reader Nat := fun text =>
  let run := text.takeWhile Char.isDigit
  let digits := match most with
    | some n => run.take n
    | none => run
  if digits.length < least then none
  else some (digitsValue digits, text.drop digits.length)

def between (low high : Nat) (read : Reader Nat) : Reader Nat := do
  let n ← read
  if low ≤ n ∧ n ≤ high then pure n else refuse

/-- A point and at least one digit, as nanoseconds: digits after the ninth are dropped. -/
def fraction : Reader Nat := fun text =>
  match text with
  | '.' :: rest =>
    let run := rest.takeWhile Char.isDigit
    -- Nanoseconds are the finest: what follows the ninth digit is dropped.
    let digits := run.take 9
    if digits.isEmpty then none
    else some (digitsValue digits * pow10 (9 - digits.length), rest.drop run.length)
  | _ => some (0, text)

/-- Plus, hyphen or the minus character. -/
def offsetSign : Reader Int := do
  match ← next with
  | '+' => pure 1
  | '-' => pure (-1)
  | '\u2212' => pure (-1)
  | _ => refuse

/-- Hours and minutes of an offset, in seconds; `separator` stands between them. -/
def offset (separator : Reader Unit) : Reader Int := do
  let sign ← offsetSign
  let hours ← number 2 (some 2)
  separator
  let minutes ← between 0 59 (number 2 (some 2))
  pure (sign * (hours * 3600 + minutes * 60))

end Reader

open Reader

/-- Fields of a date and a time of day, as they were read. -/
structure Fields where
  date : Date
  hour : Nat
  minute : Nat
  second : Nat
  nanos : Nat
deriving DecidableEq, Repr

/-- The moment of fields that lie `offset` seconds ahead of universal time. Second 60 is
    the leap second of the 59th. -/
def Fields.moment? (f : Fields) (offset : Int) : Option Timestamp :=
  let leap := f.second = 60
  let second := if leap then 59 else f.second
  let nanos := if leap then nanosPerSecond + f.nanos else f.nanos
  let secs := f.date.toDays * 86400 + (f.hour * 3600 + f.minute * 60 + second : Nat) - offset
  let t : Timestamp := ⟨secs, nanos⟩
  if f.date.isValid && decide (-86400 < offset) && decide (offset < 86400) &&
      decide (Date.minYear ≤ t.date.year) && decide (t.date.year ≤ Date.maxYear) then some t
  else none

/-- The time of day, each field of up to two digits read by `field`. -/
def clock (field : Reader Nat) : Reader (Nat × Nat × Nat × Nat) := do
  let hour ← between 0 23 field
  char ':'
  let minute ← between 0 59 field
  char ':'
  let second ← between 0 60 field
  let nanos ← fraction
  pure (hour, minute, second, nanos)

/-- `T`, `t` or a space. -/
def internetSeparator : Reader Unit := do
  match ← next with
  | 'T' | 't' | ' ' => pure ()
  | _ => refuse

/-- `Z`, `z` or an offset of less than a day. -/
def internetOffset : Reader Int := fun text =>
  match text with
  | 'Z' :: rest | 'z' :: rest => some (0, rest)
  | _ => (do
      let seconds ← offset (char ':')
      if seconds.natAbs < 86400 then pure seconds else refuse : Reader Int) text

/-- The strict form: every field has its full width. -/
def internetFields : Reader (Fields × Int) := do
  let two := number 2 (some 2)
  let year ← number 4 (some 4)
  char '-'
  let month ← between 1 12 two
  char '-'
  let day ← between 1 31 two
  internetSeparator
  let (hour, minute, second, nanos) ← clock two
  let seconds ← internetOffset
  pure (⟨⟨year, month, day⟩, hour, minute, second, nanos⟩, seconds)

/-- A year of up to four digits, or with a sign of any number of digits. -/
def spacedYear : Reader Int := fun text =>
  match trimBlankStart text with
  | '-' :: rest => (number 1 none rest).map fun (n, after) => (-(n : Int), after)
  | '+' :: rest => (number 1 none rest).map fun (n, after) => ((n : Int), after)
  | trimmed => (number 1 (some 4) trimmed).map fun (n, after) => ((n : Int), after)

/-- One or two digits, with any white space before them. -/
def spacedField : Reader Nat := do
  blanks
  number 1 (some 2)

/-- The loose form, up to the fraction of the second. -/
def spacedFields : Reader Fields := do
  let year ← spacedYear
  char '-'
  let month ← between 1 12 spacedField
  char '-'
  let day ← between 1 31 spacedField
  blanks
  let (hour, minute, second, nanos) ← clock spacedField
  pure ⟨⟨year, month, day⟩, hour, minute, second, nanos⟩

/-- Colons and white space between the hours and the minutes of an offset. -/
def offsetGap : Reader Unit := fun text =>
  some ((), text.dropWhile fun c => c == ':' || isBlank c)

def spacedOffset : Reader Int := do
  blanks
  offset offsetGap

/-- The result of a reader that has to consume the whole text. -/
def Reader.whole {α : Type} (read : Reader α) (text : List Char) : Option α :=
  match read text with
  | some (a, []) => some a
  | _ => none

def internet? (text : List Char) : Option Timestamp := do
  let (fields, seconds) ← internetFields.whole text
  fields.moment? seconds

def spacedWithOffset? (text : List Char) : Option Timestamp := do
  let (fields, seconds) ← Reader.whole (do pure (← spacedFields, ← spacedOffset)) text
  fields.moment? seconds

def spaced? (text : List Char) : Option Timestamp := do
  let fields ← spacedFields.whole text
  fields.moment? 0

/-- The moment a text names, by the first form that accepts it. -/
def ofText? (text : String) : Option Timestamp :=
  let chars := text.toList
  (internet? chars).or ((spacedWithOffset? chars).or (spaced? chars))

end Timestamp

end ModelMapper
