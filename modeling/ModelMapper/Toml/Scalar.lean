import ModelMapper.Binary64
import ModelMapper.Time.Calendar
import ModelMapper.Toml.Basic
import ModelMapper.Toml.Scanner
import ModelMapper.Whole

/-! # Scalars of configuration documents

* `TomlScan.text` — the four kinds of strings: basic and literal, on one line or on several.
* `TomlScan.number`, `TomlScan.time` — integers, floats, dates and times.
* `TomlScan.gap`, `TomlScan.comment`, `TomlScan.lineEnd` — what stands between.
-/

namespace ModelMapper.TomlScan

open Scan

/-! ## Between values -/

def isGap (c : Char) : Bool := c == ' ' || c == '\t'

/-- Blanks on one line. -/
def gap : Scan Unit := do let _ ← takeWhile isGap

def newline : Scan Unit := orElse (char '\n') (word "\r\n")

/-- A character that may stand in a comment. -/
def isCommentChar (c : Char) : Bool := c == '\t' || (decide (32 ≤ c.toNat) && c.toNat != 127)

def comment : Scan Unit := do
  char '#'
  let _ ← takeWhile isCommentChar

/-- The rest of a line after its last word. -/
def lineEnd : Scan Unit := do
  gap
  let _ ← maybe comment
  orElse newline finish

/-- Blanks, comments and line breaks. -/
def space : Scan Unit := do
  let _ ← many (firstOf [do let _ ← satisfying isGap, newline, do comment; newline])

/-! ## Strings -/

def isBasicChar (c : Char) : Bool := isCommentChar c && c != '"' && c != '\\'

def isLiteralChar (c : Char) : Bool := isCommentChar c && c != '\''

def hexDigit : Scan Nat := do
  let c ← any
  let n := c.toNat
  if c.isDigit then pure (n - 48)
  else if 'a' ≤ c ∧ c ≤ 'f' then pure (n - 87)
  else if 'A' ≤ c ∧ c ≤ 'F' then pure (n - 55)
  else fail

/-- A fixed number of hexadecimal digits, after a number. -/
def hexNumberAfter (start : Nat) : Nat → Scan Nat
  | 0 => pure start
  | n + 1 => do hexNumberAfter (start * 16 + (← hexDigit)) n

def hexNumber (width : Nat) : Scan Nat := hexNumberAfter 0 width

/-- The character of a code point that is one. -/
def codePoint (width : Nat) : Scan Char := do
  let n ← hexNumber width
  if n.isValidChar then pure (Char.ofNat n) else fail

/-- What stands for a character after a backslash. -/
def escape : Scan Char := do
  char '\\'
  match ← any with
  | 'b' => pure '\x08'
  | 't' => pure '\t'
  | 'n' => pure '\n'
  | 'f' => pure '\x0c'
  | 'r' => pure '\r'
  | '"' => pure '"'
  | '\\' => pure '\\'
  | 'u' => codePoint 4
  | 'U' => codePoint 8
  | _ => fail

def basicText : Scan (List Char) := do
  char '"'
  let found ← many (orElse (satisfying isBasicChar) escape)
  char '"'
  pure found

def literalText : Scan (List Char) := do
  char '\''
  let found ← takeWhile isLiteralChar
  char '\''
  pure found

/-- A line break in a text of several lines, whatever its form. -/
def lineBreak : Scan (List Char) := do
  newline
  pure ['\n']

/-- A backslash before a line break takes the blanks that follow with it. -/
def joined : Scan (List Char) := do
  char '\\'
  gap
  newline
  let _ ← many (orElse (do let _ ← satisfying isGap) newline)
  pure []

/-- One or two quotes inside a text of several lines, not followed by another. -/
def innerQuotes (quote : Char) : Scan (List Char) := do
  let found ← takeWhile (· == quote)
  if found.length ≤ 2 ∧ !found.isEmpty then pure found else fail

/-- The end of a text of several lines. Up to two quotes before the closing ones belong to
    the text. -/
def closing (quote : Char) : Scan (List Char) := do
  let found ← takeWhile (· == quote)
  if 3 ≤ found.length ∧ found.length ≤ 5 then pure (found.drop 3) else fail

/-- A text between triple quotes, of the given parts. -/
def longText (quote : Char) (part : Scan (List Char)) : Scan (List Char) := do
  char quote
  char quote
  char quote
  let _ ← maybe newline
  let found ← many (orElse part (innerQuotes quote))
  let last ← closing quote
  pure (found.flatten ++ last)

def longBasicText : Scan (List Char) :=
  longText '"' (firstOf [do pure [← satisfying isBasicChar], lineBreak,
    do pure [← escape], joined])

def longLiteralText : Scan (List Char) :=
  longText '\'' (orElse (do pure [← satisfying isLiteralChar]) lineBreak)

/-- A string of any kind. Three quotes always begin a text of several lines. -/
def text : Scan String := do
  let found ← match (← rest).take 3 with
    | ['"', '"', '"'] => longBasicText
    | ['\'', '\'', '\''] => longLiteralText
    | '"' :: _ => basicText
    | _ => literalText
  pure (String.ofList found)

/-! ## Numbers -/

/-- Digits of a base, with single underscores between them. -/
def digitRun (isDigitOf : Char → Bool) : Scan (List Char) := do
  let first ← satisfying isDigitOf
  let others ← many (orElse (satisfying isDigitOf) (do
    char '_'
    satisfying isDigitOf))
  pure (first :: others)

/-- A decimal integer without its sign: no zero stands in front. -/
def decimalDigits : Scan (List Char) := do
  match ← peek? with
  | some '0' => do
    char '0'
    pure ['0']
  | _ => digitRun Char.isDigit

def sign : Scan Bool := do
  match ← maybe (satisfying fun c => c == '+' || c == '-') with
  | some '-' => pure true
  | _ => pure false

def numberOf (base : Nat) (ds : List Char) : Nat :=
  ds.foldl (fun n c =>
    let d := if c.isDigit then c.toNat - 48 else c.toLower.toNat - 87
    n * base + d) 0

/-- An integer that has a 64-bit form. -/
def bounded (n : Int) : Scan TomlValue :=
  if fitsInt64 n then pure (.int n) else fail

def isHexDigit (c : Char) : Bool :=
  c.isDigit || (decide ('a' ≤ c) && decide (c ≤ 'f')) ||
    (decide ('A' ≤ c) && decide (c ≤ 'F'))

/-- An integer with a mark of its base. -/
def based (mark : String) (base : Nat) (isDigitOf : Char → Bool) : Scan TomlValue := do
  word mark
  bounded (numberOf base (← digitRun isDigitOf))

def integer : Scan TomlValue := do
  let negative ← sign
  let n := numberOf 10 (← decimalDigits)
  bounded (if negative then -(n : Int) else n)

def exponent : Scan Unit := do
  let _ ← satisfying fun c => c == 'e' || c == 'E'
  let _ ← sign
  let _ ← digitRun Char.isDigit

def decimalPart : Scan Unit := do
  char '.'
  let _ ← digitRun Char.isDigit
  let _ ← maybe exponent

/-- A positive number in digits lies above every double. Only a number of 309 places before its
    point has to be computed for that. -/
def isAboveDoubles (written : List Char) : Bool :=
  let inMantissa (c : Char) : Bool := c != 'e' && c != 'E'
  let mantissa := written.takeWhile inMantissa
  let power := (written.dropWhile inMantissa).drop 1
  let raised := numberOf 10 (power.filter Char.isDigit)
  let found := mantissa.filter Char.isDigit
  let decimals := (mantissa.dropWhile (· != '.')).filter Char.isDigit
  let exponent : Int :=
    (if power.head? == some '-' then -(raised : Int) else raised) - decimals.length
  let significant := found.dropWhile (· == '0')
  let point := significant.length + exponent
  !significant.isEmpty && written.head? != some '-' && decide (309 ≤ point) &&
    (decide (309 < point) || (Binary64.ofDecimal false (numberOf 10 found) exponent).isInfinite)

/-- A float in digits that rounds to a finite double, or a name of one that has no digits. A
    negative float has no bound. -/
def float : Scan TomlValue := do
  let written ← taken (do
    let _ ← sign
    firstOf [do
      let _ ← decimalDigits
      orElse exponent decimalPart, word "inf", word "nan"])
  if isAboveDoubles written then fail
  else pure (.float (String.ofList written))

def number : Scan TomlValue :=
  firstOf [float, based "0x" 16 isHexDigit,
    based "0o" 8 (fun c => decide ('0' ≤ c) && decide (c ≤ '7')),
    based "0b" 2 (fun c => c == '0' || c == '1'), integer]

/-! ## Dates and times -/

def between (low high n : Nat) : Scan Unit := if low ≤ n ∧ n ≤ high then pure () else fail

/-- A day of the calendar. -/
def date : Scan Unit := do
  let year ← digits 4
  char '-'
  let month ← digits 2
  between 1 12 month
  char '-'
  let day ← digits 2
  between 1 (Date.daysInMonth year month) day

/-- A time of day; a minute may have a leap second. -/
def timeOfDay : Scan Unit := do
  between 0 23 (← digits 2)
  char ':'
  between 0 59 (← digits 2)
  char ':'
  between 0 60 (← digits 2)
  let _ ← maybe (do
    char '.'
    let _ ← satisfying Char.isDigit
    takeWhile Char.isDigit)

def offset : Scan Unit := do
  match ← any with
  | 'Z' | 'z' => pure ()
  | '+' | '-' => do
    between 0 23 (← digits 2)
    char ':'
    between 0 59 (← digits 2)
  | _ => fail

/-- A date, a time of day, or both with or without an offset. -/
def time : Scan TomlValue := do
  let written ← taken (orElse (do
    date
    let _ ← maybe (do
      let _ ← satisfying fun c => c == 'T' || c == 't' || c == ' '
      timeOfDay
      maybe offset)) timeOfDay)
  pure (.time (String.ofList written))

def boolean : Scan TomlValue :=
  orElse (do
    word "true"
    pure (.bool true)) (do
    word "false"
    pure (.bool false))

end ModelMapper.TomlScan
