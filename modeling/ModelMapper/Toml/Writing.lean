import ModelMapper.Toml.Basic
import ModelMapper.Whole

/-! # Writing scalars of configuration documents

A string is written in the first of these forms that needs no escapes: basic on one line,
literal on one line, basic on several lines, literal on several lines. If none does it is
written with escapes.

* `TomlText.Shape` — what decides between the forms.
* `TomlText.write` — a string in its form.
* `TomlValue.scalarText?` — a value that is no list and no table.
-/

namespace ModelMapper.TomlText

/-- What is in a text. -/
structure Shape where
  /-- The longest run of single quotes. -/
  singles : Nat
  /-- The longest run of double quotes. -/
  doubles : Nat
  hasBackslash : Bool
  hasNewline : Bool
  /-- A control character other than a tab or a line break. -/
  hasControl : Bool
deriving DecidableEq, Repr, Inhabited

/-- The longest run of a character, given the length of the run before the text. -/
def longestRun (q : Char) : Nat → List Char → Nat
  | run, [] => run
  | run, c :: rest => if c = q then longestRun q (run + 1) rest else max run (longestRun q 0 rest)

def isControl (c : Char) : Bool := decide (c.toNat < 32) || c.toNat == 127

def shapeOf (s : List Char) : Shape where
  singles := longestRun '\'' 0 s
  doubles := longestRun '"' 0 s
  hasBackslash := s.contains '\\'
  hasNewline := s.contains '\n'
  hasControl := s.any fun c => isControl c && c != '\t' && c != '\n'

inductive Form where
  | basic
  | literal
  | longBasic
  | longLiteral
deriving DecidableEq, Repr, Inhabited

def formFor (s : Shape) : Form :=
  let plain := !s.hasControl && !s.hasBackslash
  if plain && s.doubles == 0 && !s.hasNewline then .basic
  else if !s.hasControl && s.singles == 0 && !s.hasNewline then .literal
  else if plain && decide (s.doubles ≤ 2) then .longBasic
  else if !s.hasControl && decide (s.singles ≤ 2) then .longLiteral
  else if s.hasNewline then .longBasic
  else .basic

def hexDigits (n : Nat) : List Char :=
  let ds := (Nat.toDigits 16 n).map Char.toUpper
  List.replicate (4 - ds.length) '0' ++ ds

/-- A character inside a basic string of several lines or of one. -/
def escapeChar (long : Bool) (c : Char) : List Char :=
  match c with
  | '\x08' => ['\\', 'b']
  | '\t' => ['\\', 't']
  | '\n' => if long then ['\n'] else ['\\', 'n']
  | '\x0c' => ['\\', 'f']
  | '\r' => ['\\', 'r']
  | '\\' => ['\\', '\\']
  | c => if isControl c then ['\\', 'u'] ++ hexDigits c.toNat else [c]

/-- A text with escapes. On several lines two double quotes in a row stand for themselves. -/
def escape (long : Bool) : Nat → List Char → List Char
  | _, [] => []
  | run, '"' :: rest =>
    if long && decide (run < 2) then '"' :: escape long (run + 1) rest
    else '\\' :: '"' :: escape long 0 rest
  | _, c :: rest => escapeChar long c ++ escape long 0 rest

/-- A text of several lines begins on a line of its own. -/
def opening (s : Shape) : List Char := if s.hasNewline then ['\n'] else []

def write (text : String) : String :=
  let s := text.toList
  let shape := shapeOf s
  String.ofList (match formFor shape with
    | .basic => '"' :: escape false 0 s ++ ['"']
    | .literal => '\'' :: s ++ ['\'']
    | .longBasic => "\"\"\"".toList ++ opening shape ++ escape true 0 s ++ "\"\"\"".toList
    | .longLiteral => "'''".toList ++ opening shape ++ s ++ "'''".toList)

end ModelMapper.TomlText

/-- A scalar as it is written; an integer must have a 64-bit form. -/
def ModelMapper.TomlValue.scalarText? : ModelMapper.TomlValue → Option String
  | .text s => some (ModelMapper.TomlText.write s)
  | .int n => if ModelMapper.fitsInt64 n then some (toString n) else none
  | .float written | .time written => some written
  | .bool b => some (toString b)
  | .list _ | .table _ => none
