import ModelMapper.Sqlite.NumericText
import ModelMapper.Value.Basic
import ModelMapper.Whole

/-! # Cells

What the engine stores, by storage class, and how columns convert and compare it.

* `Cell` — null, integer, real, text or blob; `Cell.ofValue` binds a value.
* `Affinity.store` — the conversion on storing into a column.
* `Affinity.compared` — the conversion of an operand a column is compared with.
* `Cell.compare` — the order of cells: null, then numbers by exact value, then text by code
  points, then blobs by bytes.
-/

namespace ModelMapper.Sqlite

inductive Cell where
  | null
  | integer (i : Int64)
  | real (x : Binary64)
  | text (s : String)
  | blob (b : List UInt8)
deriving DecidableEq, Inhabited

/-- How a column converts what is put into it. -/
inductive Affinity where
  | integer
  | real
  | text
  | blob
deriving DecidableEq, Repr, Inhabited

def Affinity.ofType : FieldType → Affinity
  | .int | .bool => integer
  | .float => real
  | .text | .timestamp => text
  | .bytes => blob

def Affinity.isNumeric : Affinity → Bool
  | integer | real => true
  | _ => false

namespace Cell

/-- A bound parameter. Truth values are numbers, timestamps are text, a not-a-number is
    null. -/
def ofValue : Value → Cell
  | .null => null
  | .bool b => integer (if b then 1 else 0)
  | .int i => integer i
  | .float x => if x.isNaN then null else real x
  | .text s => text s
  | .bytes b => blob b
  | .timestamp t => text t.toText

def isNull : Cell → Bool
  | null => true
  | _ => false

def className : Cell → String
  | null => "NULL"
  | integer _ => "INTEGER"
  | real _ => "REAL"
  | text _ => "TEXT"
  | blob _ => "BLOB"

/-! ## Conversions -/

/-- The integer of a whole float, away from the ends of the range. -/
def wholeReal? (x : Binary64) : Option Int64 :=
  match x.toInt? with
  | some n => if minInt64 < n ∧ n < maxInt64 then some (Int64.ofInt n) else none
  | none => none

/-- A float that becomes an integer where it is one. -/
def ofRealWhole (x : Binary64) : Cell :=
  match wholeReal? x with
  | some n => integer n
  | none => real x

/-- Text that writes a number becomes that number; whole floats become integers. -/
def toNumber (s : String) : Cell :=
  match NumericText.read? s.toList with
  | some (.whole n) =>
    if fitsInt64 n then integer (Int64.ofInt n) else ofRealWhole (Binary64.ofInt n)
  | some (.real x) => ofRealWhole x
  | none => text s

def toText : Cell → Cell
  | integer i => text (toString i.toInt)
  | real x => text (NumericText.ofReal x)
  | c => c

/-- Text becomes a number where it writes one. -/
def numeric : Cell → Cell
  | text s => toNumber s
  | c => c

end Cell

namespace Affinity

open Cell (ofRealWhole)

/-- What a column of this affinity stores for a cell. A stored zero has no sign. -/
def store (a : Affinity) (c : Cell) : Cell :=
  match a with
  | blob => c
  | text => c.toText
  | integer =>
    match c.numeric with
    | .real x => ofRealWhole x
    | c => c
  | real =>
    match c.numeric with
    | .integer i => .real (Binary64.ofInt i.toInt)
    | .real x => .real (if x.magnitude = 0 then Binary64.ofInt 0 else x)
    | c => c

/-- What a bound operand becomes when it is compared with a column of this affinity. -/
def compared (a : Affinity) (c : Cell) : Cell :=
  match a with
  | blob => c
  | text => c.toText
  | integer | real => c.numeric

end Affinity

namespace Cell

/-! ## Order -/

/-- The place of a class in the order of cells. -/
def rank : Cell → Nat
  | null => 0
  | integer _ => 1
  | real _ => 1
  | text _ => 2
  | blob _ => 3

/-- The exact value of a number, as a multiple of `2 ^ (-1074)`. -/
def scaled : Cell → Int
  | integer i => i.toInt * pow2 1074
  | real x => x.scaled
  | _ => 0

def compareBytes : List UInt8 → List UInt8 → Ordering
  | [], [] => .eq
  | [], _ :: _ => .lt
  | _ :: _, [] => .gt
  | a :: as, b :: bs => (Ord.compare a.toNat b.toNat).then (compareBytes as bs)

def compare (a b : Cell) : Ordering :=
  match a, b with
  | integer i, integer j => Ord.compare i.toInt j.toInt
  | text s, text t => Ord.compare s t
  | blob x, blob y => compareBytes x y
  | a, b => (Ord.compare a.rank b.rank).then (Ord.compare a.scaled b.scaled)

/-- The order of two cells as an answer, unknown where one is null. -/
def compare? (a b : Cell) : Option Ordering :=
  if a.isNull || b.isNull then none else some (a.compare b)

end Cell

end ModelMapper.Sqlite
