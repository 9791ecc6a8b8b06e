import ModelMapper.Decimal.Layout
import ModelMapper.Time.Timestamp

/-! # Values

The scalars that every backend stores.

* `Value` — null, truth values, 64-bit integers, floats, text, bytes and timestamps.
* `Value.display` — how a value is shown inside messages.
* `FieldType` — the declared types, one for each kind of value but null.
-/

namespace ModelMapper

/-- A scalar stored in, or read from, a backend. -/
inductive Value where
  | null
  | bool (b : Bool)
  | int (i : Int64)
  | float (x : Binary64)
  | text (s : String)
  | bytes (b : List UInt8)
  | timestamp (t : Timestamp)
deriving DecidableEq, Inhabited

inductive FieldType where
  | int
  | float
  | text
  | bool
  | bytes
  | timestamp
deriving DecidableEq, Repr, Inhabited

namespace FieldType

def name : FieldType → String
  | .int => "int"
  | .float => "float"
  | .text => "text"
  | .bool => "bool"
  | .bytes => "bytes"
  | .timestamp => "timestamp"

def all : List FieldType := [.int, .float, .text, .bool, .bytes, .timestamp]

def ofName? (name : String) : Option FieldType := all.find? fun ty => ty.name == name

end FieldType

namespace Value

def isNull : Value → Bool
  | null => true
  | _ => false

/-- The declared type a value belongs to; null belongs to none. -/
def type? : Value → Option FieldType
  | null => none
  | bool _ => some .bool
  | int _ => some .int
  | float _ => some .float
  | text _ => some .text
  | bytes _ => some .bytes
  | timestamp _ => some .timestamp

def typeName (v : Value) : String :=
  match v.type? with
  | none => "null"
  | some ty => ty.name

def display : Value → String
  | null => "NULL"
  | bool b => if b then "true" else "false"
  | int i => toString i.toInt
  | float x => NumberLayout.plain.write x
  | text s => s
  | bytes b => "[" ++ toString b.length ++ " bytes]"
  | timestamp t => t.toText

/-- An absent value is null. -/
def ofOption {α : Type} (wrap : α → Value) : Option α → Value
  | none => null
  | some a => wrap a

/-- An integer of any narrower width. -/
def ofInt (n : Int) : Value := int (Int64.ofInt n)

/-- A number of the 32-bit binary format. -/
def ofBinary32 (pattern : Nat) : Value := float (Binary64.ofBinary32 pattern)

end Value

end ModelMapper
