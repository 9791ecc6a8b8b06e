import ModelMapper.Document.Basic
import ModelMapper.Error
import ModelMapper.Time.Reading
import ModelMapper.Whole

/-! # Reading values

Values as other data: as documents of a store, and as plain data of a wanted type.

* `Value.toDoc`, `Value.ofDoc` — the form a value has in a document, and back.
* `Value.asInt`, `Value.asFloat`, … — a value as data of one type, with the few widenings
  that backends need: truth values and integers stand for each other, and an integer or a
  text for the float or the timestamp it names.
* `FieldType.check` — whether a value can be read as a declared type.
-/

namespace ModelMapper

/-! ## Timestamps -/

def Timestamp.read (text : String) : Result Timestamp :=
  match Timestamp.ofText? text with
  | some t => .ok t
  | none => .error (.query "invalid timestamp")

/-! ## Documents -/

namespace Doc

/-- A whole number as a signed 64-bit integer, if it is one. -/
def asInt64? : Doc → Option Int64
  | int n => if fitsInt64 n then some (Int64.ofInt n) else none
  | _ => none

/-- A whole number from 0 to 255. -/
def asByte? : Doc → Option UInt8
  | int n => if 0 ≤ n ∧ n ≤ 255 then some (UInt8.ofNat n.toNat) else none
  | _ => none

end Doc

namespace Value

/-- The form of a value in a document: bytes are a list of numbers, timestamps are text, a
    float that is not finite is null. -/
def toDoc : Value → Doc
  | null => .null
  | bool b => .bool b
  | int i => .int i.toInt
  | float x => if x.isFinite then .float x else .null
  | text s => .text s
  | bytes b => .list (b.map fun (byte : UInt8) => Doc.int byte.toNat)
  | timestamp t => .text t.toText

/-- A document value cannot be read as the declared type. -/
def misfit (ty : FieldType) (doc : Doc) : Error :=
  .query ("cannot read " ++ ty.name ++ " from document value " ++ doc.display)

/-- The value a document holds for a field of the given type. Null is null for every type. -/
def ofDoc (ty : FieldType) (doc : Doc) : Result Value :=
  let fits {α : Type} (wrap : α → Value) (found : Option α) : Result Value :=
    match found with
    | some a => .ok (wrap a)
    | none => .error (misfit ty doc)
  match ty, doc with
  | _, .null => .ok null
  | .bool, .bool b => .ok (bool b)
  | .bool, .int n => .ok (bool (((Doc.int n).asInt64?.getD 0) != 0))
  | .bool, .float _ => .ok (bool false)
  | .int, .int n => fits int (Doc.int n).asInt64?
  | .float, .int n => .ok (float (Binary64.ofInt n))
  | .float, .float x => .ok (float x)
  | .text, .text s => .ok (text s)
  | .timestamp, .text s => (Timestamp.read s).map timestamp
  | .bytes, .list items => fits bytes (items.mapM Doc.asByte?)
  | _, _ => .error (misfit ty doc)

/-! ## Wanted types -/

def unexpected (wanted : String) (v : Value) : Error :=
  .query ("expected " ++ wanted ++ ", found " ++ v.typeName)

def asInt : Value → Result Int64
  | int i => .ok i
  | bool b => .ok (if b then 1 else 0)
  | v => .error (unexpected "int" v)

def asInt32 (v : Value) : Result Int32 := do
  let i ← v.asInt
  if -2147483648 ≤ i.toInt ∧ i.toInt < 2147483648 then pure (Int32.ofInt i.toInt)
  else throw (.query (toString i.toInt ++ " does not fit in i32"))

def asFloat : Value → Result Binary64
  | float x => .ok x
  | int i => .ok (Binary64.ofInt i.toInt)
  | v => .error (unexpected "float" v)

def asBool : Value → Result Bool
  | bool b => .ok b
  | int i => .ok (i != 0)
  | v => .error (unexpected "bool" v)

def asText : Value → Result String
  | text s => .ok s
  | v => .error (unexpected "text" v)

def asBytes : Value → Result (List UInt8)
  | bytes b => .ok b
  | v => .error (unexpected "bytes" v)

def asTimestamp : Value → Result Timestamp
  | timestamp t => .ok t
  | text s => Timestamp.read s
  | v => .error (unexpected "timestamp" v)

/-- Null as no data, anything else as the reader says. -/
def asOption {α : Type} (read : Value → Result α) : Value → Result (Option α)
  | null => .ok none
  | v => (read v).map some

end Value

/-- Whether a value can be read as data of the declared type. -/
def FieldType.check (ty : FieldType) (v : Value) : Result Unit :=
  match ty with
  | .int => v.asInt.map fun _ => ()
  | .float => v.asFloat.map fun _ => ()
  | .text => v.asText.map fun _ => ()
  | .bool => v.asBool.map fun _ => ()
  | .bytes => v.asBytes.map fun _ => ()
  | .timestamp => v.asTimestamp.map fun _ => ()

end ModelMapper
