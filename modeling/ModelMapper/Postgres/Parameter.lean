import ModelMapper.Value.Reading
import ModelMapper.Whole

/-! # PostgreSQL parameters

Values in the binary format of the types that the server gave to a statement's parameters.

* `ParameterType` — the types, by the server's names.
* `Value.toParameter` — a value as a parameter of a type; a value of another kind is refused.
* `bindAll` — the parameters of a statement.
-/

namespace ModelMapper.Postgres

inductive ParameterType where
  | bool
  | int2
  | int4
  | int8
  | float4
  | float8
  | bytea
  | timestamptz
  | timestamp
  | text
  | varchar
  | bpchar
  | name
  | numeric
  | uuid
  | json
  | date
deriving DecidableEq, Repr, Inhabited

namespace ParameterType

def typeName : ParameterType → String
  | bool => "bool"
  | int2 => "int2"
  | int4 => "int4"
  | int8 => "int8"
  | float4 => "float4"
  | float8 => "float8"
  | bytea => "bytea"
  | timestamptz => "timestamptz"
  | timestamp => "timestamp"
  | text => "text"
  | varchar => "varchar"
  | bpchar => "bpchar"
  | name => "name"
  | numeric => "numeric"
  | uuid => "uuid"
  | json => "json"
  | date => "date"

def all : List ParameterType :=
  [bool, int2, int4, int8, float4, float8, bytea, timestamptz, timestamp, text, varchar, bpchar,
    name, numeric, uuid, json, date]

def ofName? (s : String) : Option ParameterType := all.find? fun ty => ty.typeName == s

/-- Whether text is sent as it is. -/
def isTextual : ParameterType → Bool
  | text | varchar | bpchar | name => true
  | _ => false

/-- Whether the mapper has values of the type; null for any other type is sent as text. -/
def isListed : ParameterType → Bool
  | numeric | uuid | json | date => false
  | _ => true

/-- The width in bytes of the integers of the type. -/
def intWidth? : ParameterType → Option Nat
  | int2 => some 2
  | int4 => some 4
  | int8 => some 8
  | _ => none

end ParameterType

inductive Parameter where
  | null
  | wire (bytes : List UInt8)
  /-- Null as text, for a type that is not textual. -/
  | unencodable
deriving DecidableEq, Repr, Inhabited

/-! ## The binary format -/

/-- The lowest `width` bytes of a number, the highest first. -/
def bigEndian (width n : Nat) : List UInt8 :=
  (List.range width).reverse.map fun i => UInt8.ofNat (n / pow2 (8 * i) % 256)

def intBytes (width : Nat) (n : Int) : List UInt8 := bigEndian width (n % pow2 (8 * width)).toNat

/-- Whether an integer has a two's complement form of a width. -/
def fits (width : Nat) (n : Int) : Bool :=
  decide (-(pow2 (8 * width - 1) : Int) ≤ n) && decide (n < pow2 (8 * width - 1))

/-- The second at which the server's clock starts: 2000-01-01. -/
def epochSeconds : Int := 946684800

/-- A time as microseconds on the server's clock, truncated toward the start. -/
def microseconds (t : Timestamp) : Int :=
  Int.tdiv ((t.secs - epochSeconds) * 1000000000 + t.nanos) 1000

/-! ## Values -/

def mismatch (v : Value) (ty : ParameterType) : Error :=
  .query ("cannot bind " ++ v.typeName ++ " value to a " ++ ty.typeName ++ " parameter")

def tooWide (i : Int64) (ty : ParameterType) : Error :=
  .query (toString i.toInt ++ " does not fit a " ++ ty.typeName ++ " parameter")

def nullParameter (ty : ParameterType) : Parameter :=
  if ty.isListed then .null else .unencodable

def intParameter (i : Int64) (ty : ParameterType) : Result Parameter :=
  match ty.intWidth?, ty with
  | some width, _ =>
    if fits width i.toInt then .ok (.wire (intBytes width i.toInt)) else .error (tooWide i ty)
  | none, .bool => .ok (.wire [if i = 0 then 0 else 1])
  | none, .float8 => .ok (.wire (bigEndian 8 (Binary64.ofInt i.toInt).bits.toNat))
  | none, _ => .error (mismatch (.int i) ty)

def timeParameter (t : Timestamp) : Parameter := .wire (intBytes 8 (microseconds t))

def toParameter (v : Value) (ty : ParameterType) : Result Parameter :=
  match v, ty with
  | .null, ty => .ok (nullParameter ty)
  | .int i, ty => intParameter i ty
  | .bool b, .bool => .ok (.wire [if b then 1 else 0])
  | .float x, .float4 => .ok (.wire (bigEndian 4 x.toBinary32))
  | .float x, .float8 => .ok (.wire (bigEndian 8 x.bits.toNat))
  | .text s, .timestamptz => (Timestamp.read s).map timeParameter
  | .text s, ty =>
    if ty.isTextual then .ok (.wire s.toUTF8.toList) else .error (mismatch (.text s) ty)
  | .bytes b, .bytea => .ok (.wire b)
  | .timestamp t, .timestamptz | .timestamp t, .timestamp => .ok (timeParameter t)
  | v, ty => .error (mismatch v ty)

/-- Every value as a parameter, if there are as many as the statement has. -/
def bindAll (types : List ParameterType) (values : List Value) : Result (List Parameter) :=
  if values.length ≠ types.length then
    .error (.query ("statement expects " ++ toString types.length ++ " parameters, got " ++
      toString values.length))
  else (values.zip types).mapM fun p => toParameter p.1 p.2

/-! ## Conditions reported by the server -/

/-- The origin of a failure by the class of its condition code, its first two characters. -/
def originOf (code : String) : Origin :=
  match String.ofList (code.toList.take 2) with
  | "23" => .constraint
  | "08" => .connection
  | "25" | "40" => .transaction
  | _ => .query

end ModelMapper.Postgres
