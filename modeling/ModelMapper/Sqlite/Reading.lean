import ModelMapper.Sqlite.Cell
import ModelMapper.Schema

/-! # Reading rows

* `Schema.readRow` — the record of a row: the cells in the order of the fields, each of a
  storage class its field can be read from. Null is null for every field.
-/

namespace ModelMapper

namespace Sqlite

/-- How the fields of a type are read: the wanted data, and the storage class it has. -/
def wantedData : FieldType → String × String
  | .int | .bool => ("i64", "INTEGER")
  | .float => ("f64", "REAL")
  | .text | .timestamp => ("alloc::string::String", "TEXT")
  | .bytes => ("alloc::vec::Vec<u8>", "BLOB")

/-- A cell whose storage class does not fit its field. -/
def misread (s : Schema) (f : Field) (place : Nat) (c : Cell) : Error :=
  let (data, class_) := wantedData f.type
  .query ("failed to read " ++ s.name ++ "." ++ f.name ++
    ": error occurred while decoding column " ++ toString place ++
    ": mismatched types; Rust type `core::option::Option<" ++ data ++ ">` (as SQL type `" ++
    class_ ++ "`) is not compatible with SQL type `" ++ c.className ++ "`")

def readCell (s : Schema) (f : Field) (place : Nat) (c : Cell) : Result Value :=
  match f.type, c with
  | _, .null => .ok .null
  | .int, .integer i => .ok (.int i)
  | .bool, .integer i => .ok (.bool (i != 0))
  | .float, .real x => .ok (.float x)
  | .text, .text t => .ok (.text t)
  | .timestamp, .text t => (Timestamp.read t).map .timestamp
  | .bytes, .blob b => .ok (.bytes b)
  | .bytes, .text t => .ok (.bytes t.toUTF8.toList)
  | _, c => .error (misread s f place c)

end Sqlite

def Schema.readRow (s : Schema) (cells : List Sqlite.Cell) : Result Record :=
  (s.fields.zip cells).zipIdx.foldlM
    (fun r ((f, c), place) => (Sqlite.readCell s f place c).map fun v => r.set f.name v)
    Record.empty

end ModelMapper
