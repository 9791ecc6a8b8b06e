import ModelMapper.Document.Matching
import ModelMapper.Schema

/-! # Records as documents

* `Schema.encode` — the document of a record: every field of the model in its column, absent
  ones as null. A field the model lacks is refused.
* `Schema.decode` — the record of a document, each field read as its declared type.
-/

namespace ModelMapper.Schema

/-- The first field of a record that the model lacks. -/
def unknownField? (s : Schema) (r : Record) : Option String :=
  (r.toList.map Prod.fst).find? fun name => (s.field? name).isNone

def encode (s : Schema) (r : Record) : Result Document :=
  match s.unknownField? r with
  | some name => .error (.invalidQuery (.unknownField s.name name))
  | none => .ok (Entries.ofList (s.fields.map fun f => (f.column, (r.value f.name).toDoc)))

def decode (s : Schema) (d : Document) : Result Record :=
  s.fields.foldlM
    (fun r f => (Value.ofDoc f.type (d.column f.column)).map fun v => r.set f.name v)
    Record.empty

end ModelMapper.Schema
