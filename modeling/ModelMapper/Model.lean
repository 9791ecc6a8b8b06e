import ModelMapper.Schema

/-! # Models

Types whose values are stored as records.

* `Loader` — the session a record was read from, for the relations of the instance.
* `Model` — a type with its schema and both directions to records.
* `Instance`, `Model.ofSchema` — the model that is nothing but its record.
-/

namespace ModelMapper

/-- The session that relations are loaded on. -/
structure Loader where
  session : Nat
deriving DecidableEq, Repr, Inhabited

/-- A type that can be stored. Reading a record may fail. -/
structure Model (M : Type) where
  schema : Schema
  toRecord : M → Record
  ofRecord : Record → Loader → Result M

/-- A record with the loader it was read with. -/
structure Instance where
  record : Record
  loader : Loader
deriving DecidableEq, Inhabited

/-- Whether a field can be read as its type; one that may be absent or is generated may be
    null. -/
def Field.checkIn (f : Field) (r : Record) : Result Unit :=
  let check (v : Value) : Result Unit :=
    if (f.isOptional || f.isAuto) && v.isNull then .ok () else f.type.check v
  r.read check f.name

/-- The model that keeps records unchanged, if every field reads as its type. -/
def Model.ofSchema (s : Schema) : Model Instance where
  schema := s
  toRecord i := i.record
  ofRecord r loader := do
    s.fields.forM fun f => f.checkIn r
    pure ⟨r, loader⟩

end ModelMapper
