import ModelMapper.Record

/-! # Schemas

How models are stored.

* `Field` — a field with its type, column and marks, built from a list of `FieldMark`.
* `Schema` — a model: its name, which is also its table, and its fields in order.
* `Catalog` — models with a common life cycle; a name is registered once.
-/

namespace ModelMapper

/-- The field of another model that a field refers to. -/
structure Reference where
  model : String
  field : String
deriving DecidableEq, Repr, Inhabited

def Reference.display (r : Reference) : String := "Reference(" ++ r.model ++ "." ++ r.field ++ ")"

/-- What can be said about a field. -/
inductive FieldMark where
  /-- Part of the primary key. -/
  | key
  /-- Generated by the backend when it is left null. -/
  | auto
  /-- May be null. -/
  | optional
  | storeAs (column : String)
  | references (target : Reference)
  /-- A mark of no meaning here. -/
  | unknown (text : String)
deriving DecidableEq, Repr, Inhabited

structure Field where
  name : String
  type : FieldType
  column : String
  isKey : Bool
  isAuto : Bool
  isOptional : Bool
  reference : Option Reference
deriving DecidableEq, Repr, Inhabited

namespace Field

/-- A field without marks; its column has its own name. -/
def plain (name : String) (type : FieldType) : Field :=
  ⟨name, type, name, false, false, false, none⟩

def mark (f : Field) : FieldMark → Field
  | .key => { f with isKey := true }
  | .auto => { f with isAuto := true }
  | .optional => { f with isOptional := true }
  | .storeAs column => { f with column := column }
  | .references target => { f with reference := some target }
  | .unknown _ => f

/-- A field with marks, applied in order. -/
def ofMarks (name : String) (type : FieldType) (marks : List FieldMark) : Field :=
  marks.foldl mark (plain name type)

/-- Whether the backend refuses null for the field. -/
def isRequired (f : Field) : Bool := !f.isOptional && !f.isAuto

/-- Whether a record leaves the field to the backend. -/
def isGenerated (f : Field) (r : Record) : Bool := f.isAuto && (r.value f.name).isNull

end Field

structure Schema where
  name : String
  fields : List Field
deriving DecidableEq, Repr, Inhabited

def Reference.pointsTo (r : Reference) (s : Schema) : Bool := r.model == s.name

namespace Schema

/-- The table, or collection of documents, that holds the model. -/
def table (s : Schema) : String := s.name

def field? (s : Schema) (name : String) : Option Field := s.fields.find? fun f => f.name == name

def fieldByColumn? (s : Schema) (column : String) : Option Field :=
  s.fields.find? fun f => f.column == column

def keyFields (s : Schema) : List Field := s.fields.filter Field.isKey

def referenceTo? (s target : Schema) : Option Field :=
  s.fields.find? fun f => f.reference.any fun r => r.pointsTo target

def fieldRef (s : Schema) (name : String) : FieldRef := ⟨s.name, name⟩

end Schema

/-- Models that are created and dropped together. -/
structure Catalog where
  name : String
  models : List Schema
deriving Inhabited

namespace Catalog

def named (name : String) : Catalog := ⟨name, []⟩

def unnamed : Catalog := named "default"

def get? (c : Catalog) (name : String) : Option Schema :=
  c.models.find? fun s => s.name == name

def contains (c : Catalog) (name : String) : Bool := (c.get? name).isSome

/-- Add a model, unless one of its name is there already. -/
def register (c : Catalog) (s : Schema) : Catalog :=
  if c.contains s.name then c else { c with models := c.models ++ [s] }

def ofList (name : String) (models : List Schema) : Catalog :=
  models.foldl register (named name)

def size (c : Catalog) : Nat := c.models.length

def isEmpty (c : Catalog) : Bool := c.models.isEmpty

end Catalog

end ModelMapper
