import ModelMapper.Models.Blog

/-! # Further models

* `Item`, `Product` — rows with an optional field, and with a truth value.
* `Sample` — one field of every type, one of them in a column of another name.
* `TypedModel` — a model with what is shown of its instances.
-/

namespace ModelMapper

/-! ## Items -/

structure Item where
  id : Option Int64
  name : String
  position : Option Int64
deriving Inhabited

namespace Item

def schema : Schema :=
  ⟨"Item", [keyField, .ofMarks "name" .text [], .ofMarks "position" .int [.optional]]⟩

def toRecord (i : Item) : Record :=
  .ofList [("id", optionalInt i.id), ("name", .text i.name),
    ("position", optionalInt i.position)]

def ofRecord (r : Record) (_ : Loader) : Result Item := do
  pure ⟨← r.read (Value.asOption Value.asInt) "id", ← r.read Value.asText "name",
    ← r.read (Value.asOption Value.asInt) "position"⟩

def model : Model Item := ⟨schema, toRecord, ofRecord⟩

def debugText (i : Item) : String :=
  Debug.structureText "Item"
    [("id", Debug.option Debug.int i.id), ("name", Debug.text i.name),
      ("position", Debug.option Debug.int i.position)]

end Item

/-! ## Products -/

structure Product where
  id : Option Int64
  category : String
  price : Int64
  inStock : Bool
deriving Inhabited

namespace Product

def schema : Schema :=
  ⟨"Product", [keyField, .ofMarks "category" .text [], .ofMarks "price" .int [],
    .ofMarks "in_stock" .bool []]⟩

def toRecord (p : Product) : Record :=
  .ofList [("id", optionalInt p.id), ("category", .text p.category), ("price", .int p.price),
    ("in_stock", .bool p.inStock)]

def ofRecord (r : Record) (_ : Loader) : Result Product := do
  pure ⟨← r.read (Value.asOption Value.asInt) "id", ← r.read Value.asText "category",
    ← r.read Value.asInt "price", ← r.read Value.asBool "in_stock"⟩

def model : Model Product := ⟨schema, toRecord, ofRecord⟩

def debugText (p : Product) : String :=
  Debug.structureText "Product"
    [("id", Debug.option Debug.int p.id), ("category", Debug.text p.category),
      ("price", Debug.int p.price), ("in_stock", Debug.bool p.inStock)]

end Product

/-! ## Samples -/

structure Sample where
  id : Option Int64
  ratio : Binary64
  payload : List UInt8
  takenAt : Timestamp
  active : Bool
  /-- Stored in a column named for its order. -/
  rank : Option String
deriving Inhabited

namespace Sample

def schema : Schema :=
  ⟨"Sample", [keyField, .ofMarks "ratio" .float [], .ofMarks "payload" .bytes [],
    .ofMarks "taken_at" .timestamp [], .ofMarks "active" .bool [],
    .ofMarks "rank" .text [.storeAs "order", .optional]]⟩

def toRecord (s : Sample) : Record :=
  .ofList [("id", optionalInt s.id), ("ratio", .float s.ratio), ("payload", .bytes s.payload),
    ("taken_at", .timestamp s.takenAt), ("active", .bool s.active),
    ("rank", .ofOption .text s.rank)]

def ofRecord (r : Record) (_ : Loader) : Result Sample := do
  pure ⟨← r.read (Value.asOption Value.asInt) "id", ← r.read Value.asFloat "ratio",
    ← r.read Value.asBytes "payload", ← r.read Value.asTimestamp "taken_at",
    ← r.read Value.asBool "active", ← r.read (Value.asOption Value.asText) "rank"⟩

def model : Model Sample := ⟨schema, toRecord, ofRecord⟩

def debugText (s : Sample) : String :=
  Debug.structureText "Sample"
    [("id", Debug.option Debug.int s.id), ("ratio", Debug.float s.ratio),
      ("payload", Debug.bytes s.payload), ("taken_at", Debug.timestamp s.takenAt),
      ("active", Debug.bool s.active), ("rank", Debug.option Debug.text s.rank)]

end Sample

/-! ## All of them -/

/-- A model with what is shown of an instance: its record and its debug text. -/
structure TypedModel where
  schema : Schema
  inspect : Record → Result (Record × String)

namespace TypedModel

/-- A model that is shown as a structure. -/
def of {M : Type} (m : Model M) (debugText : M → String) : TypedModel where
  schema := m.schema
  inspect r := (m.ofRecord r ⟨0⟩).map fun a => (m.toRecord a, debugText a)

def all : List TypedModel :=
  [of User.model User.debugText, of Post.model Post.debugText, of Tag.model Tag.debugText,
    of PostTag.model PostTag.debugText, of Item.model Item.debugText,
    of Product.model Product.debugText, of Sample.model Sample.debugText]

def named? (name : String) : Option TypedModel := all.find? fun m => m.schema.name == name

end TypedModel

end ModelMapper
