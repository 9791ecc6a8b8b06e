import ModelMapper.Document.Codec
import ModelMapper.Document.Filter

/-! # Collections of documents

A collection is the list of its documents in insertion order.

* `Documents.insert`, `Documents.insertAll` — one document, or all of a list or none. Null
  auto columns get the next number of a counter, required columns must not be null, and no
  two documents agree in all key columns.
* `Documents.update`, `Documents.delete` — on the documents a filter matches, which is
  decided for all of them before the first is changed.
* `Documents.find` — the matching documents, sorted, from a skip on, up to a limit.
-/

namespace ModelMapper

/-- The documents of a collection, in insertion order. -/
abbrev Documents := List Document

namespace Documents

/-! ## Inserting -/

/-- Work with a counter of generated numbers, which a failure does not take back. -/
abbrev Numbering (α : Type) := ExceptT Error (StateM Int64) α

def nextNumber : Numbering Int64 := do
  let n ← get
  set (n + 1)
  pure (n + 1)

/-- A number that was given raises the counter. -/
def seen (d : Doc) : Numbering Unit :=
  match d.asInt64? with
  | some n => modify fun counter => max counter n
  | none => pure ()

/-- One column of a document about to be stored. -/
def completeField (s : Schema) (d : Document) (f : Field) : Numbering Document := do
  let value := d.column f.column
  let missing := Document.isNull value
  if f.isAuto then
    if missing then
      let n ← nextNumber
      pure (Entries.put f.column (.int n.toInt) d)
    else
      seen value
      pure d
  else if missing && !f.isOptional then
    throw (.constraint (s.name ++ "." ++ f.name ++ " may not be null"))
  else pure d

/-- The document with its generated columns, if no required column is null. -/
def complete (s : Schema) (d : Document) : Numbering Document :=
  s.fields.foldlM (completeField s) d

def sameKey (s : Schema) (a b : Document) : Bool :=
  s.keyFields.all fun f => (a.column f.column).equals (b.column f.column)

def hasKey (s : Schema) (documents : Documents) (d : Document) : Bool :=
  !s.keyFields.isEmpty && documents.any fun existing => sameKey s existing d

/-- The collection with one more document, and the document as it was stored. -/
def insert (s : Schema) (documents : Documents) (d : Document) :
    Numbering (Document × Documents) := do
  let completed ← complete s d
  if hasKey s documents completed then throw (.constraint ("duplicate key in " ++ s.name))
  pure (completed, documents ++ [completed])

/-- The collection with all the documents of a list, and these as they were stored. -/
def insertAll (s : Schema) (documents : Documents) : List Document →
    Numbering (List Document × Documents)
  | [] => pure ([], documents)
  | d :: rest => do
    let (stored, after) ← insert s documents d
    let (others, final) ← insertAll s after rest
    pure (stored :: others, final)

/-! ## Changing -/

/-- For each document whether the filter matches it. -/
def hits (filter : Doc) (documents : Documents) : Result (List Bool) :=
  documents.mapM fun d => d.satisfies filter

def count (filter : Doc) (documents : Documents) : Result Nat :=
  (hits filter documents).map fun found => found.countP id

def assign (changes : List (String × Doc)) (d : Document) : Document :=
  changes.foldl (fun d (column, value) => Entries.put column value d) d

/-- The number of matching documents, and the collection with new values in them. -/
def update (filter : Doc) (changes : List (String × Doc)) (documents : Documents) :
    Result (Nat × Documents) :=
  (hits filter documents).map fun found =>
    (found.countP id,
      (documents.zip found).map fun (d, hit) => if hit then assign changes d else d)

/-- The number of matching documents, and the collection without them. -/
def delete (filter : Doc) (documents : Documents) : Result (Nat × Documents) :=
  (hits filter documents).map fun found =>
    (found.countP id, ((documents.zip found).filter fun (_, hit) => !hit).map Prod.fst)

/-! ## Finding -/

/-- The order of two documents by sort columns; a negative sign reverses a column. -/
def compareBy (sort : List (String × Int)) (a b : Document) : Ordering :=
  match sort with
  | [] => .eq
  | (column, sign) :: rest =>
    let order := (a.column column).sortOrder (b.column column)
    (if sign < 0 then order.swap else order).then (compareBy rest a b)

/-- Put an element behind the last one it does not come before; the list is in reverse. -/
def insertBackwards {α : Type} (before : α → α → Bool) (a : α) : List α → List α
  | [] => [a]
  | b :: rest => if before a b then b :: insertBackwards before a rest else a :: b :: rest

/-- The elements in order; those that compare equal keep their order. -/
def sorted {α : Type} (before : α → α → Bool) (items : List α) : List α :=
  (items.foldl (fun done a => insertBackwards before a done) []).reverse

/-- The documents a filter matches; the first failure to decide is the answer. -/
def matching (filter : Doc) (documents : Documents) : Result (List Document) :=
  documents.filterMapM fun d => (d.satisfies filter).map fun hit => if hit then some d else none

def find (f : Find) (documents : Documents) : Result (List Document) :=
  (matching f.filter documents).map fun found =>
    let ordered := sorted (fun a b => compareBy f.sort a b == .lt) found
    (Window.mk f.skip f.limit).slice ordered

end Documents

end ModelMapper
