import ModelMapper.Mapper.Scope
import ModelMapper.Query.Analysis

/-! # Searches

* `Search` — a query at a place; an invalid one is carried along to the operation that runs.
* `Mapper.add` — models stored, and read back as they were stored.
* `Search.first`, `Search.one`, `Search.count`, `Search.update`, `Search.delete` — the
  operations that need no cursor. Each passes the gate of its place before it looks at the
  query.
-/

namespace ModelMapper

/-- A query to be run at a place. -/
structure Search where
  place : Place
  query : Result Query
deriving Inhabited

namespace Search

def ofNodes (place : Place) (schema : Schema) (nodes : List Node) : Search :=
  ⟨place, Query.build schema nodes⟩

def orderBy (s : Search) (field : FieldRef) (direction : Direction) : Search :=
  { s with
    query := do
      let q ← s.query
      if field.model ≠ q.model.name then throw (.crossModelQuery q.model.name field.model)
      pure (q.orderBy field direction) }

def limit (s : Search) (count : Nat) (page : Option Nat) : Search :=
  { s with query := s.query.map fun q => q.limit count page }

variable {σ M : Type}

/-- Pass the gate. The answer is the session and the query. -/
def ready (b : Backend σ) (s : Search) : Call (Mapper σ) (Nat × Query) := do
  let session ← Mapper.enter b s.place
  let q ← Call.ofResult s.query
  pure (session, q)

/-- The first record of the result, as a model. -/
def fetchFirst (b : Backend σ) (m : Model M) (s : Search) : Call (Mapper σ) (Option M) := do
  let (session, q) ← s.ready b
  match ← Mapper.onStore (b.fetch session (q.batch 0 1)) with
  | [] => pure none
  | r :: _ => do pure (some (← Call.ofResult (m.ofRecord r ⟨session⟩)))

def first (b : Backend σ) (m : Model M) (s : Search) : Op (Mapper σ) (Option M) :=
  (s.fetchFirst b m).guarded

/-- The first match; it is an error if there is none. -/
def one (b : Backend σ) (m : Model M) (s : Search) : Op (Mapper σ) M :=
  Call.guarded do
    match ← s.fetchFirst b m with
    | some a => pure a
    | none => Call.fail (.noResult m.schema.name)

def count (b : Backend σ) (s : Search) : Op (Mapper σ) Nat :=
  Call.guarded do
    let (session, q) ← s.ready b
    Mapper.onStore (b.count session q)

/-- Set values on every match. The answer is their number. -/
def update (b : Backend σ) (s : Search) (values : Record) : Op (Mapper σ) Nat :=
  Call.guarded do
    let (session, q) ← s.ready b
    Mapper.onStore (b.update session q values)

def delete (b : Backend σ) (s : Search) : Op (Mapper σ) Nat :=
  Call.guarded do
    let (session, q) ← s.ready b
    Mapper.onStore (b.delete session q)

end Search

/-- Store models. The answer is as they were stored, with their generated keys. -/
def Mapper.add {σ M : Type} (b : Backend σ) (m : Model M) (place : Place) (models : List M) :
    Op (Mapper σ) (List M) :=
  Call.guarded do
    let session ← enter b place
    let stored ← onStore (b.add session m.schema (models.map m.toRecord))
    Call.ofResult (stored.mapM fun r => m.ofRecord r ⟨session⟩)

end ModelMapper
