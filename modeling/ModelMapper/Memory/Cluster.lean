import ModelMapper.Memory.Store

/-! # Sessions on a shared store

Sessions read and write one shared store. A session with an open transaction works on a
private copy of it and keeps a list of its writes; the outermost commit applies these writes
to the shared store as it is at that moment, all of them or none.

* `Transaction`, `Session` — the private copy, the writes and the savepoints of a session.
* `Cluster` — the shared store, the last number given out for each table, and the sessions.
  Numbers are never given back.
* `Cluster.add`, `Cluster.fetch`, …, `Cluster.begin`, `Cluster.commit`, `Cluster.rollback` —
  the operations. Each answers with its outcome and the cluster after it.
-/

namespace ModelMapper.Memory

structure Transaction where
  /-- The private copy of the store. -/
  working : Store
  /-- The writes since the outermost begin, oldest first. -/
  log : List Change
  /-- The copy and the length of the list at each open savepoint, innermost first. -/
  savepoints : List (Store × Nat)
deriving Inhabited

abbrev Session := Option Transaction

/-- How many scopes a session has open. -/
def Session.depth : Session → Nat
  | none => 0
  | some t => t.savepoints.length + 1

structure Cluster where
  shared : Store
  sequences : List (String × Int64)
  sessions : List Session
deriving Inhabited

def noTransaction : Error := .transaction "no transaction is active"

/-- An outermost commit could not apply its writes. -/
def commitConflict (e : Error) : Error :=
  e.intoTransaction "commit conflicts with a concurrent write; rolled back"

namespace Cluster

/-- An empty store with one session. -/
def start : Cluster := ⟨.empty, [], [none]⟩

def session (c : Cluster) (id : Nat) : Session := (c.sessions[id]?).join

def setSession (c : Cluster) (id : Nat) (s : Session) : Cluster :=
  { c with sessions := c.sessions.set id s }

def depth (c : Cluster) (id : Nat) : Nat := (c.session id).depth

def openSession (c : Cluster) : Nat × Cluster :=
  (c.sessions.length, { c with sessions := c.sessions ++ [none] })

/-- The store a session sees: its private copy if it has one. -/
def view (c : Cluster) (id : Nat) : Store :=
  match c.session id with
  | some t => t.working
  | none => c.shared

/-- Write to the store a session sees. In a transaction a write that succeeds is kept in the
    list of writes as well. -/
def write {α : Type} (c : Cluster) (id : Nat) (f : Store → Result (α × Store))
    (change : α → Change) : Result α × Cluster :=
  match c.session id with
  | some t =>
    match f t.working with
    | .ok (a, store) =>
      (.ok a, c.setSession id (some { t with working := store, log := t.log ++ [change a] }))
    | .error e => (.error e, c)
  | none =>
    match f c.shared with
    | .ok (a, store) => (.ok a, { c with shared := store })
    | .error e => (.error e, c)

def sequence (c : Cluster) (table : String) : Int64 :=
  (Entries.get? table c.sequences).getD 0

/-! ## Rows -/

/-- Store records. The numbers taken count as given out once the write has succeeded, also
    where the stored documents cannot be read back. -/
def add (c : Cluster) (id : Nat) (schema : Schema) (records : List Record) :
    Result (List Record) × Cluster :=
  match records.mapM schema.encode with
  | .error e => (.error e, c)
  | .ok documents =>
    match c.write id (fun store => store.insert schema documents (c.sequence schema.table))
        (fun (stored, _) => .insert schema stored) with
    | (.error e, after) => (.error e, after)
    | (.ok (stored, last), after) =>
      (stored.mapM schema.decode,
        { after with sequences := Entries.put schema.table last after.sequences })

/-- The records a search finds in the store a session sees. -/
def search (c : Cluster) (id : Nat) (schema : Schema) (f : Find) : Result (List Record) := do
  let documents ← (c.view id).collection f.table
  (← Documents.find f documents).mapM schema.decode

def fetch (c : Cluster) (id : Nat) (q : Query) : Result (List Record) := do
  c.search id q.model (← q.toFind)

def count (c : Cluster) (id : Nat) (q : Query) : Result Nat := do
  let filter ← q.toFilter
  Documents.count filter (← (c.view id).collection q.model.table)

/-- New values by column. -/
def changes (q : Query) (values : Record) : Result (List (String × Doc)) := do
  let found ← values.toList.mapM fun (name, v) =>
    match q.model.field? name with
    | some f => .ok (f.column, v.toDoc)
    | none => .error (.invalidQuery (.unknownField q.model.name name))
  if found.isEmpty then throw (.invalidQuery .noValues) else pure found

def update (c : Cluster) (id : Nat) (q : Query) (values : Record) : Result Nat × Cluster :=
  let prepared : Result (Doc × List (String × Doc)) := do
    let filter ← q.toFilter
    pure (filter, ← changes q values)
  match prepared with
  | .error e => (.error e, c)
  | .ok (filter, assigned) =>
    c.write id (fun store => store.update q.model.table filter assigned)
      (fun _ => .update q.model.table filter assigned)

def delete (c : Cluster) (id : Nat) (q : Query) : Result Nat × Cluster :=
  match q.toFilter with
  | .error e => (.error e, c)
  | .ok filter =>
    c.write id (fun store => store.delete q.model.table filter)
      (fun _ => .delete q.model.table filter)

/-! ## Tables -/

def tables (catalog : Catalog) : List String := catalog.models.map Schema.table

def create (c : Cluster) (id : Nat) (catalog : Catalog) : Result Unit × Cluster :=
  c.write id (fun store => .ok ((), store.create (tables catalog)))
    (fun _ => .create (tables catalog))

def drop (c : Cluster) (id : Nat) (catalog : Catalog) : Result Unit × Cluster :=
  c.write id (fun store => .ok ((), store.drop (tables catalog)))
    (fun _ => .drop (tables catalog))

/-! ## Transactions -/

/-- Open a scope: the outermost one copies the shared store, an inner one is a savepoint. -/
def begin (c : Cluster) (id : Nat) : Cluster :=
  c.setSession id (some (match c.session id with
    | none => ⟨c.shared, [], []⟩
    | some t => { t with savepoints := (t.working, t.log.length) :: t.savepoints }))

/-- Close the innermost scope and keep its writes. The outermost commit ends the transaction
    whether or not its writes apply. -/
def commit (c : Cluster) (id : Nat) : Result Unit × Cluster :=
  match c.session id with
  | none => (.error noTransaction, c)
  | some t =>
    match t.savepoints with
    | _ :: outer => (.ok (), c.setSession id (some { t with savepoints := outer }))
    | [] =>
      let ended := c.setSession id none
      -- Others may have written since: the log runs on the shared store as it is now.
      match Change.applyAll c.shared t.log with
      | .ok merged => (.ok (), { ended with shared := merged })
      | .error e => (.error (commitConflict e), ended)

/-- Close the innermost scope and forget its writes. -/
def rollback (c : Cluster) (id : Nat) : Result Unit × Cluster :=
  match c.session id with
  | none => (.error noTransaction, c)
  | some t =>
    match t.savepoints with
    -- The savepoint knows how long the log was.
    | (store, length) :: outer =>
      (.ok (), c.setSession id (some ⟨store, t.log.take length, outer⟩))
    | [] => (.ok (), c.setSession id none)

/-- A session that goes away takes its open transaction with it. -/
def close (c : Cluster) (id : Nat) : Cluster := c.setSession id none

end Cluster

end ModelMapper.Memory
