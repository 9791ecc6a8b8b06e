import ModelMapper.Memory.Backend

/-! # What the sessions of a cluster see

A journal keeps no stores, only lists of writes: those that were published, in the order in
which they were, and for a session with an open transaction those it started from and its own,
scope by scope.  A search is answered on the store that the visible writes lead to from the
empty one.  The journal says what isolation is, without private copies and savepoints.

* `Draft` — the writes that a session with an open transaction sees.
* `Journal` — the published writes and the drafts.
* `Journal.backend` — its operations, those of a cluster.
-/

namespace ModelMapper.Memory

/-! ## Journals -/

/-- The writes of a session with an open transaction. -/
structure Draft where
  /-- What was published at the outermost begin. -/
  base : List Change
  /-- The writes of the innermost scope, oldest first. -/
  current : List Change
  /-- The writes of the scopes around it, the nearest scope first. -/
  outer : List (List Change)
deriving Inhabited

namespace Draft

/-- The writes of scopes in the order in which they were made. -/
def inOrder (scopes : List (List Change)) : List Change := scopes.reverse.flatten

/-- The session's own writes that no rollback has undone. -/
def writes (d : Draft) : List Change := inOrder (d.current :: d.outer)

/-- The writes a search of the session sees. -/
def visible (d : Draft) : List Change := d.base ++ d.writes

def depth (d : Draft) : Nat := d.outer.length + 1

end Draft

/-- The published writes, the numbers given out, and the draft of each session in a
    transaction. -/
structure Journal where
  published : List Change
  sequences : List (String × Int64)
  drafts : List (Option Draft)
deriving Inhabited

/-- A cluster that is this store with one session. -/
def Cluster.alone (store : Store) : Cluster := ⟨store, [], [none]⟩

namespace Journal

def start : Journal := ⟨[], [], [none]⟩

/-- The store that writes lead to. -/
def replay (changes : List Change) : Store :=
  match Change.applyAll .empty changes with
  | .ok store => store
  | .error _ => .empty

def draft (j : Journal) (id : Nat) : Option Draft := (j.drafts[id]?).join

def setDraft (j : Journal) (id : Nat) (d : Option Draft) : Journal :=
  { j with drafts := j.drafts.set id d }

/-- The writes a session sees: its draft, or what is published. -/
def seen (j : Journal) (id : Nat) : List Change :=
  match j.draft id with
  | some d => d.visible
  | none => j.published

def view (j : Journal) (id : Nat) : Store := replay (j.seen id)

def depth (j : Journal) (id : Nat) : Nat := (j.draft id).elim 0 Draft.depth

/-- One more write: it goes to the session's draft, or is published at once. -/
def record (j : Journal) (id : Nat) (change : Change) : Journal :=
  match j.draft id with
  | some d => j.setDraft id (some { d with current := d.current ++ [change] })
  | none => { j with published := j.published ++ [change] }

/-- A write is recorded if it succeeds on what the session sees. -/
def write {α : Type} (j : Journal) (id : Nat) (f : Store → Result (α × Store))
    (change : α → Change) : Result α × Journal :=
  match f (j.view id) with
  | .ok (a, _) => (.ok a, j.record id (change a))
  | .error e => (.error e, j)

/-! ## Operations -/

def fetch (j : Journal) (id : Nat) (q : Query) : Result (List Record) :=
  (Cluster.alone (j.view id)).fetch 0 q

def count (j : Journal) (id : Nat) (q : Query) : Result Nat :=
  (Cluster.alone (j.view id)).count 0 q

def sequence (j : Journal) (table : String) : Int64 :=
  (Entries.get? table j.sequences).getD 0

def add (j : Journal) (id : Nat) (schema : Schema) (records : List Record) :
    Result (List Record) × Journal :=
  match records.mapM schema.encode with
  | .error e => (.error e, j)
  | .ok documents =>
    match j.write id (fun store => store.insert schema documents (j.sequence schema.table))
        (fun (stored, _) => .insert schema stored) with
    | (.error e, after) => (.error e, after)
    | (.ok (stored, last), after) =>
      (stored.mapM schema.decode,
        { after with sequences := Entries.put schema.table last after.sequences })

def update (j : Journal) (id : Nat) (q : Query) (values : Record) : Result Nat × Journal :=
  let prepared : Result (Doc × List (String × Doc)) := do
    let filter ← q.toFilter
    pure (filter, ← Cluster.changes q values)
  match prepared with
  | .error e => (.error e, j)
  | .ok (filter, assigned) =>
    j.write id (fun store => store.update q.model.table filter assigned)
      (fun _ => .update q.model.table filter assigned)

def delete (j : Journal) (id : Nat) (q : Query) : Result Nat × Journal :=
  match q.toFilter with
  | .error e => (.error e, j)
  | .ok filter =>
    j.write id (fun store => store.delete q.model.table filter)
      (fun _ => .delete q.model.table filter)

def create (j : Journal) (id : Nat) (catalog : Catalog) : Result Unit × Journal :=
  j.write id (fun store => .ok ((), store.create (Cluster.tables catalog)))
    (fun _ => .create (Cluster.tables catalog))

def drop (j : Journal) (id : Nat) (catalog : Catalog) : Result Unit × Journal :=
  j.write id (fun store => .ok ((), store.drop (Cluster.tables catalog)))
    (fun _ => .drop (Cluster.tables catalog))

/-- The outermost scope starts from what is published, an inner one without writes of its
    own. -/
def begin (j : Journal) (id : Nat) : Journal :=
  j.setDraft id (some (match j.draft id with
    | none => ⟨j.published, [], []⟩
    | some d => { d with current := [], outer := d.current :: d.outer }))

/-- Hand the writes of the innermost scope to the one around it.  Those of the outermost are
    published, all of them or none. -/
def commit (j : Journal) (id : Nat) : Result Unit × Journal :=
  match j.draft id with
  | none => (.error noTransaction, j)
  | some ⟨base, current, around :: outer⟩ =>
    (.ok (), j.setDraft id (some ⟨base, around ++ current, outer⟩))
  | some d =>
    let ended := j.setDraft id none
    match Change.applyAll .empty (j.published ++ d.writes) with
    | .ok _ => (.ok (), { ended with published := j.published ++ d.writes })
    | .error e => (.error (commitConflict e), ended)

/-- The writes of the innermost scope are forgotten. -/
def rollback (j : Journal) (id : Nat) : Result Unit × Journal :=
  match j.draft id with
  | none => (.error noTransaction, j)
  | some ⟨base, _, around :: outer⟩ => (.ok (), j.setDraft id (some ⟨base, around, outer⟩))
  | some ⟨_, _, []⟩ => (.ok (), j.setDraft id none)

def openSession (j : Journal) : Nat × Journal :=
  (j.drafts.length, { j with drafts := j.drafts ++ [none] })

def close (j : Journal) (id : Nat) : Journal := j.setDraft id none

/-- The journal as a backend, which reports nothing. -/
def backend : Backend Journal where
  name := "memory"
  add id schema records := Call.step fun j => j.add id schema records
  fetch id q := Call.read fun j => j.fetch id q
  count id q := Call.read fun j => j.count id q
  update id q values := Call.step fun j => j.update id q values
  delete id q := Call.step fun j => j.delete id q
  begin id := Call.modifyState fun j => j.begin id
  commit id := Call.step fun j => j.commit id
  rollback id := Call.step fun j => j.rollback id
  depth id j := j.depth id
  create id catalog := Call.step fun j => j.create id catalog
  drop id catalog := Call.step fun j => j.drop id catalog
  openSession _ := Call.step fun j => (.ok j.openSession.1, j.openSession.2)
  ping _ := pure ()
  close id := Call.modifyState fun j => j.close id

end Journal

end ModelMapper.Memory
