import ModelMapper.Mapper.Search
import ModelMapper.Text.Quoted

/-! # Cursors

The matches of a query in a stable order, fetched in batches inside the query's own window.

* `Cursor.openOn`, `Cursor.next?` — the first batch at once, further ones as they are needed.
  A batch that is not full is the last; a failed fetch is answered once and ends the cursor.
* `Cursor.toList`, `Cursor.outcomes` — all that is left.
-/

namespace ModelMapper

/-- The rows fetched at a time. -/
def batchSize : Nat := 100

structure Cursor where
  session : Nat
  query : Query
  buffer : List Record
  nextBatch : Nat
  exhausted : Bool
deriving Inhabited

namespace Cursor

variable {σ M : Type}

def fetched (c : Cursor) (rows : Nat) : Event :=
  ⟨.debug, "database::cursor", "fetched batch",
    [("model", c.query.model.name), ("batch", toString c.nextBatch), ("rows", toString rows)]⟩

def accept (c : Cursor) (records : List Record) : Cursor :=
  { c with
    buffer := c.buffer ++ records
    nextBatch := c.nextBatch + 1
    exhausted := c.exhausted || decide (records.length < batchSize) }

def fill (b : Backend σ) (c : Cursor) : Call σ Cursor := do
  let records ← b.fetch c.session (c.query.batch c.nextBatch batchSize)
  Call.emit (c.fetched records.length)
  pure (c.accept records)

def openOn (b : Backend σ) (session : Nat) (q : Query) : Call σ Cursor :=
  fill b ⟨session, q.stableOrder, [], 0, false⟩

/-- The record in front, as a model, and the cursor without it. -/
def pop (m : Model M) (c : Cursor) : Option (Result M) × Cursor :=
  match c.buffer with
  | [] => (none, c)
  | r :: rest => (some (m.ofRecord r ⟨c.session⟩), { c with buffer := rest })

/-- The next model, or none at the end, with the cursor after it. -/
def next? (b : Backend σ) (m : Model M) (c : Cursor) :
    Call σ (Option (Result M) × Cursor) := do
  if c.buffer.isEmpty && !c.exhausted then
    match ← Call.attempt (c.fill b) with
    | .ok filled => pure (filled.pop m)
    -- A failure is told once and ends the cursor.
    | .error (.error e) => pure (some (.error e), { c with exhausted := true })
    | .error f => throw f
  else pure (c.pop m)

/-- All outcomes up to the end, at most `limit` of them. -/
def outcomesUpTo (b : Backend σ) (m : Model M) : Nat → Cursor → Call σ (List (Result M))
  | 0, _ => pure []
  | limit + 1, c => do
    match ← c.next? b m with
    | (none, _) => pure []
    | (some outcome, rest) => do pure (outcome :: (← outcomesUpTo b m limit rest))

/-- All models up to the first failure, at most `limit` of them. -/
def toListUpTo (b : Backend σ) (m : Model M) : Nat → Cursor → Call σ (List M)
  | 0, _ => pure []
  | limit + 1, c => do
    match ← c.next? b m with
    | (none, _) => pure []
    | (some outcome, rest) => do
      let a ← Call.ofResult outcome
      pure (a :: (← toListUpTo b m limit rest))

/-- All that is left, failures included. No result has more rows than the largest count. -/
def outcomes (b : Backend σ) (m : Model M) (c : Cursor) : Call σ (List (Result M)) :=
  outcomesUpTo b m maxCount c

/-- All models that are left, or the first failure. -/
def toList (b : Backend σ) (m : Model M) (c : Cursor) : Call σ (List M) :=
  toListUpTo b m maxCount c

def display (c : Cursor) : String :=
  "BatchCursor \x7b model: " ++ Quoted.quote c.query.model.name ++ ", buffered: " ++
    toString c.buffer.length ++ ", next_batch: " ++ toString c.nextBatch ++ ", exhausted: " ++
    toString c.exhausted ++ " \x7d"

end Cursor

/-- A cursor over every match; its first batch is already fetched. -/
def Search.all {σ : Type} (b : Backend σ) (s : Search) : Op (Mapper σ) Cursor :=
  Call.guarded do
    let (session, q) ← s.ready b
    Mapper.onStore (Cursor.openOn b session q)

end ModelMapper
