import ModelMapper.Mapper.Setup

/-! # Transaction scopes

A scope belongs to a session; nested scopes share it. Only the innermost unfinished scope of
a session may be used.

* `Mapper.checkOpen`, `Mapper.finish` — the gate of every operation in a scope, and the mark
  that a commit or rollback leaves before the backend answers.
* `Mapper.begin`, `Mapper.commit`, `Mapper.rollback`, `Mapper.abandon` — the life of a scope.
* `Mapper.conclude` — the end of a block: commit on success, rollback otherwise.
-/

namespace ModelMapper

namespace Report

def transactionPart : String := "database::transaction"

def dropped (depth : Nat) : Event :=
  ⟨.warn, transactionPart, "transaction dropped without commit or rollback (depth " ++
    toString depth ++ "); rolling back", []⟩

def backgroundFailure (e : Error) : Event :=
  ⟨.warn, transactionPart, "background rollback failed: " ++ e.message, []⟩

def noRuntime : Event :=
  ⟨.warn, transactionPart, "no async runtime available; transaction left to its connection", []⟩

def quietFailure (e : Error) : Event :=
  ⟨.warn, "database", "rollback after failed atomic block failed: " ++ e.message, []⟩

end Report

namespace Scope

def alreadyFinished : Error := .transaction "transaction already finished"

def nestedOpen (current depth : Nat) : Error :=
  .transaction ("a nested transaction is still open (depth " ++ toString current ++ " inside " ++
    toString depth ++ ")")

/-- Whether a scope may be used, given how many scopes its session has open. -/
def check (s : Scope) (current : Nat) : Result Unit :=
  if s.finished then .error alreadyFinished
  else if current ≠ s.depth then .error (nestedOpen current s.depth)
  else .ok ()

end Scope

namespace Mapper

variable {σ α : Type}

/-! ## The gate -/

def scope (id : Nat) : Call (Mapper σ) Scope := do
  match (← Call.state).scope? id with
  | some s => pure s
  | none => Call.fail Scope.alreadyFinished

/-- The scope is unfinished and the innermost one of its session. -/
def checkOpen (b : Backend σ) (id : Nat) : Call (Mapper σ) Scope := do
  let s ← scope id
  let m ← Call.state
  Call.ofResult (s.check (b.depth s.session m.store))
  pure s

def markFinished (id : Nat) : Call (Mapper σ) Unit :=
  Call.modifyState fun m =>
    { m with scopes := m.scopes.modify id fun s => { s with finished := true } }

/-- Pass the gate and end the scope. -/
def finish (b : Backend σ) (id : Nat) : Call (Mapper σ) Scope := do
  let s ← checkOpen b id
  markFinished id
  pure s

/-- Pass the gate of a place: setup on the database, an open scope elsewhere. The answer is
    the session to use. -/
def enter (b : Backend σ) : Place → Call (Mapper σ) Nat
  | .database => do
    ensure b
    pure 0
  | .scope id => do pure (← checkOpen b id).session

/-! ## Life of a scope -/

/-- A scope on a session that has just begun it. -/
def addScope (b : Backend σ) (session : Nat) : Call (Mapper σ) Nat := do
  let m ← Call.state
  Call.modifyState fun m =>
    { m with scopes := m.scopes ++ [⟨session, b.depth session m.store, false⟩] }
  pure m.scopes.length

/-- Begin a scope: on the database on a session of its own, in a scope nested in it. -/
def begin (b : Backend σ) (place : Place) : Op (Mapper σ) Nat :=
  Call.guarded do
    let outer ← enter b place
    -- Scopes on the database live beside each other, each on a session of its own.
    let session ← match place with
      | .database => onStore (b.openSession outer)
      | .scope _ => pure outer
    onStore (b.begin session)
    addScope b session

def commit (b : Backend σ) (id : Nat) : Op (Mapper σ) Unit :=
  Call.guarded do
    let s ← finish b id
    onStore (b.commit s.session)

def rollback (b : Backend σ) (id : Nat) : Op (Mapper σ) Unit :=
  Call.guarded do
    let s ← finish b id
    onStore (b.rollback s.session)

def isFinished (m : Mapper σ) (id : Nat) : Bool := ((m.scope? id).map Scope.finished).getD true

/-- The last handle of a scope is gone. The answer is whether the scope was unfinished. -/
def letGo (id : Nat) (runtime : Bool) : Call (Mapper σ) Bool := do
  let s ← scope id
  if !s.finished then
    Call.emit (Report.dropped s.depth)
    if !runtime then Call.emit Report.noRuntime
  pure !s.finished

/-- Roll back a scope whose handles are gone; a failure to do so is only reported. -/
def rollBackInBackground (b : Backend σ) (id : Nat) : Call (Mapper σ) Unit := do
  let s ← scope id
  match ← Call.attempt (onStore (b.rollback s.session)) with
  | .error (.error e) => Call.emit (Report.backgroundFailure e)
  | _ => pure ()

/-- The last handles of scopes are gone. The unfinished ones are rolled back in the background,
    if there is something to run it. -/
def abandon (b : Backend σ) (ids : List Nat) (runtime : Bool) : Op (Mapper σ) Unit :=
  Call.guarded do
    let unfinished ← ids.filterM fun id => letGo id runtime
    if runtime then unfinished.forM (rollBackInBackground b)

/-! ## Tables in a scope -/

def useModelsIn (b : Backend σ) (id : Nat) (models : Catalog) : Op (Mapper σ) Unit :=
  Call.guarded do
    let s ← checkOpen b id
    onStore (b.drop s.session models)
    onStore (b.create s.session models)

def removeModelsIn (b : Backend σ) (id : Nat) (models : Catalog) : Op (Mapper σ) Unit :=
  Call.guarded do
    let s ← checkOpen b id
    onStore (b.drop s.session models)

/-! ## Blocks -/

/-- Roll back a scope that is not finished; a failure to do so is only reported. -/
def rollBackQuietly (b : Backend σ) (id : Nat) : Op (Mapper σ) Unit := do
  if !(← get).state.isFinished id then
    match ← Op.attempt (rollback b id) with
    | .ok () => pure ()
    | .error e => Op.emit (Report.quietFailure e)

/-- The end of a block that ran in a scope. A block that finished the scope itself is left
    alone; otherwise success commits, and an error or a panic rolls back. -/
def conclude (b : Backend σ) (id : Nat) (outcome : Except Failure α) : Op (Mapper σ) α := do
  match outcome with
  | .ok a =>
    -- The block may have ended its scope by itself.
    if !(← get).state.isFinished id then commit b id
    pure a
  | .error f =>
    let e ← ExceptT.lift f.toError
    rollBackQuietly b id
    throw e

def atomic (b : Backend σ) (body : Nat → Call (Mapper σ) α) : Op (Mapper σ) α := do
  let id ← begin b .database
  let outcome ← ExceptT.lift (body id).run
  conclude b id outcome

end Mapper

end ModelMapper
