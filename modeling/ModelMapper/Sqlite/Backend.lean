import ModelMapper.Backend.Basic
import ModelMapper.Sqlite.AccessError
import ModelMapper.Sqlite.Connection
import ModelMapper.Sqlite.Reading

/-! # The engine as a backend

Sessions on one database, each with a connection of its own.

* `Session`, `Cluster` — a connection with the number of scopes opened on it, and all of them
  on one database, whose engine may refuse statements.
* `Cluster.run` — a command on the database a session sees.
* `Cluster.runScope` — a transaction statement on the connection of a session.
* `Cluster.begin`, `Cluster.commit`, `Cluster.rollback` — scopes: the outermost is a
  transaction, inner ones are savepoints. The depth changes only where the statements succeed.
* `backend` — the whole with its events: each statement is reported before it runs.
-/

namespace ModelMapper.Sqlite

open Sql (Command savepointName)

structure Session where
  connection : Connection
  depth : Nat
deriving DecidableEq, Inhabited

structure Cluster where
  shared : Database
  sessions : List Session
  /-- What befalls the transaction statements to come, in their order: one of them is refused where
      there is an error for it. -/
  refusals : List (Option AccessError)
deriving DecidableEq, Inhabited

namespace Report

def part : String := "driver::sqlite"

def statement (c : Command) : Event :=
  ⟨.debug, part, "sqlite",
    [("sql", c.text .sqlite), ("params", toString (c.params .sqlite).length)]⟩

def definition (c : Command) : Event := ⟨.debug, part, "sqlite", [("sql", c.text .sqlite)]⟩

def scope (s : Scope) (depth : Nat) : Event :=
  ⟨.debug, part, s.text, [("depth", toString depth)]⟩

def create (c : Catalog) : Event :=
  ⟨.info, part, "creating " ++ toString c.size ++ " SQLite tables for " ++ c.name, []⟩

def dropped (depth : Nat) : Event :=
  ⟨.warn, part, "SQLite handle dropped inside a transaction (depth " ++ toString depth ++
    "); closing its connection", []⟩

end Report

/-- An error of the engine as an error of the mapper. -/
def EngineError.toError (e : EngineError) (context : String) : Error :=
  (AccessError.engine e).toError context

namespace Cluster

def start : Cluster := ⟨.empty, [⟨none, 0⟩], []⟩

def session (c : Cluster) (id : Nat) : Session := (c.sessions[id]?).getD ⟨none, 0⟩

def setSession (c : Cluster) (id : Nat) (s : Session) : Cluster :=
  { c with sessions := c.sessions.set id s }

def depth (c : Cluster) (id : Nat) : Nat := (c.session id).depth

def view (c : Cluster) (id : Nat) : Database := (c.session id).connection.view c.shared

/-- The cluster after a session has changed the database it sees. -/
def setView (c : Cluster) (id : Nat) (d : Database) : Cluster :=
  let s := c.session id
  match s.connection with
  | some t => c.setSession id { s with connection := some { t with working := d } }
  | none => { c with shared := d }

def loseTransaction (c : Cluster) (id : Nat) : Cluster :=
  c.setSession id { c.session id with connection := none }

/-- A command on the database a session sees. One that fails changes nothing, but the engine
    may give up the open transaction. -/
def run (c : Cluster) (id : Nat) (context : String) (command : Command) :
    Result Database.Answer × Cluster :=
  match (c.view id).execute command with
  | .ok (answer, after) => (.ok answer, c.setView id after)
  | .error e => (.error (e.toError context), if e.endsTransaction then c.loseTransaction id else c)

/-- The error that the next transaction statement is refused with. -/
def refusal? (c : Cluster) : Option AccessError := c.refusals.head?.join

/-- The cluster after a transaction statement was refused, or let through. -/
def pass (c : Cluster) : Cluster := { c with refusals := c.refusals.tail }

/-- A transaction statement of a session. One that is refused, or that the connection does not
    take, changes nothing. -/
def runScope (c : Cluster) (id : Nat) (context : String) (s : Scope) : Result Unit × Cluster :=
  let failed (e : AccessError) := (.error ((e.toError context).intoTransaction context), c.pass)
  match c.refusal? with
  | some e => failed e
  | none =>
    let before := c.session id
    match before.connection.run c.shared s with
    | .ok (connection, shared) =>
      (.ok (),
        { c.pass with shared := shared }.setSession id { before with connection := connection })
    | .error e => failed (.engine e)

def setDepth (c : Cluster) (id : Nat) (depth : Nat) : Cluster :=
  c.setSession id { c.session id with depth := depth }

end Cluster

/-! ## Calls -/

namespace Cluster

/-- Run a command that was reported. -/
def call (id : Nat) (context : String) (command : Command) : Call Cluster Database.Answer := do
  Call.emit (Report.statement command)
  Call.step fun c => c.run id context command

/-- Store one record after the other; those before a failing one stay. -/
def add (id : Nat) (s : Schema) : List Record → Call Cluster (List Record)
  | [] => pure []
  | r :: rest => do
    let answer ← call id ("failed to insert " ++ s.name) (s.toInsert r)
    let stored ← Call.ofResult (s.readRow (answer.rows.headD []))
    let others ← add id s rest
    pure (stored :: others)

def fetch (id : Nat) (q : Query) : Call Cluster (List Record) := do
  let command ← Call.ofResult q.toSelect
  let answer ← call id "fetch failed" command
  Call.ofResult (answer.rows.mapM q.model.readRow)

def count (id : Nat) (q : Query) : Call Cluster Nat := do
  let command ← Call.ofResult q.toCount
  pure (← call id "count failed" command).touched

def update (id : Nat) (q : Query) (values : Record) : Call Cluster Nat := do
  let command ← Call.ofResult (q.toUpdate values)
  pure (← call id "update failed" command).touched

def delete (id : Nat) (q : Query) : Call Cluster Nat := do
  let command ← Call.ofResult q.toDelete
  pure (← call id "delete failed" command).touched

/-- A transaction statement, reported with the depth before it. -/
def scope (id : Nat) (context : String) (s : Scope) : Call Cluster Unit := do
  Call.emit (Report.scope s ((← Call.state).depth id))
  Call.step fun c => c.runScope id context s

def noTransaction : Error := .transaction "no transaction is active"

def begin (id : Nat) : Call Cluster Unit := do
  let depth := (← Call.state).depth id
  scope id "begin failed" (match depth with
    | 0 => .begin
    | n + 1 => .savepoint (savepointName (n + 1)))
  Call.modifyState fun c => c.setDepth id (depth + 1)

def commit (id : Nat) : Call Cluster Unit := do
  match (← Call.state).depth id with
  | 0 => Call.fail noTransaction
  | 1 => do
    scope id "commit failed" .commit
    Call.modifyState fun c => c.setDepth id 0
  | n + 2 => do
    scope id "commit failed" (.release (savepointName (n + 1)))
    Call.modifyState fun c => c.setDepth id (n + 1)

def rollback (id : Nat) : Call Cluster Unit := do
  match (← Call.state).depth id with
  | 0 => Call.fail noTransaction
  | 1 => do
    scope id "rollback failed" .rollback
    Call.modifyState fun c => c.setDepth id 0
  -- Going back to a savepoint leaves it open, so it is released as well.
  | n + 2 => do
    scope id "rollback failed" (.rollbackTo (savepointName (n + 1)))
    scope id "rollback failed" (.release (savepointName (n + 1)))
    Call.modifyState fun c => c.setDepth id (n + 1)

/-- A command on tables. Its failure is a failure of the schema. -/
def define (id : Nat) (context : String) (command : Command) : Call Cluster Unit := do
  Call.emit (Report.definition command)
  Call.step fun c =>
    match c.run id "statement failed" command with
    | (.ok _, after) => (.ok (), after)
    | (.error e, after) => (.error (e.intoSchema context), after)

def create (id : Nat) (catalog : Catalog) : Call Cluster Unit := do
  Call.emit (Report.create catalog)
  catalog.models.forM fun s => define id ("failed to create " ++ s.name) s.toCreate

/-- Tables are dropped in the reverse of the order they were created in. -/
def drop (id : Nat) (catalog : Catalog) : Call Cluster Unit :=
  catalog.models.reverse.forM fun s => define id ("failed to drop " ++ s.name) s.toDrop

/-- The session is gone, and its open transaction with it. -/
def close (id : Nat) : Call Cluster Unit := do
  let depth := (← Call.state).depth id
  if 0 < depth then Call.emit (Report.dropped depth)
  Call.modifyState fun c => c.setSession id ⟨none, 0⟩

end Cluster

def backend : Backend Cluster where
  name := "sqlite"
  add := Cluster.add
  fetch := Cluster.fetch
  count := Cluster.count
  update := Cluster.update
  delete := Cluster.delete
  begin := Cluster.begin
  commit := Cluster.commit
  rollback := Cluster.rollback
  depth id c := c.depth id
  create := Cluster.create
  drop := Cluster.drop
  openSession _ := Call.step fun c =>
    (.ok c.sessions.length, { c with sessions := c.sessions ++ [⟨none, 0⟩] })
  ping _ := pure ()
  close := Cluster.close

end ModelMapper.Sqlite
