import ModelMapper.Sqlite.Database

/-! # Connections

The transaction statements on one connection to a shared database.

* `Connection` — the private state of an open transaction with its named savepoints.
* `Scope` — the statements `BEGIN`, `COMMIT`, `ROLLBACK`, `SAVEPOINT`, `RELEASE` and
  `ROLLBACK TO`, with their text.
* `Connection.run` — a statement: the connection and the shared database after it.
-/

namespace ModelMapper.Sqlite

/-- The state of an open transaction. -/
structure OpenTransaction where
  working : Database
  /-- The open savepoints with the databases they keep, the innermost first. -/
  savepoints : List (String × Database)
deriving DecidableEq, Inhabited

/-- A connection, with its open transaction if it has one. -/
abbrev Connection := Option OpenTransaction

inductive Scope where
  | begin
  | commit
  | rollback
  | savepoint (name : String)
  | release (name : String)
  | rollbackTo (name : String)
deriving DecidableEq, Repr, Inhabited

def Scope.text : Scope → String
  | begin => "BEGIN"
  | commit => "COMMIT"
  | rollback => "ROLLBACK"
  | savepoint name => "SAVEPOINT " ++ Sql.quoteIdent name
  | release name => "RELEASE SAVEPOINT " ++ Sql.quoteIdent name
  | rollbackTo name => "ROLLBACK TO SAVEPOINT " ++ Sql.quoteIdent name

namespace Connection

def view (c : Connection) (shared : Database) : Database :=
  match c with
  | some t => t.working
  | none => shared

/-- The savepoints from the innermost one of a name on, outwards. -/
def fromSavepoint (name : String) (savepoints : List (String × Database)) :
    List (String × Database) :=
  savepoints.dropWhile fun s => !sameName s.1 name

/-- A transaction statement: the connection and the shared database after it. -/
def run (c : Connection) (shared : Database) : Scope → Outcome (Connection × Database)
  | .begin =>
    match c with
    | some _ => .error .nestedBegin
    | none => .ok (some ⟨shared, []⟩, shared)
  | .commit =>
    match c with
    | some t => .ok (none, t.working)
    | none => .error (.noTransaction "commit")
  | .rollback =>
    match c with
    | some _ => .ok (none, shared)
    | none => .error (.noTransaction "rollback")
  | .savepoint name =>
    let working := view c shared
    let open_ := (c.map OpenTransaction.savepoints).getD []
    .ok (some ⟨working, (name, working) :: open_⟩, shared)
  | .release name =>
    match c with
    | some t =>
      match fromSavepoint name t.savepoints with
      | _ :: outer => .ok (some { t with savepoints := outer }, shared)
      | [] => .error (.noSavepoint name)
    | none => .error (.noSavepoint name)
  | .rollbackTo name =>
    match c with
    | some t =>
      match fromSavepoint name t.savepoints with
      | kept :: outer => .ok (some ⟨kept.2, kept :: outer⟩, shared)
      | [] => .error (.noSavepoint name)
    | none => .error (.noSavepoint name)

end Connection

end ModelMapper.Sqlite
