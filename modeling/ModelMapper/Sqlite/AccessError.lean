import ModelMapper.Sqlite.Table

/-! # Failures of access

Failures on the way to the engine, and those of the engine itself, as errors of the mapper.
-/

namespace ModelMapper.Sqlite

/-- What goes wrong on the way to a database. -/
inductive AccessError where
  | engine (e : EngineError)
  | configuration (message : String)
  | io (message : String)
  | tls (message : String)
  | poolTimedOut
  | poolClosed
  | workerCrashed
  | other (message : String)
deriving DecidableEq, Repr, Inhabited

namespace AccessError

def message : AccessError → String
  | engine e => e.message
  | configuration text => "error with configuration: " ++ text
  | io text => "error communicating with database: " ++ text
  | tls text => "error occurred while attempting to establish a TLS connection: " ++ text
  | poolTimedOut => "pool timed out while waiting for an open connection"
  | poolClosed => "attempted to acquire a connection on a closed pool"
  | workerCrashed => "attempted to communicate with a crashed background worker"
  | other text => text

/-- Broken rules of the data, lost connections, and everything else. -/
def origin : AccessError → Origin
  | engine e => if e.isConstraint then .constraint else .query
  | io _ | tls _ | poolTimedOut | poolClosed | workerCrashed => .connection
  | configuration _ | other _ => .query

def toError (e : AccessError) (context : String) : Error :=
  .raised e.origin (context ++ ": " ++ e.message) none

end AccessError

end ModelMapper.Sqlite
