import ModelMapper.Config.Basic
import ModelMapper.Memory.Backend
import ModelMapper.Postgres.Certificates
import ModelMapper.Sqlite.Backend
import ModelMapper.Sqlite.Location
import ModelMapper.Whole

/-! # Connecting

From a saved database to a backend.

* `PostgresTarget.trust` — the certificates to trust; a file is read only where certificates
  are verified.
* `PostgresTarget.connect` — the steps up to the server. There is no network here, so every
  server is out of reach.
* `SavedDatabase.connect` — the name of the backend, once it is open and answers.
-/

namespace ModelMapper

variable {m : Type → Type} [Monad m]

/-! ## Servers -/

namespace PostgresTarget

open Postgres

def trustFile (path : String) : Entry → Result Unit
  | .file content => do
    let blocks ← Certificates.readBlocks content
    if blocks.all Certificates.isCertificate then pure ()
    else throw (.connection "failed to parse certificate")
  | _ => throw (.connection ("failed to read CA certificate file: " ++ path))

/-- What a connection trusts. Strict verification does not accept invalid certificates. -/
def trust (s : Surroundings m) (t : PostgresTarget) (strict : Bool) : m (Result Unit) := do
  if t.acceptInvalidCerts && !strict then pure (.ok ())
  else
    match t.caCertPath with
    | none => pure (.ok ())
    | some path => do pure (trustFile path (← s.look path))

def invalidSettings : Error :=
  .query "invalid connection settings: invalid connection string"

def outOfReach : Error :=
  .connection "failed to connect to PostgreSQL: error connecting to server"

def connect (s : Surroundings m) (t : PostgresTarget) : m (Result Unit) := do
  if !fitsInt64 t.connectTimeout then pure (.error invalidSettings)
  else
    let trusted ← if t.sslMode == .disable then pure (.ok ())
      else t.trust s t.sslMode.isStrict
    pure (trusted.bind fun _ => .error outOfReach)

end PostgresTarget

/-! ## Databases -/

namespace Sqlite

def connect (s : Surroundings m) (text : String) : m (Result Unit) := do
  match Location.ofText text with
  | .error e => pure (.error (e.toError "invalid SQLite location"))
  | .ok l => do
    pure ((← l.openAt s).mapError fun e => e.toError "failed to open SQLite database")

end Sqlite

namespace Target

/-- The name of the backend, once it is open. -/
def connect (s : Surroundings m) : Target → m (Result String)
  | memory => pure (.ok Memory.backend.name)
  | sqlite path => do pure ((← Sqlite.connect s path).map fun _ => Sqlite.backend.name)
  | postgres settings => do pure ((← settings.connect s).map fun _ => "postgres")

end Target

/-- The name of the backend of a saved database, once it is open and answers. -/
def SavedDatabase.connect (s : Surroundings m) (d : SavedDatabase) : m (Result String) :=
  d.target.connect s

end ModelMapper
