/-! # Saved databases

* `SavedDatabase` — a name and what it stands for: a store in memory, an SQLite database or a
  PostgreSQL server.
* `PostgresTarget.connectionString` — the settings of a server as keywords and quoted values.
* `SavedDatabase.find?` — by name; the case of ASCII letters does not matter.
-/

namespace ModelMapper

/-- Whether the connection is encrypted, and what is verified. -/
inductive SslMode where
  | disable
  | prefer
  | require
  | verifyCa
  | verifyFull
deriving DecidableEq, Repr, Inhabited

namespace SslMode

def name : SslMode → String
  | disable => "Disable"
  | prefer => "Prefer"
  | require => "Require"
  | verifyCa => "VerifyCa"
  | verifyFull => "VerifyFull"

def all : List SslMode := [disable, prefer, require, verifyCa, verifyFull]

def ofName? (s : String) : Option SslMode := all.find? fun m => m.name == s

/-- The mode's name in a connection string; verification is not asked for there. -/
def keyword : SslMode → String
  | disable => "disable"
  | prefer => "prefer"
  | require | verifyCa | verifyFull => "require"

/-- Whether certificates are verified whatever else is set. -/
def isStrict : SslMode → Bool
  | verifyCa | verifyFull => true
  | _ => false

end SslMode

structure PostgresTarget where
  host : String
  port : Nat
  database : String
  username : String
  /-- Never saved. -/
  password : String
  sslMode : SslMode
  acceptInvalidCerts : Bool
  /-- A file of further root certificates. -/
  caCertPath : Option String
  poolSize : Nat
  connectTimeout : Nat
deriving DecidableEq, Repr, Inhabited

namespace PostgresTarget

/-- The settings of a server where nothing else is said. -/
def standard : PostgresTarget where
  host := "localhost"
  port := 5432
  database := "postgres"
  username := "postgres"
  password := ""
  sslMode := .prefer
  acceptInvalidCerts := false
  caCertPath := none
  poolSize := 8
  connectTimeout := 15

def display (t : PostgresTarget) : String :=
  t.username ++ "@" ++ t.host ++ ":" ++ toString t.port ++ "/" ++ t.database

/-- A value between single quotes; a backslash stands before quotes and backslashes. -/
def quoteValue (value : String) : String :=
  let escaped := value.toList.flatMap fun c => if c = '\\' ∨ c = '\'' then ['\\', c] else [c]
  "'" ++ String.ofList escaped ++ "'"

def connectionString (t : PostgresTarget) : String :=
  "host=" ++ quoteValue t.host ++ " port=" ++ toString t.port ++
    " dbname=" ++ quoteValue t.database ++ " user=" ++ quoteValue t.username ++
    " password=" ++ quoteValue t.password ++ " sslmode=" ++ t.sslMode.keyword ++
    " connect_timeout=" ++ toString t.connectTimeout

end PostgresTarget

inductive Target where
  | memory
  | sqlite (path : String)
  | postgres (settings : PostgresTarget)
deriving DecidableEq, Repr, Inhabited

structure SavedDatabase where
  name : String
  target : Target
deriving DecidableEq, Repr, Inhabited

namespace SavedDatabase

def display (d : SavedDatabase) : String :=
  match d.target with
  | .memory => "memory"
  | .sqlite path => "sqlite:" ++ path
  | .postgres settings => "postgres:" ++ settings.display

def sameName (a b : String) : Bool :=
  a.toList.map Char.toLower == b.toList.map Char.toLower

def find? (name : String) (saved : List SavedDatabase) : Option SavedDatabase :=
  saved.find? fun d => sameName d.name name

def fileIn (directory : String) : String := directory ++ "/ommi/databases.toml"

end SavedDatabase

end ModelMapper
