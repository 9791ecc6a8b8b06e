import ModelMapper.Config.Basic
import ModelMapper.Toml.Reading
import ModelMapper.Toml.Writing

/-! # The file of saved databases

* `SavedDatabase.settings`, `SavedDatabase.ofSettings?` — a database as settings, and back;
  what is not known is ignored.
* `SavedDatabase.readAll` — a file's content.
* `SavedDatabase.writeAll` — the file that is read back as the same databases, but for the
  passwords.
-/

namespace ModelMapper

/-- Why a file cannot be used. -/
inductive ConfigError where
  /-- It cannot be read as text. -/
  | unreadable
  /-- It is no document of saved databases. -/
  | malformed
  /-- A number is too large for the file. -/
  | tooLarge
deriving DecidableEq, Repr, Inhabited

def ConfigError.message : ConfigError → String
  | unreadable => "Failed to read"
  | malformed => "Failed to parse"
  | tooLarge => "out-of-range value for u64 type"

/-! ## Reading -/

namespace TomlValue

def asText? : TomlValue → Option String
  | text s => some s
  | _ => none

def asBool? : TomlValue → Option Bool
  | bool b => some b
  | _ => none

/-- A count that is not larger than `most`. -/
def asCount? (most : Nat) : TomlValue → Option Nat
  | int n => if 0 ≤ n ∧ n ≤ most then some n.toNat else none
  | _ => none

/-- The one entry of a table that holds nothing. -/
def asMark? : TomlValue → Option String
  | text s => some s
  | table [(s, table [])] => some s
  | _ => none

end TomlValue

abbrev Settings := List (String × TomlValue)

namespace Settings

variable {α : Type}

/-- A setting that must be there. -/
def required (s : Settings) (key : String) (read : TomlValue → Option α) : Option α :=
  (s.lookup key).bind read

/-- A setting with a default; one that is there must be readable. -/
def withDefault (s : Settings) (key : String) (default : α) (read : TomlValue → Option α) :
    Option α :=
  match s.lookup key with
  | none => some default
  | some v => read v

end Settings

def PostgresTarget.ofSettings? (s : Settings) : Option PostgresTarget := do
  let d := PostgresTarget.standard
  pure {
    host := ← s.required "host" TomlValue.asText?
    port := ← s.required "port" (TomlValue.asCount? 65535)
    database := ← s.required "database" TomlValue.asText?
    username := ← s.required "username" TomlValue.asText?
    password := ← s.withDefault "password" d.password TomlValue.asText?
    sslMode := ← s.withDefault "ssl_mode" d.sslMode fun v => v.asMark?.bind SslMode.ofName?
    acceptInvalidCerts :=
      ← s.withDefault "accept_invalid_certs" d.acceptInvalidCerts TomlValue.asBool?
    caCertPath := ← s.withDefault "ca_cert_path" none fun v => v.asText?.map some
    poolSize := ← s.withDefault "pool_size" d.poolSize (TomlValue.asCount? maxSetting)
    connectTimeout :=
      ← s.withDefault "connect_timeout_secs" d.connectTimeout (TomlValue.asCount? maxSetting) }
where
  /-- Counts have 64 bits. -/
  maxSetting : Nat := 18446744073709551615

def PostgresTarget.settings (t : PostgresTarget) : Settings :=
  [("host", .text t.host), ("port", .int t.port), ("database", .text t.database),
    ("username", .text t.username), ("password", .text t.password),
    ("ssl_mode", .text t.sslMode.name), ("accept_invalid_certs", .bool t.acceptInvalidCerts)] ++
    t.caCertPath.toList.map (fun path => ("ca_cert_path", .text path)) ++
    [("pool_size", .int t.poolSize), ("connect_timeout_secs", .int t.connectTimeout)]

namespace SavedDatabase

def settings (d : SavedDatabase) : Settings :=
  ("name", .text d.name) :: match d.target with
    | .memory => [("backend", .text "memory")]
    | .sqlite path => [("backend", .text "sqlite"), ("path", .text path)]
    | .postgres t => ("backend", .text "postgres") :: t.settings

def ofSettings? (s : Settings) : Option SavedDatabase := do
  let name ← s.required "name" TomlValue.asText?
  match ← s.required "backend" TomlValue.asText? with
  | "memory" => pure ⟨name, .memory⟩
  | "sqlite" => do pure ⟨name, .sqlite (← s.required "path" TomlValue.asText?)⟩
  | "postgres" => do pure ⟨name, .postgres (← PostgresTarget.ofSettings? s)⟩
  | _ => none

def ofValue? : TomlValue → Option SavedDatabase
  | .table entries => ofSettings? entries
  | _ => none

def allOf? : TomlValue → Option (List SavedDatabase)
  | .table entries =>
    match entries.lookup "databases" with
    | none => some []
    | some (.list items) => items.mapM ofValue?
    | some _ => none
  | _ => none

def ofText? (text : String) : Option (List SavedDatabase) :=
  (TomlValue.ofText? text).bind allOf?

def readAll (content : List UInt8) : Except ConfigError (List SavedDatabase) :=
  match String.fromUTF8? (ByteArray.mk content.toArray) with
  | none => .error .unreadable
  | some text =>
    match ofText? text with
    | none => .error .malformed
    | some saved => .ok saved

/-! ## Writing -/

/-- A setting as a line of the file. A number must have a 64-bit form with a sign. -/
def line? (key : String) (v : TomlValue) : Option String :=
  (v.scalarText?).map fun text => key ++ " = " ++ text ++ "\n"

def table? (d : SavedDatabase) : Option String := do
  let saved := d.settings.filter fun s => s.1 != "password"
  pure ("[[databases]]\n" ++ String.join (← saved.mapM fun (key, v) => line? key v))

def writeAll (saved : List SavedDatabase) : Except ConfigError String :=
  match saved.mapM table? with
  | none => .error .tooLarge
  | some [] => .ok "databases = []\n"
  | some tables => .ok (String.intercalate "\n" tables)

end SavedDatabase

end ModelMapper
