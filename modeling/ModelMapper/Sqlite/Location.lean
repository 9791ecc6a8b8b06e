import ModelMapper.Sqlite.AccessError
import ModelMapper.Surroundings
import ModelMapper.Text.Quoted
import ModelMapper.Text.Utf8

/-! # Where a database is

* `Location.ofText` — a path, or the word for a database in memory, with settings after a
  question mark.
* `Location.open` — whether a database can be opened there.
-/

namespace ModelMapper.Sqlite

structure Location where
  path : String
  inMemory : Bool
  /-- The system of files to use, where one is named. -/
  system : Option String
deriving DecidableEq, Repr, Inhabited

namespace Location

/-- The text without a text it begins with, as often as it does. -/
def dropAll (start : List Char) : Nat → List Char → List Char
  | 0, s => s
  | limit + 1, s => if start.isPrefixOf s then dropAll start limit (s.drop start.length) else s

def hexValue? (c : Char) : Option Nat :=
  if c.isDigit then some (c.toNat - 48)
  else if 'a' ≤ c ∧ c ≤ 'f' then some (c.toNat - 87)
  else if 'A' ≤ c ∧ c ≤ 'F' then some (c.toNat - 55)
  else none

/-- The bytes of a text in which two hexadecimal digits after a percent sign are a byte. -/
def percentDecode : List Char → List UInt8
  | [] => []
  | '%' :: a :: b :: rest =>
    match hexValue? a, hexValue? b with
    | some hi, some lo => UInt8.ofNat (hi * 16 + lo) :: percentDecode rest
    | _, _ => 37 :: percentDecode (a :: b :: rest)
  | c :: rest => (String.singleton c).toUTF8.toList ++ percentDecode rest

def decoded (s : List Char) : Option String :=
  String.fromUTF8? (ByteArray.mk (percentDecode s).toArray)

/-- A part of a setting, in which a plus sign is a space. -/
def decodedPart (s : List Char) : String :=
  (decoded (s.map fun c => if c = '+' then ' ' else c)).getD (String.ofList s)

/-- A setting, at its first equals sign. -/
def settingOf (s : List Char) : String × String :=
  (decodedPart (s.takeWhile (· != '=')), decodedPart ((s.dropWhile (· != '=')).drop 1))

def settingsOf (s : List Char) : List (String × String) :=
  ((s.splitOn '&').filter fun part => !part.isEmpty).map settingOf

def unknownValue (key value : String) : AccessError :=
  .configuration ("unknown value " ++ Quoted.quote value ++ " for `" ++ key ++ "`")

def apply (l : Location) (setting : String × String) : Except AccessError Location :=
  let (key, value) := setting
  match key with
  | "mode" =>
    match value with
    | "memory" => .ok { l with inMemory := true }
    | "ro" | "rw" | "rwc" => .ok l
    | _ => .error (unknownValue key value)
  | "cache" =>
    if value = "private" ∨ value = "shared" then .ok l else .error (unknownValue key value)
  | "immutable" =>
    if ["true", "1", "false", "0"].contains value then .ok l
    else .error (unknownValue key value)
  | "vfs" => .ok { l with system := some value }
  | _ => .error (.configuration ("unknown query parameter `" ++ key ++
      "` while parsing connection URL"))

def ofText (text : String) : Except AccessError Location := do
  -- The scheme is taken off as often as it stands there, the longer spelling first.
  let s := text.toList
  let s := dropAll "sqlite:".toList s.length (dropAll "sqlite://".toList s.length s)
  let path := s.takeWhile (· != '?')
  let settings := settingsOf ((s.dropWhile (· != '?')).drop 1)
  match decoded path with
  | none =>
    throw (.configuration (((Utf8.fault? (percentDecode path)).map Utf8.Fault.message).getD ""))
  | some path => settings.foldlM apply ⟨path, path == ":memory:", none⟩

def systems : List String := ["unix", "unix-dotfile", "unix-excl", "unix-none", "memdb"]

/-- The directory of a path, if it names one. -/
def directory? (path : String) : Option String :=
  let rest := path.toList.reverse.dropWhile (· != '/')
  match rest with
  | [] => none
  | ['/'] => some "/"
  | _ :: above => some (String.ofList above.reverse)

/-- Whether a database can be opened: in memory always, as a file where its directory is. -/
def openAt {m : Type → Type} [Monad m] (s : Surroundings m) (l : Location) :
    m (Except AccessError Unit) := do
  if (l.system.any fun name => !systems.contains name) then
    pure (.error (.engine (.noSystem (l.system.getD ""))))
  else if l.inMemory || l.path.isEmpty then pure (.ok ())
  else
    let blocked ← match directory? l.path with
      | none => pure false
      | some directory => do pure ((← s.look directory) != .directory)
    if blocked || (← s.look l.path) == .directory then pure (.error (.engine .cannotOpen))
    else pure (.ok ())

end Location

end ModelMapper.Sqlite
