import ModelMapper.Config.File
import ModelMapper.Connecting
import ModelMapper.Text.Quoted

/-! # The command line

* `Command`, `Invocation.ofArgs?` — what is asked for: the list of saved databases, or
  whether one of them answers.
* `Invocation.run` — what is written, and how the program ends.
-/

namespace ModelMapper.Cli

inductive Command where
  | list
  | ping (name : String)
deriving DecidableEq, Repr, Inhabited

structure Invocation where
  /-- The file of saved databases, where it is not the usual one. -/
  file : Option String
  command : Command
deriving DecidableEq, Repr, Inhabited

structure Exit where
  code : Nat
  output : String
  errors : String
deriving DecidableEq, Repr, Inhabited

namespace Exit

def success (output : String) : Exit := ⟨0, output, ""⟩

def failure (message : String) : Exit := ⟨1, "", "Error: " ++ message ++ "\n"⟩

/-- A failure with what is behind it. -/
def failureBecause (message cause : String) : Exit :=
  failure (message ++ "\n\nCaused by:\n    " ++ cause)

def usage : Exit := ⟨2, "", "usage: [--config FILE] list | ping NAME\n"⟩

end Exit

/-! ## Arguments -/

def commandOf? : List String → Option Command
  | ["list"] => some .list
  | ["ping", name] | ["ping", "--", name] => some (.ping name)
  | _ => none

def valueOf? (option word : String) : Option String :=
  let start := (option ++ "=").toList
  if start.isPrefixOf word.toList then some (String.ofList (word.toList.drop start.length))
  else none

namespace Invocation

def ofArgs? : List String → Option Invocation
  | "--config" :: file :: rest => (commandOf? rest).map (⟨some file, ·⟩)
  | word :: rest =>
    match valueOf? "--config" word with
    | some file => (commandOf? rest).map (⟨some file, ·⟩)
    | none => (commandOf? (word :: rest)).map (⟨none, ·⟩)
  | [] => none

end Invocation

/-! ## Carrying out -/

variable {m : Type → Type} [Monad m]

def usualFile (directory : String) : String :=
  SavedDatabase.fileIn
    (if directory.endsWith "/" then String.ofList directory.toList.dropLast else directory)

/-- The directory for settings: the one that is set, if it is absolute, else the usual one in
    the home directory. -/
def settingsDirectory (s : Surroundings m) : m String := do
  let home (h : Option String) : String := (h.map (· ++ "/.config")).getD "."
  match ← s.valueOf "XDG_CONFIG_HOME" with
  | some path => if path.startsWith "/" then pure path else do pure (home (← s.valueOf "HOME"))
  | none => do pure (home (← s.valueOf "HOME"))

/-- The saved databases of a file; a file that is missing holds none. -/
def load (s : Surroundings m) (file : String) :
    m (Except ConfigError (List SavedDatabase)) := do
  pure (match ← s.look file with
    | .missing => .ok []
    | .directory => .error .unreadable
    | .file content => SavedDatabase.readAll content)

def padded (width : Nat) (text : String) : String :=
  text ++ String.ofList (List.replicate (width - text.length) ' ')

def listing (file : String) (saved : List SavedDatabase) : String :=
  if saved.isEmpty then "No saved databases in " ++ file ++ "\n"
  else String.join (saved.map fun d => padded 20 d.name ++ " " ++ d.display ++ "\n")

/-- The database with its password: where none is saved it is taken from the environment. -/
def withPassword (s : Surroundings m) (d : SavedDatabase) : m (Option SavedDatabase) := do
  match d.target with
  | .postgres t =>
    if t.password.isEmpty then do
      pure ((← s.valueOf "PGPASSWORD").map fun password =>
        { d with target := .postgres { t with password := password } })
    else pure (some d)
  | _ => pure (some d)

def ping (s : Surroundings m) (file name : String) (saved : List SavedDatabase) : m Exit := do
  match SavedDatabase.find? name saved with
  | none => pure (.failure ("no saved database named " ++ Quoted.quote name ++ " in " ++ file))
  | some d =>
    match ← withPassword s d with
    | none => pure (.failure "No such device or address (os error 6)")
    | some d =>
      match ← d.connect s with
      | .error e => pure (.failureBecause ("Failed to connect to " ++ d.name) e.message)
      | .ok backend => pure (.success (d.name ++ ": ok (" ++ backend ++ ")\n"))

def Invocation.run (s : Surroundings m) (i : Invocation) : m Exit := do
  let file ← match i.file with
    | some file => pure file
    | none => do pure (usualFile (← settingsDirectory s))
  match ← load s file with
  | .error e => pure (.failure (e.message ++ " " ++ file))
  | .ok saved =>
    match i.command with
    | .list => pure (.success (listing file saved))
    | .ping name => ping s file name saved

def run (s : Surroundings m) (args : List String) : m Exit :=
  match Invocation.ofArgs? args with
  | some i => i.run s
  | none => pure .usage

end ModelMapper.Cli
