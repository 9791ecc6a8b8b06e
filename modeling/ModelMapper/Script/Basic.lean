import ModelMapper.Backend.Observed
import ModelMapper.Document.Basic
import ModelMapper.Lazy.Relation
import ModelMapper.Mapper.Cursor

/-! # Scripts

The operations of the mapper as data. What an operation leaves behind — instances, cursors,
scopes and relations — is kept under names that later operations use.

* `Step` — one operation; a block holds the steps that run inside it.
* `Reply` — what a step answers.
-/

namespace ModelMapper.Script

/-- Where an operation is carried out: on the database, or in the scope of a name. -/
inductive Site where
  | database
  | scope (name : String)
deriving DecidableEq, Repr, Inhabited

inductive Shape where
  | order (field : FieldRef) (direction : Direction)
  | limit (count : Nat) (page : Option Nat)
deriving DecidableEq, Repr, Inhabited

inductive Goal where
  | all
  | one
  | first
  | count
  | delete
  | update (values : Record)
  | cursor
deriving Inhabited

/-- An instance: a kept one by its position, or one that was never stored. -/
inductive Source where
  | kept (name : String) (position : Nat)
  | fresh (model : Schema) (record : Record)
deriving Inhabited

/-- An instance after some of its fields were set. -/
structure Subject where
  source : Source
  changes : Record
deriving Inhabited

/-- How the owner of a relation is related to the target. -/
inductive Kinship where
  | one
  | every
  | associated (via : Schema)
deriving Inhabited

/-- How the rest of a cursor is read: up to the first failure, or with all failures. -/
inductive Draining where
  | list
  | stream
deriving DecidableEq, Repr, Inhabited

inductive Step where
  /-- An operation whose query cannot be built. -/
  | refused (e : Error)
  | ping
  | backendName
  | implicit (enabled : Bool)
  | register (models : Catalog)
  | useModels (site : Site) (models : Catalog)
  | removeModels (site : Site) (models : Catalog)
  | add (site : Site) (model : Schema) (records : List Record) (keep : Option String)
  | find (site : Site) (model : Schema) (nodes : List Node) (shape : List Shape) (goal : Goal)
      (keep : Option String)
  | next (cursor : String) (count : Nat)
  | drain (cursor : String) (how : Draining)
  | begin (site : Site) (keep : Option String)
  | commit (scope : String)
  | rollback (scope : String)
  | inspect (scope : String)
  /-- The handle of a scope is gone. -/
  | letGo (scope : String) (runtime : Bool)
  /-- A block in a scope of its own. It ends as given, or with the first failure of a step if
      those are passed on. -/
  | atomic (scope : String) (steps : List Step) (passOn : Bool) (ending : Except Failure Doc)
  | save (site : Site) (subject : Subject)
  | remove (site : Site) (subject : Subject)
  | reload (site : Site) (subject : Subject) (keep : Option String)
  | relate (kinship : Kinship) (owner : Subject) (target : Schema) (keep : Option String)
  | loaderName (subject : Subject)
  /-- Ask for a relation; a failure may be answered by nothing instead. -/
  | load (relation : String) (request : LazyRequest) (orNothing : Bool) (keep : Option String)
  | inject (fault : Fault)
  | takeLog
deriving Inhabited

/-- What a relation leads to. -/
inductive Related where
  | one (i : Option Instance)
  | many (is : List Instance)
deriving Inhabited

def Related.instances : Related → List Instance
  | one i => i.toList
  | many is => is

inductive Reply where
  | nothing
  | number (n : Nat)
  | text (s : String)
  | doc (d : Doc)
  | record (r : Option Record)
  | records (rs : List Record)
  | outcomes (rs : List (Result Record))
  | items (items : List (Option (Result Record))) (cursor : Cursor)
  | scope (depth : Nat) (finished : Bool)
  | loaded (outcome : Result Related) (status : LazyStatus)
  | block (inner : List (Except Failure Reply)) (finished : Option Bool)
      (outcome : Except Failure Reply)
  | log (entries : List LogEntry)
deriving Inhabited

abbrev Outcome := Except Failure Reply

end ModelMapper.Script
