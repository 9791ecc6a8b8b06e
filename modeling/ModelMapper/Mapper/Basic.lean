import ModelMapper.Backend.Basic
import ModelMapper.Model

/-! # The mapper

A store with what the mapper keeps beside it. Session 0 belongs to the database itself.

* `Setup` — the registered models, and whether their tables are created on first use.
* `Scope` — a transaction scope: its session, its depth there, and whether it has ended.
* `Mapper` — the store, the setup and all scopes so far.
* `Op`, `Call.guarded` — an operation as callers see it: a panic inside it is an error.
-/

namespace ModelMapper

/-- What implicit setup knows. -/
structure Setup where
  models : Catalog
  /-- Setup has run, or needs not run any more. -/
  done : Bool
  implicit : Bool
deriving Inhabited

def Setup.start : Setup := ⟨Catalog.unnamed, false, true⟩

structure Scope where
  session : Nat
  /-- How many scopes the session has open while this one is the innermost. -/
  depth : Nat
  finished : Bool
deriving DecidableEq, Repr, Inhabited

structure Mapper (σ : Type) where
  store : σ
  setup : Setup
  scopes : List Scope
deriving Inhabited

/-- Where an operation is carried out: on the database, or in a scope. -/
inductive Place where
  | database
  | scope (id : Nat)
deriving DecidableEq, Repr, Inhabited

/-- An operation of the mapper: it succeeds or fails with an error. -/
abbrev Op (τ α : Type) := ExceptT Error (StateM (Traced τ)) α

/-! ## Panics -/

/-- The error a panic becomes. -/
def panicMessage (text : Option String) : String :=
  "operation panicked: " ++ text.getD "unknown panic"

def panicEvent (text : Option String) : Event :=
  ⟨.error, "database::result", panicMessage text, []⟩

/-- The error of a failure; a panic is reported. -/
def Failure.toError {τ : Type} : Failure → StateM (Traced τ) Error
  | .error e => pure e
  | .panic text => do
    modify fun t => { t with events := panicEvent text :: t.events }
    pure (.internal (panicMessage text))

/-- What became of a call, as the outcome of an operation. -/
def Op.ofOutcome {τ α : Type} : Except Failure α → Op τ α
  | .ok a => pure a
  | .error f => do throw (← ExceptT.lift f.toError)

def Call.guarded {τ α : Type} (c : Call τ α) : Op τ α := do
  Op.ofOutcome (← ExceptT.lift c.run)

def Op.attempt {τ α : Type} (op : Op τ α) : Op τ (Result α) :=
  fun t => match op t with
    | (outcome, after) => (.ok outcome, after)

def Op.emit {τ : Type} (e : Event) : Op τ Unit :=
  modify fun t => { t with events := e :: t.events }

/-! ## State -/

namespace Mapper

variable {σ α : Type}

def start (store : σ) : Mapper σ := ⟨store, .start, []⟩

def onStore (c : Call σ α) : Call (Mapper σ) α :=
  c.within Mapper.store (fun m s => { m with store := s })

def scope? (m : Mapper σ) (id : Nat) : Option Scope := m.scopes[id]?

/-- The session that operations at a place use. -/
def sessionAt (m : Mapper σ) : Place → Nat
  | .database => 0
  | .scope id => ((m.scope? id).map Scope.session).getD 0

def modifySetup (f : Setup → Setup) : Call (Mapper σ) Unit :=
  Call.modifyState fun m => { m with setup := f m.setup }

end Mapper

end ModelMapper
