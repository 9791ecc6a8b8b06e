import ModelMapper.Query.Basic

/-! # Backends

What the mapper asks of a store, whatever kind of store it is.

* `Event` — what a call reports on its way.
* `Failure` — how a call ends without an answer: with an error, or by a panic.
* `Call` — a call: it changes a state, reports events, and answers or fails.
* `Backend` — the operations on the sessions of a store. Sessions are numbered.
-/

namespace ModelMapper

/-! ## Events -/

inductive Level where
  | debug
  | info
  | warn
  | error
deriving DecidableEq, Repr, Inhabited

def Level.name : Level → String
  | debug => "DEBUG"
  | info => "INFO"
  | warn => "WARN"
  | error => "ERROR"

/-- A report of what a part of the mapper does. -/
structure Event where
  level : Level
  /-- The part that reports. -/
  part : String
  message : String
  fields : List (String × String)
deriving DecidableEq, Repr, Inhabited

/-! ## Calls -/

/-- How a call ends without an answer. A panic may carry a text. -/
inductive Failure where
  | error (e : Error)
  | panic (text : Option String)
deriving Inhabited

/-- A state with the events so far. -/
structure Traced (σ : Type) where
  state : σ
  events : List Event
deriving Inhabited

/-- A call on a state. Events are kept, the latest first, also when the call fails. -/
abbrev Call (σ α : Type) := ExceptT Failure (StateM (Traced σ)) α

namespace Call

variable {σ τ α : Type}

def state : Call σ σ := do pure (← get).state

def modifyState (f : σ → σ) : Call σ Unit :=
  modify fun t => { t with state := f t.state }

def emit (e : Event) : Call σ Unit := modify fun t => { t with events := e :: t.events }

def fail (e : Error) : Call σ α := throw (.error e)

def ofResult : Result α → Call σ α
  | .ok a => pure a
  | .error e => fail e

/-- A step that answers from the state alone. -/
def read (f : σ → Result α) : Call σ α := do ofResult (f (← state))

/-- A step that changes the state, also when it fails. -/
def step (f : σ → Result α × σ) : Call σ α := do
  let (outcome, after) := f (← state)
  modifyState fun _ => after
  ofResult outcome

/-- The outcome of a call as a value, whatever it is. -/
def attempt (c : Call σ α) : Call σ (Except Failure α) := fun t =>
  match c t with
  | (outcome, after) => (.ok outcome, after)

def within (part : τ → σ) (put : τ → σ → τ) (c : Call σ α) : Call τ α := fun t =>
  match c ⟨part t.state, t.events⟩ with
  | (outcome, after) => (outcome, ⟨put t.state after.state, after.events⟩)

end Call

/-! ## Backends -/

structure Backend (σ : Type) where
  name : String
  add : Nat → Schema → List Record → Call σ (List Record)
  fetch : Nat → Query → Call σ (List Record)
  count : Nat → Query → Call σ Nat
  update : Nat → Query → Record → Call σ Nat
  delete : Nat → Query → Call σ Nat
  begin : Nat → Call σ Unit
  commit : Nat → Call σ Unit
  rollback : Nat → Call σ Unit
  depth : Nat → σ → Nat
  create : Nat → Catalog → Call σ Unit
  drop : Nat → Catalog → Call σ Unit
  openSession : Nat → Call σ Nat
  ping : Nat → Call σ Unit
  close : Nat → Call σ Unit

end ModelMapper
