import ModelMapper.Backend.Basic

/-! # Actions

The operations of a backend as data, so that a run on several sessions is a list.

* `Action`, `Action.perform` — one operation, and what it does on a session.
* `Request`, `Request.carryOut` — an action on a session; one that could not be built fails
  without a call.
* `Request.runAll` — a run, with the depth of the session after each request.
-/

namespace ModelMapper

inductive Action where
  | add (model : Schema) (records : List Record)
  | fetch (q : Query)
  | count (q : Query)
  | update (q : Query) (values : Record)
  | delete (q : Query)
  | begin
  | commit
  | rollback
  | create (models : Catalog)
  | drop (models : Catalog)
  | openSession
  | ping
  | name
  | close
deriving Inhabited

/-- What an action answers. -/
inductive Yield where
  | nothing
  | number (n : Nat)
  | text (s : String)
  | records (rs : List Record)
deriving Inhabited

variable {σ : Type}

def Action.perform (b : Backend σ) (session : Nat) : Action → Call σ Yield
  | .add model records => do pure (.records (← b.add session model records))
  | .fetch q => do pure (.records (← b.fetch session q))
  | .count q => do pure (.number (← b.count session q))
  | .update q values => do pure (.number (← b.update session q values))
  | .delete q => do pure (.number (← b.delete session q))
  | .begin => do
    b.begin session
    pure .nothing
  | .commit => do
    b.commit session
    pure .nothing
  | .rollback => do
    b.rollback session
    pure .nothing
  | .create models => do
    b.create session models
    pure .nothing
  | .drop models => do
    b.drop session models
    pure .nothing
  | .openSession => do pure (.number (← b.openSession session))
  | .ping => do
    b.ping session
    pure .nothing
  | .name => pure (.text b.name)
  | .close => do
    b.close session
    pure .nothing

/-- An action on a session, or why it could not be built. -/
structure Request where
  session : Nat
  action : Result Action
deriving Inhabited

namespace Request

def carryOut (b : Backend σ) (r : Request) : Call σ Yield := do
  (← Call.ofResult r.action).perform b r.session

def closes (r : Request) : Bool :=
  match r.action with
  | .ok .close => true
  | _ => false

/-- The outcomes of requests in order, each with the depth of its session afterwards, unless
    the session is gone. -/
def runAll (b : Backend σ) : List Request → StateM (Traced σ)
    (List (Except Failure Yield × Option Nat))
  | [] => pure []
  | r :: rest => do
    let outcome ← (r.carryOut b).run
    let after ← get
    let depth := if r.closes then none else some (b.depth r.session after.state)
    pure ((outcome, depth) :: (← runAll b rest))

end Request

end ModelMapper
