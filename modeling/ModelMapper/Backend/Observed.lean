import ModelMapper.Backend.Basic

/-! # Observed backends

A backend that keeps a log of the calls on it and can be told to fail some of them.

* `LogEntry` — a call, with what it was about.
* `Fault` — a failure that is due after a number of calls of one kind.
* `Backend.observed` — each call is logged, then fails if a fault is due, else goes on.
-/

namespace ModelMapper

/-- The kinds of calls that are logged. -/
inductive CallKind where
  | add
  | fetch
  | count
  | update
  | delete
  | begin
  | commit
  | rollback
  | session
  | ping
  | createSchema
  | dropSchema
deriving DecidableEq, Repr, Inhabited

namespace CallKind

def name : CallKind → String
  | add => "add"
  | fetch => "fetch"
  | count => "count"
  | update => "update"
  | delete => "delete"
  | begin => "begin"
  | commit => "commit"
  | rollback => "rollback"
  | session => "session"
  | ping => "ping"
  | createSchema => "create_schema"
  | dropSchema => "drop_schema"

def all : List CallKind :=
  [add, fetch, count, update, delete, begin, commit, rollback, session, ping, createSchema,
    dropSchema]

def ofName? (name : String) : Option CallKind := all.find? fun k => k.name == name

end CallKind

inductive CallDetail where
  | nothing
  | records (model : String) (count : Nat)
  | query (model : String) (window : Window) (ordering : List (FieldRef × Direction))
  | catalog (name : String)
deriving DecidableEq, Repr, Inhabited

def CallDetail.ofQuery (q : Query) : CallDetail := .query q.model.name q.window q.ordering

structure LogEntry where
  kind : CallKind
  detail : CallDetail
deriving DecidableEq, Repr, Inhabited

/-- A failure of a call of one kind, after `skip` more of them. -/
structure Fault where
  kind : CallKind
  skip : Nat
  failure : Failure
deriving Inhabited

namespace Fault

/-- The fault that is due for a call, and the faults that remain. Faults are looked at in
    order: those of the kind that are not due come one call nearer, up to the first that is. -/
def due (kind : CallKind) : List Fault → Option Failure × List Fault
  | [] => (none, [])
  | f :: rest =>
    if f.kind = kind then
      if f.skip = 0 then (some f.failure, rest)
      else
        let (found, others) := due kind rest
        (found, { f with skip := f.skip - 1 } :: others)
    else
      let (found, others) := due kind rest
      (found, f :: others)

end Fault

/-- A store with the log of its calls, the latest first, and the faults to come. -/
structure Observed (σ : Type) where
  store : σ
  log : List LogEntry
  faults : List Fault
deriving Inhabited

namespace Observed

variable {σ α : Type}

def start (store : σ) : Observed σ := ⟨store, [], []⟩

/-- A call that is logged before it is made, and is not made where a fault is due. -/
def call (kind : CallKind) (detail : CallDetail) (c : Call σ α) : Call (Observed σ) α := do
  let o ← Call.state
  let (failure, faults) := Fault.due kind o.faults
  Call.modifyState fun o => { o with log := ⟨kind, detail⟩ :: o.log, faults := faults }
  match failure with
  | some f => throw f
  | none => c.within Observed.store (fun o s => { o with store := s })

def takeLog : Call (Observed σ) (List LogEntry) := do
  let o ← Call.state
  Call.modifyState fun o => { o with log := [] }
  pure o.log.reverse

def addFault (f : Fault) (o : Observed σ) : Observed σ := { o with faults := o.faults ++ [f] }

end Observed

def Backend.observed {σ : Type} (b : Backend σ) : Backend (Observed σ) where
  name := b.name
  add id s records :=
    Observed.call .add (.records s.name records.length) (b.add id s records)
  fetch id q := Observed.call .fetch (.ofQuery q) (b.fetch id q)
  count id q := Observed.call .count (.ofQuery q) (b.count id q)
  update id q values := Observed.call .update (.ofQuery q) (b.update id q values)
  delete id q := Observed.call .delete (.ofQuery q) (b.delete id q)
  begin id := Observed.call .begin .nothing (b.begin id)
  commit id := Observed.call .commit .nothing (b.commit id)
  rollback id := Observed.call .rollback .nothing (b.rollback id)
  depth id o := b.depth id o.store
  create id c := Observed.call .createSchema (.catalog c.name) (b.create id c)
  drop id c := Observed.call .dropSchema (.catalog c.name) (b.drop id c)
  openSession id := Observed.call .session .nothing (b.openSession id)
  ping id := Observed.call .ping .nothing (b.ping id)
  close id := (b.close id).within Observed.store (fun o s => { o with store := s })

end ModelMapper
