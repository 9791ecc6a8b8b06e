import ModelMapper.Error

/-! # Lazy fields

A relation of an instance that is loaded when it is first asked for. A field is bound to
something that can load it, or not.

* `Slot`, `LazyField` — what a field holds. Loads are numbered in the order they start; the
  number of the latest is the field's generation.
* `LazyField.request` — a caller is answered from the cache, joins the load in flight, or
  starts one. A refresh always starts one.
* `LazyField.settle` — a finished load is kept only if no newer one has started.
-/

namespace ModelMapper

/-- What can be seen of a field. -/
inductive LazyStatus where
  | notLoaded
  | loading
  | loaded
  | failed
deriving DecidableEq, Repr, Inhabited

def LazyStatus.name : LazyStatus → String
  | notLoaded => "NotLoaded"
  | loading => "Loading"
  | loaded => "Loaded"
  | failed => "Failed"

inductive Slot (α : Type) where
  | notLoaded
  /-- The load of this number is in flight. -/
  | loading (generation : Nat)
  | loaded (a : α)
  | failed (e : Error)
deriving Inhabited

structure LazyField (α : Type) where
  bound : Bool
  slot : Slot α
  generation : Nat
deriving Inhabited

/-- How a caller asks for a field. -/
inductive LazyRequest where
  | get
  | refresh
deriving DecidableEq, Repr, Inhabited

/-- What a caller has in hand after it asked. -/
inductive LazyReply (α : Type) where
  | answered (r : Result α)
  /-- A load that was already in flight. -/
  | joined (generation : Nat)
  | started (generation : Nat)
deriving Inhabited

namespace LazyField

variable {α : Type}

def unloaded : LazyField α := ⟨true, .notLoaded, 0⟩

/-- A field that holds a value and has nothing to load from. -/
def ofValue (a : α) : LazyField α := ⟨false, .loaded a, 0⟩

/-- The field of an instance that was never read from a store. -/
def detached : LazyField α := ⟨false, .notLoaded, 0⟩

def status (f : LazyField α) : LazyStatus :=
  match f.slot with
  | .notLoaded => .notLoaded
  | .loading _ => .loading
  | .loaded _ => .loaded
  | .failed _ => .failed

def display (f : LazyField α) : String := "LazyField(" ++ f.status.name ++ ")"

/-- The outcome of a load that has nothing to load from. -/
def unbound : Result α := .error (.invalidQuery .unboundRelation)

/-- Start another load; an earlier one in flight is not waited for any more. -/
def start (f : LazyField α) : Nat × LazyField α :=
  let generation := f.generation + 1
  (generation, { f with slot := .loading generation, generation := generation })

def request (f : LazyField α) : LazyRequest → LazyReply α × LazyField α
  | .get =>
    match f.slot with
    | .loaded a => (.answered (.ok a), f)
    | .failed e => (.answered (.error e), f)
    | .loading generation => (.joined generation, f)
    | .notLoaded => (.started f.start.1, f.start.2)
  | .refresh => (.started f.start.1, f.start.2)

/-- What a finished load leaves in a field. -/
def Slot.ofResult : Result α → Slot α
  | .ok a => .loaded a
  | .error e => .failed e

/-- A load has finished. Its outcome is kept if it is the load in flight. -/
def settle (f : LazyField α) (generation : Nat) (r : Result α) : LazyField α :=
  match f.slot with
  | .loading current => if current = generation then { f with slot := Slot.ofResult r } else f
  | _ => f

end LazyField

end ModelMapper
