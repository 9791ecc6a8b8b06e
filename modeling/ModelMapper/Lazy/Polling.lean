import ModelMapper.Lazy.Field

/-! # Loads that take time

Several callers of one lazy field, on loads that are done only after they have been polled a
number of times.

* `Load`, `Loading` — the loads started so far, and what the coming ones will answer.
* `Ticket` — what a caller waits for.
* `Loading.enter`, `Loading.poll` — the steps that callers take, in any order. A load moves
  only when a caller polls it. A caller that stops polling is abandoned.
* `Loading.together` — all callers start in order and are polled in turns.
-/

namespace ModelMapper

/-- A load: how often it is polled in vain, and its outcome. -/
structure Load (α : Type) where
  waits : Nat
  outcome : Result α
deriving Inhabited

/-- A field with its loads. Load number `g` is at position `g - 1`. -/
structure Loading (α : Type) where
  field : LazyField α
  loads : List (Load α)
  /-- The loads to come; the last one is repeated. -/
  coming : List (Load α)
  /-- How often there was something to load from. -/
  calls : Nat
deriving Inhabited

/-- A caller: it has its answer, or waits for a load. -/
inductive Ticket (α : Type) where
  | done (r : Result α)
  | waiting (generation : Nat)
deriving Inhabited

namespace Ticket

variable {α : Type}

def result? : Ticket α → Option (Result α)
  | done r => some r
  | waiting _ => none

end Ticket

namespace Loading

variable {α : Type}

def start (field : LazyField α) (coming : List (Load α)) : Loading α :=
  ⟨field, [], coming, 0⟩

/-- The next load to start, and the ones after it. -/
def upcoming (l : Loading α) : Load α × List (Load α) :=
  if l.field.bound then
    match l.coming with
    | [] => (⟨0, LazyField.unbound⟩, [])
    | [last] => (last, [last])
    | next :: rest => (next, rest)
  else (⟨0, LazyField.unbound⟩, l.coming)

/-- The loads with one more, started. -/
def launch (l : Loading α) : Loading α :=
  let (next, rest) := l.upcoming
  { l with
    loads := l.loads ++ [next]
    coming := rest
    calls := if l.field.bound then l.calls + 1 else l.calls }

def enter (kind : LazyRequest) (l : Loading α) : Ticket α × Loading α :=
  match l.field.request kind with
  | (.answered r, field) => (.done r, { l with field := field })
  | (.joined generation, field) => (.waiting generation, { l with field := field })
  | (.started generation, field) => (.waiting generation, { l.launch with field := field })

def poll (t : Ticket α) (l : Loading α) : Ticket α × Loading α :=
  match t with
  | .done r => (.done r, l)
  | .waiting generation =>
    -- Loads are numbered from one.
    match l.loads[generation - 1]? with
    | none => (t, l)
    | some load =>
      if load.waits = 0 then
        (.done load.outcome, { l with field := l.field.settle generation load.outcome })
      else
        (t, { l with loads := l.loads.set (generation - 1) { load with waits := load.waits - 1 } })

def begin (kind : LazyRequest) (l : Loading α) : Ticket α × Loading α :=
  let (t, l) := l.enter kind
  l.poll t

/-- Each caller in turn, once. -/
def turn : List (Ticket α) → Loading α → List (Ticket α) × Loading α
  | [], l => ([], l)
  | t :: rest, l =>
    let (t, l) := l.poll t
    let (rest, l) := turn rest l
    (t :: rest, l)

def turns : Nat → List (Ticket α) → Loading α → List (Ticket α) × Loading α
  | 0, ts, l => (ts, l)
  | n + 1, ts, l =>
    let (ts, l) := turn ts l
    turns n ts l

/-- Every caller starts, in order. -/
def beginAll : List LazyRequest → Loading α → List (Ticket α) × Loading α
  | [], l => ([], l)
  | kind :: rest, l =>
    let (t, l) := l.begin kind
    let (ts, l) := beginAll rest l
    (t :: ts, l)

/-- The turns after which every load so far is done. -/
def turnsLeft (l : Loading α) : Nat := (l.loads.map Load.waits).foldl max 0 + 1

/-- Callers that start in order and wait for their answers together. -/
def together (kinds : List LazyRequest) (l : Loading α) : List (Result α) × Loading α :=
  let (ts, l) := l.beginAll kinds
  let (ts, l) := turns l.turnsLeft ts l
  (ts.filterMap Ticket.result?, l)

end Loading

end ModelMapper
