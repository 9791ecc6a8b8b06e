import ModelMapper.Query.Comparing
import ModelMapper.Schema

/-! # Queries

A model, a filter and the directives that shape the result.

* `Window` — the rows from an offset on, up to a limit; counts stop at the largest 64-bit
  count.
* `Directive` — order, page or window, applied in the order they were given.
* `Query` — the whole, with its ordering and its window.
-/

namespace ModelMapper

inductive Direction where
  | ascending
  | descending
deriving DecidableEq, Repr, Inhabited

/-! ## Counts and windows -/

/-- The largest count of rows. -/
def maxCount : Nat := 18446744073709551615

/-- Sums and products of counts stop at the largest one. -/
def capCount (n : Nat) : Nat := min n maxCount

/-- A range of rows. -/
structure Window where
  offset : Nat
  limit : Option Nat
deriving DecidableEq, Repr, Inhabited

namespace Window

def whole : Window := ⟨0, none⟩

/-- The part of a window that starts `offset` rows into it and has at most `limit` rows. -/
def narrow (w : Window) (offset : Nat) (limit : Option Nat) : Window :=
  let remaining := w.limit.map fun n => n - offset
  { offset := capCount (w.offset + offset)
    limit :=
      match remaining, limit with
      | some r, some l => some (min r l)
      | some r, none => some r
      | none, l => l }

def isWhole (w : Window) : Bool := w.offset == 0 && w.limit.isNone

/-- The rows of a page; pages count from one, and page zero is the first. -/
def page (count : Nat) (number : Option Nat) : Window :=
  ⟨capCount ((max (number.getD 1) 1 - 1) * count), some count⟩

/-- The rows of a list that lie in the window. -/
def slice {α : Type} (w : Window) (rows : List α) : List α :=
  let rest := rows.drop w.offset
  match w.limit with
  | none => rest
  | some n => rest.take n

end Window

/-! ## Queries -/

/-- One step of shaping the result. -/
inductive Directive where
  | orderBy (field : FieldRef) (direction : Direction)
  | page (count : Nat) (number : Option Nat)
  | window (offset : Nat) (limit : Option Nat)
deriving DecidableEq, Repr, Inhabited

structure Query where
  model : Schema
  filter : Option Node
  shape : List Directive
deriving Inhabited

namespace Query

def all (model : Schema) : Query := ⟨model, none, []⟩

/-- Keep only the rows that a condition holds for as well. -/
def addFilter (q : Query) (node : Node) : Query :=
  { q with
    filter := some (match q.filter with
      | some existing => existing.and node
      | none => node) }

def push (q : Query) (d : Directive) : Query := { q with shape := q.shape ++ [d] }

def orderBy (q : Query) (field : FieldRef) (direction : Direction) : Query :=
  q.push (.orderBy field direction)

def limit (q : Query) (count : Nat) (page : Option Nat) : Query := q.push (.page count page)

/-- The `index`-th run of `size` rows within the query's window. -/
def batch (q : Query) (index size : Nat) : Query :=
  q.push (.window (capCount (index * size)) (some size))

/-- The fields the rows are ordered by, the first deciding first. -/
def ordering (q : Query) : List (FieldRef × Direction) :=
  q.shape.filterMap fun
    | .orderBy field direction => some (field, direction)
    | _ => none

def orderByKeys (q : Query) : Query :=
  q.model.keyFields.foldl (fun q f => q.orderBy (q.model.fieldRef f.name) .ascending) q

/-- A query without an order is ordered by its keys, so that its windows do not overlap. -/
def stableOrder (q : Query) : Query := if q.ordering.isEmpty then q.orderByKeys else q

/-- One directive's effect on the window: a page starts anew, a window narrows. -/
def applyDirective (w : Window) : Directive → Window
  | .orderBy _ _ => w
  | .page count number => Window.page count number
  | .window offset limit => w.narrow offset limit

def window (q : Query) : Window := q.shape.foldl applyDirective .whole

end Query

end ModelMapper
