import ModelMapper.Document.Pattern
import ModelMapper.Query.Analysis

/-! # Filter documents

Queries in the form a document store takes them.

* `Query.toFilter` — the filter as a document of `$and`, `$or`, `$nor` and operators by
  column; no filter is the empty document, which matches everything.
* `Find`, `Query.toFind` — the filter with the sort, the skip and the limit.
-/

namespace ModelMapper

namespace Operator

def documentKey : Operator → String
  | eq => "$eq"
  | ne => "$ne"
  | gt => "$gt"
  | gte => "$gte"
  | lt => "$lt"
  | lte => "$lte"
  | isIn => "$in"
  | notIn => "$nin"
  | contains => "$regex"

end Operator

/-- A search in a document store. -/
structure Find where
  table : String
  filter : Doc
  /-- Columns in order of priority, with `-1` for a descending one and `1` else. -/
  sort : List (String × Int)
  skip : Nat
  limit : Option Nat
deriving Inhabited

namespace Doc

/-- The filter that matches every document. -/
def anything : Doc := .object []

/-- The filter that matches no document. -/
def nothing : Doc := single "$nor" (.list [anything])

end Doc

namespace Comparison

/-- The condition on one column, or between two. -/
def toFilter (s : Schema) (c : Comparison) : Result Doc := do
  let left ← s.columnOf c.left
  match c.right with
  | .literal v =>
    match c.op, v with
    | .contains, .text needle =>
      pure (.single left (.single "$regex" (.text (Pattern.escape needle))))
    | .contains, v => throw (.invalidQuery (.textExpected c.left v.typeName))
    | .isIn, _ | .notIn, _ => throw (.invalidQuery (.listExpected c.op c.left))
    | op, v =>
      if v.isNull && op != .eq && op != .ne then
        throw (.invalidQuery (.nullOperand op c.left))
      else pure (.single left (.single op.documentKey v.toDoc))
  | .list values =>
    if c.op.takesList then
      pure (.single left (.single c.op.documentKey (.list (values.map Value.toDoc))))
    else throw (.invalidQuery (.listUnexpected c.op c.left))
  | .field other => do
    let right ← s.columnOf other
    if c.op.takesList || c.op == .contains then
      throw (.invalidQuery (.fieldOperand c.op))
    else
      pure (.single "$expr" (.single c.op.documentKey
        (.list [.text ("$" ++ left), .text ("$" ++ right)])))

end Comparison

namespace Node

mutual

def toFilter (s : Schema) : Node → Result Doc
  | .comparison c => c.toFilter s
  | .literal (.bool true) => .ok .anything
  | .literal (.bool false) => .ok .nothing
  | .literal v => .error (.invalidQuery (.literalAlone v))
  | .field r => .error (.invalidQuery (.fieldAlone r))
  | .group op children => do
    let parts ← toFilters s children
    match op, parts with
    | .and, [] => pure .anything
    | .or, [] => pure .nothing
    | .not, [] => throw (.invalidQuery .emptyNegation)
    | .and, parts => pure (.single "$and" (.list parts))
    | .or, parts => pure (.single "$or" (.list parts))
    | .not, parts => pure (.single "$nor" (.list [.single "$and" (.list parts)]))

def toFilters (s : Schema) : List Node → Result (List Doc)
  | [] => .ok []
  | node :: rest => do
    let head ← toFilter s node
    let tail ← toFilters s rest
    pure (head :: tail)

end

end Node

def Direction.sign : Direction → Int
  | ascending => 1
  | descending => -1

namespace Query

def toFilter (q : Query) : Result Doc :=
  match q.filter with
  | none => .ok .anything
  | some node => node.toFilter q.model

def sortColumns (q : Query) : Result (List (String × Int)) :=
  q.ordering.mapM fun (r, direction) =>
    (q.model.columnOf r).map fun column => (column, direction.sign)

/-- The whole search. The sort is resolved before the filter. -/
def toFind (q : Query) : Result Find := do
  let sort ← q.sortColumns
  let filter ← q.toFilter
  pure ⟨q.model.table, filter, sort, q.window.offset, q.window.limit⟩

end Query

end ModelMapper
