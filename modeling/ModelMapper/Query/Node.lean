import ModelMapper.Value.Basic

/-! # Filter trees

The conditions of a query, as data that every backend reads in its own way.

* `FieldRef` — a field of a model, by name.
* `Operator`, `Comparison` — one test of a field against an operand.
* `Node` — a tree of comparisons under the connectives and, or and not.
* `Node.and`, `Node.or`, `Node.negate`, `Node.all`, `Node.any` — the builder. A group takes
  in the children of a group with the same connective, anything else nests.
-/

namespace ModelMapper

structure FieldRef where
  model : String
  field : String
deriving DecidableEq, Repr, Inhabited

def FieldRef.display (r : FieldRef) : String := r.model ++ "." ++ r.field

def FieldRef.before (a b : FieldRef) : Bool :=
  decide (a.model < b.model) || (a.model == b.model && decide (a.field ≤ b.field))

inductive Operator where
  | eq
  | ne
  | gt
  | gte
  | lt
  | lte
  | isIn
  | notIn
  | contains
deriving DecidableEq, Repr, Inhabited

namespace Operator

def symbol : Operator → String
  | eq => "=="
  | ne => "!="
  | gt => ">"
  | gte => ">="
  | lt => "<"
  | lte => "<="
  | isIn => "in"
  | notIn => "not in"
  | contains => "contains"

/-- The operator with the same meaning when its sides change places. -/
def flipped? : Operator → Option Operator
  | eq => some eq
  | ne => some ne
  | gt => some lt
  | gte => some lte
  | lt => some gt
  | lte => some gte
  | isIn | notIn | contains => none

def takesList : Operator → Bool
  | isIn | notIn => true
  | _ => false

end Operator

inductive Operand where
  | field (r : FieldRef)
  | literal (v : Value)
  | list (values : List Value)
deriving DecidableEq, Inhabited

structure Comparison where
  left : FieldRef
  op : Operator
  right : Operand
deriving DecidableEq, Inhabited

/-- How the children of a group are joined. `not` denies their conjunction. -/
inductive Connective where
  | and
  | or
  | not
deriving DecidableEq, Repr, Inhabited

/-- A filter tree. A field or a literal alone is an operand, never a condition. -/
inductive Node where
  | field (r : FieldRef)
  | literal (v : Value)
  | comparison (c : Comparison)
  | group (op : Connective) (children : List Node)
deriving Inhabited

/-! ## Comparisons of a field -/

namespace FieldRef

/-- A comparison with a literal, by an operator that takes one. -/
def test (r : FieldRef) (op : Operator) (v : Value) : Node := .comparison ⟨r, op, .literal v⟩

def contains (r : FieldRef) (needle : String) : Node := r.test .contains (.text needle)

def isIn (r : FieldRef) (values : List Value) : Node := .comparison ⟨r, .isIn, .list values⟩

def notIn (r : FieldRef) (values : List Value) : Node := .comparison ⟨r, .notIn, .list values⟩

def eqField (r other : FieldRef) : Node := .comparison ⟨r, .eq, .field other⟩

end FieldRef

/-! ## Joining trees -/

namespace Node

/-- What a tree contributes to a group: its children if it is a group of the same
    connective, else itself. -/
def parts (op : Connective) : Node → List Node
  | group op' children => if op' = op then children else [group op' children]
  | node => [node]

def combine (op : Connective) (a b : Node) : Node := .group op (a.parts op ++ b.parts op)

protected def and (a b : Node) : Node := combine .and a b

protected def or (a b : Node) : Node := combine .or a b

def negate (a : Node) : Node := .group .not [a]

/-- The conjunction of the nodes; of none it is an empty group. -/
def all (nodes : List Node) : Node := nodes.foldl Node.and (.group .and [])

/-- The disjunction of the nodes; of none it is an empty group. -/
def any (nodes : List Node) : Node := nodes.foldl Node.or (.group .or [])

instance : AndOp Node := ⟨Node.and⟩

instance : OrOp Node := ⟨Node.or⟩

instance : Complement Node := ⟨Node.negate⟩

end Node

end ModelMapper
