import ModelMapper.Error

/-! # Building comparisons

Comparisons of two operands, refused where no backend could carry them out.

* `Comparison.ofNodes` — a field goes to the left; an operator whose sides changed places is
  flipped, and one that cannot be flipped is refused.
* `FieldRef.compare` — the same with a field already on the left.
-/

namespace ModelMapper

namespace Comparison

/-- A comparison with a literal; operators on lists have builders of their own. -/
def withLiteral (left : FieldRef) (op : Operator) (v : Value) : Result Comparison :=
  if op.takesList then .error (.invalidQuery (.literalForList op left))
  else .ok ⟨left, op, .literal v⟩

def ofNodes (left : Node) (op : Operator) (right : Node) : Result Comparison :=
  match left, right with
  | .field l, .field r =>
    if op.takesList || op == .contains then .error (.invalidQuery (.fieldsUnder op l r))
    else .ok ⟨l, op, .field r⟩
  | .field l, .literal v => withLiteral l op v
  | .literal v, .field r =>
    match op.flipped? with
    | none => .error (.invalidQuery (.fieldOnRight op r))
    | some flipped => withLiteral r flipped v
  | .literal a, .literal b => .error (.invalidQuery (.literalsOnly a op b))
  | _, _ => .error (.invalidQuery .notOperands)

end Comparison

def FieldRef.compare (r : FieldRef) (op : Operator) (right : Node) : Result Node :=
  (Comparison.ofNodes (.field r) op right).map .comparison

end ModelMapper
