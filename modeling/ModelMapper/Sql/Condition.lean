import ModelMapper.Query.Analysis
import ModelMapper.Sql.Statement

/-! # SQL conditions

Filter trees over columns, and their text.

* `Condition` — a filter tree whose fields are resolved to columns and whose tests are the
  ones SQL has.
* `Condition.ofNode` — the condition of a filter tree; the left column is looked up first.
* `Condition.pieces` — the text. Within another group a group of several children stands in
  parentheses; a lone child stands where its group stood; `NOT` brings its own parentheses.
-/

namespace ModelMapper.Sql

/-- The operators between two scalars. -/
inductive Relation where
  | eq
  | ne
  | gt
  | gte
  | lt
  | lte
deriving DecidableEq, Repr, Inhabited

namespace Relation

def symbol : Relation → String
  | eq => "="
  | ne => "<>"
  | gt => ">"
  | gte => ">="
  | lt => "<"
  | lte => "<="

def ofOperator? : Operator → Option Relation
  | .eq => some eq
  | .ne => some ne
  | .gt => some gt
  | .gte => some gte
  | .lt => some lt
  | .lte => some lte
  | .isIn | .notIn | .contains => none

/-- Whether the relation holds between two things that compare as given. -/
def holds : Relation → Ordering → Bool
  | eq, o => o == .eq
  | ne, o => o != .eq
  | gt, o => o == .gt
  | gte, o => o != .lt
  | lt, o => o == .lt
  | lte, o => o != .gt

end Relation

/-- A condition over the columns of one table. -/
inductive Condition where
  | truth (b : Bool)
  | isNull (column : String)
  | isNotNull (column : String)
  | compare (column : String) (rel : Relation) (v : Value)
  | compareColumns (column : String) (rel : Relation) (other : String)
  /-- Text that matches a pattern. -/
  | like (column : String) (pattern : String)
  /-- Membership in a list that is not empty, or its denial. -/
  | member (column : String) (negated : Bool) (values : List Value)
  | group (op : Connective) (children : List Condition)
deriving Inhabited

/-- A needle inside a pattern: the wildcards and the escape character are escaped. -/
def escapeLike (needle : List Char) : List Char :=
  needle.flatMap fun c => if c = '%' ∨ c = '_' ∨ c = '\\' then ['\\', c] else [c]

/-- The pattern of the texts that contain a needle. -/
def containsPattern (needle : String) : String :=
  String.ofList ('%' :: escapeLike needle.toList ++ ['%'])

namespace Condition

/-! ## From filter trees -/

def ofComparison (s : Schema) (c : Comparison) : Result Condition := do
  let column ← s.columnOf c.left
  match c.right with
  | .literal .null =>
    match c.op with
    | .eq => pure (.isNull column)
    | .ne => pure (.isNotNull column)
    | op => throw (.invalidQuery (.nullOperand op c.left))
  | .literal v =>
    match c.op, v with
    | .contains, .text needle => pure (.like column (containsPattern needle))
    | .contains, v => throw (.invalidQuery (.textExpected c.left v.typeName))
    | op, v =>
      match Relation.ofOperator? op with
      | some rel => pure (.compare column rel v)
      | none => throw (.invalidQuery (.listExpected op c.left))
  | .field other => do
    let otherColumn ← s.columnOf other
    match Relation.ofOperator? c.op with
    | some rel => pure (.compareColumns column rel otherColumn)
    | none => throw (.invalidQuery (.fieldOperand c.op))
  | .list values =>
    if c.op.takesList then
      -- No value is in the empty list, and all are outside it.
      if values.isEmpty then pure (.truth (c.op == .notIn))
      else pure (.member column (c.op == .notIn) values)
    else throw (.invalidQuery (.listUnexpected c.op c.left))

mutual

def ofNode (s : Schema) : Node → Result Condition
  | .comparison c => ofComparison s c
  | .literal (.bool b) => .ok (.truth b)
  | .literal v => .error (.invalidQuery (.literalAlone v))
  | .field r => .error (.invalidQuery (.fieldAlone r))
  | .group op children => do
    let parts ← ofNodes s children
    match op, parts with
    | .not, [] => throw (.invalidQuery .emptyNegation)
    | .and, [] => pure (.truth true)
    | .or, [] => pure (.truth false)
    | op, parts => pure (.group op parts)

def ofNodes (s : Schema) : List Node → Result (List Condition)
  | [] => .ok []
  | node :: rest => do
    let head ← ofNode s node
    let tail ← ofNodes s rest
    pure (head :: tail)

end

/-! ## Text -/

def joiner : Connective → String
  | .or => " OR "
  | _ => " AND "

def parenthesize (s : Statement) : Statement := .word "(" :: s ++ [.word ")"]

mutual

/-- The text of a condition; `nested` says that it stands within a group. -/
def pieces (nested : Bool) : Condition → Statement
  | .truth b => [.word (if b then "1 = 1" else "1 = 0")]
  | .isNull column => [.name column, .word " IS NULL"]
  | .isNotNull column => [.name column, .word " IS NOT NULL"]
  | .compare column rel v => [.name column, .word (" " ++ rel.symbol ++ " "), .param v]
  | .compareColumns column rel other =>
    [.name column, .word (" " ++ rel.symbol ++ " "), .name other]
  | .like column pattern =>
    [.name column, .word " LIKE ", .param (.text pattern), .word " ESCAPE '\\'"]
  | .member column negated values =>
    [.name column, .word (if negated then " NOT IN (" else " IN (")] ++
      Statement.join ", " (values.map fun v => [.param v]) ++ [.word ")"]
  | .group .not children =>
    .word "NOT " :: parenthesize
      (Statement.join (joiner .not) (childPieces (decide (children.length ≠ 1)) children))
  | .group op children =>
    -- A single child stands as if it were in the place of its group.
    let joined := Statement.join (joiner op)
      (childPieces (nested || decide (children.length ≠ 1)) children)
    if nested && decide (1 < children.length) then parenthesize joined else joined

def childPieces (nested : Bool) : List Condition → List Statement
  | [] => []
  | c :: rest => pieces nested c :: childPieces nested rest

end

end Condition

end ModelMapper.Sql
