import ModelMapper.Document.Comparing
import ModelMapper.Document.Pattern

/-! # Matching documents

Whether a filter document matches a stored document.

* `Document` — the columns of a stored document.
* `Document.satisfies` — the clauses of a filter in key order, up to the first that is false.
* `Document.applyOperator` — one operator; `$ne` and `$nin` never match a null.
-/

namespace ModelMapper

/-- A stored document: its columns in increasing order. -/
abbrev Document := List (String × Doc)

namespace Document

/-- The value of a column; a missing column is null. -/
def column (d : Document) (name : String) : Doc := (Entries.get? name d).getD .null

/-! ## Operators -/

def items (operand : Doc) : Result (List Doc) :=
  match operand with
  | .list items => .ok items
  | other => .error (.query ("expected a list of filters, got " ++ other.display))

def isNull : Doc → Bool
  | .null => true
  | _ => false

/-- Whether a text contains what the pattern stands for. Only text matches patterns. -/
def matchesPattern (value operand : Doc) : Result Bool :=
  match operand with
  | .text pattern =>
    match Pattern.read? pattern with
    | none => .error (.query ("invalid pattern " ++ pattern))
    | some p =>
      match value with
      | .text text => .ok (p.occursIn text)
      | _ => .ok false
  | _ => .error (.query "$regex needs a string pattern")

def applyOperator (op : String) (value operand : Doc) : Result Bool :=
  match op with
  | "$eq" => .ok (value.equals operand)
  | "$ne" => .ok (!isNull value && !value.equals operand)
  | "$gt" => .ok (value.compare? operand == some .gt)
  | "$gte" => .ok (value.compare? operand == some .gt || value.compare? operand == some .eq)
  | "$lt" => .ok (value.compare? operand == some .lt)
  | "$lte" => .ok (value.compare? operand == some .lt || value.compare? operand == some .eq)
  | "$in" => (items operand).map fun found => found.any value.equals
  | "$nin" =>
    if isNull value then .ok false
    else (items operand).map fun found => !found.any value.equals
  | "$regex" => matchesPattern value operand
  | other => .error (.query ("unsupported operator " ++ other))

/-- All operators on one value, up to the first that is false. -/
def applyOperators (value : Doc) : List (String × Doc) → Result Bool
  | [] => .ok true
  | (op, operand) :: rest => do
    if ← applyOperator op value operand then applyOperators value rest else pure false

def isOperatorKey (key : String) : Bool := key.toList.head? == some '$'

/-- A condition on a column: operators, or a literal to be equal to. -/
def matchesField (value condition : Doc) : Result Bool :=
  match condition with
  | .object ops =>
    if ops.all fun e => isOperatorKey e.1 then applyOperators value ops
    else .ok (value.equals condition)
  | literal => .ok (value.equals literal)

/-! ## Comparisons of columns -/

/-- An operand that is text after a dollar sign names a column. -/
def resolve (d : Document) (operand : Doc) : Doc :=
  match operand with
  | .text s =>
    match s.toList with
    | '$' :: name => d.column (String.ofList name)
    | _ => operand
  | _ => operand

/-- Comparisons between two operands each, up to the first that is false. -/
def matchesPairs (d : Document) : List (String × Doc) → Result Bool
  | [] => .ok true
  | (op, operands) :: rest => do
    match (← items operands).map d.resolve with
    | [left, right] =>
      if ← applyOperator op left right then matchesPairs d rest else pure false
    | _ => throw (.query (op ++ " needs two operands"))

def matchesExpression (d : Document) (condition : Doc) : Result Bool :=
  match condition with
  | .object ops => matchesPairs d ops
  | other => .error (.query ("invalid $expr " ++ other.display))

/-! ## Filters -/

mutual

def satisfies (d : Document) : Doc → Result Bool
  | .object clauses => satisfiesClauses d clauses
  | other => .error (.query ("filter must be a document, got " ++ other.display))

def satisfiesClauses (d : Document) : List (String × Doc) → Result Bool
  | [] => .ok true
  | (key, condition) :: rest => do
    if ← satisfiesClause d key condition then satisfiesClauses d rest else pure false

/-- One clause: a connective over a list of filters, a comparison of columns, or a condition
    on the column it names. -/
def satisfiesClause (d : Document) (key : String) : Doc → Result Bool
  | .list filters =>
    match key with
    | "$and" => satisfiesAll d filters
    | "$or" => satisfiesAny d filters
    | "$nor" => (satisfiesAny d filters).map (!·)
    | "$expr" => matchesExpression d (.list filters)
    | column => matchesField (d.column column) (.list filters)
  | condition =>
    match key with
    | "$and" | "$or" | "$nor" => (items condition).map fun _ => false
    | "$expr" => matchesExpression d condition
    | column => matchesField (d.column column) condition

def satisfiesAll (d : Document) : List Doc → Result Bool
  | [] => .ok true
  | filter :: rest => do
    if ← satisfies d filter then satisfiesAll d rest else pure false

def satisfiesAny (d : Document) : List Doc → Result Bool
  | [] => .ok false
  | filter :: rest => do
    if ← satisfies d filter then pure true else satisfiesAny d rest

end

end Document

end ModelMapper
