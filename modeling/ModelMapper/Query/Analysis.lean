import ModelMapper.Query.Basic

/-! # Analysis of queries

What a query refers to, and whether a backend can be asked.

* `Analysis` — the facts about a query: models, fields, depth, and what it makes use of.
* `Query.validate` — refuses fields of other models, unknown fields and empty negations, in
  this order, and of several the least.
* `Query.build` — a query of some conditions, validated.
-/

namespace ModelMapper

namespace Operand

def fields : Operand → List FieldRef
  | field r => [r]
  | _ => []

def isNull : Operand → Bool
  | literal v => v.isNull
  | _ => false

def isList : Operand → Bool
  | list _ => true
  | _ => false

end Operand

namespace Node

mutual

def comparisons : Node → List Comparison
  | field _ => []
  | literal _ => []
  | comparison c => [c]
  | group _ children => comparisonsOf children

def comparisonsOf : List Node → List Comparison
  | [] => []
  | node :: rest => comparisons node ++ comparisonsOf rest

end

mutual

def fields : Node → List FieldRef
  | field r => [r]
  | literal _ => []
  | comparison c => c.left :: c.right.fields
  | group _ children => fieldsOf children

def fieldsOf : List Node → List FieldRef
  | [] => []
  | node :: rest => fields node ++ fieldsOf rest

end

mutual

def depth : Node → Nat
  | group _ children => depthOf children + 1
  | _ => 0

def depthOf : List Node → Nat
  | [] => 0
  | node :: rest => max (depth node) (depthOf rest)

end

mutual

/-- Whether some negation denies nothing. -/
def hasEmptyNegation : Node → Bool
  | group op children => (op == .not && children.isEmpty) || anyEmptyNegation children
  | _ => false

def anyEmptyNegation : List Node → Bool
  | [] => false
  | node :: rest => hasEmptyNegation node || anyEmptyNegation rest

end

end Node

/-- Facts about a query. Models and fields are sorted and occur once. -/
structure Analysis where
  models : List String
  fields : List FieldRef
  comparisonCount : Nat
  groupDepth : Nat
  hasNullChecks : Bool
  hasLists : Bool
  hasOrdering : Bool
  hasLimit : Bool
deriving DecidableEq, Repr

/-- A sorted list without repetitions of the elements of a list. -/
def sortedSet {α : Type} [BEq α] (before : α → α → Bool) (items : List α) : List α :=
  items.eraseDups.mergeSort before

namespace Query

/-- The fields of the filter and of the ordering. -/
def fields (q : Query) : List FieldRef :=
  (q.filter.map Node.fields).getD [] ++ q.ordering.map Prod.fst

def comparisons (q : Query) : List Comparison := (q.filter.map Node.comparisons).getD []

def analyze (q : Query) : Analysis :=
  { models := sortedSet (fun a b => decide (a ≤ b)) (q.fields.map FieldRef.model)
    fields := sortedSet FieldRef.before q.fields
    comparisonCount := q.comparisons.length
    groupDepth := (q.filter.map Node.depth).getD 0
    hasNullChecks := q.comparisons.any fun c => c.right.isNull
    hasLists := q.comparisons.any fun c => c.right.isList
    hasOrdering := !q.ordering.isEmpty
    hasLimit := q.shape.any fun
      | .orderBy _ _ => false
      | _ => true }

/-- Whether the query can be put to a backend. -/
def validate (q : Query) : Result Unit :=
  let analysis := q.analyze
  match analysis.models.find? fun m => m != q.model.name with
  | some found => .error (.crossModelQuery q.model.name found)
  | none =>
    match analysis.fields.find? fun r => (q.model.field? r.field).isNone with
    | some unknown => .error (.invalidQuery (.unknownField q.model.name unknown.field))
    | none =>
      if q.filter.any Node.hasEmptyNegation then .error (.invalidQuery .emptyNegation)
      else .ok ()

/-- The filter of several conditions: one stands alone, more are joined by and. -/
def filterOf : List Node → Option Node
  | [] => none
  | [node] => some node
  | nodes => some (Node.all nodes)

/-- The query of all rows that the conditions hold for. -/
def build (model : Schema) (nodes : List Node) : Result Query := do
  let q : Query := ⟨model, filterOf nodes, []⟩
  q.validate
  pure q

end Query

/-- The column of a field, seen from a model. -/
def Schema.columnOf (s : Schema) (r : FieldRef) : Result String :=
  if r.model ≠ s.name then .error (.crossModelQuery s.name r.model)
  else
    match s.field? r.field with
    | some f => .ok f.column
    | none => .error (.invalidQuery (.unknownField s.name r.field))

end ModelMapper
