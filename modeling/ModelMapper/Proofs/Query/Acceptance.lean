import ModelMapper.Proofs.Document.Filtering
import ModelMapper.Proofs.Sql.Translation
import ModelMapper.Sql.Command

/-! # What translators accept

A query becomes a SQL command or a filter document.  Both descend the filter tree from left to
right and stop at the first fault, so they stop at the same place.  They need not give the same
fault there: a null under `contains` or `in` is to one of them a null, to the other no text and
no list.

* `QueryFault.OfShape` — the faults of a literal, an operand or an operator.
* `Alike` — two outcomes that are both a success or both the same failure, up to faults of shape.
* `Comparison.alike`, `Node.alike`, `Query.alike_condition` — a comparison, a tree and the filter
  of a query.
* `Query.translators_accept_alike` — whole queries, in both dialects.
-/

namespace ModelMapper

open Sql

/-! ## Faults -/

/-- A literal, an operand or an operator is not of the shape that a condition needs. -/
inductive QueryFault.OfShape : QueryFault → Prop where
  | literalAlone (v : Value) : OfShape (.literalAlone v)
  | fieldAlone (r : FieldRef) : OfShape (.fieldAlone r)
  | nullOperand (op : Operator) (left : FieldRef) : OfShape (.nullOperand op left)
  | textExpected (left : FieldRef) (typeName : String) : OfShape (.textExpected left typeName)
  | listExpected (op : Operator) (left : FieldRef) : OfShape (.listExpected op left)
  | fieldOperand (op : Operator) : OfShape (.fieldOperand op)
  | listUnexpected (op : Operator) (left : FieldRef) : OfShape (.listUnexpected op left)

/-- One failure, or two faults of shape. -/
inductive Error.Alike : Error → Error → Prop where
  | same (e : Error) : Alike e e
  | shape {fault other : QueryFault} (h : fault.OfShape) (hother : other.OfShape) :
    Alike (.invalidQuery fault) (.invalidQuery other)

theorem Error.Alike.kind {e e' : Error} (h : e.Alike e') : e.kind = e'.kind := by
  cases h with
  | same => rfl
  | shape => rfl

/-! ## Outcomes -/

/-- Both succeed, or both fail alike. -/
inductive Alike {α β : Type} : Result α → Result β → Prop where
  | ok (a : α) (b : β) : Alike (.ok a) (.ok b)
  | error {e e' : Error} (h : e.Alike e') : Alike (.error e) (.error e')

namespace Alike

variable {α β γ δ : Type} {x : Result α} {y : Result β}

theorem shape {fault other : QueryFault} (h : fault.OfShape) (hother : other.OfShape) :
    Alike (.error (.invalidQuery fault) : Result α) (.error (.invalidQuery other) : Result β) :=
  .error (.shape h hother)

theorem refl (x : Result α) : Alike x x := by
  cases x with
  | ok a => exact .ok a a
  | error e => exact .error (.same e)

/-- One step after another: the second steps are compared where the first ones succeed. -/
theorem bind {f : α → Result γ} {g : β → Result δ} (h : Alike x y)
    (hfg : ∀ a b, x = .ok a → y = .ok b → Alike (f a) (g b)) : Alike (x >>= f) (y >>= g) := by
  cases h with
  | ok a b => exact hfg a b rfl rfl
  | error h => exact .error h

theorem map (f : α → γ) (g : β → δ) (h : Alike x y) : Alike (x.map f) (y.map g) := by
  cases h with
  | ok a b => exact .ok (f a) (g b)
  | error h => exact .error h

theorem isSuccess (h : Alike x y) : x.isSuccess = y.isSuccess := by
  cases h with
  | ok => rfl
  | error => rfl

/-- Neither has failed, or both have with an error of one kind. -/
theorem kind (h : Alike x y) : x.error?.map Error.kind = y.error?.map Error.kind := by
  cases h with
  | ok => rfl
  | error h => exact congrArg some h.kind

theorem mapM {f : α → Result β} {g : α → Result γ} (h : ∀ a, Alike (f a) (g a)) (as : List α) :
    Alike (as.mapM f) (as.mapM g) := by
  induction as with
  | nil => exact .ok [] []
  | cons a as ih =>
    rw [List.mapM_cons, List.mapM_cons]
    exact (h a).bind fun _ _ _ _ => ih.bind fun _ _ _ _ => .ok _ _

end Alike

/-! ## Filters -/

/-- A comparison is a test in SQL exactly if it is a clause of a document. -/
theorem Comparison.alike (s : Schema) (c : Comparison) :
    Alike (Condition.ofComparison s c) (c.toFilter s) := by
  obtain ⟨left, op, right⟩ := c
  refine (Alike.refl (s.columnOf left)).bind fun column _ _ _ => ?_
  cases right with
  | literal v =>
    cases op with
    | contains =>
      cases v with
      | text needle => exact .ok _ _
      | null => exact .shape (.nullOperand _ _) (.textExpected _ _)
      | _ => exact .error (.same _)
    | isIn | notIn =>
      cases v with
      | null => exact .shape (.nullOperand _ _) (.listExpected _ _)
      | _ => exact .error (.same _)
    | eq | ne => cases v <;> exact .ok _ _
    | gt | gte | lt | lte =>
      cases v with
      | null => exact .error (.same _)
      | _ => exact .ok _ _
  | field other =>
    refine (Alike.refl (s.columnOf other)).bind fun _ _ _ _ => ?_
    cases op with
    | isIn | notIn | contains => exact .error (.same _)
    | _ => exact .ok _ _
  | list values =>
    cases op with
    | isIn | notIn => cases values <;> exact .ok _ _
    | _ => exact .error (.same _)

mutual

theorem Node.alike (s : Schema) (node : Node) :
    Alike (Condition.ofNode s node) (node.toFilter s) := by
  cases node with
  | comparison c =>
    rw [Condition.ofNode, Node.toFilter]
    exact c.alike s
  | field r => exact .error (.same _)
  | literal v =>
    cases v with
    | bool b => cases b <;> exact .ok _ _
    | _ => exact .error (.same _)
  | group op children =>
    rw [Condition.ofNode, Node.toFilter]
    refine (Node.alikeAll s children).bind fun parts filters hparts hfilters => ?_
    -- A group of none is decided by its connective on both sides.
    cases children with
    | nil =>
      cases hparts
      cases hfilters
      cases op with
      | and | or => exact .ok _ _
      | not => exact .error (.same _)
    | cons child rest =>
      obtain ⟨_, _, -, -, rfl⟩ := Condition.ofNodes_cons_eq_ok.1 hparts
      obtain ⟨_, _, -, -, rfl⟩ := Node.toFilters_cons_eq_ok.1 hfilters
      cases op <;> exact .ok _ _

theorem Node.alikeAll (s : Schema) (nodes : List Node) :
    Alike (Condition.ofNodes s nodes) (Node.toFilters s nodes) := by
  cases nodes with
  | nil => exact .ok [] []
  | cons node rest =>
    rw [Condition.ofNodes, Node.toFilters]
    exact (Node.alike s node).bind fun _ _ _ _ =>
      (Node.alikeAll s rest).bind fun _ _ _ _ => .ok _ _

end

/-! ## Queries -/

/-- The statement of a translated command: its text in a dialect, with the parameters. -/
def Sql.statement (d : Dialect) (r : Result Command) : Result (String × List Value) :=
  r.map fun c => (c.text d, c.params d)

namespace Query

theorem alike_condition (q : Query) : Alike q.condition q.toFilter := by
  rw [condition, toFilter]
  cases q.filter with
  | none => exact .ok _ _
  | some node =>
    have h := (node.alike q.model).map some id
    rwa [Except.map_id] at h

theorem alike_order (q : Query) : Alike q.columnOrder q.sortColumns :=
  .mapM (fun (r, _) => (Alike.refl (q.model.columnOf r)).map _ _) q.ordering

theorem toCount_eq (q : Query) : q.toCount = q.condition.map (.count q.model.table) := by
  rw [toCount]
  cases q.condition <;> rfl

theorem toDelete_eq (q : Query) : q.toDelete = q.condition.map (.delete q.model.table) := by
  rw [toDelete]
  cases q.condition <;> rfl

/-- Selecting asks for the filter before the order and finding after it, so with a fault in both
    they fail differently. -/
theorem isSuccess_toSelect (q : Query) :
    q.toSelect.isSuccess = (q.condition.isSuccess && q.columnOrder.isSuccess) := by
  rw [toSelect]
  cases q.condition <;> cases q.columnOrder <;> rfl

theorem isSuccess_toFind (q : Query) :
    q.toFind.isSuccess = (q.sortColumns.isSuccess && q.toFilter.isSuccess) := by
  rw [toFind]
  cases q.sortColumns <;> cases q.toFilter <;> rfl

/-- A count and a deletion succeed when the filter document does and else fail with an error of the
    same kind, and a selection succeeds when the search does, whatever dialect the statements are
    written in. -/
theorem translators_accept_alike (q : Query) (d : Dialect) :
    (statement d q.toCount).error?.map Error.kind = q.toFilter.error?.map Error.kind ∧
      (statement d q.toDelete).error?.map Error.kind = q.toFilter.error?.map Error.kind ∧
      (statement d q.toSelect).isSuccess = q.toFind.isSuccess := by
  have hfilter : q.condition.error?.map Error.kind = q.toFilter.error?.map Error.kind :=
    q.alike_condition.kind
  refine ⟨?_, ?_, ?_⟩
  · rw [toCount_eq, ← hfilter]
    cases q.condition <;> rfl
  · rw [toDelete_eq, ← hfilter]
    cases q.condition <;> rfl
  · have hselect : (statement d q.toSelect).isSuccess = q.toSelect.isSuccess := by
      cases q.toSelect <;> rfl
    rw [hselect, isSuccess_toSelect, isSuccess_toFind, q.alike_condition.isSuccess,
      q.alike_order.isSuccess, Bool.and_comm]

end Query

end ModelMapper
