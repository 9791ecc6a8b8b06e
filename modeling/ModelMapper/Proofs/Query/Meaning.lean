import ModelMapper.Proofs.Time.Order
import ModelMapper.Query.Analysis

/-! # What filters mean

The direct reading of a filter tree on a record, which every backend is held against.

* `Value.agrees`, `Value.order?` — equality of values and their natural order.
* `Operator.holds`, `Comparison.holds`, `Node.holds`, `Query.holds` — the tree, with truth
  values only.
* `Value.Fits` — the values of a type that every backend keeps as they are.
* `Record.Typed`, `Comparison.Typed`, `Query.Typed` — records and filters of such values.
-/

namespace ModelMapper

/-! ## Values -/

namespace Value

/-- Equality of values; null is equal to null, and floats are compared as numbers. -/
def agrees : Value → Value → Bool
  | .float x, .float y => x.equals y
  | v, w => v == w

/-- The natural order of two values of a type. Null has no place in it. -/
def order? : Value → Value → Option Ordering
  | .bool a, .bool b => some (Ord.compare a b)
  | .int a, .int b => some (Ord.compare a.toInt b.toInt)
  | .float x, .float y => x.compare? y
  | .text a, .text b => some (Ord.compare a b)
  | .bytes a, .bytes b => some (List.compareLex Ord.compare a b)
  | .timestamp a, .timestamp b => some (a.compare b)
  | _, _ => none

/-- The values of a type that every backend keeps: floats are finite, and timestamps lie
    between the years 0 and 9999, with leap seconds at the ends of minutes only (`Timestamp.Civil`).
    Null is of every type. -/
inductive Fits : FieldType → Value → Prop where
  | null (ty : FieldType) : Fits ty .null
  | bool (b : Bool) : Fits .bool (.bool b)
  | int (i : Int64) : Fits .int (.int i)
  | float {x : Binary64} (h : x.isFinite = true) : Fits .float (.float x)
  | text (s : String) : Fits .text (.text s)
  | bytes (b : List UInt8) : Fits .bytes (.bytes b)
  | timestamp {t : Timestamp} (h : t.Civil) : Fits .timestamp (.timestamp t)

/-- Whether a value is one of a type that every backend keeps. -/
def fits (ty : FieldType) : Value → Bool
  | .null => true
  | .bool _ => ty == .bool
  | .int _ => ty == .int
  | .float x => ty == .float && x.isFinite
  | .text _ => ty == .text
  | .bytes _ => ty == .bytes
  | .timestamp t => ty == .timestamp && decide t.Civil

theorem fits_iff {ty : FieldType} {v : Value} : v.fits ty = true ↔ v.Fits ty := by
  constructor
  · intro h
    cases v with
    | null => exact .null ty
    | float x =>
      obtain ⟨hty, hfinite⟩ := Bool.and_eq_true_iff.1 h
      cases eq_of_beq hty
      exact .float hfinite
    | timestamp t =>
      obtain ⟨hty, hcivil⟩ := Bool.and_eq_true_iff.1 h
      cases eq_of_beq hty
      exact .timestamp (of_decide_eq_true hcivil)
    | _ =>
      cases eq_of_beq h
      constructor
  · intro h
    cases h with
    | float hfinite => exact hfinite
    | timestamp hcivil => exact decide_eq_true hcivil
    | _ => rfl

instance (ty : FieldType) (v : Value) : Decidable (v.Fits ty) := decidable_of_iff _ fits_iff

end Value

/-! ## Filters -/

namespace Operator

/-- The operators that ask for an order. -/
def isOrdering : Operator → Bool
  | gt | gte | lt | lte => true
  | _ => false

/-- An operator between two values. -/
def holds (op : Operator) (v w : Value) : Bool :=
  match op with
  | eq => v.agrees w
  | ne => !v.isNull && !v.agrees w
  | gt => v.order? w == some .gt
  | gte => v.order? w == some .gt || v.order? w == some .eq
  | lt => v.order? w == some .lt
  | lte => v.order? w == some .lt || v.order? w == some .eq
  | contains =>
    match v, w with
    | .text text, .text needle => decide (needle.toList <:+: text.toList)
    | _, _ => false
  -- These take lists.
  | isIn | notIn => false

/-- An operator between a value and a list of values. -/
def holdsOf (op : Operator) (v : Value) (values : List Value) : Bool :=
  match op with
  | isIn => values.any v.agrees
  | notIn => !v.isNull && !values.any v.agrees
  | _ => false

end Operator

/-- A comparison on a record. -/
def Comparison.holds (r : Record) (c : Comparison) : Bool :=
  match c.right with
  | .literal v => c.op.holds (r.value c.left.field) v
  | .field other => c.op.holds (r.value c.left.field) (r.value other.field)
  | .list values => c.op.holdsOf (r.value c.left.field) values

namespace Node

mutual

/-- A tree whose comparisons hold or not. -/
def holds (a : Comparison → Bool) : Node → Bool
  | .comparison c => a c
  | .literal (.bool b) => b
  | .literal _ => false
  | .field _ => false
  | .group .and children => allHold a children
  | .group .or children => anyHolds a children
  | .group .not children => !allHold a children

def allHold (a : Comparison → Bool) : List Node → Bool
  | [] => true
  | node :: rest => holds a node && allHold a rest

def anyHolds (a : Comparison → Bool) : List Node → Bool
  | [] => false
  | node :: rest => holds a node || anyHolds a rest

end

end Node

/-- The filter of a query on a record. -/
def Query.holds (q : Query) (r : Record) : Bool := q.filter.all (Node.holds (Comparison.holds r))

theorem Query.ordering_unshaped {q : Query} (h : q.shape = []) : q.ordering = [] := by
  rw [ordering, h]
  rfl

theorem Query.window_unshaped {q : Query} (h : q.shape = []) : q.window = .whole := by
  rw [window, h]
  rfl

/-! ## Types -/

/-- The fields of the record are fields of the model, and every field has a value of its type. -/
structure Record.Typed (s : Schema) (r : Record) : Prop where
  known : ∀ e ∈ r.toList, (s.field? e.1).isSome = true
  fits : ∀ f ∈ s.fields, (r.value f.name).Fits f.type

instance (s : Schema) (r : Record) : Decidable (r.Typed s) :=
  decidable_of_iff
    ((∀ e ∈ r.toList, (s.field? e.1).isSome = true) ∧
      ∀ f ∈ s.fields, (r.value f.name).Fits f.type)
    ⟨fun h => ⟨h.1, h.2⟩, fun h => ⟨h.known, h.fits⟩⟩

/-- The operand is of the type of the field on the left; bytes are not put in order. -/
structure Comparison.Typed (s : Schema) (c : Comparison) : Prop where
  literal : ∀ v, c.right = .literal v → ∀ f, s.field? c.left.field = some f → v.Fits f.type
  list : ∀ values, c.right = .list values → ∀ f, s.field? c.left.field = some f →
    ∀ v ∈ values, v.Fits f.type
  field : ∀ other, c.right = .field other → ∀ f g, s.field? c.left.field = some f →
    s.field? other.field = some g → g.type = f.type
  ordering : c.op.isOrdering = true → ∀ f, s.field? c.left.field = some f → f.type ≠ .bytes

namespace Comparison

variable {s : Schema} {left : FieldRef} {f : Field} {op : Operator}

theorem Typed.ofLiteral (hf : s.field? left.field = some f) {v : Value} (hv : v.Fits f.type)
    (hordering : op.isOrdering = true → f.type ≠ .bytes) : Typed s ⟨left, op, .literal v⟩ where
  literal w hw g hg := by
    cases hw
    rw [Option.some.inj (hg.symm.trans hf)]
    exact hv
  list _ h := nomatch h
  field _ h := nomatch h
  ordering h g hg := by
    rw [Option.some.inj (hg.symm.trans hf)]
    exact hordering h

theorem Typed.ofList (hf : s.field? left.field = some f) {values : List Value}
    (hvalues : ∀ v ∈ values, v.Fits f.type) (hordering : op.isOrdering = true → f.type ≠ .bytes) :
    Typed s ⟨left, op, .list values⟩ where
  literal _ h := nomatch h
  list ws hw g hg := by
    cases hw
    rw [Option.some.inj (hg.symm.trans hf)]
    exact hvalues
  field _ h := nomatch h
  ordering h g hg := by
    rw [Option.some.inj (hg.symm.trans hf)]
    exact hordering h

end Comparison

/-- Every comparison of the filter is of operands of one type. -/
def Query.Typed (q : Query) : Prop := ∀ c ∈ q.comparisons, c.Typed q.model

end ModelMapper
