import ModelMapper.Proofs.Result
import ModelMapper.Sql.Condition

/-! # What becomes a condition

The filter trees that have a condition, and which one.

* `Condition.Tests` — the comparisons that have a test, each with its test.
* `Condition.ofComparison_eq_ok` — these and no others are translated.
* `Condition.ofNode_group_eq_ok` — a group is translated when its children are.
-/

namespace ModelMapper.Sql.Condition

/-- A comparison and the test it becomes. The fields have columns, and the operator takes the
    operand. -/
inductive Tests (s : Schema) : Comparison → Condition → Prop where
  | isNull {left : FieldRef} {column : String} (hleft : s.columnOf left = .ok column) :
    Tests s ⟨left, .eq, .literal .null⟩ (.isNull column)
  | isNotNull {left : FieldRef} {column : String} (hleft : s.columnOf left = .ok column) :
    Tests s ⟨left, .ne, .literal .null⟩ (.isNotNull column)
  | like {left : FieldRef} {column : String} (hleft : s.columnOf left = .ok column)
      (needle : String) :
    Tests s ⟨left, .contains, .literal (.text needle)⟩ (.like column (containsPattern needle))
  | compare {left : FieldRef} {column : String} (hleft : s.columnOf left = .ok column)
      {op : Operator} {rel : Relation} (hrel : Relation.ofOperator? op = some rel) {v : Value}
      (hv : v ≠ .null) :
    Tests s ⟨left, op, .literal v⟩ (.compare column rel v)
  | compareColumns {left other : FieldRef} {column otherColumn : String}
      (hleft : s.columnOf left = .ok column) (hother : s.columnOf other = .ok otherColumn)
      {op : Operator} {rel : Relation} (hrel : Relation.ofOperator? op = some rel) :
    Tests s ⟨left, op, .field other⟩ (.compareColumns column rel otherColumn)
  | memberOfNone {left : FieldRef} {column : String} (hleft : s.columnOf left = .ok column)
      {op : Operator} (hop : op.takesList = true) :
    Tests s ⟨left, op, .list []⟩ (.truth (op == .notIn))
  | member {left : FieldRef} {column : String} (hleft : s.columnOf left = .ok column)
      {op : Operator} (hop : op.takesList = true) {values : List Value} (hne : values ≠ []) :
    Tests s ⟨left, op, .list values⟩ (.member column (op == .notIn) values)

theorem ofComparison_eq_ok {s : Schema} {cmp : Comparison} {c : Condition} :
    ofComparison s cmp = .ok c ↔ Tests s cmp c := by
  constructor
  · intro h
    obtain ⟨left, op, right⟩ := cmp
    obtain ⟨column, hleft, h⟩ := Result.bind_eq_ok.1 h
    cases right with
    | literal v =>
      cases v with
      | null =>
        cases op with
        | eq =>
          cases h
          exact .isNull hleft
        | ne =>
          cases h
          exact .isNotNull hleft
        | _ => cases h
      | text needle =>
        cases op with
        | contains =>
          cases h
          exact .like hleft needle
        | isIn => cases h
        | notIn => cases h
        | _ =>
          cases h
          exact .compare hleft rfl nofun
      | _ =>
        cases op with
        | contains => cases h
        | isIn => cases h
        | notIn => cases h
        | _ =>
          cases h
          exact .compare hleft rfl nofun
    | field other =>
      obtain ⟨otherColumn, hother, h⟩ := Result.bind_eq_ok.1 h
      cases hrel : Relation.ofOperator? op with
      | none =>
        simp only [hrel] at h
        cases h
      | some rel =>
        simp only [hrel] at h
        cases h
        exact .compareColumns hleft hother hrel
    | list values =>
      dsimp only at h
      split at h
      · next hop =>
        cases values with
        | nil =>
          cases h
          exact .memberOfNone hleft hop
        | cons v values =>
          cases h
          exact .member hleft hop nofun
      · cases h
  · intro h
    cases h with
    | isNull hleft =>
      simp only [ofComparison, hleft]
      rfl
    | isNotNull hleft =>
      simp only [ofComparison, hleft]
      rfl
    | like hleft needle =>
      simp only [ofComparison, hleft]
      rfl
    | @compare left column hleft op rel hrel v hv =>
      simp only [ofComparison, hleft]
      cases op <;> cases v <;> cases hrel <;> rfl
    | compareColumns hleft hother hrel =>
      simp only [ofComparison, hleft, hother, hrel]
      rfl
    | memberOfNone hleft hop =>
      simp only [ofComparison, hleft, hop]
      rfl
    | @member left column hleft op hop values hne =>
      simp only [ofComparison, hleft, hop]
      cases values with
      | nil => exact absurd rfl hne
      | cons v values => rfl

/-- A group is a group of its translated children. A group of none is true or false; nothing
    cannot be denied. -/
theorem ofNode_group_eq_ok {s : Schema} {op : Connective} {children : List Node} {c : Condition} :
    ofNode s (.group op children) = .ok c ↔ ∃ parts, ofNodes s children = .ok parts ∧
      match op, parts with
      | .and, [] => c = .truth true
      | .or, [] => c = .truth false
      | .not, [] => False
      | op, parts => c = .group op parts := by
  rw [ofNode, Result.bind_eq_ok]
  refine exists_congr fun parts => and_congr_right fun _ => ?_
  cases op <;> cases parts <;>
    simp only [Result.pure_eq_ok, Result.throw_eq_error, Except.ok.injEq, reduceCtorEq, eq_comm]

theorem ofNodes_cons_eq_ok {s : Schema} {node : Node} {rest : List Node} {cs : List Condition} :
    ofNodes s (node :: rest) = .ok cs ↔ ∃ c tail, ofNode s node = .ok c ∧
      ofNodes s rest = .ok tail ∧ cs = c :: tail := by
  simp only [ofNodes, Result.bind_eq_ok, Result.pure_eq_ok, Except.ok.injEq]
  constructor
  · rintro ⟨c, hc, tail, htail, rfl⟩
    exact ⟨c, tail, hc, htail, rfl⟩
  · rintro ⟨c, tail, hc, htail, rfl⟩
    exact ⟨c, hc, tail, htail, rfl⟩

end ModelMapper.Sql.Condition
