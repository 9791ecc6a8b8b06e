import ModelMapper.Proofs.Document.Filtering
import ModelMapper.Proofs.Mapper.Ties
import ModelMapper.Proofs.Sql.Translation
import ModelMapper.Query.Comparing
import ModelMapper.Sqlite.Evaluation

/-! # The sides of a comparison

A comparison with its value on the left is built the other way round.  It holds where it would
have held as it was written.

* `Doc.relates`, `Value.relates` — an operator between a value and what a column holds, the
  value first, in memory and in the engine.
* `Doc.equals_comm`, `Doc.compare?_swap`, `Sqlite.Cell.compare?_swap` — the two sides of a
  comparison change places.
* `Comparison.ofNodes_eq_ok` — what is built of a value and a field.
* `Comparison.satisfies_turned`, `Comparison.evaluate_turned` — where it holds.
-/

namespace ModelMapper

/-! ## A value before a column -/

/-- A value and what a column holds, in this order. Nothing is different from a null. -/
def Doc.relates (v : Doc) (op : Operator) (held : Doc) : Bool :=
  match op with
  | .eq => v.equals held
  | .ne => !Document.isNull held && !v.equals held
  | .gt => v.compare? held == some .gt
  | .gte => v.compare? held == some .gt || v.compare? held == some .eq
  | .lt => v.compare? held == some .lt
  | .lte => v.compare? held == some .lt || v.compare? held == some .eq
  -- These are no relations between a value and a column.
  | .isIn | .notIn | .contains => false

/-- A bound value and a column, in this order. The null is a test for null, in any other
    comparison a null makes the answer unknown. -/
def Value.relates (v : Value) (op : Operator) (held : Sqlite.Term) : Truth :=
  match v, op with
  | .null, .eq => some held.cell.isNull
  | .null, .ne => some !held.cell.isNull
  | v, op =>
    let a := held.affinity.getD .blob
    (Sql.Relation.ofOperator? op).bind fun rel =>
      ((a.compared (.ofValue v)).compare? (a.compared held.cell)).map rel.holds

/-! ## Sides change places -/

/-- An order of two things asked for from the other side. -/
theorem swapped_beq (found : Option Ordering) (o : Ordering) :
    (found.map Ordering.swap == some o) = (found == some o.swap) := by
  rcases found with _ | (_ | _ | _) <;> cases o <;> rfl

theorem Binary64.equals_comm (x y : Binary64) : x.equals y = y.equals x := by
  rw [equals, equals, x.compare?_swap y]
  exact swapped_beq _ .eq

namespace Doc

mutual

theorem same_comm : ∀ a b : Doc, same a b = same b a
  | null, b => by cases b <;> rfl
  | bool _, b | int _, b | text _, b => by
    cases b <;> first | rfl | exact Bool.beq_comm
  | float x, b => by
    cases b with
    | float y => exact x.equals_comm y
    | _ => rfl
  | list as, b => by
    cases b with
    | list bs => exact sameItems_comm as bs
    | _ => rfl
  | object as, b => by
    cases b with
    | object bs => exact sameEntries_comm as bs
    | _ => rfl

theorem sameItems_comm : ∀ as bs : List Doc, sameItems as bs = sameItems bs as
  | [], [] | [], _ :: _ | _ :: _, [] => rfl
  | a :: as, b :: bs => by
    rw [sameItems, sameItems, same_comm a b, sameItems_comm as bs]

theorem sameEntries_comm : ∀ as bs : List (String × Doc), sameEntries as bs = sameEntries bs as
  | [], [] | [], _ :: _ | _ :: _, [] => rfl
  | (k, a) :: as, (l, b) :: bs => by
    rw [sameEntries, sameEntries, same_comm a b, sameEntries_comm as bs, Bool.beq_comm]

end

theorem equals_comm (a b : Doc) : a.equals b = b.equals a := by
  rw [equals, equals, Bool.and_comm, compareNumbers?_swap a b, same_comm a b, swapped_beq]
  rfl

end Doc

namespace Sqlite.Cell

theorem compareBytes_swap (as bs : List UInt8) :
    compareBytes as bs = (compareBytes bs as).swap := by
  induction as generalizing bs with
  | nil => cases bs <;> rfl
  | cons a as ih =>
    cases bs with
    | nil => rfl
    | cons b bs =>
      have hhead : Ord.compare a.toNat b.toNat = (Ord.compare b.toNat a.toNat).swap :=
        Std.OrientedCmp.eq_swap
      rw [compareBytes, compareBytes, Ordering.swap_then, hhead, ih]

theorem compare_swap (a b : Cell) : a.compare b = (b.compare a).swap := by
  have hclasses : (Ord.compare a.rank b.rank).then (Ord.compare a.scaled b.scaled) =
      ((Ord.compare b.rank a.rank).then (Ord.compare b.scaled a.scaled)).swap := by
    have hrank : Ord.compare a.rank b.rank = (Ord.compare b.rank a.rank).swap :=
      Std.OrientedCmp.eq_swap
    have hscaled : Ord.compare a.scaled b.scaled = (Ord.compare b.scaled a.scaled).swap :=
      Std.OrientedCmp.eq_swap
    rw [Ordering.swap_then, hrank, hscaled]
  -- Two integers, two texts and two blobs compare as such, all other cells by class and value.
  cases a with
  | null | real _ => cases b <;> exact hclasses
  | integer i =>
    cases b with
    | integer j =>
      show Ord.compare i.toInt j.toInt = (Ord.compare j.toInt i.toInt).swap
      exact Std.OrientedCmp.eq_swap
    | _ => exact hclasses
  | text s =>
    cases b with
    | text t =>
      show Ord.compare s t = (Ord.compare t s).swap
      exact Std.OrientedCmp.eq_swap
    | _ => exact hclasses
  | blob x =>
    cases b with
    | blob y => exact compareBytes_swap x y
    | _ => exact hclasses

theorem compare?_swap (a b : Cell) : a.compare? b = (b.compare? a).map Ordering.swap := by
  rw [compare?, compare?, Bool.or_comm, a.compare_swap b]
  split <;> rfl

end Sqlite.Cell

/-! ## Turned comparisons -/

/-- The flipped operator on two documents is the operator between them in the other order. -/
theorem Operator.applyOperator_flipped {op flipped : Operator} (h : op.flipped? = some flipped)
    (v held : Doc) :
    Document.applyOperator flipped.documentKey held v = .ok (v.relates op held) := by
  have horder (o : Ordering) : (held.compare? v == some o) = (v.compare? held == some o.swap) := by
    rw [Doc.compare?_swap held v, swapped_beq]
  cases op with
  | isIn | notIn | contains => cases h
  | eq =>
    cases h
    exact congrArg Except.ok (held.equals_comm v)
  | ne =>
    cases h
    exact congrArg (fun b => Except.ok (!Document.isNull held && !b)) (held.equals_comm v)
  | gt =>
    cases h
    exact congrArg Except.ok (horder .lt)
  | gte =>
    cases h
    exact congrArg Except.ok (congrArg₂ or (horder .lt) (horder .eq))
  | lt =>
    cases h
    exact congrArg Except.ok (horder .gt)
  | lte =>
    cases h
    exact congrArg Except.ok (congrArg₂ or (horder .gt) (horder .eq))

theorem Sql.Relation.ofOperator?_flipped {op flipped : Operator} (h : op.flipped? = some flipped) :
    ∃ rel turned, Relation.ofOperator? op = some rel ∧
      Relation.ofOperator? flipped = some turned ∧ ∀ o, turned.holds o = rel.holds o.swap := by
  cases op <;> cases h <;> exact ⟨_, _, rfl, rfl, by rintro (_ | _ | _) <;> rfl⟩

/-- The flipped relation of a column to a value is the relation between them in the other order. -/
theorem Value.relates_eq_compareValue {op flipped : Operator} {turned : Sql.Relation}
    (h : op.flipped? = some flipped) (hturned : Sql.Relation.ofOperator? flipped = some turned)
    {v : Value} (hv : v ≠ .null) (held : Sqlite.Term) :
    Sqlite.Table.compareValue held turned v = v.relates op held := by
  obtain ⟨rel, turned', hrel, hturned', hholds⟩ := Sql.Relation.ofOperator?_flipped h
  cases hturned.symm.trans hturned'
  have hrelates : v.relates op held = (((held.affinity.getD .blob).compared (.ofValue v)).compare?
      ((held.affinity.getD .blob).compared held.cell)).map rel.holds := by
    rw [relates.eq_def]
    cases v <;> first | exact absurd rfl hv | simp only [hrel, Option.bind_some]
  rw [hrelates, Sqlite.Table.compareValue, Sqlite.Cell.compare?_swap, Option.map_map]
  exact congrFun (congrArg Option.map (funext fun o => by
    rw [Function.comp_apply, hholds, Ordering.swap_swap])) _

namespace Comparison

variable {v : Value} {op : Operator} {r : FieldRef} {c : Comparison}

/-- A value and a field become the field, the flipped operator and the value. -/
theorem ofNodes_eq_ok : ofNodes (.literal v) op (.field r) = .ok c ↔
    ∃ flipped, op.flipped? = some flipped ∧ c = ⟨r, flipped, .literal v⟩ := by
  constructor
  · intro h
    cases op <;> cases h <;> exact ⟨_, rfl, rfl⟩
  · rintro ⟨flipped, hflipped, rfl⟩
    cases op <;> cases hflipped <;> rfl

/-- It holds for a document where it would have held as it was written. -/
theorem satisfies_turned {s : Schema} (h : ofNodes (.literal v) op (.field r) = .ok c)
    {filter : Doc} (hfilter : c.toFilter s = .ok filter) :
    ∃ column condition, s.columnOf r = .ok column ∧ filter = .single column condition ∧
      ∀ d : Document,
        Document.matchesField (d.column column) condition =
          .ok (v.toDoc.relates op (d.column column)) ∧
        (column ∉ Document.clauseKeys →
          d.satisfies filter = .ok (v.toDoc.relates op (d.column column))) := by
  obtain ⟨flipped, hflipped, rfl⟩ := ofNodes_eq_ok.1 h
  cases toFilter_eq_ok.1 hfilter with
  | pattern hleft needle => cases op <;> cases hflipped
  | @literal _ column hleft _ hcontains hlist _ hnull =>
    have hcondition (d : Document) :
        Document.matchesField (d.column column) (.single flipped.documentKey v.toDoc) =
          .ok (v.toDoc.relates op (d.column column)) := by
      rw [Document.matchesField_single flipped.isOperatorKey_documentKey]
      exact Operator.applyOperator_flipped hflipped _ _
    refine ⟨column, _, hleft, rfl, fun d => ⟨hcondition d, fun hcolumn => ?_⟩⟩
    rw [Document.satisfies_single, Doc.single, Document.satisfiesClause_of_not_mem d hcolumn]
    exact hcondition d

/-- It is true of a row, or unknown, where it would have been so as it was written. -/
theorem evaluate_turned {s : Schema} (h : ofNodes (.literal v) op (.field r) = .ok c)
    {condition : Sql.Condition} (hcondition : Sql.Condition.ofComparison s c = .ok condition) :
    ∃ column, s.columnOf r = .ok column ∧ ∀ (t : Sqlite.Table) (row : Sqlite.Row),
      t.evaluate row condition = v.relates op (t.term row column) := by
  obtain ⟨flipped, hflipped, rfl⟩ := ofNodes_eq_ok.1 h
  cases Sql.Condition.ofComparison_eq_ok.1 hcondition with
  | like hleft needle => cases op <;> cases hflipped
  | isNull hleft =>
    refine ⟨_, hleft, fun t row => ?_⟩
    cases op <;> cases hflipped
    rfl
  | isNotNull hleft =>
    refine ⟨_, hleft, fun t row => ?_⟩
    cases op <;> cases hflipped
    rfl
  | compare hleft hrel hv =>
    exact ⟨_, hleft, fun t row => Value.relates_eq_compareValue hflipped hrel hv _⟩

end Comparison

end ModelMapper
