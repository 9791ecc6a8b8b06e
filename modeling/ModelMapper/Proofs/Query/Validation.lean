import ModelMapper.Proofs.Query.Acceptance

/-! # What validation promises

A query that does not validate cannot be translated, and one that does fails in translation only
for the shape of a literal, an operand or an operator.  Validation looks at the set of all fields
and at the negations apart; translation meets both on its way through the tree.

* `Checks` — an outcome that tells whether a property holds, up to faults of shape.
* `Query.validate_eq_ok` — what validation asks of a query.
* `Node.checks`, `Query.checks_toSelect`, `Query.checks_toFind` — translation asks for the same.
* `Query.validation_decides_translation` — the two sides of it.
-/

namespace ModelMapper

open Sql

/-! ## Outcomes that tell -/

def Error.OfShape (e : Error) : Prop := ∃ fault, e = .invalidQuery fault ∧ fault.OfShape

theorem Error.Alike.ofShape {e e' : Error} (h : e.Alike e') (hshape : e.OfShape) : e'.OfShape := by
  cases h with
  | same => exact hshape
  | shape _ hother => exact ⟨_, rfl, hother⟩

/-- A success shows the property, and where it holds a failure is for a fault of shape. -/
structure Checks {α : Type} (p : Prop) (x : Result α) : Prop where
  of_ok : ∀ {a}, x = .ok a → p
  of_error : ∀ {e}, x = .error e → p → e.OfShape

namespace Checks

variable {α β : Type} {p p' : Prop} {x : Result α}

theorem ok (hp : p) (a : α) : Checks p (.ok a : Result α) := ⟨fun _ => hp, nofun⟩

theorem shape {fault : QueryFault} (h : fault.OfShape) :
    Checks p (.error (.invalidQuery fault) : Result α) :=
  ⟨nofun, fun heq _ => ⟨fault, (Except.error.inj heq).symm, h⟩⟩

theorem refused (hp : ¬p) (e : Error) : Checks p (.error e : Result α) :=
  ⟨nofun, fun _ h => absurd h hp⟩

theorem congr (h : Checks p x) (hp : p ↔ p') : Checks p' x :=
  ⟨fun hx => hp.1 (h.of_ok hx), fun hx hp' => h.of_error hx (hp.2 hp')⟩

theorem exists_error (h : Checks p x) (hp : ¬p) : ∃ e, x = .error e := by
  cases x with
  | error e => exact ⟨e, rfl⟩
  | ok a => exact absurd (h.of_ok rfl) hp

/-- A second step adds what it checks. -/
theorem bind {f : α → Result β} (h : Checks p x) (hf : ∀ a, x = .ok a → Checks p' (f a)) :
    Checks (p ∧ p') (x >>= f) := by
  cases x with
  | error e => exact ⟨nofun, fun heq hp => Except.error.inj heq ▸ h.of_error rfl hp.1⟩
  | ok a => exact (hf a rfl).congr (and_iff_right (h.of_ok rfl)).symm

/-- A second step that checks nothing. -/
theorem bind_free {f : α → Result β} (h : Checks p x) (hf : ∀ a, Checks True (f a)) :
    Checks p (x >>= f) := (h.bind fun a _ => hf a).congr (iff_of_eq (and_true p))

theorem map (h : Checks p x) (f : α → β) : Checks p (x.map f) := by
  cases x with
  | error e => exact ⟨nofun, fun heq hp => Except.error.inj heq ▸ h.of_error rfl hp⟩
  | ok a => exact .ok (h.of_ok rfl) (f a)

theorem mapM {p : α → Prop} {f : α → Result β} (h : ∀ a, Checks (p a) (f a)) (as : List α) :
    Checks (∀ a ∈ as, p a) (as.mapM f) := by
  induction as with
  | nil => exact .ok nofun []
  | cons a as ih =>
    rw [List.mapM_cons]
    refine ((h a).bind fun b _ => ?_).congr List.forall_mem_cons.symm
    exact ih.bind_free fun bs => .ok trivial (b :: bs)

/-- Outcomes that are alike tell the same. -/
theorem alike {y : Result β} (h : Checks p x) (hxy : Alike x y) : Checks p y := by
  cases hxy with
  | ok a b => exact .ok (h.of_ok rfl) b
  | error he => exact ⟨nofun, fun heq hp => Except.error.inj heq ▸ he.ofShape (h.of_error rfl hp)⟩

end Checks

/-! ## Translation -/

/-- A field of the model. -/
def Schema.Has (s : Schema) (r : FieldRef) : Prop :=
  r.model = s.name ∧ (s.field? r.field).isSome = true

instance (s : Schema) (r : FieldRef) : Decidable (s.Has r) :=
  inferInstanceAs (Decidable (_ ∧ _))

theorem Schema.checks_columnOf (s : Schema) (r : FieldRef) : Checks (s.Has r) (s.columnOf r) := by
  rw [columnOf]
  by_cases hmodel : r.model = s.name
  · rw [if_neg (not_not.2 hmodel)]
    cases hfield : s.field? r.field with
    | some f => exact .ok ⟨hmodel, by rw [hfield]; rfl⟩ _
    | none =>
      refine .refused (fun h => ?_) _
      rw [Has, hfield] at h
      cases h.2
  · rw [if_pos hmodel]
    exact .refused (fun h => hmodel h.1) _

theorem Comparison.checks (s : Schema) (c : Comparison) :
    Checks (∀ r ∈ c.left :: c.right.fields, s.Has r) (Condition.ofComparison s c) := by
  obtain ⟨left, op, right⟩ := c
  refine ((s.checks_columnOf left).bind fun column _ => ?_).congr List.forall_mem_cons.symm
  cases right with
  | literal v =>
    cases op with
    | contains =>
      cases v with
      | text needle => exact .ok nofun _
      | null => exact .shape (.nullOperand _ _)
      | _ => exact .shape (.textExpected _ _)
    | isIn | notIn =>
      cases v with
      | null => exact .shape (.nullOperand _ _)
      | _ => exact .shape (.listExpected _ _)
    | eq | ne => cases v <;> exact .ok nofun _
    | gt | gte | lt | lte =>
      cases v with
      | null => exact .shape (.nullOperand _ _)
      | _ => exact .ok nofun _
  | field other =>
    refine ((s.checks_columnOf other).bind_free fun _ => ?_).congr List.forall_mem_singleton.symm
    cases op with
    | isIn | notIn | contains => exact .shape (.fieldOperand _)
    | _ => exact .ok trivial _
  | list values =>
    cases op with
    | isIn | notIn => cases values <;> exact .ok nofun _
    | _ => exact .shape (.listUnexpected _ _)

namespace Node

/-- The fields are the model's, and no negation denies nothing. -/
def Sensible (s : Schema) (node : Node) : Prop :=
  (∀ r ∈ node.fields, s.Has r) ∧ node.hasEmptyNegation = false

def AllSensible (s : Schema) (nodes : List Node) : Prop :=
  (∀ r ∈ fieldsOf nodes, s.Has r) ∧ anyEmptyNegation nodes = false

theorem allSensible_cons {s : Schema} {node : Node} {rest : List Node} :
    AllSensible s (node :: rest) ↔ node.Sensible s ∧ AllSensible s rest := by
  simp only [AllSensible, Sensible, fieldsOf, anyEmptyNegation, List.forall_mem_append,
    Bool.or_eq_false_iff]
  tauto

theorem sensible_group {s : Schema} {op : Connective} {children : List Node} :
    (group op children).Sensible s ↔ AllSensible s children ∧ ¬(op = .not ∧ children = []) := by
  simp only [AllSensible, Sensible, fields, hasEmptyNegation, Bool.or_eq_false_iff,
    Bool.and_eq_false_iff, beq_eq_false_iff_ne, List.isEmpty_eq_false_iff]
  tauto

mutual

theorem checks (s : Schema) (node : Node) :
    Checks (node.Sensible s) (Condition.ofNode s node) := by
  cases node with
  | comparison c =>
    rw [Condition.ofNode]
    refine (c.checks s).congr ⟨fun h => ⟨?_, rfl⟩, fun h => ?_⟩
    · rwa [fields]
    · simpa only [fields] using h.1
  | field r => exact .shape (.fieldAlone r)
  | literal v =>
    cases v with
    | bool b => exact .ok ⟨nofun, rfl⟩ _
    | _ => exact .shape (.literalAlone _)
  | group op children =>
    rw [Condition.ofNode]
    refine ((checksAll s children).bind fun parts hparts => ?_).congr sensible_group.symm
    cases children with
    | nil =>
      cases hparts
      cases op with
      | and | or => exact .ok nofun _
      | not => exact .refused (fun h => h ⟨rfl, rfl⟩) _
    | cons child rest =>
      obtain ⟨_, _, -, -, rfl⟩ := Condition.ofNodes_cons_eq_ok.1 hparts
      cases op <;> exact .ok nofun _

theorem checksAll (s : Schema) (nodes : List Node) :
    Checks (AllSensible s nodes) (Condition.ofNodes s nodes) := by
  cases nodes with
  | nil => exact .ok ⟨nofun, rfl⟩ _
  | cons node rest =>
    rw [Condition.ofNodes]
    refine ((checks s node).bind fun _ _ => ?_).congr allSensible_cons.symm
    exact (checksAll s rest).bind_free fun _ => .ok trivial _

end

end Node

/-! ## Queries -/

theorem mem_sortedSet {α : Type} [BEq α] [LawfulBEq α] {before : α → α → Bool} {items : List α}
    {a : α} : a ∈ sortedSet before items ↔ a ∈ items := by
  rw [sortedSet, List.mem_mergeSort, List.mem_eraseDups]

namespace Query

/-- All fields are the model's, and no negation denies nothing. -/
def Sensible (q : Query) : Prop :=
  (∀ r ∈ q.fields, q.model.Has r) ∧ q.filter.any Node.hasEmptyNegation = false

instance (q : Query) : Decidable q.Sensible := inferInstanceAs (Decidable (_ ∧ _))

theorem find?_models {q : Query} :
    (q.analyze.models.find? fun m => m != q.model.name) = none ↔
      ∀ r ∈ q.fields, r.model = q.model.name := by
  simp only [analyze, List.find?_eq_none, mem_sortedSet, List.forall_mem_map, bne_iff_ne, ne_eq,
    not_not]

theorem find?_fields {q : Query} :
    (q.analyze.fields.find? fun r => (q.model.field? r.field).isNone) = none ↔
      ∀ r ∈ q.fields, (q.model.field? r.field).isSome = true := by
  simp only [analyze, List.find?_eq_none, mem_sortedSet, Option.isNone_iff_eq_none, ← ne_eq,
    Option.ne_none_iff_isSome]

theorem validate_eq_ok {q : Query} : q.validate = .ok () ↔ q.Sensible := by
  have hfields : (∀ r ∈ q.fields, q.model.Has r) ↔
      (∀ r ∈ q.fields, r.model = q.model.name) ∧
        ∀ r ∈ q.fields, (q.model.field? r.field).isSome = true :=
    ⟨fun h => ⟨fun r hr => (h r hr).1, fun r hr => (h r hr).2⟩,
      fun h r hr => ⟨h.1 r hr, h.2 r hr⟩⟩
  rw [Sensible, hfields, ← find?_models, ← find?_fields, validate]
  cases q.analyze.models.find? fun m => m != q.model.name with
  | some found => simp
  | none =>
    cases q.analyze.fields.find? fun r => (q.model.field? r.field).isNone with
    | some unknown => simp
    | none => cases q.filter.any Node.hasEmptyNegation <;> simp

theorem checks_condition (q : Query) :
    Checks ((∀ r ∈ (q.filter.map Node.fields).getD [], q.model.Has r) ∧
      q.filter.any Node.hasEmptyNegation = false) q.condition := by
  rw [condition]
  cases q.filter with
  | none => exact .ok ⟨fun _ hr => absurd hr List.not_mem_nil, rfl⟩ _
  | some node => exact (node.checks q.model).map some

theorem checks_columnOrder (q : Query) :
    Checks (∀ r ∈ q.ordering.map Prod.fst, q.model.Has r) q.columnOrder :=
  (Checks.mapM (fun (r, _) => (q.model.checks_columnOf r).map _) q.ordering).congr
    List.forall_mem_map.symm

/-- The fields of a query are those of its filter and those of its order. -/
theorem sensible_iff {q : Query} : q.Sensible ↔
    ((∀ r ∈ (q.filter.map Node.fields).getD [], q.model.Has r) ∧
      q.filter.any Node.hasEmptyNegation = false) ∧
    ∀ r ∈ q.ordering.map Prod.fst, q.model.Has r := by
  rw [Sensible, fields, List.forall_mem_append, and_right_comm]

theorem checks_toSelect (q : Query) : Checks q.Sensible q.toSelect := by
  refine (q.checks_condition.bind fun _ _ => ?_).congr sensible_iff.symm
  exact q.checks_columnOrder.bind_free fun _ => .ok trivial _

theorem checks_toFind (q : Query) : Checks q.Sensible q.toFind := by
  refine (((q.checks_columnOrder.alike q.alike_order).bind fun _ _ => ?_).congr
    and_comm).congr sensible_iff.symm
  exact (q.checks_condition.alike q.alike_condition).bind_free fun _ => .ok trivial _

/-- A query that does not validate has neither a selection nor a search; where one that validates
    lacks one of them, that is for the shape of a literal, an operand or an operator. -/
theorem validation_decides_translation (q : Query) (d : Dialect) :
    (∀ e, q.validate = .error e →
      (∃ e', statement d q.toSelect = .error e') ∧ ∃ e', q.toFind = .error e') ∧
    (q.validate = .ok () → ∀ e, statement d q.toSelect = .error e ∨ q.toFind = .error e →
      ∃ fault, e = .invalidQuery fault ∧ fault.OfShape) := by
  have hselect : Checks q.Sensible (statement d q.toSelect) := q.checks_toSelect.map _
  constructor
  · intro e he
    have hnot : ¬q.Sensible := fun h => by
      rw [validate_eq_ok.2 h] at he
      cases he
    exact ⟨hselect.exists_error hnot, q.checks_toFind.exists_error hnot⟩
  · intro hvalid e he
    have hsensible : q.Sensible := validate_eq_ok.1 hvalid
    rcases he with he | he
    · exact hselect.of_error he hsensible
    · exact q.checks_toFind.of_error he hsensible

/-- The null under contains is found in translation only, the unknown field already before. -/
theorem validation_decides_translation_of_items :
    let item : Schema := ⟨"Item", [.plain "id" .int, .plain "name" .text]⟩
    let ordered (field : String) : Query :=
      ⟨item, some (FieldRef.test ⟨"Item", "name"⟩ .contains .null),
        [.orderBy ⟨"Item", field⟩ .ascending]⟩
    (∃ e, (ordered "age").validate = .error e) ∧ (∃ e, (ordered "age").toFind = .error e) ∧
    (ordered "id").validate = .ok () ∧
      ∃ fault, (ordered "id").toFind = .error (.invalidQuery fault) ∧ fault.OfShape := by
  intro item ordered
  have hvalid : (ordered "id").validate = .ok () := validate_eq_ok.2 (by decide)
  have hnull : (ordered "id").toFind =
      .error (.invalidQuery (.textExpected ⟨"Item", "name"⟩ "null")) := rfl
  obtain ⟨e, hunknown⟩ : ∃ e, (ordered "age").validate = .error e := by
    cases hage : (ordered "age").validate with
    | error e => exact ⟨e, rfl⟩
    | ok => exact absurd (validate_eq_ok.1 hage) (by decide)
  refine ⟨⟨e, hunknown⟩, ?_, hvalid, ?_⟩
  · exact ((validation_decides_translation (ordered "age") .sqlite).1 e hunknown).2
  · obtain ⟨fault, heq, hshape⟩ :=
      (validation_decides_translation (ordered "id") .sqlite).2 hvalid _ (.inr hnull)
    exact ⟨fault, heq ▸ hnull, hshape⟩

end Query

end ModelMapper
