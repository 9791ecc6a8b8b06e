import ModelMapper.Proofs.Document.Filtering
import ModelMapper.Proofs.Query.Unknown
import ModelMapper.Proofs.Sql.Translation
import ModelMapper.Proofs.Sqlite.Cells
import ModelMapper.Proofs.Sqlite.Like

/-! # Conditions on stored rows

On the row of a record the condition of a filter has the truth of the filter itself.

* `Table.Stores` — a row that holds a record, each field in its column.
* `Table.compareValue_judged`, `Table.compareTerms_judged` — cells are compared as the values
  are, and a null makes the comparison unknown.
* `Comparison.evaluate_judged` — a comparison.
* `Node.evaluate_truth`, `Query.selects_of` — a tree and a query, whatever the truths of their
  comparisons; `Query.selects_judged` — a query on the row of a record.
-/

namespace ModelMapper

namespace Sqlite

open Sql (Condition Relation)

/-- The row has each field of the record in its column. -/
def Table.Stores (t : Table) (s : Schema) (r : Record) (row : Row) : Prop :=
  ∀ f ∈ s.fields,
    t.term row f.column = ⟨.ofValue (r.value f.name).unsigned, some (.ofType f.type)⟩

instance (t : Table) (s : Schema) (r : Record) (row : Row) : Decidable (t.Stores s r row) :=
  decidable_of_iff
    (∀ f ∈ s.fields, (t.term row f.column).cell = .ofValue (r.value f.name).unsigned ∧
      (t.term row f.column).affinity = some (.ofType f.type))
    ⟨fun h f hf => congrArg₂ Term.mk (h f hf).1 (h f hf).2, fun h f hf => by
      rw [h f hf]
      exact ⟨rfl, rfl⟩⟩

namespace Table

/-! ## Comparing -/

variable {ty : FieldType} {v w : Value} {op : Operator} {rel : Relation}

theorem compare?_judged (hrel : Relation.ofOperator? op = some rel) (hv : v.Fits ty)
    (hw : w.Fits ty) (hordering : op.isOrdering = true → ty ≠ .bytes) :
    ((Cell.ofValue v).compare? (Cell.ofValue w)).map rel.holds = v.judged op.holds w := by
  rw [Cell.compare?_ofValue hv hw, Value.judged]
  split
  · rfl
  · next hnull =>
    simp only [Bool.or_eq_true, not_or, Bool.not_eq_true] at hnull
    exact congrArg some (Cell.holds_compare hrel hv hw hnull.1 hnull.2 hordering)

theorem compareValue_judged (hrel : Relation.ofOperator? op = some rel) (hv : v.Fits ty)
    (hw : w.Fits ty) (hordering : op.isOrdering = true → ty ≠ .bytes) :
    compareValue ⟨.ofValue v.unsigned, some (.ofType ty)⟩ rel w = v.judged op.holds w := by
  rw [← compare?_judged hrel hv hw hordering]
  show (((Affinity.ofType ty).compared (.ofValue v.unsigned)).compare?
    ((Affinity.ofType ty).compared (.ofValue w))).map rel.holds = _
  rw [Cell.compared_ofValue hv.unsigned, Cell.compared_ofValue hw, Cell.compare?_unsigned hv]

theorem compareTerms_judged (hrel : Relation.ofOperator? op = some rel) (hv : v.Fits ty)
    (hw : w.Fits ty) (hordering : op.isOrdering = true → ty ≠ .bytes) :
    compareTerms ⟨.ofValue v.unsigned, some (.ofType ty)⟩ rel
      ⟨.ofValue w.unsigned, some (.ofType ty)⟩ = v.judged op.holds w := by
  rw [← compare?_judged hrel hv hw hordering, ← Cell.compare?_unsigned hv,
    ← Cell.compare?_to_unsigned _ hw]
  unfold compareTerms
  dsimp only [Option.any_some]
  rw [Bool.or_self]
  cases hnumeric : (Affinity.ofType ty).isNumeric with
  | true =>
    simp only [if_true]
    rw [Cell.numeric_ofValue hv.unsigned hnumeric, Cell.numeric_ofValue hw.unsigned hnumeric]
  | false => rfl

end Table

end Sqlite

/-! ## Comparisons -/

open Sqlite
open Sql (Condition Relation)

theorem Value.agrees_null (v : Value) : v.agrees .null = v.isNull := by
  cases v <;> rfl

variable {s : Schema} {r : Record} {t : Table} {row : Row}

theorem Comparison.evaluate_judged (hr : r.Typed s) (hrow : t.Stores s r row) {c : Comparison}
    (hc : c.Typed s) (hclear : c.Clear r) {condition : Condition}
    (h : Condition.Tests s c condition) : t.evaluate row condition = c.judged r := by
  have hcolumn : ∀ {ref : FieldRef} {column : String}, s.columnOf ref = .ok column →
      ∃ f, s.field? ref.field = some f ∧ (r.value ref.field).Fits f.type ∧
        t.term row column =
          ⟨.ofValue (r.value ref.field).unsigned, some (.ofType f.type)⟩ := by
    intro ref column href
    obtain ⟨-, f, hf, rfl⟩ := Schema.columnOf_eq_ok.1 href
    obtain ⟨hmem, hname⟩ := Schema.mem_of_field? hf
    have hterm := hrow f hmem
    have hfits := hr.fits f hmem
    rw [hname] at hterm hfits
    exact ⟨f, hf, hfits, hterm⟩
  cases h with
  | isNull hleft =>
    obtain ⟨f, -, hfits, hterm⟩ := hcolumn hleft
    rw [Table.evaluate, hterm]
    show some (Cell.ofValue _).isNull = some (Value.agrees _ .null)
    rw [Cell.isNull_ofValue hfits.unsigned, Value.isNull_unsigned, Value.agrees_null]
  | isNotNull hleft =>
    obtain ⟨f, -, hfits, hterm⟩ := hcolumn hleft
    rw [Table.evaluate, hterm]
    show some (!(Cell.ofValue _).isNull) = some (!Value.isNull _ && !Value.agrees _ .null)
    rw [Cell.isNull_ofValue hfits.unsigned, Value.isNull_unsigned, Value.agrees_null,
      Bool.and_self]
  | @compare left column hleft op rel hrel v hv =>
    obtain ⟨f, hf, hfits, hterm⟩ := hcolumn hleft
    rw [Table.evaluate, hterm, Table.compareValue_judged hrel hfits (hc.literal v rfl f hf)
      fun hordering => hc.ordering hordering f hf]
    cases v with
    | null => exact absurd rfl hv
    | _ => rfl
  | @compareColumns left other column otherColumn hleft hother op rel hrel =>
    obtain ⟨f, hf, hfits, hterm⟩ := hcolumn hleft
    obtain ⟨g, hg, hfits', hterm'⟩ := hcolumn hother
    rw [hc.field other rfl f g hf hg] at hfits' hterm'
    rw [Table.evaluate, hterm, hterm', Table.compareTerms_judged hrel hfits hfits'
      fun hordering => hc.ordering hordering f hf]
    rfl
  | @memberOfNone left column hleft op hop =>
    cases op <;> first | rfl | cases hop
  | @member left column hleft op hop values hne =>
    obtain ⟨f, hf, hfits, hterm⟩ := hcolumn hleft
    -- A list is a chain of equalities, each with its own truth.
    have hrel : Relation.ofOperator? .eq = some .eq := rfl
    have heach : ∀ w ∈ values, Table.compareValue (t.term row column) .eq w =
        (r.value left.field).judged Value.agrees w := by
      intro w hw
      rw [hterm]
      exact Table.compareValue_judged hrel hfits (hc.list values rfl f hf w hw) nofun
    rw [Table.evaluate, List.map_congr_left heach]
    cases op <;> first | rfl | cases hop
  | @like left column hleft needle =>
    obtain ⟨f, hf, hfits, hterm⟩ := hcolumn hleft
    have hneedle := hc.literal _ rfl f hf
    have htext := hclear.text rfl needle
    rw [Table.evaluate, hterm]
    show _ = (r.value left.field).judged (Operator.holds .contains) (.text needle)
    generalize r.value left.field = v at hfits htext ⊢
    generalize f.type = ty at hfits hneedle
    cases hneedle
    cases hfits with
    | null => rfl
    | text text =>
      obtain ⟨hneedle, htext, hcase⟩ := htext text rfl rfl
      show Like.matchesCell _ (.text text) = some (decide (needle.toList <:+: text.toList))
      -- The engine does not tell the cases of letters apart, so the needle must stand as it is.
      rw [Like.matchesCell_containsPattern hneedle htext, Option.some_inj, decide_eq_decide]
      exact ⟨hcase, fun h => h.map _⟩

/-! ## Trees -/

mutual

/-- A tree on a row, on which its comparisons have their truths. -/
theorem Node.evaluate_truth {truth : Comparison → Truth} : ∀ {node : Node}
    {condition : Condition}, (∀ c ∈ node.comparisons, ∀ {condition},
      Condition.ofComparison s c = .ok condition → t.evaluate row condition = truth c) →
      Condition.ofNode s node = .ok condition → t.evaluate row condition = node.truth truth
  | .comparison c, condition, hc, h => hc c List.mem_cons_self h
  | .literal v, condition, hc, h => by
    cases v with
    | bool b =>
      cases h
      rfl
    | _ => cases h
  | .field ref, condition, hc, h => nomatch h
  | .group op children, condition, hc, h => by
    obtain ⟨parts, hparts, hcondition⟩ := Condition.ofNode_group_eq_ok.1 h
    have htruths := Node.evaluateAll_truths hc hparts
    cases op with
    | and =>
      rw [Node.truth, ← htruths]
      cases parts <;> cases hcondition <;> rfl
    | or =>
      rw [Node.truth, ← htruths]
      cases parts <;> cases hcondition <;> rfl
    | not =>
      rw [Node.truth, ← htruths]
      cases parts with
      | nil => exact hcondition.elim
      | cons part rest =>
        cases hcondition
        rfl

theorem Node.evaluateAll_truths {truth : Comparison → Truth} :
    ∀ {children : List Node} {parts : List Condition},
      (∀ c ∈ Node.comparisonsOf children, ∀ {condition},
        Condition.ofComparison s c = .ok condition → t.evaluate row condition = truth c) →
      Condition.ofNodes s children = .ok parts →
      t.evaluateAll row parts = Node.truths truth children
  | [], parts, hc, h => by
    cases h
    rfl
  | node :: rest, parts, hc, h => by
    obtain ⟨part, tail, hpart, htail, rfl⟩ := Condition.ofNodes_cons_eq_ok.1 h
    have hhead := Node.evaluate_truth
      (fun c hmem => hc c (List.mem_append_left _ hmem)) hpart
    have hrest := Node.evaluateAll_truths
      (fun c hmem => hc c (List.mem_append_right _ hmem)) htail
    rw [Table.evaluateAll, hhead, hrest, truths]

end

/-- A row is selected where the filter is known to be true of the truths of its comparisons. -/
theorem Query.selects_of {q : Query} {truth : Comparison → Truth}
    (hc : ∀ c ∈ q.comparisons, ∀ {condition},
      Condition.ofComparison q.model c = .ok condition → t.evaluate row condition = truth c)
    {condition : Option Condition} (h : q.condition = .ok condition) :
    t.selects condition row = q.filter.all fun node => node.truth truth == some true := by
  rw [comparisons] at hc
  rw [Query.condition] at h
  cases hfilter : q.filter with
  | none =>
    rw [hfilter] at h
    cases h
    rfl
  | some node =>
    rw [hfilter] at h hc
    obtain ⟨c, hcondition, rfl⟩ := Result.map_eq_ok.1 h
    show (t.evaluate row c == some true) = _
    rw [Node.evaluate_truth hc hcondition]
    rfl

/-- The row of a record is selected where the filter is known to be true. -/
theorem Query.selects_judged {q : Query} {r : Record} (hr : r.Typed q.model)
    (hrow : t.Stores q.model r row) (hq : q.Typed) (hclear : ∀ c ∈ q.comparisons, c.Clear r)
    {condition : Option Condition} (h : q.condition = .ok condition) :
    t.selects condition row = (q.judged r == some true) := by
  rw [Query.selects_of (fun c hc _ htests => Comparison.evaluate_judged hr hrow (hq c hc)
    (hclear c hc) (Condition.ofComparison_eq_ok.1 htests)) h, judged]
  cases q.filter <;> rfl

end ModelMapper
