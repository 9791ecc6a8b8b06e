import ModelMapper.Memory.Backend
import ModelMapper.Proofs.Document.Filtering
import ModelMapper.Proofs.Sql.WhereClause
import ModelMapper.Sqlite.Backend

/-! # Nulls under denials

To be different from a value or outside a list says nothing of a null, so no null is matched by it.

* `Operator.Denies` — the two operators.
* `Document.applyOperator_denies` — in memory they are false of a null.
* `Condition.SparesNull` — truths of tests that know nothing of a null column;
  `Table.sparesNull_evaluate` has those of the engine.
* `Comparison.satisfies_null`, `Condition.Tests.truth_null` — a filter document and a test.
* `denials_spare_nulls` — the backends together.
-/

namespace ModelMapper

/-- Different from, or outside of. -/
def Operator.Denies (op : Operator) : Prop := op = .ne ∨ op = .notIn

/-! ## In memory -/

namespace Document

theorem applyOperator_denies {op : Operator} (h : op.Denies) (operand : Doc) :
    applyOperator op.documentKey .null operand = .ok false := by
  rcases h with rfl | rfl <;> rfl

/-- A clause that is read as a connective takes a list of filters and nothing else. -/
theorem satisfiesClause_connective {key : String} (h : key = "$and" ∨ key = "$or" ∨ key = "$nor")
    (d : Document) (ops : List (String × Doc)) :
    d.satisfiesClause key (.object ops) ≠ .ok true := by
  rcases h with rfl | rfl | rfl <;> exact nofun

/-- One operator under the name of a column, which may be taken for a connective. -/
theorem satisfiesClause_single {key : String} (h : key ≠ "$expr") (d : Document) (op : Operator)
    (operand : Doc) (htrue : d.satisfiesClause key (.single op.documentKey operand) = .ok true) :
    applyOperator op.documentKey (d.column key) operand = .ok true := by
  by_cases hkey : key ∈ clauseKeys
  · simp only [clauseKeys, List.mem_cons, List.not_mem_nil, or_false, h] at hkey
    exact absurd htrue (satisfiesClause_connective hkey d _)
  · rw [Doc.single, d.satisfiesClause_of_not_mem hkey] at htrue
    exact (matchesField_single op.isOperatorKey_documentKey _ _).symm.trans htrue

end Document

theorem Comparison.satisfies_null {s : Schema} {c : Comparison} {filter : Doc} {column : String}
    {d : Document} (hdenies : c.op.Denies) (hcolumn : s.columnOf c.left = .ok column)
    (hexpr : column = "$expr" → ∃ other, c.right = .field other)
    (hnull : d.column column = .null) (h : c.toFilter s = .ok filter) :
    d.satisfies filter ≠ .ok true := by
  have hfalse (operand : Doc) :
      Document.applyOperator c.op.documentKey (d.column column) operand = .ok false := by
    rw [hnull]
    exact Document.applyOperator_denies hdenies operand
  -- Under any other name the operator is all that a document has to pass.
  have hsingle (hkey : column ≠ "$expr") (operand : Doc) :
      d.satisfies (.single column (.single c.op.documentKey operand)) ≠ .ok true := by
    intro htrue
    rw [d.satisfies_single] at htrue
    have hheld := Document.satisfiesClause_single hkey d c.op operand htrue
    rw [hfalse] at hheld
    cases hheld
  cases toFilter_eq_ok.1 h with
  | pattern hleft needle => rcases hdenies with h | h <;> cases h
  | literal hleft _ _ _ =>
    cases hcolumn.symm.trans hleft
    exact hsingle (fun h => nomatch hexpr h) _
  | list hleft _ values =>
    cases hcolumn.symm.trans hleft
    exact hsingle (fun h => nomatch hexpr h) _
  | field hleft hother _ _ =>
    cases hcolumn.symm.trans hleft
    -- Two columns are compared as they are, the null one on the left.
    rw [d.satisfies_expression, hfalse]
    exact nofun

/-! ## In SQL -/

namespace Sql.Condition

/-- Truths of tests where a column is null: only a test for null knows anything of it. -/
structure SparesNull (column : String) (a : Condition → Truth) : Prop where
  isNull : a (.isNull column) = some true
  isNotNull : a (.isNotNull column) = some false
  compare : ∀ rel v, a (.compare column rel v) = none
  compareLeft : ∀ rel other, a (.compareColumns column rel other) = none
  compareRight : ∀ rel other, a (.compareColumns other rel column) = none
  like : ∀ pattern, a (.like column pattern) = none
  member : ∀ negated values, values ≠ [] → a (.member column negated values) = none

theorem Tests.truth_null {s : Schema} {c : Comparison} {test : Condition} {column : String}
    {a : Condition → Truth} (h : Tests s c test) (hdenies : c.op.Denies)
    (hcolumn : s.columnOf c.left = .ok column) (hlist : c.right ≠ .list [])
    (ha : SparesNull column a) : (Formula.test test).truth a = a test ∧ a test ≠ some true := by
  cases h with
  | isNull hleft => rcases hdenies with h | h <;> cases h
  | like hleft needle => rcases hdenies with h | h <;> cases h
  -- A list of nothing is denied by a constant, which no null can make unknown.
  | memberOfNone hleft hop => exact absurd rfl hlist
  | isNotNull hleft =>
    cases hcolumn.symm.trans hleft
    refine ⟨rfl, ?_⟩
    rw [ha.isNotNull]
    exact nofun
  | compare hleft hrel hv =>
    cases hcolumn.symm.trans hleft
    refine ⟨rfl, ?_⟩
    rw [ha.compare]
    exact nofun
  | compareColumns hleft hother hrel =>
    cases hcolumn.symm.trans hleft
    refine ⟨rfl, ?_⟩
    rw [ha.compareLeft]
    exact nofun
  | member hleft hop hne =>
    cases hcolumn.symm.trans hleft
    refine ⟨rfl, ?_⟩
    rw [ha.member _ _ hne]
    exact nofun

/-- The text of a test, with values for earlier parameters before its own, reads as the test. -/
theorem Tests.read_text {s : Schema} {c : Comparison} {test : Condition} (h : Tests s c test)
    (d : Dialect) (before : List Value) :
    readCondition d (before.length + 1) (before ++ (test.pieces false).params)
      (String.ofList ((test.pieces false).chars d (before.length + 1))) = some (.test test) := by
  rw [readCondition, String.toList_ofList, ← h.formula.2]
  refine Condition.read_text h.formula.1 d fun i hi => ?_
  rw [if_neg (by omega), List.getElem?_append_right (by omega)]
  congr 1
  omega

end Sql.Condition

/-! ## In the engine -/

namespace Sqlite

open Sql (Condition)

theorem Affinity.compared_null (a : Affinity) : a.compared .null = .null := by
  cases a <;> rfl

theorem Cell.compare?_null_right (c : Cell) : c.compare? .null = none := by
  cases c <;> rfl

theorem Table.compareValue_null {left : Term} (h : left.cell = .null) (rel : Sql.Relation)
    (v : Value) : compareValue left rel v = none := by
  rw [compareValue, h, Affinity.compared_null]
  rfl

theorem Table.any_of_nulls {left : Term} (h : left.cell = .null) {values : List Value}
    (hne : values ≠ []) : Truth.any (values.map fun v => compareValue left .eq v) = none := by
  induction values with
  | nil => exact absurd rfl hne
  | cons v rest ih =>
    rw [List.map_cons, Truth.any_cons, compareValue_null h]
    cases rest with
    | nil => rfl
    | cons w rest => rw [ih nofun]; rfl

theorem Table.sparesNull_evaluate {t : Table} {row : Row} {column : String}
    (h : (t.term row column).cell = .null) : Condition.SparesNull column (t.evaluate row) where
  isNull := by rw [evaluate, h]; rfl
  isNotNull := by rw [evaluate, h]; rfl
  compare rel v := by rw [evaluate, compareValue_null h]
  compareLeft rel other := by
    rw [evaluate, compareTerms, h]
    dsimp only
    split <;> rfl
  compareRight rel other := by
    rw [evaluate, compareTerms, h]
    dsimp only
    split <;> exact congrArg (Option.map rel.holds) (Cell.compare?_null_right _)
  like pattern := by rw [evaluate, h]; rfl
  member negated values hne := by
    rw [evaluate, any_of_nulls h hne]
    cases negated <;> rfl

end Sqlite

/-! ## All backends -/

open Sql

/-- A denial as the whole filter.  A document in which the column is null or missing does not match
it, unless the column has the name of the key of expressions and is compared with no other column.
A row in which the column is null does not make it true, neither its text in either dialect nor in
the engine, unless it denies a list of nothing. -/
theorem denials_spare_nulls {q : Query} {c : Comparison} {column : String}
    (hfilter : q.filter = some (.comparison c)) (hop : c.op = .ne ∨ c.op = .notIn)
    (hcolumn : q.model.columnOf c.left = .ok column) :
    (∀ filter, q.toFilter = .ok filter → (column = "$expr" → ∃ other, c.right = .field other) →
      ∀ d : Document, d.column column = .null → d.satisfies filter ≠ .ok true) ∧
    ∀ condition, q.condition = .ok condition → c.right ≠ .list [] →
      ∃ test, condition = some test ∧
        (∀ (d : Dialect) (before : List Value), ∃ f,
          readCondition d (before.length + 1) (before ++ (test.pieces false).params)
            (String.ofList ((test.pieces false).chars d (before.length + 1))) = some f ∧
          ∀ a, Condition.SparesNull column a → f.truth a ≠ some true) ∧
        ∀ (t : Sqlite.Table) (row : Sqlite.Row), (t.term row column).cell = .null →
          t.selects condition row = false := by
  constructor
  · intro filter h hexpr d hnull
    rw [Query.toFilter, hfilter] at h
    exact Comparison.satisfies_null hop hcolumn hexpr hnull h
  · intro condition h hlist
    rw [Query.condition, hfilter] at h
    obtain ⟨test, htest, rfl⟩ := Result.map_eq_ok.1 h
    have htests : Condition.Tests q.model c test := Condition.ofComparison_eq_ok.1 htest
    refine ⟨test, rfl, fun d before => ⟨_, htests.read_text d before, fun a ha => ?_⟩,
      fun t row hnull => ?_⟩
    · obtain ⟨htruth, hnever⟩ := htests.truth_null hop hcolumn hlist ha
      rwa [htruth]
    · have hengine := Sqlite.Table.sparesNull_evaluate hnull
      exact beq_eq_false_iff_ne.2 (htests.truth_null hop hcolumn hlist hengine).2

/-- A number that is not there is not outside a list. -/
theorem denials_spare_nulls_of_items :
    let item : Schema := ⟨"Item", [.plain "id" .int, .ofMarks "n" .int [.optional]]⟩
    let q : Query := ⟨item, some (FieldRef.notIn ⟨"Item", "n"⟩ [.int 5, .null]), []⟩
    let t : Sqlite.Table := ⟨"Item", [⟨"id", .integer, true⟩, ⟨"n", .integer, false⟩], none, false,
      [], [], 0⟩
    (∃ filter, q.toFilter = .ok filter ∧
      Document.satisfies [("id", .int 1)] filter ≠ .ok true) ∧
    ∃ test, q.condition = .ok (some test) ∧
      (∃ f, readCondition .postgres 1 (test.pieces false).params
        (String.ofList ((test.pieces false).chars .postgres 1)) = some f ∧
        ∀ a, Condition.SparesNull "n" a → f.truth a ≠ some true) ∧
      t.selects (some test) ⟨1, [.integer 1, .null]⟩ = false := by
  intro item q t
  obtain ⟨hmemory, hsql⟩ := denials_spare_nulls (q := q) rfl (.inr rfl) rfl
  obtain ⟨test, htest, htext, hengine⟩ := hsql _ rfl nofun
  cases htest
  exact ⟨⟨_, rfl, hmemory _ rfl nofun _ rfl⟩, _, rfl, htext .postgres [],
    hengine t _ (by decide +kernel)⟩

/-- A null under the name of the key of expressions matches a denial of two bytes, and a null in a
row one of a list of nothing. -/
theorem denials_match_nulls :
    let key : Field := .ofMarks "id" .int [.key]
    let named : Schema := ⟨"Item", [key, .ofMarks "n" .bytes [.optional, .storeAs "$expr"]]⟩
    let item : Schema := ⟨"Item", [key, .ofMarks "n" .int [.optional]]⟩
    let n : FieldRef := ⟨"Item", "n"⟩
    let row : Record := .ofList [("id", .int 1), ("n", .null)]
    let kept := ((Memory.Cluster.start.create 0 ⟨"c", [named]⟩).2.add 0 named [row]).2
    let stored := (Sqlite.Cluster.add 0 item [row]
      (Sqlite.Cluster.create 0 ⟨"c", [item]⟩ ⟨.start, []⟩).2).2
    (Memory.backend.fetch 0 ⟨named, some (n.test .ne (.bytes [1, 2])), []⟩ ⟨kept, []⟩).1.toOption =
      some [row] ∧
    (Sqlite.backend.fetch 0 ⟨item, some (n.notIn []), []⟩ stored).1.toOption = some [row] := by
  decide +kernel

end ModelMapper
