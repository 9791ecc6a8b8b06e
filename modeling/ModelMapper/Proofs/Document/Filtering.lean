import ModelMapper.Document.Filter
import ModelMapper.Proofs.Document.Encoding
import ModelMapper.Proofs.Document.Literal
import ModelMapper.Proofs.Result

/-! # Filters on documents

A record matches the document of a filter exactly when the filter holds for it.

* `Comparison.Filters` — the comparisons that become documents, each with its document.
* `Document.satisfies_single`, `Document.satisfiesClause_column` — one clause; only the keys of
  `Document.clauseKeys` name no column.
* `Comparison.satisfies_toFilter` — a comparison.
* `Node.satisfies_toFilter`, `Query.satisfies_of` — a tree, whatever its comparisons test.
* `satisfies_encode` — a query on an encoded record.
-/

namespace ModelMapper

/-! ## What becomes a filter document -/

theorem Schema.columnOf_eq_ok {s : Schema} {r : FieldRef} {column : String} :
    s.columnOf r = .ok column ↔
      r.model = s.name ∧ ∃ f, s.field? r.field = some f ∧ f.column = column := by
  rw [columnOf]
  by_cases hmodel : r.model = s.name
  · rw [if_neg (not_not.2 hmodel)]
    cases s.field? r.field with
    | none => simp
    | some f => simp [hmodel]
  · rw [if_pos hmodel]
    simp [hmodel]

theorem Schema.mem_of_field? {s : Schema} {name : String} {f : Field} (h : s.field? name = some f) :
    f ∈ s.fields ∧ f.name = name :=
  ⟨List.mem_of_find?_eq_some h, by simpa using List.find?_some h⟩

namespace Comparison

/-- A comparison and the document it becomes. -/
inductive Filters (s : Schema) : Comparison → Doc → Prop where
  | pattern {left : FieldRef} {column : String} (hleft : s.columnOf left = .ok column)
      (needle : String) :
    Filters s ⟨left, .contains, .literal (.text needle)⟩
      (.single column (.single "$regex" (.text (Pattern.escape needle))))
  | literal {left : FieldRef} {column : String} (hleft : s.columnOf left = .ok column)
      {op : Operator} (hcontains : op ≠ .contains) (hlist : op.takesList = false) {v : Value}
      (hnull : v = .null → op = .eq ∨ op = .ne) :
    Filters s ⟨left, op, .literal v⟩ (.single column (.single op.documentKey v.toDoc))
  | list {left : FieldRef} {column : String} (hleft : s.columnOf left = .ok column)
      {op : Operator} (hlist : op.takesList = true) (values : List Value) :
    Filters s ⟨left, op, .list values⟩
      (.single column (.single op.documentKey (.list (values.map Value.toDoc))))
  | field {left other : FieldRef} {column otherColumn : String}
      (hleft : s.columnOf left = .ok column) (hother : s.columnOf other = .ok otherColumn)
      {op : Operator} (hcontains : op ≠ .contains) (hlist : op.takesList = false) :
    Filters s ⟨left, op, .field other⟩ (.single "$expr" (.single op.documentKey
      (.list [.text ("$" ++ column), .text ("$" ++ otherColumn)])))

theorem toFilter_eq_ok {s : Schema} {c : Comparison} {filter : Doc} :
    c.toFilter s = .ok filter ↔ Filters s c filter := by
  constructor
  · intro h
    obtain ⟨left, op, right⟩ := c
    obtain ⟨column, hleft, h⟩ := Result.bind_eq_ok.1 h
    cases right with
    | literal v =>
      cases op with
      | contains =>
        cases v with
        | text needle =>
          cases h
          exact .pattern hleft needle
        | _ => cases h
      | isIn => cases h
      | notIn => cases h
      | eq =>
        cases v <;> cases h <;> exact .literal hleft (by decide) rfl fun _ => .inl rfl
      | ne =>
        cases v <;> cases h <;> exact .literal hleft (by decide) rfl fun _ => .inr rfl
      | _ =>
        cases v <;> cases h <;> exact .literal hleft (by decide) rfl (by nofun)
    | list values =>
      dsimp only at h
      split at h
      · next hlist =>
        cases h
        exact .list hleft hlist values
      · cases h
    | field other =>
      obtain ⟨otherColumn, hother, h⟩ := Result.bind_eq_ok.1 h
      cases op with
      | isIn => cases h
      | notIn => cases h
      | contains => cases h
      | _ =>
        cases h
        exact .field hleft hother (by decide) rfl
  · intro h
    cases h with
    | pattern hleft needle =>
      simp only [toFilter, hleft]
      rfl
    | @literal left column hleft op hcontains hlist v hnull =>
      simp only [toFilter, hleft]
      cases op <;> cases hlist <;> cases v <;> simp_all <;> rfl
    | list hleft hlist values =>
      simp only [toFilter, hleft, hlist]
      rfl
    | @field left other column otherColumn hleft hother op hcontains hlist =>
      simp only [toFilter, hleft, hother]
      cases op <;> cases hlist <;> first | rfl | exact absurd rfl hcontains

/-- The filter of a test of a field for a value. -/
theorem toFilter_equal {s : Schema} {f : Field} (hf : s.field? f.name = some f) (v : Value) :
    Comparison.toFilter s ⟨s.fieldRef f.name, .eq, .literal v⟩ =
      .ok (.single f.column (.single "$eq" v.toDoc)) := by
  have hcolumn : s.columnOf (s.fieldRef f.name) = .ok f.column :=
    Schema.columnOf_eq_ok.2 ⟨rfl, f, hf, rfl⟩
  exact toFilter_eq_ok.2 (.literal hcolumn (by decide) rfl fun _ => .inl rfl)

end Comparison

namespace Node

/-- A group becomes a clause over the documents of its children. -/
theorem toFilter_group_eq_ok {s : Schema} {op : Connective} {children : List Node} {filter : Doc} :
    toFilter s (.group op children) = .ok filter ↔ ∃ parts, toFilters s children = .ok parts ∧
      match op, parts with
      | .and, [] => filter = .anything
      | .or, [] => filter = .nothing
      | .not, [] => False
      | .and, parts => filter = .single "$and" (.list parts)
      | .or, parts => filter = .single "$or" (.list parts)
      | .not, parts => filter = .single "$nor" (.list [.single "$and" (.list parts)]) := by
  rw [toFilter, Result.bind_eq_ok]
  refine exists_congr fun parts => and_congr_right fun _ => ?_
  cases op <;> cases parts <;>
    simp only [Result.pure_eq_ok, Result.throw_eq_error, Except.ok.injEq, reduceCtorEq, eq_comm]

theorem toFilters_cons_eq_ok {s : Schema} {node : Node} {rest : List Node} {filters : List Doc} :
    toFilters s (node :: rest) = .ok filters ↔ ∃ filter tail, toFilter s node = .ok filter ∧
      toFilters s rest = .ok tail ∧ filters = filter :: tail := by
  simp only [toFilters, Result.bind_eq_ok, Result.pure_eq_ok, Except.ok.injEq]
  constructor
  · rintro ⟨filter, hfilter, tail, htail, rfl⟩
    exact ⟨filter, tail, hfilter, htail, rfl⟩
  · rintro ⟨filter, tail, hfilter, htail, rfl⟩
    exact ⟨filter, hfilter, tail, htail, rfl⟩

end Node

/-! ## Clauses -/

namespace Document

variable (d : Document)

theorem bind_true (x : Result Bool) :
    (x >>= fun b => if b = true then (.ok true : Result Bool) else pure false) = x := by
  cases x with
  | error e => rfl
  | ok b => cases b <;> rfl

theorem satisfies_single (key : String) (condition : Doc) :
    d.satisfies (.single key condition) = d.satisfiesClause key condition := by
  simp only [Doc.single, satisfies, satisfiesClauses]
  exact bind_true _

/-- The keys of a filter that name no column. -/
def clauseKeys : List String := ["$and", "$or", "$nor", "$expr"]

theorem satisfiesClause_of_not_mem {key : String} (h : key ∉ clauseKeys)
    (ops : List (String × Doc)) :
    d.satisfiesClause key (.object ops) = matchesField (d.column key) (.object ops) := by
  simp only [clauseKeys, List.mem_cons, List.not_mem_nil, or_false, not_or] at h
  unfold satisfiesClause
  split <;> simp_all

/-- A key without a dollar sign names a column. -/
theorem satisfiesClause_column {key : String} (h : isOperatorKey key = false)
    (ops : List (String × Doc)) :
    d.satisfiesClause key (.object ops) = matchesField (d.column key) (.object ops) := by
  have hall : ∀ key ∈ clauseKeys, isOperatorKey key = true := by decide
  refine d.satisfiesClause_of_not_mem (fun hmem => ?_) ops
  rw [hall key hmem] at h
  cases h

theorem matchesField_single {op : String} (h : isOperatorKey op = true) (value operand : Doc) :
    matchesField value (.single op operand) = applyOperator op value operand := by
  simp only [Doc.single, matchesField, List.all_cons, h, List.all_nil, Bool.and_self, if_true,
    applyOperators]
  exact bind_true _

/-- A test of a column for a value. -/
theorem satisfies_equal {column : String} (h : column ∉ clauseKeys) (value : Doc) :
    d.satisfies (.single column (.single "$eq" value)) = .ok ((d.column column).equals value) := by
  rw [satisfies_single, Doc.single, d.satisfiesClause_of_not_mem h]
  exact matchesField_single rfl _ _

theorem resolve_dollar (name : String) : d.resolve (.text ("$" ++ name)) = d.column name := by
  have hname : ("$" ++ name).toList = '$' :: name.toList := String.toList_append
  rw [resolve, hname]
  exact congrArg d.column String.ofList_toList

/-- An expression compares two columns. -/
theorem satisfies_expression (op left right : String) :
    d.satisfies (.single "$expr" (.single op (.list [.text ("$" ++ left), .text ("$" ++ right)]))) =
      applyOperator op (d.column left) (d.column right) := by
  rw [satisfies_single]
  have hoperands : [Doc.text ("$" ++ left), Doc.text ("$" ++ right)].map d.resolve =
      [d.column left, d.column right] := by
    rw [List.map_cons, List.map_cons, List.map_nil, resolve_dollar, resolve_dollar]
  show d.matchesPairs [(op, .list [.text ("$" ++ left), .text ("$" ++ right)])] = _
  rw [matchesPairs, items, Result.ok_bind, hoperands]
  exact bind_true _

end Document

/-! ## Operators -/

namespace Operator

open Document

theorem isOperatorKey_documentKey (op : Operator) : isOperatorKey op.documentKey = true := by
  cases op <;> rfl

/-- An operator on the documents of two values of one type. -/
theorem applyOperator_toDoc {op : Operator} {ty : FieldType} {v w : Value} (hv : v.Fits ty)
    (hw : w.Fits ty) (hcontains : op ≠ .contains) (hlist : op.takesList = false)
    (hordering : op.isOrdering = true → ty ≠ .bytes) :
    applyOperator op.documentKey v.toDoc w.toDoc = .ok (op.holds v w) := by
  have hequals := Value.equals_toDoc hv hw
  cases op with
  | eq => exact congrArg Except.ok hequals
  | ne =>
    exact congrArg Except.ok
      (congrArg₂ (fun a b => !a && !b) (Value.isNull_toDoc hv) hequals)
  | contains => exact absurd rfl hcontains
  | isIn => cases hlist
  | notIn => cases hlist
  | gt =>
    have horder := Value.compare_toDoc hv hw (hordering rfl)
    exact congrArg (fun o => Except.ok (o == some .gt)) horder
  | gte =>
    have horder := Value.compare_toDoc hv hw (hordering rfl)
    exact congrArg (fun o => Except.ok (o == some .gt || o == some .eq)) horder
  | lt =>
    have horder := Value.compare_toDoc hv hw (hordering rfl)
    exact congrArg (fun o => Except.ok (o == some .lt)) horder
  | lte =>
    have horder := Value.compare_toDoc hv hw (hordering rfl)
    exact congrArg (fun o => Except.ok (o == some .lt || o == some .eq)) horder

theorem any_equals_toDoc {ty : FieldType} {v : Value} {values : List Value} (hv : v.Fits ty)
    (hvalues : ∀ w ∈ values, w.Fits ty) :
    (values.map Value.toDoc).any v.toDoc.equals = values.any v.agrees := by
  induction values with
  | nil => rfl
  | cons w values ih =>
    rw [List.map_cons, List.any_cons, List.any_cons,
      Value.equals_toDoc hv (hvalues w List.mem_cons_self),
      ih fun x hx => hvalues x (List.mem_cons_of_mem _ hx)]

/-- An operator on the documents of a value and of a list of values of its type. -/
theorem applyOperator_toDocs {op : Operator} {ty : FieldType} {v : Value} {values : List Value}
    (hv : v.Fits ty) (hvalues : ∀ w ∈ values, w.Fits ty) (hlist : op.takesList = true) :
    applyOperator op.documentKey v.toDoc (.list (values.map Value.toDoc)) =
      .ok (op.holdsOf v values) := by
  have hany := any_equals_toDoc hv hvalues
  cases op with
  | isIn => exact congrArg Except.ok hany
  | notIn =>
    show (if Document.isNull v.toDoc then Except.ok false
      else Except.ok (!(values.map Value.toDoc).any v.toDoc.equals)) = _
    rw [hany, Value.isNull_toDoc hv]
    cases v <;> rfl
  | _ => cases hlist

end Operator

/-! ## Trees -/

/-- Columns that a filter document can name: each belongs to one field, and none looks like an
    operator. -/
structure Schema.Nameable (s : Schema) : Prop where
  distinct : (s.fields.map Field.column).Nodup
  plain : ∀ f ∈ s.fields, Document.isOperatorKey f.column = false

section Trees

variable {s : Schema} {r : Record} {d : Document}

/-- The column of a field holds the document of its value. -/
theorem column_of_columnOf (hs : s.Nameable) (hr : r.Typed s) (hd : s.Stores r d)
    {ref : FieldRef} {column : String} (h : s.columnOf ref = .ok column) :
    ∃ f, s.field? ref.field = some f ∧ Document.isOperatorKey column = false ∧
      (r.value ref.field).Fits f.type ∧ d.column column = (r.value ref.field).toDoc := by
  obtain ⟨-, f, hf, rfl⟩ := Schema.columnOf_eq_ok.1 h
  obtain ⟨hmem, hname⟩ := Schema.mem_of_field? hf
  have hfits := hr.fits f hmem
  have hcolumn := hd f hmem
  rw [hname] at hfits hcolumn
  exact ⟨f, hf, hs.plain f hmem, hfits, hcolumn⟩

theorem Comparison.satisfies_toFilter (hs : s.Nameable) (hr : r.Typed s)
    (hd : s.Stores r d) {c : Comparison} (hc : c.Typed s) {filter : Doc}
    (h : c.toFilter s = .ok filter) : d.satisfies filter = .ok (c.holds r) := by
  cases toFilter_eq_ok.1 h with
  | @pattern left column hleft needle =>
    obtain ⟨f, hf, hplain, hfits, hcolumn⟩ := column_of_columnOf hs hr hd hleft
    rw [Document.satisfies_single, Doc.single, Document.satisfiesClause_column d hplain, hcolumn]
    refine (Document.matchesField_single rfl _ _).trans ?_
    refine (Document.matchesPattern_escape _ _).trans (congrArg Except.ok ?_)
    show _ = Operator.holds .contains (r.value left.field) (.text needle)
    have hneedle := hc.literal _ rfl f hf
    generalize f.type = ty at hfits hneedle
    generalize r.value left.field = v at hfits ⊢
    cases hneedle
    cases hfits <;> rfl
  | @literal left column hleft op hcontains hlist v hnull =>
    obtain ⟨f, hf, hplain, hfits, hcolumn⟩ := column_of_columnOf hs hr hd hleft
    rw [Document.satisfies_single, Doc.single, Document.satisfiesClause_column d hplain, hcolumn]
    refine (Document.matchesField_single op.isOperatorKey_documentKey _ _).trans ?_
    exact Operator.applyOperator_toDoc hfits (hc.literal v rfl f hf) hcontains hlist
      fun hordering => hc.ordering hordering f hf
  | @list left column hleft op hlist values =>
    obtain ⟨f, hf, hplain, hfits, hcolumn⟩ := column_of_columnOf hs hr hd hleft
    rw [Document.satisfies_single, Doc.single, Document.satisfiesClause_column d hplain, hcolumn]
    refine (Document.matchesField_single op.isOperatorKey_documentKey _ _).trans ?_
    exact Operator.applyOperator_toDocs hfits (hc.list values rfl f hf) hlist
  | @field left other column otherColumn hleft hother op hcontains hlist =>
    obtain ⟨f, hf, -, hfits, hcolumn⟩ := column_of_columnOf hs hr hd hleft
    obtain ⟨g, hg, -, hfits', hcolumn'⟩ := column_of_columnOf hs hr hd hother
    rw [hc.field other rfl f g hf hg] at hfits'
    rw [Document.satisfies_expression, hcolumn, hcolumn']
    exact Operator.applyOperator_toDoc hfits hfits' hcontains hlist
      fun hordering => hc.ordering hordering f hf

end Trees

section

variable {s : Schema} {d : Document} {test : Comparison → Bool}

mutual

/-- A tree on a document, on which its comparisons are tested. -/
theorem Node.satisfies_toFilter : ∀ {node : Node} {filter : Doc},
    (∀ c ∈ node.comparisons, ∀ {filter}, c.toFilter s = .ok filter →
      d.satisfies filter = .ok (test c)) →
    node.toFilter s = .ok filter → d.satisfies filter = .ok (node.holds test)
  | .comparison c, filter, hc, h => hc c List.mem_cons_self h
  | .literal v, filter, hc, h => by
    cases v with
    | bool b =>
      cases b with
      | true =>
        cases h
        rfl
      | false =>
        cases h
        rfl
    | _ => cases h
  | .field ref, filter, hc, h => nomatch h
  | .group op children, filter, hc, h => by
    obtain ⟨parts, hparts, hfilter⟩ := Node.toFilter_group_eq_ok.1 h
    obtain ⟨hall, hany⟩ := Node.satisfies_toFilters hc hparts
    cases op with
    | and =>
      cases parts with
      | nil =>
        cases hfilter
        exact hall
      | cons part rest =>
        cases hfilter
        rw [Document.satisfies_single]
        exact hall
    | or =>
      cases parts with
      | nil =>
        cases hfilter
        exact hany
      | cons part rest =>
        cases hfilter
        rw [Document.satisfies_single]
        exact hany
    | not =>
      cases parts with
      | nil => exact hfilter.elim
      | cons part rest =>
        cases hfilter
        rw [Document.satisfies_single]
        -- A negation is the absence of its one member, the conjunction of the children.
        show (d.satisfiesAny [.single "$and" (.list (part :: rest))]).map (!·) = _
        rw [Document.satisfiesAny, Document.satisfies_single,
          show d.satisfiesClause "$and" (.list (part :: rest)) = _ from hall, Result.ok_bind]
        show _ = Except.ok (!Node.allHold test children)
        cases Node.allHold test children <;> rfl

theorem Node.satisfies_toFilters : ∀ {nodes : List Node} {filters : List Doc},
    (∀ c ∈ comparisonsOf nodes, ∀ {filter}, c.toFilter s = .ok filter →
      d.satisfies filter = .ok (test c)) →
    toFilters s nodes = .ok filters →
      d.satisfiesAll filters = .ok (allHold test nodes) ∧
        d.satisfiesAny filters = .ok (anyHolds test nodes)
  | [], filters, hc, h => by
    cases h
    exact ⟨rfl, rfl⟩
  | node :: rest, filters, hc, h => by
    obtain ⟨filter, tail, hfilter, htail, rfl⟩ := Node.toFilters_cons_eq_ok.1 h
    have hhead := Node.satisfies_toFilter
      (fun c hmem => hc c (List.mem_append_left _ hmem)) hfilter
    obtain ⟨hall, hany⟩ := Node.satisfies_toFilters
      (fun c hmem => hc c (List.mem_append_right _ hmem)) htail
    simp only [Document.satisfiesAll, Document.satisfiesAny, hhead, hall, hany, Result.ok_bind,
      Node.allHold, Node.anyHolds]
    cases node.holds test <;> exact ⟨rfl, rfl⟩

end

/-- The filter of a query on a document, on which its comparisons are tested. -/
theorem Query.satisfies_of {q : Query} (hc : ∀ c ∈ q.comparisons, ∀ {filter},
    c.toFilter q.model = .ok filter → d.satisfies filter = .ok (test c)) {filter : Doc}
    (h : q.toFilter = .ok filter) :
    d.satisfies filter = .ok (q.filter.all fun node => node.holds test) := by
  rw [Query.comparisons] at hc
  rw [Query.toFilter] at h
  cases hfilter : q.filter with
  | none =>
    rw [hfilter] at h
    cases h
    rfl
  | some node =>
    rw [hfilter] at h hc
    exact Node.satisfies_toFilter hc h

end

theorem Query.satisfies_toFilter {q : Query} {r : Record} {d : Document}
    (hs : q.model.Nameable) (hr : r.Typed q.model) (hd : q.model.Stores r d) (hq : q.Typed)
    {filter : Doc} (h : q.toFilter = .ok filter) : d.satisfies filter = .ok (q.holds r) := by
  rw [Query.satisfies_of (fun c hc _ => Comparison.satisfies_toFilter hs hr hd (hq c hc)) h,
    Query.holds]

/-- A query on an encoded record: the record is matched exactly when the filter holds for it. -/
theorem satisfies_encode {q : Query} {r : Record} (hs : q.model.Nameable) (hr : r.Typed q.model)
    (hq : q.Typed) {filter : Doc} (h : q.toFilter = .ok filter) :
    (q.model.encode r >>= fun d => d.satisfies filter) = .ok (q.holds r) := by
  have hd := Schema.encode_eq_ok hr.known
  rw [hd, Result.ok_bind]
  exact Query.satisfies_toFilter hs hr (Schema.stores_encode hs.distinct hd) hq h

/-- A null number, a text with a character of its own in patterns, and a leap second. -/
theorem satisfies_encode_of_item :
    let s : Schema := ⟨"Item", [.plain "n" .int, .plain "t" .text, .plain "at" .timestamp]⟩
    let r : Record := .ofList [("t", .text "a.b"), ("at", .timestamp ⟨59, 1500000000⟩)]
    let q : Query := ⟨s, some (.group .not [
      .group .or [FieldRef.test ⟨"Item", "n"⟩ .ne (.int 3), FieldRef.isIn ⟨"Item", "n"⟩ [.null]],
      FieldRef.contains ⟨"Item", "t"⟩ "b.",
      FieldRef.test ⟨"Item", "at"⟩ .gt (.timestamp ⟨59, 0⟩)]), []⟩
    ∃ filter, q.toFilter = .ok filter ∧
      (q.model.encode r >>= fun d => d.satisfies filter) = .ok (q.holds r) ∧
      q.holds r = true := by
  intro s r q
  have hs : q.model.Nameable := ⟨by decide, by decide⟩
  have hcivil : Timestamp.Civil ⟨59, 1500000000⟩ := ⟨by decide, by decide, by decide⟩
  have hcivil' : Timestamp.Civil ⟨59, 0⟩ := ⟨by decide, by decide, by decide⟩
  have hr : r.Typed q.model := by
    refine ⟨by decide, fun f hf => ?_⟩
    rcases List.mem_cons.1 hf with rfl | hf
    · exact .null _
    · rcases List.mem_cons.1 hf with rfl | hf
      · exact .text _
      · cases List.mem_singleton.1 hf
        exact .timestamp hcivil
  have hq : q.Typed := by
    have hcomparisons : q.comparisons = [⟨⟨"Item", "n"⟩, .ne, .literal (.int 3)⟩,
        ⟨⟨"Item", "n"⟩, .isIn, .list [.null]⟩, ⟨⟨"Item", "t"⟩, .contains, .literal (.text "b.")⟩,
        ⟨⟨"Item", "at"⟩, .gt, .literal (.timestamp ⟨59, 0⟩)⟩] := rfl
    rw [Query.Typed, hcomparisons]
    simp only [List.forall_mem_cons, List.not_mem_nil, false_implies, implies_true, and_true]
    exact ⟨.ofLiteral rfl (.int 3) nofun,
      .ofList rfl (fun v hv => by cases List.mem_singleton.1 hv; exact .null _) nofun,
      .ofLiteral rfl (.text "b.") nofun, .ofLiteral rfl (.timestamp hcivil') nofun⟩
  exact ⟨_, rfl, satisfies_encode hs hr hq rfl, by decide⟩

/-- More nanoseconds than a second has, at a second that does not end a minute: the moment is earlier
    than one in the second after it, and has the same text. -/
theorem satisfies_encode_misses_nanos :
    let s : Schema := ⟨"Event", [.plain "at" .timestamp]⟩
    let t : Timestamp := ⟨1704110430, 1500000000⟩
    let r : Record := .ofList [("at", .timestamp t)]
    let q : Query := ⟨s, some (FieldRef.test ⟨"Event", "at"⟩ .lt
      (.timestamp ⟨1704110431, 500000000⟩)), []⟩
    t.date.year = 2024 ∧ t.nanos < 2 * Timestamp.nanosPerSecond ∧ q.holds r = true ∧
      ∃ filter, q.toFilter = .ok filter ∧
        (q.model.encode r >>= fun d => d.satisfies filter).toOption = some false := by
  intro s t r q
  exact ⟨by decide +kernel, by decide +kernel, by decide +kernel, _, rfl, by decide +kernel⟩

end ModelMapper
