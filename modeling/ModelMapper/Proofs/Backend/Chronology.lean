import ModelMapper.Proofs.Backend.Moments
import ModelMapper.Proofs.Backend.Paging
import ModelMapper.Proofs.Sqlite.Keeping
import ModelMapper.Proofs.Sqlite.Sorting

/-! # Timestamps in order

Stores keep timestamps as text, and filter and sort them by it. Between the years 0 and 9999 that
is to filter and to sort by time.

* `Document.answers`, `Table.answers` — the answer of a store to one comparison alone.
* `Document.Dates`, `Table.Dates` — what has given moments in its columns, as what stores a typed
  record does (`Document.dates_of_stores`, `Table.dates_of_stores`).
* `Comparison.satisfies_inTime`, `Table.evaluate_inTime` — one comparison of timestamps.
* `Documents.find_inTime`, `Database.select_inTime` — the rows of a query.
* `timestamps_chronological` — the texts, and both stores.
-/

namespace ModelMapper

open Sql (Condition Command)

/-! ## Documents -/

/-- The answer of a document to a comparison, unknown if there is none. -/
def Document.answers (d : Document) (s : Schema) (c : Comparison) : Truth :=
  (c.toFilter s >>= fun filter => d.satisfies filter).toOption

/-- The document has the moments in the columns of the timestamp fields. -/
def Document.Dates (s : Schema) (m : Moments) (d : Document) : Prop :=
  ∀ f ∈ s.fields, f.type = .timestamp →
    (∀ t ∈ m f.name, t.Civil) ∧ d.column f.column = (Value.ofMoment (m f.name)).toDoc

section

variable {s : Schema} {m n : Moments} {d e : Document} {c : Comparison} {truth : Truth}

/-- The document of a typed record has the moments of the record. -/
theorem Document.dates_of_stores {r : Record} (hr : r.Typed s) (hd : s.Stores r d) :
    d.Dates s r.moments := by
  intro f hf htype
  obtain ⟨hcivil, hvalue⟩ := hr.value_eq_ofMoment hf htype
  exact ⟨hcivil, hvalue ▸ hd f hf⟩

theorem Document.Dates.column (h : d.Dates s m) {r : FieldRef} {column : String}
    (hr : s.isTimestamp r = true) (hcolumn : s.columnOf r = .ok column) :
    (∀ t ∈ m r.field, t.Civil) ∧ d.column column = (Value.ofMoment (m r.field)).toDoc := by
  obtain ⟨f, hf, htype, hname, rfl⟩ := Schema.mem_of_isTimestamp hr hcolumn
  exact hname ▸ h f hf htype

/-- A comparison of timestamps is answered in time. -/
theorem Comparison.satisfies_inTime (hd : d.Dates s m)
    (hplain : ∀ f ∈ s.fields, f.type = .timestamp → f.column ∉ Document.clauseKeys)
    (h : c.inTime? s m = some truth) {filter : Doc} (hfilter : c.toFilter s = .ok filter) :
    d.satisfies filter = .ok (truth == some true) := by
  obtain ⟨rel, bound, hrel, hbound, hleft, rfl⟩ := inTime?_eq_some h
  cases toFilter_eq_ok.1 hfilter with
  | pattern => cases hrel
  | list hcolumn hlist => cases hbound
  | @literal left column hcolumn op hcontains hlist v hnull =>
    obtain ⟨t, ht, rfl, rfl⟩ := bound?_literal hbound
    obtain ⟨hcivil, hstored⟩ := hd.column hleft hcolumn
    obtain ⟨f, hf, htype, -, rfl⟩ := Schema.mem_of_isTimestamp hleft hcolumn
    rw [Document.satisfies_single, Doc.single, d.satisfiesClause_of_not_mem (hplain f hf htype),
      hstored]
    refine (Document.matchesField_single op.isOperatorKey_documentKey _ _).trans ?_
    refine (Operator.applyOperator_toDoc (Value.fits_ofMoment hcivil) (.timestamp ht) hcontains
      hlist fun _ => by decide).trans (congrArg _ ?_)
    exact Operator.holds_ofMoment hrel hcivil (fun u hu => Option.some.inj hu ▸ ht)
      fun h => absurd h (Option.some_ne_none t)
  | @field left other column otherColumn hcolumn hother op hcontains hlist =>
    obtain ⟨hordering, hfield, rfl⟩ := bound?_field hbound
    obtain ⟨hcivil, hstored⟩ := hd.column hleft hcolumn
    obtain ⟨hcivil', hstored'⟩ := hd.column hfield hother
    rw [Document.satisfies_expression, hstored, hstored',
      Operator.applyOperator_toDoc (Value.fits_ofMoment hcivil) (Value.fits_ofMoment hcivil')
        hcontains hlist fun _ => by decide,
      Operator.holds_ofMoment hrel hcivil hcivil' fun _ => hordering]

/-- Documents compare first by the moments that an ordering begins with. -/
theorem Documents.compareBy_inTime {q : Query} {sort : List (String × Int)}
    (h : q.sortColumns = .ok sort) (hd : d.Dates q.model m) (he : e.Dates q.model n) :
    ∃ o, compareBy sort d e = (Moments.compareBy q.timeOrdering m n).then o := by
  refine Query.compareBy_leads (fun column direction => (column, direction.sign))
    (fun sort => compareBy sort d e) (fun _ _ => rfl) (fun r direction column hr hcolumn => ?_) h
  obtain ⟨hcivil, hstored⟩ := hd.column hr hcolumn
  obtain ⟨hcivil', hstored'⟩ := he.column hr hcolumn
  rw [hstored, hstored', Value.sortOrder_ofMoment hcivil hcivil']
  cases direction <;> rfl

end

/-- What a query finds among documents: those its filter holds for in time, by the moments that its
    ordering begins with. -/
theorem Documents.find_inTime {q : Query} {f : Find} (hfind : q.toFind = .ok f)
    {documents : Documents} {moments : Document → Moments}
    (hdates : ∀ d ∈ documents, d.Dates q.model (moments d))
    (hplain : ∀ f ∈ q.model.fields, f.type = .timestamp → f.column ∉ Document.clauseKeys)
    (hothers : ∀ d ∈ documents, ∀ c ∈ q.comparisons, c.inTime? q.model (moments d) = none →
      (d.answers q.model c).isSome = true) :
    ∃ rows, q.InTime moments (fun d => q.holdsInTime (moments d) (d.answers q.model)) documents
        rows ∧ find f documents = .ok (q.window.slice rows) := by
  obtain ⟨sort, hsort, hfind⟩ := Result.bind_eq_ok.1 hfind
  obtain ⟨filter, hfilter, hfind⟩ := Result.bind_eq_ok.1 hfind
  cases hfind
  have hholds : ∀ d ∈ documents, d.satisfies filter =
      .ok (q.holdsInTime (moments d) (d.answers q.model)) := by
    intro d hd
    refine Query.satisfies_of (fun c hc filter hfilter => ?_) hfilter
    -- A comparison of timestamps is answered by its moments, any other one by the document.
    cases htime : c.inTime? q.model (moments d) with
    | some truth => exact Comparison.satisfies_inTime (hdates d hd) hplain htime hfilter
    | none =>
      have hanswer := hothers d hd c hc htime
      rw [Document.answers, hfilter, Result.ok_bind] at hanswer
      show _ = Except.ok (d.answers q.model c == some true)
      rw [Document.answers, hfilter, Result.ok_bind]
      cases hsatisfies : d.satisfies filter with
      | error e =>
        rw [hsatisfies] at hanswer
        cases hanswer
      | ok b => cases b <;> rfl
  have := transCmp_comap (Moments.compareBy q.timeOrdering) moments
  refine ⟨_, ⟨sorted_perm _ _, pairwise_sorted_first fun a ha b hb => ?_⟩,
    congrArg _ (matching_of_satisfies hholds)⟩
  exact compareBy_inTime hsort (hdates a (List.mem_of_mem_filter ha))
    (hdates b (List.mem_of_mem_filter hb))

/-! ## Rows -/

namespace Sqlite

/-- The row has the moments in the columns of the timestamp fields. -/
def Table.Dates (t : Table) (s : Schema) (m : Moments) (row : Row) : Prop :=
  ∀ f ∈ s.fields, f.type = .timestamp → (∀ t ∈ m f.name, t.Civil) ∧
    t.term row f.column = ⟨.ofValue (.ofMoment (m f.name)), some (.ofType .timestamp)⟩

variable {s : Schema} {m : Moments} {t : Table} {row : Row} {c : Comparison} {truth : Truth}

/-- The answer of a row to a comparison, unknown if there is none. -/
def Table.answers (t : Table) (s : Schema) (row : Row) (c : Comparison) : Truth :=
  (Condition.ofComparison s c).toOption.bind (t.evaluate row)

/-- The row of a typed record has the moments of the record. -/
theorem Table.dates_of_stores {r : Record} (hr : r.Typed s) (hrow : t.Stores s r row) :
    t.Dates s r.moments row := by
  intro f hf htype
  obtain ⟨hcivil, hvalue⟩ := hr.value_eq_ofMoment hf htype
  have hterm := hrow f hf
  rw [hvalue, Value.unsigned_ofMoment, htype] at hterm
  exact ⟨hcivil, hterm⟩

theorem Table.Dates.term (h : t.Dates s m row) {r : FieldRef} {column : String}
    (hr : s.isTimestamp r = true) (hcolumn : s.columnOf r = .ok column) :
    (∀ t ∈ m r.field, t.Civil) ∧
      t.term row column = ⟨.ofValue (.ofMoment (m r.field)), some (.ofType .timestamp)⟩ := by
  obtain ⟨f, hf, htype, hname, rfl⟩ := Schema.mem_of_isTimestamp hr hcolumn
  exact hname ▸ h f hf htype

/-- A comparison of timestamps is evaluated in time. -/
theorem Table.evaluate_inTime (hrow : t.Dates s m row) (h : c.inTime? s m = some truth)
    {condition : Condition} (hcondition : Condition.ofComparison s c = .ok condition) :
    t.evaluate row condition = truth := by
  obtain ⟨rel, bound, hrel, hbound, hleft, rfl⟩ := Comparison.inTime?_eq_some h
  cases Condition.ofComparison_eq_ok.1 hcondition with
  | isNull => cases hbound
  | isNotNull => cases hbound
  | like => cases hrel
  | memberOfNone => cases hbound
  | member => cases hbound
  | @compare left column hcolumn op rel' hrel' v hv =>
    cases hrel.symm.trans hrel'
    obtain ⟨u, hu, rfl, rfl⟩ := Comparison.bound?_literal hbound
    obtain ⟨hcivil, hterm⟩ := hrow.term hleft hcolumn
    have hfits := Value.fits_ofMoment hcivil
    rw [evaluate, hterm, ← Value.unsigned_ofMoment,
      compareValue_judged hrel hfits (.timestamp hu) fun _ => by decide]
    exact Value.judged_ofMoment hrel hcivil fun w hw => Option.some.inj hw ▸ hu
  | @compareColumns left other column otherColumn hcolumn hother op rel' hrel' =>
    cases hrel.symm.trans hrel'
    obtain ⟨-, hfield, rfl⟩ := Comparison.bound?_field hbound
    obtain ⟨hcivil, hterm⟩ := hrow.term hleft hcolumn
    obtain ⟨hcivil', hterm'⟩ := hrow.term hfield hother
    rw [evaluate, hterm, hterm', ← Value.unsigned_ofMoment,
      ← Value.unsigned_ofMoment (m other.field), compareTerms_judged hrel
        (Value.fits_ofMoment hcivil) (Value.fits_ofMoment hcivil') fun _ => by decide]
    exact Value.judged_ofMoment hrel hcivil hcivil'

/-- Rows compare first by the moments that an ordering begins with. -/
theorem Database.compareRows_inTime {q : Query} {order : List (String × Direction)}
    (h : q.columnOrder = .ok order) {m n : Moments} {a b : Row} (ha : t.Dates q.model m a)
    (hb : t.Dates q.model n b) :
    ∃ o, compareRows t order a b = (Moments.compareBy q.timeOrdering m n).then o := by
  refine Query.compareBy_leads Prod.mk (fun order => compareRows t order a b) (fun _ _ => rfl)
    (fun r direction column hr hcolumn => ?_) h
  obtain ⟨hcivil, hterm⟩ := ha.term hr hcolumn
  obtain ⟨hcivil', hterm'⟩ := hb.term hr hcolumn
  rw [hterm, hterm', Cell.compare_ofMoment hcivil hcivil']
  rfl

/-- What a selection answers with: the rows the filter is known to be true of in time, by the
    moments that the ordering begins with. -/
theorem Database.select_inTime {q : Query} {command : Command} (hselect : q.toSelect = .ok command)
    (hfields : q.model.fields ≠ []) (hwindow : q.window.Signed ∨ q.window.limit = some 0)
    {d : Database} (htable : d.table q.model.table = .ok t) (hapart : t.rows.Nodup)
    {moments : Row → Moments} (hdates : ∀ row ∈ t.rows, t.Dates q.model (moments row) row) :
    ∃ rows, q.InTime moments (fun row => q.judgedInTime (moments row) (t.answers q.model row))
        t.rows rows ∧
      d.execute command = .ok (⟨(q.window.slice rows).map (answer t q.model.columns), 0⟩, d) := by
  obtain ⟨condition, hcondition, hselect⟩ := Result.bind_eq_ok.1 hselect
  obtain ⟨order, horder, hselect⟩ := Result.bind_eq_ok.1 hselect
  cases hselect
  have hcolumns : q.model.columns ≠ [] := by simpa [Schema.columns] using hfields
  have hcheck : checkWindow q.window = .ok () := by rw [checkWindow_eq, if_pos hwindow]
  have hselects : ∀ row ∈ t.rows, t.selects condition row =
      q.judgedInTime (moments row) (t.answers q.model row) := by
    intro row hrow
    refine Query.selects_of (fun c _ condition hcondition => ?_) hcondition
    cases htime : c.inTime? q.model (moments row) with
    | some truth => exact Table.evaluate_inTime (hdates row hrow) htime hcondition
    | none =>
      show _ = t.answers q.model row c
      rw [Table.answers, hcondition]
      rfl
  obtain ⟨rows, hperm, hsorted, hanswer⟩ :=
    select_sorted htable hapart hcolumns condition order hcheck
  rw [List.filter_congr hselects] at hperm
  refine ⟨rows, ⟨hperm, hsorted.imp_of_mem fun {a b} ha hb hab => ?_⟩, ?_⟩
  · have hmem : ∀ row ∈ rows, row ∈ t.rows := fun row hrow =>
      List.mem_of_mem_filter (hperm.mem_iff.1 hrow)
    obtain ⟨o, ho⟩ := compareRows_inTime horder (hdates a (hmem a ha)) (hdates b (hmem b hb))
    rw [ho] at hab
    exact fun hgt => hab (by rw [hgt]; rfl)
  · rw [execute, hanswer]
    rfl

end Sqlite

/-! ## Both -/

open Sqlite

/-- Between the years 0 and 9999 timestamps compare as text in the order of time, and as equal if
they are the same. So both stores answer a query with the rows its filter holds for in time, in the
order of the moments that its ordering begins with: a comparison of a timestamp field with a moment,
or with another such field, says what it says of the moments, and any other comparison what the
store answers to it alone. -/
theorem timestamps_chronological (q : Query) :
    (∀ a b : Timestamp, a.Civil → b.Civil →
      (Value.timestamp a).toDoc.compare? (Value.timestamp b).toDoc = some (a.compare b) ∧
      ((Value.timestamp a).toDoc.equals (Value.timestamp b).toDoc = true ↔ a = b) ∧
      (Cell.ofValue (.timestamp a)).compare (Cell.ofValue (.timestamp b)) = a.compare b) ∧
    (∀ (f : Find) (documents : Documents) (moments : Document → Moments), q.toFind = .ok f →
      (∀ d ∈ documents, d.Dates q.model (moments d)) →
      (∀ f ∈ q.model.fields, f.type = .timestamp → f.column ∉ Document.clauseKeys) →
      (∀ d ∈ documents, ∀ c ∈ q.comparisons, c.inTime? q.model (moments d) = none →
        (d.answers q.model c).isSome = true) →
      ∃ rows, q.InTime moments (fun d => q.holdsInTime (moments d) (d.answers q.model)) documents
          rows ∧ Documents.find f documents = .ok (q.window.slice rows)) ∧
    ∀ (command : Command) (d : Database) (t : Table) (moments : Row → Moments),
      q.toSelect = .ok command → q.model.fields ≠ [] →
      (q.window.Signed ∨ q.window.limit = some 0) → d.table q.model.table = .ok t →
      t.rows.Nodup → (∀ row ∈ t.rows, t.Dates q.model (moments row) row) →
      ∃ rows, q.InTime moments (fun row => q.judgedInTime (moments row) (t.answers q.model row))
          t.rows rows ∧
        d.execute command =
          .ok (⟨(q.window.slice rows).map (Database.answer t q.model.columns), 0⟩, d) := by
  refine ⟨fun a b ha hb => ⟨?order, ?equal, Timestamp.compare_toText ha hb⟩, ?memory, ?engine⟩
  case order => exact Value.compare_toDoc (.timestamp ha) (.timestamp hb) nofun
  case equal =>
    rw [Value.equals_toDoc (.timestamp ha) (.timestamp hb)]
    show (Value.timestamp a == .timestamp b) = true ↔ a = b
    rw [beq_iff_eq, Value.timestamp.injEq]
  case memory =>
    intro f documents moments hfind hdates hplain hothers
    exact Documents.find_inTime hfind hdates hplain hothers
  case engine =>
    intro command d t moments hselect hfields hwindow htable hapart hdates
    exact Database.select_inTime hselect hfields hwindow htable hapart hdates

/-- Entries of the last half second of a year, which a leap second ends, the latest first. Their
fractions have three, nine and six digits. Left out are a null, a whole second and the next year. -/
theorem timestamps_chronological_of_entries :
    let time : Int → Option Timestamp := fun id =>
      [none, some ⟨1483228799, 1500000000⟩, some ⟨1483228800, 0⟩, none,
        some ⟨1483228799, 500001000⟩, some ⟨1483228799, 0⟩, some ⟨1483228799, 999999999⟩].getD
          id.toNat none
    let entry : Schema := ⟨"Entry", [.ofMarks "id" .int [.key, .auto],
      .ofMarks "at" .timestamp [.optional]]⟩
    let q : Query := ⟨entry, some (.group .and [
      FieldRef.test ⟨"Entry", "at"⟩ .gte (.timestamp ⟨1483228799, 500000000⟩),
      FieldRef.test ⟨"Entry", "at"⟩ .lt (.timestamp ⟨1483228800, 0⟩)]),
      [.orderBy ⟨"Entry", "at"⟩ .descending]⟩
    let ids : List Int := [1, 2, 3, 4, 5, 6]
    let documents : Documents := ids.map fun id =>
      [("at", (Value.ofMoment (time id)).toDoc), ("id", .int id)]
    let dated : Document → Moments := fun d _ =>
      time (((d.column "id").asInt64?.map Int64.toInt).getD 0)
    let t : Table := ⟨"Entry", [⟨"id", .integer, true⟩, ⟨"at", .text, false⟩], some 0, true, [],
      ids.map fun id => ⟨.ofInt id, [.integer (.ofInt id), .ofValue (.ofMoment (time id))]⟩, 6⟩
    let written : Row → Moments := fun row _ => time row.number.toInt
    (∃ f rows, q.toFind = .ok f ∧ Documents.find f documents = .ok rows ∧
      q.InTime dated (fun d => q.holdsInTime (dated d) (d.answers entry)) documents rows ∧
      rows.map (fun d => (d.column "id").asInt64?) = [some 1, some 6, some 4]) ∧
    ∃ command rows, q.toSelect = .ok command ∧
      (Database.mk [t]).execute command =
        .ok (⟨rows.map (Database.answer t entry.columns), 0⟩, ⟨[t]⟩) ∧
      q.InTime written (fun row => q.judgedInTime (written row) (t.answers entry row)) t.rows
        rows ∧
      rows.map Row.number = [1, 6, 4] := by
  intro time entry q ids documents dated t written
  obtain ⟨-, hmemory, hengine⟩ := timestamps_chronological q
  have hcivil : ∀ id ∈ ids, ∀ u ∈ time id, u.Civil := by decide +kernel
  have hat : ∀ f ∈ entry.fields, f.type = .timestamp → f.name = "at" ∧ f.column = "at" := by
    decide
  have hslice : ∀ {α : Type} (rows : List α), q.window.slice rows = rows := fun _ => rfl
  constructor
  · obtain ⟨f, hfind⟩ : ∃ f, q.toFind = .ok f := ⟨_, rfl⟩
    have hid : ∀ id ∈ ids, ((Doc.int id).asInt64?.map Int64.toInt).getD 0 = id := by decide
    have hdates : ∀ d ∈ documents, d.Dates q.model (dated d) := by
      intro d hd f hf htype
      obtain ⟨id, hmem, rfl⟩ := List.mem_map.1 hd
      obtain ⟨-, hcolumn⟩ := hat f hf htype
      rw [hcolumn]
      show (∀ u ∈ time (((Doc.int id).asInt64?.map Int64.toInt).getD 0), u.Civil) ∧
        (Value.ofMoment (time id)).toDoc =
          (Value.ofMoment (time (((Doc.int id).asInt64?.map Int64.toInt).getD 0))).toDoc
      rw [hid id hmem]
      exact ⟨hcivil id hmem, rfl⟩
    obtain ⟨rows, htime, hrows⟩ := hmemory f documents dated hfind hdates (by decide)
      (by decide +kernel)
    rw [hslice] at hrows
    refine ⟨f, rows, hfind, hrows, htime, ?_⟩
    have hids : (q.toFind >>= fun f => Documents.find f documents).toOption.map
        (fun rows => rows.map fun d => (d.column "id").asInt64?) =
          some [some 1, some 6, some 4] := by
      decide +kernel
    rw [hfind, Result.ok_bind, hrows] at hids
    exact Option.some.inj hids
  · obtain ⟨command, hselect⟩ : ∃ command, q.toSelect = .ok command := ⟨_, rfl⟩
    have hdates : ∀ row ∈ t.rows, t.Dates q.model (written row) row := by
      intro row hrow f hf htype
      obtain ⟨id, hmem, rfl⟩ := List.mem_map.1 hrow
      obtain ⟨-, hcolumn⟩ := hat f hf htype
      have hid : ∀ id ∈ ids, (Int64.ofInt id).toInt = id := by decide
      have hplace : t.place? "at" = some 1 := by decide +kernel
      rw [hcolumn, Table.term, hplace]
      show (∀ u ∈ time (Int64.ofInt id).toInt, u.Civil) ∧
        Term.mk (.ofValue (.ofMoment (time id))) (some .text) =
          ⟨.ofValue (.ofMoment (time (Int64.ofInt id).toInt)), some .text⟩
      rw [hid id hmem]
      exact ⟨hcivil id hmem, rfl⟩
    obtain ⟨rows, htime, hrows⟩ := hengine command ⟨[t]⟩ t written hselect (by simp)
      (.inl (by decide)) (Database.table_single rfl) (by decide +kernel) hdates
    rw [hslice] at hrows
    refine ⟨command, rows, hselect, hrows, htime, ?_⟩
    -- No two of the moments are the same, so there is only one order of them.
    let expected := [1, 6, 4].filterMap fun n : Int64 => t.rows.find? fun row => row.number == n
    have hexpected : (t.rows.filter fun row =>
        q.judgedInTime (written row) (t.answers entry row)).Perm expected := by decide +kernel
    have horder : expected.Pairwise fun a b =>
        Moments.compareBy q.timeOrdering (written a) (written b) ≠ .gt := by decide +kernel
    have hdistinct : ∀ a ∈ expected, ∀ b ∈ expected,
        Moments.compareBy q.timeOrdering (written a) (written b) ≠ .gt →
        Moments.compareBy q.timeOrdering (written b) (written a) ≠ .gt → a = b := by decide +kernel
    have hperm := htime.found.trans hexpected
    have hrows : rows = expected := List.Perm.eq_of_pairwise
      (fun a b ha hb => hdistinct a (hperm.mem_iff.1 ha) b hb) htime.ordered horder hperm
    rw [hrows]
    decide +kernel

/-- Two timestamps have one text if the nanoseconds of one reach into the second of the other, which
    is in the same minute. And a document is not searched by a column that is named like a clause of
    filters. -/
theorem timestamps_share_text :
    let a : Timestamp := ⟨1704110430, 1500000000⟩
    let b : Timestamp := ⟨1704110431, 500000000⟩
    let entry : Schema := ⟨"Entry", [.ofMarks "id" .int [.key],
      .ofMarks "at" .timestamp [.storeAs "$or"]]⟩
    let q : Query := ⟨entry, some (FieldRef.test ⟨"Entry", "at"⟩ .lt (.timestamp b)), []⟩
    let d : Document := [("$or", (Value.timestamp ⟨1704110430, 0⟩).toDoc), ("id", .int 1)]
    (a.date.year = 2024 ∧ a.nanos < 2 * Timestamp.nanosPerSecond ∧ a.compare b = .lt ∧
      (Value.timestamp a).toDoc.compare? (Value.timestamp b).toDoc = some .eq ∧
      (Value.timestamp a).toDoc.equals (Value.timestamp b).toDoc = true) ∧
    ∃ f, q.toFind = .ok f ∧ (Documents.find f [d]).isOk = false := by
  intro a b entry q d
  exact ⟨by decide +kernel, _, rfl, by decide +kernel⟩

end ModelMapper
