import ModelMapper.Memory.Cluster
import ModelMapper.Proofs.Document.Decoding
import ModelMapper.Proofs.Document.Filtering
import ModelMapper.Proofs.Sql.Parameters

/-! # What writes carry

A record is written as a document, as the changes of a document, as an update or as an insert.
The first three go through the record and refuse a field that the model lacks.  An insert goes
through the model, and does not see such a field.

* `Schema.mapM_fields` — a pass over a record, field by field up to one that is unknown.
* `Sql.Command.Gives` — a text gives a column a value; `Sql.Source.gives` — where it does.
* `Schema.Refuses`, `Schema.Carries` — what becomes of a record with an unknown field, and of one
  without.
* `Schema.toInsert_set` — what an insert makes of an unknown field.
* `writes_carry_fields` — the writes of a record.
-/

namespace ModelMapper

open Memory (Cluster)

/-! ## Values in documents -/

/-- The only values that documents hold as null are numbers they have no form for. -/
theorem Value.toDoc_eq_null {v : Value} (hv : v ≠ .null) (h : v.toDoc = .null) :
    ∃ x, v = .float x ∧ x.isFinite = false := by
  cases v with
  | null => exact absurd rfl hv
  | float x =>
    rw [toDoc] at h
    split at h
    · cases h
    · next hfinite => exact ⟨x, rfl, Bool.eq_false_iff.2 hfinite⟩
  | _ => cases h

/-! ## Passes over a record -/

namespace Schema

variable {s : Schema} {r : Record}

theorem unknownField?_eq_none :
    s.unknownField? r = none ↔ ∀ e ∈ r.toList, (s.field? e.1).isSome = true := by
  simp [unknownField?, Option.isSome_iff_ne_none]

theorem unknownField?_eq_some {name : String} (h : s.unknownField? r = some name) :
    r.contains name = true ∧ s.field? name = none := by
  obtain ⟨e, he, rfl⟩ := List.mem_map.1 (List.mem_of_find?_eq_some h)
  refine ⟨?_, by simpa using List.find?_some h⟩
  rw [Record.contains, Record.get?, Entries.get?_of_mem r.sorted he]
  rfl

/-- A pass over the entries of a record stops at the first field that is unknown. -/
theorem mapM_fields {α : Type} (s : Schema) (r : Record) (g : Field → Value → α) :
    (r.toList.mapM fun e => match s.field? e.1 with
      | some f => Except.ok (g f e.2)
      | none => .error (Error.invalidQuery (.unknownField s.name e.1))) =
      match s.unknownField? r with
      | some name => .error (.invalidQuery (.unknownField s.name name))
      | none => .ok (r.toList.filterMap fun e => (s.field? e.1).map fun f => g f e.2) := by
  rw [unknownField?]
  induction r.toList with
  | nil => rfl
  | cons e entries ih =>
    rw [List.mapM_cons, List.map_cons, List.find?_cons, List.filterMap_cons]
    cases hfield : s.field? e.1 with
    | none => rfl
    | some f =>
      rw [ih]
      dsimp only [Option.isNone_some, Option.map_some]
      cases (entries.map Prod.fst).find? fun name => (s.field? name).isNone <;> rfl

end Schema

namespace Query

variable {q : Query} {r : Record}

theorem assignments_of_unknown {name : String} (h : q.model.unknownField? r = some name) :
    q.assignments r = .error (.invalidQuery (.unknownField q.model.name name)) := by
  refine (q.model.mapM_fields r fun f v => (f.column, v)).trans ?_
  rw [h]

theorem assignments_of_known (h : q.model.unknownField? r = none) : q.assignments r =
    .ok (r.toList.filterMap fun e => (q.model.field? e.1).map fun f => (f.column, e.2)) := by
  refine (q.model.mapM_fields r fun f v => (f.column, v)).trans ?_
  rw [h]

/-- The unknown field is told first, whatever the filter is. -/
theorem toUpdate_of_unknown {name : String} (h : q.model.unknownField? r = some name) :
    q.toUpdate r = .error (.invalidQuery (.unknownField q.model.name name)) := by
  have hsome : r.isEmpty = false := by
    obtain ⟨e, he, -⟩ := List.mem_map.1 (List.mem_of_find?_eq_some h)
    exact List.isEmpty_eq_false_iff.2 (List.ne_nil_of_mem he)
  rw [toUpdate, hsome, assignments_of_unknown h]
  rfl

theorem toUpdate_of_known (h : q.model.unknownField? r = none) (hsome : r.isEmpty = false)
    {condition : Option Sql.Condition} (hcondition : q.condition = .ok condition) :
    ∃ c, q.toUpdate r = .ok c := by
  rw [toUpdate, hsome, assignments_of_known h, hcondition]
  exact ⟨_, rfl⟩

end Query

namespace Memory.Cluster

variable {q : Query} {r : Record}

theorem changes_of_unknown {name : String} (h : q.model.unknownField? r = some name) :
    changes q r = .error (.invalidQuery (.unknownField q.model.name name)) := by
  have hpass := q.model.mapM_fields r fun f v => (f.column, v.toDoc)
  rw [h] at hpass
  exact congrArg (fun found => found >>= _) hpass

theorem changes_of_known (h : q.model.unknownField? r = none) {name : String} {v : Value}
    (hentry : r.get? name = some v) {f : Field} (hf : q.model.field? name = some f) :
    ∃ assigned, changes q r = .ok assigned ∧ (f.column, v.toDoc) ∈ assigned := by
  have hpass := q.model.mapM_fields r fun f v => (f.column, v.toDoc)
  rw [h] at hpass
  have hmem : (f.column, v.toDoc) ∈ r.toList.filterMap fun e =>
      (q.model.field? e.1).map fun f => (f.column, e.2.toDoc) :=
    List.mem_filterMap.2 ⟨(name, v), Entries.mem_of_get? hentry, by rw [hf]; rfl⟩
  refine ⟨_, Result.bind_eq_ok.2 ⟨_, hpass, ?_⟩, hmem⟩
  rw [List.isEmpty_eq_false_iff.2 (List.ne_nil_of_mem hmem)]
  rfl

end Memory.Cluster

/-! ## Texts that give values -/

namespace Sql

/-- In the text of a command a parameter is written for a column, and the value is sent for it as
    the one after `n` others. -/
def Command.Gives (c : Command) (d : Dialect) (n : Nat) (column : String) (v : Value) : Prop :=
  (∃ ts, Lexer.scan d .between 1 (c.text d).toList = some ts ∧
    (some column, n + 1) ∈ Token.places ts) ∧ (c.params d)[n]? = some v

/-- A command gives the columns it is made from their values. -/
theorem Source.gives {t : Source} {c : Command} (h : t.compile = .ok c) (d : Dialect) {n : Nat}
    {column : String} {v : Value} (hn : t.bindings[n]? = some (column, v)) :
    c.Gives d n column v := by
  obtain ⟨⟨ts, hscan, -, hplaces⟩, hparams, -⟩ := parameters_line_up h d
  refine ⟨⟨ts, hscan, ?_⟩, ?_⟩
  · rw [hplaces, Nat.add_comm]
    exact List.mem_map.2 ⟨((column, v), 1 + n), List.mk_add_mem_zipIdx_iff_getElem?.2 hn, rfl⟩
  · rw [hparams, List.getElem?_map, hn]
    rfl

end Sql

namespace Query

open Sql (Source Dialect)

/-- The values of a record come before those of the filter. -/
theorem toUpdate_gives {q : Query} {r : Record} {c : Sql.Command} (h : q.toUpdate r = .ok c)
    {name : String} {v : Value} (hentry : r.get? name = some v) {f : Field}
    (hf : q.model.field? name = some f) (d : Dialect) :
    ∃ n < r.size, c.Gives d n f.column v := by
  have hmem : (f.column, v) ∈ r.toList.filterMap fun e =>
      (q.model.field? e.1).map fun f => (f.column, e.2) :=
    List.mem_filterMap.2 ⟨(name, v), Entries.mem_of_get? hentry, by rw [hf]; rfl⟩
  obtain ⟨n, hn, hget⟩ := List.getElem_of_mem hmem
  refine ⟨n, Nat.lt_of_lt_of_le hn (List.length_filterMap_le _ _), ?_⟩
  refine Source.gives (t := .filtered (.update r) q) h d ?_
  show (_ ++ q.bindings)[n]? = _
  rw [List.getElem?_append_left hn, List.getElem?_eq_getElem hn, hget]

end Query

namespace Schema

open Sql (Source Dialect)

variable {s : Schema} {r : Record}

theorem toInsert_gives {name : String} {v : Value} (hentry : r.get? name = some v)
    (hv : v ≠ .null) {f : Field} (hf : s.field? name = some f) (d : Dialect) :
    ∃ n, (s.toInsert r).Gives d n f.column v := by
  obtain ⟨hfields, rfl⟩ := mem_of_field? hf
  have hvalue : r.value f.name = v := by
    rw [Record.value, hentry]
    rfl
  have hgiven : (!f.isGenerated r) = true := by
    rw [Field.isGenerated, hvalue]
    cases v <;> simp_all [Value.isNull]
  have hmem : (f.column, v) ∈ (Source.insert s r).bindings :=
    List.mem_map.2 ⟨f, List.mem_filter.2 ⟨hfields, hgiven⟩, by rw [hvalue]⟩
  obtain ⟨n, hn⟩ := List.getElem?_of_mem hmem
  exact ⟨n, Source.gives (t := .insert s r) rfl d hn⟩

/-- An insert is the same with and without a value for a field that the model lacks. -/
theorem toInsert_set {name : String} (h : s.field? name = none) (r : Record) (v : Value) :
    s.toInsert (r.set name v) = s.toInsert r := by
  have hvalue : ∀ f ∈ s.fields, (r.set name v).value f.name = r.value f.name := by
    intro f hf
    have hne : f.name ≠ name := by simpa using List.find?_eq_none.1 h f hf
    rw [Record.value, Record.get?_set, if_neg hne, Record.value]
  have hgiven : s.fields.filter (fun f => !f.isGenerated (r.set name v)) =
      s.fields.filter fun f => !f.isGenerated r :=
    List.filter_congr fun f hf => by rw [Field.isGenerated, Field.isGenerated, hvalue f hf]
  rw [toInsert, toInsert, hgiven]
  congr 1
  exact List.map_congr_left fun f hf => by rw [hvalue f (List.mem_filter.1 hf).1]

/-! ## The writes of a record -/

/-- The record has a field that the model lacks, and every write but the insert is refused for
    it. -/
structure Refuses (s : Schema) (r : Record) (name : String) : Prop where
  contains : r.contains name = true
  unknown : s.field? name = none
  document : s.encode r = .error (.invalidQuery (.unknownField s.name name))
  changes : ∀ q : Query, q.model = s →
    Cluster.changes q r = .error (.invalidQuery (.unknownField s.name name))
  update : ∀ q : Query, q.model = s →
    q.toUpdate r = .error (.invalidQuery (.unknownField s.name name))

/-- The value is written to the column of a field: it is what the document has there, it is among
    the changes, and every update whose filter can be translated gives it before the values of the
    filter. -/
structure Carries (s : Schema) (r : Record) (d : Document) (v : Value) (f : Field) : Prop where
  document : d.column f.column = v.toDoc
  changes : ∀ q : Query, q.model = s →
    ∃ assigned, Cluster.changes q r = .ok assigned ∧ (f.column, v.toDoc) ∈ assigned
  update : ∀ q : Query, q.model = s → ∀ condition, q.condition = .ok condition →
    ∃ c, q.toUpdate r = .ok c ∧ ∀ dialect, ∃ n < r.size, c.Gives dialect n f.column v

theorem refuses {name : String} (h : s.unknownField? r = some name) : s.Refuses r name where
  contains := (unknownField?_eq_some h).1
  unknown := (unknownField?_eq_some h).2
  document := by rw [encode, h]
  changes q hq := by
    subst hq
    exact Cluster.changes_of_unknown h
  update q hq := by
    subst hq
    exact Query.toUpdate_of_unknown h

theorem carries (hcolumns : s.columns.Nodup) (h : s.unknownField? r = none) {d : Document}
    (hd : s.encode r = .ok d) {name : String} {v : Value} (hentry : r.get? name = some v)
    {f : Field} (hf : s.field? name = some f) : s.Carries r d v f where
  document := by
    obtain ⟨hfields, rfl⟩ := mem_of_field? hf
    rw [stores_encode hcolumns hd f hfields, Record.value, hentry]
    rfl
  changes q hq := by
    subst hq
    exact Cluster.changes_of_known h hentry hf
  update q hq condition hcondition := by
    subst hq
    have hsome : r.isEmpty = false :=
      List.isEmpty_eq_false_iff.2 (List.ne_nil_of_mem (Entries.mem_of_get? hentry))
    obtain ⟨c, hc⟩ := Query.toUpdate_of_known h hsome hcondition
    exact ⟨c, hc, Query.toUpdate_gives hc hentry hf⟩

end Schema

/-- What the writes of a record carry, where the columns of the model are distinct.

    A record with a field that the model lacks is refused for such a field, as a document, as
    changes and as an update.  Of any other record each value is written to the column of its
    field, and the insert gives the values that are not null as well; a document has null there
    only for a number it has no form for.  An insert takes no notice of a field that the model
    lacks. -/
theorem writes_carry_fields {s : Schema} (hs : s.columns.Nodup) (r : Record) :
    ((∃ e ∈ r.toList, s.field? e.1 = none) → ∃ name, s.Refuses r name) ∧
      ((∀ e ∈ r.toList, (s.field? e.1).isSome = true) → ∃ d, s.encode r = .ok d ∧
        ∀ name v, r.get? name = some v → ∃ f, s.field? name = some f ∧ s.Carries r d v f) ∧
      (∀ name v, r.get? name = some v → v ≠ .null →
        (v.toDoc = .null → ∃ x, v = .float x ∧ x.isFinite = false) ∧
        ∀ f, s.field? name = some f → ∀ dialect, ∃ n, (s.toInsert r).Gives dialect n f.column v) ∧
      ∀ name v, s.field? name = none → s.toInsert (r.set name v) = s.toInsert r := by
  refine ⟨fun ⟨e, he, hnone⟩ => ?_, fun hknown => ?_, fun name v hentry hv => ?_,
    fun name v hnone => Schema.toInsert_set hnone r v⟩
  · cases hunknown : s.unknownField? r with
    | some name => exact ⟨name, Schema.refuses hunknown⟩
    | none =>
      have hsome := Schema.unknownField?_eq_none.1 hunknown e he
      rw [hnone] at hsome
      cases hsome
  · refine ⟨_, Schema.encode_eq_ok hknown, fun name v hentry => ?_⟩
    obtain ⟨f, hf⟩ := Option.isSome_iff_exists.1 (hknown _ (Entries.mem_of_get? hentry))
    exact ⟨f, hf, Schema.carries hs (Schema.unknownField?_eq_none.2 hknown)
      (Schema.encode_eq_ok hknown) hentry hf⟩
  · exact ⟨Value.toDoc_eq_null hv, fun f hf dialect => Schema.toInsert_gives hentry hv hf dialect⟩

/-- An item with a field that its model lacks, in two columns. -/
theorem writes_carry_fields_of_item :
    let s : Schema := ⟨"Item", [.plain "name" .text, .ofMarks "size" .int [.storeAs "s"]]⟩
    let r : Record := .ofList [("name", .text "a"), ("nope", .int 1), ("size", .int 2)]
    s.columns.Nodup ∧ (∃ name, s.Refuses r name) ∧
      ∀ dialect, ∃ n, (s.toInsert r).Gives dialect n "s" (.int 2) := by
  intro s r
  have hs : s.columns.Nodup := by decide
  obtain ⟨hrefused, -, hgiven, -⟩ := writes_carry_fields hs r
  refine ⟨hs, hrefused ⟨("nope", .int 1), by decide, rfl⟩, ?_⟩
  exact (hgiven "size" (.int 2) rfl (by decide)).2 (.ofMarks "size" .int [.storeAs "s"]) rfl

/-- An item with a field that its model lacks is inserted without it. -/
theorem insert_forgets_field :
    let s : Schema := ⟨"Item", [.plain "name" .text]⟩
    let r : Record := .ofList [("name", .text "a"), ("nope", .int 1)]
    s.columns.Nodup ∧ s.field? "nope" = none ∧ r.get? "nope" = some (.int 1) ∧
      (s.encode r).toOption = none ∧ ∀ dialect ∈ [Sql.Dialect.sqlite, .postgres],
        (s.toInsert r).params dialect = [.text "a"] ∧
          (s.toInsert r).text dialect = (s.toInsert (r.remove "nope")).text dialect := by
  decide +kernel

end ModelMapper
