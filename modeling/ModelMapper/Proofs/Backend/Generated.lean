import ModelMapper.Proofs.Memory.Numbering
import ModelMapper.Proofs.Sqlite.Declared

/-! # Fields that the backend generates

A record leaves its generated fields to the backend.  Memory numbers every one of them.  A table
numbers a field only where it is the one key, and has nothing but null for the others.

* `Schema.FilledIn` — models whose tables fill in, or leave null, every generated field.
* `Record.LeavesGenerated` — records that give all other fields.
* `Table.Wanting`, `Table.Declared.checkNotNull` — columns that lack a value, and the field at which
  the table of a model refuses such a record.
* `Database.execute_filled`, `execute_unfilled`, `execute_newTable` — the insert of the record.
* `Documents.insert_generates` — the numbers that its document gets.
* `generated_fields_filled` — both backends.
* `generated_field_refused` — a generated field that is not the key.
-/

namespace ModelMapper

open Sqlite

/-! ## Models and records -/

/-- Every generated field is the only key, which numbers the rows, or may be null. -/
def Schema.FilledIn (s : Schema) : Prop :=
  ∀ f ∈ s.fields, f.isAuto = true → s.keyFields = [f] ∨ f.isOptional = true

instance (s : Schema) : Decidable s.FilledIn :=
  inferInstanceAs (Decidable (∀ f ∈ s.fields, f.isAuto = true →
    s.keyFields = [f] ∨ f.isOptional = true))

/-- The record gives all fields but the generated ones.  A float that is not finite would be
    stored as null by one backend or the other. -/
structure Record.LeavesGenerated (s : Schema) (r : Record) : Prop where
  blank : ∀ f ∈ s.fields, (r.value f.name).isNull = f.isAuto
  finite : ∀ f ∈ s.fields, ∀ x, r.value f.name = .float x → x.isFinite = true

namespace Record.LeavesGenerated

variable {s : Schema} {r : Record} {f : Field}

theorem isNull_cell (h : r.LeavesGenerated s) (hf : f ∈ s.fields) :
    (Cell.ofValue (r.value f.name)).isNull = f.isAuto := by
  rw [← h.blank f hf]
  cases hv : r.value f.name with
  | float x =>
    rw [Cell.ofValue_float (h.finite f hf x hv)]
    rfl
  | _ => rfl

theorem isNull_doc (h : r.LeavesGenerated s) (hf : f ∈ s.fields) :
    Document.isNull (r.value f.name).toDoc = f.isAuto := by
  rw [← h.blank f hf]
  cases hv : r.value f.name with
  | float x =>
    rw [Value.toDoc, if_pos (h.finite f hf x hv)]
    rfl
  | _ => rfl

end Record.LeavesGenerated

/-- A column that an insert leaves out may be left out, for all records that leave the generated
    fields alone, if the table can fill in every generated field. -/
theorem Schema.filledIn_iff {s : Schema} {r : Record}
    (hblank : ∀ f ∈ s.fields, (r.value f.name).isNull = f.isAuto) :
    (∀ f ∈ s.fields, f.isGenerated r = true →
      (s.columnDefinition f).autoKey = true ∨ (s.columnDefinition f).notNull = false) ↔
      s.FilledIn := by
  refine forall₂_congr fun f hf => ?_
  rw [Field.isGenerated, hblank f hf, Bool.and_self]
  refine forall_congr' fun hauto => ?_
  have hkey : (s.columnDefinition f).autoKey = true ↔ s.keyFields = [f] := by
    rw [Database.autoKey_columnDefinition hf, and_iff_left hauto]
  have hnotNull : (s.columnDefinition f).notNull =
      (!(s.columnDefinition f).autoKey && !f.isOptional) := rfl
  rw [← hkey, hnotNull]
  cases (s.columnDefinition f).autoKey <;> cases f.isOptional <;> simp

/-! ## Tables -/

namespace Sqlite

namespace Table

variable {s : Schema} {t : Table} {r : Record} {cells : List Cell} {p : Nat} {f : Field}

/-- A column that lacks a value: it must not be null, but is, and is not the row number. -/
structure Wanting (t : Table) (cells : List Cell) (p : Nat) (c : Column) : Prop where
  column : t.columns[p]? = some c
  notNull : c.notNull = true
  isNull : (cells[p]?).map Cell.isNull = some true
  unnumbered : t.numberColumn ≠ some p

/-- A row is refused at a column that lacks a value, if there is one. -/
theorem checkNotNull_cases (t : Table) (cells : List Cell) :
    (t.checkNotNull cells = .ok () ∧ ∀ p c, ¬t.Wanting cells p c) ∨
      ∃ p c, t.Wanting cells p c ∧ t.checkNotNull cells = .error (.notNull t.name c.name) := by
  unfold checkNotNull
  dsimp only
  split
  · next c cell p hfound =>
    right
    have hmem := List.mem_of_find?_eq_some hfound
    have hbroken := List.find?_some hfound
    have hplace := List.mk_mem_zipIdx_iff_getElem?.1 hmem
    obtain ⟨hcolumn, hcell⟩ := List.getElem?_zip_eq_some.1 hplace
    simp only [Bool.and_eq_true, bne_iff_ne] at hbroken
    obtain ⟨⟨hnotNull, hnull⟩, hnumber⟩ := hbroken
    exact ⟨p, c, ⟨hcolumn, hnotNull, by rw [hcell, Option.map_some, hnull], hnumber⟩, rfl⟩
  · next hnone =>
    refine .inl ⟨rfl, fun p c hwanting => ?_⟩
    obtain ⟨cell, hcell, hnull⟩ := Option.map_eq_some_iff.1 hwanting.isNull
    have hplace : (t.columns.zip cells)[p]? = some (c, cell) :=
      List.getElem?_zip_eq_some.2 ⟨hwanting.column, hcell⟩
    have hmem := List.mk_mem_zipIdx_iff_getElem?.2 hplace
    have hbroken := List.find?_eq_none.1 hnone _ hmem
    rw [Bool.not_eq_true] at hbroken
    have hnumber : (t.numberColumn != some p) = true := bne_iff_ne.2 hwanting.unnumbered
    simp only [hwanting.notNull, hnull, hnumber, Bool.and_self] at hbroken
    cases hbroken

namespace Declared

/-- The columns that lack a value are those of generated fields that nothing fills in. -/
theorem wanting_iff (h : t.Declared s) (hr : r.LeavesGenerated s) (hcells : Binds s r cells)
    (hf : s.fields[p]? = some f) :
    (∃ c, t.Wanting cells p c) ↔
      f.isAuto = true ∧ s.keyFields ≠ [f] ∧ f.isOptional = false := by
  have hmem := List.mem_of_getElem? hf
  obtain ⟨c, hc, -, hnotNull⟩ := h.getElem?_columns hf
  have hnull : (cells[p]?).map Cell.isNull = some f.isAuto := by
    rw [hcells p f hf, Option.map_some, hr.isNull_cell hmem]
  have hdeclared : c.notNull = (!(s.columnDefinition f).autoKey && !f.isOptional) := hnotNull
  constructor
  · rintro ⟨c', hwanting⟩
    obtain rfl := Option.some.inj (hc.symm.trans hwanting.column)
    have hauto : f.isAuto = true := Option.some.inj (hnull.symm.trans hwanting.isNull)
    have hrequired := hdeclared.symm.trans hwanting.notNull
    rw [Bool.and_eq_true, Bool.not_eq_true', Bool.not_eq_true'] at hrequired
    exact ⟨hauto, mt (h.numberColumn_generated hf hauto).2 hwanting.unnumbered, hrequired.2⟩
  · rintro ⟨hauto, hkeys, hoptional⟩
    have hkey : (s.columnDefinition f).autoKey = false := by
      rw [Bool.eq_false_iff, ne_eq, Database.autoKey_columnDefinition hmem]
      exact fun hsole => hkeys hsole.1
    refine ⟨c, hc, ?_, by rw [hnull, hauto], mt (h.numberColumn_generated hf hauto).1 hkeys⟩
    rw [hdeclared, hkey, hoptional]
    rfl

/-- No row of such a record lacks a value if all generated fields are filled in.  Otherwise it is
    refused at one of these. -/
theorem checkNotNull (h : t.Declared s) (hr : r.LeavesGenerated s) (hcells : Binds s r cells) :
    (s.FilledIn ∧ t.checkNotNull cells = .ok ()) ∨
      ¬s.FilledIn ∧ ∃ f ∈ s.fields, f.isAuto = true ∧
        t.checkNotNull cells = .error (.notNull s.table f.column) := by
  rcases t.checkNotNull_cases cells with ⟨hok, hnone⟩ | ⟨p, c, hwanting, herror⟩
  · -- A field that nothing fills in would lack its value.
    refine .inl ⟨fun f hf hauto => ?_, hok⟩
    obtain ⟨p, hp⟩ := List.getElem?_of_mem hf
    by_contra hlacks
    rw [not_or, Bool.not_eq_true] at hlacks
    obtain ⟨c, hwanting⟩ := (h.wanting_iff hr hcells hp).2 ⟨hauto, hlacks⟩
    exact hnone p c hwanting
  · right
    have hlt : p < s.fields.length := by
      rw [← length_columns h.names]
      exact (List.getElem?_eq_some_iff.1 hwanting.column).1
    have hp := List.getElem?_eq_getElem hlt
    obtain ⟨hauto, hkeys, hoptional⟩ := (h.wanting_iff hr hcells hp).1 ⟨c, hwanting⟩
    have hmem := List.getElem_mem hlt
    refine ⟨fun hfilled => ?_, _, hmem, hauto, ?_⟩
    · rcases hfilled _ hmem hauto with hsole | hnullable
      · exact hkeys hsole
      · rw [hoptional] at hnullable
        cases hnullable
    · obtain ⟨c', hc', hname, -⟩ := h.getElem?_columns hp
      obtain rfl := Option.some.inj (hc'.symm.trans hwanting.column)
      rw [herror, h.name, hname]

end Declared

/-! ## Rows -/

theorem nextNumber_error {e : EngineError} (h : t.nextNumber = .error e) : e = .full := by
  unfold nextNumber at h
  dsimp only at h
  split at h
  · cases h
    rfl
  · split at h
    · cases h
    · split at h <;> cases h
      rfl

theorem asNumber_error {c : Cell} {e : EngineError} (h : asNumber c = .error e) :
    e = .mismatch := by
  unfold asNumber at h
  split at h <;> cases h
  rfl

theorem checkUnique_error {others : List Row} {row : Row} {e : EngineError}
    (h : t.checkUnique others row = .error e) : ∃ columns, e = .duplicateKey t.name columns := by
  unfold checkUnique at h
  split at h
  · cases h
    exact ⟨_, rfl⟩
  · split at h <;> cases h
    exact ⟨_, rfl⟩

/-- A row that lacks no value is not refused for want of one. -/
theorem insertRow_ne_notNull (h : t.checkNotNull cells = .ok ()) (table column : String) :
    t.insertRow cells ≠ .error (.notNull table column) := by
  intro herror
  rw [insertRow_steps] at herror
  -- The other steps have errors of their own.
  cases hnumber : (if (t.given cells).isNull then t.nextNumber else asNumber (t.given cells)) with
  | error e =>
    rw [hnumber, Result.error_bind] at herror
    cases herror
    split at hnumber
    · cases nextNumber_error hnumber
    · cases asNumber_error hnumber
  | ok n =>
    rw [hnumber, Result.ok_bind, h, Result.ok_bind] at herror
    cases hunique : t.checkUnique t.rows ⟨n, t.withNumber n (t.storeCells cells)⟩ with
    | error e =>
      rw [hunique] at herror
      cases herror
      obtain ⟨columns, hduplicate⟩ := checkUnique_error hunique
      cases hduplicate
    | ok _ =>
      rw [hunique] at herror
      cases herror

/-- One that lacks a value is not stored. -/
theorem insertRow_ne_ok {e : EngineError} (h : t.checkNotNull cells = .error e)
    (done : Row × Table) : t.insertRow cells ≠ .ok done := by
  intro hok
  rw [insertRow_steps] at hok
  obtain ⟨_, -, hrest⟩ := Result.bind_eq_ok.1 hok
  rw [h] at hrest
  cases hrest

/-- In a table without rows a row is refused for want of a value only, once it has a number. -/
theorem insertRow_newTable (hrows : t.rows = []) {n : Int64}
    (hnumber : (if (t.given cells).isNull then t.nextNumber else asNumber (t.given cells)) =
      .ok n) :
    (t.checkNotNull cells = .ok () → ∃ done, t.insertRow cells = .ok done) ∧
      ∀ e, t.checkNotNull cells = .error e → t.insertRow cells = .error e := by
  rw [insertRow_steps, hnumber, Result.ok_bind]
  have hunique : ∀ row, t.checkUnique t.rows row = .ok () := by
    intro row
    rw [checkUnique, hrows, List.any_nil, List.any_nil, Bool.and_false]
    rfl
  refine ⟨fun hok => ?_, fun e herror => ?_⟩
  · rw [hok, Result.ok_bind, hunique, Result.ok_bind]
    exact ⟨_, rfl⟩
  · rw [herror, Result.error_bind]

/-- A value of a whole-number column is a row number. -/
theorem exists_asNumber {ty : FieldType} {v : Value} (hv : v.Fits ty)
    (hty : Affinity.ofType ty = .integer) (hnull : v.isNull = false) :
    ∃ n, asNumber (.ofValue v) = .ok n := by
  cases hv with
  | null => cases hnull
  | bool | int => exact ⟨_, rfl⟩
  | _ => cases hty

/-- In a new table there is a number for every such record. -/
theorem exists_number (hs : s.Apart) (hr : r.LeavesGenerated s) (htyped : r.Typed s)
    (hcells : Binds s r cells) :
    ∃ n, (if (s.newTable.given cells).isNull then s.newTable.nextNumber
      else asNumber (s.newTable.given cells)) = .ok n := by
  have hnext : ∃ n, s.newTable.nextNumber = .ok n := by
    unfold nextNumber
    show ∃ n, (if !s.newTable.autoincrement then Except.ok 1
      else if (0 : Int64) = maxNumber then _ else _) = _
    split
    · exact ⟨_, rfl⟩
    · exact ⟨_, if_neg (by decide)⟩
  cases hcolumn : s.newTable.numberColumn with
  | none =>
    rw [given, hcolumn]
    exact hnext
  | some p =>
    obtain ⟨f, hf, -, hkind⟩ := Database.numberColumn?_eq_some hs hcolumn
    have hmem := List.mem_of_getElem? hf
    rw [given_eq hcolumn, hcells p f hf, Option.getD_some, hr.isNull_cell hmem]
    cases hauto : f.isAuto with
    | true => exact hnext
    | false =>
      -- A key that is not generated is given, and a whole number.
      have hinteger := hkind.resolve_left (by rw [hauto]; exact Bool.false_ne_true)
      exact exists_asNumber (htyped.fits f hmem) hinteger ((hr.blank f hmem).trans hauto)

end Table

/-! ## Databases -/

namespace Database

variable {s : Schema} {d before : Database} {t : Table} {r : Record} {answer : Answer}

/-- The insert of a record that leaves the generated fields alone is never refused for want of a
    value if all of them are filled in. -/
theorem execute_filled (hd : d.Declares s) (hr : r.LeavesGenerated s) (hs : s.FilledIn)
    (table column : String) : d.execute (s.toInsert r) ≠ .error (.notNull table column) := by
  intro hrefused
  rcases execute_toInsert_cases hd r with hearly | hearly | ⟨t, cells, h, hcells, hexecute⟩
  · cases hearly.symm.trans hrefused
  · cases hearly.symm.trans hrefused
  · rcases h.checkNotNull hr hcells with ⟨-, hok⟩ | ⟨hlacks, -⟩
    · rw [hexecute] at hrefused
      cases hrow : t.insertRow cells with
      | error e =>
        rw [hrow] at hrefused
        cases hrefused
        exact Table.insertRow_ne_notNull hok table column hrow
      | ok done =>
        rw [hrow] at hrefused
        cases hrefused
    · exact hlacks hs

/-- Otherwise no such insert ever succeeds. -/
theorem execute_unfilled (hd : d.Declares s) (hr : r.LeavesGenerated s) (hs : ¬s.FilledIn)
    (done : Answer × Database) : d.execute (s.toInsert r) ≠ .ok done := by
  intro hdone
  rcases execute_toInsert_cases hd r with hearly | hearly | ⟨t, cells, h, hcells, hexecute⟩
  · cases hearly.symm.trans hdone
  · cases hearly.symm.trans hdone
  · rcases h.checkNotNull hr hcells with ⟨hall, -⟩ | ⟨-, f, -, -, herror⟩
    · exact hs hall
    · rw [hexecute] at hdone
      obtain ⟨inserted, hinserted, -⟩ := Result.bind_eq_ok.1 hdone
      exact Table.insertRow_ne_ok herror inserted hinserted

/-- The first record of a new table. -/
theorem execute_newTable (hmissing : before.find? s.table = none)
    (h : before.execute s.toCreate = .ok (answer, d)) (hr : r.LeavesGenerated s)
    (htyped : r.Typed s) :
    (s.FilledIn → ∃ done, d.execute (s.toInsert r) = .ok done) ∧
      (¬s.FilledIn → ∃ f ∈ s.fields, f.isAuto = true ∧
        d.execute (s.toInsert r) = .error (.notNull s.table f.column)) := by
  obtain ⟨hfound, hdeclared, hfilled⟩ := find?_toCreate hmissing h
  obtain ⟨cells, hcells, hexecute⟩ := execute_toInsert hfound hdeclared hfilled r
  obtain ⟨n, hnumber⟩ := Table.exists_number hdeclared.apart hr htyped hcells
  obtain ⟨hstores, hrefuses⟩ := Table.insertRow_newTable rfl hnumber
  rw [hexecute]
  rcases hdeclared.checkNotNull hr hcells with ⟨hs, hok⟩ | ⟨hs, f, hf, hauto, herror⟩
  · refine ⟨fun _ => ?_, fun hlacks => absurd hs hlacks⟩
    obtain ⟨done, hdone⟩ := hstores hok
    rw [hdone]
    exact ⟨_, rfl⟩
  · refine ⟨fun hall => absurd hall hs, fun _ => ⟨f, hf, hauto, ?_⟩⟩
    rw [hrefuses _ herror]
    rfl

end Database

end Sqlite

/-! ## Collections -/

namespace Documents

variable {s : Schema} {fields : List Field} {d : Document} {n : Int64}

/-- Every generated field gets a number of its own, larger than all the counter has seen, as long
    as there are so many. -/
theorem foldlM_generates (s : Schema) (hcolumns : (fields.map Field.column).Nodup)
    (hblank : ∀ f ∈ fields, Document.isNull (d.column f.column) = f.isAuto)
    (hroom : n.toInt + fields.countP Field.isAuto ≤ maxInt64) :
    ∃ (d' : Document) (m : Int64), (fields.foldlM (completeField s) d).run n = (.ok d', m) ∧
      m.toInt = n.toInt + fields.countP Field.isAuto ∧
      ∀ f ∈ fields, f.isAuto = true → ∃ k : Int64, n.toInt < k.toInt ∧ k.toInt ≤ m.toInt ∧
        d'.column f.column = .int k.toInt := by
  induction fields generalizing d n with
  | nil => exact ⟨d, n, rfl, by simp, List.forall_mem_nil _⟩
  | cons f rest ih =>
    obtain ⟨hf, hrest⟩ := List.forall_mem_cons.1 hblank
    obtain ⟨hnew, hcolumns⟩ := List.nodup_cons.1 hcolumns
    cases hauto : f.isAuto with
    | false =>
      have hone := run_completeField_plain (s := s) hauto (hf.trans hauto) n
      rw [List.countP_cons_of_neg (by rw [hauto]; exact Bool.false_ne_true)] at hroom ⊢
      obtain ⟨d', m, hrun, hm, hnumbers⟩ := ih hcolumns hrest hroom
      refine ⟨d', m, run_bind_of_ok hone hrun, hm, List.forall_mem_cons.2 ⟨?_, hnumbers⟩⟩
      intro h
      rw [hauto] at h
      cases h
    | true =>
      rw [List.countP_cons_of_pos hauto] at hroom ⊢
      have hsucc : (n + 1).toInt = n.toInt + 1 := toInt_add_one (by omega)
      rw [hauto] at hf
      have hone := run_completeField_missing (s := s) hauto hf n
      -- The other columns are as they were, and this one is null no longer.
      have hkept : ∀ g ∈ rest, Document.isNull (Document.column
          (Entries.put f.column (.int (n + 1).toInt) d) g.column) = g.isAuto := by
        intro g hg
        have hne : g.column ≠ f.column := fun hsame =>
          hnew (hsame ▸ List.mem_map_of_mem hg)
        rw [column_put, if_neg hne]
        exact hrest g hg
      obtain ⟨d', m, hrun, hm, hnumbers⟩ := ih (n := n + 1) hcolumns hkept (by omega)
      have hput : Document.column (Entries.put f.column (.int (n + 1).toInt) d) f.column =
          .int (n + 1).toInt := (column_put ..).trans (if_pos rfl)
      refine ⟨d', m, run_bind_of_ok hone hrun, by omega, List.forall_mem_cons.2 ⟨fun _ => ?_, ?_⟩⟩
      · exact ⟨n + 1, by omega, by omega, (column_foldlM (by rw [hput]; rfl) hrun).trans hput⟩
      · intro g hg hgauto
        obtain ⟨k, hlow, hhigh, hk⟩ := hnumbers g hg hgauto
        exact ⟨k, by omega, hhigh, hk⟩

/-- The document of such a record is stored with all its numbers, unless its key is taken. -/
theorem insert_generates {r : Record} (hr : r.LeavesGenerated s) (hd : s.encode r = .ok d)
    (hcolumns : (s.fields.map Field.column).Nodup) (documents : Documents)
    (hroom : n.toInt + s.fields.countP Field.isAuto ≤ maxInt64) :
    ∃ (stored : Document) (m : Int64), (insert s documents d).run n =
        (if hasKey s documents stored then .error (.constraint ("duplicate key in " ++ s.name))
          else .ok (stored, documents ++ [stored]), m) ∧
      ∀ f ∈ s.fields, f.isAuto = true → ∃ k : Int64, n.toInt < k.toInt ∧ k.toInt ≤ m.toInt ∧
        stored.column f.column = .int k.toInt := by
  have hblank : ∀ f ∈ s.fields, Document.isNull (d.column f.column) = f.isAuto := by
    intro f hf
    rw [Schema.stores_encode hcolumns hd f hf, hr.isNull_doc hf]
  obtain ⟨stored, m, hcomplete, -, hnumbers⟩ := foldlM_generates s hcolumns hblank hroom
  refine ⟨stored, m, ?_, hnumbers⟩
  rw [insert, run_bind, complete, hcomplete]
  dsimp only
  cases hasKey s documents stored <;> rfl

end Documents

/-! ## One record for both -/

/-- A record gives all fields but the generated ones.  The columns that its insert leaves out can be
    left out exactly where each generated field is the only key or may be null.  Then no table of
    the model, whatever became of it, refuses the record for want of a value, and a new one stores
    it.  Otherwise no table ever stores it, and a new one refuses it at a generated field.  A
    collection gives all these fields a number, and stores it wherever its key is free. -/
theorem generated_fields_filled {s : Schema} {r : Record} (hr : r.LeavesGenerated s) :
    ((∀ f ∈ s.fields, f.isGenerated r = true →
        (s.columnDefinition f).autoKey = true ∨ (s.columnDefinition f).notNull = false) ↔
      s.FilledIn) ∧
    (∀ commands : List Sql.Command, (∀ command ∈ commands, command.KeepsTable s) →
      (s.FilledIn → ∀ table column, (Database.empty.play commands).execute (s.toInsert r) ≠
        .error (.notNull table column)) ∧
      (¬s.FilledIn → ∀ done,
        (Database.empty.play commands).execute (s.toInsert r) ≠ .ok done)) ∧
    (∀ (before d : Database) (answer : Database.Answer), before.find? s.table = none →
      before.execute s.toCreate = .ok (answer, d) → r.Typed s →
      (s.FilledIn → ∃ done, d.execute (s.toInsert r) = .ok done) ∧
      (¬s.FilledIn → ∃ f ∈ s.fields, f.isAuto = true ∧
        d.execute (s.toInsert r) = .error (.notNull s.table f.column))) ∧
    ∀ (document : Document), s.encode r = .ok document → (s.fields.map Field.column).Nodup →
      ∀ (documents : Documents) (n : Int64),
        n.toInt + s.fields.countP Field.isAuto ≤ maxInt64 →
        ∃ (stored : Document) (m : Int64), (documents.insert s document).run n =
            (if Documents.hasKey s documents stored then
              .error (.constraint ("duplicate key in " ++ s.name))
            else .ok (stored, documents ++ [stored]), m) ∧
          ∀ f ∈ s.fields, f.isAuto = true → ∃ k : Int64, n.toInt < k.toInt ∧
            k.toInt ≤ m.toInt ∧ stored.column f.column = .int k.toInt := by
  refine ⟨Schema.filledIn_iff hr.blank, fun commands hcommands => ?_, ?_, ?_⟩
  · have hd := (Database.Declares.empty s).play hcommands
    exact ⟨Database.execute_filled hd hr, Database.execute_unfilled hd hr⟩
  · intro before d answer hmissing hcreate htyped
    exact Database.execute_newTable hmissing hcreate hr htyped
  · intro document hd hcolumns documents n hroom
    exact Documents.insert_generates hr hd hcolumns documents hroom

/-- Lots number themselves, and their rank may stay null. -/
theorem generated_fields_filled_of_lots :
    let lot : Schema := ⟨"Lot", [.ofMarks "id" .int [.key, .auto],
      .ofMarks "rank" .int [.auto, .optional], .plain "name" .text]⟩
    let r : Record := .ofList [("name", .text "a")]
    r.LeavesGenerated lot ∧ lot.FilledIn ∧
      (∃ answer d, Database.empty.execute lot.toCreate = .ok (answer, d) ∧
        ∃ done, d.execute (lot.toInsert r) = .ok done) ∧
      ∃ document stored m, lot.encode r = .ok document ∧
        (Documents.insert lot [] document).run 0 = (.ok (stored, [stored]), m) := by
  intro lot r
  have hr : r.LeavesGenerated lot :=
    ⟨by decide, List.forall_mem_cons.2 ⟨nofun, List.forall_mem_cons.2 ⟨nofun,
      List.forall_mem_singleton.2 nofun⟩⟩⟩
  have htyped : r.Typed lot := by
    decide
  have hs : lot.FilledIn := by
    decide
  have hcreated : (Database.empty.execute lot.toCreate).isOk = true := by
    decide +kernel
  obtain ⟨-, -, htables, hcollections⟩ := generated_fields_filled hr
  refine ⟨hr, hs, ?_, ?_⟩
  · rcases hcreate : Database.empty.execute lot.toCreate with e | ⟨answer, d⟩
    · rw [hcreate] at hcreated
      cases hcreated
    · exact ⟨answer, d, rfl, (htables _ d answer rfl hcreate htyped).1 hs⟩
  · obtain ⟨stored, m, hinsert, -⟩ := hcollections _ rfl (by decide) [] 0 (by decide)
    have hfree : Documents.hasKey lot [] stored = false := rfl
    rw [hfree] at hinsert
    exact ⟨_, stored, m, rfl, hinsert⟩

/-- A sequence number that is not the key: it is generated in a collection, but its table neither
    fills it in nor lets it be null. -/
theorem generated_field_refused :
    let item : Schema := ⟨"Item", [.ofMarks "id" .int [.key], .ofMarks "seq" .int [.auto]]⟩
    let r : Record := .ofList [("id", .int 1)]
    let inserted := (Database.empty.execute item.toCreate).bind fun (_, d) =>
      d.execute (item.toInsert r)
    let c := Memory.Cluster.after [⟨0, .ok (.create ⟨"c", [item]⟩)⟩]
    (∃ f ∈ item.fields, f.isGenerated r = true ∧ (item.columnDefinition f).autoKey = false ∧
        (item.columnDefinition f).notNull = true) ∧
      (inserted.map fun _ => ()) = .error (.notNull "Item" "seq") ∧
      (c.add 0 item [r]).1.toOption = some [r.set "seq" (.int 1)] := by
  decide +kernel

end ModelMapper
