import ModelMapper.Proofs.Sqlite.Adding

/-! # Tables as they were declared

Whatever becomes of the rows of a table, its columns and its row number stay those that it was
created with.

* `Schema.newTable`, `Table.Declared` — the table of a model as it is created, and with any rows.
* `Table.SameLayout` — a table that differs in its rows at most, as after an insert or an update.
* `Database.Declares.execute`, `Declares.play` — one statement, and any number of them.
* `Database.find?_toCreate`, `Database.execute_toInsert_cases` — the statements of the model itself.
-/

namespace ModelMapper

open Sqlite

/-! ## Tables -/

/-- The table of a model, as it is created. -/
def Schema.newTable (s : Schema) : Table :=
  Database.newTable s.table (s.fields.map s.columnDefinition)
    (if s.hasAutoKey then [] else s.keyFields.map Field.column)

/-- A table that this creates in place of the model's is the model's own. -/
def Sql.Command.KeepsTable (s : Schema) : Sql.Command → Prop
  | .createTable name columns primaryKey => sameName name s.table = true →
      .createTable name columns primaryKey = s.toCreate
  | _ => True

namespace Sqlite

namespace Table

variable {s : Schema} {t t' t'' : Table} {cells : List Cell} {p : Nat} {f : Field}

/-- The table of a model with any rows: its columns and its row number are those it was created
    with. -/
structure Declared (s : Schema) (t : Table) : Prop where
  apart : s.Apart
  name : t.name = s.table
  columns : t.columns = s.newTable.columns
  numberColumn : t.numberColumn = s.newTable.numberColumn

/-- A table that differs in its rows at most. -/
structure SameLayout (t t' : Table) : Prop where
  name : t'.name = t.name
  columns : t'.columns = t.columns
  numberColumn : t'.numberColumn = t.numberColumn

namespace SameLayout

theorem refl (t : Table) : t.SameLayout t := ⟨rfl, rfl, rfl⟩

theorem trans (h : t.SameLayout t') (h' : t'.SameLayout t'') : t.SameLayout t'' :=
  ⟨h'.name.trans h.name, h'.columns.trans h.columns, h'.numberColumn.trans h.numberColumn⟩

theorem insertRow {row : Row} (h : t.insertRow cells = .ok (row, t')) : t.SameLayout t' := by
  obtain ⟨-, -, -, rfl⟩ := insertRow_eq_ok h
  exact ⟨rfl, rfl, rfl⟩

theorem updateRow {old : Row} {bound : List (Nat × Cell)} (h : t.updateRow old bound = .ok t') :
    t.SameLayout t' := by
  unfold Table.updateRow at h
  dsimp only at h
  -- Wherever the number comes from, the two checks and the row follow.
  have hrow : ∀ {number : Outcome Int64} {cells : List Cell} {others : List Row}
      {row : Int64 → Row}, (number >>= fun n => t.checkNotNull cells >>= fun _ =>
        t.checkUnique others (row n) >>= fun _ =>
          pure { t with rows := place (row n) others }) = .ok t' → t.SameLayout t' := by
    intro number cells others row h
    obtain ⟨n, -, h⟩ := Result.bind_eq_ok.1 h
    obtain ⟨_, -, h⟩ := Result.bind_eq_ok.1 h
    obtain ⟨_, -, h⟩ := Result.bind_eq_ok.1 h
    cases h
    exact ⟨rfl, rfl, rfl⟩
  split at h
  · split at h
    · exact hrow h
    · exact hrow h
  · exact hrow h

/-- Rows are updated one after another. -/
theorem foldlM_updateRow {bound : List (Nat × Cell)} {rows : List Row}
    (h : rows.foldlM (fun t row => t.updateRow row bound) t = .ok t') : t.SameLayout t' := by
  induction rows generalizing t with
  | nil =>
    cases h
    exact .refl _
  | cons row rest ih =>
    obtain ⟨middle, hrow, hrest⟩ := Result.bind_eq_ok.1 h
    exact (updateRow hrow).trans (ih hrest)

end SameLayout

namespace Declared

theorem names (h : t.Declared s) : t.columns.map Column.name = s.columns := by
  rw [h.columns]
  exact Database.names_newTable s _

/-- Each field has its column. -/
theorem getElem?_columns (h : t.Declared s) (hf : s.fields[p]? = some f) :
    ∃ c, t.columns[p]? = some c ∧ c.name = f.column ∧
      c.notNull = (s.columnDefinition f).notNull := by
  have hdefinition : (s.fields.map s.columnDefinition)[p]? = some (s.columnDefinition f) := by
    rw [List.getElem?_map, hf, Option.map_some]
  refine ⟨⟨f.column, if (s.columnDefinition f).autoKey then .integer else .ofType f.type,
    (s.columnDefinition f).notNull⟩, ?_, rfl, rfl⟩
  rw [h.columns, Schema.newTable, Database.newTable, List.getElem?_map, hdefinition,
    Option.map_some]
  rfl

/-- A generated field is the row number if it is the only key, and not otherwise. -/
theorem numberColumn_generated (h : t.Declared s) (hf : s.fields[p]? = some f)
    (hauto : f.isAuto = true) : t.numberColumn = some p ↔ s.keyFields = [f] := by
  rw [h.numberColumn]
  constructor
  · intro hnumber
    obtain ⟨g, hg, hkeys, -⟩ := Database.numberColumn?_eq_some h.apart hnumber
    exact Option.some.inj (hf.symm.trans hg) ▸ hkeys
  · intro hkeys
    exact Database.numberColumn?_generated h.apart hf hkeys hauto _

theorem sameLayout (h : t.Declared s) (hlayout : t.SameLayout t') : t'.Declared s :=
  ⟨h.apart, hlayout.name.trans h.name, hlayout.columns.trans h.columns,
    hlayout.numberColumn.trans h.numberColumn⟩

end Declared

end Table

/-! ## Databases -/

namespace Database

open Sql (Command)

variable {s : Schema} {d after before : Database} {t t' : Table} {answer : Answer}
  {command : Command} {name : String}

/-- The table of the model, if there is one, is as it was created but for its rows. -/
def Declares (s : Schema) (d : Database) : Prop := ∀ t, d.find? s.table = some t → t.Declared s

theorem Declares.empty (s : Schema) : empty.Declares s := nofun

/-- One of the tables has other rows. -/
theorem Declares.replace (hd : d.Declares s) (hfound : d.find? name = some t)
    (hlayout : t.SameLayout t') : (d.replace t').Declares s := by
  intro u hu
  rw [find?_replace hfound hlayout.name] at hu
  split at hu
  · next hsame =>
    cases hu
    exact (hd t ((find?_congr hsame).trans hfound)).sameLayout hlayout
  · exact hd u hu

/-- A table is created behind the others, if there is none of its name. -/
theorem Declares.create {columns : List Sql.ColumnDefinition} {primaryKey : List String}
    (hd : d.Declares s) (hcommand : (Command.createTable name columns primaryKey).KeepsTable s)
    (h : d.create name columns primaryKey = .ok after) : after.Declares s := by
  cases hfound : d.find? name with
  | some t =>
    have hsame : after = d := by
      unfold Database.create at h
      rw [hfound] at h
      split at h
      · cases h
      · split at h <;> cases h
        rfl
    exact hsame ▸ hd
  | none =>
    obtain ⟨-, hcolumns, rfl⟩ := create_eq_ok hfound h
    intro t ht
    -- A table that was there before comes first.
    unfold find? at ht
    rw [List.find?_append] at ht
    cases hold : d.find? s.table with
    | some u =>
      unfold find? at hold
      rw [hold] at ht
      cases ht
      exact hd t hold
    | none =>
      unfold find? at hold
      rw [hold, Option.none_or] at ht
      -- The new table is found, so the model's own statement has created it.
      obtain rfl := List.mem_singleton.1 (List.mem_of_find?_eq_some ht)
      have hname := List.find?_some (p := fun t : Table => sameName t.name s.table) ht
      have hown := hcommand hname
      cases hown
      exact ⟨apart_of_definitions hcolumns, rfl, rfl, rfl⟩

/-- All tables of a name are dropped, or none of them. -/
theorem Declares.drop (hd : d.Declares s) (h : d.drop name = .ok after) : after.Declares s := by
  unfold Database.drop at h
  split at h <;> cases h
  intro t ht
  unfold find? at ht
  rw [List.find?_filter] at ht
  have hkept := List.find?_some ht
  rw [decide_eq_true_eq, Bool.not_eq_true'] at hkept
  -- Where a table of that name is left, none of that name was dropped.
  have hname : ∀ u : Table, decide ((!sameName u.name name) = true ∧
      sameName u.name s.table = true) = sameName u.name s.table := by
    intro u
    by_cases hu : sameName u.name s.table = true
    · have hsame : sameName u.name name = sameName t.name name := by
        rw [sameName_congr hu, sameName_congr hkept.2]
      rw [hu, hsame]
      exact decide_eq_true ⟨by rw [hkept.1]; rfl, rfl⟩
    · rw [Bool.not_eq_true] at hu
      rw [hu]
      exact decide_eq_false fun h => Bool.false_ne_true h.2
  exact hd t ((congrArg (d.tables.find? ·) (funext hname)).symm.trans ht)

/-- A statement leaves the table of the model as it was declared. -/
theorem Declares.execute (hd : d.Declares s) (hcommand : command.KeepsTable s)
    (h : d.execute command = .ok (answer, after)) : after.Declares s := by
  cases command with
  | select table columns condition order window =>
    obtain ⟨_, -, hpure⟩ := Result.bind_eq_ok.1 h
    cases hpure
    exact hd
  | count table condition =>
    obtain ⟨_, -, hpure⟩ := Result.bind_eq_ok.1 h
    cases hpure
    exact hd
  | insert table assignments returning =>
    obtain ⟨⟨cells, d'⟩, hinsert, hpure⟩ := Result.bind_eq_ok.1 h
    cases hpure
    obtain ⟨t, t', row, bound, hfound, hrow, rfl⟩ := insert_eq_ok hinsert
    exact hd.replace hfound (.insertRow hrow)
  | update table assignments condition =>
    obtain ⟨⟨n, d'⟩, hupdate, hpure⟩ := Result.bind_eq_ok.1 h
    cases hpure
    obtain ⟨t, htable, hrest⟩ := Result.bind_eq_ok.1 hupdate
    obtain ⟨_, -, hfold⟩ := Result.bind_eq_ok.1 hrest
    obtain ⟨t', hrows, hdone⟩ := Result.bind_eq_ok.1 hfold
    cases hdone
    exact hd.replace (table_eq_ok htable) (.foldlM_updateRow hrows)
  | delete table condition =>
    obtain ⟨⟨n, d'⟩, hdelete, hpure⟩ := Result.bind_eq_ok.1 h
    cases hpure
    obtain ⟨t, htable, hpure⟩ := Result.bind_eq_ok.1 hdelete
    cases hpure
    exact hd.replace (table_eq_ok htable) ⟨rfl, rfl, rfl⟩
  | createTable table columns primaryKey =>
    obtain ⟨d', hcreate, hpure⟩ := Result.bind_eq_ok.1 h
    cases hpure
    exact hd.create hcommand hcreate
  | dropTable table =>
    obtain ⟨d', hdrop, hpure⟩ := Result.bind_eq_ok.1 h
    cases hpure
    exact hd.drop hdrop

/-- A statement that fails changes nothing. -/
def advance (d : Database) (command : Command) : Database :=
  match d.execute command with
  | .ok (_, after) => after
  | .error _ => d

/-- Statements one after another. -/
def play (d : Database) (commands : List Command) : Database := commands.foldl advance d

theorem Declares.advance (hd : d.Declares s) (hcommand : command.KeepsTable s) :
    (d.advance command).Declares s := by
  unfold Database.advance
  split
  · next hexecute => exact hd.execute hcommand hexecute
  · exact hd

theorem Declares.play (hd : d.Declares s) {commands : List Command}
    (hcommands : ∀ command ∈ commands, command.KeepsTable s) : (d.play commands).Declares s := by
  induction commands generalizing d with
  | nil => exact hd
  | cons command rest ih =>
    obtain ⟨hfirst, hrest⟩ := List.forall_mem_cons.1 hcommands
    exact ih (hd.advance hfirst) hrest

/-! ## Statements of the model -/

/-- A table that was missing is there once it is created. -/
theorem find?_toCreate (hmissing : before.find? s.table = none)
    (h : before.execute s.toCreate = .ok (answer, d)) :
    d.find? s.table = some s.newTable ∧ s.newTable.Declared s ∧ s.fields ≠ [] := by
  obtain ⟨after, hcreate, hpure⟩ := Result.bind_eq_ok.1 h
  cases hpure
  obtain ⟨hfilled, hcolumns, rfl⟩ := create_eq_ok hmissing hcreate
  have hself : sameName s.newTable.name s.table = true := sameName_self s.table
  refine ⟨?_, ⟨apart_of_definitions hcolumns, rfl, rfl, rfl⟩, fun hnil => hfilled ?_⟩
  · unfold find? at hmissing ⊢
    rw [List.find?_append, hmissing, Option.none_or]
    exact List.find?_singleton .. ▸ if_pos hself
  · rw [hnil, List.map_nil]

/-- The statement of a record inserts a row of its values. -/
theorem execute_toInsert (hfound : d.find? s.table = some t) (h : t.Declared s)
    (hfilled : s.fields ≠ []) (r : Record) :
    ∃ cells, Table.Binds s r cells ∧ d.execute (s.toInsert r) =
      t.insertRow cells >>= fun done =>
        pure (⟨[Database.answer done.2 s.columns done.1], 1⟩, d.replace done.2) := by
  refine ⟨_, fun p f hf => Table.bound_eq h.names h.apart hf r, ?_⟩
  have hfields : ∀ f ∈ s.fields.filter fun f => !f.isGenerated r, f ∈ s.fields := fun f hf =>
    (List.mem_filter.1 hf).1
  rw [Schema.toInsert, execute, Database.insert, columns_ne_nil hfilled,
    if_neg Bool.false_ne_true, table, hfound]
  simp only [Result.ok_bind, Table.bind_eq_ok h.names h.apart _ hfields r, bind_assoc, pure_bind]

/-- The statement of a record is not carried out without columns or without the table.  Otherwise
    it inserts its row into the table of the model. -/
theorem execute_toInsert_cases (hd : d.Declares s) (r : Record) :
    d.execute (s.toInsert r) = .error .incomplete ∨
    d.execute (s.toInsert r) = .error (.noTable s.table) ∨
    ∃ (t : Table) (cells : List Cell), t.Declared s ∧ Table.Binds s r cells ∧
      d.execute (s.toInsert r) = t.insertRow cells >>= fun done =>
        pure (⟨[Database.answer done.2 s.columns done.1], 1⟩, d.replace done.2) := by
  by_cases hfilled : s.fields = []
  · left
    rw [Schema.toInsert, Database.execute, Database.insert, Schema.columns, hfilled]
    rfl
  · right
    cases hfound : d.find? s.table with
    | none =>
      left
      rw [Schema.toInsert, Database.execute, Database.insert, columns_ne_nil hfilled,
        if_neg Bool.false_ne_true, table, hfound]
      rfl
    | some t =>
      obtain ⟨cells, hcells, hexecute⟩ := execute_toInsert hfound (hd t hfound) hfilled r
      exact .inr ⟨t, cells, hd t hfound, hcells, hexecute⟩

end Database

end Sqlite

end ModelMapper
