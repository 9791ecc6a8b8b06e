import ModelMapper.Proofs.Backend.Simulation
import ModelMapper.Proofs.Sqlite.Rows
import ModelMapper.Proofs.Sqlite.Sorting

/-! # Records kept in a table

A table holds the records of a shelf, each in a row of its own, and a search gives those its
filter is known to be true of.

* `Table.Keeps` — the table of a model with such rows.
* `Database.newTable_for` — the table that a model is created with.
* `Table.Keeps.insertRow` — one row more.
* `Table.Holds` — the rows alone, whatever their numbers come from: `Database.select_held` finds
  the records in them, and `Cluster.run_fetch` answers with these.
* `Database.Keeps`, `Cluster.Keeps` — the same for a database with one table, and for a session
  that sees it: what `keeps_create`, `Keeps.insert` and `Keeps.add` lead to, and what
  `Keeps.select` and `Keeps.fetch` find in it.
-/

namespace ModelMapper

namespace Sqlite

namespace Table

variable {s : Schema} {shelf : Shelf} {t after : Table} {r : Record} {row : Row}
  {cells : List Cell}

/-! ## Rows -/

theorem place_perm (row : Row) (rows : List Row) : (place row rows).Perm (row :: rows) := by
  induction rows with
  | nil => exact .refl _
  | cons other rows ih =>
    rw [place]
    split
    · exact .refl _
    · exact (ih.cons other).trans (.swap row other rows)

/-- The table of a model holds the records of a shelf.  Its rows have numbers of their own, none
    past the sequence, which is the last number given out where a field numbers itself. -/
structure Keeps (t : Table) (s : Schema) (shelf : Shelf) : Prop where
  layout : t.For s
  rows : ∃ rows, rows.Perm t.rows ∧ List.Forall₂ (t.Stores s) shelf.records rows
  distinct : (t.rows.map Row.number).Nodup
  bounded : ∀ row ∈ t.rows, row.number.toInt ≤ t.sequence.toInt
  started : 0 ≤ t.sequence.toInt
  last : ∀ f, s.auto? = some f → t.sequence = shelf.last

/-- The rows of a table hold these records, each in a row of its own. -/
structure Holds (t : Table) (s : Schema) (records : List Record) : Prop where
  rows : ∃ rows, rows.Perm t.rows ∧ List.Forall₂ (t.Stores s) records rows
  distinct : (t.rows.map Row.number).Nodup

theorem Keeps.holds (h : t.Keeps s shelf) : t.Holds s shelf.records := ⟨h.rows, h.distinct⟩

theorem stores_completed (h : t.Stores s r row) : t.Stores s (s.completed r) row := by
  intro f hf
  rw [Schema.value_completed hf, h f hf]

/-- The number of a new row is the one of the shelf, where a number is generated. -/
theorem Keeps.numbered (h : t.Keeps s shelf) (hs : s.Portable) (hr : r.Typed s)
    (hcells : Binds s r cells) (hinsert : t.insertRow cells = .ok (row, after)) :
    s.numbered row.number r = s.numbered (shelf.last + 1) r := by
  refine Schema.numbered_congr fun f hf => ?_
  obtain ⟨hnumber, hauto⟩ := h.layout.number_generated hs hr hcells hinsert hf
  rw [(nextNumber_eq_ok hauto h.started h.bounded hnumber).1, h.last f ?_]
  obtain ⟨hmem, hgenerated⟩ := Schema.generated?_eq_some hf
  exact (hs.auto?_iff hmem).2 (Schema.isAuto_of_isGenerated hgenerated).1

/-- So is the last number given out. -/
theorem Keeps.counted (h : t.Keeps s shelf) (hs : s.Portable) (hr : r.Typed s)
    (hcells : Binds s r cells) (hinsert : t.insertRow cells = .ok (row, after)) {f : Field}
    (hf : s.auto? = some f) : max t.sequence row.number = s.counted shelf.last r := by
  obtain ⟨hmem, hauto⟩ := Schema.auto?_eq_some hf
  cases hnull : (r.value f.name).isNull with
  | true =>
    have hgenerated : s.generated? r = some f := by
      rw [hs.generated?_iff hmem, Field.isGenerated, hauto, hnull]
      rfl
    obtain ⟨hnumber, hincrement⟩ := h.layout.number_generated hs hr hcells hinsert hgenerated
    obtain ⟨hnext, hroom⟩ := nextNumber_eq_ok hincrement h.started h.bounded hnumber
    rw [Schema.counted_missing hf hnull, ← h.last f hf, hnext]
    have hsucc := toInt_succ hroom
    refine Int64.toInt_inj.1 ?_
    rw [toInt_max]
    omega
  | false =>
    obtain ⟨i, hi⟩ := hs.value_auto hr hf hnull
    rw [Schema.counted_given hf hi, ← h.last f hf,
      h.layout.number_given hs hcells hinsert hf hi]

/-- A row more is a record more. -/
theorem Keeps.insertRow (h : t.Keeps s shelf) (hs : s.Portable) (hapart : s.Apart)
    (hr : r.Typed s) (hkeyed : r.Keyed s) (hcells : Binds s r cells)
    (hinsert : t.insertRow cells = .ok (row, after)) :
    after.Keeps s (shelf.put s r) ∧
      after.Stores s (s.completed (s.numbered (shelf.last + 1) r)) row := by
  have hstores := h.layout.insertRow_stores hs hapart hr hkeyed hcells hinsert
  rw [h.numbered hs hr hcells hinsert] at hstores
  have hcounted := fun f => h.counted hs hr hcells hinsert (f := f)
  obtain ⟨-, -, hunique, rfl⟩ := insertRow_eq_ok hinsert
  obtain ⟨rows, hperm, hrows⟩ := h.rows
  have hplace := place_perm row t.rows
  refine ⟨⟨⟨h.layout.names, h.layout.affinity, h.layout.number, h.layout.auto⟩,
    ⟨rows ++ [row], ?_, List.rel_append hrows (.cons (stores_completed hstores) .nil)⟩,
    ?_, ?_, ?_, hcounted⟩, stores_completed hstores⟩
  · exact ((List.perm_append_comm).trans (hperm.cons row)).trans hplace.symm
  · rw [(hplace.map _).nodup_iff, List.map_cons, List.nodup_cons]
    refine ⟨fun hmem => ?_, h.distinct⟩
    obtain ⟨other, hother, hnumber⟩ := List.mem_map.1 hmem
    exact hunique other hother hnumber
  · intro other hother
    show _ ≤ (max t.sequence row.number).toInt
    rw [toInt_max]
    rcases List.mem_cons.1 (hplace.mem_iff.1 hother) with rfl | hother
    · omega
    · have hle := h.bounded other hother
      omega
  · show _ ≤ (max t.sequence row.number).toInt
    have hstarted := h.started
    rw [toInt_max]
    omega

end Table

namespace Database

open Sql (ColumnDefinition Condition)

variable {s : Schema} {shelf : Shelf} {r : Record} {f : Field} {p : Nat}

/-! ## Creating -/

theorem pairwise_of_repeatedColumn? {earlier : List String} {columns : List ColumnDefinition}
    (h : repeatedColumn? earlier columns = none) :
    (∀ c ∈ columns, ∀ name ∈ earlier, sameName c.name name = false) ∧
      columns.Pairwise fun a b => sameName a.name b.name = false := by
  induction columns generalizing earlier with
  | nil => exact ⟨nofun, .nil⟩
  | cons c rest ih =>
    rw [repeatedColumn?] at h
    split at h
    · cases h
    · next hnew =>
      obtain ⟨hearlier, hpairs⟩ := ih h
      have hc : ∀ name ∈ earlier, sameName c.name name = false := by simpa using hnew
      refine ⟨List.forall_mem_cons.2 ⟨hc, fun d hd name hname => ?_⟩,
        List.pairwise_cons.2 ⟨fun d hd => ?_, hpairs⟩⟩
      · exact hearlier d hd name (List.mem_cons_of_mem _ hname)
      · rw [sameName_comm]
        exact hearlier d hd c.name List.mem_cons_self

/-- A column numbers itself when it is the one key and generated. -/
theorem autoKey_columnDefinition (hf : f ∈ s.fields) :
    (s.columnDefinition f).autoKey = true ↔ s.keyFields = [f] ∧ f.isAuto = true := by
  show (s.hasAutoKey && f.isKey) = true ↔ _
  rw [Bool.and_eq_true, Schema.hasAutoKey]
  constructor
  · rintro ⟨hauto, hkey⟩
    have hmem : f ∈ s.keyFields := List.mem_filter.2 ⟨hf, hkey⟩
    split at hauto
    · next g hkeys =>
      rw [hkeys] at hmem ⊢
      obtain rfl := List.mem_singleton.1 hmem
      exact ⟨rfl, hauto⟩
    · cases hauto
  · rintro ⟨hkeys, hauto⟩
    rw [hkeys]
    exact ⟨hauto, (Schema.mem_keyFields hkeys).2⟩

/-- The row number of a new table is the place of a key that stands alone. -/
theorem numberColumn?_eq_some (hapart : s.Apart)
    (h : numberColumn? (s.fields.map s.columnDefinition)
      (if s.hasAutoKey then [] else s.keyFields.map Field.column) = some p) :
    ∃ f : Field, s.fields[p]? = some f ∧ s.keyFields = [f] ∧
      (f.isAuto = true ∨ Affinity.ofType f.type = .integer) := by
  unfold numberColumn? at h
  split at h
  · next q hq =>
    cases h
    rw [List.findIdx?_map] at hq
    -- A column that numbers itself comes before the key of a whole number.
    obtain ⟨hlt, hauto, -⟩ := List.findIdx?_eq_some_iff_getElem.1 hq
    obtain ⟨hkeys, hauto⟩ := (autoKey_columnDefinition (List.getElem_mem hlt)).1 hauto
    exact ⟨_, List.getElem?_eq_getElem hlt, hkeys, .inl hauto⟩
  · split at h
    · next key hkey =>
      split at hkey
      · cases hkey
      · obtain ⟨f, hkeys, rfl⟩ := List.map_eq_singleton_iff.1 hkey
        rw [List.findIdx?_map] at h
        obtain ⟨hlt, hfound, -⟩ := List.findIdx?_eq_some_iff_getElem.1 h
        obtain ⟨hname, htype⟩ := Bool.and_eq_true_iff.1 hfound
        obtain ⟨q, hq⟩ := List.getElem?_of_mem (Schema.mem_keyFields hkeys).1
        obtain rfl := hapart.eq_of_sameName (List.getElem?_eq_getElem hlt) hq hname
        obtain ⟨_, rfl⟩ := List.getElem?_eq_some_iff.1 hq
        exact ⟨_, hq, hkeys, .inr (beq_iff_eq.1 htype)⟩
    · cases h

/-- A generated key that stands alone is the row number of a new table. -/
theorem numberColumn?_generated (hapart : s.Apart) (hf : s.fields[p]? = some f)
    (hkeys : s.keyFields = [f]) (hauto : f.isAuto = true) (primaryKey : List String) :
    numberColumn? (s.fields.map s.columnDefinition) primaryKey = some p := by
  obtain ⟨hlt, rfl⟩ := List.getElem?_eq_some_iff.1 hf
  have hself := (autoKey_columnDefinition (List.getElem_mem hlt)).2 ⟨hkeys, hauto⟩
  -- The key stands alone, so no column before it numbers itself.
  have hfirst : (s.fields.map s.columnDefinition).findIdx? ColumnDefinition.autoKey = some p := by
    rw [List.findIdx?_map]
    refine List.findIdx?_eq_some_iff_getElem.2 ⟨hlt, hself, fun j hj hother => ?_⟩
    have hsame := ((autoKey_columnDefinition (List.getElem_mem _)).1 hother).1.symm.trans hkeys
    have hname := congrArg Field.column (List.cons.inj hsame).1
    have hjp := hapart.eq_of_sameName (List.getElem?_eq_getElem (hj.trans hlt)) hf
      (by rw [hname, sameName_self])
    exact absurd hjp (Nat.ne_of_lt hj)
  unfold numberColumn?
  rw [hfirst]

theorem names_newTable (s : Schema) (primaryKey : List String) :
    (newTable s.table (s.fields.map s.columnDefinition) primaryKey).columns.map Column.name =
      s.columns := by
  show ((s.fields.map s.columnDefinition).map _).map Column.name = s.columns
  rw [List.map_map, List.map_map]
  rfl

theorem newTable_for (hs : s.Portable) (hapart : s.Apart) :
    (newTable s.table (s.fields.map s.columnDefinition)
      (if s.hasAutoKey then [] else s.keyFields.map Field.column)).For s where
  names := names_newTable s _
  affinity p f hf := by
    show (((s.fields.map s.columnDefinition).map _)[p]?).map Column.affinity = _
    rw [List.getElem?_map, List.getElem?_map, hf]
    show some (if (s.columnDefinition f).autoKey then _ else Affinity.ofType f.type) = _
    split
    · next hauto =>
      have hmem := List.mem_of_getElem? hf
      rw [(hs.auto f hmem ((autoKey_columnDefinition hmem).1 hauto).2).2]
      rfl
    · rfl
  number p hp := by
    obtain ⟨f, hf, hkeys, haffinity⟩ := numberColumn?_eq_some hapart hp
    refine ⟨f, hf, hkeys, haffinity.elim (fun hauto => ?_) id⟩
    rw [(hs.auto f (List.mem_of_getElem? hf) hauto).2]
    rfl
  auto p f hf hkeys hauto := by
    have hmem := List.mem_of_getElem? hf
    have hself := (autoKey_columnDefinition hmem).2 ⟨hkeys, hauto⟩
    exact ⟨numberColumn?_generated hapart hf hkeys hauto _,
      List.any_eq_true.2 ⟨_, List.mem_map_of_mem hmem, hself⟩⟩

/-! ## Databases -/

/-- The one table of the database is that of the model, with the records of a shelf. -/
structure Keeps (d : Database) (s : Schema) (shelf : Shelf) : Prop where
  apart : s.Apart
  filled : s.fields ≠ []
  table : ∃ t : Table, d.tables = [t] ∧ t.name = s.table ∧ t.Keeps s shelf

variable {d after : Database} {t : Table}

theorem table_single (h : d.tables = [t]) : d.table t.name = .ok t := by
  rw [table, find?, h, List.find?_singleton, sameName_self]
  rfl

theorem replace_single (h : d.tables = [t]) {t' : Table} (hname : t'.name = t.name) :
    d.replace t' = ⟨[t']⟩ := by
  rw [replace, h, List.map_singleton, hname, sameName_self]
  rfl

theorem columns_ne_nil (h : s.fields ≠ []) : s.columns.isEmpty = false := by
  rw [Schema.columns, List.isEmpty_eq_false_iff, ne_eq, List.map_eq_nil_iff]
  exact h

/-- The answer of a row is read as its record. -/
theorem readRow_answer {row : Row} (hr : r.Typed s) (hrow : t.Stores s r row) :
    s.readRow (answer t s.columns row) = .ok (s.completed r).unsigned := by
  have hcells : answer t s.columns row =
      s.fields.map fun f => .ofValue (r.value f.name).unsigned := by
    rw [answer, Schema.columns, List.map_map]
    refine List.map_congr_left fun f hf => ?_
    show (t.term row f.column).cell = _
    rw [hrow f hf]
  rw [hcells, Schema.readRow_values hr]

/-- A table that was missing is put behind the others, with columns that the engine tells
    apart. -/
theorem create_eq_ok {name : String} {columns : List ColumnDefinition} {primaryKey : List String}
    (hmissing : d.find? name = none) (h : d.create name columns primaryKey = .ok after) :
    columns ≠ [] ∧ (columns.Pairwise fun a b => sameName a.name b.name = false) ∧
      after = ⟨d.tables ++ [newTable name columns primaryKey]⟩ := by
  unfold create at h
  rw [hmissing] at h
  split at h
  · cases h
  · next hfilled =>
    split at h
    · cases h
    · rw [Option.isSome_none, if_neg Bool.false_ne_true] at h
      split at h
      · cases h
      · next hcolumns =>
        cases h
        exact ⟨fun hnil => hfilled (by rw [hnil]; rfl), (pairwise_of_repeatedColumn? hcolumns).2,
          rfl⟩

theorem apart_of_definitions (h : (s.fields.map s.columnDefinition).Pairwise fun a b =>
    sameName a.name b.name = false) : s.Apart := by
  rw [List.pairwise_map] at h
  rw [Schema.Apart, Schema.columns, List.pairwise_map]
  exact h

/-- A model's table in an empty database. -/
theorem keeps_create (hs : s.Portable) {primaryKey : List String}
    (hkey : primaryKey = if s.hasAutoKey then [] else s.keyFields.map Field.column)
    (h : empty.create s.table (s.fields.map s.columnDefinition) primaryKey = .ok d) :
    d.Keeps s .empty := by
  subst hkey
  obtain ⟨hfilled, hcolumns, rfl⟩ := create_eq_ok rfl h
  have hapart := apart_of_definitions hcolumns
  refine ⟨hapart, fun hnil => hfilled (by rw [hnil]; rfl), _, rfl, rfl, ?_⟩
  exact ⟨newTable_for hs hapart, ⟨[], .refl _, .nil⟩, .nil, List.forall_mem_nil _,
    Int.le_refl 0, fun _ _ => rfl⟩

/-- An insert puts a record on the shelf, and answers with its row. -/
theorem Keeps.insert (h : d.Keeps s shelf) (hs : s.Portable) (hr : r.Typed s)
    (hkeyed : r.Keyed s) {cells : List Cell}
    (hinsert : d.insert s.table ((s.fields.filter fun f => !f.isGenerated r).map fun f =>
      (f.column, r.value f.name)) s.columns = .ok (cells, after)) :
    after.Keeps s (shelf.put s r) ∧ s.readRow cells =
      .ok (s.completed (s.numbered (shelf.last + 1) r)).unsigned := by
  obtain ⟨hapart, hfilled, t, htables, hname, hkeeps⟩ := h
  have hfields : ∀ f ∈ s.fields.filter fun f => !f.isGenerated r, f ∈ s.fields := fun f hf =>
    (List.mem_filter.1 hf).1
  unfold Database.insert at hinsert
  dsimp only at hinsert
  rw [columns_ne_nil hfilled, if_neg Bool.false_ne_true, ← hname, table_single htables,
    Result.ok_bind, Table.bind_eq_ok hkeeps.layout.names hapart _ hfields r,
    Result.ok_bind] at hinsert
  obtain ⟨⟨row, t'⟩, hrow, hanswer⟩ := Result.bind_eq_ok.1 hinsert
  cases hanswer
  obtain ⟨hafter, hstores⟩ := hkeeps.insertRow hs hapart hr hkeyed
    (fun p f hf => Table.bound_eq hkeeps.layout.names hapart hf r) hrow
  have hname' : t'.name = t.name := by
    obtain ⟨-, -, -, rfl⟩ := Table.insertRow_eq_ok hrow
    rfl
  have htyped := Schema.typed_completed (hs.typed_numbered hr (shelf.last + 1))
  constructor
  · rw [replace_single htables hname']
    exact ⟨hapart, hfilled, t', rfl, hname'.trans hname, hafter⟩
  · rw [readRow_answer htyped hstores, Schema.completed_completed]

/-! ## Selecting -/

/-- The rows selected are read as the records the filter is true of. -/
theorem readRows_selected {q : Query} {records : List Record} {rows : List Row}
    (hrows : List.Forall₂ (t.Stores q.model) records rows)
    (hrecords : ∀ r ∈ records, r.Typed q.model ∧ q.model.completed r = r) (hq : q.Typed)
    (hclear : ∀ r ∈ records, ∀ c ∈ q.comparisons, c.Clear r) {condition : Option Condition}
    (hcondition : q.condition = .ok condition) :
    (rows.filter (t.selects condition)).mapM
        (fun row => q.model.readRow (answer t q.model.columns row)) =
      .ok ((records.filter fun r => q.judged r == some true).map Record.unsigned) := by
  induction hrows with
  | nil => rfl
  | @cons r row records rows hrow _ ih =>
    obtain ⟨⟨hr, hcompleted⟩, hrest⟩ := List.forall_mem_cons.1 hrecords
    obtain ⟨hclear, hclears⟩ := List.forall_mem_cons.1 hclear
    rw [List.filter_cons, List.filter_cons, Query.selects_judged hr hrow hq hclear hcondition]
    cases q.judged r == some true with
    | false => exact ih hrest hclears
    | true =>
      rw [if_pos rfl, if_pos rfl, List.mapM_cons, readRow_answer hr hrow, hcompleted,
        ih hrest hclears]
      rfl

/-- A selection without a window: whatever its order is, its rows are read as those records. -/
theorem select_held {q : Query} {records : List Record} (hfilled : q.model.fields ≠ [])
    (htable : d.table q.model.table = .ok t) (ht : t.Holds q.model records)
    (hrecords : ∀ r ∈ records, r.Typed q.model ∧ q.model.completed r = r) (hq : q.Typed)
    (hclear : ∀ r ∈ records, ∀ c ∈ q.comparisons, c.Clear r) {condition : Option Condition}
    (hcondition : q.condition = .ok condition) (order : List (String × Direction)) :
    ∃ rows found, d.select q.model.table q.model.columns condition order .whole = .ok rows ∧
      rows.mapM q.model.readRow = .ok found ∧
      found.Perm ((records.filter fun r => q.judged r == some true).map Record.unsigned) := by
  obtain ⟨rows, hperm, hrows⟩ := ht.rows
  have hcolumns : q.model.columns ≠ [] := by simpa [Schema.columns] using hfilled
  obtain ⟨ordered, hordered, -, hselect⟩ :=
    select_sorted htable (List.Nodup.of_map _ ht.distinct) hcolumns condition order
      (w := .whole) rfl
  have hread := readRows_selected hrows hrecords hq hclear hcondition
  obtain ⟨found, hfound, hsame⟩ := Result.mapM_perm (hordered.trans (hperm.symm.filter _)) hread
  refine ⟨_, found, hselect, ?_, hsame⟩
  rw [List.mapM_map]
  exact hfound

/-- A selection without an order or a window from the one table. -/
theorem Keeps.select {q : Query} (h : d.Keeps q.model shelf) (hwhole : shelf.Whole q.model)
    (hq : q.Typed) (hclear : ∀ r ∈ shelf.records, ∀ c ∈ q.comparisons, c.Clear r)
    {condition : Option Condition} (hcondition : q.condition = .ok condition) :
    ∃ rows found, d.select q.model.table q.model.columns condition [] .whole = .ok rows ∧
      rows.mapM q.model.readRow = .ok found ∧
      found.Perm ((shelf.records.filter fun r => q.judged r == some true).map
        Record.unsigned) := by
  obtain ⟨-, hfilled, t, htables, hname, hkeeps⟩ := h
  exact select_held hfilled (hname ▸ table_single htables) hkeeps.holds hwhole hq hclear
    hcondition []

end Database

/-! ## Sessions -/

namespace Cluster

open Sql (Command)

/-- A session without a transaction sees a table with the records of a shelf. -/
structure Keeps (c : Cluster) (id : Nat) (s : Schema) (shelf : Shelf) : Prop where
  session : (c.session id).connection = none
  shared : c.shared.Keeps s shelf

variable {c : Cluster} {id : Nat} {s : Schema} {shelf : Shelf}

/-- Putting back the database that a session sees changes nothing. -/
theorem setView_view (c : Cluster) (id : Nat) : c.setView id (c.view id) = c := by
  rw [view]
  unfold setView
  dsimp only
  cases hconnection : (c.session id).connection with
  | none => rfl
  | some open_ =>
    -- A session with a transaction is one of the cluster.
    have hsession : c.sessions[id]? = some (c.session id) := by
      cases hfound : c.sessions[id]? with
      | none =>
        rw [session, hfound] at hconnection
        cases hconnection
      | some s => rw [session, hfound, Option.getD_some]
    obtain ⟨hid, hget⟩ := List.getElem?_eq_some_iff.1 hsession
    have hself : c.session id = ⟨some open_, (c.session id).depth⟩ := by
      rw [← hconnection]
    show c.setSession id ⟨some open_, (c.session id).depth⟩ = c
    rw [← hself, setSession, ← hget, List.set_getElem_self]

/-- Outside a transaction a command runs on the shared database. -/
theorem run_shared (hsession : (c.session id).connection = none) (context : String)
    (command : Command) : c.run id context command =
      match c.shared.execute command with
      | .ok (answer, after) => (.ok answer, { c with shared := after })
      | .error e =>
        (.error (e.toError context), if e.endsTransaction then c.loseTransaction id else c) := by
  have hview : c.view id = c.shared := by
    rw [view, hsession]
    rfl
  have hset : ∀ d, c.setView id d = { c with shared := d } := by
    intro d
    unfold setView
    dsimp only
    rw [hsession]
  unfold run
  rw [hview]
  cases c.shared.execute command with
  | error e => rfl
  | ok result => exact congrArg _ (hset result.2)

theorem run_eq_ok (hsession : (c.session id).connection = none) {context : String}
    {command : Command} {answer : Database.Answer}
    (h : (c.run id context command).1 = .ok answer) :
    ∃ after, c.shared.execute command = .ok (answer, after) ∧
      (c.run id context command).2 = { c with shared := after } := by
  rw [run_shared hsession] at h ⊢
  cases hcommand : c.shared.execute command with
  | error e =>
    rw [hcommand] at h
    cases h
  | ok result =>
    obtain ⟨given, after⟩ := result
    rw [hcommand] at h
    cases h
    exact ⟨after, rfl, rfl⟩

/-- Creating the table of a model gives an empty shelf. -/
theorem keeps_create (hs : s.Portable) {name : String} {events : List Event}
    {after : Traced Cluster} (h : create 0 ⟨name, [s]⟩ ⟨start, events⟩ = (.ok (), after)) :
    after.state.Keeps 0 s .empty := by
  obtain ⟨_, _, hreport, hall⟩ := Call.bind_eq_ok h
  cases hreport
  obtain ⟨_, _, hdefine, hpure⟩ := Call.bind_eq_ok hall
  cases hpure
  obtain ⟨_, _, hreport', hstep⟩ := Call.bind_eq_ok hdefine
  cases hreport'
  obtain ⟨hrun, rfl⟩ := Call.step_eq_ok hstep
  cases hcommand : start.run 0 "statement failed" s.toCreate with
  | mk outcome c =>
    rw [hcommand] at hrun
    cases outcome with
    | error e => cases hrun
    | ok answer =>
      have hsuccess : (start.run 0 "statement failed" s.toCreate).1 = .ok answer := by
        rw [hcommand]
      obtain ⟨d, hexecute, hstate⟩ := run_eq_ok rfl hsuccess
      obtain ⟨d', hcreate, hpure'⟩ := Result.bind_eq_ok.1 hexecute
      cases hpure'
      rw [hcommand] at hstate
      obtain rfl : c = { start with shared := d } := hstate
      exact ⟨rfl, Database.keeps_create hs rfl hcreate⟩

/-- Adding records puts them on the shelf. -/
theorem Keeps.add (hs : s.Portable) {records stored : List Record} {before after : Traced Cluster}
    (hkeeps : before.state.Keeps id s shelf)
    (hrecords : ∀ r ∈ records, r.Typed s ∧ r.Keyed s)
    (h : Cluster.add id s records before = (.ok stored, after)) :
    after.state.Keeps id s (shelf.putAll s records) := by
  induction records generalizing shelf before stored with
  | nil =>
    cases h
    exact hkeeps
  -- Each record is a call of its own, and the others start from the shelf after it.
  | cons r records ih =>
    obtain ⟨⟨hr, hkeyed⟩, hrest⟩ := List.forall_mem_cons.1 hrecords
    obtain ⟨answer, middle, hcall, hreading⟩ := Call.bind_eq_ok h
    obtain ⟨_, _, hread, hadding⟩ := Call.bind_eq_ok hreading
    obtain ⟨-, rfl⟩ := Call.ofResult_eq_ok hread
    obtain ⟨_, _, hothers, hpure⟩ := Call.bind_eq_ok hadding
    cases hpure
    obtain ⟨_, _, hreport, hstep⟩ := Call.bind_eq_ok hcall
    cases hreport
    obtain ⟨hrun, rfl⟩ := Call.step_eq_ok hstep
    obtain ⟨after', hexecute, hstate⟩ := run_eq_ok hkeeps.session hrun
    obtain ⟨⟨row, d⟩, hinsert, hpure⟩ := Result.bind_eq_ok.1 hexecute
    cases hpure
    refine ih ⟨?_, ?_⟩ hrest hothers
    · rw [hstate]
      exact hkeeps.session
    · rw [hstate]
      exact (hkeeps.shared.insert hs hr hkeyed hinsert).1

/-- A search runs its selection on the database that the session sees, and changes nothing. -/
theorem run_fetch {q : Query} {t : Traced Cluster} {condition : Option Sql.Condition}
    {order : List (String × Direction)} {w : Window} {rows : List (List Cell)}
    {found : List Record}
    (hselect : q.toSelect = .ok (.select q.model.table q.model.columns condition order w))
    (hrows : (t.state.view id).select q.model.table q.model.columns condition order w = .ok rows)
    (hfound : rows.mapM q.model.readRow = .ok found) :
    ∃ events, Cluster.fetch id q t = (.ok found, ⟨t.state, events⟩) := by
  obtain ⟨command, hcommand⟩ : ∃ command : Command, command =
      .select q.model.table q.model.columns condition order w := ⟨_, rfl⟩
  rw [← hcommand] at hselect
  have hexecute : (t.state.view id).execute command = .ok (⟨rows, 0⟩, t.state.view id) := by
    rw [hcommand, Database.execute, hrows]
    rfl
  have hcall : call id "fetch failed" command t =
      (.ok ⟨rows, 0⟩, ⟨t.state, Report.statement command :: t.events⟩) := by
    rw [call, Call.run_bind, Call.run_emit]
    dsimp only
    rw [Call.run_step, run, hexecute]
    dsimp only
    rw [setView_view, Call.run_ofResult]
  refine ⟨Report.statement command :: t.events, ?_⟩
  rw [Cluster.fetch, hselect, Call.run_bind, Call.run_ofResult]
  dsimp only
  rw [Call.run_bind, hcall]
  dsimp only
  rw [hfound, Call.run_ofResult]

/-- A search without an order or a window gives the records its filter is true of, in some
    order. -/
theorem Keeps.fetch {q : Query} {t : Traced Cluster} (h : t.state.Keeps id q.model shelf)
    (hwhole : shelf.Whole q.model) (hq : q.Typed) (hshape : q.shape = [])
    (hclear : ∀ r ∈ shelf.records, ∀ c ∈ q.comparisons, c.Clear r)
    {condition : Option Sql.Condition} (hcondition : q.condition = .ok condition) :
    ∃ found, (Cluster.fetch id q t).1 = .ok found ∧
      found.Perm ((shelf.records.filter fun r => q.judged r == some true).map
        Record.unsigned) := by
  obtain ⟨rows, found, hrows, hfound, hperm⟩ := h.shared.select hwhole hq hclear hcondition
  have hview : t.state.view id = t.state.shared := by
    rw [view, h.session]
    rfl
  have hselect : q.toSelect =
      .ok (.select q.model.table q.model.columns condition [] .whole) := by
    rw [Query.toSelect, hcondition, Query.columnOrder, Query.ordering_unshaped hshape,
      Query.window_unshaped hshape]
    rfl
  obtain ⟨events, hrun⟩ := run_fetch hselect (hview ▸ hrows) hfound
  exact ⟨found, by rw [hrun], hperm⟩

end Cluster

end Sqlite

end ModelMapper
