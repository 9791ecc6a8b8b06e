import ModelMapper.Proofs.Result
import ModelMapper.Proofs.Schema.Numbers
import ModelMapper.Proofs.Sqlite.Conditions
import ModelMapper.Sqlite.Database

/-! # Rows of a model's table

What a table holds after records were inserted: one row for each, with the number the record was
stored under.

* `Schema.Apart` — columns that the engine tells apart.
* `Table.For` — the table of a model.
* `Table.insertRow_eq_ok` — one insert that succeeded.
-/

namespace ModelMapper

open Sqlite

/-- No two columns have the same name but for the case of ASCII letters. -/
def Schema.Apart (s : Schema) : Prop := s.columns.Pairwise fun a b => sameName a b = false

theorem Sqlite.sameName_self (a : String) : sameName a a = true := beq_self_eq_true _

theorem Sqlite.sameName_comm (a b : String) : sameName a b = sameName b a := by
  rw [sameName, sameName, Bool.eq_iff_iff, beq_iff_eq, beq_iff_eq, eq_comm]

theorem Schema.Apart.eq_of_sameName {s : Schema} (h : s.Apart) {p q : Nat} {f g : Field}
    (hf : s.fields[p]? = some f) (hg : s.fields[q]? = some g)
    (hname : sameName f.column g.column = true) : p = q := by
  obtain ⟨hp, rfl⟩ := List.getElem?_eq_some_iff.1 hf
  obtain ⟨hq, rfl⟩ := List.getElem?_eq_some_iff.1 hg
  rw [Schema.Apart, Schema.columns, List.pairwise_map, List.pairwise_iff_getElem] at h
  rcases Nat.lt_trichotomy p q with hlt | rfl | hlt
  · rw [h p q hp hq hlt] at hname
    cases hname
  · rfl
  · rw [sameName_comm, h q p hq hp hlt] at hname
    cases hname

theorem Schema.Apart.distinct {s : Schema} (h : s.Apart) : (s.fields.map Field.column).Nodup :=
  List.Pairwise.imp (fun hab heq => by rw [heq, sameName_self] at hab; cases hab) h

namespace Sqlite

/-- The table of a model: it has a column for each field, and a row number only for a key of
    whole numbers that stands alone. -/
structure Table.For (s : Schema) (t : Table) : Prop where
  names : t.columns.map Column.name = s.columns
  affinity : ∀ (p : Nat) (f : Field), s.fields[p]? = some f →
    (t.columns[p]?).map Column.affinity = some (.ofType f.type)
  number : ∀ p, t.numberColumn = some p → ∃ f : Field, s.fields[p]? = some f ∧
    s.keyFields = [f] ∧ Affinity.ofType f.type = .integer
  auto : ∀ (p : Nat) (f : Field), s.fields[p]? = some f → s.keyFields = [f] → f.isAuto = true →
    t.numberColumn = some p ∧ t.autoincrement = true

namespace Table

variable {s : Schema} {t after : Table} {r : Record} {row : Row} {p : Nat} {f : Field}

/-! ## Columns -/

theorem findIdx?_sameName {names : List String}
    (h : names.Pairwise fun a b => sameName a b = false) {name : String}
    (hp : names[p]? = some name) : names.findIdx? (fun c => sameName c name) = some p := by
  obtain ⟨hlt, rfl⟩ := List.getElem?_eq_some_iff.1 hp
  refine List.findIdx?_eq_some_iff_getElem.2 ⟨hlt, sameName_self _, fun j hj => ?_⟩
  rw [List.pairwise_iff_getElem.1 h j p (by omega) hlt hj]
  exact Bool.false_ne_true

section

variable (hnames : t.columns.map Column.name = s.columns)

include hnames

theorem place?_column (hs : s.Apart) (hf : s.fields[p]? = some f) :
    t.place? f.column = some p := by
  have hname : s.columns[p]? = some f.column := by
    rw [Schema.columns, List.getElem?_map, hf]
    rfl
  have hfound := findIdx?_sameName hs hname
  rwa [← hnames, List.findIdx?_map] at hfound

theorem length_columns : t.columns.length = s.fields.length := by
  have hlength := congrArg List.length hnames
  rwa [List.length_map, Schema.columns, List.length_map] at hlength

end

theorem For.term (hfor : t.For s) (hs : s.Apart) (hf : s.fields[p]? = some f) (row : Row) :
    t.term row f.column = ⟨row.cell p, some (.ofType f.type)⟩ := by
  rw [Table.term, place?_column hfor.names hs hf, ← hfor.affinity p f hf]

/-! ## Bound cells -/

/-- Setting cells place by place: a cell is as it was, or as it was set for its field. -/
theorem getElem?_foldl_set {place : Field → Nat} {cell : Field → Cell} {fields : List Field}
    (hplace : ∀ g ∈ fields, place g = p → g = f) (hf : place f = p) (cells : List Cell) :
    (fields.foldl (fun cells g => cells.set (place g) (cell g)) cells)[p]? =
      if f ∈ fields then (cells[p]?).map fun _ => cell f else cells[p]? := by
  induction fields generalizing cells with
  | nil => simp
  | cons g fields ih =>
    obtain ⟨hg, hfields⟩ := List.forall_mem_cons.1 hplace
    rw [List.foldl_cons, ih hfields, List.getElem?_set]
    -- The last field of the place counts, and there is but one.
    by_cases hgp : place g = p
    · obtain rfl := hg hgp
      subst hgp
      by_cases hlt : place g < cells.length
      · simp [hlt]
      · simp [hlt]
    · have hne : f ≠ g := fun h => hgp (h ▸ hf)
      simp [hgp, hne]

/-- The values of some fields are bound to their places. -/
theorem bind_eq_ok (hnames : t.columns.map Column.name = s.columns) (hs : s.Apart)
    (missing : String → EngineError) {fields : List Field} (hfields : ∀ f ∈ fields, f ∈ s.fields)
    (r : Record) :
    Database.bind t missing (fields.map fun f => (f.column, r.value f.name)) =
      .ok (fields.map fun f => ((t.place? f.column).getD 0, .ofValue (r.value f.name))) := by
  rw [Database.bind]
  induction fields with
  | nil => rfl
  | cons f fields ih =>
    obtain ⟨hf, hrest⟩ := List.forall_mem_cons.1 hfields
    obtain ⟨p, hp⟩ := List.getElem?_of_mem hf
    rw [List.map_cons, List.mapM_cons, ih hrest]
    simp only [place?_column hnames hs hp]
    simp [place?_column hnames hs hp]

/-- A row is bound field by field; what is generated is left null. -/
theorem bound_eq (hnames : t.columns.map Column.name = s.columns) (hs : s.Apart)
    (hf : s.fields[p]? = some f) (r : Record) :
    (((s.fields.filter fun f => !f.isGenerated r).map fun f =>
        ((t.place? f.column).getD 0, Cell.ofValue (r.value f.name))).foldl
      (fun cells (q, c) => cells.set q c) (t.columns.map fun _ => Cell.null))[p]? =
      some (.ofValue (r.value f.name)) := by
  have hplace : ∀ g ∈ s.fields.filter fun f => !f.isGenerated r,
      (t.place? g.column).getD 0 = p → g = f := by
    intro g hg hgp
    obtain ⟨q, hq⟩ := List.getElem?_of_mem (List.mem_filter.1 hg).1
    rw [place?_column hnames hs hq, Option.getD_some] at hgp
    rw [hgp, hf] at hq
    exact (Option.some.inj hq).symm
  have hself : (t.place? f.column).getD 0 = p := by
    rw [place?_column hnames hs hf, Option.getD_some]
  have hlt : p < t.columns.length := by
    rw [length_columns hnames]
    exact (List.getElem?_eq_some_iff.1 hf).1
  rw [List.foldl_map]
  refine (getElem?_foldl_set hplace hself _).trans ?_
  rw [List.getElem?_map, List.getElem?_eq_getElem hlt]
  split
  · rfl
  · next hnot =>
    rw [List.mem_filter, not_and, Bool.not_eq_true, Bool.not_eq_false'] at hnot
    have hnull := (Schema.isAuto_of_isGenerated (hnot (List.mem_of_getElem? hf))).2
    generalize r.value f.name = v at hnull
    cases v <;> first | rfl | cases hnull

/-! ## Storing -/

/-- A cell is stored as its column asks, but for the row number. -/
theorem storeCells_getElem? (hfor : t.For s) (hf : s.fields[p]? = some f) {v : Value}
    (hv : v.Fits f.type) {cells : List Cell} (hcell : cells[p]? = some (.ofValue v)) :
    (t.storeCells cells)[p]? = some (.ofValue v.unsigned) := by
  have haffinity := hfor.affinity p f hf
  obtain ⟨column, hcolumn, haffinity⟩ := Option.map_eq_some_iff.1 haffinity
  have hzip : (t.columns.zip cells)[p]? = some (column, .ofValue v) :=
    List.getElem?_zip_eq_some.2 ⟨hcolumn, hcell⟩
  rw [storeCells, List.getElem?_map, hzip]
  show some (column.affinity.store (.ofValue v)) = _
  rw [haffinity, Cell.store_ofValue hv]

/-- The cell that a row brings for its number. -/
def given (t : Table) (cells : List Cell) : Cell :=
  match t.numberColumn with
  | some p => (cells[p]?).getD .null
  | none => .null

theorem given_eq {cells : List Cell} (h : t.numberColumn = some p) :
    t.given cells = (cells[p]?).getD .null := by
  rw [given, h]

/-- The steps of an insert: the number, the columns that must not be null, and uniqueness. -/
theorem insertRow_steps (t : Table) (cells : List Cell) :
    t.insertRow cells =
      (if (t.given cells).isNull then t.nextNumber else asNumber (t.given cells)) >>= fun n =>
        t.checkNotNull cells >>= fun _ =>
          t.checkUnique t.rows ⟨n, t.withNumber n (t.storeCells cells)⟩ >>= fun _ =>
            pure (⟨n, t.withNumber n (t.storeCells cells)⟩, { t with
              rows := place ⟨n, t.withNumber n (t.storeCells cells)⟩ t.rows
              sequence := max t.sequence n }) := by
  -- The two branches go on alike once the number is known.
  unfold insertRow
  show (if (t.given cells).isNull = true then _ else _) = _
  split <;> rfl

/-- What an insert that succeeded did. -/
theorem insertRow_eq_ok {cells : List Cell} (h : t.insertRow cells = .ok (row, after)) :
    (if (t.given cells).isNull then t.nextNumber else asNumber (t.given cells)) =
        .ok row.number ∧
      row.cells = t.withNumber row.number (t.storeCells cells) ∧
      (∀ other ∈ t.rows, other.number ≠ row.number) ∧
      after = { t with
        rows := place row t.rows
        sequence := max t.sequence row.number } := by
  rw [insertRow_steps] at h
  obtain ⟨number, hnumber, h⟩ := Result.bind_eq_ok.1 h
  obtain ⟨_, -, h⟩ := Result.bind_eq_ok.1 h
  obtain ⟨_, hunique, h⟩ := Result.bind_eq_ok.1 h
  cases h
  refine ⟨hnumber, rfl, fun other hother heq => ?_, rfl⟩
  rw [checkUnique, if_pos] at hunique
  · cases hunique
  · exact List.any_eq_true.2 ⟨other, hother, beq_iff_eq.2 heq⟩

theorem int_or_bool {ty : FieldType} (h : Affinity.ofType ty = .integer) :
    ty = .int ∨ ty = .bool := by
  cases ty <;> first | exact .inl rfl | exact .inr rfl | cases h

theorem ofValue_unsigned {v : Value} {ty : FieldType} (hv : v.Fits ty)
    (hty : Affinity.ofType ty = .integer) : Cell.ofValue v.unsigned = .ofValue v := by
  cases hv <;> first | rfl | cases hty

/-- A whole number stands for itself. -/
theorem asNumber_ofValue {v : Value} {ty : FieldType} (hv : v.Fits ty)
    (hty : Affinity.ofType ty = .integer) (hnull : v.isNull = false) {number : Int64}
    (h : asNumber (.ofValue v) = .ok number) : Cell.ofValue v = .integer number := by
  cases hv with
  | null => cases hnull
  | bool b =>
    cases h
    rfl
  | int i =>
    cases h
    rfl
  | _ => cases hty

/-! ## Numbers -/

theorem toInt_succ {n : Int64} (h : n ≠ maxNumber) : (n + 1).toInt = n.toInt + 1 := by
  have hne : n.toInt ≠ maxInt64 := fun heq => h (Int64.toInt_inj.1 heq)
  have hlt := n.toInt_lt
  refine toInt_add_one ?_
  rw [maxInt64] at hne ⊢
  omega

/-- A table that uses no number again gives the one after the largest it ever had. -/
theorem nextNumber_eq_ok (hauto : t.autoincrement = true) (hstarted : 0 ≤ t.sequence.toInt)
    (hbounded : ∀ row ∈ t.rows, row.number.toInt ≤ t.sequence.toInt) {number : Int64}
    (h : t.nextNumber = .ok number) : number = t.sequence + 1 ∧ t.sequence ≠ maxNumber := by
  have hlast : ∀ n, t.lastNumber = some n → n.toInt ≤ t.sequence.toInt := by
    intro n hn
    obtain ⟨row, hrow, rfl⟩ := Option.map_eq_some_iff.1 hn
    exact hbounded row (List.mem_of_getLast? hrow)
  -- The candidate is past the last row, so it is no further than the sequence is.
  have hcandidate : ∀ {n : Int64}, n.toInt ≤ t.sequence.toInt + 1 →
      (if t.sequence = maxNumber then .error .full
        else .ok (max n (t.sequence + 1)) : Outcome Int64) = .ok number →
      number = t.sequence + 1 ∧ t.sequence ≠ maxNumber := by
    intro n hn hnumber
    split at hnumber
    · cases hnumber
    · next hroom =>
      cases hnumber
      have hsucc := toInt_succ hroom
      refine ⟨Int64.toInt_inj.1 ?_, hroom⟩
      rw [toInt_max]
      omega
  simp only [nextNumber, hauto, Bool.not_true, Bool.false_eq_true, if_false] at h
  cases hn : t.lastNumber with
  | none =>
    rw [hn] at h
    have hone : (1 : Int64).toInt = 1 := rfl
    exact hcandidate (by omega) h
  | some n =>
    rw [hn] at h
    dsimp only at h
    by_cases hmax : n = maxNumber
    · rw [if_pos hmax] at h
      cases h
    · rw [if_neg hmax] at h
      have hsucc := toInt_succ hmax
      have hle := hlast n hn
      exact hcandidate (by omega) h

/-! ## Inserting -/

/-- The cells are those of the record, as they are bound. -/
def Binds (s : Schema) (r : Record) (cells : List Cell) : Prop :=
  ∀ (p : Nat) (f : Field), s.fields[p]? = some f → cells[p]? = some (.ofValue (r.value f.name))

section Inserting

variable {cells : List Cell}

/-- A generated field is the row number. -/
theorem For.numberColumn_generated (hfor : t.For s) (hs : s.Portable)
    (hp : s.fields[p]? = some f) (hgenerated : f.isGenerated r = true) :
    t.numberColumn = some p ∧ t.autoincrement = true := by
  have hauto := (Schema.isAuto_of_isGenerated hgenerated).1
  exact hfor.auto p f hp (hs.auto f (List.mem_of_getElem? hp) hauto).1 hauto

/-- A missing number is the next one. -/
theorem For.number_generated (hfor : t.For s) (hs : s.Portable) (hr : r.Typed s)
    (hcells : Binds s r cells) (h : t.insertRow cells = .ok (row, after))
    (hf : s.generated? r = some f) : t.nextNumber = .ok row.number ∧ t.autoincrement = true := by
  obtain ⟨hnumber, -, -, -⟩ := insertRow_eq_ok h
  obtain ⟨hmem, hgenerated⟩ := Schema.generated?_eq_some hf
  obtain ⟨p, hp⟩ := List.getElem?_of_mem hmem
  obtain ⟨hcolumn, hincrement⟩ := hfor.numberColumn_generated hs hp hgenerated
  rw [given_eq hcolumn, hcells p f hp, Option.getD_some, Cell.isNull_ofValue (hr.fits f hmem),
    (Schema.isAuto_of_isGenerated hgenerated).2, if_pos rfl] at hnumber
  exact ⟨hnumber, hincrement⟩

/-- A given number stays. -/
theorem For.number_given (hfor : t.For s) (hs : s.Portable) (hcells : Binds s r cells)
    (h : t.insertRow cells = .ok (row, after)) (hf : s.auto? = some f) {i : Int64}
    (hi : r.value f.name = .int i) : row.number = i := by
  obtain ⟨hnumber, -, -, -⟩ := insertRow_eq_ok h
  obtain ⟨hmem, hauto⟩ := Schema.auto?_eq_some hf
  obtain ⟨p, hp⟩ := List.getElem?_of_mem hmem
  rw [given_eq (hfor.auto p f hp (hs.auto f hmem hauto).1 hauto).1, hcells p f hp, hi] at hnumber
  exact (Except.ok.inj hnumber).symm

theorem getElem?_withNumber_ne (h : t.numberColumn ≠ some p) (number : Int64)
    (cells : List Cell) : (t.withNumber number cells)[p]? = cells[p]? := by
  rw [withNumber]
  cases hcolumn : t.numberColumn with
  | none => rfl
  | some q =>
    have hqp : q ≠ p := fun hqp => h (hqp ▸ hcolumn)
    exact List.getElem?_set_ne hqp

theorem getElem?_withNumber_self (h : t.numberColumn = some p) (number : Int64)
    (hlt : p < cells.length) : (t.withNumber number cells)[p]? = some (.integer number) := by
  rw [withNumber, h]
  exact List.getElem?_set_self hlt

/-- A row number that is not generated is the value of the key. -/
theorem For.number_key (hfor : t.For s) (hr : r.Typed s) (hkeyed : r.Keyed s)
    (hcells : Binds s r cells) (h : t.insertRow cells = .ok (row, after))
    (hp : s.fields[p]? = some f) (hcolumn : t.numberColumn = some p)
    (hno : ¬f.isGenerated r = true) :
    Cell.ofValue (r.value f.name).unsigned = .integer row.number := by
  obtain ⟨hnumber, -, -, -⟩ := insertRow_eq_ok h
  obtain ⟨key, hkey, hkeys, haffinity⟩ := hfor.number p hcolumn
  obtain rfl := Option.some.inj (hkey.symm.trans hp)
  have hfits := hr.fits key (List.mem_of_getElem? hp)
  -- A missing key of whole numbers would have been generated.
  have hnull : (r.value key.name).isNull = false := by
    refine Bool.eq_false_iff.2 fun hnull => hno ?_
    rw [Field.isGenerated, hnull, Bool.and_true]
    exact hkeyed key hkeys (int_or_bool haffinity) hnull
  rw [given_eq hcolumn, hcells p key hp, Option.getD_some, Cell.isNull_ofValue hfits, hnull,
    if_neg Bool.false_ne_true] at hnumber
  rw [ofValue_unsigned hfits haffinity, asNumber_ofValue hfits haffinity hnull hnumber]

/-- The row holds the record with its number. -/
theorem For.insertRow_stores (hfor : t.For s) (hs : s.Portable) (hapart : s.Apart)
    (hr : r.Typed s) (hkeyed : r.Keyed s) (hcells : Binds s r cells)
    (h : t.insertRow cells = .ok (row, after)) : t.Stores s (s.numbered row.number r) row := by
  obtain ⟨-, hrow, -, -⟩ := insertRow_eq_ok h
  intro f hf
  obtain ⟨p, hp⟩ := List.getElem?_of_mem hf
  have hstored := storeCells_getElem? hfor hp (hr.fits f hf) (hcells p f hp)
  rw [hfor.term hapart hp, Row.cell, hrow, hs.value_numbered _ _ hf]
  refine congrArg₂ Term.mk ?_ rfl
  -- The row number overwrites what its column was to store.
  by_cases hcolumn : t.numberColumn = some p
  · rw [getElem?_withNumber_self hcolumn _ (List.getElem?_eq_some_iff.1 hstored).1,
      Option.getD_some]
    split
    · rfl
    · next hno => exact (hfor.number_key hr hkeyed hcells h hp hcolumn hno).symm
  · have hno : ¬f.isGenerated r = true := fun hgenerated =>
      hcolumn (hfor.numberColumn_generated hs hp hgenerated).1
    rw [getElem?_withNumber_ne hcolumn, hstored, Option.getD_some, if_neg hno]

end Inserting

end Table

end Sqlite

end ModelMapper
