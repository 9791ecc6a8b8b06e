import ModelMapper.Proofs.Document.Decoding
import ModelMapper.Sqlite.Evaluation
import ModelMapper.Sqlite.Reading

/-! # Values in cells

What the engine stores for a value, how it compares it, and what is read back.  Only the sign
of a zero is lost.

* `Value.unsigned` — the value without the sign of a zero.
* `Cell.store_ofValue`, `Cell.compared_ofValue` — what a column of the value's type stores, and
  what it makes of an operand.
* `Cell.compare_ofValue` — cells are compared as the values are.
* `readCell_ofValue`, `Schema.readRow_values` — a stored cell is read as its value, and a row of
  them as its record.
-/

namespace ModelMapper

/-! ## Zeros -/

namespace Binary64

/-- The number, where a zero has no sign. -/
def unsigned (x : Binary64) : Binary64 := if x.magnitude = 0 then zero else x

theorem scaled_unsigned (x : Binary64) : x.unsigned.scaled = x.scaled := by
  rw [unsigned]
  split
  · next hzero =>
    rw [scaled, scaled, hzero]
    split <;> split <;> rfl
  · rfl

theorem isFinite_unsigned {x : Binary64} (h : x.isFinite = true) : x.unsigned.isFinite = true := by
  rw [unsigned]
  split
  · decide
  · exact h

end Binary64

namespace Value

/-- The value, where a zero has no sign. -/
def unsigned : Value → Value
  | float x => float x.unsigned
  | v => v

theorem Fits.unsigned {ty : FieldType} {v : Value} (h : v.Fits ty) : v.unsigned.Fits ty := by
  cases h with
  | float hfinite => exact .float (Binary64.isFinite_unsigned hfinite)
  | null => exact .null _
  | bool b => exact .bool b
  | int i => exact .int i
  | text s => exact .text s
  | bytes b => exact .bytes b
  | timestamp hcivil => exact .timestamp hcivil

@[simp] theorem isNull_unsigned (v : Value) : v.unsigned.isNull = v.isNull := by
  cases v <;> rfl

end Value

/-- The record, where no zero has a sign. -/
def Record.unsigned (r : Record) : Record where
  entries := r.entries.map fun e => (e.1, e.2.unsigned)
  sorted := by
    rw [Entries.Sorted, List.pairwise_map]
    exact r.sorted

/-- Changing every value of the entries. -/
theorem Entries.map_put {α : Type} (g : α → α) (key : String) (value : α)
    (entries : List (String × α)) :
    (put key value entries).map (fun e => (e.1, g e.2)) =
      put key (g value) (entries.map fun e => (e.1, g e.2)) := by
  induction entries with
  | nil => rfl
  | cons head rest ih =>
    obtain ⟨k, v⟩ := head
    simp only [put, List.map_cons]
    split
    · rfl
    · split
      · rfl
      · rw [List.map_cons, ih]

theorem Record.unsigned_set (r : Record) (field : String) (v : Value) :
    (r.set field v).unsigned = r.unsigned.set field v.unsigned := by
  rw [Record.mk.injEq]
  exact Entries.map_put Value.unsigned field v r.entries

theorem Record.unsigned_foldl_set (value : Field → Value) (fields : List Field) (done : Record) :
    (fields.foldl (fun done f => done.set f.name (value f)) done).unsigned =
      fields.foldl (fun done f => done.set f.name (value f).unsigned) done.unsigned := by
  induction fields generalizing done with
  | nil => rfl
  | cons f fields ih => rw [List.foldl_cons, List.foldl_cons, ih, unsigned_set]

namespace Sqlite

namespace Cell

variable {ty : FieldType} {v w : Value}

/-! ## Storing -/

theorem ofValue_float {x : Binary64} (h : x.isFinite = true) : ofValue (.float x) = real x := by
  rw [ofValue, Binary64.isNaN_of_isFinite h, if_neg Bool.false_ne_true]

theorem store_ofValue (h : v.Fits ty) :
    (Affinity.ofType ty).store (ofValue v) = ofValue v.unsigned := by
  cases h with
  | @float x hfinite =>
    rw [Value.unsigned, ofValue_float (Binary64.isFinite_unsigned hfinite), ofValue_float hfinite,
      Binary64.unsigned]
    show real (if x.magnitude = 0 then Binary64.ofInt 0 else x) = _
    split <;> rfl
  | null => cases ty <;> rfl
  | _ => rfl

theorem numeric_ofValue (h : v.Fits ty) (hnumeric : (Affinity.ofType ty).isNumeric = true) :
    (ofValue v).numeric = ofValue v := by
  cases h with
  | @float x hfinite =>
    rw [ofValue_float hfinite]
    rfl
  | text => cases hnumeric
  | bytes => cases hnumeric
  | timestamp => cases hnumeric
  | _ => rfl

theorem compared_ofValue (h : v.Fits ty) :
    (Affinity.ofType ty).compared (ofValue v) = ofValue v := by
  cases ty with
  | int => exact numeric_ofValue h rfl
  | bool => exact numeric_ofValue h rfl
  | float => exact numeric_ofValue h rfl
  | _ => cases h <;> rfl

/-! ## Comparing -/

@[simp] theorem isNull_ofValue (h : v.Fits ty) : (ofValue v).isNull = v.isNull := by
  cases h with
  | float hfinite =>
    rw [ofValue_float hfinite]
    rfl
  | _ => rfl

theorem compareBytes_eq_iff (a b : List UInt8) : (compareBytes a b == .eq) = (a == b) := by
  induction a generalizing b with
  | nil => cases b <;> rfl
  | cons x a ih =>
    cases b with
    | nil => rfl
    | cons y b =>
      rw [compareBytes, List.cons_beq_cons, ← ih]
      by_cases hxy : x = y
      · rw [hxy, Std.LawfulEqOrd.compare_eq_iff_eq.2 rfl, beq_self_eq_true, Bool.true_and]
        rfl
      · have hne : Ord.compare x.toNat y.toNat ≠ .eq := fun h =>
          hxy (UInt8.toNat_inj.1 (Std.LawfulEqOrd.compare_eq_iff_eq.1 h))
        rw [beq_false_of_ne hxy, Bool.false_and]
        cases h : Ord.compare x.toNat y.toNat with
        | eq => exact absurd h hne
        | lt => rfl
        | gt => rfl

theorem compare_eq_beq {α : Type} [Ord α] [Std.LawfulEqOrd α] [DecidableEq α] (a b : α) :
    (Ord.compare a b == .eq) = decide (a = b) := by
  rw [Bool.eq_iff_iff, beq_iff_eq, Std.LawfulEqOrd.compare_eq_iff_eq, decide_eq_true_eq]

/-- Cells are in the order of the values they hold, and equal where these agree. -/
theorem compare_ofValue (hv : v.Fits ty) (hw : w.Fits ty) (hv' : v.isNull = false)
    (hw' : w.isNull = false) :
    v.agrees w = ((ofValue v).compare (ofValue w) == .eq) ∧
      (ty ≠ .bytes → v.order? w = some ((ofValue v).compare (ofValue w))) := by
  -- Operands of one type that are not null: one case for each type.
  cases hv <;> cases hw
  case bool.bool a b => cases a <;> cases b <;> exact ⟨by decide, fun _ => by decide⟩
  case int.int i j =>
    refine ⟨?_, fun _ => rfl⟩
    show (Value.int i == .int j) = (Ord.compare i.toInt j.toInt == .eq)
    rw [compare_eq_beq, Bool.eq_iff_iff]
    simp [Int64.toInt_inj]
  case float.float x hx y hy =>
    have hcompare : (ofValue (.float x)).compare (ofValue (.float y)) =
        Ord.compare x.scaled y.scaled := by
      rw [ofValue_float hx, ofValue_float hy]
      rfl
    rw [hcompare]
    refine ⟨?_, fun _ => Binary64.compare?_of_isFinite hx hy⟩
    rw [Value.agrees, Binary64.equals, Binary64.compare?_of_isFinite hx hy]
    rfl
  case text.text s t =>
    refine ⟨?_, fun _ => rfl⟩
    show (Value.text s == .text t) = (Ord.compare s t == .eq)
    rw [compare_eq_beq, Bool.eq_iff_iff]
    simp
  case bytes.bytes a b =>
    refine ⟨?_, fun h => absurd rfl h⟩
    show (Value.bytes a == .bytes b) = (compareBytes a b == .eq)
    rw [compareBytes_eq_iff, Bool.eq_iff_iff]
    simp
  case timestamp.timestamp s hs t ht =>
    constructor
    · show (Value.timestamp s == .timestamp t) = (Ord.compare s.toText t.toText == .eq)
      rw [compare_eq_beq, Bool.eq_iff_iff]
      simp [Timestamp.toText_inj hs ht]
    · intro _
      exact congrArg some (Timestamp.compare_toText hs ht).symm
  all_goals first | exact absurd hv' (by decide) | exact absurd hw' (by decide)

theorem compare?_ofValue (hv : v.Fits ty) (hw : w.Fits ty) :
    (ofValue v).compare? (ofValue w) =
      if v.isNull || w.isNull then none else some ((ofValue v).compare (ofValue w)) := by
  rw [compare?, isNull_ofValue hv, isNull_ofValue hw]

/-- An operator between values is the relation between their cells. -/
theorem holds_compare {op : Operator} {rel : Sql.Relation}
    (hrel : Sql.Relation.ofOperator? op = some rel) (hv : v.Fits ty) (hw : w.Fits ty)
    (hv' : v.isNull = false) (hw' : w.isNull = false)
    (hordering : op.isOrdering = true → ty ≠ .bytes) :
    rel.holds ((ofValue v).compare (ofValue w)) = op.holds v w := by
  obtain ⟨hagrees, horder⟩ := compare_ofValue hv hw hv' hw'
  cases op <;> cases hrel
  case eq => exact hagrees.symm
  case ne =>
    rw [Operator.holds, hv', hagrees]
    rfl
  all_goals
    rw [Operator.holds, horder (hordering rfl)]
    cases (ofValue v).compare (ofValue w) <;> rfl

/-! ## Zeros -/

theorem compare_real (x : Binary64) (c : Cell) : (real x).compare c =
    (Ord.compare 1 c.rank).then (Ord.compare x.scaled c.scaled) := by
  cases c <;> rfl

theorem compare_to_real (c : Cell) (x : Binary64) : c.compare (real x) =
    (Ord.compare c.rank 1).then (Ord.compare c.scaled x.scaled) := by
  cases c <;> rfl

/-- A number is compared without regard to the sign of a zero. -/
theorem compare_unsigned (h : v.Fits ty) (c : Cell) :
    (ofValue v.unsigned).compare c = (ofValue v).compare c ∧
      c.compare (ofValue v.unsigned) = c.compare (ofValue v) := by
  cases h with
  | @float x hfinite =>
    rw [Value.unsigned, ofValue_float (Binary64.isFinite_unsigned hfinite), ofValue_float hfinite]
    -- Numbers are compared by exact value, where a zero has no sign.
    show (real x.unsigned).compare c = (real x).compare c ∧
      c.compare (real x.unsigned) = c.compare (real x)
    rw [compare_real, compare_real, compare_to_real, compare_to_real, Binary64.scaled_unsigned]
    exact ⟨rfl, rfl⟩
  | _ => exact ⟨rfl, rfl⟩

theorem compare?_unsigned (h : v.Fits ty) (c : Cell) :
    (ofValue v.unsigned).compare? c = (ofValue v).compare? c := by
  rw [compare?, compare?, (compare_unsigned h c).1, isNull_ofValue h, isNull_ofValue h.unsigned,
    Value.isNull_unsigned]

theorem compare?_to_unsigned (c : Cell) (h : v.Fits ty) :
    c.compare? (ofValue v.unsigned) = c.compare? (ofValue v) := by
  rw [compare?, compare?, (compare_unsigned h c).2, isNull_ofValue h, isNull_ofValue h.unsigned,
    Value.isNull_unsigned]

end Cell

/-! ## Reading -/

/-- A stored cell is read as the value it was stored for. -/
theorem readCell_ofValue {ty : FieldType} {v : Value} (h : v.Fits ty) (s : Schema) {f : Field}
    (hf : f.type = ty) (place : Nat) : readCell s f place (Cell.ofValue v) = .ok v := by
  subst hf
  unfold readCell
  generalize f.type = ty at h ⊢
  cases h with
  | null => cases ty <;> rfl
  | bool b => cases b <;> rfl
  | int i => rfl
  | @float x hfinite =>
    rw [Cell.ofValue_float hfinite]
  | text s => rfl
  | bytes b => rfl
  | timestamp hcivil =>
    show (Timestamp.read _).map Value.timestamp = _
    rw [Timestamp.read_toText hcivil]
    rfl

end Sqlite

open Sqlite

/-- The row of a record is read as the record. -/
theorem Schema.readRow_values {s : Schema} {r : Record} (hr : r.Typed s) :
    s.readRow (s.fields.map fun f => .ofValue (r.value f.name).unsigned) =
      .ok (s.completed r).unsigned := by
  have hzip : s.fields.zip (s.fields.map fun f => Cell.ofValue (r.value f.name).unsigned) =
      s.fields.map fun f => (f, Cell.ofValue (r.value f.name).unsigned) := by
    rw [← List.zip_map', List.map_id']
  rw [readRow, hzip]
  generalize hitems : (s.fields.map fun f =>
    (f, Cell.ofValue (r.value f.name).unsigned)).zipIdx = items
  have hread : ∀ a ∈ items,
      readCell s a.1.1 a.2 a.1.2 = .ok (r.value a.1.1.name).unsigned := by
    intro a ha
    rw [← hitems] at ha
    obtain ⟨f, hf, heq⟩ := List.mem_map.1 (List.fst_mem_of_mem_zipIdx ha)
    rw [← heq]
    exact readCell_ofValue (hr.fits f hf).unsigned s rfl a.2
  have hfields : items.map (fun a => a.1.1) = s.fields := by
    rw [← hitems, ← Function.comp_def, ← List.map_map, List.zipIdx_map_fst, List.map_map]
    exact List.map_id' _
  rw [completed, Record.unsigned_foldl_set, ← hfields, List.foldl_map]
  exact foldlM_set (fun a => readCell s a.1.1 a.2 a.1.2) (fun a => a.1.1.name) _ items hread .empty

end ModelMapper
