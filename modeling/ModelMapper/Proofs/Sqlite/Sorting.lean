import ModelMapper.Proofs.Memory.Sorting
import ModelMapper.Proofs.Sqlite.Visiting
import ModelMapper.Sqlite.Backend

/-! # Rows in order

The engine sorts rows by their cells, which are in an order whatever their classes are.

* `Cell.compare_eq` — cells compare by class, then by what a cell of the class has.
* `Database.transCmp_compareRows` — rows are in an order by any columns.
* `Database.select_sorted` — a selection takes its window from the rows in that order.
-/

namespace ModelMapper.Sqlite

/-! ## Cells -/

namespace Cell

/-- The text of a cell, none for those of other classes. -/
def characters : Cell → String
  | text s => s
  | _ => ""

/-- The bytes of a cell, none for those of other classes. -/
def bytes : Cell → List Nat
  | blob b => b.map UInt8.toNat
  | _ => []

theorem compareBytes_eq (a b : List UInt8) :
    compareBytes a b = Ord.compare (a.map UInt8.toNat) (b.map UInt8.toNat) := by
  induction a generalizing b with
  | nil => cases b <;> rfl
  | cons x a ih =>
    cases b with
    | nil => rfl
    | cons y b => rw [compareBytes, ih, List.map_cons, List.map_cons, List.compare_cons_cons]

theorem compare_scaled (i j : Int64) :
    Ord.compare (integer i).scaled (integer j).scaled = Ord.compare i.toInt j.toInt := by
  have hunit : ∀ e, (0 : Int) < (pow2 e : Nat) := fun e => Int.natCast_pos.2 (Nat.two_pow_pos e)
  have hunit := hunit 1074
  rw [scaled, scaled]
  generalize ((pow2 1074 : Nat) : Int) = unit at hunit ⊢
  rcases lt_trichotomy i.toInt j.toInt with h | h | h
  · rw [compare_lt_iff_lt.2 h, compare_lt_iff_lt.2 ((Int.mul_lt_mul_right hunit).2 h)]
  · rw [h, compare_eq_iff_eq.2 rfl, compare_eq_iff_eq.2 rfl]
  · rw [compare_gt_iff_gt.2 h, compare_gt_iff_gt.2 ((Int.mul_lt_mul_right hunit).2 h)]

/-- Cells compare by class, numbers then by value, texts as texts and blobs by their bytes. -/
theorem compare_eq (a b : Cell) :
    a.compare b = compareLex (compareOn rank) (compareLex (compareOn scaled)
      (compareLex (compareOn characters) (compareOn bytes))) a b := by
  simp only [compareLex, compareOn]
  cases a <;> cases b
  case integer.integer i j =>
    rw [compare_scaled]
    exact Ordering.then_eq.symm
  case blob.blob x y => exact compareBytes_eq x y
  -- Where the classes differ they decide, and no class has more than one part to compare.
  all_goals first | rfl | exact Ordering.then_eq.symm

instance : Std.TransCmp compare := by
  rw [show compare = _ from funext fun a => funext fun b => compare_eq a b]
  infer_instance

end Cell

/-! ## Rows -/

/-- Sorting by an order puts elements in it. -/
theorem pairwise_mergeSort {α : Type} (cmp : α → α → Ordering) [Std.TransCmp cmp] (items : List α) :
    (items.mergeSort fun a b => cmp a b != .gt).Pairwise fun a b => cmp a b ≠ .gt := by
  have hle : ∀ a b, (cmp a b != .gt) = true ↔ (cmp a b).isLE = true := fun a b => by
    rw [bne_iff_ne, ne_eq, Ordering.ne_gt_iff_isLE]
  refine (List.pairwise_mergeSort (fun a b c hab hbc => ?_) (fun a b => ?_) items).imp
    fun h => bne_iff_ne.1 h
  · rw [hle] at hab hbc ⊢
    exact Std.TransCmp.isLE_trans hab hbc
  · have hswap : cmp b a = (cmp a b).swap := Std.OrientedCmp.eq_swap
    rw [hswap]
    cases cmp a b <;> rfl

namespace Database

variable {d : Database} {t : Table} {name : String} {columns : List String}

/-- Rows are in an order by any columns. -/
theorem transCmp_compareRows (t : Table) (order : List (String × Direction)) :
    Std.TransCmp (compareRows t order) := by
  induction order with
  | nil => exact { eq_swap := rfl, isLE_trans := fun _ _ => rfl }
  | cons e rest ih =>
    obtain ⟨column, direction⟩ := e
    have := transCmp_comap Cell.compare fun row : Row => (t.term row column).cell
    have := Direction.transCmp_orient (fun a b : Row =>
      (t.term a column).cell.compare (t.term b column).cell) direction
    exact inferInstanceAs (Std.TransCmp (compareLex
      (fun a b : Row => direction.orient ((t.term a column).cell.compare (t.term b column).cell))
      (compareRows t rest)))

/-- A selection of some columns from a table there is: the window decides if it is answered. -/
theorem select_eq (htable : d.table name = .ok t) (hcolumns : columns ≠ [])
    (condition : Option Sql.Condition) (order : List (String × Direction)) (w : Window) :
    d.select name columns condition order w = (checkWindow w).map fun _ =>
      (w.slice ((t.visit condition order).mergeSort fun a b =>
        compareRows t order a b != .gt)).map (answer t columns) := by
  have hempty : columns.isEmpty = false := by simpa using hcolumns
  rw [select, hempty, htable]
  show (checkWindow w >>= fun _ => _) = _
  cases checkWindow w <;> rfl

/-- A selection takes its window from the rows of the condition in their order. -/
theorem select_sorted (htable : d.table name = .ok t) (hrows : t.rows.Nodup)
    (hcolumns : columns ≠ []) (condition : Option Sql.Condition)
    (order : List (String × Direction)) {w : Window} (hwindow : checkWindow w = .ok ()) :
    ∃ rows : List Row, rows.Perm (t.rows.filter (t.selects condition)) ∧
      rows.Pairwise (fun a b => compareRows t order a b ≠ .gt) ∧
      d.select name columns condition order w = .ok ((w.slice rows).map (answer t columns)) := by
  have := transCmp_compareRows t order
  refine ⟨(t.visit condition order).mergeSort fun a b => compareRows t order a b != .gt,
    (List.mergeSort_perm _ _).trans (t.visit_perm hrows condition order),
    pairwise_mergeSort _ _, ?_⟩
  rw [select_eq htable hcolumns, hwindow]
  rfl

end Database

end ModelMapper.Sqlite
