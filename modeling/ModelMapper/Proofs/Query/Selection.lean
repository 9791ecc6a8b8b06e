import ModelMapper.Proofs.Query.Windows

/-! # What the directives of a query select

The directives one after another, each on the rows selected before it and counted exactly, as the
reading of a query's window.

* `Directive.select`, `Query.selection` — the rows a directive selects, and those the whole shape
  does.
* `Directive.slice_applyDirective` — the step: a directive changes the window as it changes the
  rows.
* `Query.slice_foldl` — the run, over the shape.
* `Query.window_selects` — the rows of the window and of its batches.
-/

namespace ModelMapper

variable {α : Type}

/-! ## Exact selections -/

namespace Directive

/-- Pages count from one; without a number, or with zero, the first one is meant. -/
def pageNumber (number : Option Nat) : Nat :=
  match number with
  | none | some 0 => 1
  | some p => p

/-- The rows a directive selects from all `rows`, where `selected` are those before it. -/
def select (rows selected : List α) : Directive → List α
  | .orderBy _ _ => selected
  | .page count number =>
    rows.extract ((pageNumber number - 1) * count) (pageNumber number * count)
  | .window offset none => selected.drop offset
  | .window offset (some limit) => selected.extract offset (offset + limit)

theorem max_getD_one (number : Option Nat) : max (number.getD 1) 1 = pageNumber number := by
  rcases number with - | - | p
  · rfl
  · rfl
  · exact Nat.max_eq_left (Nat.succ_le_succ p.zero_le)

theorem pageNumber_pos (number : Option Nat) : 0 < pageNumber number := by
  rw [← max_getD_one]
  exact Nat.lt_of_lt_of_le Nat.zero_lt_one (Nat.le_max_right _ _)

/-- The directive on the window, read on the rows. -/
theorem slice_applyDirective (d : Directive) (w : Window) {rows : List α}
    (h : rows.length ≤ maxCount) :
    (Query.applyDirective w d).slice rows = d.select rows (w.slice rows) := by
  have hselected : (w.slice rows).length ≤ maxCount :=
    Nat.le_trans (w.slice_sublist rows).length_le h
  cases d with
  | orderBy field direction => rfl
  | page count number =>
    -- The page's start may stop at the largest count, but then no row is left either way.
    have hsize : pageNumber number * count - (pageNumber number - 1) * count = count := by
      rw [← Nat.sub_mul, Nat.sub_sub_self (pageNumber_pos number), Nat.one_mul]
    rw [Query.applyDirective, Window.page, Window.slice, max_getD_one, Window.drop_capCount h,
      select, List.extract_eq_take_drop, hsize]
  | window offset limit =>
    rw [Query.applyDirective, Window.slice_narrow w offset limit h]
    cases limit with
    | none => rfl
    | some l =>
      rw [select, List.extract_eq_take_drop, Nat.add_sub_cancel_left]
      rfl

end Directive

/-! ## The whole shape -/

namespace Query

/-- The rows that the shape selects, its directives taken one after another. -/
def selection (q : Query) (rows : List α) : List α :=
  q.shape.foldl (fun selected d => d.select rows selected) rows

theorem slice_foldl (shape : List Directive) (w : Window) {rows : List α}
    (h : rows.length ≤ maxCount) :
    (shape.foldl applyDirective w).slice rows =
      shape.foldl (fun selected d => d.select rows selected) (w.slice rows) := by
  induction shape generalizing w with
  | nil => rfl
  | cons d shape ih =>
    rw [List.foldl_cons, List.foldl_cons, ih, Directive.slice_applyDirective d w h]

/-- The window of a query holds the rows its directives select, and batch `index` of `size` rows
is the chunk of that number: stopping at the largest count, which is 2 ^ 64 - 1 and no less than the
rows, loses and adds no row. -/
theorem window_selects (q : Query) (rows : List α) (h : rows.length ≤ maxCount) :
    q.window.slice rows = q.selection rows ∧
      ∀ index size, (q.batch index size).window.slice rows =
        (q.selection rows).extract (index * size) ((index + 1) * size) := by
  have hwindow : q.window.slice rows = q.selection rows := by
    rw [window, slice_foldl q.shape .whole h, Window.slice_whole, selection]
  refine ⟨hwindow, fun index size => ?_⟩
  have hsize : (index + 1) * size - index * size = size := by
    rw [Nat.succ_mul, Nat.add_sub_cancel_left]
  rw [slice_batch q index size h, hwindow, List.extract_eq_take_drop, hsize]

/-- A page so far out that its start stops at the largest count, then the second of the pages of
three, narrowed from its second row on. -/
theorem window_selects_of_far_page :
    let far : Query := ⟨⟨"Item", []⟩, none, [.page maxCount (some maxCount)]⟩
    let near : Query := ⟨far.model, none, far.shape ++ [.page 3 (some 2), .window 1 none]⟩
    far.window.slice [1, 2, 3, 4, 5, 6, 7] = [] ∧
      near.window.slice [1, 2, 3, 4, 5, 6, 7] = [5, 6] ∧
      (near.batch 1 1).window.slice [1, 2, 3, 4, 5, 6, 7] = [6] :=
  ⟨(window_selects _ _ (by decide)).1.trans (by decide),
    (window_selects _ _ (by decide)).1.trans (by decide),
    ((window_selects _ _ (by decide)).2 1 1).trans (by decide)⟩

end Query

end ModelMapper
