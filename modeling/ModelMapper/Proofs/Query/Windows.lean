import Mathlib.Data.List.Nodup
import ModelMapper.Proofs.Result
import ModelMapper.Query.Analysis

/-! # Windows and batches

A batch of a query is a run of the rows in its window, and the batches of one size make up all
of them.

* `Window.getElem?_slice`, `Window.slice_narrow`, `Window.mapM_slice` — the rows in a window, a
  window inside a window, and what is answered for the rows in it.
* `Query.slice_batch` — the rows of a batch.
* `existsUnique_run` — every element of a list is in exactly one of its runs.
* `Query.stableOrder_eq`, `Query.ordering_stableOrder` — what a cursor asks for.
-/

namespace ModelMapper

/-! ## Slices -/

namespace Window

variable {α β : Type} {rows : List α}

theorem slice_whole (rows : List α) : whole.slice rows = rows := rfl

theorem slice_sublist (w : Window) (rows : List α) : (w.slice rows).Sublist rows := by
  rw [slice]
  cases w.limit with
  | none => exact List.drop_sublist _ _
  | some n => exact (List.take_sublist _ _).trans (List.drop_sublist _ _)

/-- The rows of a slice, by their positions. -/
theorem getElem?_slice {w : Window} {k : Nat} {row : α} : (w.slice rows)[k]? = some row ↔
    (∀ n ∈ w.limit, k < n) ∧ rows[w.offset + k]? = some row := by
  rw [slice]
  cases w.limit with
  | none =>
    rw [List.getElem?_drop]
    exact (and_iff_right fun _ h => absurd h (Option.not_mem_none _)).symm
  | some n =>
    rw [List.getElem?_take]
    split
    · next hk =>
      rw [List.getElem?_drop]
      exact (and_iff_right fun _ h => Option.mem_some_iff.1 h ▸ hk).symm
    · next hk => exact iff_of_false nofun fun h => hk (h.1 n rfl)

/-- What is answered for all rows is answered for a part of them. -/
theorem mapM_slice {ε : Type} {f : α → Except ε β} {answers : List β} (w : Window)
    (h : rows.mapM f = .ok answers) : (w.slice rows).mapM f = .ok (w.slice answers) := by
  have hall := List.forall₂_drop w.offset (Result.mapM_eq_ok.1 h)
  refine Result.mapM_eq_ok.2 ?_
  rw [slice, slice]
  cases w.limit with
  | none => exact hall
  | some n => exact List.forall₂_take n hall

/-- Where no list is longer than the largest count, stopping at it changes nothing. -/
theorem drop_capCount (h : rows.length ≤ maxCount) (n : Nat) :
    rows.drop (capCount n) = rows.drop n := by
  rcases Nat.le_total n maxCount with hn | hn
  · rw [capCount, Nat.min_eq_left hn]
  · rw [capCount, Nat.min_eq_right hn, List.drop_eq_nil_of_le h,
      List.drop_eq_nil_of_le (Nat.le_trans h hn)]

/-- The part of a window's part. -/
theorem slice_narrow (w : Window) (offset : Nat) (limit : Option Nat)
    (h : rows.length ≤ maxCount) :
    (w.narrow offset limit).slice rows = (Window.mk offset limit).slice (w.slice rows) := by
  obtain ⟨start, size⟩ := w
  have hdrop : rows.drop (capCount (start + offset)) = (rows.drop start).drop offset := by
    rw [drop_capCount h, List.drop_drop]
  cases size with
  | none =>
    cases limit <;> simp only [narrow, slice, Option.map_none, hdrop]
  | some n =>
    cases limit with
    | none => simp only [narrow, slice, Option.map_some, hdrop, List.drop_take]
    | some l =>
      simp only [narrow, slice, Option.map_some, hdrop, List.drop_take, List.take_take,
        Nat.min_comm]

end Window

/-! ## Runs -/

/-- Every element of a list without repetitions is in exactly one of its runs of one size. -/
theorem existsUnique_run {α : Type} {rows : List α} (hnodup : rows.Nodup) {size : Nat}
    (hsize : 0 < size) {a : α} (ha : a ∈ rows) :
    ∃! n, a ∈ (rows.drop (n * size)).take size := by
  obtain ⟨i, hi, rfl⟩ := List.mem_iff_getElem.1 ha
  refine ⟨i / size, ?_, fun n hn => ?_⟩
  · have hmod := Nat.mod_lt i hsize
    have hdiv := Nat.div_add_mod' i size
    refine List.mem_iff_getElem.2 ⟨i % size, ?_, ?_⟩
    · rw [List.length_take, List.length_drop]
      omega
    · rw [List.getElem_take, List.getElem_drop]
      congr 1
  · obtain ⟨j, hj, hsame⟩ := List.mem_iff_getElem.1 hn
    rw [List.length_take, List.length_drop] at hj
    rw [List.getElem_take, List.getElem_drop] at hsame
    -- Without repetitions the element has one place only.
    have hplace : n * size + j = i := (List.Nodup.getElem_inj_iff hnodup).1 hsame
    rw [← hplace, Nat.mul_comm, Nat.mul_add_div hsize, Nat.div_eq_of_lt (by omega), Nat.add_zero]

/-! ## Shapes -/

namespace Query

variable {α : Type}

theorem window_push (q : Query) (d : Directive) : (q.push d).window = applyDirective q.window d :=
  List.foldl_append

theorem ordering_push_window (q : Query) (offset : Nat) (limit : Option Nat) :
    (q.push (.window offset limit)).ordering = q.ordering := by
  rw [ordering, push, List.filterMap_append]
  exact List.append_nil _

theorem ordering_batch (q : Query) (index size : Nat) :
    (q.batch index size).ordering = q.ordering :=
  ordering_push_window q _ _

/-- The rows of a batch are a run of the rows in the query's window. -/
theorem slice_batch (q : Query) (index size : Nat) {rows : List α}
    (h : rows.length ≤ maxCount) :
    (q.batch index size).window.slice rows =
      ((q.window.slice rows).drop (index * size)).take size := by
  have hslice : (q.window.slice rows).length ≤ maxCount :=
    Nat.le_trans (q.window.slice_sublist rows).length_le h
  rw [batch, window_push, applyDirective, Window.slice_narrow _ _ _ h, Window.slice,
    Window.drop_capCount hslice]

/-- A query that only asks for an order has all rows in its window. -/
theorem window_unlimited {q : Query} (h : q.analyze.hasLimit = false) : q.window = .whole := by
  rw [window]
  obtain ⟨model, filter, shape⟩ := q
  dsimp only [analyze] at h ⊢
  induction shape with
  | nil => rfl
  | cons d shape ih =>
    rw [List.any_cons, Bool.or_eq_false_iff] at h
    cases d with
    | orderBy field direction => exact ih h.2
    | page count number => exact Bool.noConfusion h.1
    | window offset limit => exact Bool.noConfusion h.1

/-! ## The order of a cursor -/

/-- The directives a cursor adds to the shape. -/
def keyOrder (q : Query) : List Directive :=
  if q.ordering.isEmpty then
    q.model.keyFields.map fun f => .orderBy (q.model.fieldRef f.name) .ascending
  else []

theorem foldl_orderBy (fields : List Field) (q : Query) :
    fields.foldl (fun q f => q.orderBy (q.model.fieldRef f.name) .ascending) q =
      { q with
        shape := q.shape ++
          fields.map fun f => .orderBy (q.model.fieldRef f.name) .ascending } := by
  induction fields generalizing q with
  | nil => rw [List.foldl_nil, List.map_nil, List.append_nil]
  | cons f fields ih =>
    rw [List.foldl_cons, ih, orderBy, push, List.append_assoc]
    rfl

theorem stableOrder_eq (q : Query) : q.stableOrder = { q with shape := q.shape ++ q.keyOrder } := by
  rw [stableOrder, keyOrder]
  split
  · exact foldl_orderBy q.model.keyFields q
  · rw [List.append_nil]

theorem model_stableOrder (q : Query) : q.stableOrder.model = q.model := by
  rw [stableOrder_eq]

theorem filter_stableOrder (q : Query) : q.stableOrder.filter = q.filter := by
  rw [stableOrder_eq]

/-- The query's own order if it has one, and the order of the keys else. -/
theorem ordering_stableOrder (q : Query) :
    q.stableOrder.ordering =
      if q.ordering = [] then q.model.keyFields.map fun f => (q.model.fieldRef f.name, .ascending)
      else q.ordering := by
  rw [stableOrder_eq, ordering, List.filterMap_append]
  change q.ordering ++ _ = _
  rw [keyOrder]
  by_cases h : q.ordering = []
  · rw [if_pos h, h, if_pos List.isEmpty_nil, List.nil_append, List.filterMap_map,
      ← List.filterMap_eq_map]
    rfl
  · rw [if_neg h, if_neg (by simpa using h)]
    exact List.append_nil _

/-- The order does not touch the window. -/
theorem window_stableOrder (q : Query) : q.stableOrder.window = q.window := by
  rw [stableOrder_eq, window, List.foldl_append]
  change q.keyOrder.foldl applyDirective q.window = q.window
  rw [keyOrder]
  split
  · rw [List.foldl_map]
    exact List.foldl_fixed' (fun _ => rfl) _
  · rfl

end Query

end ModelMapper
