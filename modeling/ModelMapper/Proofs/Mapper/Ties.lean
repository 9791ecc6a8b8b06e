import ModelMapper.Proofs.Memory.Batches

/-! # Cursors and ties

A backend that honours only the order it is asked for may arrange rows that compare equal in
another way at every fetch. Its batches fit together where no two rows compare equal.

* `Record.compareBy` — how two rows compare in an ordering.
* `Backend.HonoursOrder` — such a backend.
* `Record.Strict` — rows of which no two compare equal. `Query.strict_stableOrder` gives it for
  rows with different keys, and such rows can be arranged in one way only
  (`Strict.arrangement_unique`).
* `Cursor.batches_cover_once` — the ordering of a cursor, and what its batches cover.
-/

namespace ModelMapper

variable {σ : Type} {order : Value → Value → Ordering}

/-! ## The order of values -/

theorem Binary64.compare?_swap (x y : Binary64) :
    x.compare? y = (y.compare? x).map Ordering.swap := by
  rw [compare?, compare?, Bool.or_comm]
  split
  · rfl
  · exact congrArg some Std.OrientedCmp.eq_swap

namespace Doc

theorem compareNumbers?_swap (a b : Doc) :
    compareNumbers? a b = (compareNumbers? b a).map Ordering.swap := by
  have hfloats : (do (← a.asFloat?).compare? (← b.asFloat?)) =
      (do (← b.asFloat?).compare? (← a.asFloat?)).map Ordering.swap := by
    cases a.asFloat? with
    | none => cases b.asFloat? <;> rfl
    | some x =>
      cases b.asFloat? with
      | none => rfl
      | some y => exact x.compare?_swap y
  rw [compareNumbers?, compareNumbers?]
  cases a.asInt64? with
  | none => cases b.asInt64? <;> exact hfloats
  | some x =>
    cases b.asInt64? with
    | none => exact hfloats
    | some y => exact congrArg some Std.OrientedCmp.eq_swap

theorem compare?_swap (a b : Doc) : a.compare? b = (b.compare? a).map Ordering.swap := by
  have hnumbers : (if a.isNumber && b.isNumber then compareNumbers? a b else none) =
      (if b.isNumber && a.isNumber then compareNumbers? b a else none).map Ordering.swap := by
    rw [Bool.and_comm, compareNumbers?_swap]
    split <;> rfl
  -- Texts and truth values compare as such, all other pairs are numbers or have no order.
  cases a <;> cases b <;>
    first
      | exact hnumbers
      | exact congrArg some Std.OrientedCmp.eq_swap

instance : Std.OrientedCmp sortOrder where
  eq_swap {a b} := by
    have hrank : compare a.rank b.rank = (compare b.rank a.rank).swap := Std.OrientedCmp.eq_swap
    rw [sortOrder, sortOrder, Ordering.swap_then, compare?_swap a b, hrank]
    cases b.compare? a <;> rfl

end Doc

/-- The order that results have in memory. -/
def Value.resultOrder (v w : Value) : Ordering := v.toDoc.sortOrder w.toDoc

instance : Std.OrientedCmp Value.resultOrder where
  eq_swap {v w} := by
    rw [Value.resultOrder, Value.resultOrder]
    exact Std.OrientedCmp.eq_swap

theorem Value.resultOrder_int (i j : Int64) :
    resultOrder (.int i) (.int j) = compare i.toInt j.toInt := by
  show (Doc.compareNumbers? (.int i.toInt) (.int j.toInt)).getD .eq = _
  rw [Doc.compareNumbers?, Doc.asInt64_toInt, Doc.asInt64_toInt]
  rfl

/-! ## The order of rows -/

def Direction.orient (d : Direction) (o : Ordering) : Ordering :=
  match d with
  | .ascending => o
  | .descending => o.swap

namespace Record

/-- Two rows compare as the first fields do in which they differ, and equal if there are none. -/
def compareBy (order : Value → Value → Ordering) :
    List (FieldRef × Direction) → Record → Record → Ordering
  | [], _, _ => .eq
  | (r, direction) :: rest, a, b =>
    (direction.orient (order (a.value r.field) (b.value r.field))).then (compareBy order rest a b)

variable {fields : List (FieldRef × Direction)} {a b : Record}

theorem compareBy_eq_eq : compareBy order fields a b = .eq ↔
    ∀ e ∈ fields, order (a.value e.1.field) (b.value e.1.field) = .eq := by
  induction fields with
  | nil => exact ⟨fun _ => nofun, fun _ => rfl⟩
  | cons e rest ih =>
    obtain ⟨r, direction⟩ := e
    rw [compareBy, Ordering.then_eq_eq, ih, List.forall_mem_cons]
    cases direction with
    | ascending => rfl
    | descending => exact and_congr_left' Ordering.swap_eq_eq

theorem compareBy_swap [Std.OrientedCmp order] :
    (compareBy order fields a b).swap = compareBy order fields b a := by
  induction fields with
  | nil => rfl
  | cons e rest ih =>
    obtain ⟨r, direction⟩ := e
    have hfield : order (b.value r.field) (a.value r.field) =
        (order (a.value r.field) (b.value r.field)).swap := Std.OrientedCmp.eq_swap
    rw [compareBy, compareBy, Ordering.swap_then, ih, hfield]
    cases direction <;> rfl

/-- The rows are in order, those that compare equal in any. -/
def Arranged (order : Value → Value → Ordering) (fields : List (FieldRef × Direction))
    (rows : List Record) : Prop :=
  rows.Pairwise fun a b => compareBy order fields a b ≠ .gt

instance (rows : List Record) : Decidable (Arranged order fields rows) :=
  inferInstanceAs (Decidable (rows.Pairwise fun a b => compareBy order fields a b ≠ .gt))

/-- No two rows compare equal. -/
def Strict (order : Value → Value → Ordering) (fields : List (FieldRef × Direction))
    (rows : List Record) : Prop :=
  rows.Pairwise fun a b => compareBy order fields a b ≠ .eq

variable {rows xs ys : List Record}

/-- In an arrangement of such rows each comes before all that follow it. -/
theorem Strict.increasing (h : Strict order fields rows) (hrows : Arranged order fields rows) :
    rows.Pairwise fun a b => compareBy order fields a b = .lt := by
  refine List.Pairwise.imp (fun {a b} hboth => ?_) (List.Pairwise.and h hrows)
  cases hcompare : compareBy order fields a b with
  | lt => rfl
  | eq => exact absurd hcompare hboth.1
  | gt => exact absurd hcompare hboth.2

variable [Std.OrientedCmp order]

instance : Std.Symm fun a b => compareBy order fields a b ≠ .eq :=
  ⟨fun a b h => by
    rw [← compareBy_swap]
    exact mt Ordering.swap_eq_eq.1 h⟩

theorem Strict.perm (h : Strict order fields rows) (hperm : xs.Perm rows) :
    Strict order fields xs :=
  (hperm.pairwise_iff (Std.Symm.symm _ _)).2 h

theorem Strict.nodup (h : Strict order fields rows) : rows.Nodup := by
  refine List.Pairwise.imp (fun {a b} hne hsame => hne ?_) h
  rw [hsame, compareBy_eq_eq]
  exact fun e _ => Std.ReflCmp.compare_self

/-- Rows that do not compare equal can be arranged in one way only. -/
theorem Strict.arrangement_unique (h : Strict order fields rows) (hxs : Arranged order fields xs)
    (hx : xs.Perm rows) (hys : Arranged order fields ys) (hy : ys.Perm rows) : xs = ys := by
  refine List.Perm.eq_of_pairwise (fun a b ha hb hab hba => ?_) hxs hys (hx.trans hy.symm)
  by_contra hne
  have hstrict : compareBy order fields a b ≠ .eq :=
    List.Pairwise.forall h (hx.subset ha) (hy.subset hb) hne
  -- Rows that may stand either way round compare equal.
  rw [← compareBy_swap] at hba
  cases hcompare : compareBy order fields a b with
  | lt => exact hba (by rw [hcompare]; rfl)
  | eq => exact hstrict hcompare
  | gt => exact hab hcompare

end Record

/-! ## Keys -/

/-- No two rows agree in all the keys, as the backend compares them. -/
def Schema.UniqueKeys (order : Value → Value → Ordering) (s : Schema) (rows : List Record) : Prop :=
  rows.Pairwise fun a b => ∃ f ∈ s.keyFields, order (a.value f.name) (b.value f.name) ≠ .eq

instance (s : Schema) (rows : List Record) : Decidable (s.UniqueKeys order rows) :=
  inferInstanceAs (Decidable (rows.Pairwise fun a b =>
    ∃ f ∈ s.keyFields, order (a.value f.name) (b.value f.name) ≠ .eq))

namespace Query

/-- The query is ordered by all the keys, whatever else it is ordered by. -/
def OrdersKeys (q : Query) : Prop :=
  ∀ f ∈ q.model.keyFields, q.model.fieldRef f.name ∈ q.ordering.map Prod.fst

variable {q : Query} {rows : List Record}

theorem ordersKeys_stableOrder (h : q.ordering = [] ∨ q.OrdersKeys) :
    ∀ f ∈ q.model.keyFields, q.model.fieldRef f.name ∈ q.stableOrder.ordering.map Prod.fst := by
  intro f hf
  rw [ordering_stableOrder]
  split
  · exact List.mem_map.2 ⟨_, List.mem_map_of_mem hf, rfl⟩
  · next hown => exact h.resolve_left hown f hf

/-- Rows with different keys do not compare equal in an ordering that names the keys. -/
theorem strict_stableOrder (hkeys : q.model.UniqueKeys order rows)
    (h : q.ordering = [] ∨ q.OrdersKeys) : Record.Strict order q.stableOrder.ordering rows := by
  refine List.Pairwise.imp (fun {a b} hdiffer hsame => ?_) hkeys
  obtain ⟨f, hf, hne⟩ := hdiffer
  obtain ⟨e, he, hfield⟩ := List.mem_map.1 (ordersKeys_stableOrder h f hf)
  have hequal := Record.compareBy_eq_eq.1 hsame e he
  rw [hfield] at hequal
  exact hne hequal

end Query

/-! ## Backends -/

/-- In the states of `R` the backend answers every batch of the query with the window it asks for
    of some arrangement of the rows, another one at every fetch if it likes. -/
def Backend.HonoursOrder (b : Backend σ) (order : Value → Value → Ordering) (R : σ → Prop)
    (session : Nat) (q : Query) (rows : List Record) : Prop :=
  ∀ n t, R t.state → ∃ sorted t', sorted.Perm rows ∧ Record.Arranged order q.ordering sorted ∧
    R t'.state ∧
    b.fetch session (q.batch n batchSize) t =
      (.ok ((q.batch n batchSize).window.slice sorted), t')

section

variable {b : Backend σ} {R : σ → Prop} {session : Nat} {q : Query} {rows sorted : List Record}

/-- Where no two rows compare equal the backend has no choice. -/
theorem Backend.HonoursOrder.serves [Std.OrientedCmp order]
    (hb : b.HonoursOrder order R session q rows) (h : Record.Strict order q.ordering rows)
    (hrows : rows.length ≤ maxCount) (hsorted : Record.Arranged order q.ordering sorted)
    (hperm : sorted.Perm rows) : b.Serves R session q (q.window.slice sorted) := by
  intro n t ht
  obtain ⟨found, t', hfound, harranged, ht', hfetch⟩ := hb n t ht
  obtain rfl := h.arrangement_unique harranged hfound hsorted hperm
  refine ⟨t', ht', ?_⟩
  rw [hfetch, Query.slice_batch q n batchSize (hperm.length_eq.trans_le hrows)]

end

/-! ## Cursors -/

namespace Cursor

/-- A cursor asks for the order of its query, and for the order of the keys if the query has none.
    Rows that agree in all the fields it names compare equal. Where it names the keys, rows with
    different keys do not, and a backend that honours it gives each row of the window in exactly
    one batch, in one order. -/
theorem batches_cover_once (order : Value → Value → Ordering) [Std.OrientedCmp order] (q : Query) :
    (∀ n, (q.stableOrder.batch n batchSize).ordering =
      if q.ordering = [] then q.model.keyFields.map fun f => (q.model.fieldRef f.name, .ascending)
      else q.ordering) ∧
    (∀ a b, Record.compareBy order q.stableOrder.ordering a b = .eq ↔
      ∀ e ∈ q.stableOrder.ordering, order (a.value e.1.field) (b.value e.1.field) = .eq) ∧
    ∀ rows, q.model.UniqueKeys order rows → q.ordering = [] ∨ q.OrdersKeys →
      Record.Strict order q.stableOrder.ordering rows ∧
      ∀ (b : Backend σ) (R : σ → Prop) (session : Nat) (t : Traced σ),
        b.HonoursOrder order R session q.stableOrder rows → rows.length ≤ maxCount → R t.state →
        ∃ sorted, sorted.Perm rows ∧
          sorted.Pairwise (fun a b => Record.compareBy order q.stableOrder.ordering a b = .lt) ∧
          b.Serves R session q.stableOrder (q.window.slice sorted) ∧
          (∀ r ∈ q.window.slice sorted,
            ∃! n, r ∈ ((q.window.slice sorted).drop (n * batchSize)).take batchSize) ∧
          ∀ {M : Type} (m : Model M), ∃ t', R t'.state ∧
            (openOn b session q >>= toList b m) t =
              (((q.window.slice sorted).mapM fun r => m.ofRecord r ⟨session⟩).mapError .error,
                t') := by
  refine ⟨fun n => ?_, fun a b => Record.compareBy_eq_eq, fun rows hunique hkeys => ?_⟩
  · rw [Query.ordering_batch, Query.ordering_stableOrder]
  have hstrict := Query.strict_stableOrder hunique hkeys
  refine ⟨hstrict, fun b R session t hb hrows ht => ?_⟩
  -- The arrangement that answers the first batch answers them all.
  obtain ⟨sorted, -, hperm, harranged, -⟩ := hb 0 t ht
  have hserves := hb.serves hstrict hrows harranged hperm
  rw [Query.window_stableOrder] at hserves
  have hsublist := q.window.slice_sublist sorted
  refine ⟨sorted, hperm, (hstrict.perm hperm).increasing harranged, hserves, fun r hr => ?_,
    fun m => ?_⟩
  · exact existsUnique_run ((hstrict.perm hperm).nodup.sublist hsublist) (by decide) hr
  · exact run_toList m hserves (hsublist.length_le.trans (hperm.length_eq.trans_le hrows)) ht

/-- Rows of two names, the last of them first, and by their keys within one name. -/
theorem batches_cover_once_of_items :
    let item : Schema := ⟨"Item", [.ofMarks "id" .int [.key], .ofMarks "name" .text []]⟩
    let row (n : Int64) (name : String) : Record := .ofList [("id", .int n), ("name", .text name)]
    let document (n : Int) (name : String) : Document := [("id", .int n), ("name", .text name)]
    let rows := [row 2 "a", row 1 "b", row 3 "b", row 4 "a"]
    let c : Memory.Cluster :=
      ⟨⟨[("Item", [document 2 "a", document 1 "b", document 3 "b", document 4 "a"])]⟩, [], [none]⟩
    let q := ((Query.all item).orderBy (item.fieldRef "name") .descending).orderBy
      (item.fieldRef "id") .ascending
    item.UniqueKeys Value.resultOrder rows ∧ q.OrdersKeys ∧
      Memory.backend.HonoursOrder Value.resultOrder (· = c) 0 q.stableOrder rows ∧
      ∃ sorted, sorted.Perm rows ∧
        Memory.backend.Serves (· = c) 0 q.stableOrder (q.window.slice sorted) ∧
        ∀ r ∈ q.window.slice sorted,
          ∃! n, r ∈ ((q.window.slice sorted).drop (n * batchSize)).take batchSize := by
  intro item row document rows c q
  have hunique : item.UniqueKeys Value.resultOrder rows := by decide +kernel
  have hkeys : q.OrdersKeys :=
    List.forall_mem_singleton.2 (List.mem_cons_of_mem _ List.mem_cons_self)
  have hfound : c.ordered 0 q.stableOrder =
      .ok [document 1 "b", document 3 "b", document 2 "a", document 4 "a"] := rfl
  have hrecords :
      [document 1 "b", document 3 "b", document 2 "a", document 4 "a"].mapM item.decode =
        .ok [row 1 "b", row 3 "b", row 2 "a", row 4 "a"] := rfl
  have hhonours : Memory.backend.HonoursOrder Value.resultOrder (· = c) 0 q.stableOrder rows := by
    rintro n ⟨_, events⟩ rfl
    obtain ⟨after, hfetch⟩ := Memory.Cluster.run_fetch_batch hfound hrecords n events
    exact ⟨_, _, by decide +kernel, by decide +kernel, rfl, hfetch⟩
  obtain ⟨-, -, hcover⟩ := batches_cover_once Value.resultOrder q
  obtain ⟨sorted, hperm, -, hserves, honce, -⟩ :=
    (hcover rows hunique (.inr hkeys)).2 Memory.backend (· = c) 0 ⟨c, []⟩ hhonours (by decide) rfl
  exact ⟨hunique, hkeys, hhonours, sorted, hperm, hserves, honce⟩

/-- Rows of one name are tied in a query ordered by name, although their keys differ: a backend
    may arrange them the other way round for the second batch, and repeat the first row. -/
theorem batches_overlap_of_one_name :
    let item : Schema := ⟨"Item", [.ofMarks "id" .int [.key], .ofMarks "name" .text []]⟩
    let row (n : Nat) : Record := .ofList [("id", .int (Int64.ofNat n)), ("name", .text "a")]
    let rows := (List.range 101).map row
    let q := (Query.all item).orderBy (item.fieldRef "name") .ascending
    let b : Backend Memory.Cluster := { Memory.backend with
      fetch := fun _ q t =>
        (.ok (q.window.slice (if q.window.offset = 0 then rows else rows.reverse)), t) }
    item.keyFields ≠ [] ∧ item.UniqueKeys Value.resultOrder rows ∧
      ¬ Record.Strict Value.resultOrder q.stableOrder.ordering rows ∧
      b.HonoursOrder Value.resultOrder (fun _ => True) 0 q.stableOrder rows ∧
      (∃ found t, b.fetch 0 (q.stableOrder.batch 0 batchSize) ⟨.start, []⟩ = (.ok found, t) ∧
        row 0 ∈ found) ∧
      ∃ found t, b.fetch 0 (q.stableOrder.batch 1 batchSize) ⟨.start, []⟩ = (.ok found, t) ∧
        row 0 ∈ found := by
  intro item row rows q b
  -- No two rows differ in the name, so every arrangement is in order.
  have htied : ∀ a ∈ rows, ∀ b ∈ rows,
      Record.compareBy Value.resultOrder q.stableOrder.ordering a b = .eq := by
    intro a ha b hb
    obtain ⟨n, -, rfl⟩ := List.mem_map.1 ha
    obtain ⟨k, -, rfl⟩ := List.mem_map.1 hb
    rfl
  refine ⟨List.cons_ne_nil _ _, ?_, fun h => ?_, fun n t _ => ?_, ⟨_, _, rfl, ?_⟩, ⟨_, _, rfl, ?_⟩⟩
  · refine List.pairwise_map.2 (List.Pairwise.imp_of_mem (fun {i j} hi hj hlt => ?_)
      (List.pairwise_lt_range (n := 101)))
    have hi := List.mem_range.1 hi
    have hj := List.mem_range.1 hj
    refine ⟨.ofMarks "id" .int [.key], List.mem_cons_self, ?_⟩
    show Value.resultOrder (.int (Int64.ofNat i)) (.int (Int64.ofNat j)) ≠ .eq
    rw [Value.resultOrder_int, Int64.toInt_ofNat_of_lt (by omega),
      Int64.toInt_ofNat_of_lt (by omega), compare_lt_iff_lt.2 (Int.ofNat_lt.2 hlt)]
    exact nofun
  · exact List.pairwise_iff_getElem.1 h 0 1 (by decide) (by decide) Nat.zero_lt_one rfl
  · have hperm : (if (q.stableOrder.batch n batchSize).window.offset = 0 then rows
        else rows.reverse).Perm rows := by
      split
      · exact .refl _
      · exact List.reverse_perm _
    refine ⟨_, t, hperm, List.pairwise_of_forall_mem_list fun a ha b hb hgt => ?_, trivial, rfl⟩
    rw [htied a (hperm.subset ha) b (hperm.subset hb)] at hgt
    cases hgt
  · exact List.mem_cons_self
  · have hlength : rows.length - 100 = 1 := by rw [List.length_map, List.length_range]
    show row 0 ∈ (rows.reverse.drop 100).take 100
    rw [List.drop_reverse, hlength]
    exact List.mem_cons_self

end Cursor

end ModelMapper
