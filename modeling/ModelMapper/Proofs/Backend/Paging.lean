import ModelMapper.Proofs.Memory.Batches
import ModelMapper.Proofs.Query.Acceptance
import ModelMapper.Proofs.Query.Selection
import ModelMapper.Proofs.Sql.Counts
import ModelMapper.Proofs.Sqlite.Sorting

/-! # Pages beyond the last row

A page that starts behind the last row is empty, as far as its start can be written.

* `Query.start`, `Query.exactWindow` — where the window starts, counted exactly; the window itself
  stops at the largest count (`Query.offset_window`).
* `Window.Signed` — a window that signed 64-bit integers count.
* `Memory.Cluster.fetch_beyond`, `Sqlite.Cluster.fetch_beyond` — a window without rows, in memory
  and in the engine.
* `far_page_empty` — what is written, and what both backends answer.
-/

namespace ModelMapper

/-! ## Exact starts -/

/-- The rows before the window after a directive, counted exactly. -/
def Directive.start (start : Nat) : Directive → Nat
  | .orderBy _ _ => start
  | .page count number => (pageNumber number - 1) * count
  | .window offset _ => start + offset

namespace Query

/-- The rows before the window, counted exactly. -/
def start (q : Query) : Nat := q.shape.foldl Directive.start 0

/-- The window with its start counted exactly. -/
def exactWindow (q : Query) : Window := ⟨q.start, q.window.limit⟩

theorem capCount_add (n m : Nat) : capCount (capCount n + m) = capCount (n + m) := by
  simp only [capCount]
  omega

theorem offset_applyDirective (d : Directive) {w : Window} {n : Nat} (h : w.offset = capCount n) :
    (applyDirective w d).offset = capCount (d.start n) := by
  cases d with
  | orderBy field direction => exact h
  | page count number =>
    show capCount ((max (number.getD 1) 1 - 1) * count) = _
    rw [Directive.max_getD_one]
    rfl
  | window offset limit =>
    show capCount (w.offset + offset) = _
    rw [h, capCount_add]
    rfl

theorem offset_foldl (shape : List Directive) {w : Window} {n : Nat} (h : w.offset = capCount n) :
    (shape.foldl applyDirective w).offset = capCount (shape.foldl Directive.start n) := by
  induction shape generalizing w n with
  | nil => exact h
  | cons d shape ih => exact ih (offset_applyDirective d h)

/-- The window starts where the directives say, as far as counts go. -/
theorem offset_window (q : Query) : q.window.offset = capCount q.start := offset_foldl q.shape rfl

theorem le_offset_window {q : Query} {n : Nat} (hmax : n ≤ maxCount) (h : n ≤ q.start) :
    n ≤ q.window.offset := by
  rw [offset_window]
  exact Nat.le_min.2 ⟨h, hmax⟩

end Query

/-! ## Signed counts -/

namespace Window

/-- Start and limit are signed 64-bit integers. -/
def Signed (w : Window) : Prop :=
  (w.offset : Int) ≤ maxInt64 ∧ ∀ n ∈ w.limit, (n : Int) ≤ maxInt64

instance (w : Window) : Decidable w.Signed := inferInstanceAs (Decidable (_ ∧ _))

/-- A window is signed if the numbers it is written with are. -/
theorem counts_le_iff (d : Sql.Dialect) (w : Window) :
    (∀ n ∈ w.counts d, n ≤ maxInt64) ↔ w.Signed := by
  obtain ⟨offset, limit⟩ := w
  cases offset <;> cases limit <;> cases d <;> simp [counts, Signed, maxInt64, and_comm]

theorem slice_beyond {α : Type} {w : Window} {rows : List α} (h : rows.length ≤ w.offset) :
    w.slice rows = [] := by
  rw [slice, List.drop_eq_nil_of_le h]
  cases w.limit with
  | none => rfl
  | some n => exact List.take_nil

end Window

/-- The largest count is no signed one, so to stop there changes nothing. -/
theorem Query.signed_window (q : Query) : q.window.Signed ↔ q.exactWindow.Signed := by
  refine and_congr_left' ?_
  rw [offset_window, capCount, maxInt64, maxCount]
  show _ ↔ (q.start : Int) ≤ _
  omega

/-! ## In memory -/

namespace Memory.Cluster

variable {c : Cluster} {id : Nat} {q : Query} {n : Nat}

theorem fetch_beyond {order : List (String × Direction)} (horder : q.columnOrder = .ok order)
    (hcount : c.count id q = .ok n) (h : n ≤ q.window.offset) : c.fetch id q = .ok [] := by
  obtain ⟨sort, hsort⟩ : ∃ sort, q.sortColumns = .ok sort := by
    have halike := q.alike_order.isSuccess
    rw [horder] at halike
    cases hsort : q.sortColumns with
    | ok sort => exact ⟨sort, rfl⟩
    | error e =>
      rw [hsort] at halike
      cases halike
  rw [count_eq hsort] at hcount
  obtain ⟨found, hfound, rfl⟩ := Result.map_eq_ok.1 hcount
  rw [fetch_eq, hfound, Result.ok_bind, Window.slice_beyond h]
  rfl

end Memory.Cluster

/-! ## In the engine -/

namespace Sqlite

theorem Database.fitsInt64_natCast (n : Nat) : fitsInt64 n = decide ((n : Int) ≤ maxInt64) := by
  have hmin : minInt64 ≤ n := by
    rw [minInt64]
    omega
  rw [fitsInt64, decide_eq_true hmin, Bool.true_and]

/-- The engine takes signed counts, and where nothing is wanted it looks at none. -/
theorem Database.checkWindow_eq (w : Window) :
    checkWindow w = if w.Signed ∨ w.limit = some 0 then .ok () else .error .mismatch := by
  obtain ⟨offset, limit⟩ := w
  have hsigned : Window.Signed ⟨offset, limit⟩ ↔
      fitsInt64 offset = true ∧ ∀ n ∈ limit, fitsInt64 (n : Int) = true := by
    simp only [Window.Signed, fitsInt64_natCast, decide_eq_true_eq]
  rw [if_congr (or_congr_left hsigned) rfl rfl]
  cases limit with
  | none => cases hoffset : fitsInt64 offset <;> simp [checkWindow, hoffset]
  | some n =>
    cases hlimit : fitsInt64 n <;> cases hoffset : fitsInt64 offset <;>
      by_cases hzero : n = 0 <;> simp [checkWindow, hlimit, hoffset, hzero]

/-- Behind the last row the window decides alone. -/
theorem Database.select_beyond {d : Database} {name : String} {t : Table} {columns : List String}
    {condition : Option Sql.Condition} {order : List (String × Direction)} {w : Window}
    (htable : d.table name = .ok t) (hcolumns : columns ≠ [])
    (h : (t.visit condition order).length ≤ w.offset) :
    d.select name columns condition order w = (checkWindow w).map fun _ => [] := by
  have hsorted : ((t.visit condition order).mergeSort fun a b =>
      compareRows t order a b != .gt).length ≤ w.offset := by
    rw [List.length_mergeSort]
    exact h
  rw [select_eq htable hcolumns, Window.slice_beyond hsorted]
  rfl

namespace Cluster

variable {id : Nat} {q : Query} {n : Nat} {t : Traced Cluster}

theorem outcome_call (id : Nat) (context : String) (command : Sql.Command) (t : Traced Cluster) :
    (call id context command t).1 = (((t.state.view id).execute command).map Prod.fst).mapError
      fun e => .error (e.toError context) := by
  rw [call, Call.run_bind, Call.run_emit]
  dsimp only
  rw [Call.outcome_step, run]
  cases (t.state.view id).execute command <;> rfl

theorem count_eq_ok (h : (Cluster.count id q t).1 = .ok n) :
    ∃ condition table, q.condition = .ok condition ∧
      (t.state.view id).table q.model.table = .ok table ∧
      table.rows.countP (table.selects condition) = n := by
  rw [Cluster.count, Query.toCount_eq] at h
  cases hcondition : q.condition with
  | error e =>
    rw [hcondition] at h
    cases h
  | ok condition =>
    rw [hcondition] at h
    change ((call id "count failed" (.count q.model.table condition) >>= fun answer =>
      pure answer.touched) t).1 = _ at h
    rw [Call.outcome_answering, outcome_call, Database.execute, Database.count] at h
    cases htable : (t.state.view id).table q.model.table with
    | error e =>
      rw [htable] at h
      cases h
    | ok table =>
      rw [htable] at h
      exact ⟨condition, table, rfl, rfl, Except.ok.inj h⟩

/-- A window without rows is answered by none, if the engine takes it. -/
theorem fetch_beyond {command : Sql.Command} (hselect : q.toSelect = .ok command)
    (hfields : q.model.fields ≠ [])
    (hapart : ∀ table, (t.state.view id).table q.model.table = .ok table → table.rows.Nodup)
    (hcount : (Cluster.count id q t).1 = .ok n) (h : n ≤ q.window.offset) :
    (Cluster.fetch id q t).1 = if q.window.Signed ∨ q.window.limit = some 0 then .ok []
      else .error (.error (EngineError.mismatch.toError "fetch failed")) := by
  obtain ⟨condition, table, hcondition, htable, hrows⟩ := count_eq_ok hcount
  have hcommand := hselect
  obtain ⟨condition', hcondition', hselect⟩ := Result.bind_eq_ok.1 hselect
  obtain ⟨order, -, hselect⟩ := Result.bind_eq_ok.1 hselect
  cases hcondition.symm.trans hcondition'
  cases hselect
  have hbeyond : (table.visit condition order).length ≤ q.window.offset := by
    rw [(table.visit_perm (hapart table htable) condition order).length_eq,
      ← List.countP_eq_length_filter, hrows]
    exact h
  have hcolumns : q.model.columns ≠ [] := by simpa [Schema.columns] using hfields
  have hexecute := Database.select_beyond htable hcolumns hbeyond
  have houtcome := outcome_call id "fetch failed"
    (.select q.model.table q.model.columns condition order q.window) t
  rw [Database.execute, hexecute, Database.checkWindow_eq] at houtcome
  rw [Cluster.fetch, hcommand, Call.run_bind, Call.run_ofResult]
  dsimp only
  rw [Call.run_bind]
  generalize call id "fetch failed" _ t = answered at houtcome ⊢
  obtain ⟨outcome, after⟩ := answered
  by_cases hwindow : q.window.Signed ∨ q.window.limit = some 0
  · rw [if_pos hwindow] at houtcome ⊢
    obtain rfl : outcome = .ok ⟨[], 0⟩ := houtcome
    rfl
  · rw [if_neg hwindow] at houtcome ⊢
    obtain rfl : outcome = .error (.error (EngineError.mismatch.toError "fetch failed")) := houtcome
    rfl

end Cluster

end Sqlite

/-! ## Both -/

open Sql

/-- The counts of a selection are signed 64-bit integers exactly if its window is one that these
count, its start taken exactly. Where the window starts behind the last row, memory answers with no
rows however far out that is. The engine does so for a signed window, and for one that wants no row;
any other it refuses. -/
theorem far_page_empty {q : Query} {c : Command} (hselect : q.toSelect = .ok c) :
    (∀ d, ∃ ts, Lexer.scan d .between 1 (c.text d).toList = some ts ∧
      ((∀ n ∈ Token.counts ts, n ≤ maxInt64) ↔ q.exactWindow.Signed)) ∧
    (∀ (t : Traced Memory.Cluster) id n, (Memory.backend.count id q t).1 = .ok n →
      n ≤ maxCount → n ≤ q.start → (Memory.backend.fetch id q t).1 = .ok []) ∧
    ∀ (t : Traced Sqlite.Cluster) id n, q.model.fields ≠ [] →
      (∀ table, (t.state.view id).table q.model.table = .ok table → table.rows.Nodup) →
      (Sqlite.backend.count id q t).1 = .ok n → n ≤ maxCount → n ≤ q.start →
      (Sqlite.backend.fetch id q t).1 =
        if q.exactWindow.Signed ∨ q.window.limit = some 0 then .ok []
        else .error (.error (Sqlite.EngineError.mismatch.toError "fetch failed")) := by
  refine ⟨fun d => ?text, fun t id n hcount hmax hbeyond => ?memory,
    fun t id n hfields hapart hcount hmax hbeyond => ?engine⟩
  case text =>
    obtain ⟨condition, -, hselect⟩ := Result.bind_eq_ok.1 hselect
    obtain ⟨order, -, hselect⟩ := Result.bind_eq_ok.1 hselect
    cases hselect
    obtain ⟨ts, hscan, hcounts⟩ :=
      Command.counts_select d q.model.table q.model.columns condition order q.window
    refine ⟨ts, hscan, ?_⟩
    rw [hcounts, Window.counts_le_iff, q.signed_window]
  case memory =>
    obtain ⟨condition, -, hselect⟩ := Result.bind_eq_ok.1 hselect
    obtain ⟨order, horder, -⟩ := Result.bind_eq_ok.1 hselect
    have hcount : t.state.count id q = .ok n := by
      have houtcome := (Call.outcome_ofResult (t.state.count id q) t).symm.trans hcount
      cases hstate : t.state.count id q <;> rw [hstate] at houtcome <;> cases houtcome
      rfl
    obtain ⟨events, hrun⟩ := Memory.Cluster.run_fetch id q t
    rw [hrun, Memory.Cluster.fetch_beyond horder hcount (Query.le_offset_window hmax hbeyond)]
    rfl
  case engine =>
    rw [if_congr (or_congr_left q.signed_window.symm) rfl rfl]
    exact Sqlite.Cluster.fetch_beyond hselect hfields hapart hcount
      (Query.le_offset_window hmax hbeyond)

/-- The last page of one row that starts at a signed integer, on stores of one row. -/
theorem far_page_empty_of_items :
    let item : Schema := ⟨"Item", [.ofMarks "id" .int [.key]]⟩
    let q : Query := ⟨item, none, [.page 1 (some 9223372036854775808)]⟩
    let one : Record := .ofList [("id", .int 1)]
    let kept := ((Memory.Cluster.start.create 0 ⟨"c", [item]⟩).2.add 0 item [one]).2
    let stored := (Sqlite.Cluster.add 0 item [one]
      (Sqlite.Cluster.create 0 ⟨"c", [item]⟩ ⟨.start, []⟩).2).2
    (∃ c ts, q.toSelect = .ok c ∧
      Lexer.scan .postgres .between 1 (c.text .postgres).toList = some ts ∧
      ∀ n ∈ Token.counts ts, n ≤ maxInt64) ∧
      1 ≤ q.start ∧ q.exactWindow.Signed ∧
      (Memory.backend.count 0 q ⟨kept, []⟩).1 = .ok 1 ∧
      (Memory.backend.fetch 0 q ⟨kept, []⟩).1 = .ok [] ∧
      (Sqlite.backend.count 0 q stored).1 = .ok 1 ∧
      (Sqlite.backend.fetch 0 q stored).1 = .ok [] := by
  intro item q one kept stored
  have hstart : 1 ≤ q.start := by decide
  have hsigned : q.exactWindow.Signed := by decide
  have hkept : (Memory.backend.count 0 q ⟨kept, []⟩).1 = .ok 1 :=
    Result.toOption_eq_some.1 (by decide +kernel)
  have hstored : (Sqlite.backend.count 0 q stored).1 = .ok 1 :=
    Result.toOption_eq_some.1 (by decide +kernel)
  have hapart : ∀ table, (stored.state.view 0).table item.table = .ok table →
      table.rows.Nodup := by
    intro table h
    have hone : ((stored.state.view 0).table item.table).toOption.map
        (fun t => t.rows.length) = some 1 := by decide +kernel
    rw [h] at hone
    obtain ⟨row, hrow⟩ := List.length_eq_one_iff.1 (Option.some.inj hone)
    rw [hrow]
    exact List.nodup_singleton row
  obtain ⟨htext, hmemory, hengine⟩ := far_page_empty (q := q) (c := _) rfl
  obtain ⟨ts, hscan, hcounts⟩ := htext .postgres
  refine ⟨⟨_, ts, rfl, hscan, hcounts.2 hsigned⟩, hstart, hsigned, hkept,
    hmemory _ 0 1 hkept (by decide) hstart, hstored, ?_⟩
  rw [hengine stored 0 1 nofun hapart hstored (by decide) hstart, if_pos (.inl hsigned)]

/-- The page after that one: memory has no rows for it, and the engine takes no such number. -/
theorem far_page_refused :
    let item : Schema := ⟨"Item", [.ofMarks "id" .int [.key]]⟩
    let q : Query := ⟨item, none, [.page 1 (some 9223372036854775809)]⟩
    let one : Record := .ofList [("id", .int 1)]
    let kept := ((Memory.Cluster.start.create 0 ⟨"c", [item]⟩).2.add 0 item [one]).2
    let stored := (Sqlite.Cluster.add 0 item [one]
      (Sqlite.Cluster.create 0 ⟨"c", [item]⟩ ⟨.start, []⟩).2).2
    (∃ c ts, q.toSelect = .ok c ∧
      Lexer.scan .sqlite .between 1 (c.text .sqlite).toList = some ts ∧
      Token.counts ts = [1, 9223372036854775808]) ∧
      (Memory.backend.fetch 0 q ⟨kept, []⟩).1.toOption = some [] ∧
      (Sqlite.backend.count 0 q stored).1.toOption = some 1 ∧
      (Sqlite.backend.fetch 0 q stored).1.toOption = none := by
  intro item q one kept stored
  refine ⟨?_, by decide +kernel, by decide +kernel, by decide +kernel⟩
  obtain ⟨ts, hscan, hcounts⟩ := Command.counts_select .sqlite "Item" ["id"] none [] q.window
  exact ⟨_, ts, rfl, hscan, hcounts⟩

end ModelMapper
