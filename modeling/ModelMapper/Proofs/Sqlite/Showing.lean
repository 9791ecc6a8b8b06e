import ModelMapper.Proofs.Backend.Showing
import ModelMapper.Proofs.Sqlite.Keeping

/-! # Rows shown by the engine

A session of the engine sees the records of a model when its table holds them, inside a transaction
and outside of one.

* `Truth.any_isTrue`, `Comparison.Seeks.judged` — a test of one field is known to be true where it
  holds, and null makes no difference to it.
* `Cluster.Shows` — the records that the rows hold, each complete and without signed zeros.
* `Cluster.shows` — the engine shows its records, those with equal keys in any order.
-/

namespace ModelMapper

/-! ## Tests of one field -/

namespace Truth

/-- A disjunction is known to be true when a member is. -/
theorem any_isTrue (ts : List Truth) : (any ts == some true) = ts.any (· == some true) := by
  induction ts with
  | nil => rfl
  | cons t ts ih =>
    rw [any_cons, List.any_cons, ← ih]
    generalize any ts = rest
    rcases t with _ | _ | _ <;> rcases rest with _ | _ | _ <;> rfl

end Truth

/-- A null agrees with no other value, as its comparison is not known to be true. -/
theorem Value.judged_agrees {v w : Value} (hw : w.isNull = false) :
    (v.judged agrees w == some true) = v.agrees w := by
  rw [judged, hw, Bool.or_false]
  split
  · next hnull =>
    cases v <;> cases hnull
    cases w <;> first | rfl | cases hw
  · cases v.agrees w <;> rfl

namespace Comparison.Seeks

variable {s : Schema} {c : Comparison}

/-- Such a test selects the rows it holds for. -/
theorem judged (h : c.Seeks s) (r : Record) : (c.judged r == some true) = c.holds r := by
  cases h with
  | @equal f _ v _ =>
    cases hnull : v.isNull with
    | true =>
      cases v <;> cases hnull
      show (some ((r.value f.name).agrees .null) == some true) = (r.value f.name).agrees .null
      cases (r.value f.name).agrees .null <;> rfl
    | false =>
      have hliteral : Comparison.judged r ⟨s.fieldRef f.name, .eq, .literal v⟩ =
          (r.value f.name).judged Value.agrees v := by
        cases v <;> first | rfl | cases hnull
      rw [hliteral]
      exact Value.judged_agrees hnull
  | @among f _ values hvalues =>
    show (Truth.any _ == some true) = values.any _
    rw [Truth.any_isTrue, List.any_map]
    rw [Bool.eq_iff_iff, List.any_eq_true, List.any_eq_true]
    refine exists_congr fun v => and_congr_right fun hv => ?_
    rw [Function.comp_apply, Value.judged_agrees (hvalues v hv).2]

theorem clear (h : c.Seeks s) (r : Record) : c.Clear r := by
  cases h <;> exact ⟨nofun, nofun⟩

/-- Such a comparison becomes a condition. -/
theorem toCondition (h : c.Seeks s) :
    ∃ condition, Sql.Condition.ofNode s (.comparison c) = .ok condition := by
  have hcolumn : ∀ {f : Field}, s.field? f.name = some f →
      s.columnOf (s.fieldRef f.name) = .ok f.column := fun hf =>
    Schema.columnOf_eq_ok.2 ⟨rfl, _, hf, rfl⟩
  cases h with
  | @equal f hf v _ =>
    by_cases hnull : v = .null
    · subst hnull
      exact ⟨_, Sql.Condition.ofComparison_eq_ok.2 (.isNull (hcolumn hf))⟩
    · exact ⟨_, Sql.Condition.ofComparison_eq_ok.2 (.compare (hcolumn hf) rfl hnull)⟩
  | @among f hf values _ =>
    by_cases hempty : values = []
    · subst hempty
      exact ⟨_, Sql.Condition.ofComparison_eq_ok.2 (.memberOfNone (hcolumn hf) rfl)⟩
    · exact ⟨_, Sql.Condition.ofComparison_eq_ok.2 (.member (hcolumn hf) rfl hempty)⟩

end Comparison.Seeks

/-! ## Sessions -/

namespace Sqlite.Cluster

variable {c : Cluster} {id : Nat} {s : Schema} {records : List Record}

/-- What a session sees in the table of a model are rows that hold these records. -/
structure Shows (c : Cluster) (id : Nat) (s : Schema) (records : List Record) : Prop where
  filled : s.fields ≠ []
  whole : ∀ r ∈ records, (r.Typed s ∧ s.completed r = r) ∧ r.unsigned = r
  table : ∃ t, (c.view id).table s.table = .ok t ∧ t.Holds s records

/-- A query by one field gives the records its comparison holds for, whatever its order. -/
theorem Shows.fetch (h : c.Shows id s records) {comparison : Comparison}
    (hseeks : comparison.Seeks s) {q : Query} (hmodel : q.model = s)
    (hfilter : q.filter = some (.comparison comparison)) (hordering : ∀ e ∈ q.ordering, s.Has e.1)
    (hwindow : q.window = .whole) (t : Traced Cluster) (ht : t.state = c) :
    ∃ rows t', rows.Perm (records.filter fun r => comparison.holds r) ∧ t'.state = c ∧
      Cluster.fetch id q t = (.ok rows, t') := by
  subst hmodel
  subst ht
  obtain ⟨hfilled, hwhole, table, htable, hholds⟩ := h
  have hcomparisons : q.comparisons = [comparison] := by
    rw [Query.comparisons, hfilter]
    rfl
  have htyped : q.Typed := by
    rw [Query.Typed, hcomparisons]
    exact Query.typed_seek hseeks
  have hclear : ∀ r ∈ records, ∀ c ∈ q.comparisons, c.Clear r := by
    intro r _
    rw [hcomparisons]
    exact List.forall_mem_singleton.2 (hseeks.clear r)
  have hjudged : (fun r => q.judged r == some true) = fun r => comparison.holds r := by
    funext r
    rw [Query.judged, hfilter]
    exact hseeks.judged r
  obtain ⟨condition, hcondition⟩ : ∃ condition, q.condition = .ok condition := by
    rw [Query.condition, hfilter]
    obtain ⟨condition, hcondition⟩ := hseeks.toCondition
    exact ⟨_, congrArg (Except.map some) hcondition⟩
  obtain ⟨order, horder⟩ : ∃ order, q.columnOrder = .ok order :=
    Schema.mapM_columnOf Prod.mk hordering
  obtain ⟨cells, found, hselect, hfound, hperm⟩ := Database.select_held hfilled htable hholds
    (fun r hr => (hwhole r hr).1) htyped hclear hcondition order
  have hcommand : q.toSelect =
      .ok (.select q.model.table q.model.columns condition order .whole) := by
    rw [Query.toSelect, hcondition, horder, hwindow]
    rfl
  obtain ⟨events, hrun⟩ := run_fetch hcommand hselect hfound
  rw [hjudged, List.map_congr_left fun r hr => (hwhole r (List.mem_filter.1 hr).1).2,
    List.map_id'] at hperm
  exact ⟨found, ⟨t.state, events⟩, hperm, rfl, hrun⟩

/-- The engine shows the records of its rows, and stays as it is. -/
theorem shows (h : c.Shows id s records) :
    backend.Shows (fun _ _ => .eq) (· = c) id s records where
  typed r hr := (h.whole r hr).1.1
  seek comparison hseeks t ht :=
    h.fetch (q := .seek s comparison) hseeks rfl rfl (fun e he => absurd he List.not_mem_nil) rfl
      t ht
  seekByKeys comparison hseeks t ht := by
    have hordering := Query.ordering_byKeys s comparison
    have hquery := Query.orderByKeys_seek s comparison
    obtain ⟨rows, t', hperm, hstate, hrun⟩ := h.fetch hseeks (by rw [hquery]) (by rw [hquery])
      (fun e he => Schema.has_of_mem_byKeys (hordering ▸ he)) (Query.window_byKeys s comparison)
      t ht
    have harranged : Record.Arranged (fun _ _ => .eq) s.byKeys rows :=
      List.pairwise_of_forall fun a b => by
        rw [Record.compareBy_eq_eq.2 fun _ _ => rfl]
        exact nofun
    exact ⟨rows, t', hperm, harranged, hstate, hrun⟩

end Sqlite.Cluster

end ModelMapper
