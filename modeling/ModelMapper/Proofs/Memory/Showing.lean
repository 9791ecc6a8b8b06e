import ModelMapper.Proofs.Backend.Showing
import ModelMapper.Proofs.Memory.Keeping
import ModelMapper.Proofs.Memory.Sorting

/-! # Rows shown in memory

A session sees the records of a model when the documents in its collection store them, and it then
finds them as every backend is to.

* `Cluster.Shows` — the records that the documents store, each complete.
* `Keeps.shows` — what was added is seen.
* `Cluster.shows` — the store in memory shows its records, sorted in the order of results.
-/

namespace ModelMapper

/-- Such a comparison becomes a filter document. -/
theorem Comparison.Seeks.toFilter {s : Schema} {c : Comparison} (h : c.Seeks s) :
    ∃ filter, c.toFilter s = .ok filter := by
  have hcolumn : ∀ {f : Field}, s.field? f.name = some f →
      s.columnOf (s.fieldRef f.name) = .ok f.column := fun hf =>
    Schema.columnOf_eq_ok.2 ⟨rfl, _, hf, rfl⟩
  cases h with
  | equal hf =>
    exact ⟨_, Comparison.toFilter_eq_ok.2
      (.literal (hcolumn hf) (by decide) rfl fun _ => .inl rfl)⟩
  | among hf => exact ⟨_, Comparison.toFilter_eq_ok.2 (.list (hcolumn hf) rfl _)⟩

namespace Memory.Cluster

variable {c : Cluster} {id : Nat} {s : Schema} {records : List Record}

/-- What a session sees in the collection of a model are documents that store these records. -/
structure Shows (c : Cluster) (id : Nat) (s : Schema) (records : List Record) : Prop where
  whole : ∀ r ∈ records, r.Typed s ∧ s.completed r = r
  collection : ∃ documents, (c.view id).collection s.table = .ok documents ∧
    List.Forall₂ s.Stores records documents

theorem Keeps.shows {shelf : Shelf} (h : c.Keeps id s shelf) (hwhole : shelf.Whole s) :
    c.Shows id s shelf.records := by
  refine ⟨hwhole, ?_⟩
  rw [view, h.session]
  exact h.collection

/-- A collection of encoded records shows them. -/
theorem shows_encoded (hs : s.Nameable) (hwhole : ∀ r ∈ records, r.Typed s ∧ s.completed r = r)
    (hcollection : (c.view id).collection s.table = .ok (records.map fun r =>
      Entries.ofList (s.fields.map fun f => (f.column, (r.value f.name).toDoc)))) :
    c.Shows id s records := by
  refine ⟨hwhole, _, hcollection, List.forall₂_map_right_iff.2 (List.forall₂_same.2 fun r hr => ?_)⟩
  exact Schema.stores_encode hs.distinct (Schema.encode_eq_ok (hwhole r hr).1.known)

/-- A query by one field gives the records its comparison holds for, as it sorts them. -/
theorem Shows.fetch (h : c.Shows id s records) (hs : s.Nameable) {comparison : Comparison}
    (hseeks : comparison.Seeks s) {q : Query} (hmodel : q.model = s)
    (hfilter : q.filter = some (.comparison comparison)) (hordering : ∀ e ∈ q.ordering, s.Has e.1)
    (hwindow : q.window = .whole) :
    ∃ rows, rows.Perm (records.filter fun r => comparison.holds r) ∧
      Record.Arranged Value.resultOrder q.ordering rows ∧ c.fetch id q = .ok rows := by
  subst hmodel
  obtain ⟨documents, hdocuments, hkept⟩ := h.collection
  have htyped : q.Typed := by
    have hseek := Query.typed_seek hseeks
    rw [Query.Typed, Query.comparisons] at hseek ⊢
    rw [hfilter]
    exact hseek
  have hholds : q.holds = fun r => comparison.holds r := by
    funext r
    rw [Query.holds, hfilter]
    rfl
  obtain ⟨sort, hsort⟩ : ∃ sort, q.sortColumns = .ok sort :=
    Schema.mapM_columnOf (fun column direction => (column, direction.sign)) hordering
  obtain ⟨filter, htoFilter⟩ : ∃ filter, q.toFilter = .ok filter := by
    rw [Query.toFilter, hfilter]
    exact hseeks.toFilter
  obtain ⟨found, hfound, hstored⟩ := Documents.matching_stored hs htyped htoFilter
    (fun r hr => (h.whole r hr).1) hkept
  obtain ⟨rows, hperm, harranged, hrows⟩ := Documents.arranged_sorted hsort
    (fun e he => (hordering e he).2) (fun r hr => (h.whole r (List.mem_filter.1 hr).1).1) hstored
  refine ⟨rows, hholds ▸ hperm, harranged, ?_⟩
  rw [fetch_eq, ordered, hsort, Result.ok_bind, htoFilter, Result.ok_bind, hdocuments,
    Result.ok_bind, hfound, hwindow]
  exact decode_all (fun r hr => h.whole r (List.mem_filter.1 (hperm.subset hr)).1) hrows

/-- The store in memory shows its records, and stays as it is. -/
theorem shows (h : c.Shows id s records) (hs : s.Nameable) :
    backend.Shows Value.resultOrder (· = c) id s records where
  typed r hr := (h.whole r hr).1
  seek comparison hseeks t ht := by
    subst ht
    obtain ⟨rows, hperm, -, hrows⟩ := h.fetch (q := .seek s comparison) hs hseeks rfl rfl
      (fun e he => absurd he List.not_mem_nil) rfl
    obtain ⟨events, hrun⟩ := run_fetch id (.seek s comparison) t
    rw [hrows] at hrun
    exact ⟨rows, ⟨t.state, events⟩, hperm, rfl, hrun⟩
  seekByKeys comparison hseeks t ht := by
    subst ht
    have hordering := Query.ordering_byKeys s comparison
    have hquery := Query.orderByKeys_seek s comparison
    obtain ⟨rows, hperm, harranged, hrows⟩ := h.fetch hs hseeks (by rw [hquery]) (by rw [hquery])
      (fun e he => Schema.has_of_mem_byKeys (hordering ▸ he)) (Query.window_byKeys s comparison)
    obtain ⟨events, hrun⟩ := run_fetch id (Query.seek s comparison).orderByKeys t
    rw [hrows] at hrun
    exact ⟨rows, ⟨t.state, events⟩, hperm, hordering ▸ harranged, rfl, hrun⟩

end Memory.Cluster

end ModelMapper
