import ModelMapper.Proofs.Document.Filtering
import ModelMapper.Proofs.Mapper.Batches
import ModelMapper.Proofs.Memory.Failure
import ModelMapper.Proofs.Memory.Keeping

/-! # Cursors in memory

As long as the store stays as it is, a cursor gives the records that one fetch of its whole query
gives.

* `Documents.sorted_perm`, `Documents.length_matching` — sorting loses no document, and as many
  match as are counted.
* `Cluster.ordered` — the documents a query matches in its order, out of which every fetch takes
  its window (`Cluster.fetch_eq`); `Cluster.ordered_of_satisfies`, if it has none.
* `Cluster.Readable` — a collection that can be read back.
* `Cluster.batches_lose_nothing` — the cursor and the fetch, and the order they have.
-/

namespace ModelMapper

/-! ## Collections -/

namespace Documents

theorem insertBackwards_perm {α : Type} (before : α → α → Bool) (a : α) (items : List α) :
    (insertBackwards before a items).Perm (a :: items) := by
  induction items with
  | nil => exact .refl _
  | cons b rest ih =>
    rw [insertBackwards]
    split
    · exact (ih.cons b).trans (.swap a b rest)
    · exact .refl _

theorem sorted_perm {α : Type} (before : α → α → Bool) (items : List α) :
    (sorted before items).Perm items := by
  have hfold : ∀ done, (items.foldl (fun done a => insertBackwards before a done) done).Perm
      (items ++ done) := by
    induction items with
    | nil => exact fun done => .refl _
    | cons a items ih =>
      intro done
      exact (ih _).trans (((insertBackwards_perm before a done).append_left items).trans
        List.perm_middle)
  have hall := hfold []
  rw [List.append_nil] at hall
  exact (List.reverse_perm _).trans hall

theorem matching_cons (filter : Doc) (d : Document) (documents : Documents) :
    matching filter (d :: documents) = d.satisfies filter >>= fun hit =>
      (matching filter documents).map fun found => if hit then d :: found else found := by
  rw [matching, List.filterMapM_cons]
  cases d.satisfies filter with
  | error e => rfl
  | ok hit =>
    have hrest : (documents.filterMapM fun d => (d.satisfies filter).map fun hit =>
        if hit then some d else none) = matching filter documents := rfl
    rw [hrest]
    cases hit <;> cases matching filter documents <;> rfl

/-- A filter that is decided on every document keeps those it holds for. -/
theorem matching_of_satisfies {filter : Doc} {holds : Document → Bool}
    {documents : Documents} (h : ∀ d ∈ documents, d.satisfies filter = .ok (holds d)) :
    matching filter documents = .ok (documents.filter holds) := by
  rw [matching]
  induction documents with
  | nil => rfl
  | cons d documents ih =>
    obtain ⟨hd, hrest⟩ := List.forall_mem_cons.1 h
    rw [List.filterMapM_cons, hd, ih hrest, List.filter_cons]
    cases holds d <;> rfl

/-- Each document that matches is one of the collection. -/
theorem matching_sublist {filter : Doc} {documents : Documents} {found : List Document}
    (h : matching filter documents = .ok found) : found.Sublist documents := by
  induction documents generalizing found with
  | nil =>
    cases h
    exact .slnil
  | cons d documents ih =>
    rw [matching_cons] at h
    obtain ⟨hit, -, h⟩ := Result.bind_eq_ok.1 h
    obtain ⟨rest, hrest, rfl⟩ := Result.map_eq_ok.1 h
    cases hit with
    | false => exact (ih hrest).cons d
    | true => exact (ih hrest).cons_cons d

/-- As many documents match as are counted, or both fail at the first document that cannot be
    decided. -/
theorem length_matching (filter : Doc) (documents : Documents) :
    (matching filter documents).map List.length = count filter documents := by
  rw [count, hits]
  induction documents with
  | nil => rfl
  | cons d documents ih =>
    rw [matching_cons, List.mapM_cons]
    cases d.satisfies filter with
    | error e => rfl
    | ok hit =>
      generalize matching filter documents = found at ih
      generalize documents.mapM (fun d => d.satisfies filter) = decided at ih
      rcases found with e | found <;> rcases decided with e' | decided
      · exact congrArg Except.error (Except.error.inj ih)
      · cases ih
      · cases ih
      · have hlength : found.length = decided.countP id := Except.ok.inj ih
        cases hit with
        | false => exact congrArg Except.ok hlength
        | true =>
          show Except.ok (found.length + 1) = Except.ok ((true :: decided).countP id)
          rw [List.countP_cons_of_pos rfl, hlength]

end Documents

/-! ## Sessions -/

namespace Memory.Cluster

/-- What a session sees of the collection of a model can be read back, and it can be counted. -/
structure Readable (c : Cluster) (id : Nat) (s : Schema) : Prop where
  decodes : ∀ documents, (c.view id).collection s.table = .ok documents →
    ∀ d ∈ documents, ∃ r, s.decode d = .ok r
  counts : ∀ documents, (c.view id).collection s.table = .ok documents →
    documents.length ≤ maxCount

/-- The documents that match the filter of a query, in its order. -/
def ordered (c : Cluster) (id : Nat) (q : Query) : Result (List Document) := do
  let sort ← q.sortColumns
  let filter ← q.toFilter
  let documents ← (c.view id).collection q.model.table
  (Documents.matching filter documents).map
    (Documents.sorted fun a b => Documents.compareBy sort a b == .lt)

variable {c : Cluster} {id : Nat} {q : Query} {found : List Document}

/-- Without an order the matches are found as they are stored. -/
theorem ordered_of_satisfies {filter : Doc} {documents : Documents} {holds : Document → Bool}
    (hordering : q.ordering = []) (hfilter : q.toFilter = .ok filter)
    (hcollection : (c.view id).collection q.model.table = .ok documents)
    (hholds : ∀ d ∈ documents, d.satisfies filter = .ok (holds d)) :
    c.ordered id q = .ok (documents.filter holds) := by
  have hsort : q.sortColumns = .ok [] := by
    rw [Query.sortColumns, hordering]
    rfl
  rw [ordered, hsort, Result.ok_bind, hfilter, Result.ok_bind, hcollection, Result.ok_bind,
    Documents.matching_of_satisfies hholds]
  exact congrArg Except.ok (Documents.sorted_unordered (fun _ _ => rfl) _)

/-- A fetch reads the documents in the window. -/
theorem fetch_eq (c : Cluster) (id : Nat) (q : Query) :
    c.fetch id q =
      (c.ordered id q >>= fun found => (q.window.slice found).mapM q.model.decode) := by
  rw [fetch, Query.toFind, ordered]
  cases q.sortColumns with
  | error e => rfl
  | ok sort =>
    cases q.toFilter with
    | error e => rfl
    | ok filter =>
      simp only [Result.ok_bind, Result.pure_eq_ok, search]
      cases (c.view id).collection q.model.table with
      | error e => rfl
      | ok documents =>
        rw [Result.ok_bind, Result.ok_bind, Documents.find]
        cases Documents.matching filter documents <;> rfl

/-- A batch has the order and the filter of its query. -/
theorem ordered_batch (c : Cluster) (id : Nat) (q : Query) (index size : Nat) :
    c.ordered id (q.batch index size) = c.ordered id q := by
  rw [ordered, Query.sortColumns, Query.ordering_batch]
  rfl

theorem ordered_subperm (h : c.ordered id q = .ok found) :
    ∃ documents, (c.view id).collection q.model.table = .ok documents ∧
      found.Subperm documents := by
  obtain ⟨sort, -, h⟩ := Result.bind_eq_ok.1 h
  obtain ⟨filter, -, h⟩ := Result.bind_eq_ok.1 h
  obtain ⟨documents, hdocuments, h⟩ := Result.bind_eq_ok.1 h
  obtain ⟨kept, hkept, rfl⟩ := Result.map_eq_ok.1 h
  exact ⟨documents, hdocuments, kept, (Documents.sorted_perm _ kept).symm,
    Documents.matching_sublist hkept⟩

/-- Of a readable collection all that is found can be read. -/
theorem Readable.mapM_decode (hread : c.Readable id q.model) (h : c.ordered id q = .ok found) :
    ∃ records, found.mapM q.model.decode = .ok records ∧ records.length = found.length ∧
      found.length ≤ maxCount := by
  obtain ⟨documents, hdocuments, hsubperm⟩ := ordered_subperm h
  obtain ⟨records, hrecords⟩ := Result.mapM_of_forall fun d hd =>
    hread.decodes documents hdocuments d (hsubperm.subset hd)
  exact ⟨records, hrecords, (Result.mapM_eq_ok.1 hrecords).length_eq.symm,
    hsubperm.length_le.trans (hread.counts documents hdocuments)⟩

theorem run_fetch (id : Nat) (q : Query) (t : Traced Cluster) :
    ∃ events, backend.fetch id q t =
      ((t.state.fetch id q).mapError .error, ⟨t.state, events⟩) := by
  show ∃ events, tracedFetch id q t = _
  rw [tracedFetch, fetch]
  cases q.toFind with
  | error e => exact ⟨_, rfl⟩
  | ok f =>
    refine ⟨Report.search f :: t.events, ?_⟩
    rw [Result.ok_bind]
    show Call.read (fun c : Cluster => c.search id q.model f) ⟨t.state, _⟩ = _
    rw [Call.run_read]
    dsimp only
    cases t.state.search id q.model f <;> rfl

/-- A batch is its window of the records found. -/
theorem run_fetch_batch (h : c.ordered id q = .ok found) {records : List Record}
    (hrecords : found.mapM q.model.decode = .ok records) (n : Nat) (events : List Event) :
    ∃ after, backend.fetch id (q.batch n batchSize) ⟨c, events⟩ =
      (.ok ((q.batch n batchSize).window.slice records), ⟨c, after⟩) := by
  obtain ⟨after, hrun⟩ := run_fetch id (q.batch n batchSize) ⟨c, events⟩
  have hmodel : (q.batch n batchSize).model = q.model := rfl
  refine ⟨after, hrun.trans ?_⟩
  rw [fetch_eq, ordered_batch, h, Result.ok_bind, hmodel, Window.mapM_slice _ hrecords]
  rfl

/-- Every batch of a query is a run of the records in its window. -/
theorem serves (h : c.ordered id q = .ok found) {records : List Record}
    (hrecords : found.mapM q.model.decode = .ok records) (hlength : found.length ≤ maxCount) :
    backend.Serves (· = c) id q (q.window.slice records) := by
  rintro n ⟨_, events⟩ rfl
  obtain ⟨after, hrun⟩ := run_fetch_batch h hrecords n events
  have hcount : records.length ≤ maxCount := by
    rw [← (Result.mapM_eq_ok.1 hrecords).length_eq]
    exact hlength
  rw [Query.slice_batch q n batchSize hcount] at hrun
  exact ⟨⟨_, after⟩, rfl, hrun⟩

/-! ## Counting -/

theorem sortColumns_stableOrder {sort : List (String × Int)} (h : q.sortColumns = .ok sort) :
    ∃ keys, q.stableOrder.sortColumns = .ok keys := by
  rw [Query.sortColumns, Query.ordering_stableOrder, Query.stableOrder_eq]
  split
  · refine Result.mapM_of_forall fun e he => ?_
    obtain ⟨f, hf, rfl⟩ := List.mem_map.1 he
    -- A key is a field of the model, whichever field its name finds.
    obtain ⟨g, hg⟩ := Option.isSome_iff_exists.1 (List.find?_isSome
      (p := fun g : Field => g.name == f.name) |>.2
        ⟨f, (List.mem_filter.1 hf).1, beq_self_eq_true f.name⟩)
    exact ⟨(g.column, 1), Result.map_eq_ok.2
      ⟨g.column, Schema.columnOf_eq_ok.2 ⟨rfl, g, hg, rfl⟩, rfl⟩⟩
  · exact ⟨sort, h⟩

theorem toFilter_stableOrder (q : Query) : q.stableOrder.toFilter = q.toFilter := by
  rw [Query.stableOrder_eq]
  rfl

/-- A query matches as many documents as it counts. -/
theorem count_eq {sort : List (String × Int)} (h : q.sortColumns = .ok sort) :
    c.count id q = (c.ordered id q).map List.length := by
  rw [count, ordered, h, Result.ok_bind]
  cases q.toFilter with
  | error e => rfl
  | ok filter =>
    rw [Result.ok_bind, Result.ok_bind]
    cases (c.view id).collection q.model.table with
    | error e => rfl
    | ok documents =>
      rw [Result.ok_bind, Result.ok_bind, ← Documents.length_matching]
      cases Documents.matching filter documents with
      | error e => rfl
      | ok found => exact congrArg Except.ok (Documents.sorted_perm _ found).length_eq.symm

/-! ## Cursors -/

/-- Opening a cursor and taking all it has gives what one fetch of its query gives. -/
theorem run_cursor {M : Type} (hread : c.Readable id q.model) (m : Model M)
    (events : List Event) :
    ∃ after, (Cursor.openOn backend id q >>= Cursor.toList backend m) ⟨c, events⟩ =
      ((c.fetch id q.stableOrder >>= fun records =>
        records.mapM fun r => m.ofRecord r ⟨id⟩).mapError .error, ⟨c, after⟩) := by
  -- What is found does not depend on the window, so the first batch fails if any fetch does.
  cases hfound : c.ordered id q.stableOrder with
  | error e =>
    obtain ⟨after, hfirst⟩ := run_fetch id (q.stableOrder.batch 0 batchSize) ⟨c, events⟩
    rw [fetch_eq, ordered_batch, hfound] at hfirst
    refine ⟨after, ?_⟩
    rw [Call.run_bind, Cursor.run_openOn_error hfirst, fetch_eq, hfound]
    rfl
  | ok found =>
    rw [← q.model_stableOrder] at hread
    obtain ⟨records, hrecords, hlength, hcount⟩ := hread.mapM_decode hfound
    have hwindow : (q.stableOrder.window.slice records).length ≤ maxCount :=
      (Window.slice_sublist _ records).length_le.trans (hlength ▸ hcount)
    obtain ⟨⟨_, after⟩, rfl, hrun⟩ := Cursor.run_toList m (serves hfound hrecords hcount) hwindow
      (rfl : (Traced.mk c events).state = c)
    refine ⟨after, hrun.trans ?_⟩
    rw [fetch_eq, hfound, Result.ok_bind, Window.mapM_slice _ hrecords]
    rfl

/-- Without a limit a query counts what such a fetch gives. -/
theorem count_fetch (hread : c.Readable id q.model) {find : Find} (hfind : q.toFind = .ok find)
    (hlimit : q.analyze.hasLimit = false) :
    c.count id q = (c.fetch id q.stableOrder).map List.length := by
  obtain ⟨sort, hsort, -⟩ := Result.bind_eq_ok.1 hfind
  obtain ⟨keys, hkeys⟩ := sortColumns_stableOrder hsort
  -- Counting knows no order, and the window has all that is found.
  have hsame : c.count id q.stableOrder = c.count id q := by
    rw [count, count, Query.model_stableOrder, toFilter_stableOrder]
  rw [← hsame, count_eq hkeys, fetch_eq, Query.window_stableOrder, Query.window_unlimited hlimit]
  cases hfound : c.ordered id q.stableOrder with
  | error e => rfl
  | ok found =>
    rw [← q.model_stableOrder] at hread
    obtain ⟨records, hrecords, hlength, -⟩ := hread.mapM_decode hfound
    rw [Result.ok_bind, Window.slice_whole, hrecords]
    exact congrArg Except.ok hlength.symm

/-- On a store that stays as it is, opening a cursor and taking all it has gives the models of the
    records that one fetch of its query gives, in the same order, or the failure of that fetch. That
    query matches what the cursor was opened for and has its window; its order is the given one, and
    that of the keys if none is given. A query without a limit gives as many as it counts. -/
theorem batches_lose_nothing {M : Type} (hread : c.Readable id q.model) (m : Model M)
    (events : List Event) :
    (q.stableOrder.model = q.model ∧ q.stableOrder.filter = q.filter ∧
      q.stableOrder.window = q.window ∧ q.stableOrder.ordering =
        if q.ordering = [] then q.model.keyFields.map fun f => (q.model.fieldRef f.name, .ascending)
        else q.ordering) ∧
    (∃ after, (Cursor.openOn backend id q >>= Cursor.toList backend m) ⟨c, events⟩ =
      ((c.fetch id q.stableOrder >>= fun records =>
        records.mapM fun r => m.ofRecord r ⟨id⟩).mapError .error, ⟨c, after⟩)) ∧
    ∀ find, q.toFind = .ok find → q.analyze.hasLimit = false →
      c.count id q = (c.fetch id q.stableOrder).map List.length :=
  ⟨⟨q.model_stableOrder, q.filter_stableOrder, q.window_stableOrder, q.ordering_stableOrder⟩,
    run_cursor hread m events, fun _ hfind hlimit => count_fetch hread hfind hlimit⟩

/-- Three batches in the order of the keys, of which the last one is not full. -/
theorem batches_lose_nothing_of_items :
    let item : Schema := ⟨"Item", [.ofMarks "id" .int [.key, .auto]]⟩
    let row (n : Nat) : Document := [("id", .int (Int64.ofNat n).toInt)]
    let c : Cluster := ⟨⟨[("Item", (List.range 250).map row)]⟩, [], [none]⟩
    let q := Query.all item
    let m : Model Record := ⟨item, fun r => r, fun r _ => .ok r⟩
    c.Readable 0 item ∧ (∃ find, q.toFind = .ok find) ∧ q.analyze.hasLimit = false ∧
      q.stableOrder.ordering = [(item.fieldRef "id", .ascending)] ∧
      (∃ after, (Cursor.openOn backend 0 q >>= Cursor.toList backend m) ⟨c, []⟩ =
        ((c.fetch 0 q.stableOrder >>= fun records =>
          records.mapM fun r => m.ofRecord r ⟨0⟩).mapError .error, ⟨c, after⟩)) ∧
      c.count 0 q = (c.fetch 0 q.stableOrder).map List.length ∧
      (c.count 0 q).toOption = some 250 := by
  intro item row c q m
  have hread : c.Readable 0 item := by
    refine ⟨fun documents h => ?_, fun documents h => ?_⟩
    · obtain rfl : (List.range 250).map row = documents := Except.ok.inj h
      intro d hd
      obtain ⟨n, -, rfl⟩ := List.mem_map.1 hd
      exact Schema.decode_readable
        (List.forall_mem_singleton.2 (Field.reads_number rfl (Int64.ofNat n)))
    · obtain rfl : (List.range 250).map row = documents := Except.ok.inj h
      rw [List.length_map, List.length_range]
      decide
  obtain ⟨⟨-, -, -, hordering⟩, hlist, hcount⟩ := batches_lose_nothing (q := q) hread m []
  have hfind : q.toFind = .ok ⟨"Item", .object [], [], 0, none⟩ := rfl
  have hlimit : q.analyze.hasLimit = false := rfl
  exact ⟨hread, ⟨_, hfind⟩, hlimit, hordering, hlist, hcount _ hfind hlimit, by decide +kernel⟩

end Memory.Cluster

end ModelMapper
