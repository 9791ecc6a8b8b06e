import ModelMapper.Proofs.Mapper.Atomic
import ModelMapper.Proofs.Mapper.Operations
import ModelMapper.Proofs.Memory.Batches
import ModelMapper.Proofs.Memory.Keeping

/-! # The first match

A search in memory gives one model where it gives any.  It is the head of the whole list if that is
in the same order: the list of a search without an order is put in the order of the keys, and the
first match is taken as the documents are stored.

* `Search.list` — all models of a search, by way of its cursor.
* `Model.readAll` — documents as models.
* `Cluster.ordered_stableOrder` — what a cursor finds.
* `Cluster.fetch_first`, `Search.outcome_list`, `Search.outcome_first` — the two ways of a search.
* `first_heads_list` — the first match and the list.
-/

namespace ModelMapper

variable {σ τ α β M : Type}

/-! ## Operations in a row -/

/-- Two calls guarded as one are guarded each. -/
theorem Call.guarded_bind (c : Call τ α) (f : α → Call τ β) :
    (c >>= f).guarded = c.guarded >>= fun a => (f a).guarded := by
  funext t
  have hboth : (c >>= f).guarded t = Op.ofOutcome ((c >>= f) t).1 ((c >>= f) t).2 := rfl
  have hfirst : c.guarded t = Op.ofOutcome (c t).1 (c t).2 := rfl
  rw [Op.run_bind, hboth, hfirst, Call.run_bind]
  rcases c t with ⟨outcome, after⟩
  rcases outcome with ⟨e⟩ | a <;> rfl

/-- Without a panic the outcome is that of the call. -/
theorem Call.outcome_guarded {c : Call τ α} {t : Traced τ} {x : Result α}
    (h : (c t).1 = x.mapError .error) : (c.guarded t).1 = x := by
  show (Op.ofOutcome (c t).1 (c t).2).1 = x
  rw [h]
  cases x <;> rfl

theorem Mapper.outcome_onStore (c : Call σ α) (t : Traced (Mapper σ)) :
    (Mapper.onStore c t).1 = (c ⟨t.state.store, t.events⟩).1 := rfl

/-- All models that a search finds: a cursor, and all that it has. -/
def Search.list (b : Backend σ) (m : Model M) (s : Search) : Op (Mapper σ) (List M) := do
  let cursor ← s.all b
  (Mapper.onStore (cursor.toList b m)).guarded

/-! ## Documents as models -/

namespace Model

variable {m : Model M} {s : Schema} {session : Nat} {documents : List Document} {models : List M}

/-- The models that documents hold: all are decoded before the first model is made. -/
def readAll (m : Model M) (s : Schema) (session : Nat) (documents : List Document) :
    Result (List M) :=
  documents.mapM s.decode >>= fun records => records.mapM fun r => m.ofRecord r ⟨session⟩

/-- The models of a part of the documents. -/
theorem readAll_slice (w : Window) (h : m.readAll s session documents = .ok models) :
    m.readAll s session (w.slice documents) = .ok (w.slice models) := by
  obtain ⟨records, hrecords, hmodels⟩ := Result.bind_eq_ok.1 h
  rw [readAll, Window.mapM_slice w hrecords, Result.ok_bind, Window.mapM_slice w hmodels]

/-- The models of the documents in another order. -/
theorem readAll_perm {others : List Document} (hperm : others.Perm documents)
    (h : m.readAll s session documents = .ok models) :
    ∃ listed : List M, m.readAll s session others = .ok listed ∧ listed.Perm models := by
  obtain ⟨records, hrecords, hmodels⟩ := Result.bind_eq_ok.1 h
  obtain ⟨rows, hrows, hrowsPerm⟩ := Result.mapM_perm hperm hrecords
  obtain ⟨listed, hlisted, hlistedPerm⟩ := Result.mapM_perm hrowsPerm hmodels
  exact ⟨listed, by rw [readAll, hrows, Result.ok_bind, hlisted], hlistedPerm⟩

end Model

/-! ## What is found -/

namespace Memory.Cluster

variable {c : Cluster} {id : Nat} {q : Query} {found : List Document}

/-- The documents are in the order of the keys, if there is no other one. -/
def InKeyOrder (q : Query) (found : List Document) : Prop :=
  q.ordering = [] → ∀ keys, q.stableOrder.sortColumns = .ok keys →
    found.Pairwise fun a b => Documents.compareBy keys b a ≠ .lt

/-- Of a search without an order a cursor finds the matches sorted by the keys. -/
theorem ordered_unordered (c : Cluster) (id : Nat) (h : q.ordering = []) :
    ∃ keys, q.stableOrder.sortColumns = .ok keys ∧ c.ordered id q.stableOrder =
      (c.ordered id q).map (Documents.sorted fun a b => Documents.compareBy keys a b == .lt) := by
  have hsort : q.sortColumns = .ok [] := by
    rw [Query.sortColumns, h]
    rfl
  obtain ⟨keys, hkeys⟩ := sortColumns_stableOrder hsort
  refine ⟨keys, hkeys, ?_⟩
  -- Filter and collection are the same, and what they fail with is.
  rw [ordered, ordered, hkeys, hsort, toFilter_stableOrder, Query.model_stableOrder,
    Result.ok_bind, Result.ok_bind]
  cases q.toFilter with
  | error e => rfl
  | ok filter =>
    rw [Result.ok_bind, Result.ok_bind]
    cases (c.view id).collection q.model.table with
    | error e => rfl
    | ok documents =>
      rw [Result.ok_bind, Result.ok_bind]
      cases Documents.matching filter documents with
      | error e => rfl
      | ok kept =>
        -- Without an order the matches are as they are stored, and are sorted once only.
        exact congrArg (fun items => Except.ok (Documents.sorted _ items))
          (Documents.sorted_unordered (fun _ _ => rfl) kept).symm

/-- A cursor finds the same documents, and in the same order if that is the order of the keys. -/
theorem ordered_stableOrder (h : c.ordered id q = .ok found) :
    ∃ sorted, c.ordered id q.stableOrder = .ok sorted ∧ sorted.Perm found ∧
      (InKeyOrder q found → sorted = found) := by
  by_cases hordering : q.ordering = []
  · obtain ⟨keys, hkeys, hsorted⟩ := ordered_unordered c id hordering
    rw [h] at hsorted
    refine ⟨_, hsorted, Documents.sorted_perm _ found, fun hkeyed => ?_⟩
    exact Documents.sorted_of_pairwise ((hkeyed hordering keys hkeys).imp fun hab => by simpa)
  · have hstable : q.stableOrder = q := by
      rw [Query.stableOrder, if_neg (by simpa using hordering)]
    exact ⟨found, by rw [hstable, h], .refl _, fun _ => rfl⟩

theorem ordered_stableOrder_error {e : Error} (h : c.ordered id q = .error e) :
    c.ordered id q.stableOrder = .error e := by
  by_cases hordering : q.ordering = []
  · obtain ⟨keys, -, hsorted⟩ := ordered_unordered c id hordering
    rw [hsorted, h]
    rfl
  · rw [Query.stableOrder, if_neg (by simpa using hordering), h]

/-- What a session sees of the collection of a model can be read back as models. -/
structure Modelled (c : Cluster) (id : Nat) (s : Schema) (m : Model M) : Prop
    extends Readable c id s where
  models : ∀ documents, (c.view id).collection s.table = .ok documents → ∀ d ∈ documents, ∀ r,
    s.decode d = .ok r → ∃ a, m.ofRecord r ⟨id⟩ = .ok a

theorem Modelled.exists_models {m : Model M} (hread : c.Modelled id q.model m)
    (h : c.ordered id q = .ok found) :
    ∃ models, m.readAll q.model id found = .ok models ∧ found.length ≤ maxCount := by
  obtain ⟨documents, hdocuments, hsubperm⟩ := ordered_subperm h
  obtain ⟨records, hrecords, -, hcount⟩ := hread.mapM_decode h
  obtain ⟨models, hmodels⟩ := Result.mapM_of_forall (f := fun r => m.ofRecord r ⟨id⟩) fun r hr => by
    obtain ⟨d, hd, hdecode⟩ := Result.exists_of_mem_mapM hrecords hr
    exact hread.models documents hdocuments d (hsubperm.subset hd) r hdecode
  exact ⟨models, by rw [Model.readAll, hrecords, Result.ok_bind, hmodels], hcount⟩

/-- The first batch of one is the head of the window. -/
theorem fetch_first (h : c.ordered id q = .ok found) {records : List Record}
    (hrecords : found.mapM q.model.decode = .ok records) (hcount : found.length ≤ maxCount) :
    c.fetch id (q.batch 0 1) = .ok ((q.window.slice records).take 1) := by
  have hmodel : (q.batch 0 1).model = q.model := rfl
  have hlength : records.length ≤ maxCount :=
    (Result.mapM_eq_ok.1 hrecords).length_eq ▸ hcount
  rw [fetch_eq, ordered_batch, h, Result.ok_bind, hmodel, Window.mapM_slice _ hrecords,
    Query.slice_batch q 0 1 hlength, Nat.zero_mul, List.drop_zero]

end Memory.Cluster

/-! ## The two ways -/

namespace Search

open Memory (Cluster backend)

variable {s : Search} {m : Model M} {session : Nat} {q : Query}

/-- The list is what the window has of all models, in the order of the cursor. -/
theorem outcome_list {t t' : Traced (Mapper Cluster)}
    (hready : s.ready backend t = (.ok (session, q), t'))
    (hread : t'.state.store.Readable session q.model) :
    (s.list backend m t).1 = (t'.state.store.ordered session q.stableOrder >>= fun found =>
      m.readAll q.model session (q.window.slice found)) := by
  obtain ⟨after, hrun⟩ := Cluster.run_cursor hread m t'.events
  rw [list, all, ← Call.guarded_bind]
  refine Call.outcome_guarded ?_
  rw [Call.run_bind, Call.run_bind, hready]
  dsimp only
  rw [← Call.run_bind, ← Mapper.onStore_bind, Mapper.outcome_onStore, hrun, Cluster.fetch_eq,
    q.window_stableOrder, q.model_stableOrder]
  cases t'.state.store.ordered session q.stableOrder <;> rfl

/-- The first match is the head of a batch of one. -/
theorem outcome_first {t t' : Traced (Mapper Cluster)}
    (hready : s.ready backend t = (.ok (session, q), t')) :
    (s.first backend m t).1 = (t'.state.store.fetch session (q.batch 0 1) >>= fun records =>
      records.head?.mapM fun r => m.ofRecord r ⟨session⟩) := by
  obtain ⟨after, hrun⟩ := Cluster.run_fetch session (q.batch 0 1) ⟨t'.state.store, t'.events⟩
  refine Call.outcome_guarded ?_
  rw [fetchFirst, Call.run_bind, hready]
  dsimp only
  rw [Call.run_bind]
  have hstore : Mapper.onStore (backend.fetch session (q.batch 0 1)) t' =
      ((t'.state.store.fetch session (q.batch 0 1)).mapError .error, ⟨t'.state, after⟩) := by
    rw [Mapper.onStore, Call.within, hrun]
  rw [hstore]
  cases t'.state.store.fetch session (q.batch 0 1) with
  | error e => rfl
  | ok records =>
    cases records with
    | nil => rfl
    | cons r rest =>
      show ((some <$> Call.ofResult (m.ofRecord r ⟨session⟩) : Call (Mapper Cluster) (Option M))
        ⟨t'.state, after⟩).1 = (some <$> m.ofRecord r ⟨session⟩).mapError .error
      cases m.ofRecord r ⟨session⟩ <;> rfl

/-- One match is the first, if there is any. -/
theorem outcome_one (b : Backend σ) (s : Search) (m : Model M) (t : Traced (Mapper σ)) :
    (s.one b m t).1 = ((s.first b m t).1 >>= fun found =>
      match found with
      | some a => .ok a
      | none => .error (.noResult m.schema.name)) := by
  have hfirst : (s.fetchFirst b m).guarded = s.first b m := rfl
  rw [one, Call.guarded_bind, Op.run_bind, hfirst]
  rcases s.first b m t with ⟨outcome, after⟩
  rcases outcome with e | _ | a <;> rfl

end Search

/-! ## The head of the list -/

open Memory (Cluster backend)

theorem Window.length_slice_congr {w : Window} {rows : List α} {others : List β}
    (h : rows.length = others.length) : (w.slice rows).length = (w.slice others).length := by
  rw [slice, slice]
  cases w.limit with
  | none => simp only [List.length_drop, h]
  | some n => simp only [List.length_take, List.length_drop, h]

/-- The head of what is answered for all. -/
theorem Result.mapM_head? {ε : Type} {f : α → Except ε β} {rows : List α} {answers : List β}
    (h : rows.mapM f = .ok answers) : rows.head?.mapM f = .ok answers.head? := by
  cases Result.mapM_eq_ok.1 h with
  | nil => rfl
  | cons hr _ => exact Result.map_eq_ok.2 ⟨_, hr, rfl⟩

/-- On a store whose rows read back as models the list, the first match and the one match of a
search fail alike.  Otherwise the list is what the window has of the models that are found, in some
order, and the first match is the head of what it has of them as they are stored: there is one
exactly if the list is not empty, and the one match is the first.  The two orders are the same if
the search has an order of its own, or if the matches are stored in the order of the keys. -/
theorem first_heads_list {s : Search} {m : Model M} {session : Nat} {q : Query}
    {t t' : Traced (Mapper Cluster)} (hready : s.ready backend t = (.ok (session, q), t'))
    (hread : t'.state.store.Modelled session q.model m) :
    (∀ e, t'.state.store.ordered session q = .error e →
      (s.list backend m t).1 = .error e ∧ (s.first backend m t).1 = .error e ∧
        (s.one backend m t).1 = .error e) ∧
    ∀ found, t'.state.store.ordered session q = .ok found →
      ∃ stored listed, m.readAll q.model session found = .ok stored ∧ listed.Perm stored ∧
        (s.list backend m t).1 = .ok (q.window.slice listed) ∧
        (s.first backend m t).1 = .ok (q.window.slice stored).head? ∧
        ((s.one backend m t).1 = match (q.window.slice stored).head? with
          | some a => .ok a
          | none => .error (.noResult m.schema.name)) ∧
        ((q.window.slice stored).head? = none ↔ q.window.slice listed = []) ∧
        (Cluster.InKeyOrder q found → listed = stored) := by
  have hlist := Search.outcome_list (m := m) hready hread.toReadable
  have hfirst := Search.outcome_first (m := m) hready
  have hone := Search.outcome_one backend s m t
  constructor
  · intro e he
    -- What is found depends on neither the window nor the order, so all three fail with it.
    rw [Cluster.ordered_stableOrder_error he] at hlist
    rw [Cluster.fetch_eq, Cluster.ordered_batch, he] at hfirst
    rw [hfirst] at hone
    exact ⟨hlist, hfirst, hone⟩
  · intro found hfound
    obtain ⟨stored, hstored, hcount⟩ := hread.exists_models hfound
    obtain ⟨sorted, hsorted, hperm, hsame⟩ := Cluster.ordered_stableOrder hfound
    -- The list reads the documents as the cursor sorts them, the first match as they are found.
    obtain ⟨listed, hlisted, hlistedPerm⟩ := Model.readAll_perm hperm hstored
    obtain ⟨records, hrecords, hmodels⟩ := Result.bind_eq_ok.1 hstored
    rw [hsorted, Result.ok_bind, Model.readAll_slice q.window hlisted] at hlist
    rw [Cluster.fetch_first hfound hrecords hcount, Result.ok_bind, List.head?_take,
      if_neg Nat.one_ne_zero, Result.mapM_head? (Window.mapM_slice q.window hmodels)] at hfirst
    rw [hfirst] at hone
    refine ⟨stored, listed, hstored, hlistedPerm, hlist, hfirst, hone.trans ?_, ?_,
      fun hkeyed => ?_⟩
    · cases (q.window.slice stored).head? <;> rfl
    · -- The two windows have as many models, whichever these are.
      rw [List.head?_eq_none_iff, ← List.length_eq_zero_iff,
        Window.length_slice_congr hlistedPerm.length_eq.symm, List.length_eq_zero_iff]
    · obtain rfl := hsame hkeyed
      exact Except.ok.inj (hlisted.symm.trans hstored)

/-- The second page of two items that are stored in the order of their keys. -/
theorem first_heads_list_of_items :
    let item : Schema := ⟨"Item", [.ofMarks "id" .int [.key]]⟩
    let m : Model Record := ⟨item, fun r => r, fun r _ => .ok r⟩
    let q : Query := ⟨item, none, [.page 1 (some 2)]⟩
    let s : Search := ⟨.database, .ok q⟩
    let found : List Document := [[("id", .int 1)], [("id", .int 2)]]
    let store : Cluster := ⟨⟨[("Item", found)]⟩, [], [none]⟩
    let t : Traced (Mapper Cluster) := ⟨⟨store, ⟨.unnamed, true, true⟩, []⟩, []⟩
    s.ready backend t = (.ok (0, q), t) ∧ t.state.store.Modelled 0 item m ∧
      t.state.store.ordered 0 q = .ok found ∧ Cluster.InKeyOrder q found ∧
      ∃ models, (s.list backend m t).1 = .ok models ∧
        (s.first backend m t).1 = .ok models.head? := by
  intro item m q s found store t
  have hready : s.ready backend t = (.ok (0, q), t) := rfl
  have hfound : t.state.store.ordered 0 q = .ok found := rfl
  have hkeyed : Cluster.InKeyOrder q found := by
    intro _ keys hkeys
    cases hkeys
    decide
  have hread : t.state.store.Modelled 0 item m := by
    refine ⟨⟨fun documents h d hd => ?_, fun documents h => ?_⟩, fun _ _ _ _ r _ => ⟨r, rfl⟩⟩
    · obtain rfl : found = documents := Except.ok.inj h
      obtain ⟨n, rfl⟩ : ∃ n : Int64, d = [("id", .int n.toInt)] := by
        rcases List.mem_cons.1 hd with rfl | hd
        · exact ⟨1, rfl⟩
        · cases List.mem_singleton.1 hd
          exact ⟨2, rfl⟩
      exact Schema.decode_readable (List.forall_mem_singleton.2 (Field.reads_number rfl n))
    · obtain rfl : found = documents := Except.ok.inj h
      decide
  obtain ⟨stored, listed, -, -, hlist, hfirst, -, -, hsame⟩ :=
    (first_heads_list hready hread).2 found hfound
  obtain rfl := hsame hkeyed
  exact ⟨hready, hread, hfound, hkeyed, _, hlist, hfirst⟩

/-- Two items stored against the order of their keys: the first match is the last of the list, and
that of the second page is not on it. -/
theorem first_skips_list :
    let item : Schema := ⟨"Item", [.ofMarks "id" .int [.key]]⟩
    let m : Model Record := ⟨item, fun r => r, fun r _ => .ok r⟩
    let all : Search := ⟨.database, .ok (.all item)⟩
    let page : Search := all.limit 1 (some 2)
    let row (n : Int64) : Record := .ofList [("id", .int n)]
    let store := ((Memory.Cluster.start.create 0 ⟨"c", [item]⟩).2.add 0 item [row 2, row 1]).2
    let t : Traced (Mapper Cluster) := ⟨⟨store, ⟨.unnamed, true, true⟩, []⟩, []⟩
    (all.list backend m t).1.toOption = some [row 1, row 2] ∧
      (all.first backend m t).1.toOption = some (some (row 2)) ∧
      (all.one backend m t).1.toOption = some (row 2) ∧
      (page.list backend m t).1.toOption = some [row 2] ∧
      (page.first backend m t).1.toOption = some (some (row 1)) := by
  decide +kernel

end ModelMapper
