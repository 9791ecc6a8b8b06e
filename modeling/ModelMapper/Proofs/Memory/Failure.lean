import ModelMapper.Proofs.Document.Decoding
import ModelMapper.Proofs.Memory.Steps

/-! # Failed calls

A call that fails leaves the stores and the sessions as they were, unless it is a commit, which
ends its transaction, or an add whose records are stored and then cannot be read back.

* `Field.Reads`, `Schema.ReadsBack` — the records that can be read back, among them all typed
  ones (`Schema.readsBack_of_typed`), and the numbers that can be (`Schema.readsNumbers_of_int`).
* `Call.Atomic` — a call that fails without a trace.
* `Cluster.failure_changes_nothing` — every operation but a commit.
* `Cluster.failed_add_stores` — a record that is stored and not read back.
-/

namespace ModelMapper

/-! ## Reading back -/

/-- The field can be read from this document value. -/
def Field.Reads (f : Field) (value : Doc) : Prop := ∃ v, Value.ofDoc f.type value = .ok v

/-- Every field can be read from the values of the record that come into its column. -/
def Schema.ReadsBack (s : Schema) (r : Record) : Prop :=
  ∀ f ∈ s.fields, ∀ g ∈ s.fields, f.column = g.column → f.Reads (r.value g.name).toDoc

/-- Every field can be read from the numbers that are generated in its column. -/
def Schema.ReadsNumbers (s : Schema) : Prop :=
  ∀ f ∈ s.fields, ∀ g ∈ s.fields, f.column = g.column → g.isAuto = true →
    ∀ n : Int64, f.Reads (.int n.toInt)

/-- What the action stores can be read back. -/
def Action.ReadsBack : Action → Prop
  | .add s records => s.ReadsNumbers ∧ ∀ r ∈ records, s.ReadsBack r
  | _ => True

theorem Field.reads_number {f : Field} (h : f.type = .int) (n : Int64) :
    f.Reads (.int n.toInt) := by
  refine ⟨.int n, ?_⟩
  rw [h, Value.ofDoc, Doc.asInt64_toInt]

namespace Schema

variable {s : Schema} {r : Record} {d : Document}

/-- Where no two fields share a column, values of the declared types are read back. -/
theorem readsBack_of_typed (hr : r.Typed s) (hcolumns : (s.fields.map Field.column).Nodup) :
    s.ReadsBack r := by
  intro f hf g hg hcolumn
  obtain rfl := List.inj_on_of_nodup_map hcolumns hf hg hcolumn
  exact ⟨_, Value.ofDoc_toDoc (hr.fits f hf)⟩

/-- So are numbers, where they are generated for fields of integers. -/
theorem readsNumbers_of_int (hcolumns : (s.fields.map Field.column).Nodup)
    (hauto : ∀ f ∈ s.fields, f.isAuto = true → f.type = .int) : s.ReadsNumbers := by
  intro f hf g hg hcolumn hgauto n
  obtain rfl := List.inj_on_of_nodup_map hcolumns hf hg hcolumn
  exact Field.reads_number (hauto f hf hgauto) n

def Readable (s : Schema) (d : Document) : Prop := ∀ f ∈ s.fields, f.Reads (d.column f.column)

theorem decode_readable (h : s.Readable d) : ∃ r, s.decode d = .ok r := by
  refine ⟨_, foldlM_set _ Field.name
    (fun f => (Value.ofDoc f.type (d.column f.column)).toOption.getD .null) s.fields ?_ .empty⟩
  intro f hf
  obtain ⟨v, hv⟩ := h f hf
  rw [hv]
  rfl

/-- A column of an encoded record has the value of a field with this column. -/
theorem column_encode (h : s.encode r = .ok d) {f : Field} (hf : f ∈ s.fields) :
    ∃ g ∈ s.fields, f.column = g.column ∧ d.column f.column = (r.value g.name).toDoc := by
  rw [encode] at h
  split at h
  · cases h
  · cases h
    -- Of several fields with this column the last one gives the value.
    have hsome : ((s.fields.map fun g => (g.column, (r.value g.name).toDoc)).reverse.find?
        fun e => e.1 == f.column).isSome = true := by
      rw [List.find?_isSome]
      exact ⟨_, List.mem_reverse.2 (List.mem_map_of_mem hf), beq_self_eq_true _⟩
    obtain ⟨e, he⟩ := Option.isSome_iff_exists.1 hsome
    obtain ⟨g, hg, rfl⟩ := List.mem_map.1 (List.mem_reverse.1 (List.mem_of_find?_eq_some he))
    have hcolumn : g.column = f.column := by
      simpa using List.find?_some he
    refine ⟨g, hg, hcolumn.symm, ?_⟩
    rw [Document.column, Entries.ofList, Entries.get?_foldl_put, he]
    rfl

theorem readable_encode (hr : s.ReadsBack r) (h : s.encode r = .ok d) : s.Readable d := by
  intro f hf
  obtain ⟨g, hg, hcolumn, hvalue⟩ := column_encode h hf
  rw [hvalue]
  exact hr f hf g hg hcolumn

end Schema

namespace Documents

variable {s : Schema} {d d' : Document} {n m : Int64}

theorem readable_foldlM (hs : s.ReadsNumbers) {fields : List Field}
    (hfields : ∀ g ∈ fields, g ∈ s.fields) (hd : s.Readable d)
    (h : (fields.foldlM (completeField s) d).run n = (.ok d', m)) : s.Readable d' := by
  induction fields generalizing d n with
  | nil =>
    cases h
    exact hd
  | cons g rest ih =>
    obtain ⟨hg, hrest⟩ := List.forall_mem_cons.1 hfields
    obtain ⟨one, _, hone, hothers⟩ := run_bind_ok h
    refine ih hrest ?_ hothers
    rcases completeField_cases hone with ⟨rfl, -⟩ | ⟨hauto, k, rfl⟩
    · exact hd
    · -- Fields that share the column are read from the new number too.
      intro f hf
      rw [column_put]
      split
      · exact hs f hf g hg ‹_› hauto k
      · exact hd f hf

/-- What an insert stores can be read back. -/
theorem readable_insertAll (hs : s.ReadsNumbers) {documents after : Documents}
    {ds stored : List Document} (hds : ∀ d ∈ ds, s.Readable d)
    (h : (insertAll s documents ds).run n = (.ok (stored, after), m)) :
    ∀ d ∈ stored, s.Readable d := by
  induction ds generalizing documents stored n with
  | nil =>
    cases h
    exact nofun
  | cons d rest ih =>
    obtain ⟨hd, hrest⟩ := List.forall_mem_cons.1 hds
    obtain ⟨one, others, k, rfl, hcomplete, -, hothers⟩ := insertAll_cons h
    exact List.forall_mem_cons.2
      ⟨readable_foldlM hs (fun _ hg => hg) hd hcomplete, ih hrest hothers⟩

end Documents

/-! ## Calls -/

/-- A call that fails leaves the state as it was. -/
def Call.Atomic {σ α : Type} (c : Call σ α) : Prop :=
  ∀ t e t', c t = (.error e, t') → t'.state = t.state

theorem Call.ofResult_eq_error {σ α : Type} {r : Result α} {t t' : Traced σ} {e : Failure}
    (h : Call.ofResult r t = (.error e, t')) : (∃ err, r = .error err) ∧ t' = t := by
  cases r with
  | ok a => cases h
  | error err =>
    cases h
    exact ⟨⟨err, rfl⟩, rfl⟩

namespace Call.Atomic

variable {σ α β : Type}

theorem of_state {c : Call σ α} (h : ∀ t, (c t).2.state = t.state) : c.Atomic := by
  intro t e t' hrun
  have hstate := h t
  rw [hrun] at hstate
  exact hstate

theorem of_isOk {c : Call σ α} (h : ∀ t, (c t).1.isOk = true) : c.Atomic := by
  intro t e t' hrun
  have hok := h t
  rw [hrun] at hok
  cases hok

theorem step {f : σ → Result α × σ} (h : ∀ s e s', f s = (.error e, s') → s' = s) :
    (Call.step f).Atomic := by
  intro t e t' hrun
  rw [run_step] at hrun
  obtain ⟨⟨err, herr⟩, rfl⟩ := ofResult_eq_error hrun
  exact h t.state err _ (Prod.ext herr rfl)

/-- What follows a call may change the state if it never fails. -/
theorem bind {c : Call σ α} {f : α → Call σ β} (h : c.Atomic)
    (hrest : ∀ a t e t', f a t ≠ (.error e, t')) : (c >>= f).Atomic := by
  intro t e t' hrun
  rw [run_bind] at hrun
  rcases hc : c t with ⟨outcome, next⟩
  rw [hc] at hrun
  cases outcome with
  | error e' =>
    cases hrun
    exact h t _ _ hc
  | ok a => exact absurd hrun (hrest a next e t')

theorem emit {c : Call σ α} (h : c.Atomic) (event : Event) :
    (Call.emit event >>= fun _ => c).Atomic :=
  fun t e t' hrun => h ⟨t.state, event :: t.events⟩ e t' hrun

theorem answering {c : Call σ α} (h : c.Atomic) (f : α → β) :
    (c >>= fun a => pure (f a)).Atomic := h.bind fun _ _ _ _ => nofun

theorem reporting {c : Call σ Unit} (h : c.Atomic) {report : Call σ Unit} (hquiet : Quiet report) :
    (c >>= fun _ => report).Atomic := by
  refine h.bind fun _ t e t' hrun => ?_
  obtain ⟨events, hreport⟩ := hquiet t
  rw [hreport] at hrun
  cases hrun

end Call.Atomic

namespace Memory.Cluster

/-! ## Operations -/

variable {c c' : Cluster} {id : Nat} {e : Error}

theorem write_failed {α : Type} {f : Store → Result (α × Store)} {change : α → Change}
    (h : c.write id f change = (.error e, c')) : c' = c := by
  unfold write at h
  split at h
  · split at h
    · cases h
    · cases h
      rfl
  · split at h
    · cases h
    · cases h
      rfl

theorem write_done {α : Type} {f : Store → Result (α × Store)} {change : α → Change} {x : α}
    (h : c.write id f change = (.ok x, c')) : ∃ after, f (c.view id) = .ok (x, after) := by
  unfold write at h
  unfold view
  cases hs : c.session id with
  | none =>
    rw [hs] at h
    dsimp only at h ⊢
    split at h
    · rename_i written store hf
      cases h
      exact ⟨store, hf⟩
    · cases h
  | some t =>
    rw [hs] at h
    dsimp only at h ⊢
    split at h
    · rename_i written store hf
      cases h
      exact ⟨store, hf⟩
    · cases h

theorem add_failed {model : Schema} {records : List Record} (hmodel : model.ReadsNumbers)
    (hrecords : ∀ r ∈ records, model.ReadsBack r)
    (h : c.add id model records = (.error e, c')) : c' = c := by
  unfold add at h
  cases hencode : records.mapM model.encode with
  | error err =>
    rw [hencode] at h
    cases h
    rfl
  | ok documents =>
    rw [hencode] at h
    dsimp only at h
    split at h
    · rename_i err next hwrite
      cases h
      exact write_failed hwrite
    · rename_i stored last next hwrite
      -- The write went through, so the documents that it stored are read back.
      obtain ⟨after, hinsert⟩ := write_done hwrite
      obtain ⟨existing, all, -, hrun, -⟩ := Store.insert_eq_ok.1 hinsert
      have hdocuments : ∀ d ∈ documents, model.Readable d := by
        intro d hd
        obtain ⟨r, hr, hd⟩ := Result.exists_of_mem_mapM hencode hd
        exact Schema.readable_encode (hrecords r hr) hd
      have hstored := Documents.readable_insertAll hmodel hdocuments hrun
      obtain ⟨given, hgiven⟩ := Result.mapM_of_forall fun d hd =>
        Schema.decode_readable (hstored d hd)
      rw [hgiven] at h
      cases h

theorem update_failed {q : Query} {values : Record}
    (h : c.update id q values = (.error e, c')) : c' = c := by
  unfold update at h
  dsimp only at h
  split at h
  · cases h
    rfl
  · exact write_failed h

theorem delete_failed {q : Query} (h : c.delete id q = (.error e, c')) : c' = c := by
  unfold delete at h
  split at h
  · cases h
    rfl
  · exact write_failed h

theorem create_failed {models : Catalog} (h : c.create id models = (.error e, c')) : c' = c :=
  write_failed h

theorem drop_failed {models : Catalog} (h : c.drop id models = (.error e, c')) : c' = c :=
  write_failed h

theorem rollback_failed (h : c.rollback id = (.error e, c')) : c' = c := by
  unfold rollback at h
  split at h
  · cases h
    rfl
  · split at h
    · cases h
    · cases h

/-! ## Calls on a cluster -/

theorem rollback_atomic (id : Nat) : (backend.rollback id).Atomic := by
  obtain ⟨report, hquiet, hrun⟩ := rollback_reports id
  show (tracedRollback id).Atomic
  rw [hrun]
  exact (Call.Atomic.step fun _ _ _ => rollback_failed).reporting hquiet

/-- An operation that fails changes nothing in the cluster, neither a store nor a list of writes
    nor the numbers given out.  The exceptions are a commit, and an add of records that cannot be
    read back. -/
theorem failure_changes_nothing (id : Nat) (a : Action) (hcommit : a ≠ .commit)
    (hreads : a.ReadsBack) {t t' : Traced Cluster} {e : Failure}
    (h : a.perform backend id t = (.error e, t')) : t'.state = t.state := by
  suffices hatomic : (a.perform backend id).Atomic from hatomic t e t' h
  cases a with
  | add model records =>
    exact .answering (.step fun _ _ _ => add_failed hreads.1 hreads.2) _
  | fetch q => exact .answering (.of_state (fetch_state id q)) _
  | count q => exact .answering (.of_state fun t => by simp only [backend, Call.state_read]) _
  | update q values => exact .answering (.step fun _ _ _ => update_failed) _
  | delete q => exact .answering (.step fun _ _ _ => delete_failed) _
  | begin => exact .of_isOk fun _ => rfl
  | commit => exact absurd rfl hcommit
  | rollback => exact .answering (rollback_atomic id) _
  | create models => exact .answering (.emit (.step fun _ _ _ => create_failed) _) _
  | drop models => exact .answering (.step fun _ _ _ => drop_failed) _
  | openSession | ping | name | close => exact .of_isOk fun _ => rfl

/-- Of two items the second has a key that is taken, so the first is not stored either. -/
theorem duplicate_key_changes_nothing :
    let item : Schema := ⟨"Item", [.ofMarks "id" .int [.key]]⟩
    let row (id : Int64) : Record := .ofList [("id", .int id)]
    let t := traced [⟨0, .ok (.create ⟨"c", [item]⟩)⟩, ⟨0, .ok (.add item [row 1])⟩]
    let a : Action := .add item [row 2, row 1]
    a ≠ .commit ∧ a.ReadsBack ∧ ∃ e t', a.perform backend 0 t = (.error e, t') ∧
      t'.state = t.state := by
  intro item row t a
  have hreads : a.ReadsBack := by
    constructor
    · intro f hf g hg _ hauto
      cases List.mem_singleton.1 hg
      cases hauto
    · intro r hr f hf g hg _
      cases List.mem_singleton.1 hf
      cases List.mem_singleton.1 hg
      simp only [List.mem_cons, List.not_mem_nil, or_false] at hr
      rcases hr with rfl | rfl
      · exact ⟨.int 2, rfl⟩
      · exact ⟨.int 1, rfl⟩
  have hfails : (a.perform backend 0 t).1.isOk = false := by
    decide +kernel
  rcases hrun : a.perform backend 0 t with ⟨outcome, t'⟩
  rw [hrun] at hfails
  cases outcome with
  | error e =>
    have hsame := failure_changes_nothing 0 a nofun hreads hrun
    exact ⟨nofun, hreads, e, t', rfl, hsame⟩
  | ok y => cases hfails

/-- A timestamp after the year 9999 is stored as a text that is not read back: the add fails, and
    the document stays. -/
theorem failed_add_stores :
    let item : Schema := ⟨"Item", [.plain "at" .timestamp]⟩
    let late : Record := .ofList [("at", .timestamp ⟨253402300800, 0⟩)]
    let t := traced [⟨0, .ok (.create ⟨"c", [item]⟩)⟩]
    let run := (Action.add item [late]).perform backend 0 t
    run.1.isOk = false ∧ (t.state.count 0 ⟨item, none, []⟩).toOption = some 0 ∧
      (run.2.state.count 0 ⟨item, none, []⟩).toOption = some 1 := by
  decide +kernel

end Memory.Cluster

end ModelMapper
