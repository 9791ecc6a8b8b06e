import ModelMapper.Proofs.Memory.Constraints
import ModelMapper.Proofs.Memory.Keeping
import ModelMapper.Proofs.Memory.Numbering

/-! # Keys that are free

The number that an add takes for a key is no key of the collection as long as the counter of the
table has seen all its keys.  Adds show it theirs, given or generated, also those of a transaction
that is still open, and commits bring no others.  An update that assigns the key column does not.

* `Doc.UpTo` — a document value that the counter has seen, if it is a number.
* `Documents.insertAll_upTo`, `Documents.kept_upTo` — the documents of an add, and those that are
  kept when a change is applied.
* `Cluster.Counted`, `Cluster.counted_request` — all keys of a cluster, and what a request does.
* `Schema.SelfKeyed`, `Record.AwaitsKey` — models with one generated key, and records without it.
* `Cluster.fresh_key` — the next record of a run is stored under a key of its own.
* `Cluster.update_blocks_adds` — a key that was assigned stops all adds.
-/

namespace ModelMapper

/-- A model with one key, a whole number that is generated where it is missing, and with no two
    fields in one column. -/
structure Schema.SelfKeyed (s : Schema) (key : Field) : Prop where
  keys : s.keyFields = [key]
  auto : key.isAuto = true
  int : key.type = .int
  columns : (s.fields.map Field.column).Nodup

theorem Schema.SelfKeyed.mem {s : Schema} {key : Field} (h : s.SelfKeyed key) : key ∈ s.fields :=
  (List.mem_filter.1 (h.keys ▸ List.mem_singleton_self key : key ∈ s.keyFields)).1

/-! ## Values the counter has seen -/

/-- A whole number, or no number at all. -/
def Doc.Integral (d : Doc) : Prop := d.isNumber = true → ∃ k : Int64, d.asInt64? = some k

/-- A whole number up to `n`, or no number at all. -/
def Doc.UpTo (n : Int64) (d : Doc) : Prop :=
  d.isNumber = true → ∃ k : Int64, d.asInt64? = some k ∧ k.toInt ≤ n.toInt

namespace Doc.UpTo

variable {n m : Int64} {d : Doc}

theorem mono (h : d.UpTo n) (hle : n.toInt ≤ m.toInt) : d.UpTo m := fun hnumber =>
  let ⟨k, hk, hkn⟩ := h hnumber
  ⟨k, hk, Int.le_trans hkn hle⟩

/-- A larger number is another one. -/
theorem not_equals (h : d.UpTo n) (hlt : n.toInt < m.toInt) :
    d.equals (.int m.toInt) = false := by
  have hnumber : (Doc.int m.toInt).isNumber = true := rfl
  rw [equals, hnumber, Bool.and_true]
  split
  · next hd =>
    obtain ⟨k, hk, hkn⟩ := h hd
    have hne : Ord.compare k.toInt m.toInt ≠ .eq := by
      rw [ne_eq, Int.compare_eq_eq]
      omega
    rw [compareNumbers?, hk, asInt64_toInt]
    simpa using hne
  · next hd =>
    cases d with
    | int k => exact absurd rfl hd
    | _ => rfl

end Doc.UpTo

namespace Memory

theorem mem_le_foldl_max {n k : Int} {numbers : List Int} (h : k ∈ numbers) :
    k ≤ numbers.foldl max n := by
  induction numbers generalizing n with
  | nil => cases h
  | cons i rest ih =>
    rcases List.mem_cons.1 h with rfl | h
    · exact Int.le_trans (Int.le_max_right n k) (le_foldl_max _ rest)
    · exact ih h

theorem Counts.le {n m : Int} {numbers : List Int} {keys : List Doc}
    (h : Counts n m numbers keys) : n ≤ m := h.counter ▸ le_foldl_max n numbers

theorem Counts.mem_le {n m k : Int} {numbers : List Int} {keys : List Doc}
    (h : Counts n m numbers keys) (hk : k ∈ numbers) : k ≤ m := h.counter ▸ mem_le_foldl_max hk

end Memory

namespace Documents

open Memory

variable {s : Schema} {f : Field} {d d' : Document} {documents after : Documents} {n m : Int64}

/-- All numbers in a column are seen. -/
def UpTo (column : String) (n : Int64) (documents : Documents) : Prop :=
  ∀ d ∈ documents, (d.column column).UpTo n

/-- A column that numbers itself is seen when the document is completed. -/
theorem complete_upTo (hf : f ∈ s.fields) (hauto : f.isAuto = true)
    (hgiven : (d.column f.column).Integral) (h : (complete s d).run n = (.ok d', m))
    (hcounts : Counts n.toInt m.toInt (numbersOf s.fields d')
      ((openColumns s.fields d).map d'.column)) :
    (d'.column f.column).UpTo m := by
  cases hmissing : Document.isNull (d.column f.column) with
  | false =>
    rw [column_foldlM hmissing h]
    intro hnumber
    obtain ⟨k, hk⟩ := hgiven hnumber
    refine ⟨k, hk, hcounts.mem_le (List.mem_filterMap.2 ⟨f, hf, ?_⟩)⟩
    rw [if_pos hauto, column_foldlM hmissing h, hk]
    rfl
  | true =>
    obtain ⟨generated, hkeys, -, hbetween⟩ := hcounts.grows
    have hopen : f.column ∈ openColumns s.fields d := by
      refine List.mem_eraseDups.2 (List.mem_map_of_mem (List.mem_filter.2 ⟨hf, ?_⟩))
      rw [hauto, hmissing]
      rfl
    obtain ⟨k, hk, hcolumn⟩ := List.mem_map.1 (hkeys ▸ List.mem_map_of_mem hopen)
    obtain ⟨hnk, hkm⟩ := hbetween k hk
    rw [← hcolumn]
    have hlow := n.le_toInt
    have hhigh := m.toInt_lt
    have hofInt := Int64.toInt_ofInt_of_le (n := k) (by omega) (by omega)
    refine fun _ => ⟨.ofInt k, ?_, by rw [hofInt]; exact hkm⟩
    rw [← hofInt, Doc.asInt64_toInt, hofInt]

/-- So are those of all documents that an add stores. -/
theorem insertAll_upTo (hf : f ∈ s.fields) (hauto : f.isAuto = true) {ds stored : List Document}
    (hgiven : ∀ d ∈ ds, (d.column f.column).Integral)
    (h : (insertAll s documents ds).run n = (.ok (stored, after), m)) (hn : n.toInt < maxInt64)
    (hbelow : ∀ a ∈ List.zipWith (Addition.mk s) ds stored, ∀ k ∈ a.numbers, k < maxInt64) :
    UpTo f.column m stored := by
  induction ds generalizing documents stored n with
  | nil =>
    cases h
    exact nofun
  | cons d rest ih =>
    obtain ⟨one, others, k, rfl, hcomplete, -, hothers⟩ := insertAll_cons h
    obtain ⟨hbelow, hlater⟩ := List.forall_mem_cons.1 hbelow
    obtain ⟨hd, hrest⟩ := List.forall_mem_cons.1 hgiven
    have hfirst := foldlM_counts hcomplete hn hbelow
    have hlt := hfirst.lt hn hbelow
    have hle := (insertAll_counts hothers hlt hlater).le
    exact List.forall_mem_cons.2 ⟨(complete_upTo hf hauto hd hcomplete hfirst).mono hle,
      ih hrest hothers hlt hlater⟩

/-- Documents that have their numbers are stored as they are. -/
theorem insertAll_of_settled {ds stored : List Document} (hds : ∀ d ∈ ds, Settled s d)
    (h : (insertAll s documents ds).run n = (.ok (stored, after), m)) : stored = ds := by
  induction ds generalizing documents stored n with
  | nil =>
    cases h
    rfl
  | cons d rest ih =>
    obtain ⟨hd, hrest⟩ := List.forall_mem_cons.1 hds
    obtain ⟨one, others, k, rfl, hcomplete, -, hothers⟩ := insertAll_cons h
    obtain ⟨l, hsame⟩ := complete_settled hd n
    cases hcomplete.symm.trans hsame
    rw [ih hrest hothers]

/-- An updated document was there before, or one was there that the update assigned to. -/
theorem mem_update {filter : Doc} {assigned : List (String × Doc)} {hits : Nat}
    (h : update filter assigned documents = .ok (hits, after)) (hd : d ∈ after) :
    ∃ old ∈ documents, d = old ∨ d = assign assigned old := by
  obtain ⟨found, -, hafter⟩ := Result.map_eq_ok.1 h
  cases hafter
  obtain ⟨p, hp, rfl⟩ := List.mem_map.1 hd
  refine ⟨p.1, (List.of_mem_zip hp).1, ?_⟩
  dsimp only
  split
  · exact .inr rfl
  · exact .inl rfl

end Documents

/-! ## Clusters -/

/-- Records for the table are of this model, with no float for a key, and an update of it does not
    assign the key column. -/
def Action.KeepsKeys (s : Schema) (key : Field) : Action → Prop
  | .add model records => model.table = s.table → model = s ∧
      ∀ r ∈ records, ∀ x, r.value key.name ≠ .float x
  | .update q values => q.model.table = s.table → ∀ assigned,
      Memory.Cluster.changes q values = .ok assigned → ∀ e ∈ assigned, e.1 ≠ key.column
  | _ => True

namespace Memory

variable {s : Schema} {key : Field} {n m : Int64}

/-- What is inserted has its numbers, and the counter has seen them; an update leaves the keys
    alone. -/
def Change.Counted (s : Schema) (key : Field) (n : Int64) : Change → Prop
  | .insert model documents => model.table = s.table → model = s ∧
      ∀ d ∈ documents, Documents.Settled s d ∧ (d.column key.column).UpTo n
  | .update table _ assigned => table = s.table → ∀ e ∈ assigned, e.1 ≠ key.column
  | _ => True

theorem Change.Counted.mono {change : Change} (h : change.Counted s key n)
    (hle : n.toInt ≤ m.toInt) : change.Counted s key m := by
  cases change with
  | insert model documents =>
    intro htable
    obtain ⟨hmodel, hdocuments⟩ := h htable
    exact ⟨hmodel, fun d hd => ⟨(hdocuments d hd).1, (hdocuments d hd).2.mono hle⟩⟩
  | update => exact h
  | delete | create | drop => trivial

/-- Applied again, such changes bring no keys but those the counter has seen. -/
theorem Documents.kept_upTo (s : Schema) (key : Field) (n : Int64) :
    Documents.Kept s.table (Change.Counted s key n) (Documents.UpTo key.column n) where
  nil := nofun
  insert htable hcounted hdocuments hrun := by
    obtain ⟨rfl, hds⟩ := hcounted htable
    obtain ⟨rfl, -⟩ := Documents.insertAll_appends hrun
    rw [Documents.insertAll_of_settled (fun d hd => (hds d hd).1) hrun]
    exact List.forall_mem_append.2 ⟨hdocuments, fun d hd => (hds d hd).2⟩
  update hcounted hdocuments hupdate := by
    intro d hd
    obtain ⟨old, hold, hsame | rfl⟩ := Documents.mem_update hupdate hd
    · exact hsame ▸ hdocuments old hold
    · rw [Documents.column_assign (fun e he => (hcounted rfl e he).symm)]
      exact hdocuments old hold
  delete hdocuments hdelete := fun d hd =>
    hdocuments d ((Documents.delete_sublist hdelete).subset hd)

namespace Cluster

/-- The counter of the table has seen all its keys, in whatever store they are. -/
def Counted (s : Schema) (key : Field) (c : Cluster) : Prop :=
  c.Throughout (Store.OnTable s.table (Documents.UpTo key.column (c.sequence s.table)))
    (Change.Counted s key (c.sequence s.table))

theorem counted_start (s : Schema) (key : Field) : start.Counted s key :=
  .start (Store.OnTable.empty s.table _)

theorem Notes.counted {a : Action} {change : Change} (h : Notes a change)
    (ha : a.KeepsKeys s key) (hother : ∀ model records, a ≠ .add model records) :
    change.Counted s key n := by
  cases h with
  | add model records => exact absurd rfl (hother model records)
  | update _ hassigned => exact fun htable => ha htable _ hassigned
  | delete | create | drop => trivial

/-- The document of a record has no float in its key column. -/
theorem integral_encode (hs : s.SelfKeyed key) {r : Record}
    (hr : ∀ x, r.value key.name ≠ .float x) {d : Document} (hd : s.encode r = .ok d) :
    (d.column key.column).Integral := by
  rw [Schema.stores_encode hs.columns hd key hs.mem]
  cases hv : r.value key.name with
  | int i => exact fun _ => ⟨i, Doc.asInt64_toInt i⟩
  | float x => exact absurd hv (hr x)
  | null | bool | text | bytes | timestamp => exact fun h => by cases h

/-- An add to the table shows the counter the keys it stores; any other leaves table and counter
    alone. -/
theorem counted_add {c : Cluster} {r : Request} {model : Schema} {records : List Record}
    (hs : s.SelfKeyed key) (haction : r.action = .ok (.add model records))
    (hkeeps : (Action.add model records).KeepsKeys s key)
    (hn : (c.sequence s.table).toInt < maxInt64)
    (hbelow : ∀ a ∈ added s.table r c (c.add r.session model records).2,
      ∀ k ∈ a.numbers, k < maxInt64)
    (hc : c.Counted s key) : (c.add r.session model records).2.Counted s key := by
  rcases add_written c r.session model records with
    hsame | ⟨given, stored, last, after, hencode, hwrite, hafter⟩
  · rwa [hsame]
  obtain ⟨hinsert, hsequences, -⟩ := write_eq_ok hwrite
  obtain ⟨old, new, hold, hrun, hview⟩ := Store.insert_eq_ok.1 hinsert
  obtain ⟨rfl, -⟩ := Documents.insertAll_appends hrun
  have hsequence : (c.add r.session model records).2.sequence s.table =
      if s.table = model.table then last else c.sequence s.table := by
    rw [hafter, sequence, Entries.get?_put, hsequences]
    split <;> rfl
  have hwritten : ∀ {P : Store → Prop} {required : Change → Prop}, after.Throughout P required →
      (c.add r.session model records).2.Throughout P required := by
    intro P required h
    rw [hafter]
    exact ⟨h.shared, h.sessions⟩
  rw [Counted, hsequence]
  by_cases htable : model.table = s.table
  · rw [if_pos htable.symm]
    obtain ⟨rfl, hfloats⟩ := hkeeps htable
    have hgiven : ∀ d ∈ given, (d.column key.column).Integral := by
      intro d hd
      obtain ⟨record, hrecord, hd⟩ := Result.exists_of_mem_mapM hencode hd
      exact integral_encode hs (hfloats record hrecord) hd
    have hnew : ((c.add r.session model records).2.view r.session).collection model.table =
        .ok (old ++ stored) := by
      rw [hafter]
      show (after.view r.session).collection model.table = _
      rw [hview, Store.collection_put, if_pos rfl]
    rw [added_stored haction hencode hold hnew hrun] at hbelow
    have hstored := Documents.insertAll_upTo hs.mem hs.auto hgiven hrun hn hbelow
    have hle := (Documents.insertAll_counts hrun hn hbelow).le
    -- All that was there the counter had seen before, and it has grown since.
    have hbefore : c.Throughout (Store.OnTable model.table (Documents.UpTo key.column last))
        (Change.Counted model key last) :=
      hc.mono (fun store hstore documents hdocuments d hd =>
        (hstore documents hdocuments d hd).mono hle) fun change hchange => hchange.mono hle
    refine hwritten (write_throughout hwrite hbefore (fun store hf => ?_) fun _ =>
      ⟨rfl, fun d hd => ⟨Documents.insertAll_settled hrun d hd, hstored d hd⟩⟩)
    obtain ⟨existing, all, hexisting, hagain, rfl⟩ := Store.insert_eq_ok.1 hf
    cases hexisting.symm.trans hold
    cases hagain.symm.trans hrun
    have hview := hbefore.view r.session
    exact hview.put fun _ => List.forall_mem_append.2 ⟨hview _ hold, hstored⟩
  · rw [if_neg (Ne.symm htable)]
    refine hwritten (write_throughout hwrite hc (fun store hf => ?_) fun h => absurd h htable)
    obtain ⟨existing, all, -, -, rfl⟩ := Store.insert_eq_ok.1 hf
    exact (hc.view r.session).put fun h => absurd h.symm htable

/-- So does every request that keeps the keys. -/
theorem counted_request (hs : s.SelfKeyed key) {r : Request}
    (hr : ∀ a, r.action = .ok a → a.KeepsKeys s key) (t : Traced Cluster)
    (hn : (t.state.sequence s.table).toInt < maxInt64)
    (hbelow : ∀ a ∈ added s.table r t.state (r.carryOut backend t).2.state,
      ∀ k ∈ a.numbers, k < maxInt64)
    (hc : t.state.Counted s key) : (r.carryOut backend t).2.state.Counted s key := by
  cases haction : r.action with
  | error e => rwa [carryOut_refused haction]
  | ok a =>
    have hkeeps := hr a haction
    by_cases ha : ∃ model records, a = .add model records
    · obtain ⟨model, records, rfl⟩ := ha
      rw [carryOut_eq haction, perform_state] at hbelow ⊢
      exact counted_add hs haction hkeeps hn hbelow hc
    · have hother : ∀ model records, a ≠ .add model records :=
        fun model records h => ha ⟨model, records, h⟩
      have hsequence : (r.carryOut backend t).2.state.sequence s.table =
          t.state.sequence s.table := by
        rw [carryOut_eq haction, perform_state]
        exact sequence_congr (effect_sequences hother r.session t.state)
      rw [Counted, hsequence]
      exact (carryOut_step haction t).throughout
        (Change.onTable_apply (Documents.kept_upTo s key _))
        (fun change hnotes => hnotes.counted hkeeps hother) hc

/-- So do all requests of a run. -/
theorem counted_from (hs : s.SelfKeyed key) (requests : List Request)
    (hrequests : ∀ r ∈ requests, ∀ a, r.action = .ok a → a.KeepsKeys s key) (t : Traced Cluster)
    (hn : (t.state.sequence s.table).toInt < maxInt64)
    (hbelow : ∀ a ∈ additionsFrom s.table requests t, ∀ k ∈ a.numbers, k < maxInt64)
    (hc : t.state.Counted s key) :
    (Request.runAll backend requests t).2.state.Counted s key ∧
      ((Request.runAll backend requests t).2.state.sequence s.table).toInt < maxInt64 := by
  induction requests generalizing t with
  | nil => exact ⟨hc, hn⟩
  | cons r rest ih =>
    obtain ⟨hbelow, hlater⟩ := List.forall_mem_append.1 hbelow
    obtain ⟨hr, hrest⟩ := List.forall_mem_cons.1 hrequests
    rw [Request.runAll_cons]
    exact ih hrest _ (sequence_request_lt s.table r t hn hbelow) hlater
      (counted_request hs hr t hn hbelow hc)

end Cluster

end Memory

/-! ## Records without a key -/

/-- A record without its key, but with all other values, which can be read back from documents.
    The next key has to be a number, so the numbers in its other generated columns are smaller than
    the largest. -/
structure Record.AwaitsKey (s : Schema) (key : Field) (r : Record) : Prop where
  known : ∀ e ∈ r.toList, (s.field? e.1).isSome = true
  missing : r.value key.name = .null
  given : ∀ f ∈ s.fields, f ≠ key → r.value f.name ≠ .null
  survives : ∀ f ∈ s.fields, f ≠ key →
    Value.ofDoc f.type (r.value f.name).toDoc = .ok (r.value f.name)
  numbers : ∀ f ∈ s.fields, f ≠ key → f.isAuto = true → ∀ i, r.value f.name = .int i →
    i.toInt < maxInt64

theorem Value.asInt64?_toDoc {v : Value} {i : Int64} (h : v.toDoc.asInt64? = some i) :
    v = .int i := by
  cases v with
  | int k =>
    rw [toDoc, Doc.asInt64_toInt] at h
    exact congrArg Value.int (Option.some.inj h)
  | float x =>
    rw [toDoc] at h
    split at h <;> cases h
  | null | bool | text | bytes | timestamp => cases h

theorem Value.isNull_toDoc_of_survives {ty : FieldType} {v : Value} (hv : v ≠ .null)
    (h : Value.ofDoc ty v.toDoc = .ok v) : Document.isNull v.toDoc = false := by
  cases hd : v.toDoc with
  | null =>
    rw [hd] at h
    cases ty <;> exact absurd (Except.ok.inj h).symm hv
  | _ => rfl

namespace Documents

variable {s : Schema} {key f : Field} {d : Document} {documents : Documents} {n : Int64}

/-- A column that is not null stays, and only a number in it can raise the counter. -/
theorem completeField_whole (s : Schema) (hgiven : Document.isNull (d.column f.column) = false)
    (n : Int64) : ∃ m, (completeField s d f).run n = (.ok d, m) ∧ n.toInt ≤ m.toInt ∧
      ∀ bound, n.toInt < bound → (f.isAuto = true → ∀ i, (d.column f.column).asInt64? = some i →
        i.toInt < bound) → m.toInt < bound := by
  cases hauto : f.isAuto with
  | false =>
    exact ⟨n, run_completeField_plain hauto hgiven n, Int.le_refl _, fun _ hn _ => hn⟩
  | true =>
    refine ⟨_, run_completeField_given hauto hgiven n, ?_⟩
    cases hnumber : (d.column f.column).asInt64? with
    | none => exact ⟨Int.le_refl _, fun _ hn _ => hn⟩
    | some i =>
      rw [Option.elim_some, toInt_max]
      exact ⟨Int.le_max_left _ _, fun bound hn hi => Int.max_lt.2 ⟨hn, hi rfl i rfl⟩⟩

theorem foldlM_whole (s : Schema) {fields : List Field}
    (hgiven : ∀ f ∈ fields, Document.isNull (d.column f.column) = false) (n : Int64) :
    ∃ m, (fields.foldlM (completeField s) d).run n = (.ok d, m) ∧ n.toInt ≤ m.toInt ∧
      ∀ bound, n.toInt < bound → (∀ f ∈ fields, f.isAuto = true → ∀ i,
        (d.column f.column).asInt64? = some i → i.toInt < bound) → m.toInt < bound := by
  induction fields generalizing n with
  | nil => exact ⟨n, rfl, Int.le_refl _, fun _ hn _ => hn⟩
  | cons f rest ih =>
    obtain ⟨hf, hrest⟩ := List.forall_mem_cons.1 hgiven
    obtain ⟨k, hone, hnk, hbound⟩ := completeField_whole s hf n
    obtain ⟨m, hothers, hkm, hbound'⟩ := ih hrest k
    refine ⟨m, run_bind_of_ok hone hothers, Int.le_trans hnk hkm, fun bound hn hall => ?_⟩
    obtain ⟨hfirst, hlater⟩ := List.forall_mem_cons.1 hall
    exact hbound' bound (hbound bound hn hfirst) hlater

/-- A document that lacks its key gets a number that is larger than those the counter has seen. -/
theorem complete_missing (hs : s.SelfKeyed key)
    (hmissing : Document.isNull (d.column key.column) = true)
    (hgiven : ∀ f ∈ s.fields, f ≠ key → Document.isNull (d.column f.column) = false)
    (hnumbers : ∀ f ∈ s.fields, f ≠ key → f.isAuto = true → ∀ i,
      (d.column f.column).asInt64? = some i → i.toInt < maxInt64)
    (hn : n.toInt < maxInt64) :
    ∃ k m : Int64, (complete s d).run n = (.ok (Entries.put key.column (.int k.toInt) d), m) ∧
      n.toInt < k.toInt ∧ k.toInt ≤ m.toInt := by
  obtain ⟨before, rest, hfields⟩ := List.append_of_mem hs.mem
  have hcolumns := hs.columns
  rw [hfields, List.map_append, List.map_cons] at hcolumns
  obtain ⟨-, hkey, hapart⟩ := List.nodup_append.1 hcolumns
  have hbefore : ∀ f ∈ before, f ∈ s.fields ∧ f ≠ key := fun f hf =>
    ⟨hfields ▸ List.mem_append_left _ hf, fun hsame =>
      hapart f.column (List.mem_map_of_mem hf) key.column List.mem_cons_self (hsame ▸ rfl)⟩
  have hrest : ∀ f ∈ rest, f ∈ s.fields ∧ f.column ≠ key.column := fun f hf =>
    ⟨hfields ▸ List.mem_append_right _ (List.mem_cons_of_mem _ hf), fun hsame =>
      (List.nodup_cons.1 hkey).1 (hsame ▸ List.mem_map_of_mem hf)⟩
  -- The fields before the key raise the counter to `j`, which has a next number.
  obtain ⟨j, hfirst, hnj, hbound⟩ :=
    foldlM_whole s (fun f hf => hgiven f (hbefore f hf).1 (hbefore f hf).2) n
  have hj := hbound maxInt64 hn fun f hf => hnumbers f (hbefore f hf).1 (hbefore f hf).2
  have hnext := toInt_add_one hj
  have hkept : ∀ f ∈ rest, Document.isNull
      (Document.column (Entries.put key.column (.int (j + 1).toInt) d) f.column) = false := by
    intro f hf
    obtain ⟨hmem, hne⟩ := hrest f hf
    rw [column_put, if_neg hne]
    exact hgiven f hmem fun hsame => hne (hsame ▸ rfl)
  obtain ⟨m, hlast, hkm, -⟩ := foldlM_whole s hkept (j + 1)
  refine ⟨j + 1, m, ?_, by omega, hkm⟩
  rw [complete, hfields, List.foldlM_append]
  exact run_bind_of_ok hfirst (run_bind_of_ok (run_completeField_missing hs.auto hmissing j) hlast)

/-- That number is the key of no document there is. -/
theorem hasKey_missing (hs : s.SelfKeyed key) (hdocuments : UpTo key.column n documents)
    {k : Int64} (hk : n.toInt < k.toInt) (d : Document) :
    hasKey s documents (Entries.put key.column (.int k.toInt) d) = false := by
  have hput : Document.column (Entries.put key.column (.int k.toInt) d) key.column =
      .int k.toInt := (column_put ..).trans (if_pos rfl)
  rw [hasKey, Bool.and_eq_false_iff]
  refine .inr (List.any_eq_false.2 fun existing hexisting => ?_)
  rw [sameKey, hs.keys, List.all_cons, hput, (hdocuments existing hexisting).not_equals hk]
  exact Bool.false_ne_true

end Documents

/-- With its key in the document the record is read back. -/
theorem Record.AwaitsKey.decode {s : Schema} {key : Field} {r : Record} (hr : r.AwaitsKey s key)
    (hs : s.SelfKeyed key) {d : Document} (hd : s.Stores r d) (k : Int64) :
    s.decode (Entries.put key.column (.int k.toInt) d) =
      .ok (s.completed (r.set key.name (.int k))) := by
  refine Schema.foldlM_set _ Field.name (fun f => (r.set key.name (.int k)).value f.name) s.fields
    (fun f hf => ?_) .empty
  rw [Documents.column_put, Record.value, Record.get?_set]
  by_cases hsame : f = key
  · rw [hsame, if_pos rfl, if_pos rfl, hs.int]
    exact Value.ofDoc_toDoc (.int k)
  · have hcolumn : f.column ≠ key.column := fun h =>
      hsame (List.inj_on_of_nodup_map hs.columns hf hs.mem h)
    have hname : f.name ≠ key.name := fun h => hr.given f hf hsame (h ▸ hr.missing)
    rw [if_neg hcolumn, if_neg hname, hd f hf]
    exact hr.survives f hf hsame

/-! ## The next key -/

namespace Memory.Cluster

variable {s : Schema} {key : Field} {c : Cluster} {id : Nat} {documents : Documents} {r : Record}

/-- Where the counter has seen all keys, a record that lacks its own is stored under the next. -/
theorem add_missing (hs : s.SelfKeyed key) (hc : c.Counted s key)
    (hn : (c.sequence s.table).toInt < maxInt64)
    (hcollection : (c.view id).collection s.table = .ok documents) (hr : r.AwaitsKey s key) :
    ∃ (k : Int64) (c' : Cluster),
      c.add id s [r] = (.ok [s.completed (r.set key.name (.int k))], c') ∧
      (c.sequence s.table).toInt < k.toInt ∧ k.toInt ≤ (c'.sequence s.table).toInt := by
  obtain ⟨d, hd⟩ : ∃ d, s.encode r = .ok d := ⟨_, Schema.encode_eq_ok hr.known⟩
  have hstores := Schema.stores_encode hs.columns hd
  have hmissing : Document.isNull (d.column key.column) = true := by
    rw [hstores key hs.mem, hr.missing]
    rfl
  have hgiven : ∀ f ∈ s.fields, f ≠ key → Document.isNull (d.column f.column) = false := by
    intro f hf hne
    rw [hstores f hf]
    exact Value.isNull_toDoc_of_survives (hr.given f hf hne) (hr.survives f hf hne)
  have hnumbers : ∀ f ∈ s.fields, f ≠ key → f.isAuto = true → ∀ i,
      (d.column f.column).asInt64? = some i → i.toInt < maxInt64 := by
    intro f hf hne hauto i hi
    rw [hstores f hf] at hi
    exact hr.numbers f hf hne hauto i (Value.asInt64?_toDoc hi)
  obtain ⟨k, m, hcomplete, hnk, hkm⟩ :=
    Documents.complete_missing hs hmissing hgiven hnumbers hn
  have hkey := Documents.hasKey_missing hs (hc.view id documents hcollection) hnk d
  have hone := Documents.insert_of_complete hcomplete hkey
  have hall : (Documents.insertAll s documents [d]).run (c.sequence s.table) =
      (.ok ([Entries.put key.column (.int k.toInt) d],
        documents ++ [Entries.put key.column (.int k.toInt) d]), m) :=
    Documents.run_bind_of_ok hone rfl
  have hinsert := Store.insert_eq_ok.2 ⟨documents, _, hcollection, hall, rfl⟩
  obtain ⟨after, hwrite, -⟩ := write_of_ok (f := fun store => store.insert s [d] (c.sequence s.table))
    hinsert fun written => .insert s written.1
  refine ⟨k, { after with sequences := Entries.put s.table m after.sequences }, ?_, hnk, ?_⟩
  · have hencode : [r].mapM s.encode = .ok [d] := by
      rw [List.mapM_cons, hd]
      rfl
    have hdecode : [Entries.put key.column (.int k.toInt) d].mapM s.decode =
        .ok [s.completed (r.set key.name (.int k))] := by
      rw [List.mapM_cons, hr.decode hs hstores k]
      rfl
    rw [add, hencode]
    dsimp only
    rw [hwrite]
    dsimp only
    rw [hdecode]
  · rw [sequence_put]
    exact hkm

/-- After any run whose adds give the keys as whole numbers or not at all, and whose updates do not
    assign them, a record that lacks its key is stored in every collection of its model there is,
    in a transaction or outside.  Its key is larger than all numbers the counter has seen, as long
    as none of these is the largest number, and the counter does not fall behind it. -/
theorem fresh_key (hs : s.SelfKeyed key) (requests : List Request)
    (hrequests : ∀ r ∈ requests, ∀ a, r.action = .ok a → a.KeepsKeys s key)
    (hbelow : ∀ a ∈ additions s.table requests, ∀ k ∈ a.numbers, k < maxInt64)
    (hcollection : ((after requests).view id).collection s.table = .ok documents)
    (hr : r.AwaitsKey s key) :
    ∃ (k : Int64) (c' : Cluster),
      (after requests).add id s [r] = (.ok [s.completed (r.set key.name (.int k))], c') ∧
      ((after requests).sequence s.table).toInt < k.toInt ∧
      k.toInt ≤ (c'.sequence s.table).toInt := by
  have hstart : (start.sequence s.table).toInt < maxInt64 := by
    show (0 : Int64).toInt < maxInt64
    decide
  obtain ⟨hc, hn⟩ :=
    counted_from hs requests hrequests ⟨.start, []⟩ hstart hbelow (counted_start s key)
  exact add_missing hs hc hn hcollection hr

/-- One session has given a key in a transaction, and another one has been given the next; the name
    of an item is changed, and an item is deleted. -/
theorem fresh_key_of_items :
    let id := Field.ofMarks "id" .int [.key, .auto]
    let item : Schema := ⟨"Item", [id, .plain "name" .text]⟩
    let named (name : String) : Record := .ofList [("name", .text name)]
    let one : Query := ⟨item, some (FieldRef.test ⟨"Item", "id"⟩ .eq (.int 1)), []⟩
    let requests : List Request := [⟨0, .ok (.create ⟨"c", [item]⟩)⟩, ⟨0, .ok .openSession⟩,
      ⟨0, .ok (.add item [named "a"])⟩, ⟨1, .ok .begin⟩,
      ⟨1, .ok (.add item [(named "b").set "id" (.int 7)])⟩, ⟨0, .ok (.add item [named "c"])⟩,
      ⟨1, .ok (.update one (named "d"))⟩, ⟨0, .ok (.delete one)⟩, ⟨1, .ok .commit⟩]
    ∃ (k : Int64) (c' : Cluster), (after requests).add 0 item [named "e"] =
      (.ok [item.completed ((named "e").set "id" (.int k))], c') ∧ 8 < k.toInt := by
  intro id item named one requests
  have hself : item.SelfKeyed id := ⟨rfl, rfl, rfl, by decide⟩
  have hassigned : ∀ assigned, changes one (named "d") = .ok assigned →
      assigned = [("name", .text "d")] := by
    intro assigned h
    cases h
    rfl
  have hkeeps : ∀ r ∈ requests, ∀ a, r.action = .ok a → a.KeepsKeys item id := by
    intro r hr a ha
    simp only [requests, List.mem_cons, List.not_mem_nil, or_false] at hr
    rcases hr with rfl | rfl | rfl | rfl | rfl | rfl | rfl | rfl | rfl <;> cases ha
    case inr.inr.inr.inr.inr.inr.inl =>
      intro _ assigned h e he
      rw [hassigned assigned h] at he
      cases List.mem_singleton.1 he
      decide
    all_goals first
      | trivial
      | exact fun _ => ⟨rfl, List.forall_mem_singleton.2 nofun⟩
  have hbelow : ∀ a ∈ additions item.table requests, ∀ k ∈ a.numbers, k < maxInt64 := by
    decide +kernel
  have hcollection : (((after requests).view 0).collection item.table).toOption.isSome = true := by
    decide +kernel
  have hsequence : ((after requests).sequence item.table).toInt = 8 := by
    decide +kernel
  have hsurvives : ∀ f ∈ item.fields, f ≠ id →
      Value.ofDoc f.type ((named "e").value f.name).toDoc = .ok ((named "e").value f.name) :=
    List.forall_mem_cons.2 ⟨fun h => absurd rfl h, List.forall_mem_singleton.2 fun _ => rfl⟩
  have hnumbers : ∀ f ∈ item.fields, f ≠ id → f.isAuto = true → ∀ i,
      (named "e").value f.name = .int i → i.toInt < maxInt64 :=
    List.forall_mem_cons.2 ⟨fun h => absurd rfl h, List.forall_mem_singleton.2 fun _ h => nomatch h⟩
  have hawaits : (named "e").AwaitsKey item id :=
    ⟨by decide, rfl, by decide +kernel, hsurvives, hnumbers⟩
  cases hview : ((after requests).view 0).collection item.table with
  | error e =>
    rw [hview] at hcollection
    cases hcollection
  | ok documents =>
    obtain ⟨k, c', hadd, hlt, -⟩ := fresh_key hself requests hkeeps hbelow hview hawaits
    exact ⟨k, c', hadd, hsequence ▸ hlt⟩

/-- The second item is not stored, and neither is any later one: its key was assigned to the
    first. -/
theorem update_blocks_adds :
    let item : Schema := ⟨"Item", [.ofMarks "id" .int [.key, .auto], .plain "name" .text]⟩
    let named (name : String) : Record := .ofList [("name", .text name)]
    let c := after [⟨0, .ok (.create ⟨"c", [item]⟩)⟩, ⟨0, .ok (.add item [named "a"])⟩,
      ⟨0, .ok (.update ⟨item, none, []⟩ (.ofList [("id", .int 2)]))⟩]
    (c.add 0 item [named "b"]).1.isSuccess = false ∧
      ((c.add 0 item [named "b"]).2.add 0 item [named "b"]).1.isSuccess = false := by
  decide +kernel

end Memory.Cluster

end ModelMapper
