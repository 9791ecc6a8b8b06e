import ModelMapper.Memory.Backend
import ModelMapper.Proofs.Document.Filtering
import ModelMapper.Proofs.Memory.Replay
import ModelMapper.Proofs.Schema.Numbers

/-! # Records kept in memory

A collection holds the records of a shelf, document by document, and a search gives those its
filter holds for.

* `Documents.complete_stores` — a completed document has the number of its record.
* `Documents.insertAll_stores` — a collection with more documents.
* `Documents.matching_stored` — the documents that a filter matches.
* `Cluster.Keeps` — a session that sees the records of a shelf, which it starts with
  (`keeps_create`), adds to (`Keeps.add`) and searches (`Keeps.search`).
-/

namespace ModelMapper

namespace Documents

variable {s : Schema} {r : Record} {d d' : Document} {n m : Int64}

/-! ## Completing -/

/-- Fields that no number is generated for leave the document and the counter alone. -/
theorem foldlM_given {fields : List Field} (hfields : ∀ f ∈ fields, f.isAuto = false)
    (h : (fields.foldlM (completeField s) d).run n = (.ok d', m)) : d' = d ∧ m = n := by
  induction fields generalizing d n with
  | nil =>
    cases h
    exact ⟨rfl, rfl⟩
  | cons f fields ih =>
    obtain ⟨hauto, hrest⟩ := List.forall_mem_cons.1 hfields
    obtain ⟨one, k, hone, hothers⟩ := run_bind_ok h
    obtain ⟨rfl, rfl, -⟩ := completeField_plain hauto hone
    exact ih hrest hothers

/-- The fields that do not number themselves, before and after the one that does. -/
theorem fields_around (hs : s.Portable) {f : Field} (h : s.auto? = some f) :
    ∃ before after, s.fields = before ++ f :: after ∧ (∀ g ∈ before, g.isAuto = false) ∧
      ∀ g ∈ after, g.isAuto = false := by
  obtain ⟨hauto, before, after, hfields, hbefore⟩ := List.find?_eq_some_iff_append.1 h
  refine ⟨before, after, hfields, fun g hg => by simpa using hbefore g hg, fun g hg => ?_⟩
  refine Bool.eq_false_iff.2 fun hgauto => ?_
  have hmem : g ∈ s.fields := by
    rw [hfields]
    exact List.mem_append_right _ (List.mem_cons_of_mem _ hg)
  obtain rfl := hs.eq_of_isAuto hmem (Schema.auto?_eq_some h).1 hgauto hauto
  have hnodup := hs.names
  rw [hfields, List.map_append, List.map_cons] at hnodup
  exact (List.nodup_cons.1 (List.nodup_append.1 hnodup).2.1).1 (List.mem_map_of_mem hg)

/-- Completing goes through the fields before the one that numbers itself, that one, and those
    after it. -/
theorem complete_around (hs : s.Portable) {f : Field} (hf : s.auto? = some f)
    (h : (complete s d).run n = (.ok d', m)) : (completeField s d f).run n = (.ok d', m) := by
  obtain ⟨before, after, hfields, hbefore, hafter⟩ := fields_around hs hf
  rw [complete, hfields, List.foldlM_append] at h
  obtain ⟨_, _, hfirst, hrest⟩ := run_bind_ok h
  obtain ⟨rfl, rfl⟩ := foldlM_given hbefore hfirst
  rw [List.foldlM_cons] at hrest
  obtain ⟨_, _, hmiddle, hlast⟩ := run_bind_ok hrest
  obtain ⟨rfl, rfl⟩ := foldlM_given hafter hlast
  exact hmiddle

/-- A completed document stores the record with its number. -/
theorem complete_stores (hs : s.Portable) (hcolumns : (s.fields.map Field.column).Nodup)
    (hr : r.Typed s) (hd : s.Stores r d) (h : (complete s d).run n = (.ok d', m)) :
    s.Stores (s.numbered (n + 1) r) d' ∧ m = s.counted n r := by
  cases hauto : s.auto? with
  | none =>
    have hnone : ∀ f ∈ s.fields, f.isAuto = false := fun f hf => by
      simpa using List.find?_eq_none.1 hauto f hf
    obtain ⟨rfl, rfl⟩ := foldlM_given hnone h
    refine ⟨fun f hf => ?_, (Schema.counted_none hauto _ r).symm⟩
    rw [hs.value_numbered _ _ hf, Field.isGenerated, hnone f hf, Bool.false_and,
      if_neg Bool.false_ne_true]
    exact hd f hf
  | some f =>
    have hfield := complete_around hs hauto h
    obtain ⟨hf, hfauto⟩ := Schema.auto?_eq_some hauto
    simp only [completeField] at hfield
    rw [hfauto, if_pos rfl, hd f hf, Value.isNull_toDoc (hr.fits f hf)] at hfield
    cases hnull : (r.value f.name).isNull with
    | true =>
      rw [hnull, if_pos rfl] at hfield
      cases hfield
      refine ⟨fun g hg => ?_, (Schema.counted_missing hauto hnull n).symm⟩
      rw [column_put, hs.value_numbered _ _ hg]
      by_cases hsame : g.column = f.column
      · obtain rfl := List.inj_on_of_nodup_map hcolumns hg hf hsame
        rw [if_pos rfl, Field.isGenerated, hfauto, hnull]
        rfl
      · have hno : ¬g.isGenerated r = true := fun hgenerated => hsame <| by
          rw [hs.eq_of_isAuto hg hf (Schema.isAuto_of_isGenerated hgenerated).1 hfauto]
        rw [if_neg hsame, if_neg hno]
        exact hd g hg
    | false =>
      obtain ⟨i, hi⟩ := hs.value_auto hr hauto hnull
      rw [hnull, if_neg Bool.false_ne_true, hi, Value.toDoc, seen, Doc.asInt64_toInt] at hfield
      cases hfield
      refine ⟨fun g hg => ?_, (Schema.counted_given hauto hi n).symm⟩
      have hno : ¬g.isGenerated r = true := fun hgenerated => by
        obtain ⟨hgauto, hgnull⟩ := Schema.isAuto_of_isGenerated hgenerated
        rw [hs.eq_of_isAuto hg hf hgauto hfauto, hnull] at hgnull
        cases hgnull
      rw [hs.value_numbered _ _ hg, if_neg hno]
      exact hd g hg

/-! ## Inserting -/

variable {shelf : Shelf} {documents after : Documents}

/-- One document more is one record more. -/
theorem insert_stores (hs : s.Portable) (hcolumns : (s.fields.map Field.column).Nodup)
    (hr : r.Typed s) (hd : s.Stores r d) (hkept : List.Forall₂ s.Stores shelf.records documents)
    (h : (insert s documents d).run shelf.last = (.ok (d', after), m)) :
    List.Forall₂ s.Stores (shelf.put s r).records after ∧ m = (shelf.put s r).last := by
  obtain ⟨hcomplete, -, rfl⟩ := insert_spec h
  obtain ⟨hstored, hlast⟩ := complete_stores hs hcolumns hr hd hcomplete
  exact ⟨List.rel_append hkept (.cons (Schema.stores_completed hstored) .nil), hlast⟩

/-- So are the documents of a list. -/
theorem insertAll_stores (hs : s.Portable) (hcolumns : (s.fields.map Field.column).Nodup)
    {records : List Record} {ds stored : List Document} (hrecords : ∀ r ∈ records, r.Typed s)
    (hds : List.Forall₂ s.Stores records ds)
    (hkept : List.Forall₂ s.Stores shelf.records documents)
    (h : (insertAll s documents ds).run shelf.last = (.ok (stored, after), m)) :
    List.Forall₂ s.Stores (shelf.putAll s records).records after ∧
      m = (shelf.putAll s records).last := by
  -- The counter of the rest is the one of the shelf after the first record.
  induction hds generalizing shelf documents stored with
  | nil =>
    cases h
    exact ⟨hkept, rfl⟩
  | @cons r d records ds hd _ ih =>
    obtain ⟨hr, hrest⟩ := List.forall_mem_cons.1 hrecords
    obtain ⟨⟨one, next⟩, _, hone, hothers⟩ := run_bind_ok h
    obtain ⟨⟨others, final⟩, _, hlast, hlist⟩ := run_bind_ok hothers
    obtain ⟨hnext, rfl⟩ := insert_stores hs hcolumns hr hd hkept hone
    cases hlist
    exact ih hrest hnext hlast

/-! ## Finding -/

/-- What is in order stays where it is. -/
theorem sorted_of_pairwise {α : Type} {before : α → α → Bool} {items : List α}
    (h : items.Pairwise fun a b => before b a = false) : sorted before items = items := by
  -- The sorted part is in reverse, and what follows does not come before any of it.
  have hfold : ∀ rest done : List α, (rest.Pairwise fun a b => before b a = false) →
      (∀ a ∈ rest, ∀ b ∈ done, before a b = false) →
      rest.foldl (fun done a => insertBackwards before a done) done = rest.reverse ++ done := by
    intro rest
    induction rest with
    | nil => exact fun _ _ _ => rfl
    | cons a rest ih =>
      intro done hrest hdone
      obtain ⟨ha, hrest⟩ := List.pairwise_cons.1 hrest
      obtain ⟨hfirst, hdone⟩ := List.forall_mem_cons.1 hdone
      have hplace : insertBackwards before a done = a :: done := by
        cases done with
        | nil => rfl
        | cons b done =>
          rw [insertBackwards, hfirst b List.mem_cons_self, if_neg Bool.false_ne_true]
      rw [List.foldl_cons, hplace, ih _ hrest fun c hc =>
        List.forall_mem_cons.2 ⟨ha c hc, hdone c hc⟩, List.reverse_cons, List.append_assoc]
      rfl
  rw [sorted, hfold items [] h fun _ _ => nofun, List.append_nil, List.reverse_reverse]

/-- Without an order nothing is moved. -/
theorem sorted_unordered {α : Type} {before : α → α → Bool} (h : ∀ a b, before a b = false)
    (items : List α) : sorted before items = items :=
  sorted_of_pairwise (List.pairwise_of_forall fun a b => h b a)

/-- The documents that match are those of the records the filter holds for. -/
theorem matching_stored {q : Query} (hs : q.model.Nameable) (hq : q.Typed) {filter : Doc}
    (hfilter : q.toFilter = .ok filter) {records : List Record}
    (hrecords : ∀ r ∈ records, r.Typed q.model)
    (hkept : List.Forall₂ q.model.Stores records documents) :
    ∃ found, matching filter documents = .ok found ∧
      List.Forall₂ q.model.Stores (records.filter q.holds) found := by
  rw [matching]
  induction hkept with
  | nil => exact ⟨[], rfl, .nil⟩
  | @cons r d records documents hd _ ih =>
    obtain ⟨hr, hrest⟩ := List.forall_mem_cons.1 hrecords
    obtain ⟨found, hfound, hall⟩ := ih hrest
    rw [List.filterMapM_cons, Query.satisfies_toFilter hs hr hd hq hfilter, hfound,
      List.filter_cons]
    cases q.holds r with
    | false => exact ⟨found, rfl, hall⟩
    | true => exact ⟨d :: found, rfl, .cons hd hall⟩

end Documents

/-! ## Sessions -/

namespace Memory

/-- A session without a transaction sees the records of a shelf in the collection of the model. -/
structure Cluster.Keeps (c : Cluster) (id : Nat) (s : Schema) (shelf : Shelf) : Prop where
  session : c.session id = none
  collection : ∃ documents, c.shared.collection s.table = .ok documents ∧
    List.Forall₂ s.Stores shelf.records documents
  sequence : c.sequence s.table = shelf.last

namespace Cluster

variable {c : Cluster} {id : Nat} {s : Schema} {shelf : Shelf}

theorem sequence_put (c : Cluster) (table : String) (last : Int64) :
    ({ c with sequences := Entries.put table last c.sequences } : Cluster).sequence table =
      last := by
  rw [Cluster.sequence, Entries.get?_put, if_pos rfl]
  rfl

theorem encode_stores (hs : s.Nameable) {records : List Record} {documents : List Document}
    (h : records.mapM s.encode = .ok documents) : List.Forall₂ s.Stores records documents :=
  (Result.mapM_eq_ok.1 h).imp fun _ _ hd => Schema.stores_encode hs.distinct hd

theorem decode_all {records : List Record} {documents : List Document}
    (hrecords : ∀ r ∈ records, r.Typed s ∧ s.completed r = r)
    (h : List.Forall₂ s.Stores records documents) :
    documents.mapM s.decode = .ok records := by
  induction h with
  | nil => rfl
  | @cons r d records documents hd _ ih =>
    obtain ⟨⟨hr, hcompleted⟩, hrest⟩ := List.forall_mem_cons.1 hrecords
    rw [List.mapM_cons, Schema.decode_stored hr hd, hcompleted, Result.ok_bind, ih hrest]
    rfl

/-- Creating the collection of a model gives an empty shelf. -/
theorem keeps_create (name : String) (s : Schema) :
    (start.create 0 ⟨name, [s]⟩).2.Keeps 0 s .empty :=
  ⟨rfl, ⟨[], (Store.collection_put ..).trans (if_pos rfl), .nil⟩, rfl⟩

/-- Adding records puts them on the shelf. -/
theorem Keeps.add (hkeeps : c.Keeps id s shelf) (hs : s.Portable) (hnames : s.Nameable)
    {records : List Record} (hrecords : ∀ r ∈ records, r.Typed s) {stored : List Record}
    (h : (c.add id s records).1 = .ok stored) :
    (c.add id s records).2.Keeps id s (shelf.putAll s records) := by
  obtain ⟨hsession, ⟨existing, hexisting, hkept⟩, hsequence⟩ := hkeeps
  unfold Cluster.add at h ⊢
  cases hencode : records.mapM s.encode with
  | error e =>
    rw [hencode] at h
    cases h
  | ok documents =>
    rw [hencode] at h
    dsimp only at h ⊢
    unfold Cluster.write at h ⊢
    rw [hsession, hsequence] at h ⊢
    dsimp only at h ⊢
    cases hinsert : c.shared.insert s documents shelf.last with
    | error e =>
      rw [hinsert] at h
      cases h
    | ok result =>
      obtain ⟨⟨given, last⟩, after⟩ := result
      obtain ⟨_, all, hfound, hrun, rfl⟩ := Store.insert_eq_ok.1 hinsert
      cases hexisting.symm.trans hfound
      obtain ⟨hall, hlast⟩ := Documents.insertAll_stores hs hnames.distinct hrecords
        (encode_stores hnames hencode) hkept hrun
      have hcollection : (c.shared.put s.table all).collection s.table = .ok all :=
        (Store.collection_put ..).trans (if_pos rfl)
      exact ⟨hsession, ⟨all, hcollection, hall⟩, (sequence_put _ _ _).trans hlast⟩

/-- A search without an order gives the records its filter holds for. -/
theorem Keeps.search {q : Query} (hkeeps : c.Keeps id q.model shelf) (hs : q.model.Nameable)
    (hwhole : shelf.Whole q.model) (hq : q.Typed) (hshape : q.shape = []) {filter : Doc}
    (hfilter : q.toFilter = .ok filter) :
    ∃ find, q.toFind = .ok find ∧
      c.search id q.model find = .ok (shelf.records.filter q.holds) := by
  obtain ⟨hsession, ⟨documents, hdocuments, hkept⟩, -⟩ := hkeeps
  have hfind : q.toFind = .ok ⟨q.model.table, filter, [], 0, none⟩ := by
    rw [Query.toFind, Query.sortColumns, Query.ordering_unshaped hshape, hfilter,
      Query.window_unshaped hshape]
    rfl
  refine ⟨_, hfind, ?_⟩
  obtain ⟨found, hfound, hstored⟩ := Documents.matching_stored hs hq hfilter
    (fun r hr => (hwhole r hr).1) hkept
  have hview : c.view id = c.shared := by
    rw [Cluster.view, hsession]
  have hall : Documents.find ⟨q.model.table, filter, [], 0, none⟩ documents = .ok found := by
    rw [Documents.find, hfound]
    exact congrArg Except.ok (Documents.sorted_unordered (fun _ _ => rfl) found)
  rw [Cluster.search, hview, hdocuments, Result.ok_bind, hall, Result.ok_bind]
  exact decode_all (fun r hr => hwhole r (List.mem_filter.1 hr).1) hstored

end Cluster

end Memory

end ModelMapper
