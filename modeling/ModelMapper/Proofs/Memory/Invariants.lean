import Mathlib.Data.List.Induction
import ModelMapper.Proofs.Memory.Steps

/-! # Invariants of a cluster

What holds of a store and is kept by every change that may be noted holds everywhere in a cluster:
of the shared store, of the private copies and of the savepoints.  The writes of a transaction run
again on a store that others have changed, so they have to keep it on every store.

* `Store.OnTable` — a property of one collection, where there is one.
* `Documents.Kept` — what inserts, updates and deletes of documents are to keep.
* `Change.onTable_apply` — a change keeps such a property.
* `Cluster.Throughout` — a property of all stores, with what the noted changes are to respect.
* `Step.throughout`, `Cluster.write_throughout` — a step, and a write, keep it.
-/

namespace ModelMapper.Memory

/-! ## One collection -/

/-- The collection of a table has a property, if there is one. -/
def Store.OnTable (table : String) (p : Documents → Prop) (store : Store) : Prop :=
  ∀ documents, store.collection table = .ok documents → p documents

namespace Store.OnTable

variable {table other : String} {p : Documents → Prop} {store : Store}

theorem empty (table : String) (p : Documents → Prop) : Store.empty.OnTable table p :=
  fun _ h => by cases h

theorem put (h : store.OnTable table p) {documents : Documents}
    (hnew : table = other → p documents) : (store.put other documents).OnTable table p := by
  intro ds hds
  rw [collection_put] at hds
  split at hds
  · cases hds
    exact hnew ‹_›
  · exact h ds hds

theorem create (h : store.OnTable table p) (hnil : p []) (tables : List String) :
    (store.create tables).OnTable table p := by
  unfold Store.create
  induction tables generalizing store with
  | nil => exact h
  | cons table rest ih =>
    rw [List.foldl_cons]
    split
    · exact ih h
    · exact ih (h.put fun _ => hnil)

/-- Tables that go away leave the others as they are. -/
theorem collection_of_erase {documents : Documents}
    (h : (⟨Entries.erase table store.collections⟩ : Store).collection other = .ok documents) :
    store.collection other = .ok documents := by
  unfold collection at h ⊢
  dsimp only at h
  rw [Entries.get?_erase] at h
  split at h
  · rename_i hfound
    split at hfound
    · cases hfound
    · rw [hfound]
      exact h
  · cases h

theorem drop (h : store.OnTable table p) (tables : List String) :
    (store.drop tables).OnTable table p := by
  unfold Store.drop
  induction tables generalizing store with
  | nil => exact h
  | cons table rest ih => exact ih fun _ hdocuments => h _ (collection_of_erase hdocuments)

end Store.OnTable

/-- A property of the documents of a table that every change keeps which is as required. -/
structure Documents.Kept (table : String) (required : Change → Prop) (p : Documents → Prop) :
    Prop where
  nil : p []
  insert : ∀ {model : Schema} {ds stored : List Document} {documents after : Documents}
    {n m : Int64}, model.table = table → required (.insert model ds) → p documents →
    (Documents.insertAll model documents ds).run n = (.ok (stored, after), m) → p after
  update : ∀ {filter : Doc} {assigned : List (String × Doc)} {documents after : Documents}
    {n : Nat}, required (.update table filter assigned) → p documents →
    Documents.update filter assigned documents = .ok (n, after) → p after
  delete : ∀ {filter : Doc} {documents after : Documents} {n : Nat}, p documents →
    Documents.delete filter documents = .ok (n, after) → p after

section

variable {table : String} {required : Change → Prop} {p : Documents → Prop}
  {store after : Store}

/-- Changes of other tables are of no account. -/
theorem Change.onTable_apply {change : Change} (h : Documents.Kept table required p)
    (hchange : required change) (hstore : store.OnTable table p)
    (happly : Change.apply store change = .ok after) : after.OnTable table p := by
  cases change with
  | insert model documents =>
    obtain ⟨⟨⟨stored, last⟩, after⟩, hinsert, hafter⟩ := Result.map_eq_ok.1 happly
    cases hafter
    obtain ⟨existing, all, hexisting, hrun, rfl⟩ := Store.insert_eq_ok.1 hinsert
    refine hstore.put fun htable => ?_
    exact h.insert htable.symm hchange (hstore existing (htable ▸ hexisting)) hrun
  | update other filter assigned =>
    obtain ⟨⟨n, after⟩, hupdate, hafter⟩ := Result.map_eq_ok.1 happly
    cases hafter
    obtain ⟨existing, hexisting, hrest⟩ := Result.bind_eq_ok.1 hupdate
    obtain ⟨⟨m, documents⟩, hdocuments, hput⟩ := Result.bind_eq_ok.1 hrest
    cases hput
    refine hstore.put fun htable => ?_
    subst htable
    exact h.update hchange (hstore existing hexisting) hdocuments
  | delete other filter =>
    obtain ⟨⟨n, after⟩, hdelete, hafter⟩ := Result.map_eq_ok.1 happly
    cases hafter
    obtain ⟨existing, hexisting, hrest⟩ := Result.bind_eq_ok.1 hdelete
    obtain ⟨⟨m, documents⟩, hdocuments, hput⟩ := Result.bind_eq_ok.1 hrest
    cases hput
    refine hstore.put fun htable => ?_
    subst htable
    exact h.delete (hstore existing hexisting) hdocuments
  | create tables =>
    cases happly
    exact hstore.create h.nil tables
  | drop tables =>
    cases happly
    exact hstore.drop tables

end

/-! ## Clusters -/

/-- Both stores of a transaction, and those it can go back to. -/
structure Transaction.Throughout (P : Store → Prop) (required : Change → Prop) (t : Transaction) :
    Prop where
  working : P t.working
  log : ∀ change ∈ t.log, required change
  savepoints : ∀ saved ∈ t.savepoints, P saved.1

/-- Every store has the property, and the changes that are still to be published are as required. -/
structure Cluster.Throughout (P : Store → Prop) (required : Change → Prop) (c : Cluster) :
    Prop where
  shared : P c.shared
  sessions : ∀ id t, c.session id = some t → t.Throughout P required

/-- Every change that is as required keeps a property of stores. -/
def Change.Keep (P : Store → Prop) (required : Change → Prop) : Prop :=
  ∀ {store after : Store} {change : Change}, required change → P store →
    Change.apply store change = .ok after → P after

theorem Change.Keep.applyAll {P : Store → Prop} {required : Change → Prop}
    (h : Change.Keep P required) {changes : List Change} {store after : Store} (hstore : P store)
    (hchanges : ∀ change ∈ changes, required change)
    (happly : Change.applyAll store changes = .ok after) : P after := by
  induction changes generalizing store with
  | nil =>
    cases happly
    exact hstore
  | cons change rest ih =>
    obtain ⟨hchange, hrest⟩ := List.forall_mem_cons.1 hchanges
    rw [Change.applyAll, List.foldlM_cons] at happly
    obtain ⟨next, hnext, hafter⟩ := Result.bind_eq_ok.1 happly
    exact ih (h hchange hstore hnext) hrest hafter

namespace Cluster

variable {P P' : Store → Prop} {required required' : Change → Prop} {c c' : Cluster} {id : Nat}
  {a : Action}

namespace Throughout

theorem mono (h : c.Throughout P required) (hstores : ∀ store, P store → P' store)
    (hchanges : ∀ change, required change → required' change) : c.Throughout P' required' where
  shared := hstores _ h.shared
  sessions id t ht :=
    let ⟨hworking, hlog, hsavepoints⟩ := h.sessions id t ht
    ⟨hstores _ hworking, fun change hchange => hchanges _ (hlog change hchange),
      fun saved hsaved => hstores _ (hsavepoints saved hsaved)⟩

theorem start (h : P .empty) : Cluster.start.Throughout P required where
  shared := h
  sessions id t ht := by cases (session_start id).symm.trans ht

theorem view (h : c.Throughout P required) (id : Nat) : P (c.view id) := by
  rw [Cluster.view]
  cases hs : c.session id with
  | none => exact h.shared
  | some t => exact (h.sessions id t hs).working

theorem setSession (h : c.Throughout P required) (id : Nat) {session : Session}
    (hsession : ∀ t, session = some t → t.Throughout P required) :
    (c.setSession id session).Throughout P required := by
  refine ⟨h.shared, fun other t ht => ?_⟩
  rw [session_setSession] at ht
  split at ht
  · exact hsession t ht
  · exact h.sessions other t ht

theorem setTransaction (h : c.Throughout P required) (id : Nat) {t : Transaction}
    (ht : t.Throughout P required) : (c.setSession id (some t)).Throughout P required :=
  h.setSession id fun _ heq => Option.some.inj heq ▸ ht

theorem endTransaction (h : c.Throughout P required) (id : Nat) :
    (c.setSession id none).Throughout P required := h.setSession id nofun

/-- A change in the private copy of a transaction is noted. -/
theorem note (h : c.Throughout P required) {t : Transaction} (hs : c.session id = some t)
    {store : Store} (hstore : P store) {change : Change} (hchange : required change) :
    (c.setSession id (some ⟨store, t.log ++ [change], t.savepoints⟩)).Throughout P required := by
  obtain ⟨-, hlog, hsavepoints⟩ := h.sessions id t hs
  refine h.setTransaction id ⟨hstore, fun noted hnoted => ?_, hsavepoints⟩
  rcases List.mem_append.1 hnoted with hold | hnew
  · exact hlog noted hold
  · exact List.mem_singleton.1 hnew ▸ hchange

end Throughout

/-- A step keeps what the changes it can note keep. -/
theorem Step.throughout (h : Step id a c c') (hkeep : Change.Keep P required)
    (hnotes : ∀ change, Notes a change → required change) (hc : c.Throughout P required) :
    c'.Throughout P required := by
  cases h with
  | still => exact hc
  | published _ _ hchange happly =>
    exact ⟨hkeep (hnotes _ hchange) hc.shared happly, hc.sessions⟩
  | @noted t change store _ hs hchange happly =>
    have hstore := hkeep (hnotes _ hchange) (hc.sessions id t hs).working happly
    exact ⟨hc.shared, (hc.note hs hstore (hnotes _ hchange)).sessions⟩
  | opened => exact hc.setTransaction id ⟨hc.shared, nofun, nofun⟩
  | @nested t _ hs =>
    obtain ⟨hworking, hlog, hsavepoints⟩ := hc.sessions id t hs
    exact hc.setTransaction id ⟨hworking, hlog, List.forall_mem_cons.2 ⟨hworking, hsavepoints⟩⟩
  | @released t saved outer _ hs hsaved =>
    obtain ⟨hworking, hlog, hsavepoints⟩ := hc.sessions id t hs
    rw [hsaved] at hsavepoints
    exact hc.setTransaction id ⟨hworking, hlog, (List.forall_mem_cons.1 hsavepoints).2⟩
  | @merged t store _ hs _ happly =>
    -- The log need not give what it gave in the private copy: its changes are as required on
    -- every store.
    have hmerged := hkeep.applyAll hc.shared (hc.sessions id t hs).log happly
    exact ⟨hmerged, (hc.endTransaction id).sessions⟩
  | @undone t store length outer _ hs hsaved =>
    obtain ⟨-, hlog, hsavepoints⟩ := hc.sessions id t hs
    rw [hsaved] at hsavepoints
    obtain ⟨hstore, houter⟩ := List.forall_mem_cons.1 hsavepoints
    exact hc.setTransaction id
      ⟨hstore, fun change hchange => hlog change (List.mem_of_mem_take hchange), houter⟩
  | ended => exact hc.endTransaction id
  | joined =>
    refine ⟨hc.shared, fun other t ht => hc.sessions other t ?_⟩
    rwa [session_openSession] at ht

/-- A write that succeeds keeps what its own change to the store keeps. -/
theorem write_throughout {α : Type} {f : Store → Result (α × Store)} {change : α → Change} {x : α}
    (h : c.write id f change = (.ok x, c')) (hc : c.Throughout P required)
    (hstore : ∀ after, f (c.view id) = .ok (x, after) → P after) (hchange : required (change x)) :
    c'.Throughout P required := by
  unfold view at hstore
  unfold write at h
  cases hs : c.session id with
  | none =>
    rw [hs] at h hstore
    dsimp only at h hstore
    split at h
    · next y store hf =>
      cases h
      exact ⟨hstore store hf, hc.sessions⟩
    · cases h
  | some t =>
    rw [hs] at h hstore
    dsimp only at h hstore
    split at h
    · next y store hf =>
      cases h
      exact hc.note hs (hstore store hf) hchange
    · cases h

/-- So do all requests of a run whose changes are as required. -/
theorem throughout_after (hkeep : Change.Keep P required) (hempty : P .empty)
    {requests : List Request} (h : ∀ r ∈ requests, ∀ a, r.action = .ok a →
      ∀ change, Notes a change → required change) : (after requests).Throughout P required := by
  induction requests using List.reverseRecOn with
  | nil => exact .start hempty
  | append_singleton requests r ih =>
    have hbefore := ih fun r' hr' => h r' (List.mem_append_left _ hr')
    rcases after_snoc requests r with hsame | ⟨a, ha, hstep⟩
    · rwa [hsame]
    · exact hstep.throughout hkeep (h r (by simp) a ha) hbefore

end Cluster

end ModelMapper.Memory
