import ModelMapper.Proofs.Memory.Invariants

/-! # Keys and required columns

An insert refuses a second document of one key and null in a required column.  Nothing else
checks these rules, so they hold of the stores of a cluster as far as the updates keep them: an
update that assigns no key column, and null to no required one, keeps them, and so do deletes,
savepoints and commits, which run their writes again on a store that others have changed.

* `Documents.Lawful` — the rules, for a collection.
* `Schema.Assignable`, `Action.Respects` — the updates that keep them.
* `Documents.kept_lawful` — a change applied to any store that keeps them.
* `Cluster.stores_lawful` — all stores of a cluster, after every run.
* `Cluster.update_breaks_rules` — two updates that do not keep them.
-/

namespace ModelMapper

/-- A column may get this value: it is no key column, and null only where null is allowed. -/
structure Schema.Assignable (s : Schema) (column : String) (value : Doc) : Prop where
  noKey : ∀ f ∈ s.keyFields, f.column ≠ column
  notNull : ∀ f ∈ s.fields, f.isRequired = true → f.column = column →
    Document.isNull value = false

/-- Records for the table are of this model.  An update of it assigns no key column, and null to
    no required column. -/
def Action.Respects (s : Schema) : Action → Prop
  | .add model _ => model.table = s.table → model = s
  | .update q values => q.model.table = s.table → ∀ assigned,
      Memory.Cluster.changes q values = .ok assigned → ∀ e ∈ assigned, s.Assignable e.1 e.2
  | _ => True

/-! ## Collections -/

namespace Documents

/-- No two documents agree in all key columns, and no required column is null. -/
structure Lawful (s : Schema) (documents : Documents) : Prop where
  keys : s.keyFields ≠ [] → documents.Pairwise fun a b => sameKey s a b = false
  required : ∀ d ∈ documents, ∀ f ∈ s.fields, f.isRequired = true →
    Document.isNull (d.column f.column) = false

instance (s : Schema) (documents : Documents) : Decidable (Lawful s documents) :=
  decidable_of_iff
    ((s.keyFields ≠ [] → documents.Pairwise fun a b => sameKey s a b = false) ∧
      ∀ d ∈ documents, ∀ f ∈ s.fields, f.isRequired = true →
        Document.isNull (d.column f.column) = false)
    ⟨fun h => ⟨h.1, h.2⟩, fun h => ⟨h.keys, h.required⟩⟩

variable {s : Schema} {documents after : Documents}

theorem lawful_nil (s : Schema) : Lawful s [] := ⟨fun _ => .nil, nofun⟩

theorem Lawful.sublist (h : Lawful s documents) (hsub : after.Sublist documents) :
    Lawful s after :=
  ⟨fun hkeys => (h.keys hkeys).sublist hsub, fun d hd => h.required d (hsub.subset hd)⟩

theorem Settled.required {d : Document} (h : Settled s d) {f : Field} (hf : f ∈ s.fields)
    (hrequired : f.isRequired = true) : Document.isNull (d.column f.column) = false := by
  cases hnull : Document.isNull (d.column f.column) with
  | false => rfl
  | true =>
    obtain ⟨hauto, hoptional⟩ := h f hf hnull
    rw [Field.isRequired, hauto, hoptional] at hrequired
    cases hrequired

theorem Lawful.snoc (h : Lawful s documents) {d : Document} (hkey : hasKey s documents d = false)
    (hd : Settled s d) : Lawful s (documents ++ [d]) := by
  constructor
  · intro hkeys
    have hnew : ∀ existing ∈ documents, sameKey s existing d = false := by
      simpa [hasKey, hkeys] using hkey
    simpa [List.pairwise_append] using ⟨h.keys hkeys, hnew⟩
  · intro e he f hf hrequired
    rcases List.mem_append.1 he with he | he
    · exact h.required e he f hf hrequired
    · cases List.mem_singleton.1 he
      exact hd.required hf hrequired

theorem Lawful.insertAll (h : Lawful s documents) {ds stored : List Document} {n m : Int64}
    (hrun : (Documents.insertAll s documents ds).run n = (.ok (stored, after), m)) :
    Lawful s after := by
  induction ds generalizing documents stored n with
  | nil =>
    cases hrun
    exact h
  | cons d rest ih =>
    obtain ⟨one, others, k, rfl, hcomplete, hkey, hothers⟩ := insertAll_cons hrun
    exact ih (h.snoc hkey (complete_spec hcomplete)) hothers

/-! ## Assigning -/

theorem column_assign {assigned : List (String × Doc)} {column : String}
    (h : ∀ e ∈ assigned, column ≠ e.1) (d : Document) :
    (assign assigned d).column column = d.column column := by
  induction assigned generalizing d with
  | nil => rfl
  | cons e rest ih =>
    obtain ⟨he, hrest⟩ := List.forall_mem_cons.1 h
    exact (ih hrest _).trans ((column_put d e.1 e.2 column).trans (if_neg he))

/-- A column without null has none after an assignment that brings none. -/
theorem isNull_assign {assigned : List (String × Doc)} {column : String}
    (h : ∀ e ∈ assigned, column = e.1 → Document.isNull e.2 = false) {d : Document}
    (hd : Document.isNull (d.column column) = false) :
    Document.isNull ((assign assigned d).column column) = false := by
  -- The assignments so far have left the column without null, and so does the next one.
  induction assigned generalizing d with
  | nil => exact hd
  | cons e rest ih =>
    obtain ⟨he, hrest⟩ := List.forall_mem_cons.1 h
    refine ih hrest ?_
    rw [column_put]
    split
    · exact he ‹_›
    · exact hd

theorem sameKey_congr {a b a' b' : Document}
    (ha : ∀ f ∈ s.keyFields, a'.column f.column = a.column f.column)
    (hb : ∀ f ∈ s.keyFields, b'.column f.column = b.column f.column) :
    sameKey s a' b' = sameKey s a b := by
  unfold sameKey
  rw [Bool.eq_iff_iff, List.all_eq_true, List.all_eq_true]
  refine forall₂_congr fun f hf => ?_
  rw [ha f hf, hb f hf]

theorem map_fst_zip_sublist {α β : Type} (as : List α) (bs : List β) :
    ((as.zip bs).map Prod.fst).Sublist as := by
  induction as generalizing bs with
  | nil => exact .slnil
  | cons a as ih =>
    cases bs with
    | nil => exact List.nil_sublist _
    | cons b bs => exact (ih bs).cons_cons a

theorem Lawful.update (h : Lawful s documents) {filter : Doc} {assigned : List (String × Doc)}
    {n : Nat} (hassigned : ∀ e ∈ assigned, s.Assignable e.1 e.2)
    (hupdate : Documents.update filter assigned documents = .ok (n, after)) :
    Lawful s after := by
  obtain ⟨found, -, hafter⟩ := Result.map_eq_ok.1 hupdate
  cases hafter
  have hzip := map_fst_zip_sublist documents found
  constructor
  · intro hkeys
    -- The keys stay, so documents that were told apart still are.
    have hkept : ∀ p : Document × Bool, ∀ f ∈ s.keyFields,
        (if p.2 then assign assigned p.1 else p.1).column f.column = p.1.column f.column := by
      intro p f hf
      split
      · exact column_assign (fun e he => (hassigned e he).noKey f hf) p.1
      · rfl
    refine List.pairwise_map.2 ((List.pairwise_map.1 ((h.keys hkeys).sublist hzip)).imp ?_)
    intro p q hpq
    rw [sameKey_congr (hkept p) (hkept q)]
    exact hpq
  · intro d hd f hf hrequired
    obtain ⟨p, hp, rfl⟩ := List.mem_map.1 hd
    have hold := h.required p.1 (hzip.subset (List.mem_map_of_mem hp)) f hf hrequired
    dsimp only
    split
    · exact isNull_assign (fun e he => (hassigned e he).notNull f hf hrequired) hold
    · exact hold

theorem delete_sublist {filter : Doc} {n : Nat}
    (h : Documents.delete filter documents = .ok (n, after)) : after.Sublist documents := by
  obtain ⟨found, -, hafter⟩ := Result.map_eq_ok.1 h
  cases hafter
  exact (List.filter_sublist.map Prod.fst).trans (map_fst_zip_sublist documents found)

theorem Lawful.delete (h : Lawful s documents) {filter : Doc} {n : Nat}
    (hdelete : Documents.delete filter documents = .ok (n, after)) : Lawful s after :=
  h.sublist (delete_sublist hdelete)

end Documents

namespace Memory

/-! ## Stores -/

/-- The collection of the model keeps the rules, if there is one. -/
def Store.Lawful (s : Schema) (store : Store) : Prop :=
  ∀ documents, store.collection s.table = .ok documents → Documents.Lawful s documents

instance (s : Schema) (store : Store) : Decidable (store.Lawful s) :=
  match h : store.collection s.table with
  | .ok documents =>
    decidable_of_iff (Documents.Lawful s documents)
      ⟨fun hlawful ds hds => by cases h.symm.trans hds; exact hlawful, fun hall => hall _ h⟩
  | .error _ => .isTrue fun ds hds => by cases h.symm.trans hds

/-! ## Writes -/

/-- The model puts all documents into its table, and updates of it keep the rules. -/
def Change.Respects (s : Schema) : Change → Prop
  | .insert model _ => model.table = s.table → model = s
  | .update table _ assigned => table = s.table → ∀ e ∈ assigned, s.Assignable e.1 e.2
  | _ => True

theorem Cluster.Notes.respects {s : Schema} {a : Action} {change : Change}
    (h : Cluster.Notes a change) (ha : a.Respects s) : change.Respects s := by
  cases h with
  | add => exact ha
  | update _ hassigned => exact fun htable => ha htable _ hassigned
  | delete | create | drop => trivial

/-- Only inserts into the table of the model matter, and they check its own rules. -/
theorem Documents.kept_lawful (s : Schema) :
    Documents.Kept s.table (Change.Respects s) (Documents.Lawful s) where
  nil := Documents.lawful_nil s
  insert htable hrespects hlawful hrun := by
    obtain rfl := hrespects htable
    exact hlawful.insertAll hrun
  update hrespects hlawful hupdate := hlawful.update (hrespects rfl) hupdate
  delete hlawful hdelete := hlawful.delete hdelete

/-- A change keeps the rules, whatever store it is applied to. -/
theorem Change.keep_lawful (s : Schema) :
    Change.Keep (Store.Lawful s) (Change.Respects s) :=
  Change.onTable_apply (Documents.kept_lawful s)

/-! ## Clusters -/

structure Transaction.Lawful (s : Schema) (t : Transaction) : Prop where
  working : t.working.Lawful s
  log : ∀ change ∈ t.log, change.Respects s
  savepoints : ∀ saved ∈ t.savepoints, saved.1.Lawful s

namespace Cluster

variable {s : Schema}

/-- Every store keeps the rules, and so will the writes that are still to be published. -/
structure Lawful (s : Schema) (c : Cluster) : Prop where
  shared : c.shared.Lawful s
  sessions : ∀ id t, c.session id = some t → t.Lawful s

theorem lawful_after {requests : List Request}
    (h : ∀ r ∈ requests, ∀ a, r.action = .ok a → a.Respects s) :
    (after requests).Lawful s := by
  have hall : (after requests).Throughout (Store.Lawful s) (Change.Respects s) :=
    throughout_after (Change.keep_lawful s) (Store.OnTable.empty s.table _)
      fun r hr a ha change hnotes => hnotes.respects (h r hr a ha)
  refine ⟨hall.shared, fun id t ht => ?_⟩
  obtain ⟨hworking, hlog, hsavepoints⟩ := hall.sessions id t ht
  exact ⟨hworking, hlog, hsavepoints⟩

inductive Holds (c : Cluster) : Store → Prop where
  | shared : Holds c c.shared
  | working {id : Nat} {t : Transaction} (h : c.session id = some t) : Holds c t.working
  | saved {id : Nat} {t : Transaction} (h : c.session id = some t) {saved : Store × Nat}
      (hsaved : saved ∈ t.savepoints) : Holds c saved.1

/-- After any run whose updates of a model assign no key column, and null to no required one, no
    store of the cluster has two documents of the model with the same key, or null in a required
    column: not the shared store, no private copy and no savepoint. -/
theorem stores_lawful (s : Schema) (requests : List Request)
    (h : ∀ r ∈ requests, ∀ a, r.action = .ok a → a.Respects s) {store : Store}
    (hstore : (after requests).Holds store) : store.Lawful s := by
  have hlawful := lawful_after h
  cases hstore with
  | shared => exact hlawful.shared
  | working hs => exact (hlawful.sessions _ _ hs).working
  | saved hs hsaved => exact (hlawful.sessions _ _ hs).savepoints _ hsaved

/-- Two items, of which an update renames one inside a transaction. -/
theorem stores_lawful_of_rename :
    let item : Schema := ⟨"Item", [.ofMarks "id" .int [.key, .auto], .plain "name" .text]⟩
    let named (name : String) : Record := .ofList [("name", .text name)]
    let requests : List Request := [⟨0, .ok (.create ⟨"c", [item]⟩)⟩,
      ⟨0, .ok (.add item [named "a", named "b"])⟩, ⟨0, .ok .begin⟩,
      ⟨0, .ok (.update ⟨item, some (FieldRef.test ⟨"Item", "id"⟩ .eq (.int 2)), []⟩ (named "c"))⟩,
      ⟨0, .ok .commit⟩]
    (∀ r ∈ requests, ∀ a, r.action = .ok a → a.Respects item) ∧
      (after requests).shared.Lawful item := by
  intro item named requests
  have hassigned : ∀ assigned, changes ⟨item, some (FieldRef.test ⟨"Item", "id"⟩ .eq (.int 2)), []⟩
      (named "c") = .ok assigned → assigned = [("name", .text "c")] := by
    intro assigned h
    cases h
    rfl
  have hrespects : ∀ r ∈ requests, ∀ a, r.action = .ok a → a.Respects item := by
    intro r hr a ha
    simp only [requests, List.mem_cons, List.not_mem_nil, or_false] at hr
    rcases hr with rfl | rfl | rfl | rfl | rfl <;> cases ha
    · trivial
    · exact fun _ => rfl
    · trivial
    · intro _ assigned h e he
      rw [hassigned assigned h] at he
      cases List.mem_singleton.1 he
      exact ⟨by decide, fun _ _ _ _ => rfl⟩
    · trivial
  exact ⟨hrespects, stores_lawful item requests hrespects .shared⟩

/-- An update gives two documents the same key, and another one puts null into a required
    column: nothing refuses them. -/
theorem update_breaks_rules :
    let item : Schema := ⟨"Item", [.ofMarks "id" .int [.key], .plain "name" .text]⟩
    let row (id : Int64) (name : String) : Record := .ofList [("id", .int id), ("name", .text name)]
    let store (values : List (String × Value)) : Store :=
      (after [⟨0, .ok (.create ⟨"c", [item]⟩)⟩, ⟨0, .ok (.add item [row 1 "a", row 2 "b"])⟩,
        ⟨0, .ok (.update ⟨item, none, []⟩ (.ofList values))⟩]).shared
    ¬ (store [("id", .int 1)]).Lawful item ∧ ¬ (store [("name", .null)]).Lawful item := by
  decide +kernel

end Cluster

end Memory

end ModelMapper
