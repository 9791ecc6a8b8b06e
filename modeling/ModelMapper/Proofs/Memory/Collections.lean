import ModelMapper.Proofs.Memory.Others
import ModelMapper.Proofs.Memory.Replay

/-! # Which collections there are

Only creating and dropping tables changes which collections a store has, and a transaction does so
for the others when it commits.

* `Store.Has` — a store has the collection of a table.
* `Change.leaves`, `Change.applyAll_leaves` — the tables that changes have dropped, and not
  created again.
* `Cluster.publishes`, `Cluster.carryOut_publishes` — the changes that a request makes to the shared
  store, as far as they matter to its collections.
-/

namespace ModelMapper.Memory

/-! ## Stores -/

/-- The store has a collection for the table. -/
def Store.Has (s : Store) (table : String) : Prop := (s.collection table).isOk = true

instance (s : Store) (table : String) : Decidable (s.Has table) :=
  inferInstanceAs (Decidable (_ = true))

namespace Store

variable {s after : Store} {table : String}

theorem has_iff : s.Has table ↔ (Entries.get? table s.collections).isSome = true := by
  unfold Has collection
  cases Entries.get? table s.collections with
  | none => exact iff_of_false Bool.false_ne_true Bool.false_ne_true
  | some documents => exact iff_of_true rfl rfl

theorem has_put (s : Store) (other : String) (documents : Documents) :
    (s.put other documents).Has table ↔ table = other ∨ s.Has table := by
  rw [has_iff, has_iff, put, Entries.get?_put]
  by_cases h : table = other
  · simp [h]
  · simp [h]

theorem has_create (s : Store) (tables : List String) :
    (s.create tables).Has table ↔ table ∈ tables ∨ s.Has table := by
  unfold create
  induction tables generalizing s with
  | nil => simp
  | cons first rest ih =>
    rw [List.foldl_cons, ih, List.mem_cons]
    split
    · -- It is there already.
      next hfirst =>
      have hhas : s.Has first := has_iff.2 hfirst
      refine ⟨fun h => h.elim (fun h => .inl (.inr h)) .inr, ?_⟩
      rintro ((rfl | h) | h)
      · exact .inr hhas
      · exact .inl h
      · exact .inr h
    · rw [has_put]
      tauto

theorem has_drop (s : Store) (tables : List String) :
    (s.drop tables).Has table ↔ table ∉ tables ∧ s.Has table := by
  unfold drop
  induction tables generalizing s with
  | nil => simp
  | cons first rest ih =>
    rw [List.foldl_cons, ih, has_iff, has_iff, Entries.get?_erase, List.mem_cons]
    by_cases h : table = first
    · simp [h]
    · simp [h]

/-- The collections are the same. -/
def SameTables (s after : Store) : Prop := ∀ table, after.Has table ↔ s.Has table

theorem sameTables_put {documents new : Documents} (h : s.collection table = .ok documents) :
    s.SameTables (s.put table new) := by
  have hhas : s.Has table := by
    rw [Has, h]
    rfl
  intro other
  rw [has_put]
  refine ⟨fun h => h.elim (fun h => h ▸ hhas) id, .inr⟩

end Store

/-! ## Changes -/

namespace Change

variable {s after : Store}

/-- The change is to documents. -/
def OfDocuments : Change → Prop
  | .insert _ _ | .update _ _ _ | .delete _ _ => True
  | .create _ | .drop _ => False

/-- Only a collection that is there can be written to. -/
theorem sameTables_apply {change : Change} (h : change.OfDocuments)
    (happly : apply s change = .ok after) : s.SameTables after := by
  cases change with
  | insert schema documents =>
    obtain ⟨⟨⟨stored, last⟩, after⟩, hinsert, hafter⟩ := Result.map_eq_ok.1 happly
    cases hafter
    obtain ⟨existing, all, hexisting, -, rfl⟩ := Store.insert_eq_ok.1 hinsert
    exact Store.sameTables_put hexisting
  | update table filter assigned =>
    obtain ⟨⟨n, after⟩, hupdate, hafter⟩ := Result.map_eq_ok.1 happly
    cases hafter
    obtain ⟨existing, hexisting, hrest⟩ := Result.bind_eq_ok.1 hupdate
    obtain ⟨_, -, hput⟩ := Result.bind_eq_ok.1 hrest
    cases hput
    exact Store.sameTables_put hexisting
  | delete table filter =>
    obtain ⟨⟨n, after⟩, hdelete, hafter⟩ := Result.map_eq_ok.1 happly
    cases hafter
    obtain ⟨existing, hexisting, hrest⟩ := Result.bind_eq_ok.1 hdelete
    obtain ⟨_, -, hput⟩ := Result.bind_eq_ok.1 hrest
    cases hput
    exact Store.sameTables_put hexisting
  | create | drop => exact h.elim

/-- The tables that are gone after a change. -/
def leaves (gone : List String) : Change → List String
  | .drop tables => gone ++ tables
  | .create tables => gone.filter fun table => table ∉ tables
  | .insert _ _ | .update _ _ _ | .delete _ _ => gone

variable {table : String} {gone : List String}

/-- What is not gone is there after a change, if it was there before. -/
theorem apply_leaves {change : Change} (happly : apply s change = .ok after)
    (h : table ∈ gone ∨ s.Has table) : table ∈ leaves gone change ∨ after.Has table := by
  cases change with
  | create tables =>
    cases happly
    rw [leaves, List.mem_filter, Store.has_create]
    by_cases hmem : table ∈ tables
    · exact .inr (.inl hmem)
    · exact h.imp (fun h => ⟨h, decide_eq_true hmem⟩) .inr
  | drop tables =>
    cases happly
    rw [leaves, List.mem_append, Store.has_drop]
    by_cases hmem : table ∈ tables
    · exact .inl (.inr hmem)
    · exact h.imp .inl fun h => ⟨hmem, h⟩
  | insert | update | delete =>
    exact h.imp_right (sameTables_apply (by exact trivial) happly table).2

theorem applyAll_leaves {changes : List Change} (happly : applyAll s changes = .ok after)
    (h : table ∈ gone ∨ s.Has table) : table ∈ changes.foldl leaves gone ∨ after.Has table := by
  induction changes generalizing s gone with
  | nil =>
    cases happly
    exact h
  | cons change rest ih =>
    obtain ⟨next, hfirst, hrest⟩ := Result.bind_eq_ok.1 happly
    exact ih hrest (apply_leaves hfirst h)

end Change

/-! ## Clusters -/

namespace Cluster

variable {c : Cluster} {id : Nat}

/-- The changes to its tables that a request makes to the shared store. -/
def publishes (c : Cluster) (r : Request) : List Change :=
  match r.action, c.session r.session with
  | .ok (.create models), none => [.create (tables models)]
  | .ok (.drop models), none => [.drop (tables models)]
  | .ok .commit, some ⟨_, log, []⟩ => if (Change.applyAll c.shared log).isOk then log else []
  | _, _ => []

theorem create_outside (hs : c.session id = none) (models : Catalog) :
    c.create id models = (.ok (), { c with shared := c.shared.create (tables models) }) := by
  rw [create, write, hs]

theorem drop_outside (hs : c.session id = none) (models : Catalog) :
    c.drop id models = (.ok (), { c with shared := c.shared.drop (tables models) }) := by
  rw [drop, write, hs]

/-- The action is to documents, to scopes or to sessions. -/
def SparesTables : Action → Prop
  | .create _ | .drop _ | .commit => False
  | _ => True

theorem sameTables_step {a : Action} {c' : Cluster} (h : Step id a c c') (ha : SparesTables a) :
    c.shared.SameTables c'.shared := by
  cases h with
  | published numbers hs hnotes happly =>
    refine Change.sameTables_apply ?_ happly
    cases hnotes with
    | create | drop => exact ha.elim
    | _ => trivial
  | merged hcommit =>
    subst hcommit
    exact ha.elim
  | _ => exact fun _ => Iff.rfl

theorem commit_publishes {table : String} {gone : List String} (id : Nat)
    (h : table ∈ gone ∨ c.shared.Has table) :
    table ∈ (c.publishes ⟨id, .ok .commit⟩).foldl Change.leaves gone ∨
      (c.commit id).2.shared.Has table := by
  rcases hs : c.session id with - | ⟨working, log, savepoints⟩
  · rw [publishes, hs, commit, hs]
    exact h
  · cases savepoints with
    | cons saved outer =>
      rw [publishes, hs, commit, hs]
      exact h
    | nil =>
      rw [publishes, hs]
      dsimp only
      cases happly : Change.applyAll c.shared log with
      | error e =>
        rw [commit_conflicting hs rfl happly]
        exact h
      | ok store =>
        rw [commit_outermost hs rfl happly]
        exact Change.applyAll_leaves happly h

/-- What is not gone is there after a request, if it was there before. -/
theorem carryOut_publishes {table : String} {gone : List String} (r : Request) (t : Traced Cluster)
    (h : table ∈ gone ∨ t.state.shared.Has table) :
    table ∈ (t.state.publishes r).foldl Change.leaves gone ∨
      (r.carryOut backend t).2.state.shared.Has table := by
  obtain ⟨session, action⟩ := r
  cases action with
  | error e =>
    rw [carryOut_refused rfl]
    exact h
  | ok a =>
    have hstep := perform_step session a t
    rw [carryOut_eq rfl]
    rw [perform_state] at hstep ⊢
    cases a with
    | create models =>
      cases hs : t.state.session session with
      | none =>
        rw [publishes, hs, effect, create_outside hs]
        exact Change.applyAll_leaves rfl h
      | some tx =>
        rw [publishes, hs, effect, create, write, hs]
        exact h
    | drop models =>
      cases hs : t.state.session session with
      | none =>
        rw [publishes, hs, effect, drop_outside hs]
        exact Change.applyAll_leaves rfl h
      | some tx =>
        rw [publishes, hs, effect, drop, write, hs]
        exact h
    | commit => exact commit_publishes session h
    | _ => exact h.imp_right (sameTables_step hstep (by exact trivial) table).2

end Cluster

end ModelMapper.Memory
