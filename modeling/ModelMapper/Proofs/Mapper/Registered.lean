import ModelMapper.Proofs.Mapper.Operations
import ModelMapper.Proofs.Memory.Collections

/-! # Registered models

Setup runs once: the first operation on the database creates the tables of the models that are
registered then.  Models that are registered later get no tables of their own.

* `EntryPoint` — the operations on the database that let setup pass first.
* `Mapper.Entering`, `EntryPoint.perform_enters` — what they do after it.
* `Mapper.ensure_outside`, `Mapper.useModels_outside`, `Mapper.removeModels_outside` — what is set
  up and dropped.
* `Registry`, `Registry.play` — a run, with the tables that were removed or came late.
* `Registry.Sound` — what every step keeps.
* `Registry.registered_set_up` — the tables that are there once setup has passed.
-/

namespace ModelMapper

open Memory (Cluster)

variable {σ α β : Type}

/-! ## The database's own session -/

namespace Memory.Cluster

/-- The session of the database is there and in no transaction. -/
structure Outside (c : Cluster) : Prop where
  known : 0 < c.sessions.length
  outside : c.session 0 = none

variable {c c' : Cluster} {id : Nat} {a : Action}

/-- No session is forgotten. -/
theorem Step.length_le (h : Step id a c c') : c.sessions.length ≤ c'.sessions.length := by
  cases h with
  | still | published => exact Nat.le_refl _
  | joined => exact Nat.le_of_lt (by simp [openSession])
  | _ => simp [setSession]

/-- Work on documents opens no transaction. -/
theorem Step.outside (h : Step 0 a c c') (ha : Works a) (hout : c.Outside) : c'.Outside := by
  refine ⟨Nat.lt_of_lt_of_le hout.known h.length_le, ?_⟩
  have hs := hout.outside
  cases h with
  | still | published => exact hs
  | noted _ hsome => cases hs.symm.trans hsome
  | opened hscope | nested hscope | released hscope | merged hscope | undone hscope =>
    subst hscope
    exact ha.elim
  | ended => exact session_setSession_none c 0
  | joined => exact (session_openSession c 0).trans hs

/-- Other sessions leave it as it is. -/
theorem Step.outside_of_ne (h : Step id a c c') (hne : id ≠ 0) (hout : c.Outside) : c'.Outside :=
  ⟨Nat.lt_of_lt_of_le hout.known h.length_le, (h.session_of_ne hne).trans hout.outside⟩

end Memory.Cluster

/-! ## Operations on the database -/

/-- An operation on the database that lets setup pass first. -/
inductive EntryPoint where
  | add {M : Type} (m : Model M) (models : List M)
  | first {M : Type} (m : Model M) (q : Result Query)
  | one {M : Type} (m : Model M) (q : Result Query)
  | count (q : Result Query)
  | update (q : Result Query) (values : Record)
  | delete (q : Result Query)
  | all (q : Result Query)
  | begin

/-- The operation, with no regard to its answer. -/
def EntryPoint.perform (b : Backend σ) : EntryPoint → Op (Mapper σ) Unit
  | add m models => discard (Mapper.add b m .database models)
  | first m q => discard (Search.first b m ⟨.database, q⟩)
  | one m q => discard (Search.one b m ⟨.database, q⟩)
  | count q => discard (Search.count b ⟨.database, q⟩)
  | update q values => discard (Search.update b ⟨.database, q⟩ values)
  | delete q => discard (Search.delete b ⟨.database, q⟩)
  | all q => discard (Search.all b ⟨.database, q⟩)
  | begin => discard (Mapper.begin b .database)

namespace Mapper

/-- No setting has changed, and no table of the shared store has come or gone. -/
structure Spared (m m' : Mapper Cluster) : Prop where
  setup : m'.setup = m.setup
  outside : m'.store.Outside
  tables : m.store.shared.SameTables m'.store.shared

theorem Spared.trans {m m' m'' : Mapper Cluster} (h : Spared m m') (h' : Spared m' m'') :
    Spared m m'' :=
  ⟨h'.setup.trans h.setup, h'.outside, fun table => (h'.tables table).trans (h.tables table)⟩

/-- While the session of the database is in no transaction, the call spares settings and
    tables. -/
def Spares (c : Call (Mapper Cluster) α) : Prop :=
  ∀ t, t.state.store.Outside → Spared t.state (c t).2.state

namespace Spares

theorem of_state {c : Call (Mapper Cluster) α} (h : ∀ t, (c t).2.state = t.state) : Spares c :=
  fun t hout => (h t).symm ▸ ⟨rfl, hout, fun _ => Iff.rfl⟩

theorem pure (a : α) : Spares (Pure.pure a) := of_state fun _ => rfl

theorem ofResult (r : Result α) : Spares (Call.ofResult r) :=
  of_state fun t => by rw [Call.state_ofResult]

theorem bind {c : Call (Mapper Cluster) α} {f : α → Call (Mapper Cluster) β} (h : Spares c)
    (hrest : ∀ a, Spares (f a)) : Spares (c >>= f) := by
  intro t hout
  have hfirst := h t hout
  rw [Call.run_bind]
  rcases hc : c t with ⟨outcome, next⟩
  rw [hc] at hfirst
  cases outcome with
  | error e => exact hfirst
  | ok a => exact hfirst.trans (hrest a next hfirst.outside)

/-- An action of the backend that reads and writes documents. -/
theorem onStore {c : Call Cluster α} {f : α → Yield} {a : Action}
    (hperform : a.perform Memory.backend 0 = c >>= fun x => Pure.pure (f x))
    (ha : Memory.Works a) (htables : Cluster.SparesTables a) : Spares (onStore c) := by
  intro t hout
  have hstep := Memory.Cluster.perform_step 0 a ⟨t.state.store, t.events⟩
  rw [hperform, Call.state_answering] at hstep
  exact ⟨rfl, hstep.outside ha hout, Cluster.sameTables_step hstep htables⟩

/-- A session of its own, and a scope on it. -/
theorem begin : Spares (do
    let session ← Mapper.onStore (Memory.backend.openSession 0)
    Mapper.onStore (Memory.backend.begin session)
    addScope Memory.backend session) := by
  intro t hout
  let c := t.state.store
  have hopened : Cluster.Step 1 .openSession c c.openSession.2 := .joined rfl
  have hbegun := Cluster.begin_step c.openSession.2 c.sessions.length
  have houtside := hopened.outside_of_ne Nat.one_ne_zero hout
  have htables := Cluster.sameTables_step hbegun (by exact trivial)
  exact ⟨rfl, hbegun.outside_of_ne (Nat.ne_of_gt hout.known) houtside, htables⟩

end Spares

/-- The call lets setup pass first and then spares settings and tables. -/
def Entering (c : Call (Mapper Cluster) α) : Prop :=
  ∃ rest : Call (Mapper Cluster) α, Spares rest ∧ c = ensure Memory.backend >>= fun _ => rest

namespace Entering

theorem enter {rest : Nat → Call (Mapper Cluster) α} (h : Spares (rest 0)) :
    Entering (Mapper.enter Memory.backend .database >>= rest) :=
  ⟨rest 0, h, by simp only [Mapper.enter, bind_assoc, pure_bind]⟩

theorem ready {q : Result Query} {rest : Nat × Query → Call (Mapper Cluster) α}
    (h : ∀ found, Spares (rest (0, found))) :
    Entering (Search.ready Memory.backend ⟨.database, q⟩ >>= rest) := by
  refine ⟨Call.ofResult q >>= fun found => rest (0, found), .bind (.ofResult q) h, ?_⟩
  simp only [Search.ready, Mapper.enter, bind_assoc, pure_bind]

theorem bind {c : Call (Mapper Cluster) α} {f : α → Call (Mapper Cluster) β} (h : Entering c)
    (hrest : ∀ a, Spares (f a)) : Entering (c >>= f) := by
  obtain ⟨rest, hspares, rfl⟩ := h
  exact ⟨rest >>= f, hspares.bind hrest, bind_assoc ..⟩

theorem fetchFirst {M : Type} (m : Model M) (q : Result Query) :
    Entering (Search.fetchFirst Memory.backend m ⟨.database, q⟩) := by
  refine .ready fun found => ?_
  refine .bind (.onStore (a := .fetch (found.batch 0 1)) rfl trivial trivial) fun records => ?_
  cases records with
  | nil => exact .pure none
  | cons r rest => exact .bind (.ofResult _) fun a => .pure (some a)

end Entering

/-- What a call that lets setup pass first leaves behind. -/
theorem Entering.guarded {c : Call (Mapper Cluster) α} (h : Entering c)
    {t t' : Traced (Mapper Cluster)} (hensure : ensure Memory.backend t = (.ok (), t'))
    (hout : t'.state.store.Outside) : Spared t'.state (discard c.guarded t).2.state := by
  obtain ⟨rest, hspares, rfl⟩ := h
  rw [run_discard, Call.state_guarded, Call.run_bind, hensure]
  exact hspares t' hout

end Mapper

open Mapper (Spares Entering Spared)

/-- Every operation on the database lets setup pass and then spares settings and tables. -/
theorem EntryPoint.perform_enters (e : EntryPoint) {t t' : Traced (Mapper Cluster)}
    (hensure : Mapper.ensure Memory.backend t = (.ok (), t')) (hout : t'.state.store.Outside) :
    Spared t'.state (e.perform Memory.backend t).2.state := by
  cases e with
  | add m models =>
    refine Entering.guarded (.enter ?_) hensure hout
    exact .bind (.onStore (a := .add m.schema (models.map m.toRecord)) rfl trivial trivial) fun _ =>
      .ofResult _
  | first m q => exact (Entering.fetchFirst m q).guarded hensure hout
  | one m q =>
    refine ((Entering.fetchFirst m q).bind fun found => ?_).guarded hensure hout
    cases found with
    | none => exact .of_state fun _ => rfl
    | some a => exact .pure a
  | count q =>
    refine Entering.guarded (.ready fun found => ?_) hensure hout
    exact .onStore (a := .count found) rfl trivial trivial
  | update q values =>
    refine Entering.guarded (.ready fun found => ?_) hensure hout
    exact .onStore (a := .update found values) rfl trivial trivial
  | delete q =>
    refine Entering.guarded (.ready fun found => ?_) hensure hout
    exact .onStore (a := .delete found) rfl trivial trivial
  | all q =>
    refine Entering.guarded (.ready fun found => .of_state fun t => ?_) hensure hout
    exact congrArg (fun c => { t.state with store := c })
      (Work.fill_state _ ⟨t.state.store, t.events⟩)
  | begin => exact Entering.guarded (.enter .begin) hensure hout

/-! ## Setup -/

namespace Mapper

/-- The mapper with another shared store. -/
def withShared (m : Mapper Cluster) (shared : Memory.Store) : Mapper Cluster :=
  { m with store := { m.store with shared := shared } }

theorem outside_withShared {m : Mapper Cluster} (h : m.store.Outside) (shared : Memory.Store) :
    (m.withShared shared).store.Outside := ⟨h.known, h.outside⟩

variable {t : Traced (Mapper Cluster)}

theorem onStore_create (hs : t.state.store.session 0 = none) (models : Catalog) :
    onStore (Memory.backend.create 0 models) t = (.ok (),
      ⟨t.state.withShared (t.state.store.shared.create (Cluster.tables models)),
        Memory.Report.create models :: t.events⟩) := by
  have hrun : Memory.backend.create 0 models ⟨t.state.store, t.events⟩ =
      Call.step (fun c : Cluster => c.create 0 models)
        ⟨t.state.store, Memory.Report.create models :: t.events⟩ := rfl
  rw [onStore, Call.within, hrun, Call.run_step, Cluster.create_outside hs]
  rfl

theorem onStore_drop (hs : t.state.store.session 0 = none) (models : Catalog) :
    onStore (Memory.backend.drop 0 models) t = (.ok (),
      ⟨t.state.withShared (t.state.store.shared.drop (Cluster.tables models)), t.events⟩) := by
  have hrun : Memory.backend.drop 0 models ⟨t.state.store, t.events⟩ =
      Call.step (fun c : Cluster => c.drop 0 models) ⟨t.state.store, t.events⟩ := rfl
  rw [onStore, Call.within, hrun, Call.run_step, Cluster.drop_outside hs]
  rfl

theorem createRegistered_outside (hs : t.state.store.session 0 = none) (models : Catalog) :
    ∃ events, createRegistered Memory.backend models t = (.ok (),
      ⟨t.state.withShared (t.state.store.shared.create (Cluster.tables models)), events⟩) := by
  have hcreate := onStore_create (t := ⟨t.state, Report.creating models :: t.events⟩) hs models
  rw [createRegistered, Call.run_bind, Call.run_emit]
  dsimp only
  rw [Call.run_bind, Call.attempt, hcreate]
  exact ⟨_, rfl⟩

/-- What setup leaves behind, where it is turned on.  It has run then, and if it had not run before,
    all models that are registered have their tables. -/
theorem ensure_outside (hout : t.state.store.Outside) (himplicit : t.state.setup.implicit = true) :
    ∃ t', ensure Memory.backend t = (.ok (), t') ∧ t'.state.store.Outside ∧
      t'.state.setup = { t.state.setup with done := true } ∧
      (∀ table, t.state.store.shared.Has table → t'.state.store.shared.Has table) ∧
      (t.state.setup.done = false →
        ∀ s ∈ t.state.setup.models.models, t'.state.store.shared.Has s.table) := by
  rw [ensure, Call.run_state, himplicit]
  cases hdone : t.state.setup.done with
  | true =>
    refine ⟨t, rfl, hout, ?_, fun _ => id, fun hran => ?_⟩
    · rw [← hdone]
    · cases hran
  | false =>
    cases hempty : t.state.setup.models.isEmpty with
    | true =>
      have hnone : t.state.setup.models.models = [] := List.isEmpty_iff.1 hempty
      refine ⟨_, rfl, hout, rfl, fun _ => id, fun _ s hs => ?_⟩
      rw [hnone] at hs
      cases hs
    | false =>
      obtain ⟨events, hcreated⟩ := createRegistered_outside hout.outside t.state.setup.models
      have hrun : (createRegistered Memory.backend t.state.setup.models >>= fun _ =>
          modifySetup fun s => { s with done := true }) t =
            modifySetup (fun s => { s with done := true })
              ⟨t.state.withShared
                (t.state.store.shared.create (Cluster.tables t.state.setup.models)), events⟩ := by
        rw [Call.run_bind, hcreated]
      refine ⟨_, hrun, outside_withShared hout _, rfl, fun table h => ?_, fun _ s hs => ?_⟩
      · exact (Memory.Store.has_create _ _).2 (.inr h)
      · exact (Memory.Store.has_create _ _).2 (.inl (List.mem_map_of_mem hs))

/-- The models get new tables, and they are the registered ones. -/
theorem useModels_outside (hs : t.state.store.session 0 = none) (models : Catalog) :
    (useModels Memory.backend models t).2.state =
      { t.state.withShared ((t.state.store.shared.drop (Cluster.tables models)).create
          (Cluster.tables models)) with setup := t.state.setup.use models } := by
  let events := Report.setup "resetting" models "" :: t.events
  have hdrop := onStore_drop (t := ⟨t.state, events⟩) hs models
  have hcreate := onStore_create
    (t := ⟨t.state.withShared (t.state.store.shared.drop (Cluster.tables models)), events⟩) hs
    models
  rw [useModels, Call.state_guarded, Call.run_bind, Call.run_emit]
  dsimp only
  rw [Call.run_bind, hdrop]
  dsimp only
  rw [Call.run_bind, hcreate]
  rfl

theorem removeModels_outside (hs : t.state.store.session 0 = none) (models : Catalog) :
    (removeModels Memory.backend models t).2.state =
      { t.state.withShared (t.state.store.shared.drop (Cluster.tables models)) with
        setup := t.state.setup.forget models } := by
  have hdrop := onStore_drop
    (t := ⟨t.state, Report.setup "removing" models "" :: t.events⟩) hs models
  rw [removeModels, Call.state_guarded, Call.run_bind, Call.run_emit]
  dsimp only
  rw [Call.run_bind, hdrop]
  rfl

end Mapper

/-! ## Runs -/

/-- A database with what has become of its tables. -/
structure Registry where
  now : Traced (Mapper Cluster)
  /-- The tables that were dropped since their models were registered. -/
  removed : List String
  /-- The tables that were missing when their models were registered after setup had run. -/
  late : List String

namespace Registry

/-- Something that happens: a call on the database or one clone of it, or a request of another
    session. -/
inductive Step where
  | withModels (models : Catalog)
  | useModels (models : Catalog)
  | removeModels (models : Catalog)
  | enter (e : EntryPoint)
  | elsewhere (r : Request)

def start (events : List Event) : Registry := ⟨⟨Mapper.start .start, events⟩, [], []⟩

def play (w : Registry) : Step → Registry
  | .withModels models =>
    { now := (Mapper.register models w.now).2
      removed := []
      late := if w.now.state.setup.done then
          (Cluster.tables models).filter fun table => ¬w.now.state.store.shared.Has table
        else [] }
  | .useModels models => ⟨(Mapper.useModels Memory.backend models w.now).2, [], []⟩
  | .removeModels models =>
    { w with
      now := (Mapper.removeModels Memory.backend models w.now).2
      removed := w.removed ++ Cluster.tables models }
  | .enter e => { w with now := (e.perform Memory.backend w.now).2 }
  | .elsewhere r =>
    if r.session = 0 then w
    else
      { w with
        now := (Mapper.onStore (r.carryOut Memory.backend) w.now).2
        removed := (w.now.state.store.publishes r).foldl Memory.Change.leaves w.removed }

/-- Once setup has run, every registered model has its table, or the table was removed or came
    late. -/
structure Sound (w : Registry) : Prop where
  outside : w.now.state.store.Outside
  implicit : w.now.state.setup.implicit = true
  tables : w.now.state.setup.done = true → ∀ s ∈ w.now.state.setup.models.models,
    s.table ∈ w.late ∨ s.table ∈ w.removed ∨ w.now.state.store.shared.Has s.table

variable {w : Registry}

theorem sound_start (events : List Event) : (start events).Sound :=
  ⟨⟨Nat.zero_lt_one, rfl⟩, rfl, nofun⟩

theorem Sound.withModels (h : w.Sound) (models : Catalog) :
    (w.play (.withModels models)).Sound := by
  refine ⟨h.outside, h.implicit, fun hdone s hs => ?_⟩
  have hdone : w.now.state.setup.done = true := hdone
  by_cases hhas : w.now.state.store.shared.Has s.table
  · exact .inr (.inr hhas)
  · refine .inl ?_
    rw [play, if_pos hdone]
    exact List.mem_filter.2 ⟨List.mem_map_of_mem hs, decide_eq_true hhas⟩

theorem Sound.useModels (h : w.Sound) (models : Catalog) : (w.play (.useModels models)).Sound := by
  have hstate := Mapper.useModels_outside h.outside.outside models
  refine ⟨?_, ?_, fun _ s hs => .inr (.inr ?_)⟩ <;> dsimp only [play] at *
  · rw [hstate]
    exact Mapper.outside_withShared h.outside _
  · rw [hstate]
    exact h.implicit
  · rw [hstate] at hs ⊢
    exact (Memory.Store.has_create _ _).2 (.inl (List.mem_map_of_mem hs))

theorem Sound.removeModels (h : w.Sound) (models : Catalog) :
    (w.play (.removeModels models)).Sound := by
  have hstate := Mapper.removeModels_outside h.outside.outside models
  -- At most, no model is registered any more.
  obtain ⟨hdone, himplicit, hmodels⟩ : (w.now.state.setup.forget models).done =
      w.now.state.setup.done ∧ (w.now.state.setup.forget models).implicit =
      w.now.state.setup.implicit ∧ (w.now.state.setup.forget models).models.models ⊆
      w.now.state.setup.models.models := by
    rw [Setup.forget]
    split
    · exact ⟨rfl, rfl, List.nil_subset _⟩
    · exact ⟨rfl, rfl, fun _ => id⟩
  refine ⟨?_, ?_, fun hran s hs => ?_⟩ <;> dsimp only [play] at *
  · rw [hstate]
    exact Mapper.outside_withShared h.outside _
  · rw [hstate]
    exact himplicit.trans h.implicit
  · rw [hstate] at hran hs ⊢
    refine (h.tables (hdone.symm.trans hran) s (hmodels hs)).imp_right fun htable => ?_
    have hdrop : Memory.Change.apply w.now.state.store.shared (.drop (Cluster.tables models)) =
        .ok (w.now.state.store.shared.drop (Cluster.tables models)) := rfl
    exact Memory.Change.apply_leaves hdrop htable

/-- What setup leaves behind in a run. -/
theorem Sound.ensured (h : w.Sound) :
    ∃ t, Mapper.ensure Memory.backend w.now = (.ok (), t) ∧ t.state.store.Outside ∧
      t.state.setup = { w.now.state.setup with done := true } ∧
      ∀ s ∈ w.now.state.setup.models.models,
        (w.now.state.setup.done = true ∧ (s.table ∈ w.late ∨ s.table ∈ w.removed)) ∨
          t.state.store.shared.Has s.table := by
  obtain ⟨t, hensure, hout, hsetup, hkept, hnew⟩ := Mapper.ensure_outside h.outside h.implicit
  refine ⟨t, hensure, hout, hsetup, fun s hs => ?_⟩
  cases hdone : w.now.state.setup.done with
  | true =>
    rcases h.tables hdone s hs with hlate | hremoved | hhas
    · exact .inl ⟨rfl, .inl hlate⟩
    · exact .inl ⟨rfl, .inr hremoved⟩
    · exact .inr (hkept _ hhas)
  | false => exact .inr (hnew hdone s hs)

theorem Sound.enter (h : w.Sound) (e : EntryPoint) : (w.play (.enter e)).Sound := by
  obtain ⟨t, hensure, hout, hsetup, htables⟩ := h.ensured
  have hspared := e.perform_enters hensure hout
  have hafter := hspared.setup.trans hsetup
  refine ⟨hspared.outside, ?_, fun _ s hs => ?_⟩ <;> dsimp only [play] at *
  · rw [hafter]
    exact h.implicit
  · rw [hafter] at hs
    rcases htables s hs with ⟨-, hlate | hremoved⟩ | hhas
    · exact .inl hlate
    · exact .inr (.inl hremoved)
    · exact .inr (.inr ((hspared.tables _).2 hhas))

theorem Sound.elsewhere (h : w.Sound) (r : Request) : (w.play (.elsewhere r)).Sound := by
  rw [play]
  split
  · exact h
  · next hother =>
    let before : Traced Cluster := ⟨w.now.state.store, w.now.events⟩
    have hout : (r.carryOut Memory.backend before).2.state.Outside := by
      cases ha : r.action with
      | error e =>
        rw [Cluster.carryOut_refused ha]
        exact h.outside
      | ok a => exact (Cluster.carryOut_step ha before).outside_of_ne hother h.outside
    refine ⟨hout, h.implicit, fun hdone s hs => ?_⟩
    exact (h.tables hdone s hs).imp_right (Cluster.carryOut_publishes r before)

theorem Sound.play (h : w.Sound) (s : Step) : (w.play s).Sound := by
  cases s with
  | withModels models => exact h.withModels models
  | useModels models => exact h.useModels models
  | removeModels models => exact h.removeModels models
  | enter e => exact h.enter e
  | elsewhere r => exact h.elsewhere r

theorem Sound.steps (h : w.Sound) (steps : List Step) : (steps.foldl Registry.play w).Sound := by
  induction steps generalizing w with
  | nil => exact h
  | cons s rest ih => exact ih (h.play s)

/-- Whatever is called on a database and its clones, and whatever other sessions ask for: setup
    passes, and then every registered model has its table.  Only if setup had run before can it be
    missing, and only if it was dropped since the model was registered, or was missing when the
    model was registered.  What an operation does after setup leaves the models and the tables of
    the shared store as they are. -/
theorem registered_set_up (events : List Event) (steps : List Step) :
    let w := steps.foldl play (start events)
    ∃ t, Mapper.ensure Memory.backend w.now = (.ok (), t) ∧
      t.state.setup = { w.now.state.setup with done := true } ∧
      (∀ s ∈ t.state.setup.models.models, t.state.store.shared.Has s.table ∨
        w.now.state.setup.done = true ∧ (s.table ∈ w.late ∨ s.table ∈ w.removed)) ∧
      ∀ e : EntryPoint, Spared t.state (e.perform Memory.backend w.now).2.state := by
  intro w
  obtain ⟨t, hensure, hout, hsetup, htables⟩ := ((sound_start events).steps steps).ensured
  refine ⟨t, hensure, hsetup, fun s hs => ?_, fun e => e.perform_enters hensure hout⟩
  rw [hsetup] at hs
  exact (htables s hs).symm

/-- Setup has run before the models are registered: because something was counted when there were
    none, or for other models that were registered first.  Then the next operation finds that the
    model is registered and has no table, and nothing has removed it. -/
theorem registered_without_table :
    let item : Schema := ⟨"Item", [.ofMarks "id" .int [.key, .auto]]⟩
    let note : Schema := ⟨"Note", [.ofMarks "id" .int [.key, .auto]]⟩
    let count : Step := .enter (.count (.ok ⟨item, none, []⟩))
    ∀ steps ∈ [[count, .withModels ⟨"c", [item]⟩],
        [.withModels ⟨"n", [note]⟩, count, .withModels ⟨"c", [item]⟩]],
      let w := steps.foldl play (start [])
      let after := (Mapper.ensure Memory.backend w.now).2.state
      after.setup.models.models = [item] ∧ w.removed = [] ∧
        ¬after.store.shared.Has item.table := by
  decide +kernel

end Registry

end ModelMapper
