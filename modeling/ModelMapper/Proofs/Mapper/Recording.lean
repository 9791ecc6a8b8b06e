import ModelMapper.Proofs.Backend.Observing
import ModelMapper.Proofs.Mapper.Operations

/-! # Scopes on an observed store

The operations in a scope, on a store in memory that logs the calls on it: which of them commit or
roll back, and how often.

* `Mapper.observed` — the mapper with a log that is still empty.
* `KeepsLevels` — no level is opened or ended, and no call has been made that would end one.
* `Work.keepsLevels` — reading and writing in a scope.
* `Mapper.begin_recorded`, `Mapper.endBy_recorded` — a scope that is opened or ended, with the one
  call to the backend.
* `Mapper.begin_database_recorded` — a scope on the database.
-/

namespace ModelMapper

open Memory (Cluster Works)
open Mapper (Open)

variable {σ : Type}

/-- The mapper on a store that is observed from now on. -/
def Mapper.observed (m : Mapper σ) : Mapper (Observed σ) := ⟨.start m.store, m.setup, m.scopes⟩

/-! ## Reading and writing -/

/-- No level of the session and no scope has been opened or ended, and none of the calls that
    were made commits or rolls back. -/
structure KeepsLevels (session : Nat) (m m' : Mapper (Observed Cluster)) : Prop where
  scopes : m'.scopes = m.scopes
  depth : m'.store.store.depth session = m.store.store.depth session
  faults : m'.store.faults = []
  log : ∃ made, m'.store.log = made ++ m.store.log ∧ ∀ e ∈ made, e.ends = false

namespace KeepsLevels

variable {session : Nat} {m m' m'' : Mapper (Observed Cluster)}

theorem refl (h : m.store.faults = []) : KeepsLevels session m m :=
  ⟨rfl, rfl, h, [], rfl, by simp⟩

theorem trans (h : KeepsLevels session m m') (h' : KeepsLevels session m' m'') :
    KeepsLevels session m m'' := by
  obtain ⟨made, hlog, hmade⟩ := h.log
  obtain ⟨more, hlog', hmore⟩ := h'.log
  refine ⟨h'.scopes.trans h.scopes, h'.depth.trans h.depth, h'.faults, more ++ made, ?_, ?_⟩
  · rw [hlog', hlog, List.append_assoc]
  · exact List.forall_mem_append.2 ⟨hmore, hmade⟩

end KeepsLevels

namespace Mapper

variable {session : Nat} {t : Traced (Mapper (Observed Cluster))}

theorem call_state (b : Backend σ) {a : Action} (ha : a ≠ .begin) (t : Traced (Mapper σ)) :
    (call b session a t).2 = (onStore (a.perform b session) t).2 :=
  congrArg Prod.snd (Covers.run_call (f := id) (bind_pure _).symm ha t)

theorem call_keepsLevels {a : Action} (ha : Works a) (hfaults : t.state.store.faults = [])
    (hdepth : 0 < t.state.store.store.depth session) :
    KeepsLevels session t.state (call Memory.backend.observed session a t).2.state := by
  have hbegin : a ≠ .begin := fun heq => by
    subst heq
    exact ha
  have hstep := Cluster.perform_step session a ⟨t.state.store.store, t.events⟩
  rw [call_state _ hbegin, run_onStore,
    a.perform_observed Memory.backend session (t := ⟨t.state.store, t.events⟩) hfaults]
  refine ⟨rfl, (hstep.own ha hdepth).2, rfl, a.entries, rfl, ?_⟩
  cases a <;> first
    | exact ha.elim
    | simp [Action.entries, LogEntry.ends]

theorem callAll_keepsLevels {calls : List Action} (hworks : ∀ a ∈ calls, Works a)
    (hfaults : t.state.store.faults = []) (hdepth : 0 < t.state.store.store.depth session) :
    KeepsLevels session t.state (callAll Memory.backend.observed session calls t).2.state := by
  induction calls generalizing t with
  | nil => exact .refl hfaults
  | cons a rest ih =>
    obtain ⟨ha, hrest⟩ := List.forall_mem_cons.1 hworks
    have hcall := call_keepsLevels ha hfaults hdepth
    rw [callAll, Call.run_bind]
    rcases hrun : call Memory.backend.observed session a t with ⟨outcome, next⟩
    rw [hrun] at hcall
    cases outcome with
    | error e => exact hcall
    | ok new => exact hcall.trans (ih hrest hcall.faults (hcall.depth.symm ▸ hdepth))

end Mapper

/-- Reading and writing in a scope leaves the levels of its session alone. -/
theorem Work.keepsLevels {w : Work} (hw : w.Gated) {k : Nat}
    {t : Traced (Mapper (Observed Cluster))} {sc : Scope} (hfaults : t.state.store.faults = [])
    (hk : t.state.scope? k = some sc) (hdepth : 0 < sc.depth) :
    KeepsLevels sc.session t.state (w.perform Memory.backend.observed k t).2.state := by
  rw [← (Work.perform_proceeds hw Memory.backend.observed k t).1]
  rcases Mapper.checkOpen_bind Memory.backend.observed k
      (fun sc => Mapper.callAll Memory.backend.observed sc.session w.calls) t with
    ⟨-, e, hrefused⟩ | ⟨sc', hopen, hrun⟩
  · rw [hrefused]
    exact .refl hfaults
  · cases hk.symm.trans hopen.scope
    rw [hrun]
    -- The gate has compared the depths, so the session is in a transaction.
    exact Mapper.callAll_keepsLevels w.calls_work hfaults
      (Nat.lt_of_lt_of_eq hdepth hopen.innermost.symm)

/-! ## The life of a scope -/

namespace Mapper

variable {k : Nat} {t : Traced (Mapper (Observed Cluster))}

/-- A nested scope is refused, or opened one deeper with one call to the backend. -/
theorem begin_recorded (hfaults : t.state.store.faults = []) :
    (∃ e t', begin Memory.backend.observed (.scope k) t = (.error e, t') ∧ t'.state = t.state) ∨
      ∃ sc t', Open Memory.backend.observed t.state k sc ∧
        begin Memory.backend.observed (.scope k) t = (.ok t.state.scopes.length, t') ∧
        t'.state = t.state.opening Memory.backend.observed sc.session
          ⟨t.state.store.store.begin sc.session, ⟨.begin, .nothing⟩ :: t.state.store.log, []⟩ := by
  refine (begin_nested Memory.backend.observed k t).imp id fun ⟨sc, hopen, hrun⟩ => ?_
  exact ⟨sc, _, hopen, hrun _ (Observed.run_call _ _ _ hfaults), rfl⟩

/-- A scope is ended at most once, with one call to the backend. -/
theorem endBy_recorded (kind : CallKind) (ask : Nat → Call Cluster Unit)
    (hfaults : t.state.store.faults = []) {sc : Scope}
    (hopen : Open Memory.backend.observed t.state k sc) :
    (endBy Memory.backend.observed (fun id => Observed.call kind .nothing (ask id)) k t).2.state =
      t.state.ending k ⟨(ask sc.session ⟨t.state.store.store, t.events⟩).2.state,
        ⟨kind, .nothing⟩ :: t.state.store.log, []⟩ := by
  rcases endBy_scope Memory.backend.observed
      (fun id => Observed.call kind .nothing (ask id)) k t with
    ⟨hclosed, -⟩ | ⟨sc', hopen', -, hstate⟩
  · exact absurd hopen (hclosed sc)
  · cases hopen.scope.symm.trans hopen'.scope
    rw [hstate, Observed.run_call kind .nothing _ (t := ⟨t.state.store, t.events⟩) hfaults]
    rfl

/-! ## On the database -/

/-- No fault is set, and no call has been made that commits or rolls back. -/
structure Unended (o : Observed Cluster) : Prop where
  faults : o.faults = []
  log : ∀ e ∈ o.log, e.ends = false

theorem create_recorded (models : Catalog) (s : Traced (Observed Cluster)) (h : Unended s.state) :
    ∃ s', Memory.backend.observed.create 0 models s = (.ok (), s') ∧ Unended s'.state := by
  obtain ⟨s', hcreated⟩ := backend_creates models ⟨s.state.store, s.events⟩
  show ∃ s', Observed.call _ _ (Memory.backend.create 0 models) s = (.ok (), s') ∧ _
  rw [Observed.run_call _ _ _ h.faults, hcreated]
  exact ⟨_, rfl, rfl, List.forall_mem_cons.2 ⟨rfl, h.log⟩⟩

/-- A scope on the database opens, and nothing has been committed or rolled back by then. -/
theorem begin_database_recorded (t : Traced (Mapper Cluster)) :
    ∃ tx session t₀,
      begin Memory.backend.observed .database ⟨t.state.observed, t.events⟩ = (.ok tx, t₀) ∧
        t₀.state.scope? tx = some ⟨session, 1, false⟩ ∧
        t₀.state.store.store.depth session = 1 ∧ Unended t₀.state.store := by
  obtain ⟨t', hensure, ht'⟩ := ensure_of_creates (b := Memory.backend.observed) create_recorded
    (t := ⟨t.state.observed, t.events⟩) ⟨rfl, List.forall_mem_nil _⟩
  let c := t'.state.store.store
  have hopened : (c.openSession.2.begin c.sessions.length).depth c.sessions.length = 1 := by
    rw [Cluster.depth, Cluster.session_begin_new c]
    rfl
  have hsession := Observed.run_call .session .nothing (Memory.backend.openSession 0)
    (t := ⟨t'.state.store, t'.events⟩) ht'.faults
  refine ⟨_, c.sessions.length, _,
    begin_on_database hensure hsession (Observed.run_call .begin .nothing _ rfl), ?_, hopened, rfl,
    List.forall_mem_cons.2 ⟨rfl, List.forall_mem_cons.2 ⟨rfl, ht'.log⟩⟩⟩
  rw [scope?_opening]
  exact congrArg (fun depth => some (Scope.mk _ depth _)) hopened

end Mapper

end ModelMapper
