import ModelMapper.Proofs.Memory.Fidelity

/-! # Nested scopes

A scope that is opened in a transaction and rolled back leaves the transaction as it was, and one
that is committed leaves what its actions would have left without it.

Two facts carry this over runs of any nesting.  A run that closes what it opens never reaches the
savepoints that were there before it: with others in their place it does the same
(`Beside.perform`).  And no rollback inside it cuts the log down below the length it had at the
beginning (`Rests.perform`).

* `Action.scopesAfter`, `Balanced` — runs that close the scopes they open, and no others.
* `Beside` — two clusters that differ in the outer savepoints of a session.
* `Rests` — a transaction that still has everything that was in it at some point.
* `Cluster.nested_scopes` — what scopes with a run in them leave behind.
-/

namespace ModelMapper

/-! ## Balanced runs -/

/-- How many of its scopes a run has open after an action, if it goes on: it ends no scope that
    it has not opened. -/
def Action.scopesAfter (opened : Nat) : Action → Option Nat
  | .begin => some (opened + 1)
  | .commit | .rollback => if opened = 0 then none else some (opened - 1)
  | .close => none
  | _ => some opened

namespace Memory

/-- Every scope that is opened in the run is ended in it, and no other. -/
def Balanced (run : List Action) : Prop := run.foldlM Action.scopesAfter 0 = some 0

/-- Actions of one session, one after the other. -/
def onSession (id : Nat) (run : List Action) : List Request := run.map fun a => ⟨id, .ok a⟩

theorem foldlM_scopesAfter {run : List Action} {n m : Nat} (k : Nat)
    (h : run.foldlM Action.scopesAfter n = some m) :
    run.foldlM Action.scopesAfter (n + k) = some (m + k) := by
  induction run generalizing n with
  | nil =>
    cases h
    rfl
  | cons a rest ih =>
    rw [List.foldlM_cons] at h ⊢
    obtain ⟨next, hnext, hrest⟩ := Option.bind_eq_some_iff.1 h
    -- With more scopes around it an action opens and ends the same.
    have hmore : a.scopesAfter (n + k) = some (next + k) := by
      cases a <;> simp [Action.scopesAfter] at hnext ⊢ <;> omega
    rw [hmore]
    exact ih hrest

namespace Balanced

variable {run rest : List Action}

theorem append (h : Balanced run) (hrest : Balanced rest) : Balanced (run ++ rest) := by
  unfold Balanced
  rw [List.foldlM_append, h]
  exact hrest

/-- A scope with a balanced run in it. -/
theorem scope (h : Balanced run) {last : Action} (hlast : last = .commit ∨ last = .rollback) :
    Balanced (.begin :: (run ++ [last])) := by
  have hinside : run.foldlM Action.scopesAfter 1 = some 1 := foldlM_scopesAfter 1 h
  show (run ++ [last]).foldlM Action.scopesAfter 1 = some 0
  rw [List.foldlM_append, hinside]
  rcases hlast with rfl | rfl <;> rfl

end Balanced

namespace Cluster

variable {c c' d : Cluster} {id : Nat} {a : Action}

theorem setSession_setSession (c : Cluster) (id : Nat) (s s' : Session) :
    (c.setSession id s).setSession id s' = c.setSession id s' := by
  unfold setSession
  rw [List.set_set]

theorem setSession_self {t : Transaction} (h : c.session id = some t) :
    c.setSession id (some t) = c := by
  obtain ⟨hlt, hself⟩ := List.getElem?_eq_some_iff.1 (Option.join_eq_some_iff.1 h)
  unfold setSession
  rw [← hself, List.set_getElem_self]

theorem commit_outcome (id : Nat) (t : Traced Cluster) :
    (tracedCommit id t).1 = (t.state.commit id).1.mapError Failure.error := by
  obtain ⟨report, hquiet, hrun⟩ := commit_reports id t
  rw [hrun, Call.outcome_reporting _ hquiet, Call.outcome_step]

theorem rollback_outcome (id : Nat) (t : Traced Cluster) :
    (tracedRollback id t).1 = (t.state.rollback id).1.mapError Failure.error := by
  obtain ⟨report, hquiet, hrun⟩ := rollback_reports id
  rw [hrun, Call.outcome_reporting _ hquiet, Call.outcome_step]

theorem perform_commit (id : Nat) (t : Traced Cluster) :
    (Action.commit.perform backend id t).1 =
        ((t.state.commit id).1.mapError Failure.error).map (fun _ => Yield.nothing) ∧
      (Action.commit.perform backend id t).2.state = (t.state.commit id).2 := by
  rw [Action.perform, Call.outcome_answering, Call.state_answering]
  exact ⟨congrArg _ (commit_outcome id t), commit_state id t⟩

theorem perform_rollback (id : Nat) (t : Traced Cluster) :
    (Action.rollback.perform backend id t).1 =
        ((t.state.rollback id).1.mapError Failure.error).map (fun _ => Yield.nothing) ∧
      (Action.rollback.perform backend id t).2.state = (t.state.rollback id).2 := by
  rw [Action.perform, Call.outcome_answering, Call.state_answering]
  exact ⟨congrArg _ (rollback_outcome id t), rollback_state id t⟩

end Cluster

/-! ## Savepoints around a run -/

/-- Two clusters that differ in the savepoints of a session only, below those of its `n` innermost
    scopes. -/
def Beside (id : Nat) (outer outer' : List (Store × Nat)) (n : Nat) (c d : Cluster) : Prop :=
  ∃ t inner, c.session id = some t ∧ t.savepoints = inner ++ outer ∧ inner.length = n ∧
    d = c.setSession id (some { t with savepoints := inner ++ outer' })

namespace Beside

variable {id n : Nat} {outer outer' : List (Store × Nat)} {c d : Cluster}

/-- Another transaction on both sides, with the same savepoints on top. -/
theorem set {t : Transaction} (hs : c.session id = some t) (working : Store) (log : List Change)
    (inner : List (Store × Nat)) (s : Session) :
    Beside id outer outer' inner.length (c.setSession id (some ⟨working, log, inner ++ outer⟩))
      ((c.setSession id s).setSession id (some ⟨working, log, inner ++ outer'⟩)) := by
  refine ⟨_, inner, Cluster.session_setSession_self hs _, rfl, rfl, ?_⟩
  rw [Cluster.setSession_setSession, Cluster.setSession_setSession]

theorem numbered (h : Beside id outer outer' n c d) (numbers : List (String × Int64)) :
    Beside id outer outer' n { c with sequences := numbers } { d with sequences := numbers } := by
  obtain ⟨t, inner, hs, hsaved, hlength, rfl⟩ := h
  exact ⟨t, inner, hs, hsaved, hlength, rfl⟩

theorem sequence (h : Beside id outer outer' n c d) (table : String) :
    c.sequence table = d.sequence table := by
  obtain ⟨t, inner, -, -, -, rfl⟩ := h
  rfl

theorem view (h : Beside id outer outer' n c d) : c.view id = d.view id := by
  obtain ⟨t, inner, hs, -, -, rfl⟩ := h
  rw [Cluster.view, Cluster.view, hs, Cluster.session_setSession_self hs]

/-! ### Actions -/

theorem write {α : Type} (h : Beside id outer outer' n c d) (f : Store → Result (α × Store))
    (change : α → Change) :
    (c.write id f change).1 = (d.write id f change).1 ∧
      Beside id outer outer' n (c.write id f change).2 (d.write id f change).2 := by
  have hsame := h
  obtain ⟨t, inner, hs, hsaved, rfl, rfl⟩ := h
  unfold Cluster.write
  rw [hs, Cluster.session_setSession_self hs]
  dsimp only
  cases f t.working with
  | error e => exact ⟨rfl, hsame⟩
  | ok written =>
    refine ⟨rfl, ?_⟩
    rw [hsaved]
    exact set hs written.2 (t.log ++ [change written.1]) inner _

theorem add (h : Beside id outer outer' n c d) (schema : Schema) (records : List Record) :
    (c.add id schema records).1 = (d.add id schema records).1 ∧
      Beside id outer outer' n (c.add id schema records).2 (d.add id schema records).2 := by
  rw [Cluster.add, Cluster.add, h.sequence]
  cases records.mapM schema.encode with
  | error e => exact ⟨rfl, h⟩
  | ok documents =>
    dsimp only
    obtain ⟨houtcome, hafter⟩ := h.write
      (fun store => store.insert schema documents (d.sequence schema.table))
      (fun written => .insert schema written.1)
    generalize c.write id _ _ = written at houtcome hafter ⊢
    generalize d.write id _ _ = written' at houtcome hafter ⊢
    obtain ⟨outcome, c'⟩ := written
    obtain ⟨_, d'⟩ := written'
    cases houtcome
    cases outcome with
    | error e => exact ⟨rfl, hafter⟩
    | ok stored =>
      have hnumbers : c'.sequences = d'.sequences := by
        obtain ⟨t, inner, -, -, -, rfl⟩ := hafter
        rfl
      dsimp only
      rw [hnumbers]
      exact ⟨rfl, hafter.numbered _⟩

theorem update (h : Beside id outer outer' n c d) (q : Query) (values : Record) :
    (c.update id q values).1 = (d.update id q values).1 ∧
      Beside id outer outer' n (c.update id q values).2 (d.update id q values).2 := by
  rw [Cluster.update, Cluster.update]
  cases q.toFilter with
  | error e => exact ⟨rfl, h⟩
  | ok filter =>
    cases Cluster.changes q values with
    | error e => exact ⟨rfl, h⟩
    | ok assigned => exact h.write _ _

theorem delete (h : Beside id outer outer' n c d) (q : Query) :
    (c.delete id q).1 = (d.delete id q).1 ∧
      Beside id outer outer' n (c.delete id q).2 (d.delete id q).2 := by
  rw [Cluster.delete, Cluster.delete]
  cases q.toFilter with
  | error e => exact ⟨rfl, h⟩
  | ok filter => exact h.write _ _

theorem openSession (h : Beside id outer outer' n c d) :
    c.openSession.1 = d.openSession.1 ∧
      Beside id outer outer' n c.openSession.2 d.openSession.2 := by
  obtain ⟨t, inner, hs, hsaved, hlength, rfl⟩ := h
  refine ⟨by simp [Cluster.openSession, Cluster.setSession], t, inner, ?_, hsaved, hlength, ?_⟩
  · rw [Cluster.session_openSession, hs]
  · unfold Cluster.openSession Cluster.setSession
    rw [List.set_append_left _ _ (Cluster.lt_of_session hs)]

theorem begin (h : Beside id outer outer' n c d) :
    Beside id outer outer' (n + 1) (c.begin id) (d.begin id) := by
  obtain ⟨t, inner, hs, hsaved, rfl, rfl⟩ := h
  unfold Cluster.begin
  rw [hs, Cluster.session_setSession_self hs]
  dsimp only
  rw [hsaved]
  exact set hs t.working t.log ((t.working, t.log.length) :: inner) _

/-- A commit inside releases the savepoint that is on top on both sides. -/
theorem commit (h : Beside id outer outer' (n + 1) c d) :
    (c.commit id).1 = (d.commit id).1 ∧
      Beside id outer outer' n (c.commit id).2 (d.commit id).2 := by
  obtain ⟨t, inner, hs, hsaved, hlength, rfl⟩ := h
  obtain ⟨saved, inner, rfl⟩ := List.exists_cons_of_length_eq_add_one hlength
  obtain rfl := Nat.succ.inj hlength
  unfold Cluster.commit
  rw [hs, Cluster.session_setSession_self hs]
  dsimp only
  rw [hsaved]
  exact ⟨rfl, set hs t.working t.log inner _⟩

theorem rollback (h : Beside id outer outer' (n + 1) c d) :
    (c.rollback id).1 = (d.rollback id).1 ∧
      Beside id outer outer' n (c.rollback id).2 (d.rollback id).2 := by
  obtain ⟨t, inner, hs, hsaved, hlength, rfl⟩ := h
  obtain ⟨⟨store, length⟩, inner, rfl⟩ := List.exists_cons_of_length_eq_add_one hlength
  obtain rfl := Nat.succ.inj hlength
  unfold Cluster.rollback
  rw [hs, Cluster.session_setSession_self hs]
  dsimp only
  rw [hsaved]
  exact ⟨rfl, set hs store (t.log.take length) inner _⟩

theorem create (h : Beside id outer outer' n c d) (models : Catalog) :
    (c.create id models).1 = (d.create id models).1 ∧
      Beside id outer outer' n (c.create id models).2 (d.create id models).2 :=
  h.write (fun store => .ok ((), store.create (Cluster.tables models))) _

theorem drop (h : Beside id outer outer' n c d) (models : Catalog) :
    (c.drop id models).1 = (d.drop id models).1 ∧
      Beside id outer outer' n (c.drop id models).2 (d.drop id models).2 :=
  h.write (fun store => .ok ((), store.drop (Cluster.tables models))) _

/-- The next action of the session answers alike on both sides. -/
theorem perform (h : Beside id outer outer' n c d) {a : Action} {m : Nat}
    (ha : a.scopesAfter n = some m) (events events' : List Event) :
    (a.perform backend id ⟨c, events⟩).1 = (a.perform backend id ⟨d, events'⟩).1 ∧
      Beside id outer outer' m (a.perform backend id ⟨c, events⟩).2.state
        (a.perform backend id ⟨d, events'⟩).2.state := by
  have works {α : Type} {x : Call Cluster α} (f : α → Yield)
      (hx : Call.Simulates (Beside id outer outer' n) x x) :=
    hx.answering f ⟨c, events⟩ ⟨d, events'⟩ h
  cases a with
  | add model records =>
    cases ha
    exact works _ (.step fun _ _ h => h.add model records)
  | fetch q =>
    cases ha
    refine works _ ?_
    show Call.Simulates _ (Call.ofResult q.toFind >>= _) (Call.ofResult q.toFind >>= _)
    refine (Call.Simulates.ofResult _).bind fun f => ?_
    refine .bind (fun _ _ h => ⟨rfl, h⟩) fun _ => .read fun c d h => ?_
    rw [Cluster.search, Cluster.search, h.view]
  | count q =>
    cases ha
    refine works _ (.read fun c d h => ?_)
    rw [Cluster.count, Cluster.count, h.view]
  | update q values =>
    cases ha
    exact works _ (.step fun _ _ h => h.update q values)
  | delete q =>
    cases ha
    exact works _ (.step fun _ _ h => h.delete q)
  | begin =>
    cases ha
    exact ⟨rfl, h.begin⟩
  | commit =>
    cases n with
    | zero => cases ha
    | succ n =>
      cases ha
      obtain ⟨houtcome, hafter⟩ := h.commit
      obtain ⟨hleft, hleftState⟩ := Cluster.perform_commit id ⟨c, events⟩
      obtain ⟨hright, hrightState⟩ := Cluster.perform_commit id ⟨d, events'⟩
      rw [hleft, hleftState, hright, hrightState, houtcome]
      exact ⟨rfl, hafter⟩
  | rollback =>
    cases n with
    | zero => cases ha
    | succ n =>
      cases ha
      obtain ⟨houtcome, hafter⟩ := h.rollback
      obtain ⟨hleft, hleftState⟩ := Cluster.perform_rollback id ⟨c, events⟩
      obtain ⟨hright, hrightState⟩ := Cluster.perform_rollback id ⟨d, events'⟩
      rw [hleft, hleftState, hright, hrightState, houtcome]
      exact ⟨rfl, hafter⟩
  | create models =>
    cases ha
    exact works _ (.bind (fun _ _ h => ⟨rfl, h⟩) fun _ => .step fun _ _ h => h.create models)
  | drop models =>
    cases ha
    exact works _ (.step fun _ _ h => h.drop models)
  | openSession =>
    cases ha
    exact works _ (.step fun _ _ h => ⟨congrArg Except.ok h.openSession.1, h.openSession.2⟩)
  | ping =>
    cases ha
    exact ⟨rfl, h⟩
  | name =>
    cases ha
    exact ⟨rfl, h⟩
  | close => cases ha

/-- So does a balanced run, and any other that closes no scope around it. -/
theorem run {run : List Action} {m : Nat} (hrun : run.foldlM Action.scopesAfter n = some m)
    {t t' : Traced Cluster} (h : Beside id outer outer' n t.state t'.state) :
    Beside id outer outer' m (Request.runAll backend (onSession id run) t).2.state
      (Request.runAll backend (onSession id run) t').2.state := by
  induction run generalizing n t t' with
  | nil =>
    cases hrun
    exact h
  | cons a rest ih =>
    rw [List.foldlM_cons] at hrun
    obtain ⟨next, hnext, hrest⟩ := Option.bind_eq_some_iff.1 hrun
    exact ih hrest (h.perform hnext t.events t'.events).2

end Beside

/-! ## What stays of a transaction -/

/-- The transaction has the log and the savepoints of an earlier one still, with `n` scopes
    inside.  A rollback of one of these does not cut the log any shorter. -/
def Rests (before : Transaction) (n : Nat) (t : Transaction) : Prop :=
  before.log <+: t.log ∧
    ∃ inner, t.savepoints = inner ++ before.savepoints ∧ inner.length = n ∧
      ∀ saved ∈ inner, before.log.length ≤ saved.2

namespace Cluster

/-- An action that opens or ends no scope leaves the savepoints of a transaction, and its log
    only grows. -/
theorem Step.log_kept {id : Nat} {a : Action} {c c' : Cluster} (h : Step id a c c')
    {t : Transaction} (hs : c.session id = some t) (ha : a.scopesAfter 0 = some 0) :
    ∃ t', c'.session id = some t' ∧ t.log <+: t'.log ∧ t'.savepoints = t.savepoints := by
  cases h with
  | still => exact ⟨t, hs, List.prefix_refl _, rfl⟩
  | published _ hs₀ =>
    rw [hs] at hs₀
    cases hs₀
  | noted _ hs₀ =>
    cases hs.symm.trans hs₀
    exact ⟨_, session_setSession_self hs _, List.prefix_append _ _, rfl⟩
  | joined => exact ⟨t, (session_openSession c id).trans hs, List.prefix_refl _, rfl⟩
  | opened ha' | nested ha' | released ha' | merged ha' | undone ha' =>
    subst ha'
    cases ha
  | ended ha' => rcases ha' with rfl | rfl | rfl <;> cases ha

end Cluster

namespace Rests

variable {id n m : Nat} {before t : Transaction} {c : Cluster} {a : Action}

theorem refl (t : Transaction) : Rests t 0 t :=
  ⟨List.prefix_refl _, [], rfl, rfl, fun _ h => nomatch h⟩

theorem savepoints (h : Rests before 0 t) : t.savepoints = before.savepoints := by
  obtain ⟨-, inner, hsaved, hlength, -⟩ := h
  rw [hsaved, List.eq_nil_of_length_eq_zero hlength, List.nil_append]

theorem begin (h : Rests before n t) (hs : c.session id = some t) :
    ∃ t', (c.begin id).session id = some t' ∧ Rests before (n + 1) t' := by
  obtain ⟨hlog, inner, hsaved, hlength, hinner⟩ := h
  unfold Cluster.begin
  rw [hs]
  refine ⟨_, Cluster.session_setSession_self hs _, hlog, (t.working, t.log.length) :: inner, ?_,
    congrArg Nat.succ hlength, List.forall_mem_cons.2 ⟨hlog.length_le, hinner⟩⟩
  dsimp only
  rw [hsaved, List.cons_append]

theorem commit (h : Rests before (n + 1) t) (hs : c.session id = some t) :
    ∃ t', (c.commit id).2.session id = some t' ∧ Rests before n t' := by
  obtain ⟨hlog, inner, hsaved, hlength, hinner⟩ := h
  obtain ⟨saved, inner, rfl⟩ := List.exists_cons_of_length_eq_add_one hlength
  unfold Cluster.commit
  rw [hs]
  dsimp only
  rw [hsaved]
  exact ⟨_, Cluster.session_setSession_self hs _, hlog, inner, rfl, Nat.succ.inj hlength,
    (List.forall_mem_cons.1 hinner).2⟩

theorem rollback (h : Rests before (n + 1) t) (hs : c.session id = some t) :
    ∃ t', (c.rollback id).2.session id = some t' ∧ Rests before n t' := by
  obtain ⟨hlog, inner, hsaved, hlength, hinner⟩ := h
  obtain ⟨⟨store, length⟩, inner, rfl⟩ := List.exists_cons_of_length_eq_add_one hlength
  obtain ⟨hfirst, hothers⟩ := List.forall_mem_cons.1 hinner
  unfold Cluster.rollback
  rw [hs]
  dsimp only
  rw [hsaved]
  exact ⟨_, Cluster.session_setSession_self hs _, List.prefix_take_iff.2 ⟨hlog, hfirst⟩, inner,
    rfl, Nat.succ.inj hlength, hothers⟩

/-- The next action of the session reaches nothing that was there before the scopes inside. -/
theorem perform (h : Rests before n t) {s : Traced Cluster} (hs : s.state.session id = some t)
    (ha : a.scopesAfter n = some m) :
    ∃ t', (a.perform backend id s).2.state.session id = some t' ∧ Rests before m t' := by
  have hstep := Cluster.perform_step id a s
  have plain (hplain : a.scopesAfter 0 = some 0) (hm : n = m) :
      ∃ t', (a.perform backend id s).2.state.session id = some t' ∧ Rests before m t' := by
    obtain ⟨t', hs', hprefix, hsaved⟩ := hstep.log_kept hs hplain
    obtain ⟨hlog, hinner⟩ := h
    rw [← hsaved, hm] at hinner
    exact ⟨t', hs', hlog.trans hprefix, hinner⟩
  cases a with
  | begin =>
    cases ha
    exact h.begin hs
  | commit =>
    rw [(Cluster.perform_commit id s).2]
    cases n with
    | zero => cases ha
    | succ n =>
      cases ha
      exact h.commit hs
  | rollback =>
    rw [(Cluster.perform_rollback id s).2]
    cases n with
    | zero => cases ha
    | succ n =>
      cases ha
      exact h.rollback hs
  | close => cases ha
  | _ => exact plain rfl (Option.some.inj ha)

/-- A run of the session that closes no scope around it writes nothing to the shared store and
    nothing to other sessions. -/
theorem run {run : List Action} (hrun : run.foldlM Action.scopesAfter n = some m)
    (h : Rests before n t) {s : Traced Cluster} (hs : s.state.session id = some t) :
    let after := (Request.runAll backend (onSession id run) s).2.state
    after.shared = s.state.shared ∧
      (∀ other, id ≠ other → after.session other = s.state.session other) ∧
      ∃ t', after.session id = some t' ∧ Rests before m t' := by
  induction run generalizing n t s with
  | nil =>
    cases hrun
    exact ⟨rfl, fun _ _ => rfl, t, hs, h⟩
  | cons a rest ih =>
    rw [List.foldlM_cons] at hrun
    obtain ⟨next, hnext, hrest⟩ := Option.bind_eq_some_iff.1 hrun
    obtain ⟨t', hs', h'⟩ := h.perform hs hnext
    have hstep := Cluster.perform_step id a s
    obtain ⟨hshared, hothers, hend⟩ := ih hrest h' hs'
    exact ⟨hshared.trans (hstep.shared_of_active hs'),
      fun other hne => (hothers other hne).trans (hstep.session_of_ne hne), hend⟩

end Rests

/-! ## Scopes with a run in them -/

namespace Cluster

theorem run_scope (id : Nat) (run : List Action) (last : Action) (s : Traced Cluster) :
    (Request.runAll backend (onSession id (.begin :: (run ++ [last]))) s).2 =
      (last.perform backend id
        (Request.runAll backend (onSession id run) (tracedBegin id s).2).2).2 := by
  unfold onSession
  rw [List.map_cons, Request.runAll_cons, List.map_append, Request.runAll_append]
  rfl

/-- A scope that is rolled back leaves the shared store and every session as they were before
    its begin. -/
theorem scope_rollback {id : Nat} {s : Traced Cluster} (hid : id < s.state.sessions.length)
    {run : List Action} (hrun : Balanced run) :
    let after := (Request.runAll backend (onSession id (.begin :: (run ++ [.rollback]))) s).2.state
    after.shared = s.state.shared ∧ ∀ other, after.session other = s.state.session other := by
  rw [run_scope, (perform_rollback id _).2]
  -- The run rests on the transaction as the begin has left it.
  obtain ⟨hshared, hothers, t', hs', hrests⟩ := (Rests.refl _).run hrun
    (s := (tracedBegin id s).2) ((session_setSession _ _ _ _).trans (if_pos ⟨rfl, hid⟩))
  have hshared : _ = s.state.shared := hshared
  have hothers (other : Nat) (hne : id ≠ other) : _ = s.state.session other :=
    (hothers other hne).trans (session_setSession_of_ne hne _)
  generalize (Request.runAll backend (onSession id run) (tracedBegin id s).2).2.state = c
    at hshared hothers hs' ⊢
  have hsaved := hrests.savepoints
  obtain ⟨hlog, -⟩ := hrests
  unfold rollback
  rw [hs']
  dsimp only
  cases hs : s.state.session id with
  | none =>
    rw [hs] at hsaved
    rw [hsaved]
    refine ⟨hshared, fun other => ?_⟩
    by_cases hne : id = other
    · subst hne
      exact (session_setSession_none c id).trans hs.symm
    · exact (session_setSession_of_ne hne _).trans (hothers other hne)
  | some t =>
    rw [hs] at hsaved hlog
    rw [hsaved]
    refine ⟨hshared, fun other => ?_⟩
    by_cases hne : id = other
    · subst hne
      rw [hs]
      refine (session_setSession_self hs' _).trans ?_
      rw [← List.prefix_iff_eq_take.1 hlog]
    · exact (session_setSession_of_ne hne _).trans (hothers other hne)

/-- A scope in a transaction that is committed leaves the cluster that the run leaves without
    the scope. -/
theorem scope_commit {id : Nat} {s : Traced Cluster} {t : Transaction}
    (hs : s.state.session id = some t) {run : List Action} (hrun : Balanced run) :
    (Request.runAll backend (onSession id (.begin :: (run ++ [.commit]))) s).2.state =
      (Request.runAll backend (onSession id run) s).2.state := by
  have hbeside : Beside id ((t.working, t.log.length) :: t.savepoints) t.savepoints 0
      (s.state.begin id) s.state := by
    refine ⟨{ t with savepoints := (t.working, t.log.length) :: t.savepoints }, [], ?_, rfl, rfl,
      ?_⟩
    · unfold begin
      rw [hs]
      exact session_setSession_self hs _
    · exact ((setSession_setSession _ _ _ _).trans (setSession_self hs)).symm
  have hbegun : Beside id ((t.working, t.log.length) :: t.savepoints) t.savepoints 0
      (tracedBegin id s).2.state s.state := hbeside
  rw [run_scope, (perform_commit id _).2]
  obtain ⟨t', inner, hs', hsaved, hlength, hrest⟩ :=
    hbegun.run hrun
  rw [hrest]
  obtain rfl := List.eq_nil_of_length_eq_zero hlength
  unfold commit
  rw [hs']
  dsimp only
  rw [hsaved]
  rfl

/-- In a transaction of any depth a scope that is rolled back leaves the shared store and every
    session as they were, savepoints included; so does an outermost one.  One that is committed
    leaves what its actions leave without it: nothing is published, and the savepoints around it
    are there again.  So the scopes that are committed inside do not outlast a rollback around
    them. -/
theorem nested_scopes {id : Nat} {s : Traced Cluster} (hid : id < s.state.sessions.length)
    {run : List Action} (hrun : Balanced run) :
    let ran actions := (Request.runAll backend (onSession id actions) s).2.state
    let Restored c := c.shared = s.state.shared ∧ ∀ other, c.session other = s.state.session other
    Restored (ran (.begin :: (run ++ [.rollback]))) ∧
      (∀ t, s.state.session id = some t →
        ran (.begin :: (run ++ [.commit])) = ran run ∧ (ran run).shared = s.state.shared ∧
          (ran run).depth id = s.state.depth id ∧
          ∃ t', (ran run).session id = some t' ∧ t'.savepoints = t.savepoints) ∧
      ∀ first last, Balanced first → Balanced last →
        Restored (ran (.begin :: ((first ++ .begin :: (run ++ [.commit]) ++ last) ++
          [.rollback]))) := by
  intro ran Restored
  refine ⟨scope_rollback hid hrun, fun t hs => ⟨scope_commit hs hrun, ?_⟩,
    fun first last hfirst hlast => ?_⟩
  · obtain ⟨hshared, -, t', hs', hrests⟩ := (Rests.refl t).run hrun hs
    have hdepth : (ran run).depth id = s.state.depth id := by
      rw [depth, depth, hs, hs', Session.depth, Session.depth, hrests.savepoints]
    exact ⟨hshared, hdepth, t', hs', hrests.savepoints⟩
  · exact scope_rollback hid ((hfirst.append (hrun.scope (.inl rfl))).append hlast)

/-- A transaction has added an item, and then a scope in it adds two more, one of them in a scope
    that it commits. -/
theorem nested_scopes_of_items :
    let item : Schema := ⟨"Item", [.ofMarks "id" .int [.key, .auto]]⟩
    let s := traced [⟨0, .ok (.create ⟨"c", [item]⟩)⟩, ⟨0, .ok .begin⟩,
      ⟨0, .ok (.add item [.empty])⟩]
    let run : List Action := [.add item [.empty], .begin, .add item [.empty], .commit]
    let ran actions := (Request.runAll backend (onSession 0 actions) s).2.state
    let writes c := (session c 0).map fun t => t.log.length
    Balanced run ∧ s.state.depth 0 = 1 ∧ writes s.state = some 1 ∧
      writes (ran (.begin :: (run ++ [.commit]))) = some 3 ∧
      (ran (.begin :: (run ++ [.commit]))).shared = s.state.shared ∧
      (ran (.begin :: (run ++ [.rollback]))).session 0 = s.state.session 0 := by
  intro item s run ran writes
  have hrun : Balanced run := rfl
  obtain ⟨t, hs⟩ : ∃ t, s.state.session 0 = some t :=
    Option.isSome_iff_exists.1 (by decide +kernel)
  obtain ⟨hrollback, hcommit, -⟩ := nested_scopes (lt_of_session hs) hrun
  obtain ⟨hsame, hshared, -⟩ := hcommit t hs
  have hkept : writes (ran run) = some 3 := by decide +kernel
  exact ⟨hrun, by decide +kernel, by decide +kernel, (congrArg writes hsame).trans hkept,
    (congrArg shared hsame).trans hshared, hrollback.2 0⟩

end Cluster

end Memory

end ModelMapper
