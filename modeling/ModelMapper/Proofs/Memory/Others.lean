import ModelMapper.Proofs.Memory.Steps

/-! # What the other sessions have

`Cluster.without` leaves one session out of a cluster, and the numbers given out, which all
sessions share.  What the session does in a transaction leaves nothing behind there, but for the
outermost commit, which publishes its writes at once.

* `Step.own` — the reads and writes of a transaction.
* `Cluster.begin_own`, `Cluster.commit_inner`, `Cluster.rollback_own` — its scopes.
* `Cluster.commit_outer` — its end.
* `Cluster.Passes` — what happens to a cluster without the session.
-/

namespace ModelMapper.Memory

/-- The action reads or writes; it opens, closes and ends nothing. -/
def Works : Action → Prop
  | .add _ _ | .fetch _ | .count _ | .update _ _ | .delete _ | .create _ | .drop _ => True
  | _ => False

namespace Cluster

variable {c c' : Cluster} {id : Nat} {a : Action}

/-- What there is besides a session, but for the numbers given out. -/
def without (c : Cluster) (id : Nat) : Cluster := ⟨c.shared, [], c.sessions.set id none⟩

theorem without_setSession (c : Cluster) (id : Nat) (s : Session) :
    (c.setSession id s).without id = c.without id := by
  unfold without setSession
  rw [List.set_set]

theorem session_of_depth (h : 0 < c.depth id) : ∃ t, c.session id = some t := by
  cases hs : c.session id with
  | none =>
    rw [depth, hs] at h
    cases h
  | some t => exact ⟨t, rfl⟩

theorem depth_setSession {t : Transaction} (h : c.session id = some t) (s : Session) :
    (c.setSession id s).depth id = s.depth := by
  rw [depth, session_setSession_self h]

/-- The reads and writes of a transaction stay in it. -/
theorem Step.own (h : Step id a c c') (ha : Works a) (hdepth : 0 < c.depth id) :
    c'.without id = c.without id ∧ c'.depth id = c.depth id := by
  cases h with
  | still => exact ⟨rfl, rfl⟩
  | published _ hs =>
    -- In a transaction no write goes to the shared store.
    rw [depth, hs] at hdepth
    cases hdepth
  | noted _ hs =>
    refine ⟨without_setSession c id _, (depth_setSession hs _).trans ?_⟩
    rw [depth, hs]
    rfl
  | opened ha' | nested ha' | released ha' | merged ha' | undone ha' | joined ha' =>
    subst ha'
    cases ha
  | ended ha' =>
    rcases ha' with rfl | rfl | rfl <;> cases ha

/-! ## Scopes -/

theorem begin_own (h : 0 < c.depth id) :
    (c.begin id).without id = c.without id ∧ (c.begin id).depth id = c.depth id + 1 := by
  obtain ⟨t, hs⟩ := session_of_depth h
  refine ⟨without_setSession c id _, (depth_setSession hs _).trans ?_⟩
  rw [depth, hs]
  rfl

/-- A new session begins with a copy of the shared store. -/
theorem session_begin_new (c : Cluster) :
    (c.openSession.2.begin c.sessions.length).session c.sessions.length =
      some ⟨c.shared, [], []⟩ := by
  have hlength : c.sessions.length < c.openSession.2.sessions.length := by
    simp [openSession]
  have hnone : c.openSession.2.session c.sessions.length = none := by
    rw [session_openSession, session, List.getElem?_eq_none (Nat.le_refl _)]
    rfl
  rw [begin, hnone, session_setSession, if_pos ⟨rfl, hlength⟩]
  rfl

/-- An inner commit only takes its savepoint away. -/
theorem commit_inner (h : 1 < c.depth id) : ∃ c', c.commit id = (.ok (), c') ∧
    c'.without id = c.without id ∧ c'.depth id + 1 = c.depth id := by
  obtain ⟨t, hs⟩ := session_of_depth (Nat.lt_of_succ_lt h)
  cases hsaved : t.savepoints with
  | nil =>
    rw [depth, hs, Session.depth, hsaved] at h
    cases Nat.lt_irrefl 1 h
  | cons saved outer =>
    refine ⟨c.setSession id (some { t with savepoints := outer }), ?_, without_setSession c id _, ?_⟩
    · rw [commit, hs]
      dsimp only
      rw [hsaved]
    · rw [depth_setSession hs, depth, hs, Session.depth, Session.depth, hsaved]
      rfl

theorem rollback_own (h : 0 < c.depth id) : ∃ c', c.rollback id = (.ok (), c') ∧
    c'.without id = c.without id ∧ c'.depth id + 1 = c.depth id := by
  obtain ⟨t, hs⟩ := session_of_depth h
  obtain ⟨s, hrolled, hone⟩ : ∃ s : Session, c.rollback id = (.ok (), c.setSession id s) ∧
      s.depth + 1 = c.depth id := by
    rw [rollback, depth, hs, Session.depth]
    dsimp only
    cases t.savepoints with
    | nil => exact ⟨none, rfl, rfl⟩
    | cons saved outer => exact ⟨some ⟨saved.1, t.log.take saved.2, outer⟩, rfl, rfl⟩
  refine ⟨_, hrolled, without_setSession c id s, ?_⟩
  rw [depth_setSession hs]
  exact hone

/-- The writes of a session that are not published yet. -/
def log (c : Cluster) (id : Nat) : List Change := (c.session id).elim [] Transaction.log

/-- The outermost commit publishes all writes, or fails without a trace.  It ends the
    transaction. -/
theorem commit_outer (h : c.depth id = 1) :
    (∃ store c', c.commit id = (.ok (), c') ∧
      Change.applyAll c.shared (c.log id) = .ok store ∧
      c'.without id = { c.without id with shared := store } ∧ c'.depth id = 0) ∨
    ∃ e c', c.commit id = (.error e, c') ∧ c'.without id = c.without id ∧ c'.depth id = 0 := by
  obtain ⟨t, hs⟩ := session_of_depth (Nat.lt_of_lt_of_eq Nat.one_pos h.symm)
  have hsaved : t.savepoints = [] := by
    rw [depth, hs, Session.depth] at h
    exact List.eq_nil_of_length_eq_zero (Nat.succ.inj h)
  have hended := depth_setSession hs none
  have hlog : c.log id = t.log := by
    rw [log, hs]
    rfl
  rw [hlog]
  cases happly : Change.applyAll c.shared t.log with
  | ok store =>
    refine .inl ⟨store, _, commit_outermost hs hsaved happly, rfl, ?_, hended⟩
    exact congrArg (fun d : Cluster => { d with shared := store }) (without_setSession c id none)
  | error e =>
    exact .inr ⟨_, _, commit_conflicting hs hsaved happly, without_setSession c id none, hended⟩

/-! ## Histories -/

/-- What happens to a cluster without a session: requests of the others, and once, if at all, the
    writes of the session, all together.  Only the numbers that the requests find are left open. -/
inductive Passes (id : Nat) (c : Cluster) :
    List Request → Option (List Change) → Cluster → Prop where
  | start : Passes id c [] none c
  | other {requests : List Request} {published : Option (List Change)} {r : Request}
      {t : Traced Cluster} (h : Passes id c requests published (t.state.without id))
      (hne : r.session ≠ id) :
      Passes id c (requests ++ [r]) published ((r.carryOut backend t).2.state.without id)
  | merge {requests : List Request} {d : Cluster} {store : Store} {log : List Change}
      (h : Passes id c requests none d) (happly : Change.applyAll d.shared log = .ok store) :
      Passes id c requests (some log) { d with shared := store }

end Cluster

end ModelMapper.Memory
