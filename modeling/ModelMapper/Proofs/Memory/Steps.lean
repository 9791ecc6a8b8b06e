import ModelMapper.Proofs.Backend.Runs
import ModelMapper.Proofs.Memory.Replay
import ModelMapper.Memory.Backend

/-! # What a request does to a cluster

`Cluster.Step` lists everything that one action on one session can do to the stores and the
sessions, with the conditions under which it does it.  What holds of every cluster that a run
reaches is proved from this list.

* `Notes` — the changes that an action can apply.
* `Cluster.carryOut_step` — a request takes a step on its session.
* `Step.session_of_ne` — the other sessions stay as they are.
* `Cluster.after` — the cluster after a run, which `Cluster.after_snoc` takes apart.
-/

namespace ModelMapper.Memory

/-! ## Sessions -/

theorem join_set {α : Type} (l : List (Option α)) (id other : Nat) (a : Option α) :
    ((l.set id a)[other]?).join = if id = other ∧ id < l.length then a else (l[other]?).join := by
  rw [List.getElem?_set]
  split
  · subst other
    split
    · rw [if_pos ⟨rfl, ‹_›⟩]
      rfl
    · rw [if_neg (fun h => absurd h.2 ‹_›), List.getElem?_eq_none (by omega)]
  · rw [if_neg (fun h => absurd h.1 ‹_›)]

theorem join_append_none {α : Type} (l : List (Option α)) (id : Nat) :
    ((l ++ [none])[id]?).join = (l[id]?).join := by
  rw [List.getElem?_append]
  split
  · rfl
  · rw [List.getElem?_eq_none (l := l) (by omega), List.getElem?_singleton]
    split <;> rfl

namespace Cluster

theorem lt_of_session {c : Cluster} {id : Nat} {t : Transaction} (h : c.session id = some t) :
    id < c.sessions.length := by
  refine Nat.lt_of_not_le fun hge => ?_
  rw [session, List.getElem?_eq_none hge] at h
  cases h

theorem session_setSession (c : Cluster) (id other : Nat) (s : Session) :
    (c.setSession id s).session other =
      if id = other ∧ id < c.sessions.length then s else c.session other :=
  join_set c.sessions id other s

theorem session_setSession_self {c : Cluster} {id : Nat} {t : Transaction}
    (h : c.session id = some t) (s : Session) : (c.setSession id s).session id = s := by
  rw [session_setSession, if_pos ⟨rfl, lt_of_session h⟩]

theorem session_setSession_of_ne {c : Cluster} {id other : Nat} (h : id ≠ other) (s : Session) :
    (c.setSession id s).session other = c.session other := by
  rw [session_setSession, if_neg fun heq => h heq.1]

/-- A session without a transaction has none afterwards either. -/
theorem session_setSession_none (c : Cluster) (id : Nat) :
    (c.setSession id none).session id = none := by
  rw [session_setSession]
  split
  · rfl
  · rename_i hout
    rw [session, List.getElem?_eq_none (by omega)]
    rfl

/-! ## Steps -/

/-- The changes that an action can apply. -/
inductive Notes : Action → Change → Prop where
  | add (model : Schema) (records : List Record) (documents : List Document) :
      Notes (.add model records) (.insert model documents)
  | update {q : Query} {values : Record} {filter : Doc} {assigned : List (String × Doc)}
      (hfilter : q.toFilter = .ok filter) (hassigned : changes q values = .ok assigned) :
      Notes (.update q values) (.update q.model.table filter assigned)
  | delete {q : Query} {filter : Doc} (hfilter : q.toFilter = .ok filter) :
      Notes (.delete q) (.delete q.model.table filter)
  | create (models : Catalog) : Notes (.create models) (.create (tables models))
  | drop (models : Catalog) : Notes (.drop models) (.drop (tables models))

/-- What an action on a session can do. -/
inductive Step (id : Nat) (a : Action) (c : Cluster) : Cluster → Prop where
  /-- It looks, or it fails. -/
  | still : Step id a c c
  | published {change : Change} {store : Store} (numbers : List (String × Int64))
      (hs : c.session id = none) (hnotes : Notes a change)
      (happly : Change.apply c.shared change = .ok store) :
      Step id a c { c with shared := store, sequences := numbers }
  | noted {t : Transaction} {change : Change} {store : Store} (numbers : List (String × Int64))
      (hs : c.session id = some t) (hnotes : Notes a change)
      (happly : Change.apply t.working change = .ok store) :
      Step id a c { c.setSession id (some ⟨store, t.log ++ [change], t.savepoints⟩) with
        sequences := numbers }
  | opened (ha : a = .begin) (hs : c.session id = none) :
      Step id a c (c.setSession id (some ⟨c.shared, [], []⟩))
  | nested {t : Transaction} (ha : a = .begin) (hs : c.session id = some t) :
      Step id a c (c.setSession id
        (some { t with savepoints := (t.working, t.log.length) :: t.savepoints }))
  | released {t : Transaction} {saved : Store × Nat} {outer : List (Store × Nat)}
      (ha : a = .commit) (hs : c.session id = some t) (hsaved : t.savepoints = saved :: outer) :
      Step id a c (c.setSession id (some { t with savepoints := outer }))
  | merged {t : Transaction} {store : Store} (ha : a = .commit) (hs : c.session id = some t)
      (hsaved : t.savepoints = []) (happly : Change.applyAll c.shared t.log = .ok store) :
      Step id a c { c.setSession id none with shared := store }
  | undone {t : Transaction} {store : Store} {length : Nat} {outer : List (Store × Nat)}
      (ha : a = .rollback) (hs : c.session id = some t)
      (hsaved : t.savepoints = (store, length) :: outer) :
      Step id a c (c.setSession id (some ⟨store, t.log.take length, outer⟩))
  /-- A commit that conflicts, an outermost rollback, or a session that goes away. -/
  | ended (ha : a = .commit ∨ a = .rollback ∨ a = .close) : Step id a c (c.setSession id none)
  | joined (ha : a = .openSession) : Step id a c c.openSession.2

variable {c c' : Cluster} {id : Nat} {a : Action}

/-- A write fails without a trace, or takes a step and leaves the numbers to the caller. -/
theorem write_step {α : Type} (c : Cluster) (id : Nat) (f : Store → Result (α × Store))
    (change : α → Change) (hchange : ∀ store x after, f store = .ok (x, after) →
      Notes a (change x) ∧ Change.apply store (change x) = .ok after) :
    (∃ e, c.write id f change = (.error e, c)) ∨
      ∃ x after, c.write id f change = (.ok x, after) ∧
        ∀ numbers, Step id a c { after with sequences := numbers } := by
  unfold write
  cases hs : c.session id with
  | none =>
    -- Outside transactions the shared store is written to, and nothing is noted.
    cases hf : f c.shared with
    | error e => exact .inl ⟨e, rfl⟩
    | ok written =>
      obtain ⟨x, store⟩ := written
      obtain ⟨hnotes, happly⟩ := hchange _ _ _ hf
      exact .inr ⟨x, _, rfl, fun numbers => .published numbers hs hnotes happly⟩
  | some t =>
    dsimp only
    cases hf : f t.working with
    | error e => exact .inl ⟨e, rfl⟩
    | ok written =>
      obtain ⟨x, store⟩ := written
      obtain ⟨hnotes, happly⟩ := hchange _ _ _ hf
      exact .inr ⟨x, _, rfl, fun numbers => .noted numbers hs hnotes happly⟩

theorem write_step_state {α : Type} (c : Cluster) (id : Nat) (f : Store → Result (α × Store))
    (change : α → Change) (hchange : ∀ store x after, f store = .ok (x, after) →
      Notes a (change x) ∧ Change.apply store (change x) = .ok after) :
    Step id a c (c.write id f change).2 := by
  rcases write_step c id f change hchange with ⟨e, h⟩ | ⟨x, after, h, hstep⟩
  · rw [h]
    exact .still
  · rw [h]
    exact hstep after.sequences

theorem add_step (c : Cluster) (id : Nat) (model : Schema) (records : List Record) :
    Step id (.add model records) c (c.add id model records).2 := by
  unfold add
  cases records.mapM model.encode with
  | error e => exact .still
  | ok documents =>
    dsimp only
    -- The change has the documents as they are stored, with the numbers they were given.
    rcases write_step (a := .add model records) c id
        (fun store => store.insert model documents (c.sequence model.table))
        (fun written => .insert model written.1)
        fun store x after hf => ⟨.add model records x.1, Store.apply_insert hf⟩ with
      ⟨e, h⟩ | ⟨x, after, h, hstep⟩
    · rw [h]
      exact .still
    · rw [h]
      exact hstep _

theorem update_step (c : Cluster) (id : Nat) (q : Query) (values : Record) :
    Step id (.update q values) c (c.update id q values).2 := by
  unfold update
  cases hfilter : q.toFilter with
  | error e => exact .still
  | ok filter =>
    cases hassigned : changes q values with
    | error e => exact .still
    | ok assigned =>
      exact write_step_state c id _ _ fun store x after hf =>
        ⟨.update hfilter hassigned, Change.apply_update hf⟩

theorem delete_step (c : Cluster) (id : Nat) (q : Query) :
    Step id (.delete q) c (c.delete id q).2 := by
  unfold delete
  cases hfilter : q.toFilter with
  | error e => exact .still
  | ok filter =>
    exact write_step_state c id _ _ fun store x after hf =>
      ⟨.delete hfilter, Change.apply_delete hf⟩

theorem create_step (c : Cluster) (id : Nat) (models : Catalog) :
    Step id (.create models) c (c.create id models).2 :=
  write_step_state c id _ _ fun store x after hf => by
    cases hf
    exact ⟨.create models, rfl⟩

theorem drop_step (c : Cluster) (id : Nat) (models : Catalog) :
    Step id (.drop models) c (c.drop id models).2 :=
  write_step_state c id _ _ fun store x after hf => by
    cases hf
    exact ⟨.drop models, rfl⟩

theorem begin_step (c : Cluster) (id : Nat) : Step id .begin c (c.begin id) := by
  unfold begin
  cases hs : c.session id with
  | none => exact .opened rfl hs
  | some t => exact .nested rfl hs

theorem commit_step (c : Cluster) (id : Nat) : Step id .commit c (c.commit id).2 := by
  unfold commit
  cases hs : c.session id with
  | none => exact .still
  | some t =>
    dsimp only
    cases hsaved : t.savepoints with
    | cons saved outer => exact .released rfl hs hsaved
    | nil =>
      dsimp only
      -- The log is applied to what the shared store is now.
      cases happly : Change.applyAll c.shared t.log with
      | error e => exact .ended (.inl rfl)
      | ok store => exact .merged rfl hs hsaved happly

theorem rollback_step (c : Cluster) (id : Nat) : Step id .rollback c (c.rollback id).2 := by
  unfold rollback
  cases hs : c.session id with
  | none => exact .still
  | some t =>
    dsimp only
    cases hsaved : t.savepoints with
    | cons saved outer => exact .undone rfl hs hsaved
    | nil => exact .ended (.inr (.inl rfl))

theorem fetch_state (id : Nat) (q : Query) (t : Traced Cluster) :
    (tracedFetch id q t).2.state = t.state := by
  unfold tracedFetch
  cases q.toFind with
  | error e => rfl
  | ok f =>
    rw [Call.run_bind, Call.run_ofResult]
    show (Call.read (fun c => c.search id q.model f) ⟨t.state, _⟩).2.state = t.state
    rw [Call.state_read]

theorem commit_reports (id : Nat) (t : Traced Cluster) :
    ∃ report, Call.Quiet report ∧
      tracedCommit id t = (Call.step (fun c => c.commit id) >>= fun _ => report) t := by
  refine ⟨_, ?_, rfl⟩
  split
  · exact fun _ => ⟨_, rfl⟩
  · exact fun _ => ⟨_, rfl⟩

theorem rollback_reports (id : Nat) :
    ∃ report, Call.Quiet report ∧
      tracedRollback id = Call.step (fun c => c.rollback id) >>= fun _ => report :=
  ⟨_, fun _ => ⟨_, rfl⟩, rfl⟩

theorem commit_state (id : Nat) (t : Traced Cluster) :
    (tracedCommit id t).2.state = (t.state.commit id).2 := by
  obtain ⟨report, hquiet, hrun⟩ := commit_reports id t
  rw [hrun, Call.state_reporting _ hquiet, Call.state_step]

theorem commit_isOk (id : Nat) (t : Traced Cluster) :
    (tracedCommit id t).1.isOk = (t.state.commit id).1.isOk := by
  obtain ⟨report, hquiet, hrun⟩ := commit_reports id t
  rw [hrun, Call.outcome_reporting _ hquiet, Call.isOk_step]

theorem rollback_state (id : Nat) (t : Traced Cluster) :
    (tracedRollback id t).2.state = (t.state.rollback id).2 := by
  obtain ⟨report, hquiet, hrun⟩ := rollback_reports id
  rw [hrun, Call.state_reporting _ hquiet, Call.state_step]

/-- The cluster after an action on a session. -/
def effect (id : Nat) (c : Cluster) : Action → Cluster
  | .add model records => (c.add id model records).2
  | .update q values => (c.update id q values).2
  | .delete q => (c.delete id q).2
  | .begin => c.begin id
  | .commit => (c.commit id).2
  | .rollback => (c.rollback id).2
  | .create models => (c.create id models).2
  | .drop models => (c.drop id models).2
  | .openSession => c.openSession.2
  | .close => c.close id
  | .fetch _ | .count _ | .ping | .name => c

theorem perform_state (id : Nat) (a : Action) (t : Traced Cluster) :
    (a.perform backend id t).2.state = effect id t.state a := by
  cases a with
  | fetch q =>
    rw [Action.perform, Call.state_answering]
    simp only [backend, fetch_state, effect]
  | count q =>
    rw [Action.perform, Call.state_answering]
    simp only [backend, Call.state_read, effect]
  | commit =>
    rw [Action.perform, Call.state_answering]
    simp only [backend, commit_state, effect]
  | rollback =>
    rw [Action.perform, Call.state_answering]
    simp only [backend, rollback_state, effect]
  | create models =>
    rw [Action.perform, Call.state_answering]
    show (Call.step (fun c : Cluster => c.create id models) ⟨t.state, _⟩).2.state = _
    rw [Call.state_step, effect]
  | add | update | delete | drop =>
    rw [Action.perform, Call.state_answering]
    simp only [backend, Call.state_step, effect]
  | begin | openSession | ping | name | close => rfl

/-- What an action on a session does is a step. -/
theorem perform_step (id : Nat) (a : Action) (t : Traced Cluster) :
    Step id a t.state (a.perform backend id t).2.state := by
  rw [perform_state]
  cases a with
  | add model records => exact add_step t.state id model records
  | update q values => exact update_step t.state id q values
  | delete q => exact delete_step t.state id q
  | begin => exact begin_step t.state id
  | commit => exact commit_step t.state id
  | rollback => exact rollback_step t.state id
  | create models => exact create_step t.state id models
  | drop models => exact drop_step t.state id models
  | openSession => exact .joined rfl
  | close => exact .ended (.inr (.inr rfl))
  | fetch | count | ping | name => exact .still

theorem carryOut_eq {r : Request} (h : r.action = .ok a) (t : Traced Cluster) :
    r.carryOut backend t = a.perform backend r.session t := by
  rw [Request.carryOut, h]
  rfl

/-- So is what a request does; one that could not be built does nothing. -/
theorem carryOut_step {r : Request} {a : Action} (h : r.action = .ok a) (t : Traced Cluster) :
    Step r.session a t.state (r.carryOut backend t).2.state := by
  rw [carryOut_eq h]
  exact perform_step r.session a t

theorem carryOut_refused {r : Request} {e : Error} (h : r.action = .error e)
    (t : Traced Cluster) : (r.carryOut backend t).2 = t := by
  rw [Request.carryOut, h]
  rfl

/-! ## Outermost commits -/

theorem commit_outermost {c : Cluster} {id : Nat} {t : Transaction} {store : Store}
    (hs : c.session id = some t) (hsaved : t.savepoints = [])
    (happly : Change.applyAll c.shared t.log = .ok store) :
    c.commit id = (.ok (), { c.setSession id none with shared := store }) := by
  unfold commit
  rw [hs]
  dsimp only
  rw [hsaved]
  dsimp only
  rw [happly]

theorem commit_conflicting {c : Cluster} {id : Nat} {t : Transaction} {e : Error}
    (hs : c.session id = some t) (hsaved : t.savepoints = [])
    (happly : Change.applyAll c.shared t.log = .error e) :
    c.commit id = (.error (commitConflict e), c.setSession id none) := by
  unfold commit
  rw [hs]
  dsimp only
  rw [hsaved]
  dsimp only
  rw [happly]

/-! ## Other sessions -/

theorem session_openSession (c : Cluster) (id : Nat) :
    c.openSession.2.session id = c.session id :=
  join_append_none c.sessions id

namespace Step

/-- A step leaves the other sessions as they are. -/
theorem session_of_ne (h : Step id a c c') {other : Nat} (hne : id ≠ other) :
    c'.session other = c.session other := by
  cases h with
  | still | published => rfl
  | noted | opened | nested | released | merged | undone | ended =>
    exact session_setSession_of_ne hne _
  | joined => exact session_openSession c other

end Step

theorem carryOut_session_of_ne {r : Request} {id : Nat} (hne : r.session ≠ id)
    (t : Traced Cluster) : (r.carryOut backend t).2.state.session id = t.state.session id := by
  cases h : r.action with
  | error e => rw [carryOut_refused h]
  | ok a => exact (carryOut_step h t).session_of_ne hne

/-! ## Runs -/

/-- A run on an empty store, with its reports. -/
def traced (requests : List Request) : Traced Cluster :=
  (Request.runAll backend requests ⟨.start, []⟩).2

/-- The cluster after a run. -/
def after (requests : List Request) : Cluster := (traced requests).state

theorem after_snoc_eq (requests : List Request) (r : Request) :
    after (requests ++ [r]) = (r.carryOut backend (traced requests)).2.state := by
  rw [after, traced, Request.runAll_snoc]
  rfl

/-- The last request of a run was refused, or took a step. -/
theorem after_snoc (requests : List Request) (r : Request) :
    after (requests ++ [r]) = after requests ∨
      ∃ a, r.action = .ok a ∧ Step r.session a (after requests) (after (requests ++ [r])) := by
  rw [after_snoc_eq]
  cases h : r.action with
  | error e => exact .inl (congrArg Traced.state (carryOut_refused h (traced requests)))
  | ok a => exact .inr ⟨a, rfl, carryOut_step h (traced requests)⟩

theorem session_start (id : Nat) : start.session id = none := by
  cases id <;> rfl

end Cluster

end ModelMapper.Memory
