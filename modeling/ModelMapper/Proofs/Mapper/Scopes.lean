import ModelMapper.Mapper.Cursor
import ModelMapper.Proofs.Memory.Others

/-! # What scopes let through

The operations in a scope, on a store in memory: one that is refused changes nothing, and one
that is not works on the transaction of the scope's session.

* `Mapper.Open`, `Mapper.checkOpen_bind` — the gate of a scope.
* `Mapper.Inside` — a change of a transaction that nobody else sees and that opens and ends no
  scope.
* `Work`, `Work.inside` — reading and writing in a scope.
* `Mapper.begin_scope`, `Mapper.commit_scope`, `Mapper.rollback_scope` — the life of a scope.
* `Mapper.begin_database` — a scope on the database, which always opens.
-/

namespace ModelMapper

open Memory (Cluster)

variable {σ τ α β : Type}

/-! ## Calls as operations -/

theorem Call.guarded_cases (c : Call τ α) (t : Traced τ) :
    (∃ a t', c t = (.ok a, t') ∧ c.guarded t = (.ok a, t')) ∨
      ∃ f e t' t'', c t = (.error f, t') ∧ c.guarded t = (.error e, t'') ∧
        t''.state = t'.state := by
  rcases hc : c t with ⟨outcome, t'⟩
  have hguarded : c.guarded t = Op.ofOutcome outcome t' := by
    show Op.ofOutcome (c t).1 (c t).2 = _
    rw [hc]
  rw [hguarded]
  cases outcome with
  | ok a => exact .inl ⟨a, t', rfl, rfl⟩
  | error f =>
    refine .inr ?_
    cases f with
    | error e => exact ⟨_, e, t', t', rfl, rfl, rfl⟩
    | panic text => exact ⟨_, _, t', _, rfl, rfl, rfl⟩

theorem Call.guarded_ok {c : Call τ α} {t t' : Traced τ} {a : α} (h : c t = (.ok a, t')) :
    c.guarded t = (.ok a, t') := by
  rcases c.guarded_cases t with ⟨b, t'', hc, hguarded⟩ | ⟨f, e, t'', _, hc, -⟩
  · cases h.symm.trans hc
    exact hguarded
  · cases h.symm.trans hc

theorem Call.guarded_error {c : Call τ α} {t t' : Traced τ} {f : Failure}
    (h : c t = (.error f, t')) :
    ∃ e t'', c.guarded t = (.error e, t'') ∧ t''.state = t'.state := by
  rcases c.guarded_cases t with ⟨b, t'', hc, -⟩ | ⟨f', e, next, t'', hc, hguarded, hstate⟩
  · cases h.symm.trans hc
  · cases h.symm.trans hc
    exact ⟨e, t'', hguarded, hstate⟩

theorem Call.state_guarded (c : Call τ α) (t : Traced τ) :
    (c.guarded t).2.state = (c t).2.state := by
  rcases c.guarded_cases t with ⟨a, t', hc, hguarded⟩ | ⟨f, e, t', t'', hc, hguarded, hstate⟩
  · rw [hc, hguarded]
  · rw [hc, hguarded, hstate]

/-! ## The gate -/

theorem Scope.check_eq_ok {sc : Scope} {current : Nat} (h : sc.check current = .ok ()) :
    sc.finished = false ∧ current = sc.depth := by
  unfold check at h
  split at h
  · cases h
  · split at h
    · cases h
    · rename_i hunfinished hdepth
      exact ⟨Bool.eq_false_iff.2 hunfinished, Decidable.of_not_not hdepth⟩

namespace Mapper

/-- A scope that may be used: it has not ended, and is the innermost one of its session. -/
structure Open (b : Backend σ) (m : Mapper σ) (k : Nat) (sc : Scope) : Prop where
  scope : m.scope? k = some sc
  unfinished : sc.finished = false
  innermost : b.depth sc.session m.store = sc.depth

theorem isFinished_of_scope {m : Mapper σ} {k : Nat} {sc : Scope} (h : m.scope? k = some sc) :
    m.isFinished k = sc.finished := by
  rw [isFinished, h]
  rfl

theorem Open.isFinished {b : Backend σ} {m : Mapper σ} {k : Nat} {sc : Scope}
    (h : Open b m k sc) : m.isFinished k = false :=
  (isFinished_of_scope h.scope).trans h.unfinished

theorem run_scope (k : Nat) (t : Traced (Mapper σ)) :
    scope k t = match t.state.scope? k with
      | some sc => (.ok sc, t)
      | none => (.error (.error Scope.alreadyFinished), t) := by
  show (match t.state.scope? k with | some sc => pure sc | none => Call.fail _ :
    Call (Mapper σ) Scope) t = _
  cases t.state.scope? k <;> rfl

theorem run_checkOpen (b : Backend σ) (k : Nat) (t : Traced (Mapper σ)) :
    checkOpen b k t = match t.state.scope? k with
      | some sc => match sc.check (b.depth sc.session t.state.store) with
        | .ok () => (.ok sc, t)
        | .error e => (.error (.error e), t)
      | none => (.error (.error Scope.alreadyFinished), t) := by
  rw [checkOpen, Call.run_bind, run_scope]
  cases t.state.scope? k with
  | none => rfl
  | some sc =>
    show ((Call.ofResult (sc.check (b.depth sc.session t.state.store)) >>= fun _ => pure sc) :
      Call (Mapper σ) Scope) t = _
    dsimp only
    generalize sc.check (b.depth sc.session t.state.store) = outcome
    cases outcome <;> rfl

/-- What follows the gate is refused without a trace, or goes on in an open scope. -/
theorem checkOpen_bind (b : Backend σ) (k : Nat) (rest : Scope → Call (Mapper σ) α)
    (t : Traced (Mapper σ)) :
    ((∀ sc, ¬Open b t.state k sc) ∧ ∃ e, (checkOpen b k >>= rest) t = (.error e, t)) ∨
      ∃ sc, Open b t.state k sc ∧ (checkOpen b k >>= rest) t = rest sc t := by
  rw [Call.run_bind, run_checkOpen]
  cases hk : t.state.scope? k with
  | none =>
    refine .inl ⟨fun sc hopen => ?_, _, rfl⟩
    cases hk.symm.trans hopen.scope
  | some sc =>
    dsimp only
    cases hopen : sc.check (b.depth sc.session t.state.store) with
    | error e =>
      refine .inl ⟨fun sc' hopen' => ?_, _, rfl⟩
      cases hk.symm.trans hopen'.scope
      rw [Scope.check, hopen'.unfinished, hopen'.innermost] at hopen
      simp at hopen
    | ok =>
      obtain ⟨hunfinished, hinnermost⟩ := Scope.check_eq_ok hopen
      exact .inr ⟨sc, ⟨hk, hunfinished, hinnermost⟩, rfl⟩

/-- The same for an operation at a place that is a scope. -/
theorem enter_bind (b : Backend σ) (k : Nat) (rest : Nat → Call (Mapper σ) α)
    (t : Traced (Mapper σ)) :
    (∃ e, (enter b (.scope k) >>= rest) t = (.error e, t)) ∨
      ∃ sc, Open b t.state k sc ∧ (enter b (.scope k) >>= rest) t = rest sc.session t := by
  have hassoc : (enter b (.scope k) >>= rest) =
      checkOpen b k >>= fun sc => rest sc.session := by
    rw [enter, bind_assoc]
    rfl
  rw [hassoc]
  exact (checkOpen_bind b k _ t).imp And.right id

/-- And for a search there, whose query is looked at behind the gate. -/
theorem ready_bind (b : Backend σ) (k : Nat) (q : Result Query)
    (rest : Nat × Query → Call (Mapper σ) α) (t : Traced (Mapper σ)) :
    (∃ e, (Search.ready b ⟨.scope k, q⟩ >>= rest) t = (.error e, t)) ∨
      ∃ sc found, Open b t.state k sc ∧
        (Search.ready b ⟨.scope k, q⟩ >>= rest) t = rest (sc.session, found) t := by
  have hassoc : (Search.ready b ⟨.scope k, q⟩ >>= rest) =
      enter b (.scope k) >>= fun session => Call.ofResult q >>= fun found =>
        rest (session, found) := by
    rw [Search.ready, bind_assoc]
    simp only [bind_assoc, pure_bind]
  rw [hassoc]
  rcases enter_bind b k (fun session => Call.ofResult q >>= fun found => rest (session, found)) t
    with ⟨e, h⟩ | ⟨sc, hopen, h⟩
  · exact .inl ⟨e, h⟩
  · rw [h]
    cases q with
    | error e => exact .inl ⟨_, rfl⟩
    | ok found => exact .inr ⟨sc, found, hopen, rfl⟩

/-! ## Work inside a transaction -/

/-- Only the transaction of a session has changed, and no scope has been opened or ended. -/
structure Inside (session : Nat) (m m' : Mapper Cluster) : Prop where
  scopes : m'.scopes = m.scopes
  others : m'.store.without session = m.store.without session
  depth : m'.store.depth session = m.store.depth session

namespace Inside

variable {session : Nat} {m m' m'' : Mapper Cluster}

theorem refl (session : Nat) (m : Mapper Cluster) : Inside session m m := ⟨rfl, rfl, rfl⟩

theorem trans (h : Inside session m m') (h' : Inside session m' m'') : Inside session m m'' :=
  ⟨h'.scopes.trans h.scopes, h'.others.trans h.others, h'.depth.trans h.depth⟩

end Inside

/-- While the session is in a transaction, the call changes nothing else. -/
def WorksOn (session : Nat) (c : Call (Mapper Cluster) α) : Prop :=
  ∀ t, 0 < t.state.store.depth session → Inside session t.state (c t).2.state

namespace WorksOn

variable {session : Nat}

theorem of_state {c : Call (Mapper Cluster) α} (h : ∀ t, (c t).2.state = t.state) :
    WorksOn session c := fun t _ => (h t).symm ▸ Inside.refl session t.state

theorem bind {c : Call (Mapper Cluster) α} {f : α → Call (Mapper Cluster) β}
    (h : WorksOn session c) (hrest : ∀ a, WorksOn session (f a)) : WorksOn session (c >>= f) := by
  intro t hdepth
  have hfirst := h t hdepth
  rw [Call.run_bind]
  rcases hc : c t with ⟨outcome, next⟩
  rw [hc] at hfirst
  cases outcome with
  | error e => exact hfirst
  | ok a => exact hfirst.trans (hrest a next (hfirst.depth ▸ hdepth))

theorem pure (a : α) : WorksOn session (Pure.pure a) := of_state fun _ => rfl

theorem ofResult (r : Result α) : WorksOn session (Call.ofResult r) :=
  of_state fun t => by rw [Call.state_ofResult]

/-- An action of the backend that only reads and writes. -/
theorem onStore {c : Call Cluster α} {f : α → Yield} {a : Action}
    (hperform : a.perform Memory.backend session = c >>= fun x => Pure.pure (f x))
    (ha : Memory.Works a) : WorksOn session (onStore c) := by
  intro t hdepth
  have hstep := Memory.Cluster.perform_step session a ⟨t.state.store, t.events⟩
  rw [hperform, Call.state_answering] at hstep
  obtain ⟨hothers, hsame⟩ := hstep.own ha hdepth
  exact ⟨rfl, hothers, hsame⟩

end WorksOn

/-- The call is refused at the gate of a scope, or works on the transaction of its session. -/
def Gated (k : Nat) (c : Call (Mapper Cluster) α) : Prop :=
  ∀ t, (∃ e, c t = (.error e, t)) ∨
    ∃ sc rest, Open Memory.backend t.state k sc ∧ WorksOn sc.session rest ∧ c t = rest t

namespace Gated

variable {k : Nat}

theorem checkOpen {rest : Scope → Call (Mapper Cluster) α}
    (h : ∀ sc, WorksOn sc.session (rest sc)) :
    Gated k (Mapper.checkOpen Memory.backend k >>= rest) := by
  intro t
  rcases checkOpen_bind Memory.backend k rest t with ⟨-, hrefused⟩ | ⟨sc, hopen, hrun⟩
  · exact .inl hrefused
  · exact .inr ⟨sc, rest sc, hopen, h sc, hrun⟩

theorem enter {rest : Nat → Call (Mapper Cluster) α} (h : ∀ session, WorksOn session (rest session)) :
    Gated k (Mapper.enter Memory.backend (.scope k) >>= rest) := by
  intro t
  rcases enter_bind Memory.backend k rest t with hrefused | ⟨sc, hopen, hrun⟩
  · exact .inl hrefused
  · exact .inr ⟨sc, rest sc.session, hopen, h sc.session, hrun⟩

theorem ready {q : Result Query} {rest : Nat × Query → Call (Mapper Cluster) α}
    (h : ∀ session found, WorksOn session (rest (session, found))) :
    Gated k (Search.ready Memory.backend ⟨.scope k, q⟩ >>= rest) := by
  intro t
  rcases ready_bind Memory.backend k q rest t with hrefused | ⟨sc, found, hopen, hrun⟩
  · exact .inl hrefused
  · exact .inr ⟨sc, rest (sc.session, found), hopen, h sc.session found, hrun⟩

theorem bind {c : Call (Mapper Cluster) α} {f : α → Call (Mapper Cluster) β} (h : Gated k c)
    (hrest : ∀ session a, WorksOn session (f a)) : Gated k (c >>= f) := by
  intro t
  rcases h t with ⟨e, hrefused⟩ | ⟨sc, rest, hopen, hworks, hrun⟩
  · refine .inl ⟨e, ?_⟩
    rw [Call.run_bind, hrefused]
  · refine .inr ⟨sc, rest >>= f, hopen, hworks.bind (hrest sc.session), ?_⟩
    rw [Call.run_bind, Call.run_bind, hrun]

/-- What it changes is inside the transaction of the scope. -/
theorem inside {c : Call (Mapper Cluster) α} (h : Gated k c) {t : Traced (Mapper Cluster)}
    {sc : Scope} (hk : t.state.scope? k = some sc) (hdepth : 0 < sc.depth) :
    Inside sc.session t.state (c.guarded t).2.state := by
  rw [Call.state_guarded]
  rcases h t with ⟨e, hrefused⟩ | ⟨sc', rest, hopen, hworks, hrun⟩
  · rw [hrefused]
    exact .refl sc.session t.state
  · cases hk.symm.trans hopen.scope
    rw [hrun]
    -- The gate has compared the depths, so the session is in a transaction.
    exact hworks t (Nat.lt_of_lt_of_eq hdepth hopen.innermost.symm)

end Gated

end Mapper

/-- Something to do in a scope besides opening and ending one. -/
inductive Work where
  | add {M : Type} (m : Model M) (models : List M)
  | first {M : Type} (m : Model M) (q : Result Query)
  | one {M : Type} (m : Model M) (q : Result Query)
  | count (q : Result Query)
  | update (q : Result Query) (values : Record)
  | delete (q : Result Query)
  | all (q : Result Query)
  /-- A cursor that a search has left goes on by itself. -/
  | next {M : Type} (m : Model M) (c : Cursor)
  | useModels (models : Catalog)
  | removeModels (models : Catalog)

namespace Work

/-- What the work in a scope leaves behind, whatever its answer is. -/
def after (b : Backend σ) (k : Nat) (t : Traced (Mapper σ)) : Work → Traced (Mapper σ)
  | add m models => (Mapper.add b m (.scope k) models t).2
  | first m q => (Search.first b m ⟨.scope k, q⟩ t).2
  | one m q => (Search.one b m ⟨.scope k, q⟩ t).2
  | count q => (Search.count b ⟨.scope k, q⟩ t).2
  | update q values => (Search.update b ⟨.scope k, q⟩ values t).2
  | delete q => (Search.delete b ⟨.scope k, q⟩ t).2
  | all q => (Search.all b ⟨.scope k, q⟩ t).2
  | next m c => (Mapper.onStore (c.next? b m) t).2
  | useModels models => (Mapper.useModelsIn b k models t).2
  | removeModels models => (Mapper.removeModelsIn b k models t).2

open Mapper (WorksOn Gated Inside)

theorem gated_fetchFirst {M : Type} (k : Nat) (m : Model M) (q : Result Query) :
    Gated k (Search.fetchFirst Memory.backend m ⟨.scope k, q⟩) := by
  refine .ready fun session found => ?_
  refine .bind (.onStore (a := .fetch (found.batch 0 1)) rfl trivial) fun records => ?_
  cases records with
  | nil => exact .pure none
  | cons r rest => exact .bind (.ofResult _) fun a => .pure (some a)

theorem fill_state (c : Cursor) (t : Traced Cluster) :
    (c.fill Memory.backend t).2.state = t.state := by
  have hfetch : ((Memory.backend.fetch c.session (c.query.batch c.nextBatch batchSize)) t).2.state =
      t.state := Cluster.fetch_state _ _ t
  rw [Cursor.fill, Call.run_bind]
  rcases hrun : Memory.backend.fetch c.session (c.query.batch c.nextBatch batchSize) t with
    ⟨outcome, next⟩
  rw [hrun] at hfetch
  cases outcome <;> exact hfetch

theorem next_state {M : Type} (m : Model M) (c : Cursor) (t : Traced Cluster) :
    (c.next? Memory.backend m t).2.state = t.state := by
  have hfill := fill_state c t
  unfold Cursor.next?
  split
  · have hattempt : Call.attempt (c.fill Memory.backend) t =
        (.ok (c.fill Memory.backend t).1, (c.fill Memory.backend t).2) := rfl
    rw [Call.run_bind, hattempt]
    rcases hrun : c.fill Memory.backend t with ⟨outcome, after⟩
    rw [hrun] at hfill
    rcases outcome with (e | text) | filled <;> exact hfill
  · rfl

theorem inside (w : Work) {k : Nat} {t : Traced (Mapper Cluster)} {sc : Scope}
    (hk : t.state.scope? k = some sc) (hdepth : 0 < sc.depth) :
    Inside sc.session t.state (w.after Memory.backend k t).state := by
  cases w with
  | add m models =>
    refine Gated.inside (.enter fun session => ?_) hk hdepth
    -- The stored records are read after the store has changed.
    exact .bind (.onStore (a := .add m.schema (models.map m.toRecord)) rfl trivial) fun _ =>
      .ofResult _
  | first m q => exact (gated_fetchFirst k m q).inside hk hdepth
  | one m q =>
    refine ((gated_fetchFirst k m q).bind fun session found => ?_).inside hk hdepth
    cases found with
    | none => exact .of_state fun _ => rfl
    | some a => exact .pure a
  | count q =>
    refine Gated.inside (.ready fun session found => ?_) hk hdepth
    exact .onStore (a := .count found) rfl trivial
  | update q values =>
    refine Gated.inside (.ready fun session found => ?_) hk hdepth
    exact .onStore (a := .update found values) rfl trivial
  | delete q =>
    refine Gated.inside (.ready fun session found => ?_) hk hdepth
    exact .onStore (a := .delete found) rfl trivial
  | all q =>
    refine Gated.inside (.ready fun session found => .of_state fun t => ?_) hk hdepth
    exact congrArg (fun c => { t.state with store := c }) (fill_state _ ⟨t.state.store, t.events⟩)
  | next m c =>
    have hstate : (Mapper.onStore (c.next? Memory.backend m) t).2.state = t.state :=
      congrArg (fun c => { t.state with store := c }) (next_state m c ⟨t.state.store, t.events⟩)
    show Inside sc.session t.state (Mapper.onStore (c.next? Memory.backend m) t).2.state
    rw [hstate]
    exact .refl sc.session t.state
  | useModels models =>
    refine Gated.inside (.checkOpen fun sc => ?_) hk hdepth
    exact .bind (.onStore (a := .drop models) rfl trivial) fun _ =>
      .onStore (a := .create models) rfl trivial
  | removeModels models =>
    refine Gated.inside (.checkOpen fun sc => ?_) hk hdepth
    exact .onStore (a := .drop models) rfl trivial

end Work

/-! ## The life of a scope -/

def Scope.ended (sc : Scope) : Scope := { sc with finished := true }

namespace Mapper

/-- The mapper with another store and one scope more that has ended. -/
def ending (m : Mapper σ) (k : Nat) (store : σ) : Mapper σ :=
  { m with store := store, scopes := m.scopes.modify k Scope.ended }

theorem scope?_ending (m : Mapper σ) (k : Nat) (store : σ) (j : Nat) :
    (m.ending k store).scope? j = (m.scope? j).map fun sc => if k = j then sc.ended else sc :=
  List.getElem?_modify ..

theorem isFinished_ending {m : Mapper σ} {k : Nat} {sc : Scope} (h : m.scope? k = some sc)
    (store : σ) : (m.ending k store).isFinished k = true := by
  rw [isFinished, scope?_ending, h]
  simp [Scope.ended]

theorem isFinished_ending_of_ne (m : Mapper σ) {k j : Nat} (h : j ≠ k) (store : σ) :
    (m.ending k store).isFinished j = m.isFinished j := by
  rw [isFinished, scope?_ending, isFinished]
  simp [h.symm]

/-- No scope is unfinished again. -/
theorem isFinished_ending_of_finished {m : Mapper σ} {j : Nat} (h : m.isFinished j = true)
    (k : Nat) (store : σ) : (m.ending k store).isFinished j = true := by
  by_cases hj : j = k
  · subst hj
    cases hsc : m.scope? j with
    | none =>
      rw [isFinished, scope?_ending, hsc]
      rfl
    | some sc => exact isFinished_ending hsc store
  · rw [isFinished_ending_of_ne m hj, h]

/-- A scope that ends stays where it is. -/
theorem exists_scope_ending {m : Mapper σ} {j : Nat} (P : Nat → Nat → Prop)
    (h : ∃ sc, m.scope? j = some sc ∧ P sc.session sc.depth) (k : Nat) (store : σ) :
    ∃ sc, (m.ending k store).scope? j = some sc ∧ P sc.session sc.depth := by
  obtain ⟨sc, hsc, hP⟩ := h
  refine ⟨if k = j then sc.ended else sc, ?_, ?_⟩
  · rw [scope?_ending, hsc, Option.map_some]
  · split <;> exact hP

section

variable {m m' : Mapper σ} {new : Scope} (h : m'.scopes = m.scopes ++ [new])

include h

theorem scope?_added : m'.scope? m.scopes.length = some new := by
  rw [scope?, h, List.getElem?_concat_length]

/-- The scopes that were there before a new one are as they were. -/
theorem scope?_of_added {j : Nat} (hj : j < m.scopes.length) : m'.scope? j = m.scope? j := by
  rw [scope?, h, List.getElem?_append_left hj, scope?]

theorem isFinished_of_added {j : Nat} (hj : j < m.scopes.length) :
    m'.isFinished j = m.isFinished j := by
  rw [isFinished, isFinished, scope?_of_added h hj]

end

theorem run_onStore (c : Call σ α) (t : Traced (Mapper σ)) :
    onStore c t = ((c ⟨t.state.store, t.events⟩).1,
      ⟨{ t.state with store := (c ⟨t.state.store, t.events⟩).2.state },
        (c ⟨t.state.store, t.events⟩).2.events⟩) := rfl

/-- The mapper with another store and a new scope, which has just been begun there. -/
def opening (b : Backend σ) (m : Mapper σ) (session : Nat) (store : σ) : Mapper σ :=
  { m with store := store, scopes := m.scopes ++ [⟨session, b.depth session store, false⟩] }

/-- A nested scope is refused at the gate, or opens if the backend begins it. -/
theorem begin_nested (b : Backend σ) (k : Nat) (t : Traced (Mapper σ)) :
    (∃ e t', begin b (.scope k) t = (.error e, t') ∧ t'.state = t.state) ∨
      ∃ sc, Open b t.state k sc ∧ ∀ s,
        b.begin sc.session ⟨t.state.store, t.events⟩ = (.ok (), s) →
        begin b (.scope k) t =
          (.ok t.state.scopes.length, ⟨t.state.opening b sc.session s.state, s.events⟩) := by
  rcases enter_bind b k (fun session => do
      onStore (b.begin session)
      addScope b session) t with ⟨e, hrefused⟩ | ⟨sc, hopen, hrun⟩
  · exact .inl (Call.guarded_error hrefused)
  · refine .inr ⟨sc, hopen, fun s hbegin => Call.guarded_ok (hrun.trans ?_)⟩
    rw [Call.run_bind, run_onStore, hbegin]
    rfl

/-- A nested scope is refused, or opened one deeper in the same session. -/
theorem begin_scope (k : Nat) (t : Traced (Mapper Cluster)) :
    (∃ e t', begin Memory.backend (.scope k) t = (.error e, t') ∧ t'.state = t.state) ∨
      ∃ sc t', Open Memory.backend t.state k sc ∧
        begin Memory.backend (.scope k) t = (.ok t.state.scopes.length, t') ∧
        t'.state = { t.state with
          store := t.state.store.begin sc.session
          scopes := t.state.scopes ++
            [⟨sc.session, (t.state.store.begin sc.session).depth sc.session, false⟩] } :=
  (begin_nested Memory.backend k t).imp id fun ⟨sc, hopen, hrun⟩ =>
    ⟨sc, _, hopen, hrun _ rfl, rfl⟩

/-- Pass the gate, mark the scope and ask the backend. -/
def endBy (b : Backend σ) (ask : Nat → Call σ Unit) (k : Nat) : Op (Mapper σ) Unit :=
  Call.guarded do
    let sc ← finish b k
    onStore (ask sc.session)

theorem endBy_scope (b : Backend σ) (ask : Nat → Call σ Unit) (k : Nat) (t : Traced (Mapper σ)) :
    ((∀ sc, ¬Open b t.state k sc) ∧
        ∃ e t', endBy b ask k t = (.error e, t') ∧ t'.state = t.state) ∨
      ∃ sc, Open b t.state k sc ∧
        (endBy b ask k t).1.isOk = (ask sc.session ⟨t.state.store, t.events⟩).1.isOk ∧
        (endBy b ask k t).2.state =
          t.state.ending k (ask sc.session ⟨t.state.store, t.events⟩).2.state := by
  have hassoc : (do
        let sc ← finish b k
        onStore (ask sc.session) : Call (Mapper σ) Unit) =
      checkOpen b k >>= fun sc => markFinished k >>= fun _ => onStore (ask sc.session) := by
    simp only [finish, bind_assoc, pure_bind]
  rcases checkOpen_bind b k (fun sc => markFinished k >>= fun _ => onStore (ask sc.session)) t
    with ⟨hclosed, e, hrefused⟩ | ⟨sc, hopen, hrun⟩
  · rw [← hassoc] at hrefused
    exact .inl ⟨hclosed, Call.guarded_error hrefused⟩
  · rw [← hassoc] at hrun
    refine .inr ⟨sc, hopen, ?_⟩
    -- The scope is marked before the backend answers, so it has ended even if that fails.
    have hask : (markFinished k >>= fun _ => onStore (ask sc.session)) t =
        ((ask sc.session ⟨t.state.store, t.events⟩).1,
          ⟨t.state.ending k (ask sc.session ⟨t.state.store, t.events⟩).2.state,
            (ask sc.session ⟨t.state.store, t.events⟩).2.events⟩) := rfl
    rw [hask] at hrun
    rcases hanswer : (ask sc.session ⟨t.state.store, t.events⟩).1 with f | a
    · rw [hanswer] at hrun
      obtain ⟨e, t', hguarded, hstate⟩ := Call.guarded_error hrun
      rw [endBy, hguarded]
      exact ⟨rfl, hstate⟩
    · rw [hanswer] at hrun
      rw [endBy, Call.guarded_ok hrun]
      exact ⟨rfl, rfl⟩

theorem isFinished_endBy {b : Backend σ} (ask : Nat → Call σ Unit) {k : Nat}
    {t : Traced (Mapper σ)} {sc : Scope} (h : Open b t.state k sc) :
    (endBy b ask k t).2.state.isFinished k = true := by
  rcases endBy_scope b ask k t with ⟨hclosed, -⟩ | ⟨sc', hopen, -, hstate⟩
  · exact absurd h (hclosed sc)
  · rw [hstate]
    exact isFinished_ending hopen.scope _

/-- A commit is refused without a trace, or is that of the backend. -/
theorem commit_scope (k : Nat) (t : Traced (Mapper Cluster)) :
    ((∀ sc, ¬Open Memory.backend t.state k sc) ∧
        ∃ e t', commit Memory.backend k t = (.error e, t') ∧ t'.state = t.state) ∨
      ∃ sc, Open Memory.backend t.state k sc ∧
        (commit Memory.backend k t).1.isOk = (t.state.store.commit sc.session).1.isOk ∧
        (commit Memory.backend k t).2.state =
          t.state.ending k (t.state.store.commit sc.session).2 := by
  rcases endBy_scope Memory.backend Memory.backend.commit k t with hrefused | ⟨sc, hopen, hok, hstate⟩
  · exact .inl hrefused
  · refine .inr ⟨sc, hopen, hok.trans (Cluster.commit_isOk _ _), hstate.trans ?_⟩
    exact congrArg (t.state.ending k) (Cluster.commit_state _ _)

theorem rollback_scope (k : Nat) (t : Traced (Mapper Cluster)) :
    ((∀ sc, ¬Open Memory.backend t.state k sc) ∧
        ∃ e t', rollback Memory.backend k t = (.error e, t') ∧ t'.state = t.state) ∨
      ∃ sc, Open Memory.backend t.state k sc ∧
        (rollback Memory.backend k t).2.state =
          t.state.ending k (t.state.store.rollback sc.session).2 := by
  rcases endBy_scope Memory.backend Memory.backend.rollback k t with hrefused | ⟨sc, hopen, -, hstate⟩
  · exact .inl hrefused
  · refine .inr ⟨sc, hopen, hstate.trans ?_⟩
    exact congrArg (t.state.ending k) (Cluster.rollback_state _ _)

/-- A scheduled rollback is that of the backend, whatever it answers. -/
theorem background_scope {k : Nat} {t : Traced (Mapper Cluster)} {sc : Scope}
    (hk : t.state.scope? k = some sc) :
    ∃ t', rollBackInBackground Memory.backend k t = (.ok (), t') ∧
      t'.state = { t.state with store := (t.state.store.rollback sc.session).2 } := by
  rcases hrun : Memory.backend.rollback sc.session ⟨t.state.store, t.events⟩ with
    ⟨outcome, store, events⟩
  have hstore : store = (t.state.store.rollback sc.session).2 := by
    have hstate := Cluster.rollback_state sc.session ⟨t.state.store, t.events⟩
    rw [← hstate]
    exact congrArg (fun run => run.2.state) hrun.symm
  -- A failure of the backend is reported and goes no further.
  have hattempt : Call.attempt (onStore (Memory.backend.rollback sc.session)) t =
      (.ok outcome, ⟨{ t.state with store := store }, events⟩) := by
    show (match (match Memory.backend.rollback sc.session ⟨t.state.store, t.events⟩ with
      | (outcome, after) => (outcome, (⟨{ t.state with store := after.state }, after.events⟩ :
          Traced (Mapper Cluster)))) with
      | (outcome, after) => (Except.ok outcome, after)) = _
    rw [hrun]
  rw [rollBackInBackground, Call.run_bind, run_scope, hk]
  dsimp only
  rw [Call.run_bind, hattempt, ← hstore]
  rcases outcome with (e | text) | a <;> exact ⟨_, rfl, rfl⟩

/-- Letting go of a scope says whether it was unfinished, and schedules nothing yet. -/
theorem letGo_scope {k : Nat} {t : Traced (Mapper σ)} {sc : Scope}
    (hk : t.state.scope? k = some sc) (runtime : Bool) :
    ∃ t', letGo k runtime t = (.ok (!sc.finished), t') ∧ t'.state = t.state := by
  obtain ⟨session, depth, finished⟩ := sc
  rw [letGo, Call.run_bind, run_scope, hk]
  cases finished <;> cases runtime <;> exact ⟨_, rfl, rfl⟩

/-! ## On the database -/

theorem create_ok (c : Cluster) (id : Nat) (models : Catalog) :
    (c.create id models).1 = .ok () := by
  unfold Cluster.create Cluster.write
  split <;> rfl

section

variable {b : Backend σ} {I : σ → Prop}
  (hcreate : ∀ models (s : Traced σ), I s.state →
    ∃ s', b.create 0 models s = (.ok (), s') ∧ I s'.state)

include hcreate

theorem createRegistered_of_creates (models : Catalog) {t : Traced (Mapper σ)}
    (h : I t.state.store) :
    ∃ t', createRegistered b models t = (.ok (), t') ∧ I t'.state.store := by
  obtain ⟨s', hrun, hs'⟩ := hcreate models ⟨t.state.store, Report.creating models :: t.events⟩ h
  have hattempt : Call.attempt (onStore (b.create 0 models))
      ⟨t.state, Report.creating models :: t.events⟩ =
        (.ok (.ok ()), ⟨{ t.state with store := s'.state }, s'.events⟩) := by
    show (Except.ok (onStore (b.create 0 models) _).1, (onStore (b.create 0 models) _).2) = _
    rw [run_onStore, hrun]
  rw [createRegistered, Call.run_bind, Call.run_emit]
  dsimp only
  rw [Call.run_bind, hattempt]
  exact ⟨_, rfl, hs'⟩

/-- Setup does not fail where creating tables does not. -/
theorem ensure_of_creates {t : Traced (Mapper σ)} (h : I t.state.store) :
    ∃ t', ensure b t = (.ok (), t') ∧ I t'.state.store := by
  have hstate : Call.state t = (.ok t.state, t) := rfl
  rw [ensure, Call.run_bind, hstate]
  dsimp only
  split
  · split
    · obtain ⟨t', hcreated, ht'⟩ := createRegistered_of_creates hcreate t.state.setup.models h
      rw [Call.run_bind, hcreated]
      exact ⟨_, rfl, ht'⟩
    · exact ⟨_, rfl, h⟩
  · exact ⟨t, rfl, h⟩

end

theorem backend_creates (models : Catalog) (s : Traced Cluster) :
    ∃ s', Memory.backend.create 0 models s = (.ok (), s') := by
  show ∃ s', Call.step (fun c => c.create 0 models) ⟨s.state, _ :: s.events⟩ = (.ok (), s')
  rw [Call.run_step, create_ok]
  exact ⟨_, rfl⟩

theorem ensure_ok (t : Traced (Mapper Cluster)) :
    ∃ t', ensure Memory.backend t = (.ok (), t') := by
  obtain ⟨t', hensure, -⟩ := ensure_of_creates (b := Memory.backend) (I := fun _ => True)
    (fun models s _ => (backend_creates models s).imp fun _ hrun => ⟨hrun, trivial⟩)
    (t := t) trivial
  exact ⟨t', hensure⟩

/-- A scope on the database opens on a session of its own. -/
theorem begin_on_database {b : Backend σ} {t t' : Traced (Mapper σ)} {session : Nat}
    {s s' : Traced σ} (hensure : ensure b t = (.ok (), t'))
    (hsession : b.openSession 0 ⟨t'.state.store, t'.events⟩ = (.ok session, s))
    (hbegin : b.begin session s = (.ok (), s')) :
    begin b .database t =
      (.ok t'.state.scopes.length, ⟨t'.state.opening b session s'.state, s'.events⟩) := by
  have henter : enter b .database t = (.ok 0, t') := by
    rw [enter, Call.run_bind, hensure]
    rfl
  refine Call.guarded_ok ?_
  rw [Call.run_bind, henter]
  dsimp only
  rw [Call.run_bind, run_onStore, hsession]
  dsimp only
  rw [Call.run_bind, run_onStore]
  dsimp only
  rw [hbegin]
  rfl

theorem scope?_opening (b : Backend σ) (m : Mapper σ) (session : Nat) (store : σ) :
    (m.opening b session store).scope? m.scopes.length =
      some ⟨session, b.depth session store, false⟩ :=
  List.getElem?_concat_length

/-- In memory it has the shared store. -/
theorem begin_database (t : Traced (Mapper Cluster)) :
    ∃ tx session t₀, begin Memory.backend .database t = (.ok tx, t₀) ∧
      t₀.state.scope? tx = some ⟨session, 1, false⟩ ∧
      t₀.state.store.session session = some ⟨t₀.state.store.shared, [], []⟩ := by
  obtain ⟨t', hensure⟩ := ensure_ok t
  let c := t'.state.store
  have hsession : (c.openSession.2.begin c.sessions.length).session c.sessions.length =
      some ⟨c.shared, [], []⟩ := Cluster.session_begin_new c
  refine ⟨_, c.sessions.length, _, begin_on_database hensure rfl rfl, ?_, hsession⟩
  rw [scope?_opening]
  show some (Scope.mk _ ((c.openSession.2.begin c.sessions.length).depth c.sessions.length) _) = _
  rw [Cluster.depth, hsession]
  rfl

end Mapper

end ModelMapper
