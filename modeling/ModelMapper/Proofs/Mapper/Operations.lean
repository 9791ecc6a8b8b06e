import ModelMapper.Proofs.Mapper.Scopes

/-! # Whole operations

What can be done with the handle of a scope, as data.  Every operation passes the gate of its
scope first and then makes its calls to the backend, one after the other.

* `Operation`, `Operation.perform` — an operation and what it does.
* `Mapper.checkOpen_cases` — the gate lets through, or refuses as a transaction.
* `Operation.perform_refused` — then the operation changes nothing.
* `Operation.gate`, `Operation.calls`, `Operation.proceed` — the same in steps: the gate, and one
  call after the other.
* `Operation.perform_proceeds` — the steps in a row leave behind what the operation does.
-/

namespace ModelMapper

variable {σ τ α β γ : Type}

/-! ## Operations -/

namespace Work

/-- Work in a scope, with no regard to its answer. -/
def perform (b : Backend σ) (k : Nat) : Work → Op (Mapper σ) Unit
  | add m models => discard (Mapper.add b m (.scope k) models)
  | first m q => discard (Search.first b m ⟨.scope k, q⟩)
  | one m q => discard (Search.one b m ⟨.scope k, q⟩)
  | count q => discard (Search.count b ⟨.scope k, q⟩)
  | update q values => discard (Search.update b ⟨.scope k, q⟩ values)
  | delete q => discard (Search.delete b ⟨.scope k, q⟩)
  | all q => discard (Search.all b ⟨.scope k, q⟩)
  | next m c => discard (Call.guarded (Mapper.onStore (c.next? b m)))
  | useModels models => Mapper.useModelsIn b k models
  | removeModels models => Mapper.removeModelsIn b k models

/-- Only a cursor goes on without the gate of its scope. -/
def Gated : Work → Prop
  | next _ _ => False
  | _ => True

end Work

/-- What can be done with a handle of a scope. -/
inductive Operation where
  | work (w : Work) (gated : w.Gated)
  | begin
  | commit
  | rollback

namespace Operation

/-- The whole operation.  The answer is the scope it has opened, if it opens one. -/
def perform (b : Backend σ) (k : Nat) : Operation → Op (Mapper σ) (Option Nat)
  | work w _ => (fun _ => none) <$> w.perform b k
  | begin => some <$> Mapper.begin b (.scope k)
  | commit => (fun _ => none) <$> Mapper.commit b k
  | rollback => (fun _ => none) <$> Mapper.rollback b k

def ends : Operation → Bool
  | commit | rollback => true
  | _ => false

end Operation

/-- A map over a call or an operation. -/
theorem run_map {ε : Type} (f : α → β) (c : ExceptT ε (StateM τ) α) (t : τ) :
    (f <$> c) t = ((c t).1.map f, (c t).2) := by
  rw [← bind_pure_comp]
  show (ExceptT.bindCont (fun a => pure (f a)) (c t).1 : StateM τ (Except ε β)) (c t).2 = _
  rcases c t with ⟨outcome, after⟩
  cases outcome <;> rfl

theorem run_discard {ε : Type} (c : ExceptT ε (StateM τ) α) (t : τ) :
    discard c t = ((c t).1.map fun _ => (), (c t).2) := run_map (fun _ => ()) c t

theorem Work.perform_state (w : Work) (b : Backend σ) (k : Nat) (t : Traced (Mapper σ)) :
    (w.perform b k t).2.state = (w.after b k t).state := by
  cases w with
  | next m c =>
    rw [perform, run_discard, Call.state_guarded]
    rfl
  | useModels | removeModels => rfl
  | _ =>
    rw [perform, run_discard]
    rfl

/-! ## Refusals -/

theorem Scope.check_error_kind {sc : Scope} {current : Nat} {e : Error}
    (h : sc.check current = .error e) : e.kind = .raised .transaction := by
  unfold check at h
  split at h
  · cases h
    rfl
  · split at h
    · cases h
      rfl
    · cases h

namespace Mapper

variable {b : Backend σ} {k : Nat} {t : Traced (Mapper σ)} {e : Error}

/-- The gate of a scope looks, and answers with the scope or a transaction error. -/
theorem checkOpen_cases (b : Backend σ) (k : Nat) (t : Traced (Mapper σ)) :
    (∃ sc, Open b t.state k sc ∧ checkOpen b k t = (.ok sc, t)) ∨
      (∀ sc, ¬Open b t.state k sc) ∧
        ∃ e, e.kind = .raised .transaction ∧ checkOpen b k t = (.error (.error e), t) := by
  rcases checkOpen_bind b k pure t with ⟨hclosed, -⟩ | ⟨sc, hopen, hrun⟩
  · refine .inr ⟨hclosed, ?_⟩
    rw [run_checkOpen]
    cases hk : t.state.scope? k with
    | none => exact ⟨_, rfl, rfl⟩
    | some sc =>
      dsimp only
      cases hcheck : sc.check (b.depth sc.session t.state.store) with
      | error e => exact ⟨e, Scope.check_error_kind hcheck, rfl⟩
      | ok =>
        obtain ⟨hunfinished, hinnermost⟩ := Scope.check_eq_ok hcheck
        exact absurd ⟨hk, hunfinished, hinnermost⟩ (hclosed sc)
  · rw [bind_pure] at hrun
    exact .inl ⟨sc, hopen, hrun⟩

theorem enter_refused (h : checkOpen b k t = (.error (.error e), t)) :
    enter b (.scope k) t = (.error (.error e), t) := by
  rw [enter, Call.run_bind, h]

theorem ready_refused (h : checkOpen b k t = (.error (.error e), t)) (q : Result Query) :
    Search.ready b ⟨.scope k, q⟩ t = (.error (.error e), t) := by
  rw [Search.ready, Call.run_bind, enter_refused h]

theorem finish_refused (h : checkOpen b k t = (.error (.error e), t)) :
    finish b k t = (.error (.error e), t) := by
  rw [finish, Call.run_bind, h]

end Mapper

theorem Call.guarded_refused {c : Call τ α} {t : Traced τ} {e : Error}
    (h : c t = (.error (.error e), t)) : c.guarded t = (.error e, t) := by
  show Op.ofOutcome (c t).1 (c t).2 = _
  rw [h]
  rfl

section

variable {b : Backend σ} {k : Nat} {t : Traced (Mapper σ)} {e : Error}

/-- What the first step of a call refuses, the call does. -/
theorem guarded_bind_refused {c : Call τ α} {f : α → Call τ β} {t : Traced τ} {e : Error}
    (h : c t = (.error (.error e), t)) : (c >>= f).guarded t = (.error e, t) :=
  Call.guarded_refused (by rw [Call.run_bind, h])

theorem map_refused {f : α → β} {op : Op τ α} {t : Traced τ} {e : Error}
    (h : op t = (.error e, t)) : (f <$> op) t = (.error e, t) := by
  rw [run_map, h]
  rfl

theorem fetchFirst_refused {M : Type} (h : Mapper.checkOpen b k t = (.error (.error e), t))
    (m : Model M) (q : Result Query) :
    Search.fetchFirst b m ⟨.scope k, q⟩ t = (.error (.error e), t) := by
  rw [Search.fetchFirst, Call.run_bind, Mapper.ready_refused h]

theorem Work.perform_refused {w : Work} (hw : w.Gated)
    (h : Mapper.checkOpen b k t = (.error (.error e), t)) : w.perform b k t = (.error e, t) := by
  cases w with
  | add => exact map_refused (guarded_bind_refused (Mapper.enter_refused h))
  | first m q => exact map_refused (Call.guarded_refused (fetchFirst_refused h m q))
  | one m q => exact map_refused (guarded_bind_refused (fetchFirst_refused h m q))
  | count q | update q | delete q | all q =>
    exact map_refused (guarded_bind_refused (Mapper.ready_refused h q))
  | next => exact hw.elim
  | useModels | removeModels => exact guarded_bind_refused h

/-- An operation that the gate refuses answers the gate's error and changes nothing. -/
theorem Operation.perform_refused (op : Operation)
    (h : Mapper.checkOpen b k t = (.error (.error e), t)) : op.perform b k t = (.error e, t) := by
  cases op with
  | work w gated => exact map_refused (Work.perform_refused gated h)
  | begin => exact map_refused (guarded_bind_refused (Mapper.enter_refused h))
  | commit | rollback => exact map_refused (guarded_bind_refused (Mapper.finish_refused h))

end

/-! ## Step by step -/

/-- What is asked with a query, if it could be built. -/
def asking (q : Result Query) (ask : Query → Action) : List Action :=
  match q with
  | .ok found => [ask found]
  | .error _ => []

/-- The calls that the work makes one after the other, as long as they succeed. -/
def Work.calls : Work → List Action
  | add m models => [.add m.schema (models.map m.toRecord)]
  | first _ q | one _ q => asking q fun found => .fetch (found.batch 0 1)
  | count q => asking q .count
  | update q values => asking q fun found => .update found values
  | delete q => asking q .delete
  | all q => asking q fun found => .fetch (found.stableOrder.batch 0 batchSize)
  | next _ c =>
    if c.buffer.isEmpty && !c.exhausted then [.fetch (c.query.batch c.nextBatch batchSize)] else []
  | useModels models => [.drop models, .create models]
  | removeModels models => [.drop models]

/-- Work reads and writes, and does nothing else. -/
theorem Work.calls_work (w : Work) : ∀ a ∈ w.calls, Memory.Works a := by
  have hasking (q : Result Query) {ask : Query → Action} (hask : ∀ found, Memory.Works (ask found)) :
      ∀ a ∈ asking q ask, Memory.Works a := by
    cases q with
    | error e => exact List.forall_mem_nil _
    | ok found => exact List.forall_mem_singleton.2 (hask found)
  cases w with
  | first _ q | one _ q | count q | update q | delete q | all q => exact hasking q fun _ => trivial
  | add | removeModels => exact List.forall_mem_singleton.2 trivial
  | useModels => exact List.forall_mem_cons.2 ⟨trivial, List.forall_mem_singleton.2 trivial⟩
  | next _ c =>
    rw [calls]
    split
    · exact List.forall_mem_singleton.2 trivial
    · exact List.forall_mem_nil _

namespace Operation

def calls : Operation → List Action
  | work w _ => w.calls
  | begin => [.begin]
  | commit => [.commit]
  | rollback => [.rollback]

/-- The gate: a commit or rollback marks the scope on its way. -/
def gate (b : Backend σ) (k : Nat) (op : Operation) : Call (Mapper σ) Scope :=
  if op.ends then Mapper.finish b k else Mapper.checkOpen b k

end Operation

namespace Mapper

/-- One call to the backend.  Behind a begin the new scope is there, which is the answer. -/
def call (b : Backend σ) (session : Nat) (a : Action) : Call (Mapper σ) (Option Nat) := do
  let _ ← onStore (a.perform b session)
  match a with
  | .begin => some <$> addScope b session
  | _ => pure none

def callAll (b : Backend σ) (session : Nat) : List Action → Call (Mapper σ) Unit
  | [] => pure ()
  | a :: rest => do
    let _ ← call b session a
    callAll b session rest

end Mapper

/-- The gate, and then the calls. -/
def Operation.proceed (b : Backend σ) (k : Nat) (op : Operation) : Call (Mapper σ) Unit := do
  let sc ← op.gate b k
  Mapper.callAll b sc.session op.calls

namespace Mapper

theorem onStore_bind (c : Call σ α) (f : α → Call σ β) :
    (onStore (c >>= f) : Call (Mapper σ) β) = onStore c >>= fun a => onStore (f a) := by
  funext t
  rw [Call.run_bind]
  unfold onStore Call.within
  rw [Call.run_bind]
  rcases c ⟨t.state.store, t.events⟩ with ⟨outcome, after⟩
  cases outcome <;> rfl

theorem onStore_answering (c : Call σ α) (f : α → β) (t : Traced (Mapper σ)) :
    onStore (c >>= fun a => pure (f a)) t = ((onStore c t).1.map f, (onStore c t).2) := by
  rw [onStore_bind, Call.run_bind]
  rcases onStore c t with ⟨outcome, after⟩
  cases outcome <;> rfl

end Mapper

/-! ## The steps in a row -/

/-- The call leaves the state that the operation leaves, and succeeds where that does. -/
def Covers {ε : Type} (op : ExceptT ε (StateM (Traced τ)) α) (c : Call τ β) : Prop :=
  ∀ t, (c t).2.state = (op t).2.state ∧ ((op t).1.isOk = true → (c t).1.isOk = true)

namespace Covers

theorem map {ε : Type} {op : ExceptT ε (StateM (Traced τ)) α} {c : Call τ β} (h : Covers op c)
    (f : α → γ) : Covers (f <$> op) c := by
  intro t
  obtain ⟨hstate, hok⟩ := h t
  rw [run_map]
  refine ⟨hstate, fun hmapped => hok ?_⟩
  cases houtcome : (op t).1 with
  | error e =>
    rw [houtcome] at hmapped
    cases hmapped
  | ok a => rfl

theorem guarded {op : Call τ α} {c : Call τ β} (h : Covers op c) : Covers op.guarded c := by
  intro t
  obtain ⟨hstate, hok⟩ := h t
  refine ⟨hstate.trans (Call.state_guarded op t).symm, fun hguarded => hok ?_⟩
  rcases op.guarded_cases t with ⟨a, t', hrun, -⟩ | ⟨f, e, t', t'', -, hrun, -⟩
  · rw [hrun]
    rfl
  · rw [hrun] at hguarded
    cases hguarded

theorem bind (x : Call τ α) {f : α → Call τ β} {g : α → Call τ γ}
    (h : ∀ a, Covers (f a) (g a)) : Covers (x >>= f) (x >>= g) := by
  intro t
  rw [Call.run_bind, Call.run_bind]
  rcases x t with ⟨outcome, after⟩
  cases outcome with
  | error e => exact ⟨rfl, id⟩
  | ok a => exact h a after

/-- What only looks at the last answer has no part in it. -/
theorem reading {op : Call τ α} {c : Call τ β} (h : Covers op c) {f : α → Call τ γ}
    (hf : ∀ a t, (f a t).2.state = t.state) : Covers (op >>= f) c := by
  intro t
  obtain ⟨hstate, hok⟩ := h t
  rw [Call.run_bind]
  rcases hrun : op t with ⟨outcome, after⟩
  rw [hrun] at hstate hok
  cases outcome with
  | error e => exact ⟨hstate, hok⟩
  | ok a => exact ⟨hstate.trans (hf a after).symm, fun _ => hok rfl⟩

variable {b : Backend σ} {k session : Nat}

theorem nothing {op : Call (Mapper σ) α} (h : ∀ t, (op t).2.state = t.state) :
    Covers op (Mapper.callAll b session []) := fun t => ⟨(h t).symm, fun _ => rfl⟩

/-- A call that opens no scope. -/
theorem run_call {c : Call σ α} {f : α → Yield} {a : Action}
    (hperform : a.perform b session = c >>= fun x => pure (f x)) (ha : a ≠ .begin)
    (t : Traced (Mapper σ)) :
    Mapper.call b session a t =
      ((Mapper.onStore c t).1.map fun _ => none, (Mapper.onStore c t).2) := by
  rw [Mapper.call, Call.run_bind, hperform, Mapper.onStore_answering]
  · rcases Mapper.onStore c t with ⟨outcome, after⟩
    cases outcome <;> rfl
  · exact ha

theorem calls {c : Call σ α} {f : α → Yield} {a : Action} {rest : List Action}
    {op : α → Call (Mapper σ) β} (h : ∀ x, Covers (op x) (Mapper.callAll b session rest))
    (hperform : a.perform b session = c >>= fun x => pure (f x)) (ha : a ≠ .begin) :
    Covers (Mapper.onStore c >>= op) (Mapper.callAll b session (a :: rest)) := by
  intro t
  rw [Mapper.callAll, Call.run_bind, Call.run_bind, run_call hperform ha]
  rcases Mapper.onStore c t with ⟨outcome, after⟩
  cases outcome with
  | error e => exact ⟨rfl, id⟩
  | ok x => exact h x after

/-- A single call, after which the operation only looks at its answer. -/
theorem single {c : Call σ α} {f : α → Yield} {a : Action} {op : α → Call (Mapper σ) β}
    (hop : ∀ x t, (op x t).2.state = t.state)
    (hperform : a.perform b session = c >>= fun x => pure (f x)) (ha : a ≠ .begin) :
    Covers (Mapper.onStore c >>= op) (Mapper.callAll b session [a]) :=
  calls (fun x => nothing (hop x)) hperform ha

theorem onStore {c : Call σ α} {f : α → Yield} {a : Action}
    (hperform : a.perform b session = c >>= fun x => pure (f x)) (ha : a ≠ .begin) :
    Covers (Mapper.onStore c) (Mapper.callAll b session [a]) := by
  have h : Covers (Mapper.onStore c >>= pure) (Mapper.callAll b session [a]) :=
    single (fun _ _ => rfl) hperform ha
  rwa [bind_pure] at h

/-- A begin, and the new scope. -/
theorem begin : Covers (Mapper.onStore (b.begin session) >>= fun _ => Mapper.addScope b session)
    (Mapper.callAll b session [.begin]) := by
  intro t
  unfold Mapper.callAll Mapper.call Action.perform
  rw [Call.run_bind, Call.run_bind, Call.run_bind, Mapper.onStore_answering]
  rcases Mapper.onStore (b.begin session) t with ⟨outcome, after⟩
  cases outcome with
  | error e => exact ⟨rfl, id⟩
  | ok a => exact ⟨rfl, fun _ => rfl⟩

/-- A query is looked at behind the gate; one that could not be built asks for nothing. -/
theorem ready {q : Result Query} {rest : Nat × Query → Call (Mapper σ) α} {ask : Query → Action}
    (h : ∀ session found, Covers (rest (session, found)) (Mapper.callAll b session [ask found])) :
    Covers (Search.ready b ⟨.scope k, q⟩ >>= rest)
      (Mapper.checkOpen b k >>= fun sc => Mapper.callAll b sc.session (asking q ask)) := by
  have hassoc : (Search.ready b ⟨.scope k, q⟩ >>= rest) =
      Mapper.checkOpen b k >>= fun sc => Call.ofResult q >>= fun found =>
        rest (sc.session, found) := by
    simp only [Search.ready, Mapper.enter, bind_assoc, pure_bind]
  rw [hassoc]
  refine bind _ fun sc => ?_
  cases q with
  | error e =>
    refine fun t => ⟨rfl, fun hok => ?_⟩
    cases hok
  | ok found => exact h sc.session found

theorem enter {rest : Nat → Call (Mapper σ) α} {asked : List Action}
    (h : ∀ session, Covers (rest session) (Mapper.callAll b session asked)) :
    Covers (Mapper.enter b (.scope k) >>= rest)
      (Mapper.checkOpen b k >>= fun sc => Mapper.callAll b sc.session asked) := by
  have hassoc : (Mapper.enter b (.scope k) >>= rest) =
      Mapper.checkOpen b k >>= fun sc => rest sc.session := by
    simp only [Mapper.enter, bind_assoc, pure_bind]
  rw [hassoc]
  exact bind _ fun sc => h sc.session

theorem fetchFirst {M : Type} (m : Model M) (q : Result Query) :
    Covers (Search.fetchFirst b m ⟨.scope k, q⟩) (Mapper.checkOpen b k >>= fun sc =>
      Mapper.callAll b sc.session (asking q fun found => .fetch (found.batch 0 1))) := by
  refine ready fun session found => single (fun records t => ?_) rfl (by simp)
  cases records with
  | nil => rfl
  | cons r rest =>
    rw [Call.state_answering, Call.state_ofResult]

end Covers

theorem Work.perform_proceeds {w : Work} (hw : w.Gated) (b : Backend σ) (k : Nat) :
    Covers (w.perform b k)
      (Mapper.checkOpen b k >>= fun sc => Mapper.callAll b sc.session w.calls) := by
  cases w with
  | add m models =>
    refine .map (.guarded (.enter fun session => .single (fun stored t => ?_) rfl (by simp))) _
    rw [Call.state_ofResult]
  | first m q => exact .map (.guarded (.fetchFirst m q)) _
  | one m q =>
    refine .map (.guarded (.reading (.fetchFirst m q) fun found t => ?_)) _
    cases found <;> rfl
  | count q | update q | delete q =>
    exact .map (.guarded (.ready fun session found => .onStore rfl (by simp))) _
  | all q =>
    refine .map (.guarded (.ready fun session found => ?_)) _
    -- The cursor is opened with its first batch.
    show Covers (Mapper.onStore (Cursor.fill b ⟨session, found.stableOrder, [], 0, false⟩)) _
    rw [Cursor.fill, Mapper.onStore_bind]
    exact .single (fun _ _ => rfl) rfl (by simp)
  | next => exact hw.elim
  | useModels models =>
    refine .guarded (.bind _ fun sc => .calls (fun _ => ?_) rfl (by simp))
    exact .onStore rfl (by simp)
  | removeModels models => exact .guarded (.bind _ fun sc => .onStore rfl (by simp))

/-- The gate and the calls in a row leave behind what the operation does, and if that succeeds,
    so do they. -/
theorem Operation.perform_proceeds (op : Operation) (b : Backend σ) (k : Nat) :
    Covers (op.perform b k) (op.proceed b k) := by
  cases op with
  | work w gated => exact .map (Work.perform_proceeds gated b k) _
  | begin => exact .map (.guarded (.enter fun session => .begin)) _
  | commit => exact .map (.guarded (.bind _ fun sc => .onStore rfl (by simp))) _
  | rollback => exact .map (.guarded (.bind _ fun sc => .onStore rfl (by simp))) _

end ModelMapper
