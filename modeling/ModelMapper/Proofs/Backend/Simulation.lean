import ModelMapper.Backend.Action

/-! # Backends that answer alike

Two backends with different states answer every run of requests alike if each operation does,
and keeps the states related.  What a call reports on its way plays no part in it.

* `Call.Simulates` — two calls with the same outcome from related states, which they keep
  related.
* `Backend.Simulates` — this for every operation.
* `Request.runAll_simulates` — whole runs.
-/

namespace ModelMapper

variable {σ τ α β : Type} {R : σ → τ → Prop}

namespace Call

/-! ## Calls -/

theorem run_bind (c : Call σ α) (f : α → Call σ β) (s : Traced σ) :
    (c >>= f) s = match c s with
      | (.ok a, after) => f a after
      | (.error e, after) => (.error e, after) := by
  show ExceptT.bindCont f (c s).1 (c s).2 = _
  rcases c s with ⟨outcome, after⟩
  cases outcome <;> rfl

theorem run_step (f : σ → Result α × σ) (s : Traced σ) :
    Call.step f s = Call.ofResult (f s.state).1 ⟨(f s.state).2, s.events⟩ := rfl

theorem run_emit (e : Event) (s : Traced σ) :
    Call.emit e s = (.ok (), ⟨s.state, e :: s.events⟩) := rfl

theorem run_state (f : σ → Call σ α) (s : Traced σ) : (Call.state >>= f) s = f s.state s := rfl

theorem run_ofResult (a : α) (s : Traced σ) : Call.ofResult (.ok a) s = (.ok a, s) := rfl

theorem ofResult_eq (r : Result α) (s : Traced σ) :
    Call.ofResult r s = (r.mapError .error, s) := by
  cases r <;> rfl

theorem ofResult_ok_bind (a : α) (f : α → Call σ β) : (Call.ofResult (.ok a) >>= f) = f a :=
  pure_bind a f

theorem run_read (f : σ → Result α) (s : Traced σ) :
    Call.read f s = Call.ofResult (f s.state) s := rfl

/-- What two calls in a row that succeeded did. -/
theorem bind_eq_ok {c : Call σ α} {f : α → Call σ β} {s t : Traced σ} {b : β}
    (h : (c >>= f) s = (.ok b, t)) : ∃ a m, c s = (.ok a, m) ∧ f a m = (.ok b, t) := by
  rw [run_bind] at h
  rcases hc : c s with ⟨outcome, m⟩
  rw [hc] at h
  cases outcome with
  | error e => cases h
  | ok a => exact ⟨a, m, rfl, h⟩

theorem eq_of_isOk {c : Call σ Unit} {t : Traced σ} (h : (c t).1.isOk = true) :
    c t = (.ok (), (c t).2) := by
  rcases hc : c t with ⟨outcome, after⟩
  rw [hc] at h
  cases outcome with
  | error e => cases h
  | ok a => rfl

theorem ofResult_eq_ok {r : Result α} {s t : Traced σ} {a : α}
    (h : Call.ofResult r s = (.ok a, t)) : r = .ok a ∧ t = s := by
  cases r with
  | error e => cases h
  | ok b =>
    cases h
    exact ⟨rfl, rfl⟩

theorem step_eq_ok {f : σ → Result α × σ} {s t : Traced σ} {a : α}
    (h : Call.step f s = (.ok a, t)) : (f s.state).1 = .ok a ∧ t = ⟨(f s.state).2, s.events⟩ :=
  ofResult_eq_ok ((run_step f s).symm.trans h)

/-- A call that only reports. -/
def Quiet (c : Call σ Unit) : Prop := ∀ s, ∃ events, c s = (.ok (), ⟨s.state, events⟩)

/-- From related states the calls have the same outcome, and the states stay related. -/
def Simulates (R : σ → τ → Prop) (c : Call σ α) (d : Call τ α) : Prop :=
  ∀ s t, R s.state t.state → (c s).1 = (d t).1 ∧ R (c s).2.state (d t).2.state

namespace Simulates

theorem pure (a : α) : Simulates R (Pure.pure a) (Pure.pure a) := fun _ _ h => ⟨rfl, h⟩

theorem bind {c : Call σ α} {d : Call τ α} {f : α → Call σ β} {g : α → Call τ β}
    (h : Simulates R c d) (hrest : ∀ a, Simulates R (f a) (g a)) :
    Simulates R (c >>= f) (d >>= g) := by
  intro s t hrel
  obtain ⟨houtcome, hafter⟩ := h s t hrel
  rw [run_bind, run_bind]
  rcases hc : c s with ⟨outcome, s'⟩
  rcases hd : d t with ⟨outcome', t'⟩
  rw [hc, hd] at houtcome hafter
  obtain rfl : outcome = outcome' := houtcome
  cases outcome with
  | error e => exact ⟨rfl, hafter⟩
  | ok a => exact hrest a s' t' hafter

theorem answering {c : Call σ α} {d : Call τ α} (h : Simulates R c d) (f : α → β) :
    Simulates R (c >>= fun a => Pure.pure (f a)) (d >>= fun a => Pure.pure (f a)) :=
  h.bind fun a => pure (f a)

/-- Reports before a call are of no account. -/
theorem emit {c : Call σ α} {d : Call τ α} (e : Event) (h : Simulates R c d) :
    Simulates R (Call.emit e >>= fun _ => c) d := fun s t hrel => h ⟨s.state, e :: s.events⟩ t hrel

/-- So are reports after it. -/
theorem reporting {c : Call σ Unit} {d : Call τ Unit} (h : Simulates R c d)
    {report : Call σ Unit} (hquiet : Quiet report) : Simulates R (c >>= fun _ => report) d := by
  intro s t hrel
  obtain ⟨houtcome, hafter⟩ := h s t hrel
  rw [run_bind]
  rcases hc : c s with ⟨outcome, s'⟩
  rw [hc] at houtcome hafter
  cases outcome with
  | error e => exact ⟨houtcome, hafter⟩
  | ok a =>
    obtain ⟨events, hreport⟩ := hquiet s'
    dsimp only
    rw [hreport]
    exact ⟨houtcome, hafter⟩

/-- A call that looks at the state first. -/
theorem state {c : σ → Call σ α} {d : Call τ α} (h : ∀ a, Simulates R (c a) d) :
    Simulates R (Call.state >>= c) d := fun s t hrel => h s.state s t hrel

theorem ofResult (r : Result α) : Simulates R (Call.ofResult r) (Call.ofResult r) := by
  cases r <;> exact fun _ _ h => ⟨rfl, h⟩

theorem step {f : σ → Result α × σ} {g : τ → Result α × τ}
    (h : ∀ s t, R s t → (f s).1 = (g t).1 ∧ R (f s).2 (g t).2) :
    Simulates R (Call.step f) (Call.step g) := by
  intro s t hrel
  obtain ⟨houtcome, hafter⟩ := h s.state t.state hrel
  rw [run_step, run_step, houtcome]
  exact ofResult _ _ _ hafter

theorem read {f : σ → Result α} {g : τ → Result α} (h : ∀ s t, R s t → f s = g t) :
    Simulates R (Call.read f) (Call.read g) := by
  intro s t hrel
  rw [run_read, run_read, h _ _ hrel]
  exact ofResult _ _ _ hrel

theorem modifyState {f : σ → σ} {g : τ → τ} (h : ∀ s t, R s t → R (f s) (g t)) :
    Simulates R (Call.modifyState f) (Call.modifyState g) := fun _ _ hrel => ⟨rfl, h _ _ hrel⟩

end Simulates

end Call

/-! ## Backends -/

/-- Each operation of the one backend has the outcome of the other's. -/
structure Backend.Simulates (R : σ → τ → Prop) (b : Backend σ) (b' : Backend τ) : Prop where
  name : b.name = b'.name
  add : ∀ id s rs, Call.Simulates R (b.add id s rs) (b'.add id s rs)
  fetch : ∀ id q, Call.Simulates R (b.fetch id q) (b'.fetch id q)
  count : ∀ id q, Call.Simulates R (b.count id q) (b'.count id q)
  update : ∀ id q values, Call.Simulates R (b.update id q values) (b'.update id q values)
  delete : ∀ id q, Call.Simulates R (b.delete id q) (b'.delete id q)
  begin : ∀ id, Call.Simulates R (b.begin id) (b'.begin id)
  commit : ∀ id, Call.Simulates R (b.commit id) (b'.commit id)
  rollback : ∀ id, Call.Simulates R (b.rollback id) (b'.rollback id)
  depth : ∀ id s t, R s t → b.depth id s = b'.depth id t
  create : ∀ id catalog, Call.Simulates R (b.create id catalog) (b'.create id catalog)
  drop : ∀ id catalog, Call.Simulates R (b.drop id catalog) (b'.drop id catalog)
  openSession : ∀ id, Call.Simulates R (b.openSession id) (b'.openSession id)
  ping : ∀ id, Call.Simulates R (b.ping id) (b'.ping id)
  close : ∀ id, Call.Simulates R (b.close id) (b'.close id)

variable {b : Backend σ} {b' : Backend τ}

theorem Action.perform_simulates (h : b.Simulates R b') (id : Nat) (a : Action) :
    Call.Simulates R (a.perform b id) (a.perform b' id) := by
  cases a with
  | add s rs => exact (h.add id s rs).answering Yield.records
  | fetch q => exact (h.fetch id q).answering Yield.records
  | count q => exact (h.count id q).answering Yield.number
  | update q values => exact (h.update id q values).answering Yield.number
  | delete q => exact (h.delete id q).answering Yield.number
  | begin => exact (h.begin id).answering fun _ => Yield.nothing
  | commit => exact (h.commit id).answering fun _ => Yield.nothing
  | rollback => exact (h.rollback id).answering fun _ => Yield.nothing
  | create catalog => exact (h.create id catalog).answering fun _ => Yield.nothing
  | drop catalog => exact (h.drop id catalog).answering fun _ => Yield.nothing
  | openSession => exact (h.openSession id).answering Yield.number
  | ping => exact (h.ping id).answering fun _ => Yield.nothing
  | name =>
    rw [perform, perform, h.name]
    exact .pure _
  | close => exact (h.close id).answering fun _ => Yield.nothing

namespace Request

theorem carryOut_simulates (h : b.Simulates R b') (r : Request) :
    Call.Simulates R (r.carryOut b) (r.carryOut b') :=
  (Call.Simulates.ofResult r.action).bind (Action.perform_simulates h r.session)

/-- One request of a run and the others after it. -/
theorem runAll_cons (b : Backend σ) (r : Request) (rest : List Request) (s : Traced σ) :
    runAll b (r :: rest) s =
      (((r.carryOut b s).1, if r.closes then none
          else some (b.depth r.session (r.carryOut b s).2.state)) ::
        (runAll b rest (r.carryOut b s).2).1, (runAll b rest (r.carryOut b s).2).2) := rfl

/-- A whole run has the same outcomes and depths, and leaves related states. -/
theorem runAll_simulates (h : b.Simulates R b') (requests : List Request) {s : Traced σ}
    {t : Traced τ} (hrel : R s.state t.state) :
    (runAll b requests s).1 = (runAll b' requests t).1 ∧
      R (runAll b requests s).2.state (runAll b' requests t).2.state := by
  induction requests generalizing s t with
  | nil => exact ⟨rfl, hrel⟩
  | cons r rest ih =>
    obtain ⟨houtcome, hafter⟩ := carryOut_simulates h r s t hrel
    -- The rest of the run starts from states that are related again.
    obtain ⟨hothers, hfinal⟩ := ih hafter
    rw [runAll_cons, runAll_cons, houtcome, hothers, h.depth r.session _ _ hafter]
    exact ⟨rfl, hfinal⟩

end Request

end ModelMapper
