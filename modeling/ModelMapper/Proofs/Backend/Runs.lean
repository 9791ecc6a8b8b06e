import ModelMapper.Proofs.Backend.Simulation

/-! # What calls leave behind

The state after a call and after a run, whatever the outcomes are.

* `Call.state_answering`, `Call.state_step`, `Call.state_read` — the state after a call.
* `Call.outcome_answering`, `Call.outcome_step` — its outcome.
* `Call.run_reporting` — a call and what it reports.
* `Request.runAll_append` — a run that goes on.
-/

namespace ModelMapper

variable {σ α β : Type}

namespace Call

theorem state_ofResult (r : Result α) (s : Traced σ) : (Call.ofResult r s).2 = s :=
  congrArg Prod.snd (ofResult_eq r s)

theorem outcome_ofResult (r : Result α) (s : Traced σ) :
    (Call.ofResult r s).1 = r.mapError Failure.error :=
  congrArg Prod.fst (ofResult_eq r s)

theorem outcome_step (f : σ → Result α × σ) (s : Traced σ) :
    (Call.step f s).1 = (f s.state).1.mapError Failure.error := by
  rw [run_step, outcome_ofResult]

theorem outcome_answering (c : Call σ α) (f : α → β) (s : Traced σ) :
    ((c >>= fun a => pure (f a)) s).1 = (c s).1.map f := by
  rw [run_bind]
  rcases c s with ⟨outcome, after⟩
  cases outcome <;> rfl

theorem state_answering (c : Call σ α) (f : α → β) (s : Traced σ) :
    ((c >>= fun a => pure (f a)) s).2 = (c s).2 := by
  rw [run_bind]
  rcases c s with ⟨outcome, after⟩
  cases outcome <;> rfl

theorem state_step (f : σ → Result α × σ) (s : Traced σ) :
    (Call.step f s).2 = ⟨(f s.state).2, s.events⟩ := by
  rw [run_step, state_ofResult]

/-- Reports after a call leave the outcome and the state alone. -/
theorem run_reporting (c : Call σ Unit) {report : Call σ Unit} (h : Quiet report)
    (s : Traced σ) :
    ∃ events, (c >>= fun _ => report) s = ((c s).1, ⟨(c s).2.state, events⟩) := by
  rw [run_bind]
  rcases c s with ⟨outcome, after⟩
  cases outcome with
  | error e => exact ⟨after.events, rfl⟩
  | ok a => exact h after

theorem state_reporting (c : Call σ Unit) {report : Call σ Unit} (h : Quiet report)
    (s : Traced σ) : ((c >>= fun _ => report) s).2.state = (c s).2.state := by
  obtain ⟨events, hrun⟩ := run_reporting c h s
  rw [hrun]

theorem outcome_reporting (c : Call σ Unit) {report : Call σ Unit} (h : Quiet report)
    (s : Traced σ) : ((c >>= fun _ => report) s).1 = (c s).1 := by
  obtain ⟨events, hrun⟩ := run_reporting c h s
  rw [hrun]

theorem isOk_answering (c : Call σ α) (f : α → β) (s : Traced σ) :
    ((c >>= fun a => pure (f a)) s).1.isOk = (c s).1.isOk := by
  rw [outcome_answering]
  cases (c s).1 <;> rfl

theorem isOk_step (f : σ → Result α × σ) (s : Traced σ) :
    (Call.step f s).1.isOk = (f s.state).1.isOk := by
  rw [run_step]
  cases (f s.state).1 <;> rfl

theorem state_read (f : σ → Result α) (s : Traced σ) : (Call.read f s).2 = s := by
  rw [run_read, state_ofResult]

end Call

namespace Request

theorem runAll_append (b : Backend σ) (first second : List Request) (s : Traced σ) :
    (runAll b (first ++ second) s).2 = (runAll b second (runAll b first s).2).2 := by
  induction first generalizing s with
  | nil => rfl
  | cons r rest ih =>
    simp only [List.cons_append, runAll_cons]
    exact ih _

theorem runAll_snoc (b : Backend σ) (requests : List Request) (r : Request) (s : Traced σ) :
    (runAll b (requests ++ [r]) s).2 = (r.carryOut b (runAll b requests s).2).2 := by
  rw [runAll_append]
  rfl

end Request

end ModelMapper
