import ModelMapper.Backend.Observed
import ModelMapper.Proofs.Backend.Runs

/-! # What an observed backend does

Where no fault is set, an observed backend answers and does what the backend itself does, and logs
the calls that it gets.

* `Action.entries` — the calls of an action, as the log has them.
* `Observed.run_call` — one call.
* `Action.perform_observed` — any action.
-/

namespace ModelMapper

variable {σ α β : Type}

/-- The call commits or rolls back. -/
def LogEntry.ends (e : LogEntry) : Bool := e.kind = .commit || e.kind = .rollback

/-- The calls of an action, as the log has them. -/
def Action.entries : Action → List LogEntry
  | add model records => [⟨.add, .records model.name records.length⟩]
  | fetch q => [⟨.fetch, .ofQuery q⟩]
  | count q => [⟨.count, .ofQuery q⟩]
  | update q _ => [⟨.update, .ofQuery q⟩]
  | delete q => [⟨.delete, .ofQuery q⟩]
  | begin => [⟨.begin, .nothing⟩]
  | commit => [⟨.commit, .nothing⟩]
  | rollback => [⟨.rollback, .nothing⟩]
  | create models => [⟨.createSchema, .catalog models.name⟩]
  | drop models => [⟨.dropSchema, .catalog models.name⟩]
  | openSession => [⟨.session, .nothing⟩]
  | ping => [⟨.ping, .nothing⟩]
  -- The name is no call, and closing is not logged.
  | name | close => []

namespace Observed

/-- What a call leaves on an observed store without faults: what it leaves on the store, and the
    calls that were made. -/
def noting (o : Observed σ) (made : List LogEntry) (run : Except Failure α × Traced σ) :
    Except Failure α × Traced (Observed σ) :=
  (run.1, ⟨⟨run.2.state, made ++ o.log, []⟩, run.2.events⟩)

theorem run_call (kind : CallKind) (detail : CallDetail) (c : Call σ α) {t : Traced (Observed σ)}
    (h : t.state.faults = []) :
    call kind detail c t = t.state.noting [⟨kind, detail⟩] (c ⟨t.state.store, t.events⟩) := by
  rw [call, Call.run_state, h]
  rfl

/-- An answer that is looked at behind a call makes no difference. -/
theorem noting_answering {c : Call (Observed σ) α} {d : Call σ α} {o : Observed σ}
    {made : List LogEntry} {t : Traced (Observed σ)} {s : Traced σ}
    (h : c t = o.noting made (d s)) (f : α → β) :
    (c >>= fun a => pure (f a)) t = o.noting made ((d >>= fun a => pure (f a)) s) := by
  rw [Call.run_bind, Call.run_bind, h]
  rcases d s with ⟨outcome, after⟩
  cases outcome <;> rfl

end Observed

/-- An observed backend performs an action as the backend does, and has its calls in the log. -/
theorem Action.perform_observed (b : Backend σ) (session : Nat) (a : Action)
    {t : Traced (Observed σ)} (h : t.state.faults = []) :
    a.perform b.observed session t =
      t.state.noting a.entries (a.perform b session ⟨t.state.store, t.events⟩) := by
  cases a with
  | name =>
    obtain ⟨⟨store, log, faults⟩, events⟩ := t
    obtain rfl : faults = [] := h
    rfl
  | close =>
    obtain ⟨⟨store, log, faults⟩, events⟩ := t
    obtain rfl : faults = [] := h
    exact Observed.noting_answering (c := b.observed.close session) (d := b.close session) rfl _
  | _ => exact Observed.noting_answering (Observed.run_call _ _ _ h) _

end ModelMapper
