import Mathlib.Data.List.Forall2
import ModelMapper.Proofs.Memory.Failure
import ModelMapper.Proofs.Memory.Nesting
import ModelMapper.Proofs.Memory.Others

/-! # The log of a transaction by levels

Every open scope of a session has a level of its own: the writes that were made while it was the
innermost one, and those of the scopes that were committed into it.  The savepoints divide the
log of the transaction into these levels.

* `Recorded` — writes and the changes they have left in a log.
* `LevelsIn` — the levels of a session and its transaction.
* `LevelsIn.work`, `LevelsIn.begin`, `LevelsIn.commit`, `LevelsIn.rollback` — what an action does
  to them.
-/

namespace ModelMapper

namespace Memory

/-! ## Writes in a log -/

/-- A write, and the scope that it was made with. -/
abbrev Write := Nat × Action

/-- The writes have left their changes in the log, in this order.  An add whose documents cannot
    be read back fails, but may have left a change too. -/
def Recorded (writes : List Write) (log : List Change) : Prop :=
  ∃ noted, List.Forall₂ (fun w change => Cluster.Notes w.2 change) writes noted ∧
    noted.Sublist log

namespace Recorded

variable {writes writes' : List Write} {log log' : List Change}

theorem nil : Recorded [] [] := ⟨[], .nil, .slnil⟩

theorem append (h : Recorded writes log) (h' : Recorded writes' log') :
    Recorded (writes ++ writes') (log ++ log') := by
  obtain ⟨noted, hnoted, hsub⟩ := h
  obtain ⟨noted', hnoted', hsub'⟩ := h'
  exact ⟨noted ++ noted', List.rel_append hnoted hnoted', hsub.append hsub'⟩

theorem unread (h : Recorded writes log) (rest : List Change) : Recorded writes (log ++ rest) := by
  obtain ⟨noted, hnoted, hsub⟩ := h
  exact ⟨noted, hnoted, hsub.trans (List.sublist_append_left log rest)⟩

theorem single {k : Nat} {a : Action} {change : Change} (h : Cluster.Notes a change) :
    Recorded [(k, a)] [change] := ⟨[change], .cons h .nil, .refl _⟩

end Recorded

/-! ## Levels -/

/-- The savepoints of a transaction divide its log into the levels around the innermost one. -/
def Divides : List Write → List (List Write) → List (Store × Nat) → List Change → Prop
  | current, [], [], log => Recorded current log
  | current, around :: outer, (_, length) :: saved, log =>
    length ≤ log.length ∧ Recorded current (log.drop length) ∧
      Divides around outer saved (log.take length)
  | _, _, _, _ => False

/-- The levels of a session, the innermost one first. -/
def LevelsIn : List (List Write) → Session → Prop
  | [], none => True
  | current :: outer, some t => Divides current outer t.savepoints t.log
  | _, _ => False

namespace Divides

variable {current : List Write} {outer : List (List Write)} {saved : List (Store × Nat)}
  {log : List Change}

theorem length (h : Divides current outer saved log) : saved.length = outer.length := by
  induction outer generalizing current saved log with
  | nil =>
    cases saved with
    | nil => rfl
    | cons => exact h.elim
  | cons around outer ih =>
    cases saved with
    | nil => exact h.elim
    | cons first saved => exact congrArg Nat.succ (ih h.2.2)

/-- What is appended to the log is the innermost level's. -/
theorem extend (h : Divides current outer saved log) {writes : List Write} {changes : List Change}
    (hmore : ∀ {part}, Recorded current part → Recorded writes (part ++ changes)) :
    Divides writes outer saved (log ++ changes) := by
  cases outer with
  | nil =>
    cases saved with
    | nil => exact hmore h
    | cons => exact h.elim
  | cons around outer =>
    cases saved with
    | nil => exact h.elim
    | cons first saved =>
      obtain ⟨hlength, hcurrent, houter⟩ := h
      refine ⟨?_, ?_, ?_⟩
      · rw [List.length_append]
        omega
      · rw [List.drop_append_of_le_length hlength]
        exact hmore hcurrent
      · rw [List.take_append_of_le_length hlength]
        exact houter

/-- A level that is merged into the one around it. -/
theorem merge {around : List Write} {first : Store × Nat}
    (h : Divides current (around :: outer) (first :: saved) log) :
    Divides (around ++ current) outer saved log := by
  obtain ⟨hlength, hcurrent, houter⟩ := h
  have hmerged : Divides (around ++ current) outer saved (log.take first.2 ++ log.drop first.2) :=
    houter.extend fun hpart => hpart.append hcurrent
  rwa [List.take_append_drop] at hmerged

end Divides

theorem LevelsIn.depth {levels : List (List Write)} {s : Session} (h : LevelsIn levels s) :
    s.depth = levels.length := by
  cases levels with
  | nil =>
    cases s with
    | none => rfl
    | some t => exact h.elim
  | cons current outer =>
    cases s with
    | none => exact h.elim
    | some t => exact congrArg Nat.succ (Divides.length h)

/-- A session that is in no transaction has no levels. -/
theorem LevelsIn.of_depth {s : Session} (h : s.depth = 0) : LevelsIn [] s := by
  cases s with
  | none => trivial
  | some t => cases h

end Memory

/-- The action is a write. -/
def Action.writes : Action → Bool
  | .add _ _ | .update _ _ | .delete _ | .create _ | .drop _ => true
  | _ => false

namespace Memory

namespace Cluster

variable {c : Cluster} {id : Nat} {t : Transaction}

/-! ## Writes that succeed -/

theorem write_logs {α : Type} {f : Store → Result (α × Store)} {change : α → Change}
    (hs : c.session id = some t) (hok : (c.write id f change).1.isOk = true) :
    ((c.write id f change).2.log id).length = t.log.length + 1 := by
  unfold write at hok ⊢
  rw [hs] at hok ⊢
  dsimp only at hok ⊢
  cases hf : f t.working with
  | error e =>
    rw [hf] at hok
    cases hok
  | ok written =>
    dsimp only
    rw [log, session_setSession_self hs]
    exact List.length_append

theorem add_logs {model : Schema} {records : List Record} (hs : c.session id = some t)
    (hok : (c.add id model records).1.isOk = true) :
    ((c.add id model records).2.log id).length = t.log.length + 1 := by
  unfold add at hok ⊢
  cases hencode : records.mapM model.encode with
  | error e =>
    rw [hencode] at hok
    cases hok
  | ok documents =>
    rw [hencode] at hok
    dsimp only at hok ⊢
    split
    · rename_i hwrite
      rw [hwrite] at hok
      cases hok
    · rename_i hwrite
      -- The numbers that are given out have no part in the log.
      have hlogged := write_logs hs (congrArg (fun w => w.1.isOk) hwrite)
      rw [hwrite] at hlogged
      exact hlogged

theorem update_logs {q : Query} {values : Record} (hs : c.session id = some t)
    (hok : (c.update id q values).1.isOk = true) :
    ((c.update id q values).2.log id).length = t.log.length + 1 := by
  unfold update at hok ⊢
  dsimp only at hok ⊢
  split at hok
  · cases hok
  · exact write_logs hs hok

theorem delete_logs {q : Query} (hs : c.session id = some t)
    (hok : (c.delete id q).1.isOk = true) :
    ((c.delete id q).2.log id).length = t.log.length + 1 := by
  unfold delete at hok ⊢
  split at hok
  · cases hok
  · exact write_logs hs hok

/-- A write that succeeds in a transaction is noted in its log. -/
theorem perform_logs {a : Action} {s : Traced Cluster} (hs : s.state.session id = some t)
    (ha : a.writes = true) (hok : (a.perform backend id s).1.isOk = true) :
    ((a.perform backend id s).2.state.log id).length = t.log.length + 1 := by
  cases a with
  | add model records =>
    rw [Action.perform, Call.isOk_answering] at hok
    rw [Action.perform, Call.state_answering]
    simp only [backend, Call.isOk_step, Call.state_step] at hok ⊢
    exact add_logs hs hok
  | update q values =>
    rw [Action.perform, Call.isOk_answering] at hok
    rw [Action.perform, Call.state_answering]
    simp only [backend, Call.isOk_step, Call.state_step] at hok ⊢
    exact update_logs hs hok
  | delete q =>
    rw [Action.perform, Call.isOk_answering] at hok
    rw [Action.perform, Call.state_answering]
    simp only [backend, Call.isOk_step, Call.state_step] at hok ⊢
    exact delete_logs hs hok
  | create models =>
    rw [Action.perform, Call.state_answering]
    show ((Call.step (fun c => c.create id models) ⟨s.state, _⟩).2.state.log id).length = _
    rw [Call.state_step]
    have hcreated : (s.state.create id models).1.isOk = true := by
      unfold create write
      rw [hs]
      rfl
    exact write_logs hs hcreated
  | drop models =>
    rw [Action.perform, Call.state_answering]
    simp only [backend, Call.state_step]
    have hdropped : (s.state.drop id models).1.isOk = true := by
      unfold drop write
      rw [hs]
      rfl
    exact write_logs hs hdropped
  | _ => cases ha

/-- A write that succeeds in a transaction leaves one change of its own at the end of the log. -/
theorem perform_noted {a : Action} {s : Traced Cluster} (hs : s.state.session id = some t)
    (ha : a.writes = true) (hok : (a.perform backend id s).1.isOk = true) :
    ∃ store change, Notes a change ∧ (a.perform backend id s).2.state.session id =
      some ⟨store, t.log ++ [change], t.savepoints⟩ := by
  have hstep := perform_step id a s
  have hlogged := perform_logs hs ha hok
  generalize (a.perform backend id s).2.state = c' at hstep hlogged ⊢
  cases hstep with
  | still =>
    rw [log, hs] at hlogged
    exact absurd hlogged.symm (Nat.succ_ne_self _)
  | published _ hs₀ =>
    rw [hs] at hs₀
    cases hs₀
  | @noted t₀ change store _ hs₀ hnotes =>
    cases hs.symm.trans hs₀
    exact ⟨store, change, hnotes, session_setSession_self hs _⟩
  | opened ha' | nested ha' | released ha' | merged ha' | undone ha' | joined ha' =>
    subst ha'
    cases ha
  | ended ha' => rcases ha' with rfl | rfl | rfl <;> cases ha

end Cluster

/-! ## What actions do to the levels -/

namespace LevelsIn

variable {c : Cluster} {id : Nat} {current around : List Write} {outer levels : List (List Write)}

theorem work {s : Traced Cluster} {a : Action}
    (h : LevelsIn (current :: outer) (s.state.session id)) (ha : Works a) (k : Nat) :
    LevelsIn ((if a.writes && (a.perform backend id s).1.isOk then current ++ [(k, a)] else current)
        :: outer) ((a.perform backend id s).2.state.session id) := by
  cases hs : s.state.session id with
  | none =>
    rw [hs] at h
    exact h.elim
  | some t =>
    rw [hs] at h
    split
    · rename_i hwritten
      obtain ⟨hwrites, hok⟩ := Bool.and_eq_true_iff.1 hwritten
      obtain ⟨store, change, hnotes, hafter⟩ := Cluster.perform_noted hs hwrites hok
      rw [hafter]
      exact Divides.extend h fun hpart => hpart.append (.single hnotes)
    · -- If it has left a change nevertheless, that is one nobody can read.
      have hplain : a.scopesAfter 0 = some 0 := by
        cases a <;> first | rfl | exact ha.elim
      obtain ⟨t', hafter, ⟨rest, hlog⟩, hsaved⟩ := (Cluster.perform_step id a s).log_kept hs hplain
      rw [hafter, LevelsIn, ← hlog, hsaved]
      exact Divides.extend h fun hpart => hpart.unread rest

theorem begin (h : LevelsIn (current :: outer) (c.session id)) :
    LevelsIn ([] :: current :: outer) ((c.begin id).session id) := by
  cases hs : c.session id with
  | none =>
    rw [hs] at h
    exact h.elim
  | some t =>
    rw [hs] at h
    unfold Cluster.begin
    rw [hs, Cluster.session_setSession_self hs]
    refine ⟨Nat.le_refl _, ?_, ?_⟩
    · rw [List.drop_length]
      exact .nil
    · rw [List.take_length]
      exact h

theorem commit (h : LevelsIn (current :: around :: outer) (c.session id)) :
    LevelsIn ((around ++ current) :: outer) ((c.commit id).2.session id) := by
  cases hs : c.session id with
  | none =>
    rw [hs] at h
    exact h.elim
  | some t =>
    rw [hs] at h
    obtain ⟨first, saved, hsaved⟩ := List.exists_cons_of_length_eq_add_one (Divides.length h)
    rw [LevelsIn, hsaved] at h
    unfold Cluster.commit
    rw [hs]
    dsimp only
    rw [hsaved]
    dsimp only
    rw [Cluster.session_setSession_self hs]
    exact Divides.merge h

theorem rollback (h : LevelsIn (current :: levels) (c.session id)) :
    LevelsIn levels ((c.rollback id).2.session id) := by
  cases hs : c.session id with
  | none =>
    rw [hs] at h
    exact h.elim
  | some t =>
    rw [hs, LevelsIn] at h
    unfold Cluster.rollback
    rw [hs]
    dsimp only
    cases hsaved : t.savepoints with
    | nil =>
      rw [hsaved] at h
      cases levels with
      | nil =>
        dsimp only
        rw [Cluster.session_setSession_self hs]
        trivial
      | cons => exact h.elim
    | cons first saved =>
      rw [hsaved] at h
      cases levels with
      | nil => exact h.elim
      | cons around outer =>
        dsimp only
        rw [Cluster.session_setSession_self hs]
        exact h.2.2

/-- The log of a transaction with one level has the writes of that level. -/
theorem recorded (h : LevelsIn [current] (c.session id)) : Recorded current (c.log id) := by
  cases hs : c.session id with
  | none =>
    rw [hs] at h
    exact h.elim
  | some t =>
    rw [hs, LevelsIn] at h
    rw [Cluster.log, hs]
    cases hsaved : t.savepoints with
    | nil =>
      rw [hsaved] at h
      exact h
    | cons =>
      rw [hsaved] at h
      exact h.elim

end LevelsIn

end Memory

end ModelMapper
