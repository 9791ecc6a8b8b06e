import ModelMapper.Backend.Observed
import ModelMapper.Proofs.Mapper.Operations
import ModelMapper.Proofs.Sqlite.Demands

/-! # Commits that fail

A scope is marked as ended before its backend answers.  A backend that refuses to commit may have
ended the transaction, or may have left it as it was; then no handle is left that could end it.

* `Backend.KeepsOrEnds` — what a backend may do to a session when it refuses to commit.
* `Memory.keepsOrEnds`, `Sqlite.keepsOrEnds`, `Backend.KeepsOrEnds.observed` — what the backends
  do: the store in memory ends the transaction, and the engine leaves it as it was.
* `Mapper.performAll_closed` — handles that are all refused leave everything as it is.
* `Mapper.commit_failed` — what is left of a scope whose commit has failed.
-/

namespace ModelMapper

variable {σ α : Type}

/-! ## What a backend may do -/

/-- A commit that fails leaves the session as deep as it was, or ends its transaction. -/
def Backend.KeepsOrEnds (b : Backend σ) : Prop :=
  ∀ (session : Nat) (t : Traced σ), (b.commit session t).1.isOk = false →
    b.depth session (b.commit session t).2.state = b.depth session t.state ∨
      b.depth session (b.commit session t).2.state = 0

/-- A call that is observed is stopped by a fault, or made. -/
theorem Observed.call_cases (kind : CallKind) (detail : CallDetail) (c : Call σ α)
    (t : Traced (Observed σ)) :
    (call kind detail c t).2.state.store = t.state.store ∨
      (call kind detail c t).1 = (c ⟨t.state.store, t.events⟩).1 ∧
        (call kind detail c t).2.state.store = (c ⟨t.state.store, t.events⟩).2.state := by
  rw [call, Call.run_state]
  rcases Fault.due kind t.state.faults with ⟨_ | f, faults⟩
  · exact .inr ⟨rfl, rfl⟩
  · exact .inl rfl

theorem Backend.KeepsOrEnds.observed {b : Backend σ} (hb : b.KeepsOrEnds) :
    b.observed.KeepsOrEnds := by
  intro session t hfailed
  have hcall := Observed.call_cases .commit .nothing (b.commit session) t
  rcases hcall with hstopped | ⟨houtcome, hstore⟩
  · exact .inl (congrArg (b.depth session) hstopped)
  · have hdepth := hb session ⟨t.state.store, t.events⟩
      ((congrArg Except.isOk houtcome).symm.trans hfailed)
    rw [← hstore] at hdepth
    exact hdepth

/-! ### In memory -/

namespace Memory

/-- A commit can only fail at the outermost scope or outside, and leaves no transaction behind. -/
theorem Cluster.failed_commit_ends {c : Cluster} {id : Nat} (h : (c.commit id).1.isOk = false) :
    (c.commit id).2.depth id = 0 := by
  by_cases hnone : c.depth id = 0
  · cases hs : c.session id with
    | none =>
      rw [commit, hs]
      exact hnone
    | some t =>
      rw [depth, hs] at hnone
      cases hnone
  · rcases Nat.lt_or_eq_of_le (Nat.pos_of_ne_zero hnone) with hinner | houter
    · obtain ⟨c', hcommit, -⟩ := Cluster.commit_inner hinner
      rw [hcommit] at h
      cases h
    · rcases Cluster.commit_outer houter.symm with ⟨_, c', hcommit, -⟩ | ⟨_, c', hcommit, -, hended⟩
      · rw [hcommit] at h
        cases h
      · rw [hcommit]
        exact hended

theorem failed_commit_ends {session : Nat} {t : Traced Cluster}
    (h : (backend.commit session t).1.isOk = false) :
    backend.depth session (backend.commit session t).2.state = 0 := by
  have hcommit : (t.state.commit session).1.isOk = false :=
    (Cluster.commit_isOk session t).symm.trans h
  show (Cluster.tracedCommit session t).2.state.depth session = 0
  rw [Cluster.commit_state]
  exact Cluster.failed_commit_ends hcommit

theorem keepsOrEnds : backend.KeepsOrEnds := fun _ _ h => .inr (failed_commit_ends h)

end Memory

/-! ### In the engine -/

namespace Sqlite

/-- A transaction statement that fails changes nothing, apart from the refusals to come. -/
theorem Cluster.runScope_failed {c : Cluster} {id : Nat} {context : String} {s : Scope}
    (h : (c.runScope id context s).1.isOk = false) : (c.runScope id context s).2 = c.pass := by
  unfold runScope at h ⊢
  dsimp only at h ⊢
  split at h
  · rfl
  · split at h
    · cases h
    · rfl

theorem failed_commit_keeps {session : Nat} {t : Traced Cluster}
    (h : (backend.commit session t).1.isOk = false) :
    backend.depth session (backend.commit session t).2.state = backend.depth session t.state := by
  -- The depth is taken back only behind the statement.
  have hrefused {s : Scope} {next : Cluster → Cluster}
      (h : ((Cluster.scope session "commit failed" s >>= fun _ => Call.modifyState next) t).1.isOk =
        false) :
      ((Cluster.scope session "commit failed" s >>= fun _ =>
        Call.modifyState next) t).2.state.depth session = t.state.depth session := by
    rw [Call.run_bind, Cluster.run_scope] at h ⊢
    cases hran : (t.state.runScope session "commit failed" s).1 with
    | error e =>
      have hpass := Cluster.runScope_failed (congrArg Except.isOk hran)
      exact congrArg (fun c => c.depth session) hpass
    | ok _ =>
      rw [hran] at h
      cases h
  change (Cluster.commit session t).1.isOk = false at h
  show (Cluster.commit session t).2.state.depth session = t.state.depth session
  rw [Cluster.commit, Call.run_state] at h ⊢
  rcases hdepth : t.state.depth session with - | - | n
  · exact hdepth
  · rw [hdepth] at h
    exact (hrefused h).trans hdepth
  · rw [hdepth] at h
    exact (hrefused h).trans hdepth

theorem keepsOrEnds : backend.KeepsOrEnds := fun _ _ h => .inl (failed_commit_keeps h)

end Sqlite

/-! ## What is left of the scope -/

namespace Mapper

variable {b : Backend σ} {k : Nat} {t : Traced (Mapper σ)} {sc : Scope}

/-- A scope that has ended is refused, whatever the backend says. -/
theorem checkOpen_finished (h : t.state.isFinished k = true) :
    checkOpen b k t = (.error (.error Scope.alreadyFinished), t) := by
  rw [run_checkOpen]
  cases hk : t.state.scope? k with
  | none => rfl
  | some sc =>
    have hended : sc.finished = true := (isFinished_of_scope hk).symm.trans h
    dsimp only
    rw [Scope.check, if_pos hended]

/-- Nobody takes care of a scope that has ended when its handles are gone. -/
theorem abandon_finished (hk : t.state.scope? k = some sc) (h : sc.finished = true)
    (runtime : Bool) : abandon b [k] runtime t = (.ok (), t) := by
  have hletGo : letGo k runtime t = (.ok false, t) := by
    rw [letGo, Call.run_bind, run_scope, hk]
    simp only [h]
    rfl
  have hunfinished : ([k].filterM fun id => letGo id runtime) t = (.ok [], t) := by
    show ((letGo k runtime >>= fun unfinished => pure (cond unfinished [k] [])) >>= fun ids =>
      pure ids.reverse : Call (Mapper σ) (List Nat)) t = _
    rw [Call.run_bind, Call.run_bind, hletGo]
    rfl
  refine Call.guarded_ok ?_
  rw [Call.run_bind, hunfinished]
  cases runtime <;> rfl

/-- Operations one after the other, each with the handle of a scope. -/
def performAll (b : Backend σ) (run : List (Nat × Operation)) (t : Traced (Mapper σ)) :
    Traced (Mapper σ) :=
  run.foldl (fun t step => (step.2.perform b step.1 t).2) t

/-- Handles of scopes that are not open leave everything as it is. -/
theorem performAll_closed {run : List (Nat × Operation)}
    (h : ∀ step ∈ run, ∀ sc, ¬Open b t.state step.1 sc) : performAll b run t = t := by
  induction run with
  | nil => rfl
  | cons step rest ih =>
    obtain ⟨hstep, hrest⟩ := List.forall_mem_cons.1 h
    have hrefused : (step.2.perform b step.1 t).2 = t := by
      rcases checkOpen_cases b step.1 t with ⟨sc, hopen, -⟩ | ⟨-, e, -, hrefused⟩
      · exact absurd hopen (hstep sc)
      · rw [step.2.perform_refused hrefused]
    show performAll b rest (step.2.perform b step.1 t).2 = t
    rw [hrefused]
    exact ih hrest

/-- What is left of a scope whose commit its backend has refused.

    The scope has ended all the same: no operation with one of its handles is let through, the
    rollback among them, and none is scheduled when the handles are gone.  So the transaction of
    its session has ended as well, or else it is as deep as it was and stays so: whatever is done
    with the handles of that session leaves everything as it is, as long as no other unfinished
    scope is as deep. -/
theorem commit_failed (hb : b.KeepsOrEnds) (hopen : Open b t.state k sc)
    (hfailed : (commit b k t).1.isOk = false) :
    let after := (commit b k t).2
    after.state.isFinished k = true ∧
      (∀ op : Operation, op.perform b k after = (.error Scope.alreadyFinished, after)) ∧
      (∀ runtime, abandon b [k] runtime after = (.ok (), after)) ∧
      (b.depth sc.session after.state.store = 0 ∨
        b.depth sc.session after.state.store = sc.depth ∧
          ∀ run : List (Nat × Operation),
            (∀ step ∈ run, step.1 ≠ k → ∃ other, t.state.scope? step.1 = some other ∧
              other.session = sc.session ∧ (other.finished = true ∨ other.depth ≠ sc.depth)) →
            performAll b run after = after) := by
  intro after
  obtain ⟨hclosed, -⟩ | ⟨sc', hopen', hok, hstate⟩ := endBy_scope b b.commit k t
  · exact absurd hopen (hclosed sc)
  cases hopen.scope.symm.trans hopen'.scope
  have hfinished : after.state.isFinished k = true := isFinished_endBy b.commit hopen
  have hscope : after.state.scope? k = some sc.ended := by
    show (endBy b b.commit k t).2.state.scope? k = _
    rw [hstate, scope?_ending, hopen.scope]
    simp
  have hstore : after.state.store = (b.commit sc.session ⟨t.state.store, t.events⟩).2.state :=
    congrArg Mapper.store hstate
  refine ⟨hfinished, fun op => op.perform_refused (checkOpen_finished hfinished),
    abandon_finished hscope rfl, ?_⟩
  have hdepth := hb sc.session ⟨t.state.store, t.events⟩ (hok.symm.trans hfailed)
  rw [← hstore] at hdepth
  refine hdepth.symm.imp_right fun hkept => ?_
  have hsame := hkept.trans hopen.innermost
  refine ⟨hsame, fun run hrun => performAll_closed fun step hstep other hother => ?_⟩
  by_cases hk : step.1 = k
  · rw [hk] at hother
    cases hfinished.symm.trans hother.isFinished
  · obtain ⟨before, hbefore, hsession, hdifferent⟩ := hrun step hstep hk
    -- The other scopes are where they were.
    have hlater : after.state.scope? step.1 = some before := by
      show (endBy b b.commit k t).2.state.scope? step.1 = _
      rw [hstate, scope?_ending, hbefore, Option.map_some, if_neg (Ne.symm hk)]
    cases hlater.symm.trans hother.scope
    rcases hdifferent with hended | hdeeper
    · cases hended.symm.trans hother.unfinished
    · have hinnermost := hother.innermost
      rw [hsession] at hinnermost
      exact hdeeper (hinnermost.symm.trans hsame)

/-- An item with the largest key is stored in the engine, so the next add fails for want of a key.
    With that the engine gives up the transaction, and refuses to commit it. -/
theorem commit_failed_of_items :
    let item : Schema := ⟨"Item", [.ofMarks "id" .int [.key, .auto]]⟩
    let model := Model.ofSchema item
    let add (k : Nat) (r : Record) (t : Traced (Mapper Sqlite.Cluster)) :=
      (Mapper.add Sqlite.backend model (.scope k) [⟨r, ⟨1⟩⟩] t).2
    let created := (useModels Sqlite.backend ⟨"c", [item]⟩ ⟨start .start, []⟩).2
    let begun := (begin Sqlite.backend .database created).2
    let t := add 0 .empty (add 0 (Record.empty.set "id" (.int 9223372036854775807)) begun)
    let after := (commit Sqlite.backend 0 t).2
    (commit Sqlite.backend 0 t).1.isOk = false ∧ Sqlite.backend.depth 1 after.state.store = 1 ∧
      Operation.rollback.perform Sqlite.backend 0 after =
        (.error Scope.alreadyFinished, after) := by
  intro item model add created begun t after
  have hfailed : (commit Sqlite.backend 0 t).1.isOk = false := by decide +kernel
  have hopen : Open Sqlite.backend t.state 0 ⟨1, 1, false⟩ := by
    constructor <;> decide +kernel
  obtain ⟨-, hrefused, -⟩ := commit_failed Sqlite.keepsOrEnds hopen hfailed
  exact ⟨hfailed, by decide +kernel, hrefused .rollback⟩

/-- The backend fails to commit a scope, the outermost one or one in it, and leaves the transaction
    open.  The rollback is refused before it reaches the backend. -/
theorem commit_failed_strands :
    let b := Memory.backend.observed
    let failing : Fault := ⟨.commit, 0, .error (.connection "ci")⟩
    let outermost := (begin b .database ⟨start ⟨.start, [], [failing]⟩, []⟩).2
    let nested := (begin b (.scope 0) outermost).2
    ∀ run ∈ [(0, outermost), (1, nested)],
      let failed := commit b run.1 run.2
      let rolled := rollback b run.1 failed.2
      failed.1.isOk = false ∧ b.depth 1 failed.2.state.store = run.1 + 1 ∧
        rolled.1.isOk = false ∧ rolled.2.state.store.log = failed.2.state.store.log ∧
        b.depth 1 rolled.2.state.store = run.1 + 1 := by
  decide +kernel

end Mapper

end ModelMapper
