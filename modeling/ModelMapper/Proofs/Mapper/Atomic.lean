import ModelMapper.Proofs.Mapper.Blocks

/-! # Atomic blocks

An atomic block publishes its writes all together, when it commits or its body does, and none of
them otherwise.  It ends its transaction unless its body lets go of a nested scope whose rollback
is still to come: then the gate refuses the commit or rollback at the end, and the transaction is
left to the rollbacks in the background.

* `Mapper.conclude_ok`, `Mapper.conclude_error` — what the end of a block does.
* `Running.Sound.concluded` — what it leaves behind.
* `Mapper.background_all`, `Mapper.background_settles` — the scheduled rollbacks after it.
* `Mapper.atomic_ends` — whole blocks.
* `Mapper.atomic_leaves_scope_open` — a block that does not end its transaction.
-/

namespace ModelMapper

open Memory (Cluster Change)
open Mapper (Open)

variable {τ α β : Type}

/-! ## The end of a block -/

theorem Op.run_bind (op : Op τ α) (f : α → Op τ β) (t : Traced τ) :
    (op >>= f) t = match op t with
      | (.ok a, after) => f a after
      | (.error e, after) => (.error e, after) := by
  show ExceptT.bindCont f (op t).1 (op t).2 = _
  rcases op t with ⟨outcome, after⟩
  cases outcome <;> rfl

theorem Op.run_get (t : Traced τ) : (get : Op τ (Traced τ)) t = (.ok t, t) := rfl

theorem Failure.toError_run (f : Failure) (t : Traced τ) :
    ∃ e events, (ExceptT.lift f.toError : Op τ Error) t = (.ok e, ⟨t.state, events⟩) := by
  cases f <;> exact ⟨_, _, rfl⟩

namespace Mapper

/-- Success commits, unless the scope has ended. -/
theorem conclude_ok (k : Nat) (t : Traced (Mapper Cluster)) (a : α) :
    conclude Memory.backend k (.ok a) t =
      if t.state.isFinished k then (.ok a, t)
      else match commit Memory.backend k t with
        | (.ok (), t') => (.ok a, t')
        | (.error e, t') => (.error e, t') := by
  unfold conclude
  dsimp only
  rw [Op.run_bind, Op.run_get]
  dsimp only
  cases t.state.isFinished k with
  | true => rfl
  | false =>
    rw [Bool.not_false, if_pos rfl, Op.run_bind]
    rcases commit Memory.backend k t with ⟨outcome, t'⟩
    cases outcome <;> rfl

theorem rollBackQuietly_run (k : Nat) (t : Traced (Mapper Cluster)) :
    ∃ t', rollBackQuietly Memory.backend k t = (.ok (), t') ∧ t'.state =
      if t.state.isFinished k then t.state else (rollback Memory.backend k t).2.state := by
  unfold rollBackQuietly
  rw [Op.run_bind, Op.run_get]
  dsimp only
  cases t.state.isFinished k with
  | true => exact ⟨_, rfl, rfl⟩
  | false =>
    have hattempt : Op.attempt (rollback Memory.backend k) t =
      (.ok (rollback Memory.backend k t).1, (rollback Memory.backend k t).2) := rfl
    rw [Bool.not_false, if_pos rfl, Op.run_bind, hattempt]
    rcases rollback Memory.backend k t with ⟨outcome, t'⟩
    cases outcome <;> exact ⟨_, rfl, rfl⟩

/-- Anything else rolls back, unless the scope has ended, and passes the failure on. -/
theorem conclude_error (k : Nat) (t : Traced (Mapper Cluster)) (f : Failure) :
    ∃ e t' events, conclude Memory.backend k (.error f : Except Failure α) t = (.error e, t') ∧
      t'.state = if t.state.isFinished k then t.state
        else (rollback Memory.backend k ⟨t.state, events⟩).2.state := by
  obtain ⟨e, events, hlift⟩ := f.toError_run t
  obtain ⟨t', hrun, hstate⟩ := rollBackQuietly_run k ⟨t.state, events⟩
  refine ⟨e, t', events, ?_, hstate⟩
  unfold conclude
  dsimp only
  rw [Op.run_bind, hlift]
  dsimp only
  rw [Op.run_bind, hrun]
  rfl

end Mapper

namespace Running

variable {tx session : Nat} {c : Cluster} {w : Running}

/-- The writes of a block that have been published, given what the block answers. -/
def publishedBy (w : Running) (tx : Nat) (answer : Result α) : Option (List Change) :=
  if w.now.state.isFinished tx then w.published
  else if answer.isOk then some (w.log tx) else none

/-- With no handle but the block's own, that scope is open besides the rollbacks to come. -/
theorem Sound.depth_own (h : Sound tx session c w) (hheld : w.held = [tx]) :
    w.now.state.store.depth session =
      (if w.now.state.isFinished tx then 0 else 1) + w.waiting.length + w.lost.length := by
  rw [h.depth, hheld, List.countP_singleton, unfinished]
  cases w.now.state.isFinished tx <;> rfl

/-- Without a rollback to come the block's own scope may be used. -/
theorem Sound.open_own (h : Sound tx session c w) (hheld : w.held = [tx])
    (hunfinished : w.now.state.isFinished tx = false) (hwaiting : w.waiting = [])
    (hlost : w.lost = []) : ∃ sc, Open Memory.backend w.now.state tx sc := by
  obtain ⟨sc, hsc, rfl, -, hone⟩ := h.scopes tx (.inl h.own)
  have hdepth := h.depth_own hheld
  rw [hunfinished, hwaiting, hlost] at hdepth
  exact ⟨sc, hsc, (Mapper.isFinished_of_scope hsc).symm.trans hunfinished,
    hdepth.trans (hone.2 rfl).symm⟩

section

variable {answer : Result α} {now : Traced (Mapper Cluster)}

theorem Sound.concluded_commit (h : Sound tx session c w)
    (hunfinished : w.now.state.isFinished tx = false) {a : α}
    (hrun : Mapper.conclude Memory.backend tx (.ok a) w.now = (answer, now)) :
    Sound tx session c
        { w with now := now, published := if answer.isOk then some (w.log tx) else none } ∧
      ∀ sc, Open Memory.backend w.now.state tx sc → now.state.isFinished tx = true := by
  rw [Mapper.conclude_ok, hunfinished, if_neg Bool.false_ne_true] at hrun
  have hsound := h.commit h.own
  have hended : ∀ sc, Open Memory.backend w.now.state tx sc →
      (Mapper.commit Memory.backend tx w.now).2.state.isFinished tx = true :=
    fun sc hopen => Mapper.isFinished_endBy Memory.backend.commit hopen
  rw [h.published hunfinished, if_pos rfl] at hsound
  rcases hasked : Mapper.commit Memory.backend tx w.now with ⟨result, after⟩
  rw [hasked] at hrun hsound hended
  cases result <;> cases hrun <;> exact ⟨hsound, hended⟩

theorem Sound.concluded_rollback (h : Sound tx session c w)
    (hunfinished : w.now.state.isFinished tx = false) {f : Failure}
    (hrun : Mapper.conclude Memory.backend tx (.error f) w.now = (answer, now)) :
    answer.isOk = false ∧ Sound tx session c { w with now := now, published := none } ∧
      ∀ sc, Open Memory.backend w.now.state tx sc → now.state.isFinished tx = true := by
  obtain ⟨e, t', events, hconclude, hstate⟩ := Mapper.conclude_error (α := α) tx w.now f
  cases hconclude.symm.trans hrun
  rw [hunfinished, if_neg Bool.false_ne_true] at hstate
  have hsame : Sound tx session c { w with now := ⟨w.now.state, events⟩ } := h.of_state rfl
  have hrolled := (hsame.rollback hsame.own).of_state hstate
  rw [h.published hunfinished] at hrolled
  refine ⟨rfl, hrolled, fun sc hopen => ?_⟩
  rw [hstate]
  exact Mapper.isFinished_endBy (t := ⟨w.now.state, events⟩) Memory.backend.rollback hopen

/-- A block whose scope has ended is left alone. -/
theorem state_concluded (hfinished : w.now.state.isFinished tx = true)
    {outcome : Except Failure α}
    (hrun : Mapper.conclude Memory.backend tx outcome w.now = (answer, now)) :
    now.state = w.now.state := by
  cases outcome with
  | ok a =>
    rw [Mapper.conclude_ok, hfinished, if_pos rfl] at hrun
    cases hrun
    rfl
  | error f =>
    obtain ⟨e, t', events, hconclude, hstate⟩ := Mapper.conclude_error (α := α) tx w.now f
    cases hconclude.symm.trans hrun
    rwa [hfinished, if_pos rfl] at hstate

/-- The end of a block keeps the invariant.  The scope has ended then, if no rollback is still to
    come. -/
theorem Sound.concluded (h : Sound tx session c w) (hheld : w.held = [tx])
    {outcome : Except Failure α}
    (hrun : Mapper.conclude Memory.backend tx outcome w.now = (answer, now)) :
    Sound tx session c { w with now := now, published := w.publishedBy tx answer } ∧
      (w.waiting = [] → w.lost = [] → now.state.isFinished tx = true) := by
  unfold publishedBy
  cases hfinished : w.now.state.isFinished tx with
  | true =>
    have hstate := state_concluded hfinished hrun
    rw [if_pos rfl, hstate]
    exact ⟨h.of_state hstate, fun _ _ => hfinished⟩
  | false =>
    rw [if_neg Bool.false_ne_true]
    have hopen := h.open_own hheld hfinished
    cases outcome with
    | ok a =>
      obtain ⟨hsound, hended⟩ := h.concluded_commit hfinished hrun
      exact ⟨hsound, fun hwaiting hlost => (hopen hwaiting hlost).elim hended⟩
    | error f =>
      obtain ⟨hfailed, hsound, hended⟩ := h.concluded_rollback hfinished hrun
      rw [hfailed, if_neg Bool.false_ne_true]
      exact ⟨hsound, fun hwaiting hlost => (hopen hwaiting hlost).elim hended⟩

end

end Running

namespace Mapper

/-! ## Whole blocks -/

/-- Scheduled rollbacks, in any order: each takes one scope away. -/
theorem background_all {session : Nat} {ks : List Nat} {t : Traced (Mapper Cluster)}
    (hks : ∀ k ∈ ks, ∃ sc, t.state.scope? k = some sc ∧ sc.session = session)
    (hdepth : ks.length ≤ t.state.store.depth session) :
    let after := (ks.forM (rollBackInBackground Memory.backend) t).2.state.store
    after.depth session + ks.length = t.state.store.depth session ∧
      after.without session = t.state.store.without session := by
  induction ks generalizing t with
  | nil => exact ⟨rfl, rfl⟩
  | cons k rest ih =>
    obtain ⟨⟨sc, hsc, rfl⟩, hrest⟩ := List.forall_mem_cons.1 hks
    rw [List.length_cons] at hdepth
    -- It need not be the scope of this handle that goes: the session's innermost one does.
    obtain ⟨store, hrolled, hothers, hone⟩ :=
      Cluster.rollback_own (show 0 < t.state.store.depth sc.session by omega)
    obtain ⟨next, hrun, hstate⟩ := background_scope hsc
    rw [hrolled] at hstate
    have hnext : next.state.store = store := congrArg Mapper.store hstate
    have hscopes : ∀ j, next.state.scope? j = t.state.scope? j := by
      intro j
      rw [hstate]
      rfl
    obtain ⟨hlast, hsame⟩ := ih (t := next)
      (fun j hj => by rw [hscopes]; exact hrest j hj) (by rw [hnext]; omega)
    rw [hnext] at hlast hsame
    have hcons : (k :: rest).forM (rollBackInBackground Memory.backend) t =
        rest.forM (rollBackInBackground Memory.backend) next := by
      show (rollBackInBackground Memory.backend k >>= fun _ => rest.forM _) t = _
      rw [Call.run_bind, hrun]
    rw [hcons]
    refine ⟨?_, hsame.trans hothers⟩
    rw [List.length_cons]
    omega

/-- The rollbacks that are to come after a block, and the one of its own scope if that has not
    ended, leave the scopes open that were lost. -/
theorem background_settles {tx session : Nat} {c : Cluster} {w : Running}
    (h : w.Sound tx session c) (hheld : w.held = [tx]) {order : List Nat}
    (horder : order.Perm (w.waiting ++ if w.now.state.isFinished tx then [] else [tx])) :
    let settled := (order.forM (rollBackInBackground Memory.backend) w.now).2.state.store
    settled.depth session = w.lost.length ∧
      settled.without session = w.now.state.store.without session := by
  have hscopes : ∀ k ∈ order, ∃ sc, w.now.state.scope? k = some sc ∧ sc.session = session := by
    intro k hk
    have hknown : k ∈ w.held ∨ k ∈ w.waiting := by
      rcases List.mem_append.1 (horder.mem_iff.1 hk) with hk | hk
      · exact .inr hk
      · split at hk
        · cases hk
        · exact .inl (hheld ▸ hk)
    obtain ⟨sc, hsc, hsession, -⟩ := h.scopes k hknown
    exact ⟨sc, hsc, hsession⟩
  have hlength : order.length + w.lost.length = w.now.state.store.depth session := by
    rw [horder.length_eq, h.depth_own hheld, List.length_append]
    cases w.now.state.isFinished tx with
    | true =>
      simp
    | false =>
      simp
      omega
  obtain ⟨hsettled, hothers⟩ := background_all hscopes (by omega)
  exact ⟨by omega, hothers⟩

theorem atomic_run (block : Block α) {t t₀ : Traced (Mapper Cluster)} {tx : Nat}
    (h : begin Memory.backend .database t = (.ok tx, t₀)) :
    atomic Memory.backend block.body t =
      conclude Memory.backend tx block.ending (block.finish tx t₀).now := by
  unfold atomic
  rw [Op.run_bind, h]
  rfl

/-- What an atomic block leaves behind, whatever it does and however it ends.

    Its transaction has ended, unless the block has let go of nested scopes whose rollbacks are
    still to come: then all of them are open, and the block's own.  Besides its session there is
    what the requests of the others have done, with the writes of the block at once, if it or its
    body committed, and without any of them otherwise.  The rollbacks that are scheduled then, its
    own among them, end the transaction in any order, but for the scopes that were lost, and
    publish nothing. -/
theorem atomic_ends (block : Block α) (t : Traced (Mapper Cluster)) :
    ∃ tx session t₀, begin Memory.backend .database t = (.ok tx, t₀) ∧
      t₀.state.scope? tx = some ⟨session, 1, false⟩ ∧
      t₀.state.store.session session = some ⟨t₀.state.store.shared, [], []⟩ ∧
      let w := block.finish tx t₀
      let run := atomic Memory.backend block.body t
      let last := run.2.state.store
      last.depth session =
          (if w.waiting = [] ∧ w.lost = [] then 0 else w.waiting.length + w.lost.length + 1) ∧
        Cluster.Passes session (t₀.state.store.without session) w.others
          (w.publishedBy tx run.1) (last.without session) ∧
        ∀ order : List Nat, order.Perm (w.waiting ++ if run.2.state.isFinished tx then [] else [tx]) →
          let settled := (order.forM (rollBackInBackground Memory.backend) run.2).2.state.store
          settled.depth session = w.lost.length ∧
            settled.without session = last.without session := by
  obtain ⟨tx, session, t₀, hbegin, hscope, hsession⟩ := begin_database t
  have hstart : t₀.state.store.depth session = 1 := by
    rw [Cluster.depth, hsession]
    rfl
  obtain ⟨hsound, hheld⟩ := block.sound hscope hstart
  refine ⟨tx, session, t₀, hbegin, hscope, hsession, ?_⟩
  rw [atomic_run block hbegin]
  generalize block.finish tx t₀ = w at hsound hheld ⊢
  rcases hrun : conclude Memory.backend tx block.ending w.now with ⟨answer, now⟩
  obtain ⟨hlast, hended⟩ := hsound.concluded hheld hrun
  refine ⟨?_, hlast.passes, fun order horder => background_settles hlast hheld horder⟩
  have hdepth := hlast.depth_own hheld
  dsimp only at hdepth ⊢
  cases hfinished : now.state.isFinished tx with
  | true =>
    -- Nothing is open any more, so no rollback is still to come.
    have hzero : now.state.store.depth session = 0 := hlast.ended hfinished
    have hwaiting : w.waiting = [] := List.eq_nil_of_length_eq_zero (by omega)
    have hlost : w.lost = [] := List.eq_nil_of_length_eq_zero (by omega)
    rw [if_pos ⟨hwaiting, hlost⟩, hzero]
  | false =>
    have hleft : ¬(w.waiting = [] ∧ w.lost = []) := by
      rintro ⟨hwaiting, hlost⟩
      cases hfinished.symm.trans (hended hwaiting hlost)
    rw [if_neg hleft, hdepth, hfinished, if_neg Bool.false_ne_true]
    omega

/-- A nested scope is dropped inside a block that fails, where its rollback can be scheduled or
    not.  It has not run when the block is concluded, so the gate refuses to roll the block back,
    and both scopes stay open. -/
theorem atomic_leaves_scope_open :
    let block (runtime : Bool) : Block Unit :=
      ⟨[.begin 0, .letGo 1 runtime], true, [], .error (.error (.query "stop"))⟩
    let run (runtime : Bool) := atomic Memory.backend (block runtime).body ⟨start .start, []⟩
    ∀ runtime ∈ [true, false], (run runtime).1.isOk = false ∧
      (run runtime).2.state.isFinished 0 = false ∧ (run runtime).2.state.store.depth 1 = 2 := by
  decide +kernel

end Mapper

end ModelMapper
