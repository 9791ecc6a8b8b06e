import ModelMapper.Proofs.Mapper.Scopes

/-! # Blocks

What the body of an atomic block does, as a list of moves: it works in scopes, opens nested
ones, ends them or lets go of them, while other sessions go on and scheduled rollbacks get their
turn.  A move on a scope whose handle is gone does nothing.

* `Running` — the mapper inside a block, with the handles the block has and the rollbacks that
  are still to come.
* `Move.play`, `Block.finish` — one move, and a block up to the end of its body, where it lets
  go of all nested scopes that are left.
* `Running.Sound` — the session has a scope open for each unfinished handle and each rollback
  to come, and nobody else has seen anything of it.
* `Running.Sound.move`, `Block.sound` — every move keeps that, so it holds at the end of the
  body.
-/

namespace ModelMapper

open Memory (Cluster Change)
open Mapper (Inside Open)

/-! ## Moves -/

structure Running where
  now : Traced (Mapper Cluster)
  /-- The scopes that the block has handles of; its own is one of them. -/
  held : List Nat
  /-- The scopes that are gone unfinished, with a rollback scheduled. -/
  waiting : List Nat
  /-- Those that went where nothing could be scheduled. -/
  lost : List Nat
  /-- The writes that a commit in the block has published. -/
  published : Option (List Change)
  /-- What other sessions have asked for meanwhile. -/
  others : List Request

/-- What happens beside a block. -/
inductive Turn where
  | background (k : Nat)
  | elsewhere (r : Request)

inductive Move where
  | work (k : Nat) (w : Work)
  | begin (k : Nat)
  | commit (k : Nat)
  | rollback (k : Nat)
  | letGo (k : Nat) (runtime : Bool)
  | turn (t : Turn)

namespace Running

/-- The block's own scope has just been opened. -/
def start (tx : Nat) (t : Traced (Mapper Cluster)) : Running := ⟨t, [tx], [], [], none, []⟩

/-- The session of the block's scope. -/
def session (w : Running) (tx : Nat) : Nat := w.now.state.sessionAt (.scope tx)

/-- The writes of the block that are not published yet. -/
def log (w : Running) (tx : Nat) : List Change := w.now.state.store.log (w.session tx)

/-- The last handle of a nested scope goes; the block's own scope has one outside. -/
def letGo (tx : Nat) (runtime : Bool) (w : Running) (k : Nat) : Running :=
  if k ∈ w.held ∧ k ≠ tx then
    match Mapper.letGo k runtime w.now with
    | (.ok true, now) =>
      if runtime then { w with now := now, held := w.held.erase k, waiting := k :: w.waiting }
      else { w with now := now, held := w.held.erase k, lost := k :: w.lost }
    | (_, now) => { w with now := now, held := w.held.erase k }
  else w

end Running

def Turn.play (tx : Nat) (w : Running) : Turn → Running
  | background k =>
    if k ∈ w.waiting then
      { w with
        now := (Mapper.rollBackInBackground Memory.backend k w.now).2
        waiting := w.waiting.erase k }
    else w
  | elsewhere r =>
    -- Nobody else has the session of the block.
    if r.session = w.session tx then w
    else
      { w with
        now := (Mapper.onStore (r.carryOut Memory.backend) w.now).2
        others := w.others ++ [r] }

def Move.play (tx : Nat) (w : Running) : Move → Running
  | work k job =>
    if k ∈ w.held then { w with now := job.after Memory.backend k w.now } else w
  | begin k =>
    if k ∈ w.held then
      match Mapper.begin Memory.backend (.scope k) w.now with
      | (.ok new, now) => { w with now := now, held := new :: w.held }
      | (.error _, now) => { w with now := now }
    else w
  | commit k =>
    if k ∈ w.held then
      match Mapper.commit Memory.backend k w.now with
      | (.ok (), now) =>
        { w with now := now, published := if k = tx then some (w.log tx) else w.published }
      | (.error _, now) => { w with now := now }
    else w
  | rollback k =>
    if k ∈ w.held then { w with now := (Mapper.rollback Memory.backend k w.now).2 } else w
  | letGo k runtime => w.letGo tx runtime k
  | turn t => t.play tx w

/-- What a block does and how its body ends. -/
structure Block (α : Type) where
  moves : List Move
  /-- Whether the handles that are left at the end go where a rollback can be scheduled. -/
  runtime : Bool
  /-- What still happens before the block is concluded. -/
  late : List Turn
  ending : Except Failure α

namespace Block

variable {α : Type}

/-- The body up to its end, where no handle of a nested scope is left. -/
def finish (b : Block α) (tx : Nat) (t : Traced (Mapper Cluster)) : Running :=
  let moved := b.moves.foldl (Move.play tx) (.start tx t)
  let left := moved.held.foldl (Running.letGo tx b.runtime) moved
  b.late.foldl (Turn.play tx) left

def body (b : Block α) (tx : Nat) : Call (Mapper Cluster) α := fun t =>
  (b.ending, (b.finish tx t).now)

end Block

/-! ## The invariant -/

namespace Running

def unfinished (w : Running) (k : Nat) : Bool := !w.now.state.isFinished k

/-- The session of a block has as many scopes open as there are unfinished handles and rollbacks
    to come.  Besides the session there is what the others have done, and the writes that the
    block has published. -/
structure Sound (tx session : Nat) (c : Cluster) (w : Running) : Prop where
  nodup : w.held.Nodup
  own : tx ∈ w.held
  scopes : ∀ k, k ∈ w.held ∨ k ∈ w.waiting → ∃ sc, w.now.state.scope? k = some sc ∧
    sc.session = session ∧ 0 < sc.depth ∧ (sc.depth = 1 ↔ k = tx)
  depth : w.now.state.store.depth session =
    w.held.countP w.unfinished + w.waiting.length + w.lost.length
  ended : w.now.state.isFinished tx = true → w.now.state.store.depth session = 0
  published : w.now.state.isFinished tx = false → w.published = none
  passes : Cluster.Passes session c w.others w.published (w.now.state.store.without session)

variable {tx session : Nat} {c : Cluster} {w : Running}

theorem Sound.session_eq (h : Sound tx session c w) : w.session tx = session := by
  obtain ⟨sc, hsc, hsession, -⟩ := h.scopes tx (.inl h.own)
  rw [Running.session, Mapper.sessionAt, hsc]
  exact hsession

theorem countP_erase_of_mem {k : Nat} {l : List Nat} (h : k ∈ l) (p : Nat → Bool) :
    l.countP p = (l.erase k).countP p + if p k then 1 else 0 := by
  rw [(List.perm_cons_erase h).countP_eq, List.countP_cons]

/-- A scope that is open stands for a scope of the session. -/
theorem Sound.depth_of_open (h : Sound tx session c w) {k : Nat} (hk : k ∈ w.held) {sc : Scope}
    (hopen : Open Memory.backend w.now.state k sc) : sc.session = session ∧
      0 < w.now.state.store.depth session ∧ (w.now.state.store.depth session = 1 ↔ k = tx) := by
  obtain ⟨sc', hsc', rfl, hpos, hone⟩ := h.scopes k (.inl hk)
  cases hsc'.symm.trans hopen.scope
  have hinnermost : w.now.state.store.depth sc.session = sc.depth := hopen.innermost
  rw [hinnermost]
  exact ⟨rfl, hpos, hone⟩

/-- Nothing has happened to the scopes, but some scheduled rollbacks may have had their turn. -/
theorem Sound.aside (h : Sound tx session c w) {now : Traced (Mapper Cluster)}
    {waiting : List Nat} {others : List Request} (hscopes : now.state.scopes = w.now.state.scopes)
    (hwaiting : waiting.Sublist w.waiting)
    (hdepth : now.state.store.depth session + w.waiting.length =
      w.now.state.store.depth session + waiting.length)
    (hpasses : Cluster.Passes session c others w.published (now.state.store.without session)) :
    Sound tx session c { w with now := now, waiting := waiting, others := others } := by
  have hscope : ∀ k, now.state.scope? k = w.now.state.scope? k := by
    intro k
    rw [Mapper.scope?, hscopes]
    rfl
  have hfinished : ∀ k, now.state.isFinished k = w.now.state.isFinished k := by
    intro k
    rw [Mapper.isFinished, hscope]
    rfl
  have hcount : w.held.countP (fun k => !now.state.isFinished k) = w.held.countP w.unfinished :=
    congrArg (w.held.countP ·) (funext fun k => congrArg not (hfinished k))
  have hbefore := h.depth
  refine ⟨h.nodup, h.own, fun k hk => ?_, ?_, fun hended => ?_, fun hopen => ?_, hpasses⟩
  · rw [hscope]
    exact h.scopes k (hk.imp id fun hk => hwaiting.subset hk)
  · show now.state.store.depth session =
      w.held.countP (fun k => !now.state.isFinished k) + waiting.length + w.lost.length
    omega
  · have hzero := h.ended ((hfinished tx).symm.trans hended)
    have hlength := hwaiting.length_le
    show now.state.store.depth session = 0
    omega
  · exact h.published ((hfinished tx).symm.trans hopen)

theorem Sound.of_inside (h : Sound tx session c w) {now : Traced (Mapper Cluster)}
    (hinside : Inside session w.now.state now.state) :
    Sound tx session c { w with now := now } :=
  h.aside hinside.scopes (.refl _) (congrArg (· + _) hinside.depth) (hinside.others ▸ h.passes)

theorem Sound.of_state (h : Sound tx session c w) {now : Traced (Mapper Cluster)}
    (hstate : now.state = w.now.state) : Sound tx session c { w with now := now } :=
  h.of_inside (hstate ▸ .refl session w.now.state)

theorem Sound.opened (h : Sound tx session c w) {now : Traced (Mapper Cluster)}
    (hopen : 0 < w.now.state.store.depth session)
    (hdepth : now.state.store.depth session = w.now.state.store.depth session + 1)
    (hscopes : now.state.scopes = w.now.state.scopes ++
      [⟨session, now.state.store.depth session, false⟩])
    (hothers : now.state.store.without session = w.now.state.store.without session) :
    Sound tx session c { w with now := now, held := w.now.state.scopes.length :: w.held } := by
  -- The new scope is the last of the list, so the others stay where they are.
  have hlt : ∀ k, k ∈ w.held ∨ k ∈ w.waiting → k < w.now.state.scopes.length := by
    intro k hk
    obtain ⟨sc, hsc, -⟩ := h.scopes k hk
    exact (List.getElem?_eq_some_iff.1 hsc).1
  have hold : ∀ k, k ∈ w.held ∨ k ∈ w.waiting →
      now.state.scope? k = w.now.state.scope? k := fun k hk =>
    Mapper.scope?_of_added hscopes (hlt k hk)
  have hnew := Mapper.scope?_added hscopes
  have hfinished : ∀ k ∈ w.held, now.state.isFinished k = w.now.state.isFinished k :=
    fun k hk => Mapper.isFinished_of_added hscopes (hlt k (.inl hk))
  have hcount : (w.now.state.scopes.length :: w.held).countP (fun k => !now.state.isFinished k) =
      w.held.countP w.unfinished + 1 := by
    rw [List.countP_cons, Mapper.isFinished_of_scope hnew]
    refine congrArg (· + 1) (List.countP_congr fun k hk => ?_)
    rw [hfinished k hk]
    rfl
  have hbefore := h.depth
  refine ⟨List.nodup_cons.2 ⟨fun hmem => Nat.lt_irrefl _ (hlt _ (.inl hmem)), h.nodup⟩,
    List.mem_cons_of_mem _ h.own, fun k hk => ?_, ?_, fun hended => ?_, fun hunfinished => ?_,
    hothers ▸ h.passes⟩
  · by_cases hsame : k = w.now.state.scopes.length
    · subst hsame
      refine ⟨_, hnew, rfl, hdepth ▸ Nat.succ_pos _, fun hone => ?_, fun htx => ?_⟩
      · have hone : now.state.store.depth session = 1 := hone
        omega
      · exact absurd (hlt tx (.inl h.own)) (htx ▸ Nat.lt_irrefl _)
    · have hk' : k ∈ w.held ∨ k ∈ w.waiting :=
        hk.imp (fun hk => (List.mem_cons.1 hk).resolve_left hsame) id
      show ∃ sc, now.state.scope? k = some sc ∧ _
      rw [hold k hk']
      exact h.scopes k hk'
  · show now.state.store.depth session =
      (w.now.state.scopes.length :: w.held).countP (fun k => !now.state.isFinished k) +
        w.waiting.length + w.lost.length
    omega
  · have hzero := h.ended ((hfinished tx h.own).symm.trans hended)
    omega
  · exact h.published ((hfinished tx h.own).symm.trans hunfinished)

/-- A scope has ended, and the backend with it. -/
theorem Sound.closed (h : Sound tx session c w) {k : Nat} (hk : k ∈ w.held) {sc : Scope}
    (hopen : Open Memory.backend w.now.state k sc) {store : Cluster} {events : List Event}
    {published : Option (List Change)}
    (hdepth : store.depth session + 1 = w.now.state.store.depth session)
    (hpublished : k ≠ tx → published = w.published)
    (hpasses : Cluster.Passes session c w.others published (store.without session)) :
    Sound tx session c
      { w with now := ⟨w.now.state.ending k store, events⟩, published := published } := by
  have hkfinished := hopen.isFinished
  have hkended := Mapper.isFinished_ending hopen.scope store
  have hfinished : ∀ j, j ≠ k →
      (w.now.state.ending k store).isFinished j = w.now.state.isFinished j :=
    fun j hj => Mapper.isFinished_ending_of_ne w.now.state hj store
  -- Of the handles only this one was unfinished and is not any more.
  have hcount : w.held.countP (fun j => !(w.now.state.ending k store).isFinished j) + 1 =
      w.held.countP w.unfinished := by
    rw [countP_erase_of_mem hk, countP_erase_of_mem hk w.unfinished, unfinished, hkfinished,
      hkended]
    refine congrArg (· + 1) (List.countP_congr fun j hj => ?_)
    rw [hfinished j ((h.nodup.mem_erase_iff).1 hj).1]
    rfl
  have hbefore := h.depth
  refine ⟨h.nodup, h.own, fun j hj => ?_, ?_, fun hended => ?_, fun hunfinished => ?_, hpasses⟩
  · obtain ⟨sc', hsc', hsc⟩ := h.scopes j hj
    refine ⟨if k = j then sc'.ended else sc', ?_, ?_⟩
    · show (w.now.state.ending k store).scope? j = _
      rw [Mapper.scope?_ending, hsc']
      rfl
    · split
      · exact hsc
      · exact hsc
  · show store.depth session =
      w.held.countP (fun j => !(w.now.state.ending k store).isFinished j) +
        w.waiting.length + w.lost.length
    omega
  · show store.depth session = 0
    by_cases htx : k = tx
    · -- The block's own scope is the outermost one.
      have hone := (h.depth_of_open hk hopen).2.2.2 htx
      omega
    · have hzero := h.ended ((hfinished tx (Ne.symm htx)).symm.trans hended)
      omega
  · by_cases htx : k = tx
    · subst htx
      cases hkended.symm.trans hunfinished
    · rw [hpublished htx]
      exact h.published ((hfinished tx (Ne.symm htx)).symm.trans hunfinished)

/-- A handle goes.  An unfinished one leaves a rollback to come. -/
theorem Sound.dropped (h : Sound tx session c w) {k : Nat} (hk : k ∈ w.held) (htx : k ≠ tx)
    {now : Traced (Mapper Cluster)} (hstate : now.state = w.now.state) {waiting lost : List Nat}
    (hwaiting : ∀ j ∈ waiting, j = k ∨ j ∈ w.waiting)
    (hcount : waiting.length + lost.length =
      w.waiting.length + w.lost.length + if w.unfinished k then 1 else 0) :
    Sound tx session c
      { w with now := now, held := w.held.erase k, waiting := waiting, lost := lost } := by
  obtain ⟨state, events⟩ := now
  obtain rfl : state = w.now.state := hstate
  have hbefore := h.depth
  have herase := countP_erase_of_mem hk w.unfinished
  refine ⟨h.nodup.erase k, (List.mem_erase_of_ne htx.symm).2 h.own, fun j hj => ?_, ?_, h.ended,
    h.published, h.passes⟩
  · rcases hj with hj | hj
    · exact h.scopes j (.inl (List.mem_of_mem_erase hj))
    · rcases hwaiting j hj with rfl | hj
      · exact h.scopes j (.inl hk)
      · exact h.scopes j (.inr hj)
  · show w.now.state.store.depth session =
      (w.held.erase k).countP w.unfinished + waiting.length + lost.length
    omega

theorem Sound.letGo (h : Sound tx session c w) (runtime : Bool) (k : Nat) :
    Sound tx session c (w.letGo tx runtime k) := by
  unfold Running.letGo
  split
  · rename_i hheld
    obtain ⟨hk, htx⟩ := hheld
    obtain ⟨sc, hsc, -⟩ := h.scopes k (.inl hk)
    obtain ⟨now, hgone, hstate⟩ := Mapper.letGo_scope hsc runtime
    have hunfinished : w.unfinished k = !sc.finished := congrArg not (Mapper.isFinished_of_scope hsc)
    rw [hgone]
    cases hfinished : sc.finished with
    | true =>
      refine h.dropped hk htx hstate (fun j hj => .inr hj) ?_
      rw [hunfinished, hfinished]
      rfl
    | false =>
      rw [hfinished] at hunfinished
      cases runtime with
      | true =>
        refine h.dropped hk htx hstate (fun j hj => List.mem_cons.1 hj) ?_
        simp [hunfinished]
        omega
      | false =>
        refine h.dropped hk htx hstate (fun j hj => .inr hj) ?_
        simp [hunfinished]
        omega
  · exact h

/-! ## Moves keep it -/

theorem Sound.work (h : Sound tx session c w) {k : Nat} (hk : k ∈ w.held) (job : Work) :
    Sound tx session c { w with now := job.after Memory.backend k w.now } := by
  obtain ⟨sc, hsc, rfl, hdepth, -⟩ := h.scopes k (.inl hk)
  exact h.of_inside (job.inside hsc hdepth)

theorem Sound.begin (h : Sound tx session c w) {k : Nat} (hk : k ∈ w.held) :
    Sound tx session c (match Mapper.begin Memory.backend (.scope k) w.now with
      | (.ok new, now) => { w with now := now, held := new :: w.held }
      | (.error _, now) => { w with now := now }) := by
  rcases Mapper.begin_scope k w.now with ⟨e, now, hrun, hstate⟩ | ⟨sc, now, hopen, hrun, hstate⟩
  · rw [hrun]
    exact h.of_state hstate
  · obtain ⟨rfl, hpos, -⟩ := h.depth_of_open hk hopen
    obtain ⟨hothers, hdepth⟩ := Cluster.begin_own hpos
    rw [hrun]
    refine h.opened hpos ?_ ?_ ?_
    · rw [hstate]
      exact hdepth
    · rw [hstate]
    · rw [hstate]
      exact hothers

theorem Sound.commit (h : Sound tx session c w) {k : Nat} (hk : k ∈ w.held) :
    Sound tx session c (match Mapper.commit Memory.backend k w.now with
      | (.ok (), now) =>
        { w with now := now, published := if k = tx then some (w.log tx) else w.published }
      | (.error _, now) => { w with now := now }) := by
  rcases Mapper.commit_scope k w.now with ⟨-, e, now, hrun, hstate⟩ | ⟨sc, hopen, hok, hstate⟩
  · rw [hrun]
    exact h.of_state hstate
  · obtain ⟨rfl, hpos, hone⟩ := h.depth_of_open hk hopen
    rcases hrun : Mapper.commit Memory.backend k w.now with ⟨outcome, state, events⟩
    rw [hrun] at hok hstate
    obtain rfl : state = w.now.state.ending k (w.now.state.store.commit sc.session).2 := hstate
    by_cases htx : k = tx
    · -- The outermost commit publishes the writes, or conflicts.
      subst htx
      have hunpublished : w.published = none := h.published hopen.isFinished
      have hlog : w.log k = w.now.state.store.log sc.session := by
        rw [log, h.session_eq]
      rcases Cluster.commit_outer (hone.2 rfl) with
        ⟨store, c', hcommit, happly, hothers, hended⟩ | ⟨e, c', hcommit, hothers, hended⟩
      · rw [hcommit] at hok ⊢
        cases outcome with
        | error e => cases hok
        | ok a =>
          have hpasses := h.passes
          rw [hunpublished] at hpasses
          dsimp only
          rw [if_pos rfl, hlog]
          refine h.closed hk hopen ?_ (fun hne => absurd rfl hne) ?_
          · rw [hended, hone.2 rfl]
          · rw [hothers]
            exact .merge hpasses happly
      · rw [hcommit] at hok ⊢
        cases outcome with
        | ok a => cases hok
        | error e =>
          refine h.closed hk hopen ?_ (fun _ => rfl) ?_
          · rw [hended, hone.2 rfl]
          · rw [hothers]
            exact h.passes
    · -- Any other one leaves them to the scope around it.
      have hinner : 1 < w.now.state.store.depth sc.session :=
        Nat.lt_of_le_of_ne hpos fun heq => htx (hone.1 heq.symm)
      obtain ⟨c', hcommit, hothers, hdepth⟩ := Cluster.commit_inner hinner
      rw [hcommit] at hok ⊢
      cases outcome with
      | error e => cases hok
      | ok a =>
        dsimp only
        rw [if_neg htx]
        exact h.closed hk hopen hdepth (fun _ => rfl) (hothers ▸ h.passes)

theorem Sound.rollback (h : Sound tx session c w) {k : Nat} (hk : k ∈ w.held) :
    Sound tx session c { w with now := (Mapper.rollback Memory.backend k w.now).2 } := by
  rcases Mapper.rollback_scope k w.now with ⟨-, e, now, hrun, hstate⟩ | ⟨sc, hopen, hstate⟩
  · rw [hrun]
    exact h.of_state hstate
  · obtain ⟨rfl, hpos, -⟩ := h.depth_of_open hk hopen
    obtain ⟨store, hrolled, hothers, hdepth⟩ := Cluster.rollback_own hpos
    rcases hrun : (Mapper.rollback Memory.backend k w.now).2 with ⟨state, events⟩
    rw [hrun] at hstate
    obtain rfl : state = w.now.state.ending k (w.now.state.store.rollback sc.session).2 := hstate
    rw [hrolled]
    exact h.closed hk hopen hdepth (fun _ => rfl) (hothers ▸ h.passes)

theorem Sound.turn (h : Sound tx session c w) (t : Turn) : Sound tx session c (t.play tx w) := by
  cases t with
  | background k =>
    unfold Turn.play
    dsimp only
    split
    · rename_i hk
      obtain ⟨sc, hsc, rfl, -⟩ := h.scopes k (.inr hk)
      have hlength := List.length_erase_of_mem hk
      have hpos := List.length_pos_of_mem hk
      have hbefore := h.depth
      obtain ⟨store, hrolled, hothers, hdepth⟩ :=
        Cluster.rollback_own (show 0 < w.now.state.store.depth sc.session by omega)
      obtain ⟨now, hrun, hstate⟩ := Mapper.background_scope hsc
      rw [hrolled] at hstate
      rw [hrun]
      refine h.aside ?_ List.erase_sublist ?_ ?_
      · rw [hstate]
      · rw [hstate]
        dsimp only
        omega
      · rw [hstate]
        exact hothers ▸ h.passes
    · exact h
  | elsewhere r =>
    unfold Turn.play
    dsimp only
    split
    · exact h
    · rename_i hother
      rw [h.session_eq] at hother
      let before : Traced Cluster := ⟨w.now.state.store, w.now.events⟩
      have hsession := Cluster.carryOut_session_of_ne hother before
      refine h.aside rfl (.refl _) ?_ (.other (t := before) h.passes hother)
      exact congrArg (fun s => Memory.Session.depth s + w.waiting.length) hsession

/-- A move with a handle that is gone does nothing. -/
theorem Sound.if_held (h : Sound tx session c w) {k : Nat} {moved : Running}
    (hmoved : k ∈ w.held → Sound tx session c moved) :
    Sound tx session c (if k ∈ w.held then moved else w) := by
  split
  · exact hmoved ‹_›
  · exact h

theorem Sound.move (h : Sound tx session c w) (m : Move) : Sound tx session c (m.play tx w) := by
  cases m with
  | work k job => exact h.if_held fun hk => h.work hk job
  | begin k => exact h.if_held h.begin
  | commit k => exact h.if_held h.commit
  | rollback k => exact h.if_held h.rollback
  | letGo k runtime => exact h.letGo runtime k
  | turn t => exact h.turn t

/-! ## Whole blocks -/

theorem Sound.moves (h : Sound tx session c w) (moves : List Move) :
    Sound tx session c (moves.foldl (Move.play tx) w) := by
  induction moves generalizing w with
  | nil => exact h
  | cons m rest ih => exact ih (h.move m)

theorem held_turn (tx : Nat) (w : Running) (t : Turn) : (t.play tx w).held = w.held := by
  cases t <;> unfold Turn.play <;> dsimp only <;> split <;> rfl

theorem Sound.turns (h : Sound tx session c w) (turns : List Turn) :
    Sound tx session c (turns.foldl (Turn.play tx) w) ∧
      (turns.foldl (Turn.play tx) w).held = w.held := by
  induction turns generalizing w with
  | nil => exact ⟨h, rfl⟩
  | cons t rest ih =>
    obtain ⟨hsound, hheld⟩ := ih (h.turn t)
    exact ⟨hsound, hheld.trans (held_turn tx w t)⟩

theorem held_letGo (tx : Nat) (runtime : Bool) (w : Running) (k : Nat) :
    (w.letGo tx runtime k).held = if k = tx then w.held else w.held.erase k := by
  unfold Running.letGo
  by_cases htx : k = tx
  · simp [htx]
  · by_cases hk : k ∈ w.held
    · rw [if_pos ⟨hk, htx⟩, if_neg htx]
      split
      · split <;> rfl
      · rfl
    · rw [if_neg fun h => hk h.1, if_neg htx, List.erase_of_not_mem hk]

/-- Letting go of all handles keeps the invariant, and only the block's own is left. -/
theorem Sound.letGo_all (h : Sound tx session c w) (runtime : Bool) {ks : List Nat}
    (hks : ∀ k ∈ w.held, k = tx ∨ k ∈ ks) :
    Sound tx session c (ks.foldl (Running.letGo tx runtime) w) ∧
      (ks.foldl (Running.letGo tx runtime) w).held = [tx] := by
  -- At every point the handles that are held are the block's own and some of those to go.
  induction ks generalizing w with
  | nil =>
    refine ⟨h, ?_⟩
    have hown := h.own
    have hnodup := h.nodup
    have hall : ∀ k ∈ w.held, k = tx := fun k hk => (hks k hk).resolve_right List.not_mem_nil
    show w.held = [tx]
    rcases hheld : w.held with _ | ⟨a, _ | ⟨b, rest⟩⟩
    · rw [hheld] at hown
      cases hown
    · rw [hall a (by simp [hheld])]
    · rw [hheld, hall a (by simp [hheld]), hall b (by simp [hheld])] at hnodup
      simp at hnodup
  | cons k rest ih =>
    refine ih (h.letGo runtime k) fun j hj => ?_
    rw [held_letGo] at hj
    split at hj
    · rename_i htx
      rcases hks j hj with rfl | hj
      · exact .inl rfl
      · exact (List.mem_cons.1 hj).imp (·.trans htx) id
    · obtain ⟨hne, hj⟩ := h.nodup.mem_erase_iff.1 hj
      exact (hks j hj).imp id fun hj => (List.mem_cons.1 hj).resolve_left hne

end Running

/-- At the end of its body a block has lost all handles but its own. -/
theorem Block.sound {α : Type} (b : Block α) {tx session : Nat} {t : Traced (Mapper Cluster)}
    (hscope : t.state.scope? tx = some ⟨session, 1, false⟩)
    (hdepth : t.state.store.depth session = 1) :
    Running.Sound tx session (t.state.store.without session) (b.finish tx t) ∧
      (b.finish tx t).held = [tx] := by
  have hfinished : t.state.isFinished tx = false := Mapper.isFinished_of_scope hscope
  have hstart : Running.Sound tx session (t.state.store.without session) (.start tx t) := by
    refine ⟨by simp [Running.start], List.mem_singleton_self tx, fun k hk => ?_, ?_,
      fun hended => ?_, fun _ => rfl, .start⟩
    · rcases hk with hk | hk
      · cases List.mem_singleton.1 hk
        exact ⟨_, hscope, rfl, Nat.one_pos, iff_of_true rfl rfl⟩
      · cases hk
    · show t.state.store.depth session = [tx].countP (fun k => !t.state.isFinished k) + 0 + 0
      simp [hdepth, hfinished]
    · cases hfinished.symm.trans hended
  obtain ⟨hleft, hheld⟩ := (hstart.moves b.moves).letGo_all b.runtime fun k hk => .inr hk
  obtain ⟨hlate, hkept⟩ := hleft.turns b.late
  exact ⟨hlate, hkept.trans hheld⟩

end ModelMapper
