import ModelMapper.Proofs.Mapper.Handles
import ModelMapper.Proofs.Memory.Levels

/-! # Tasks that share a transaction

Any number of tasks work with the handles of one transaction at the same time.  An operation
passes the gate of its scope in one step and makes each of its calls in a later one, so others
come between, also a commit or rollback of the scope.

A call that comes when its scope is not the innermost open one any more goes astray.  As long as
none does, the calls that succeed take effect in their own scopes.

* `Tasks`, `Tasks.play` — operations on their way, and one step of one of them.
* `Tasks.Sound` — what holds while no call goes astray, and `Tasks.Sound.play`, which keeps it.
* `Tasks.Sound.steps` — any interleaving.
-/

namespace ModelMapper

open Memory (Cluster Change Write Recorded LevelsIn Works)
open Mapper (Open)

/-! ## Steps of tasks -/

/-- An operation that has passed the gate of its scope, with the calls it has still to make. -/
structure Underway where
  scope : Nat
  calls : List Action

/-- An open scope with the writes of its own and of the scopes committed into it. -/
structure OpenLevel where
  scope : Nat
  writes : List Write

structure Tasks where
  now : Traced (Mapper Cluster)
  /-- The scopes that there are handles of. -/
  held : List Nat
  underway : List Underway
  /-- The scopes that are open in the session, the innermost one first. -/
  levels : List OpenLevel
  /-- The writes that the commit of the transaction has published. -/
  published : Option (List Write)
  /-- The scopes that have been rolled back. -/
  undone : List Nat
  /-- What other sessions have asked for meanwhile. -/
  others : List Request
  /-- The calls that came when their scope was not the innermost open one. -/
  astray : List (Nat × Action)

namespace Tasks

inductive Step where
  /-- A task enters an operation with a handle, or with one clone of it. -/
  | enter (k : Nat) (op : Operation)
  /-- An operation on its way makes its next call. -/
  | call (i : Nat)
  | elsewhere (r : Request)

def start (tx : Nat) (t : Traced (Mapper Cluster)) : Tasks :=
  ⟨t, [tx], [], [⟨tx, []⟩], none, [], [], []⟩

def innermost (w : Tasks) : Option Nat := w.levels.head?.map OpenLevel.scope

/-- What a call has done to the open scopes. -/
def book (w : Tasks) (tx k : Nat) (a : Action) (outcome : Except Failure (Option Nat)) : Tasks :=
  match a, outcome, w.levels with
  | .begin, .ok (some new), levels =>
    { w with held := new :: w.held, levels := ⟨new, []⟩ :: levels }
  | .commit, _, [level] =>
    { w with
      levels := []
      published := if k = tx ∧ outcome.isOk then some level.writes else w.published }
  | .commit, _, level :: around :: outer =>
    { w with levels := { around with writes := around.writes ++ level.writes } :: outer }
  | .rollback, _, _ :: outer => { w with levels := outer, undone := k :: w.undone }
  | a, outcome, level :: outer =>
    if a.writes && outcome.isOk then
      { w with levels := { level with writes := level.writes ++ [(k, a)] } :: outer }
    else w
  | _, _, [] => w

/-- The next call of an operation.  One that fails is its last. -/
def next (w : Tasks) (tx session i k : Nat) (a : Action) (rest : List Action) : Tasks :=
  match Mapper.call Memory.backend session a w.now with
  | (outcome, now) =>
    let called := { w with
      now := now
      underway := w.underway.set i ⟨k, if outcome.isOk then rest else []⟩ }
    if w.innermost = some k then called.book tx k a outcome
    else { called with astray := (k, a) :: w.astray }

def play (tx session : Nat) (w : Tasks) : Step → Tasks
  | .enter k op =>
    if k ∈ w.held then
      match op.gate Memory.backend k w.now with
      | (.ok _, now) => { w with now := now, underway := w.underway ++ [⟨k, op.calls⟩] }
      | (.error _, now) => { w with now := now }
    else w
  | .call i =>
    match w.underway[i]? with
    | some ⟨k, a :: rest⟩ => w.next tx session i k a rest
    | _ => w
  | .elsewhere r =>
    if r.session = session then w
    else
      { w with
        now := (Mapper.onStore (r.carryOut Memory.backend) w.now).2
        others := w.others ++ [r] }

/-! ## The invariant -/

/-- What a call can be, given whether its scope is marked. -/
def Due (finished : Bool) (a : Action) : Prop :=
  Works a ∨ a = .begin ∨ (a = .commit ∨ a = .rollback) ∧ finished = true

/-- Writes are attributed to their scopes: those of an open scope are in its level, and none is
    left of a scope that was rolled back. -/
structure Attributed (held : List Nat) (levels : List OpenLevel) (published : Option (List Write))
    (undone : List Nat) : Prop where
  nodup : (levels.map OpenLevel.scope).Nodup
  known : ∀ level ∈ levels, level.scope ∈ held ∧ ∀ x ∈ level.writes, x.1 ∈ held
  own : ∀ level ∈ levels, ∀ x ∈ level.writes,
    x.1 = level.scope ∨ x.1 ∉ levels.map OpenLevel.scope
  closed : ∀ k ∈ undone, k ∈ held ∧ k ∉ levels.map OpenLevel.scope
  kept : ∀ level ∈ levels, ∀ x ∈ level.writes, x.1 ∉ undone
  published : ∀ writes, published = some writes → ∀ x ∈ writes, x.1 ∉ undone

/-- While no call goes astray: the open scopes are nested, their writes are in the log of the
    session, and nobody else has seen anything of it but what its own commit has published. -/
structure Sound (tx session : Nat) (c : Cluster) (w : Tasks) : Prop where
  scopes : ∀ k ∈ w.held, ∃ sc, w.now.state.scope? k = some sc ∧ sc.session = session
  unended : ∀ k ∈ w.held, w.now.state.isFinished k = false → k ∈ w.levels.map OpenLevel.scope
  underway : ∀ u ∈ w.underway, u.scope ∈ w.held ∧
    ∀ a ∈ u.calls, Due (w.now.state.isFinished u.scope) a
  nested : Nested w.now.state session (w.levels.map OpenLevel.scope)
  levels : LevelsIn (w.levels.map OpenLevel.writes) (w.now.state.store.session session)
  outermost : ∀ k, (w.levels.map OpenLevel.scope).getLast? = some k → k = tx
  unpublished : w.levels ≠ [] → w.published = none
  forgotten : tx ∈ w.undone → w.published = none
  attributed : Attributed w.held w.levels w.published w.undone
  passes : ∃ log, Option.Rel Recorded w.published log ∧
    Cluster.Passes session c w.others log (w.now.state.store.without session)

/-! ## Where writes belong -/

namespace Attributed

variable {held undone : List Nat} {level around : OpenLevel} {outer levels : List OpenLevel}
  {published : Option (List Write)}

theorem write (h : Attributed held (level :: outer) published undone) (a : Action) :
    Attributed held ({ level with writes := level.writes ++ [(level.scope, a)] } :: outer)
      published undone where
  nodup := h.nodup
  known := by
    obtain ⟨⟨hlevel, hwrites⟩, houter⟩ := List.forall_mem_cons.1 h.known
    refine List.forall_mem_cons.2 ⟨⟨hlevel, fun x hx => ?_⟩, houter⟩
    rcases List.mem_append.1 hx with hx | hx
    · exact hwrites x hx
    · exact List.mem_singleton.1 hx ▸ hlevel
  own := by
    obtain ⟨hlevel, houter⟩ := List.forall_mem_cons.1 h.own
    refine List.forall_mem_cons.2 ⟨fun x hx => ?_, houter⟩
    rcases List.mem_append.1 hx with hx | hx
    · exact hlevel x hx
    · exact .inl (congrArg Prod.fst (List.mem_singleton.1 hx))
  closed := h.closed
  kept := by
    obtain ⟨hlevel, houter⟩ := List.forall_mem_cons.1 h.kept
    refine List.forall_mem_cons.2 ⟨fun x hx => ?_, houter⟩
    rcases List.mem_append.1 hx with hx | hx
    · exact hlevel x hx
    · cases List.mem_singleton.1 hx
      exact fun hundone => (h.closed _ hundone).2 List.mem_cons_self
  published := h.published

theorem opened (h : Attributed held levels published undone) {new : Nat} (hnew : new ∉ held) :
    Attributed (new :: held) (⟨new, []⟩ :: levels) published undone where
  nodup := by
    refine List.nodup_cons.2 ⟨fun hmem => ?_, h.nodup⟩
    obtain ⟨level, hlevel, rfl : level.scope = new⟩ := List.mem_map.1 hmem
    exact hnew (h.known level hlevel).1
  known := List.forall_mem_cons.2 ⟨⟨List.mem_cons_self, nofun⟩, fun level hlevel =>
    ⟨List.mem_cons_of_mem _ (h.known level hlevel).1,
      fun x hx => List.mem_cons_of_mem _ ((h.known level hlevel).2 x hx)⟩⟩
  own := List.forall_mem_cons.2 ⟨nofun, fun level hlevel x hx =>
    (h.own level hlevel x hx).imp id fun hout hmem => (List.mem_cons.1 hmem).elim
      (fun heq : x.1 = new => hnew (heq ▸ (h.known level hlevel).2 x hx)) hout⟩
  closed k hk := by
    obtain ⟨hheld, hout⟩ := h.closed k hk
    exact ⟨List.mem_cons_of_mem _ hheld, fun hmem => (List.mem_cons.1 hmem).elim
      (fun heq : k = new => hnew (heq ▸ hheld)) hout⟩
  kept := List.forall_mem_cons.2 ⟨nofun, h.kept⟩
  published := h.published

/-- The innermost level is gone, one way or another. -/
theorem not_mem_outer (h : Attributed held (level :: outer) published undone) {x : Write}
    (hx : x ∈ level.writes) : x.1 ∉ outer.map OpenLevel.scope := by
  rcases (List.forall_mem_cons.1 h.own).1 x hx with heq | hout
  · exact heq ▸ (List.nodup_cons.1 h.nodup).1
  · exact fun hmem => hout (List.mem_cons_of_mem _ hmem)

theorem merged (h : Attributed held (level :: around :: outer) published undone) :
    Attributed held ({ around with writes := around.writes ++ level.writes } :: outer) published
      undone := by
  obtain ⟨hlevelKnown, haroundKnown, houterKnown⟩ :=
    (List.forall_mem_cons.1 h.known).imp id List.forall_mem_cons.1
  obtain ⟨hlevelKept, haroundKept, houterKept⟩ :=
    (List.forall_mem_cons.1 h.kept).imp id List.forall_mem_cons.1
  obtain ⟨-, haroundOwn, houterOwn⟩ :=
    (List.forall_mem_cons.1 h.own).imp id List.forall_mem_cons.1
  have hpop {k : Nat} (hout : k ∉ (level :: around :: outer).map OpenLevel.scope) :
      k ∉ (around :: outer).map OpenLevel.scope := fun hmem => hout (List.mem_cons_of_mem _ hmem)
  refine ⟨(List.nodup_cons.1 h.nodup).2, List.forall_mem_cons.2 ⟨⟨haroundKnown.1, ?_⟩, houterKnown⟩,
    List.forall_mem_cons.2 ⟨?_, fun l hl x hx => (houterOwn l hl x hx).imp id hpop⟩,
    fun k hk => ⟨(h.closed k hk).1, hpop (h.closed k hk).2⟩,
    List.forall_mem_cons.2 ⟨?_, houterKept⟩, h.published⟩
  · exact fun x hx => (List.mem_append.1 hx).elim (haroundKnown.2 x) (hlevelKnown.2 x)
  · exact fun x hx => (List.mem_append.1 hx).elim (fun hx => (haroundOwn x hx).imp id hpop)
      fun hx => .inr (h.not_mem_outer hx)
  · exact fun x hx => (List.mem_append.1 hx).elim (haroundKept x) (hlevelKept x)

theorem publish (h : Attributed held [level] published undone) :
    Attributed held [] (some level.writes) undone where
  nodup := List.nodup_nil
  known := nofun
  own := nofun
  closed k hk := ⟨(h.closed k hk).1, nofun⟩
  kept := nofun
  published := by
    rintro _ ⟨⟩
    exact h.kept level List.mem_cons_self

theorem dropped (h : Attributed held [level] published undone) :
    Attributed held [] published undone where
  nodup := List.nodup_nil
  known := nofun
  own := nofun
  closed k hk := ⟨(h.closed k hk).1, nofun⟩
  kept := nofun
  published := h.published

theorem rolledBack (h : Attributed held (level :: outer) none undone) :
    Attributed held outer none (level.scope :: undone) := by
  obtain ⟨hlevelKnown, houterKnown⟩ := List.forall_mem_cons.1 h.known
  obtain ⟨-, houterOwn⟩ := List.forall_mem_cons.1 h.own
  obtain ⟨-, houterKept⟩ := List.forall_mem_cons.1 h.kept
  obtain ⟨hout, hnodup⟩ := List.nodup_cons.1 h.nodup
  refine ⟨hnodup, houterKnown, fun l hl x hx => (houterOwn l hl x hx).imp id fun hx hmem =>
      hx (List.mem_cons_of_mem _ hmem),
    List.forall_mem_cons.2 ⟨⟨hlevelKnown.1, hout⟩, fun k hk => ⟨(h.closed k hk).1, fun hmem =>
      (h.closed k hk).2 (List.mem_cons_of_mem _ hmem)⟩⟩,
    fun l hl x hx hmem => ?_, nofun⟩
  rcases List.mem_cons.1 hmem with heq | hmem
  · -- A write of another level was not made with this scope.
    rcases houterOwn l hl x hx with hown | hother
    · exact hout (heq.symm.trans hown ▸ List.mem_map_of_mem hl)
    · exact hother (heq ▸ List.mem_cons_self)
  · exact houterKept l hl x hx hmem

end Attributed

/-! ## Gates and calls -/

/-- The gate refuses, or lets through and marks the scope if the operation ends it. -/
theorem gate_cases (op : Operation) (k : Nat) (t : Traced (Mapper Cluster)) :
    (∃ e, op.gate Memory.backend k t = (.error e, t)) ∨
      ∃ sc now, Open Memory.backend t.state k sc ∧ op.gate Memory.backend k t = (.ok sc, now) ∧
        now.state = if op.ends then t.state.ending k t.state.store else t.state := by
  rcases Mapper.checkOpen_cases Memory.backend k t with
    ⟨sc, hopen, hcheck⟩ | ⟨-, e, -, hrefused⟩
  · refine .inr ⟨sc, ⟨if op.ends then t.state.ending k t.state.store else t.state, t.events⟩, hopen,
      ?_, rfl⟩
    unfold Operation.gate
    split
    · rw [Mapper.finish, Call.run_bind, hcheck]
      rfl
    · exact hcheck
  · refine .inl ⟨.error e, ?_⟩
    unfold Operation.gate
    split
    · exact Mapper.finish_refused hrefused
    · exact hrefused

/-- An operation makes the calls it is due to make. -/
theorem calls_due (op : Operation) : ∀ a ∈ op.calls, Due op.ends a := by
  cases op with
  | work w gated => exact fun a ha => .inl (w.calls_work a ha)
  | begin => exact List.forall_mem_singleton.2 (.inr (.inl rfl))
  | commit => exact List.forall_mem_singleton.2 (.inr (.inr ⟨.inl rfl, rfl⟩))
  | rollback => exact List.forall_mem_singleton.2 (.inr (.inr ⟨.inr rfl, rfl⟩))

/-- A call that opens no scope is that of the backend. -/
theorem call_of_ne {a : Action} (ha : a ≠ .begin) (session : Nat) (t : Traced (Mapper Cluster)) :
    let run := a.perform Memory.backend session ⟨t.state.store, t.events⟩
    Mapper.call Memory.backend session a t =
      (run.1.map fun _ => none, ⟨{ t.state with store := run.2.state }, run.2.events⟩) :=
  Covers.run_call (f := id) (bind_pure _).symm ha t

theorem call_begin (session : Nat) (t : Traced (Mapper Cluster)) :
    ∃ now, Mapper.call Memory.backend session .begin t = (.ok (some t.state.scopes.length), now) ∧
      now.state = { t.state with
        store := t.state.store.begin session
        scopes := t.state.scopes ++
          [⟨session, (t.state.store.begin session).depth session, false⟩] } :=
  ⟨_, rfl, rfl⟩

/-! ## Steps keep it -/

section

variable {tx session : Nat} {c : Cluster} {w : Tasks}

theorem exists_of_innermost {k : Nat} (hinner : w.innermost = some k) :
    ∃ level outer, w.levels = level :: outer ∧ level.scope = k := by
  cases hlevels : w.levels with
  | nil =>
    rw [innermost, hlevels] at hinner
    cases hinner
  | cons level outer =>
    rw [innermost, hlevels] at hinner
    exact ⟨level, outer, rfl, Option.some.inj hinner⟩

theorem Sound.depth (h : Sound tx session c w) :
    w.now.state.store.depth session = w.levels.length := by
  rw [Cluster.depth, h.levels.depth, List.length_map]

/-- What the gate lets through is the innermost open scope, so a call goes astray only if another
    one comes between. -/
theorem Sound.innermost_of_open (h : Sound tx session c w) {k : Nat} (hk : k ∈ w.held) {sc : Scope}
    (hopen : Open Memory.backend w.now.state k sc) : w.innermost = some k := by
  obtain ⟨sc', hsc, rfl⟩ := h.scopes k hk
  cases hsc.symm.trans hopen.scope
  have hdepth : (w.levels.map OpenLevel.scope).length = sc.depth := by
    rw [List.length_map, ← h.depth]
    exact hopen.innermost
  have hhead := h.nested.head_of_depth (h.unended k hk hopen.isFinished) hopen.scope hdepth
  rwa [List.head?_map] at hhead

/-! ### Gates -/

theorem Sound.of_state (h : Sound tx session c w) {now : Traced (Mapper Cluster)}
    (hstate : now.state = w.now.state) : Sound tx session c { w with now := now } := by
  obtain ⟨state, events⟩ := now
  obtain rfl : state = w.now.state := hstate
  exact ⟨h.scopes, h.unended, h.underway, h.nested, h.levels, h.outermost, h.unpublished,
    h.forgotten, h.attributed, h.passes⟩

theorem Due.mono {finished finished' : Bool} {a : Action} (h : Due finished a)
    (hmono : finished = true → finished' = true) : Due finished' a :=
  h.imp id (Or.imp id (And.imp id hmono))

/-- A scope is marked.  It stays open until its commit or rollback is called. -/
theorem Sound.marked (h : Sound tx session c w) (k : Nat) {now : Traced (Mapper Cluster)}
    (hstate : now.state = w.now.state.ending k w.now.state.store) :
    Sound tx session c { w with now := now } := by
  have hfinished : ∀ j, w.now.state.isFinished j = true → now.state.isFinished j = true := by
    intro j hj
    rw [hstate]
    exact Mapper.isFinished_ending_of_finished hj k _
  have hstore : now.state.store = w.now.state.store := by
    rw [hstate]
    rfl
  refine ⟨fun j hj => ?_, fun j hj hunfinished => ?_, fun u hu => ?_,
    h.nested.congr fun j _ => ?_, ?_, h.outermost, h.unpublished, h.forgotten, h.attributed, ?_⟩
  · show ∃ sc, now.state.scope? j = some sc ∧ _
    rw [hstate]
    exact Mapper.exists_scope_ending (fun s _ => s = session) (h.scopes j hj) k _
  · refine h.unended j hj (Bool.eq_false_iff.2 fun hended => ?_)
    cases hunfinished.symm.trans (hfinished j hended)
  · obtain ⟨hheld, hdue⟩ := h.underway u hu
    exact ⟨hheld, fun a ha => (hdue a ha).mono (hfinished u.scope)⟩
  · rw [hstate, Mapper.level?_ending]
  · show LevelsIn _ (now.state.store.session session)
    rw [hstore]
    exact h.levels
  · show ∃ log, _ ∧ Cluster.Passes _ _ _ _ (now.state.store.without session)
    rw [hstore]
    exact h.passes

theorem Sound.with_underway (h : Sound tx session c w) {underway : List Underway}
    (hnew : ∀ u ∈ underway, u ∈ w.underway ∨ u.scope ∈ w.held ∧
      ∀ a ∈ u.calls, Due (w.now.state.isFinished u.scope) a) :
    Sound tx session c { w with underway := underway } :=
  { h with underway := fun u hu => (hnew u hu).elim (h.underway u) id }

theorem Sound.enter (h : Sound tx session c w) {k : Nat} (hk : k ∈ w.held) (op : Operation) :
    Sound tx session c (match op.gate Memory.backend k w.now with
      | (.ok _, now) => { w with now := now, underway := w.underway ++ [⟨k, op.calls⟩] }
      | (.error _, now) => { w with now := now }) := by
  rcases gate_cases op k w.now with ⟨e, hrefused⟩ | ⟨sc, now, hopen, hpassed, hstate⟩
  · rw [hrefused]
    exact h
  · rw [hpassed]
    cases hends : op.ends with
    | false =>
      rw [hends] at hstate
      refine (h.of_state hstate).with_underway fun u hu => ?_
      rcases List.mem_append.1 hu with hu | hu
      · exact .inl hu
      · cases List.mem_singleton.1 hu
        refine .inr ⟨hk, fun a ha => (calls_due op a ha).mono fun hended => ?_⟩
        cases hends.symm.trans hended
    | true =>
      rw [hends] at hstate
      refine (h.marked k hstate).with_underway fun u hu => ?_
      rcases List.mem_append.1 hu with hu | hu
      · exact .inl hu
      · cases List.mem_singleton.1 hu
        have hended : now.state.isFinished k = true := by
          rw [hstate]
          exact Mapper.isFinished_ending hopen.scope _
        exact .inr ⟨hk, fun a ha => (calls_due op a ha).mono fun _ => hended⟩

/-! ### Calls -/

variable {k : Nat} {level : OpenLevel} {outer : List OpenLevel}

theorem book_work {a : Action} (ha : Works a) (outcome : Except Failure (Option Nat))
    (hlevels : w.levels = level :: outer) :
    w.book tx k a outcome = { w with
      levels := { level with
        writes := if a.writes && outcome.isOk then level.writes ++ [(k, a)] else level.writes } ::
          outer } := by
  have hbook : w.book tx k a outcome = if a.writes && outcome.isOk then
      { w with levels := { level with writes := level.writes ++ [(k, a)] } :: outer } else w := by
    unfold book
    rw [hlevels]
    cases a <;> first | rfl | exact ha.elim
  rw [hbook]
  split
  · rfl
  · rw [← hlevels]

variable {outcome : Except Failure (Option Nat)} {now : Traced (Mapper Cluster)}

/-- What a call that opens no scope has done. -/
theorem call_eq {a : Action} (ha : a ≠ .begin)
    (hcall : Mapper.call Memory.backend session a w.now = (outcome, now)) :
    let run := a.perform Memory.backend session ⟨w.now.state.store, w.now.events⟩
    outcome = run.1.map (fun _ => none) ∧
      now.state = { w.now.state with store := run.2.state } := by
  rw [call_of_ne ha] at hcall
  cases hcall
  exact ⟨rfl, rfl⟩

/-- A call that opens no scope has changed the store and the open scopes. -/
theorem Sound.changed (h : Sound tx session c w) {store : Cluster}
    (hstate : now.state = { w.now.state with store := store }) {levels : List OpenLevel}
    {published : Option (List Write)} {undone : List Nat}
    (hunended : ∀ k ∈ w.held, w.now.state.isFinished k = false → k ∈ levels.map OpenLevel.scope)
    (hnested : Nested w.now.state session (levels.map OpenLevel.scope))
    (hlevels : LevelsIn (levels.map OpenLevel.writes) (store.session session))
    (houtermost : ∀ k, (levels.map OpenLevel.scope).getLast? = some k → k = tx)
    (hunpublished : levels ≠ [] → published = none)
    (hforgotten : tx ∈ undone → published = none)
    (hattributed : Attributed w.held levels published undone)
    (hpasses : ∃ log, Option.Rel Recorded published log ∧
      Cluster.Passes session c w.others log (store.without session)) :
    Sound tx session c
      { w with now := now, levels := levels, published := published, undone := undone } := by
  obtain ⟨state, events⟩ := now
  obtain rfl := hstate
  exact ⟨h.scopes, hunended, h.underway, hnested.congr fun _ _ => rfl, hlevels, houtermost,
    hunpublished, hforgotten, hattributed, hpasses⟩

/-- Reading and writing: what succeeds is noted in the level of its scope. -/
theorem Sound.call_work (h : Sound tx session c w) (hlevels : w.levels = level :: outer)
    {a : Action} (ha : Works a)
    (hcall : Mapper.call Memory.backend session a w.now = (outcome, now)) :
    Sound tx session c (({ w with now := now } : Tasks).book tx level.scope a outcome) := by
  have hne : a ≠ .begin := by
    rintro rfl
    exact ha
  obtain ⟨houtcome, hstate⟩ := call_eq hne hcall
  have hok : outcome.isOk =
      (a.perform Memory.backend session ⟨w.now.state.store, w.now.events⟩).1.isOk := by
    rw [houtcome]
    cases (a.perform Memory.backend session ⟨w.now.state.store, w.now.events⟩).1 <;> rfl
  have hdepth : 0 < w.now.state.store.depth session := by
    rw [h.depth, hlevels]
    exact Nat.succ_pos _
  obtain ⟨hothers, -⟩ := (Cluster.perform_step session a
    ⟨w.now.state.store, w.now.events⟩).own ha hdepth
  have hsession := h.levels
  rw [hlevels, List.map_cons] at hsession
  have hafter := LevelsIn.work (s := ⟨w.now.state.store, w.now.events⟩) hsession ha level.scope
  rw [← hok] at hafter
  have hscopes : w.levels.map OpenLevel.scope = (level :: outer).map OpenLevel.scope :=
    congrArg _ hlevels
  have hattributed := h.attributed
  rw [hlevels] at hattributed
  rw [book_work (w := { w with now := now }) ha outcome hlevels]
  refine h.changed hstate (hscopes ▸ h.unended) (hscopes ▸ h.nested) hafter
    (hscopes ▸ h.outermost) (fun _ => h.unpublished (by simp [hlevels])) h.forgotten ?_ ?_
  · split
    · exact hattributed.write a
    · exact hattributed
  · rw [hothers]
    exact h.passes

/-- The scope that a begin has opened is the innermost one. -/
theorem Sound.call_begin (h : Sound tx session c w) (hlevels : w.levels = level :: outer)
    (hcall : Mapper.call Memory.backend session .begin w.now = (outcome, now)) :
    Sound tx session c (({ w with now := now } : Tasks).book tx k .begin outcome) := by
  obtain ⟨now', hcalled, hstate⟩ := Tasks.call_begin session w.now
  cases hcall.symm.trans hcalled
  have hpos : 0 < w.now.state.store.depth session := by
    rw [h.depth, hlevels]
    exact Nat.succ_pos _
  obtain ⟨hothers, hdepth⟩ := Cluster.begin_own hpos
  rw [h.depth] at hdepth
  have hlt : ∀ j ∈ w.held, j < w.now.state.scopes.length := fun j hj => by
    obtain ⟨sc, hsc, -⟩ := h.scopes j hj
    exact (List.getElem?_eq_some_iff.1 hsc).1
  have hscopes : now.state.scopes =
      w.now.state.scopes ++ [⟨session, w.levels.length + 1, false⟩] := by
    rw [hstate, hdepth]
  have hold : ∀ j ∈ w.held, now.state.scope? j = w.now.state.scope? j := fun j hj =>
    Mapper.scope?_of_added hscopes (hlt j hj)
  have hnew := Mapper.scope?_added hscopes
  have hfinished : ∀ j ∈ w.held, now.state.isFinished j = w.now.state.isFinished j :=
    fun j hj => Mapper.isFinished_of_added hscopes (hlt j hj)
  have hstore : now.state.store = w.now.state.store.begin session := congrArg Mapper.store hstate
  have hbegun := h.levels
  rw [hlevels, List.map_cons] at hbegun
  replace hbegun := hbegun.begin
  rw [← List.map_cons, ← hlevels, ← hstore] at hbegun
  refine ⟨List.forall_mem_cons.2 ⟨⟨_, hnew, rfl⟩, fun j hj => ?_⟩,
    List.forall_mem_cons.2 ⟨fun _ => List.mem_cons_self, fun j hj hunfinished => ?_⟩,
    fun u hu => ?_, ⟨?_, h.nested.congr fun j hj => ?_⟩, hbegun, fun j hj => ?_,
    fun _ => h.unpublished (by simp [hlevels]), h.forgotten, h.attributed.opened fun hmem => ?_, ?_⟩
  · obtain ⟨sc, hsc, hsession⟩ := h.scopes j hj
    exact ⟨sc, (hold j hj).trans hsc, hsession⟩
  · exact List.mem_cons_of_mem _ (h.unended j hj ((hfinished j hj).symm.trans hunfinished))
  · obtain ⟨hheld, hdue⟩ := h.underway u hu
    refine ⟨List.mem_cons_of_mem _ hheld, fun a ha => ?_⟩
    exact (hfinished u.scope hheld).symm ▸ hdue a ha
  · rw [List.length_map]
    exact congrArg _ hnew
  · obtain ⟨l, hl, rfl⟩ := List.mem_map.1 hj
    exact congrArg _ (hold _ (h.attributed.known l hl).1)
  · refine h.outermost j ?_
    rw [hlevels] at hj ⊢
    exact hj
  · exact Nat.lt_irrefl _ (hlt _ hmem)
  · show ∃ log, _ ∧ Cluster.Passes _ _ _ _ (now.state.store.without session)
    rw [hstore, hothers]
    exact h.passes

/-- The innermost scope has been marked, so no unfinished one goes with its level. -/
theorem Sound.unended_outer (h : Sound tx session c w) (hlevels : w.levels = level :: outer)
    (hended : w.now.state.isFinished level.scope = true) :
    ∀ j ∈ w.held, w.now.state.isFinished j = false → j ∈ outer.map OpenLevel.scope := by
  intro j hj hunfinished
  have hmem := h.unended j hj hunfinished
  rw [hlevels] at hmem
  rcases List.mem_cons.1 hmem with heq | hmem
  · rw [heq, hended] at hunfinished
    cases hunfinished
  · exact hmem

/-- The commit of a nested scope hands its writes to the scope around it. -/
theorem Sound.call_commit_inner (h : Sound tx session c w) {around : OpenLevel}
    (hlevels : w.levels = level :: around :: outer)
    (hended : w.now.state.isFinished level.scope = true)
    (hcall : Mapper.call Memory.backend session .commit w.now = (outcome, now)) :
    Sound tx session c
      (({ w with now := now } : Tasks).book tx level.scope .commit outcome) := by
  obtain ⟨-, hstate⟩ := call_eq (a := .commit) nofun hcall
  rw [(Cluster.perform_commit _ _).2] at hstate
  have hinner : 1 < w.now.state.store.depth session := by
    rw [h.depth, hlevels]
    exact Nat.succ_lt_succ (Nat.succ_pos _)
  obtain ⟨c', hcommit, hothers, -⟩ := Cluster.commit_inner hinner
  have hmerged := h.levels
  rw [hlevels, List.map_cons, List.map_cons] at hmerged
  replace hmerged := hmerged.commit
  have hunended := h.unended_outer hlevels hended
  have hnested := h.nested
  have houtermost := h.outermost
  have hattributed := h.attributed
  rw [hcommit] at hstate hmerged
  rw [hlevels] at hnested houtermost hattributed
  have hbook : ({ w with now := now } : Tasks).book tx level.scope .commit outcome =
      { w with
        now := now
        levels := { around with writes := around.writes ++ level.writes } :: outer } := by
    unfold book
    rw [hlevels]
  rw [hbook]
  refine h.changed hstate hunended hnested.2 hmerged houtermost
    (fun _ => h.unpublished (by simp [hlevels])) h.forgotten hattributed.merged ?_
  rw [hothers]
  exact h.passes

/-- The commit of the transaction itself publishes its writes, or none of them. -/
theorem Sound.call_commit_outer (h : Sound tx session c w) (hlevels : w.levels = [level])
    (hended : w.now.state.isFinished level.scope = true)
    (hcall : Mapper.call Memory.backend session .commit w.now = (outcome, now)) :
    Sound tx session c
      (({ w with now := now } : Tasks).book tx level.scope .commit outcome) := by
  obtain ⟨houtcome, hstate⟩ := call_eq (a := .commit) nofun hcall
  obtain ⟨hperform, hstore⟩ := Cluster.perform_commit session ⟨w.now.state.store, w.now.events⟩
  rw [hperform] at houtcome
  rw [hstore] at hstate
  have hunpublished : w.published = none := h.unpublished (by simp [hlevels])
  have hone : w.now.state.store.depth session = 1 := by
    rw [h.depth, hlevels]
    rfl
  have hunended := h.unended_outer hlevels hended
  have hscope : level.scope = tx := h.outermost _ (by rw [hlevels]; rfl)
  have hrecorded := h.levels
  have hattributed := h.attributed
  rw [hlevels] at hrecorded hattributed
  have hbook : ({ w with now := now } : Tasks).book tx level.scope .commit outcome =
      { w with
        now := now
        levels := []
        published :=
          if level.scope = tx ∧ outcome.isOk then some level.writes else w.published } := by
    unfold book
    rw [hlevels]
  rw [hbook]
  obtain ⟨log, hlog, hpasses⟩ := h.passes
  rw [hunpublished] at hlog
  cases hlog
  rcases Cluster.commit_outer hone with
    ⟨store, c', hcommit, happly, hothers, hgone⟩ | ⟨e, c', hcommit, hothers, hgone⟩
  · rw [hcommit] at houtcome hstate
    rw [houtcome, if_pos ⟨hscope, rfl⟩]
    -- The transaction has not been rolled back, since its level was still there.
    refine h.changed hstate hunended trivial (.of_depth hgone) nofun (fun hne => absurd rfl hne)
      (fun hundone => absurd (hscope ▸ List.mem_cons_self) (hattributed.closed tx hundone).2)
      hattributed.publish ⟨_, .some hrecorded.recorded, ?_⟩
    rw [hothers]
    exact .merge hpasses happly
  · rw [hcommit] at houtcome hstate
    rw [houtcome, if_neg fun hand => nomatch hand.2]
    refine h.changed hstate hunended trivial (.of_depth hgone) nofun (fun hne => absurd rfl hne)
      h.forgotten hattributed.dropped ⟨none, hunpublished ▸ .none, ?_⟩
    rw [hothers]
    exact hpasses

/-- A rollback takes the innermost level away, with what was committed into it. -/
theorem Sound.call_rollback (h : Sound tx session c w) (hlevels : w.levels = level :: outer)
    (hended : w.now.state.isFinished level.scope = true)
    (hcall : Mapper.call Memory.backend session .rollback w.now = (outcome, now)) :
    Sound tx session c
      (({ w with now := now } : Tasks).book tx level.scope .rollback outcome) := by
  obtain ⟨-, hstate⟩ := call_eq (a := .rollback) nofun hcall
  rw [(Cluster.perform_rollback _ _).2] at hstate
  have hpos : 0 < w.now.state.store.depth session := by
    rw [h.depth, hlevels]
    exact Nat.succ_pos _
  obtain ⟨c', hrolled, hothers, -⟩ := Cluster.rollback_own hpos
  have hunpublished : w.published = none := h.unpublished (by simp [hlevels])
  have hunended := h.unended_outer hlevels hended
  have hrest := h.levels
  rw [hlevels, List.map_cons] at hrest
  replace hrest := hrest.rollback
  have hnested := h.nested
  have houtermost := h.outermost
  have hattributed := h.attributed
  rw [hrolled] at hstate hrest
  rw [hlevels] at hnested houtermost hattributed
  rw [hunpublished] at hattributed
  have hbook : ({ w with now := now } : Tasks).book tx level.scope .rollback outcome =
      { w with now := now, levels := outer, undone := level.scope :: w.undone } := by
    unfold book
    rw [hlevels]
  rw [hbook]
  refine h.changed hstate hunended hnested.2 hrest (fun j hj => houtermost j ?_)
    (fun _ => hunpublished) (fun _ => hunpublished) ?_ ?_
  · rw [List.map_cons, List.getLast?_cons, hj]
    rfl
  · rw [hunpublished]
    exact hattributed.rolledBack
  · rw [hothers]
    exact h.passes

/-- A call that comes when its scope is the innermost one. -/
theorem Sound.called (h : Sound tx session c w) (hinner : w.innermost = some k) {a : Action}
    (hdue : Due (w.now.state.isFinished k) a)
    (hcall : Mapper.call Memory.backend session a w.now = (outcome, now)) :
    Sound tx session c (({ w with now := now } : Tasks).book tx k a outcome) := by
  obtain ⟨level, outer, hlevels, rfl⟩ := exists_of_innermost hinner
  rcases hdue with hworks | rfl | ⟨rfl | rfl, hended⟩
  · exact h.call_work hlevels hworks hcall
  · exact h.call_begin hlevels hcall
  · cases outer with
    | nil => exact h.call_commit_outer hlevels hended hcall
    | cons around outer => exact h.call_commit_inner hlevels hended hcall
  · exact h.call_rollback hlevels hended hcall

/-- Beside the open scopes there is nothing to note. -/
theorem book_same (w : Tasks) (tx k : Nat) (a : Action) (outcome : Except Failure (Option Nat)) :
    (w.book tx k a outcome).now = w.now ∧ (w.book tx k a outcome).underway = w.underway ∧
      (w.book tx k a outcome).astray = w.astray := by
  unfold book
  split
  · exact ⟨rfl, rfl, rfl⟩
  · exact ⟨rfl, rfl, rfl⟩
  · exact ⟨rfl, rfl, rfl⟩
  · exact ⟨rfl, rfl, rfl⟩
  · split <;> exact ⟨rfl, rfl, rfl⟩
  · exact ⟨rfl, rfl, rfl⟩

theorem Sound.next (h : Sound tx session c w) {i : Nat} {a : Action} {rest : List Action}
    (hi : w.underway[i]? = some ⟨k, a :: rest⟩)
    (hastray : (w.next tx session i k a rest).astray = []) :
    Sound tx session c (w.next tx session i k a rest) := by
  obtain ⟨hheld, hdue⟩ := h.underway _ (List.mem_of_getElem? hi)
  obtain ⟨hnow, hlater⟩ := List.forall_mem_cons.1 hdue
  unfold Tasks.next at hastray ⊢
  rcases hcall : Mapper.call Memory.backend session a w.now with ⟨outcome, now⟩
  rw [hcall] at hastray
  dsimp only at hastray ⊢
  split
  · rename_i hinner
    have hset : Sound tx session c
        { w with underway := w.underway.set i ⟨k, if outcome.isOk then rest else []⟩ } := by
      refine h.with_underway fun u hu => ?_
      rcases List.mem_or_eq_of_mem_set hu with hu | rfl
      · exact .inl hu
      · refine .inr ⟨hheld, fun a ha => ?_⟩
        dsimp only at ha
        split at ha
        · exact hlater a ha
        · cases ha
    exact hset.called hinner hnow hcall
  · rename_i hinner
    rw [if_neg hinner] at hastray
    cases hastray

theorem Sound.play (h : Sound tx session c w) (s : Step)
    (hastray : (w.play tx session s).astray = []) : Sound tx session c (w.play tx session s) := by
  cases s with
  | enter k op =>
    unfold Tasks.play
    dsimp only
    split
    · exact h.enter ‹_› op
    · exact h
  | call i =>
    unfold Tasks.play at hastray ⊢
    dsimp only at hastray ⊢
    split
    · rename_i hi
      rw [hi] at hastray
      exact h.next hi hastray
    · exact h
  | elsewhere r =>
    unfold Tasks.play
    dsimp only
    split
    · exact h
    · rename_i hother
      let before : Traced Cluster := ⟨w.now.state.store, w.now.events⟩
      have hsession : (r.carryOut Memory.backend before).2.state.session session =
          w.now.state.store.session session := Cluster.carryOut_session_of_ne hother before
      obtain ⟨log, hrecorded, hpasses⟩ := h.passes
      refine { h with nested := ?_, levels := ?_, passes := ?_ }
      · exact h.nested.congr fun _ _ => rfl
      · show LevelsIn _ ((r.carryOut Memory.backend before).2.state.session session)
        rw [hsession]
        exact h.levels
      · exact ⟨log, hrecorded, .other (t := before) hpasses hother⟩

theorem astray_play {s : Step} (h : (w.play tx session s).astray = []) : w.astray = [] := by
  cases s with
  | enter k op =>
    unfold Tasks.play at h
    dsimp only at h
    split at h
    · split at h <;> exact h
    · exact h
  | call i =>
    unfold Tasks.play at h
    dsimp only at h
    split at h
    · unfold Tasks.next at h
      dsimp only at h
      split at h
      split at h
      · rw [(book_same _ _ _ _ _).2.2] at h
        exact h
      · cases h
    · exact h
  | elsewhere r =>
    unfold Tasks.play at h
    dsimp only at h
    split at h <;> exact h

theorem astray_steps {steps : List Step} (h : (steps.foldl (Tasks.play tx session) w).astray = []) :
    w.astray = [] := by
  induction steps generalizing w with
  | nil => exact h
  | cons s rest ih => exact astray_play (ih h)

theorem Sound.steps (h : Sound tx session c w) {steps : List Step}
    (hastray : (steps.foldl (Tasks.play tx session) w).astray = []) :
    Sound tx session c (steps.foldl (Tasks.play tx session) w) := by
  induction steps generalizing w with
  | nil => exact h
  | cons s rest ih => exact ih (h.play s (astray_steps hastray)) hastray

end

end Tasks

end ModelMapper
