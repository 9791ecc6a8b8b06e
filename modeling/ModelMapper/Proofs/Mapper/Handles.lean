import ModelMapper.Proofs.Mapper.Recording

/-! # The handles of one session

What the scopes of a session know of each other: each remembers the depth it was opened at, the
backend knows how deep the session is, and a scope that is committed or rolled back is marked.
Whole operations keep the three in step, and the log of the backend has one commit or rollback
for each scope that has ended.

* `Handles`, `Handles.play` — the scopes of a session, and a whole operation with one of them.
* `Nested` — scopes that are open inside each other.
* `Handles.Aligned` — the open scopes are nested, one for each level of the session, and the calls
  of the others are in the log.
* `Handles.scopes_aligned` — what the gate lets through after any operations, and what has reached
  the backend.
-/

namespace ModelMapper

open Memory (Cluster)
open Mapper (Open)

variable {σ : Type}

/-- A commit takes one level away; the outermost one does so even if it conflicts. -/
theorem Memory.Cluster.depth_commit {c : Cluster} {id : Nat} (h : 0 < c.depth id) :
    (c.commit id).2.depth id + 1 = c.depth id := by
  rcases Nat.lt_or_ge 1 (c.depth id) with hinner | houter
  · obtain ⟨c', hcommit, -, hdepth⟩ := Cluster.commit_inner hinner
    rw [hcommit]
    exact hdepth
  · have hone : c.depth id = 1 := Nat.le_antisymm houter h
    rcases Cluster.commit_outer hone with
      ⟨-, c', hcommit, -, -, hended⟩ | ⟨e, c', hcommit, -, hended⟩
    · rw [hcommit, hended, hone]
    · rw [hcommit, hended, hone]

/-! ## Operations in a row -/

/-- The calls on a store after the first ones, the latest first. -/
def Observed.since (o : Observed σ) (first : List LogEntry) : List LogEntry :=
  o.log.take (o.log.length - first.length)

theorem Observed.since_eq {o : Observed σ} {made first : List LogEntry}
    (h : o.log = made ++ first) : o.since first = made := by
  rw [since, h, List.length_append, Nat.add_sub_cancel, List.take_left]

/-- A call that is not logged, because somebody else makes it. -/
def Observed.aside {α : Type} (c : Call σ α) : Call (Observed σ) α :=
  c.within Observed.store fun o s => { o with store := s }

/-- The scopes that a session has handles of. -/
structure Handles where
  now : Traced (Mapper (Observed Cluster))
  /-- The scopes, the newest one first. -/
  held : List Nat
  /-- The calls that the backend has got, the latest first, each with the scope whose handle it was
      made with. -/
  received : List (Nat × LogEntry)

namespace Handles

/-- Something that happens: a whole operation with a handle, or one clone of it, or a request of
    another session. -/
inductive Step where
  | operate (k : Nat) (op : Operation)
  | elsewhere (r : Request)

/-- What there is after an operation with the handle of a scope, and the calls it has made. -/
def after (w : Handles) (k : Nat) (now : Traced (Mapper (Observed Cluster)))
    (made : List LogEntry) : Handles :=
  ⟨now, w.held, made.map (Prod.mk k) ++ w.received⟩

/-- The scope that an operation has opened is held from then on. -/
def hold (w : Handles) : Result (Option Nat) → Handles
  | .ok (some new) => { w with held := new :: w.held }
  | _ => w

def operate (w : Handles) (k : Nat) (op : Operation) : Handles :=
  let (answer, now) := op.perform Memory.backend.observed k w.now
  (w.after k now (now.state.store.since w.now.state.store.log)).hold answer

def play (session : Nat) (w : Handles) : Step → Handles
  | .operate k op => if k ∈ w.held then w.operate k op else w
  | .elsewhere r =>
    if r.session = session then w
    else { w with now :=
      (Mapper.onStore (Observed.aside (r.carryOut Memory.backend)) w.now).2 }

def unfinished (w : Handles) (k : Nat) : Bool := !w.now.state.isFinished k

/-- How many commits and rollbacks of a scope the backend has got. -/
def endings (w : Handles) (k : Nat) : Nat := w.received.countP fun r => r.1 = k && r.2.ends

theorem endings_after (w : Handles) (k : Nat) (now : Traced (Mapper (Observed Cluster)))
    (made : List LogEntry) (j : Nat) :
    (w.after k now made).endings j =
      (if k = j then made.countP LogEntry.ends else 0) + w.endings j := by
  rw [endings, after, List.countP_append, List.countP_map, endings]
  congr 1
  split
  · rename_i heq
    exact List.countP_congr fun e _ => by simp [heq]
  · rename_i hne
    exact List.countP_eq_zero.2 fun e _ => by simp [hne]

theorem endings_after_of_none (w : Handles) (k : Nat) (now : Traced (Mapper (Observed Cluster)))
    (made : List LogEntry) (h : ∀ e ∈ made, e.ends = false) (j : Nat) :
    (w.after k now made).endings j = w.endings j := by
  have hnone : made.countP LogEntry.ends = 0 :=
    List.countP_eq_zero.2 fun e he => Bool.eq_false_iff.1 (h e he)
  rw [endings_after, hnone, ite_self, Nat.zero_add]

end Handles

/-! ## Nested scopes -/

/-- The session of a scope and its depth there, which it keeps when it ends. -/
def Mapper.level? (m : Mapper σ) (k : Nat) : Option (Nat × Nat) :=
  (m.scope? k).map fun sc => (sc.session, sc.depth)

theorem Mapper.level?_ending (m : Mapper σ) (k : Nat) (store : σ) (j : Nat) :
    (m.ending k store).level? j = m.level? j := by
  rw [level?, level?, scope?_ending, Option.map_map]
  congr 1
  funext sc
  show ((if k = j then sc.ended else sc).session, (if k = j then sc.ended else sc).depth) = _
  split <;> rfl

/-- Scopes that are open inside each other, the innermost one first. -/
def Nested (m : Mapper σ) (session : Nat) : List Nat → Prop
  | [] => True
  | k :: outer => m.level? k = some (session, outer.length + 1) ∧ Nested m session outer

namespace Nested

variable {m m' : Mapper σ} {session k : Nat} {scopes : List Nat}

/-- Scopes that are where they were are still nested. -/
theorem congr (h : Nested m session scopes) (hsame : ∀ j ∈ scopes, m'.level? j = m.level? j) :
    Nested m' session scopes := by
  induction scopes with
  | nil => trivial
  | cons k outer ih =>
    obtain ⟨hk, houter⟩ := List.forall_mem_cons.1 hsame
    exact ⟨hk.trans h.1, ih h.2 houter⟩

theorem depth_le {sc : Scope} (h : Nested m session scopes) (hmem : k ∈ scopes)
    (hk : m.scope? k = some sc) : sc.depth ≤ scopes.length := by
  induction scopes with
  | nil => cases hmem
  | cons j outer ih =>
    rcases List.mem_cons.1 hmem with rfl | hmem
    · have hlevel := h.1
      rw [Mapper.level?, hk] at hlevel
      exact Nat.le_of_eq (congrArg Prod.snd (Option.some.inj hlevel))
    · exact Nat.le_succ_of_le (ih h.2 hmem)

/-- Only the innermost one is as deep as all of them. -/
theorem head_of_depth {sc : Scope} (h : Nested m session scopes) (hmem : k ∈ scopes)
    (hk : m.scope? k = some sc) (hdepth : scopes.length = sc.depth) : scopes.head? = some k := by
  cases scopes with
  | nil => cases hmem
  | cons j outer =>
    rcases List.mem_cons.1 hmem with rfl | hmem
    · rfl
    · have hle := h.2.depth_le hmem hk
      rw [← hdepth, List.length_cons] at hle
      exact absurd hle (Nat.not_succ_le_self _)

end Nested

/-! ## The invariant -/

namespace Handles

variable {session : Nat} {first made : List LogEntry} {w : Handles} {k : Nat}

/-- The unfinished scopes. -/
def unended (w : Handles) : List Nat := w.held.filter w.unfinished

/-- The unfinished scopes are open inside each other, and the session is as deep as they are
    many.  Each of the others has been committed or rolled back by one call, and there are no
    more such calls. -/
structure Aligned (session : Nat) (first : List LogEntry) (w : Handles) : Prop where
  nodup : w.held.Nodup
  scopes : ∀ k ∈ w.held, ∃ sc, w.now.state.scope? k = some sc ∧ sc.session = session ∧ 0 < sc.depth
  nested : Nested w.now.state session w.unended
  depth : w.now.state.store.store.depth session = w.unended.length
  faults : w.now.state.store.faults = []
  log : w.now.state.store.log = w.received.map Prod.snd ++ first
  once : ∀ k, w.endings k ≤ 1
  ended : ∀ k, w.endings k = 1 ↔ k ∈ w.held ∧ w.now.state.isFinished k = true

theorem mem_unended : k ∈ w.unended ↔ k ∈ w.held ∧ w.now.state.isFinished k = false := by
  simp [unended, unfinished]

theorem Aligned.log_after (h : Aligned session first w) {now : Traced (Mapper (Observed Cluster))}
    (hlog : now.state.store.log = made ++ w.now.state.store.log) :
    now.state.store.log = (w.after k now made).received.map Prod.snd ++ first := by
  have hmade : (made.map (Prod.mk k)).map Prod.snd = made := by simp [Function.comp_def]
  rw [hlog, h.log, after, List.map_append, hmade, List.append_assoc]

/-- Nothing has happened to the scopes and the depth of the session. -/
theorem Aligned.of_same (h : Aligned session first w) (made : List LogEntry)
    {now : Traced (Mapper (Observed Cluster))}
    (hscopes : now.state.scopes = w.now.state.scopes)
    (hdepth : now.state.store.store.depth session = w.now.state.store.store.depth session)
    (hfaults : now.state.store.faults = [])
    (hlog : now.state.store.log = made ++ w.now.state.store.log)
    (hmade : ∀ e ∈ made, e.ends = false) : Aligned session first (w.after k now made) := by
  have hsame : ∀ j, now.state.scope? j = w.now.state.scope? j := fun j => congrArg (·[j]?) hscopes
  have hfinished : ∀ j, now.state.isFinished j = w.now.state.isFinished j := fun j => by
    rw [Mapper.isFinished, Mapper.isFinished, hsame]
  have hunended : (w.after k now made).unended = w.unended :=
    List.filter_congr fun j _ => congrArg not (hfinished j)
  have hendings := endings_after_of_none w k now made hmade
  refine ⟨h.nodup, fun j hj => (hsame j).symm ▸ h.scopes j hj, ?_, ?_, hfaults, h.log_after hlog,
    fun j => hendings j ▸ h.once j, fun j => ?_⟩
  · rw [hunended]
    exact h.nested.congr fun j _ => congrArg _ (hsame j)
  · rw [hunended]
    exact hdepth.trans h.depth
  · show _ ↔ j ∈ w.held ∧ now.state.isFinished j = true
    rw [hendings, hfinished]
    exact h.ended j

/-- The scope that may be used is the innermost unfinished one. -/
theorem Aligned.open_iff (h : Aligned session first w) (hk : k ∈ w.held) :
    (∃ sc, Open Memory.backend.observed w.now.state k sc) ↔ w.unended.head? = some k := by
  constructor
  · rintro ⟨sc, hopen⟩
    obtain ⟨sc', hsc, rfl, -⟩ := h.scopes k hk
    cases hsc.symm.trans hopen.scope
    exact h.nested.head_of_depth (mem_unended.2 ⟨hk, hopen.isFinished⟩) hopen.scope
      (h.depth.symm.trans hopen.innermost)
  · intro hhead
    have hnested := h.nested
    have hdepth := h.depth
    obtain ⟨outer, hunended⟩ := List.head?_eq_some_iff.1 hhead
    rw [hunended] at hnested hdepth
    obtain ⟨sc, hsc, hlevel⟩ := Option.map_eq_some_iff.1 hnested.1
    have hmem : k ∈ w.unended := hunended ▸ List.mem_cons_self
    obtain ⟨hsession, hlevel⟩ : sc.session = session ∧ sc.depth = outer.length + 1 :=
      Prod.mk.inj hlevel
    refine ⟨sc, hsc, (Mapper.isFinished_of_scope hsc).symm.trans (mem_unended.1 hmem).2, ?_⟩
    rw [hsession, hlevel]
    exact hdepth

/-- A new scope is open inside all others. -/
theorem Aligned.opened (h : Aligned session first w) {now : Traced (Mapper (Observed Cluster))}
    (hdepth : now.state.store.store.depth session = w.now.state.store.store.depth session + 1)
    (hscopes : now.state.scopes =
      w.now.state.scopes ++ [⟨session, now.state.store.store.depth session, false⟩])
    (hfaults : now.state.store.faults = [])
    (hlog : now.state.store.log = ⟨.begin, .nothing⟩ :: w.now.state.store.log) :
    Aligned session first
      ((w.after k now [⟨.begin, .nothing⟩]).hold (.ok (some w.now.state.scopes.length))) := by
  have hnew : now.state.scope? w.now.state.scopes.length =
      some ⟨session, w.unended.length + 1, false⟩ := by
    rw [Mapper.scope?_added hscopes, hdepth, h.depth]
  have hlt : ∀ j ∈ w.held, j < w.now.state.scopes.length := fun j hj => by
    obtain ⟨sc, hsc, -⟩ := h.scopes j hj
    exact (List.getElem?_eq_some_iff.1 hsc).1
  have hold : ∀ j ∈ w.held, now.state.scope? j = w.now.state.scope? j := fun j hj =>
    Mapper.scope?_of_added hscopes (hlt j hj)
  have hfinished : ∀ j ∈ w.held, now.state.isFinished j = w.now.state.isFinished j :=
    fun j hj => Mapper.isFinished_of_added hscopes (hlt j hj)
  have hfresh : w.now.state.scopes.length ∉ w.held := fun hmem => Nat.lt_irrefl _ (hlt _ hmem)
  have hunfinished : now.state.isFinished w.now.state.scopes.length = false :=
    Mapper.isFinished_of_scope hnew
  have hunended : (w.now.state.scopes.length :: w.held).filter (fun j => !now.state.isFinished j) =
      w.now.state.scopes.length :: w.unended := by
    have hrest : w.held.filter (fun j => !now.state.isFinished j) = w.unended :=
      List.filter_congr fun j hj => congrArg not (hfinished j hj)
    rw [List.filter_cons_of_pos (by simp [hunfinished]), hrest]
  have hendings := endings_after_of_none w k now [⟨.begin, .nothing⟩]
    (List.forall_mem_singleton.2 rfl)
  refine ⟨List.nodup_cons.2 ⟨hfresh, h.nodup⟩, List.forall_mem_cons.2 ⟨?_, fun j hj => ?_⟩, ?_, ?_,
    hfaults, h.log_after hlog, fun j => Nat.le_trans (Nat.le_of_eq (hendings j)) (h.once j),
    fun j => ?_⟩
  · exact ⟨_, hnew, rfl, Nat.succ_pos _⟩
  · obtain ⟨sc, hsc, hsession⟩ := h.scopes j hj
    exact ⟨sc, (hold j hj).trans hsc, hsession⟩
  · show Nested now.state session
      ((w.now.state.scopes.length :: w.held).filter fun j => !now.state.isFinished j)
    rw [hunended]
    exact ⟨congrArg _ hnew, h.nested.congr fun j hj => congrArg _ (hold j (mem_unended.1 hj).1)⟩
  · show _ = ((w.now.state.scopes.length :: w.held).filter fun j => !now.state.isFinished j).length
    rw [hunended]
    exact hdepth.trans (congrArg Nat.succ h.depth)
  · show (w.after k now _).endings j = 1 ↔ _
    rw [hendings, h.ended]
    refine ⟨fun ⟨hj, hended⟩ => ?_, fun ⟨hj, hended⟩ => ?_⟩
    · exact ⟨List.mem_cons_of_mem _ hj, (hfinished j hj).trans hended⟩
    · rcases List.mem_cons.1 hj with rfl | hj
      · cases hunfinished.symm.trans hended
      · exact ⟨hj, (hfinished j hj).symm.trans hended⟩

/-- The innermost scope has ended, and its level with it, by one call. -/
theorem Aligned.closed (h : Aligned session first w) (hk : k ∈ w.held) {sc : Scope}
    (hopen : Open Memory.backend.observed w.now.state k sc)
    {now : Traced (Mapper (Observed Cluster))} {store : Cluster} {e : LogEntry}
    (he : e.ends = true)
    (hstate : now.state = w.now.state.ending k ⟨store, e :: w.now.state.store.log, []⟩)
    (hdepth : store.depth session + 1 = w.now.state.store.store.depth session) :
    Aligned session first (w.after k now [e]) := by
  obtain ⟨outer, hbefore⟩ := List.head?_eq_some_iff.1 ((h.open_iff hk).1 ⟨sc, hopen⟩)
  have hnested := h.nested
  have hwas := h.depth
  have hnodup : w.unended.Nodup := h.nodup.filter _
  rw [hbefore] at hnested hwas hnodup
  have hstore : now.state.store = ⟨store, e :: w.now.state.store.log, []⟩ :=
    congrArg Mapper.store hstate
  have hkended : now.state.isFinished k = true := by
    rw [hstate]
    exact Mapper.isFinished_ending hopen.scope _
  have hfinished : ∀ j, j ≠ k → now.state.isFinished j = w.now.state.isFinished j := fun j hj => by
    rw [hstate, Mapper.isFinished_ending_of_ne _ hj]
  have hunended : (w.after k now [e]).unended = outer := by
    have herase : w.unended.filter (· ≠ k) = outer := by
      rw [hbefore, List.filter_cons_of_neg (by simp), List.filter_eq_self]
      exact fun j hj => decide_eq_true fun heq => (List.nodup_cons.1 hnodup).1 (heq ▸ hj)
    rw [← herase]
    show w.held.filter (fun j => !now.state.isFinished j) = _
    rw [unended, List.filter_filter]
    refine List.filter_congr fun j _ => ?_
    by_cases hj : j = k
    · simp [hj, hkended]
    · simp [hj, hfinished j hj, unfinished]
  have hendings (j : Nat) :
      (w.after k now [e]).endings j = (if k = j then 1 else 0) + w.endings j := by
    rw [endings_after, List.countP_singleton, if_pos he]
  have hnone : w.endings k = 0 := by
    have honce := h.once k
    have hended : w.endings k ≠ 1 := fun heq => by
      cases hopen.isFinished.symm.trans ((h.ended k).1 heq).2
    omega
  refine ⟨h.nodup, fun j hj => ?_, ?_, ?_, congrArg Observed.faults hstore,
    h.log_after (congrArg Observed.log hstore), fun j => ?_, fun j => ?_⟩
  · show ∃ sc, now.state.scope? j = some sc ∧ _
    rw [hstate]
    exact Mapper.exists_scope_ending (fun s depth => s = session ∧ 0 < depth) (h.scopes j hj) k _
  · rw [hunended]
    refine hnested.2.congr fun j _ => ?_
    show now.state.level? j = _
    rw [hstate, Mapper.level?_ending]
  · rw [hunended]
    show now.state.store.store.depth session = outer.length
    rw [List.length_cons] at hwas
    rw [hstore]
    exact Nat.succ.inj (hdepth.trans hwas)
  · rw [hendings]
    split
    · rename_i heq
      exact Nat.le_of_eq (congrArg (1 + ·) (heq ▸ hnone))
    · rw [Nat.zero_add]
      exact h.once j
  · show _ ↔ j ∈ w.held ∧ now.state.isFinished j = true
    rw [hendings]
    split
    · rename_i heq
      rw [← heq, hnone]
      exact iff_of_true rfl ⟨hk, hkended⟩
    · rename_i hne
      rw [Nat.zero_add, hfinished j (Ne.symm hne)]
      exact h.ended j

/-! ## Operations keep it -/

theorem operate_eq (made : List LogEntry) {op : Operation} {answer : Result (Option Nat)}
    {now : Traced (Mapper (Observed Cluster))}
    (hrun : op.perform Memory.backend.observed k w.now = (answer, now))
    (hlog : now.state.store.log = made ++ w.now.state.store.log) :
    w.operate k op = (w.after k now made).hold answer := by
  rw [operate, hrun]
  dsimp only
  rw [Observed.since_eq hlog]

/-- An operation that opens nothing. -/
theorem hold_map {α : Type} (w : Handles) (answer : Result α) :
    w.hold (answer.map fun _ => none) = w := by
  cases answer <;> rfl

theorem Aligned.of_keepsLevels (h : Aligned session first w)
    {now : Traced (Mapper (Observed Cluster))}
    (hkeeps : KeepsLevels session w.now.state now.state) :
    ∃ made, now.state.store.log = made ++ w.now.state.store.log ∧
      Aligned session first (w.after k now made) := by
  obtain ⟨made, hlog, hmade⟩ := hkeeps.log
  exact ⟨made, hlog, h.of_same made hkeeps.scopes hkeeps.depth hkeeps.faults hlog hmade⟩

/-- A commit or rollback in an open scope. -/
theorem Aligned.ends (h : Aligned session first w) (hk : k ∈ w.held) {sc : Scope}
    (hopen : Open Memory.backend.observed w.now.state k sc) {op : Operation} (kind : CallKind)
    (hkind : LogEntry.ends ⟨kind, .nothing⟩ = true) (ask : Nat → Call Cluster Unit)
    (hperform : op.perform Memory.backend.observed k = (fun _ => none) <$>
      Mapper.endBy Memory.backend.observed (fun id => Observed.call kind .nothing (ask id)) k)
    (hdepth : (ask sc.session ⟨w.now.state.store.store, w.now.events⟩).2.state.depth session + 1 =
      w.now.state.store.store.depth session) :
    Aligned session first (w.operate k op) := by
  have hstate := Mapper.endBy_recorded kind ask h.faults hopen
  have hrun := congrFun hperform w.now
  rw [run_map] at hrun
  rw [operate_eq [⟨kind, .nothing⟩] hrun (congrArg (fun m => m.store.log) hstate), hold_map]
  exact h.closed hk hopen hkind hstate hdepth

theorem Aligned.operate (h : Aligned session first w) (hk : k ∈ w.held) (op : Operation) :
    Aligned session first (w.operate k op) := by
  obtain ⟨sc, hsc, rfl, hpos⟩ := h.scopes k hk
  rcases Mapper.checkOpen_cases Memory.backend.observed k w.now with
    ⟨sc', hopen, hcheck⟩ | ⟨-, e, -, hrefused⟩
  · cases hsc.symm.trans hopen.scope
    have hinner : 0 < w.now.state.store.store.depth sc.session :=
      Nat.lt_of_lt_of_eq hpos hopen.innermost.symm
    cases op with
    | work job gated =>
      obtain ⟨made, hlog, hkept⟩ :=
        h.of_keepsLevels (k := k) (job.keepsLevels gated h.faults hsc hpos)
      rw [operate_eq made (run_map _ _ _) hlog, hold_map]
      exact hkept
    | begin =>
      rcases Mapper.begin_recorded (k := k) h.faults with
        ⟨e, next, hrun, hstate⟩ | ⟨sc', next, hopen', hrun, hstate⟩
      · have hperform : Operation.begin.perform Memory.backend.observed k w.now =
            (.error e, next) := by
          rw [Operation.perform, run_map, hrun]
          rfl
        rw [operate_eq [] hperform (congrArg (fun m => m.store.log) hstate)]
        exact h.of_same [] (congrArg Mapper.scopes hstate)
          (congrArg (fun m => m.store.store.depth sc.session) hstate)
          ((congrArg (fun m => m.store.faults) hstate).trans h.faults)
          (congrArg (fun m => m.store.log) hstate) (List.forall_mem_nil _)
      · cases hopen.scope.symm.trans hopen'.scope
        have hperform : Operation.begin.perform Memory.backend.observed k w.now =
            (.ok (some w.now.state.scopes.length), next) := by
          rw [Operation.perform, run_map, hrun]
          rfl
        have hbegun := (Cluster.begin_own hinner).2
        rw [operate_eq [⟨.begin, .nothing⟩] hperform
          (congrArg (fun m => m.store.log) hstate)]
        refine h.opened ?_ ?_ (congrArg (fun m => m.store.faults) hstate)
          (congrArg (fun m => m.store.log) hstate)
        · rw [hstate]
          exact hbegun
        · rw [hstate]
          rfl
    | commit =>
      refine h.ends hk hopen .commit rfl Cluster.tracedCommit rfl ?_
      rw [Cluster.commit_state]
      exact Cluster.depth_commit hinner
    | rollback =>
      refine h.ends hk hopen .rollback rfl Cluster.tracedRollback rfl ?_
      obtain ⟨store, hrolled, -, hdepth⟩ := Cluster.rollback_own hinner
      rw [Cluster.rollback_state, hrolled]
      exact hdepth
  · have hsame : w.operate k op = w := by
      rw [operate_eq [] (op.perform_refused hrefused) rfl]
      rfl
    exact hsame.symm ▸ h

theorem Aligned.play (h : Aligned session first w) (s : Step) :
    Aligned session first (w.play session s) := by
  cases s with
  | operate k op =>
    unfold Handles.play
    dsimp only
    split
    · exact h.operate ‹_› op
    · exact h
  | elsewhere r =>
    unfold Handles.play
    dsimp only
    split
    · exact h
    · rename_i hother
      have hsession :=
        Cluster.carryOut_session_of_ne hother ⟨w.now.state.store.store, w.now.events⟩
      exact h.of_same (k := 0) [] rfl (congrArg Memory.Session.depth hsession) h.faults rfl
        (List.forall_mem_nil _)

/-! ## Any operations -/

/-- The scope that a transaction on the database begins with. -/
def start (tx : Nat) (t : Traced (Mapper (Observed Cluster))) : Handles := ⟨t, [tx], []⟩

theorem aligned_start {tx : Nat} {t : Traced (Mapper (Observed Cluster))}
    (hscope : t.state.scope? tx = some ⟨session, 1, false⟩)
    (hdepth : t.state.store.store.depth session = 1) (hfaults : t.state.store.faults = []) :
    Aligned session t.state.store.log (start tx t) := by
  have hfinished : t.state.isFinished tx = false := Mapper.isFinished_of_scope hscope
  have hunended : (start tx t).unended = [tx] := by
    simp [start, unended, unfinished, hfinished]
  refine ⟨List.pairwise_singleton _ tx,
    List.forall_mem_singleton.2 ⟨_, hscope, rfl, Nat.one_pos⟩, ?_, ?_, hfaults, rfl,
    fun k => Nat.zero_le 1,
    fun k => ⟨fun hk => absurd hk.symm Nat.one_ne_zero, fun ⟨hk, hended⟩ => ?_⟩⟩
  · rw [hunended]
    exact ⟨congrArg _ hscope, trivial⟩
  · rw [hunended]
    exact hdepth
  · cases List.mem_singleton.1 hk
    cases hfinished.symm.trans hended

theorem Aligned.steps (h : Aligned session first w) (steps : List Step) :
    Aligned session first (steps.foldl (Handles.play session) w) := by
  induction steps generalizing w with
  | nil => exact h
  | cons s rest ih => exact ih (h.play s)

/-- Whatever is done with the handles of a transaction and the scopes in it, while other sessions
    go on: the session is as deep as scopes are unfinished.  The gate lets an operation through
    if its scope is the innermost unfinished one; any other operation is refused as a transaction
    and changes nothing, so that the backend gets no call.  The log of the backend has the calls
    of the operations and no others: one commit or rollback for each scope that is finished, and
    none for one that is not. -/
theorem scopes_aligned (steps : List Step) (t : Traced (Mapper Cluster)) :
    ∃ tx session t₀, Mapper.begin Memory.backend.observed .database
        ⟨t.state.observed, t.events⟩ = (.ok tx, t₀) ∧
      t₀.state.scope? tx = some ⟨session, 1, false⟩ ∧
      (∀ e ∈ t₀.state.store.log, e.ends = false) ∧
      let w := steps.foldl (Handles.play session) (start tx t₀)
      w.now.state.store.store.depth session = w.unended.length ∧
        w.now.state.store.log = w.received.map Prod.snd ++ t₀.state.store.log ∧
        (∀ k, w.endings k ≤ 1) ∧
        (∀ k, w.endings k = 1 ↔ k ∈ w.held ∧ w.now.state.isFinished k = true) ∧
        ∀ k ∈ w.held,
          ((∃ sc, Mapper.checkOpen Memory.backend.observed k w.now = (.ok sc, w.now)) ↔
              w.unended.head? = some k) ∧
            (w.unended.head? ≠ some k → ∀ op : Operation,
              ∃ e, e.kind = .raised .transaction ∧
                op.perform Memory.backend.observed k w.now = (.error e, w.now)) := by
  obtain ⟨tx, session, t₀, hbegin, hscope, hdepth, hunended⟩ := Mapper.begin_database_recorded t
  refine ⟨tx, session, t₀, hbegin, hscope, hunended.log, ?_⟩
  have h := (aligned_start hscope hdepth hunended.faults).steps steps
  generalize steps.foldl (Handles.play session) (start tx t₀) = w at h ⊢
  refine ⟨h.depth, h.log, h.once, h.ended, fun k hk => ?_⟩
  rcases Mapper.checkOpen_cases Memory.backend.observed k w.now with
    ⟨sc, hopen, hcheck⟩ | ⟨hclosed, e, hkind, hrefused⟩
  · have hinnermost := (h.open_iff hk).1 ⟨sc, hopen⟩
    exact ⟨iff_of_true ⟨sc, hcheck⟩ hinnermost, fun hne => absurd hinnermost hne⟩
  · refine ⟨iff_of_false ?_ fun hinnermost => ?_,
      fun _ op => ⟨e, hkind, op.perform_refused hrefused⟩⟩
    · rintro ⟨sc, hcheck⟩
      cases hcheck.symm.trans hrefused
    · obtain ⟨sc, hopen⟩ := (h.open_iff hk).2 hinnermost
      exact hclosed sc hopen

end Handles

end ModelMapper
