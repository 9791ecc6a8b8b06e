import ModelMapper.Proofs.Sqlite.Demands
import ModelMapper.Proofs.Sqlite.Rows

/-! # Nested scopes

The scopes of a session are nested transactions of the engine, also when the engine refuses
statements on the way.

* `Nests` — a session in a number of scopes: a savepoint for each but the outermost, in their
  order.  It keeps what the session saw when each was opened.
* `Nests.through`, `Nests.halfway` — the statements of a demand from there, all of them or only
  some.
* `Asked`, `asked` — what the operation of the backend comes to from there.
* `Handle.Sound` — what every run keeps.
* `scopes_nest` — what a run comes to.
-/

namespace ModelMapper

namespace Sqlite

open Sql (savepointName)

/-! ## Nested scopes -/

/-- A savepoint for each of some databases, the innermost first, numbered from the outermost. -/
def savepointsOver : List Database → List (String × Database)
  | [] => []
  | d :: outer => (savepointName (outer.length + 1), d) :: savepointsOver outer

theorem names_savepointsOver (inner : List Database) :
    (savepointsOver inner).map Prod.fst =
      ((List.range' 1 inner.length).map savepointName).reverse := by
  induction inner with
  | nil => rfl
  | cons d outer ih =>
    rw [savepointsOver, List.map_cons, ih, List.length_cons, List.range'_concat, List.map_append,
      List.reverse_append, Nat.one_mul, Nat.add_comm]
    rfl

/-- The session is in a scope for each of the databases it saw at their begins.  The outermost is
    a transaction, and the database it saw is still the shared one. -/
inductive Nests (shared : Database) : Session → List Database → Prop where
  | outside : Nests shared ⟨none, 0⟩ []
  | inside (working : Database) (inner : List Database) :
      Nests shared ⟨some ⟨working, savepointsOver inner⟩, inner.length + 1⟩ (inner ++ [shared])

namespace Connection

variable {name : String} {working d shared : Database} {outer : List (String × Database)}

/-- The innermost savepoint is found first, whatever the names of the others are. -/
theorem fromSavepoint_head (name : String) (d : Database) (outer : List (String × Database)) :
    fromSavepoint name ((name, d) :: outer) = (name, d) :: outer := by
  rw [fromSavepoint, List.dropWhile_cons_of_neg]
  rw [sameName_self]
  exact Bool.false_ne_true

theorem run_release : run (some ⟨working, (name, d) :: outer⟩) shared (.release name) =
    .ok (some ⟨working, outer⟩, shared) := by
  unfold run
  dsimp only
  rw [fromSavepoint_head]

theorem run_rollbackTo : run (some ⟨working, (name, d) :: outer⟩) shared (.rollbackTo name) =
    .ok (some ⟨d, (name, d) :: outer⟩, shared) := by
  unfold run
  dsimp only
  rw [fromSavepoint_head]

end Connection

namespace Nests

variable {d : Demand} {s : Session} {shared : Database} {begun : List Database}

theorem depth (h : Nests shared s begun) : s.depth = begun.length := by
  cases h with
  | outside => rfl
  | inside working inner =>
    rw [List.length_append]
    rfl

theorem isSome_connection (h : Nests shared s begun) :
    s.connection.isSome = true ↔ 0 < s.depth := by
  cases h with
  | outside => decide
  | inside working inner => exact ⟨fun _ => Nat.succ_pos _, fun _ => rfl⟩

theorem savepointNames (h : Nests shared s begun) : s.connection.savepointNames =
    ((List.range' 1 (s.depth - 1)).map savepointName).reverse := by
  cases h with
  | outside => rfl
  | inside working inner => exact names_savepointsOver inner

/-- Work on rows leaves the scopes as they are, unless the engine gives up the transaction. -/
theorem works {id : Nat} {c c' : Cluster} (h : Nests c.shared (c.session id) begun)
    (hworks : c.Works id c')
    (hkept : (c.session id).connection.isSome → (c'.session id).connection.isSome) :
    Nests c'.shared (c'.session id) begun := by
  generalize hsession : c.session id = s at h
  have hconnection := congrArg Session.connection hsession
  have hdepth := hworks.depth.trans (congrArg Session.depth hsession)
  cases h with
  | outside =>
    rw [Cluster.session_eq_of (hworks.outside hconnection) hdepth]
    exact .outside
  | inside working inner =>
    rcases hworks.inside _ hconnection with hgone | ⟨⟨d, hd⟩, hshared⟩
    · rw [hconnection, hgone] at hkept
      cases hkept rfl
    · rw [Cluster.session_eq_of hd hdepth, ← hshared]
      exact .inside d inner

/-- A savepoint that a demand ends or goes back to is the innermost one. -/
theorem innermost {target : Scope} {name : String} (h : Nests shared s begun)
    (hmem : target ∈ d.statements s.depth) (hname : target.target? = some name) :
    s.connection.savepointNames.head? = some name := by
  obtain ⟨n, hdepth, rfl⟩ := Demand.target_eq hmem hname
  rw [h.savepointNames, hdepth, List.head?_reverse, List.getLast?_map,
    show n + 2 - 1 = n + 1 from rfl, List.range'_concat, List.getLast?_concat, Nat.one_mul,
    Nat.add_comm]
  rfl

/-- Where the statements of a demand lead that are all let through: a begin and the commit of an
    inner scope do nothing to what is seen, and a rollback brings back what was seen at the begin
    of its scope. -/
structure Through (d : Demand) (s : Session) (shared : Database) (begun : List Database)
    (connection : Connection) (after : Database) : Prop where
  runs : s.connection.runAll shared (d.statements s.depth) = .ok (connection, after)
  nests : Nests after ⟨connection, d.depthAfter s.depth⟩
    (d.begunAfter (s.connection.view shared) begun)
  back : d = .rollback → begun.head? = some (connection.view after)
  quiet : d = .begin ∨ d = .commit ∧ 1 < s.depth →
    after = shared ∧ connection.view shared = s.connection.view shared

theorem through (h : Nests shared s begun) (hallowed : d = .begin ∨ 0 < s.depth) :
    ∃ connection after, Through d s shared begun connection after := by
  cases h with
  | outside =>
    obtain rfl : d = .begin := hallowed.resolve_right (Nat.lt_irrefl 0)
    exact ⟨some ⟨shared, []⟩, shared, rfl, .inside shared [], nofun, fun _ => ⟨rfl, rfl⟩⟩
  | inside working inner =>
    cases d with
    | begin =>
      exact ⟨some ⟨working, savepointsOver (working :: inner)⟩, shared, rfl,
        .inside working (working :: inner), nofun, fun _ => ⟨rfl, rfl⟩⟩
    | commit =>
      cases inner with
      | nil =>
        refine ⟨none, working, rfl, .outside, nofun, ?_⟩
        rintro (hbegin | ⟨-, hinner⟩)
        · cases hbegin
        · cases Nat.lt_irrefl 1 hinner
      | cons d outer =>
        exact ⟨some ⟨working, savepointsOver outer⟩, shared,
          Result.bind_eq_ok.2 ⟨_, Connection.run_release, rfl⟩, .inside working outer, nofun,
          fun _ => ⟨rfl, rfl⟩⟩
    | rollback =>
      have hloud {P : Prop} (h : Demand.rollback = .begin ∨ Demand.rollback = .commit ∧ P) :
          False := h.elim nofun (fun h => nomatch h.1)
      cases inner with
      | nil => exact ⟨none, shared, rfl, .outside, fun _ => rfl, fun h => (hloud h).elim⟩
      | cons d outer =>
        exact ⟨some ⟨d, savepointsOver outer⟩, shared,
          Result.bind_eq_ok.2 ⟨_, Connection.run_rollbackTo,
            Result.bind_eq_ok.2 ⟨_, Connection.run_release, rfl⟩⟩,
          .inside d outer, fun _ => rfl, fun h => (hloud h).elim⟩

/-- Up to the last statement of a demand the session stays in its scopes.  Going back to a
    savepoint leaves it open, so it is still the innermost one when it is released. -/
theorem halfway {done rest : List Scope} {next : Scope} (h : Nests shared s begun)
    (hcut : d.statements s.depth = done ++ next :: rest) :
    ∃ connection, s.connection.runAll shared done = .ok (connection, shared) ∧
      Nests shared ⟨connection, s.depth⟩ begun ∧ (d ≠ .rollback → connection = s.connection) := by
  rcases Demand.statements_cut hcut with rfl | ⟨rfl, n, hdepth, rfl⟩
  · exact ⟨s.connection, rfl, h, fun _ => rfl⟩
  · cases h with
    | outside => cases hdepth
    | inside working inner =>
      obtain ⟨d, outer, rfl⟩ := List.exists_cons_of_length_eq_add_one (Nat.succ.inj hdepth)
      cases Nat.succ.inj (Nat.succ.inj hdepth)
      exact ⟨some ⟨d, savepointsOver (d :: outer)⟩,
        Result.bind_eq_ok.2 ⟨_, Connection.run_rollbackTo, rfl⟩, .inside d (d :: outer),
        fun hne => absurd rfl hne⟩

end Nests

/-! ## What a demand comes to -/

section Asked

variable {id : Nat} {d : Demand} {t : Traced Cluster} {begun : List Database}

/-- Every statement that ends a savepoint or goes back to it names the one that is innermost when
    the statements before it have been sent. -/
def Innermost (id : Nat) (context : String) (sent : List Scope) (t : Traced Cluster) : Prop :=
  ∀ before s, before ++ [s] <+: sent → ∀ name, s.target? = some name →
    ((before.forM (Cluster.scope id context) t).2.state.savepointNames id).head? = some name

/-- What the operation of the backend for a demand comes to, whether it succeeds or not. -/
structure Asked (id : Nat) (d : Demand) (begun : List Database) (t : Traced Cluster)
    (went : Bool) (after : Traced Cluster) : Prop where
  length : after.state.sessions.length = t.state.sessions.length
  went_iff : went = true ↔ (d = .begin ∨ 0 < t.state.depth id) ∧
    t.state.LetsThrough (d.statements (t.state.depth id)).length
  sent : ∃ sent, sent <+: d.statements (t.state.depth id) ∧
    (went = true → sent = d.statements (t.state.depth id)) ∧
    after.events =
      (sent.map fun s => Report.scope s (t.state.depth id)).reverse ++ t.events ∧
    Innermost id d.context sent t
  nests : Nests after.state.shared (after.state.session id)
    (if went then d.begunAfter (t.state.view id) begun else begun)
  failed : went = false → d ≠ .rollback →
    after.state = { t.state with refusals := after.state.refusals }
  back : went = true → d = .rollback → begun.head? = some (after.state.view id)
  quiet : went = true → d = .begin ∨ d = .commit ∧ 1 < t.state.depth id →
    after.state.shared = t.state.shared ∧ ∀ other, after.state.view other = t.state.view other

/-- At a statement that names a savepoint the ones before it have been let through. -/
theorem innermost_of_prefix {sent : List Scope} (hid : id < t.state.sessions.length)
    (hnests : Nests t.state.shared (t.state.session id) begun)
    (hsent : sent <+: d.statements (t.state.depth id))
    (hlets : t.state.LetsThrough (sent.length - 1)) : Innermost id d.context sent t := by
  intro before s hbefore name hname
  obtain ⟨rest, hcut⟩ := hbefore.trans hsent
  rw [List.append_assoc] at hcut
  have hle := hbefore.length_le
  rw [List.length_append, List.length_singleton] at hle
  obtain ⟨connection, hruns, hbetween, -⟩ := hnests.halfway hcut.symm
  -- The ones before it have all been let through, so they lead where `halfway` says.
  rcases Cluster.forM_scope hid d.context hruns with
    ⟨-, hall⟩ | ⟨done, _, _, _, _, rfl, -, hstop, -⟩
  · rw [hall, Cluster.savepointNames, Cluster.session_sending hid]
    have hmem : s ∈ d.statements (t.state.depth id) := by
      rw [← hcut]
      exact List.mem_append_right _ List.mem_cons_self
    exact hbetween.innermost (d := d) hmem hname
  · refine absurd (hlets.mono ?_) hstop
    rw [List.length_append, List.length_cons] at hle
    omega

theorem asked_nothing (hnests : Nests t.state.shared (t.state.session id) begun)
    (hallowed : ¬(d = .begin ∨ 0 < t.state.depth id)) : Asked id d begun t false t where
  length := rfl
  went_iff := ⟨fun h => absurd h Bool.false_ne_true, fun h => absurd h.1 hallowed⟩
  sent := by
    refine ⟨[], List.nil_prefix, fun h => absurd h Bool.false_ne_true, rfl, fun before s h => ?_⟩
    cases List.append_ne_nil_of_right_ne_nil before (List.cons_ne_nil s []) (List.prefix_nil.1 h)
  nests := hnests
  failed _ _ := rfl
  back h := absurd h Bool.false_ne_true
  quiet h := absurd h Bool.false_ne_true

theorem asked_through {connection : Connection} {after : Database}
    (hid : id < t.state.sessions.length)
    (hnests : Nests t.state.shared (t.state.session id) begun)
    (hallowed : d = .begin ∨ 0 < t.state.depth id)
    (hlets : t.state.LetsThrough (d.statements (t.state.depth id)).length)
    (hthrough : Nests.Through d (t.state.session id) t.state.shared begun connection after) :
    let sent := Cluster.sending id (d.statements (t.state.depth id)) connection after t
    Asked id d begun t true
      ⟨sent.state.setDepth id (d.depthAfter (t.state.depth id)), sent.events⟩ := by
  intro sent
  let passed := t.state.passing (d.statements (t.state.depth id)).length
  have hstate : sent.state.setDepth id (d.depthAfter (t.state.depth id)) =
      passed.settle id connection (d.depthAfter (t.state.depth id)) after :=
    Cluster.setDepth_settle (c := passed) hid _ _ _ _
  have hview : (passed.settle id connection (d.depthAfter (t.state.depth id)) after).view id =
      connection.view after := Cluster.view_settle (c := passed) hid _ _ _
  rw [hstate]
  refine ⟨Cluster.length_setSession _ _ _, ⟨fun _ => ⟨hallowed, hlets⟩, fun _ => rfl⟩,
    ⟨_, List.prefix_rfl, fun _ => rfl, rfl,
      innermost_of_prefix hid hnests List.prefix_rfl (hlets.mono (Nat.sub_le _ _))⟩,
    ?_, fun h => absurd h.symm Bool.false_ne_true, fun _ hd => ?_, fun _ hd => ?_⟩
  · rw [Cluster.session_settle (c := passed) hid]
    exact hthrough.nests
  · rw [hview]
    exact hthrough.back hd
  · obtain ⟨rfl, hsame⟩ := hthrough.quiet hd
    exact ⟨rfl, Cluster.view_settle_same (c := passed) hid connection hsame _⟩

theorem asked_stopped {done rest : List Scope} {s : Scope} {connection : Connection}
    {after : Database} (hid : id < t.state.sessions.length)
    (hnests : Nests t.state.shared (t.state.session id) begun)
    (hcut : d.statements (t.state.depth id) = done ++ s :: rest)
    (hlets : t.state.LetsThrough done.length) (hstop : ¬t.state.LetsThrough (done.length + 1))
    (hruns : (t.state.session id).connection.runAll t.state.shared done =
      .ok (connection, after)) :
    Asked id d begun t false (Cluster.sending id (done ++ [s]) connection after t) := by
  obtain ⟨connection', hruns', hbetween, hsame⟩ := hnests.halfway hcut
  cases hruns.symm.trans hruns'
  have hsent : done ++ [s] <+: d.statements (t.state.depth id) :=
    ⟨rest, by rw [hcut, List.append_assoc]; rfl⟩
  refine ⟨Cluster.length_setSession _ _ _, ⟨fun h => absurd h Bool.false_ne_true, fun h => ?_⟩,
    ⟨_, hsent, fun h => absurd h Bool.false_ne_true, rfl,
      innermost_of_prefix hid hnests hsent ?_⟩,
    ?_, fun _ hd => ?_, fun h => absurd h Bool.false_ne_true,
    fun h => absurd h Bool.false_ne_true⟩
  · refine absurd (h.2.mono ?_) hstop
    rw [hcut, List.length_append, List.length_cons]
    omega
  · rw [List.length_append]
    exact hlets
  · rw [Cluster.session_sending hid]
    exact hbetween
  · rw [hsame hd]
    exact Cluster.settle_self (c := t.state.passing (done ++ [s]).length) hid

theorem asked (hid : id < t.state.sessions.length)
    (hnests : Nests t.state.shared (t.state.session id) begun) (d : Demand) :
    Asked id d begun t (d.toAction.perform backend id t).1.isOk
      (d.toAction.perform backend id t).2 := by
  by_cases hallowed : d = .begin ∨ 0 < t.state.depth id
  · obtain ⟨connection, after, hthrough⟩ := hnests.through hallowed
    rcases Cluster.forM_scope hid d.context hthrough.runs with
      ⟨hlets, hall⟩ | ⟨done, s, rest, connection', after', hcut, hlets, hstop, hruns, e, hpart⟩
    · rw [Demand.perform_through hallowed hall]
      exact asked_through hid hnests hallowed hlets hthrough
    · rw [Demand.perform_stopped hallowed hpart]
      exact asked_stopped hid hnests hcut hlets hstop hruns
  · rw [Demand.perform_nothing hallowed]
    exact asked_nothing hnests hallowed

end Asked

/-! ## Runs -/

namespace Handle

variable {id : Nat} {h : Handle}

/-- What every run keeps, as long as the engine gives up no transaction. -/
structure Sound (id : Nat) (h : Handle) : Prop where
  lt : id < h.now.state.sessions.length
  nests : Nests h.now.state.shared (h.now.state.session id) h.begun

theorem Sound.ask (hsound : Sound id h) (d : Demand) : Sound id (h.ask id d) :=
  have hasked := asked hsound.lt hsound.nests d
  ⟨hasked.length.symm ▸ hsound.lt, hasked.nests⟩

theorem Sound.work (hsound : Sound id h) (a : RowAction) (hkept : (h.work id a).lost = false) :
    Sound id (h.work id a) := by
  have hworks := a.perform_works id h.now
  refine ⟨hworks.length.symm ▸ hsound.lt, hsound.nests.works hworks fun hopen => ?_⟩
  obtain ⟨-, hopen'⟩ := Bool.or_eq_false_iff.1 hkept
  rw [hopen, Bool.true_and] at hopen'
  exact Option.isNone_eq_false_iff.1 hopen'

theorem lost_work {a : RowAction} (hkept : (h.work id a).lost = false) : h.lost = false :=
  (Bool.or_eq_false_iff.1 hkept).1

theorem Sound.play (hsound : h.lost = false → Sound id h) (m : Move)
    (hkept : (h.play id m).lost = false) : Sound id (h.play id m) := by
  cases m with
  | scope d => exact (hsound hkept).ask d
  | rows a refused =>
    cases refused with
    | none => exact (hsound (lost_work hkept)).work a hkept
    | some n =>
      rw [Handle.play] at hkept ⊢
      cases hbefore : a.before n with
      | none =>
        rw [hbefore] at hkept
        exact hsound hkept
      | some done =>
        rw [hbefore] at hkept
        exact (hsound (lost_work hkept)).work done hkept

theorem Sound.run (hsound : h.lost = false → Sound id h) (moves : List Move)
    (hkept : (h.run id moves).lost = false) : Sound id (h.run id moves) := by
  induction moves generalizing h with
  | nil => exact hsound hkept
  | cons m rest ih => exact ih (Sound.play hsound m) hkept

theorem Sound.start {t : Traced Cluster} (hid : id < t.state.sessions.length)
    (hfresh : t.state.session id = ⟨none, 0⟩) : Sound id (start t) :=
  ⟨hid, hfresh ▸ .outside⟩

end Handle

/-- A session runs through scopes and work on rows, and the engine may refuse statements of it, as
    long as that has no effect.  Then it is in a transaction exactly while scopes are open, and its
    savepoints are one for each of these but the outermost, numbered from there.  The depth it
    reports counts the open scopes.

    From there each operation on scopes reports the statements that it sends, which are those of
    its demand, or those up to one that is refused.  A statement that ends a savepoint or goes back
    to it names the innermost one of that moment.  A begin is always allowed, and the others while
    a scope is open; what is allowed fails only if a statement of it is refused.  An operation that
    fails leaves the depth and the savepoints alone, and a begin or a commit that fails leaves
    everything alone.  A rollback that succeeds brings back what was seen at the begin of its
    scope, and a begin and an inner commit publish nothing. -/
theorem scopes_nest {id : Nat} {t : Traced Cluster} (hid : id < t.state.sessions.length)
    (hfresh : t.state.session id = ⟨none, 0⟩) (moves : List Move)
    (hkept : ((Handle.start t).run id moves).lost = false) :
    let h := (Handle.start t).run id moves
    let c := h.now.state
    let depth := backend.depth id c
    depth = h.begun.length ∧ ((c.session id).connection.isSome = true ↔ 0 < depth) ∧
      c.savepointNames id = ((List.range' 1 (depth - 1)).map savepointName).reverse ∧
      ∀ d : Demand,
        let performed := d.toAction.perform backend id h.now
        let went := performed.1.isOk
        let after := performed.2.state
        (went = true ↔ (d = .begin ∨ 0 < depth) ∧ c.LetsThrough (d.statements depth).length) ∧
        (∃ sent, sent <+: d.statements depth ∧ (went = true → sent = d.statements depth) ∧
          performed.2.events = (sent.map fun s => Report.scope s depth).reverse ++ h.now.events ∧
          ∀ before s, before ++ [s] <+: sent → ∀ name, s.target? = some name →
            ((before.forM (Cluster.scope id d.context) h.now).2.state.savepointNames id).head? =
              some name) ∧
        backend.depth id after = (if went then d.depthAfter depth else depth) ∧
        (went = false → after.savepointNames id = c.savepointNames id ∧
          (d ≠ .rollback → after = { c with refusals := after.refusals })) ∧
        (went = true → d = .rollback → h.begun.head? = some (after.view id)) ∧
        (went = true → d = .begin ∨ d = .commit ∧ 1 < depth →
          after.shared = c.shared ∧ ∀ other, after.view other = c.view other) := by
  intro h c depth
  obtain ⟨hlt, hnests⟩ := Handle.Sound.run (fun _ => .start hid hfresh) moves hkept
  refine ⟨hnests.depth, hnests.isSome_connection, hnests.savepointNames, fun d => ?_⟩
  intro performed went after
  have hasked : Asked id d h.begun h.now went performed.2 := asked hlt hnests d
  have hdepth : backend.depth id after = (if went then d.depthAfter depth else depth) := by
    show (after.session id).depth = _
    rw [hasked.nests.depth]
    cases went with
    | false => exact hnests.depth.symm
    | true =>
      rw [if_pos rfl, if_pos rfl, Demand.length_begunAfter, ← hnests.depth]
      rfl
  refine ⟨hasked.went_iff, hasked.sent, hdepth,
    fun hwent => ⟨?_, hasked.failed hwent⟩, hasked.back, hasked.quiet⟩
  show (after.session id).connection.savepointNames = (c.session id).connection.savepointNames
  have hsame : (after.session id).depth = (c.session id).depth :=
    hdepth.trans (if_neg (hwent ▸ Bool.false_ne_true))
  rw [hasked.nests.savepointNames, hsame, hnests.savepointNames]

/-- Three scopes, each with an item added.  The begin of a fourth is refused, and so is the second
    statement of a rollback, which is then asked for once more. -/
theorem scopes_nest_of_items :
    let item : Schema := ⟨"Item", [.ofMarks "id" .int [.key, .auto]]⟩
    let refused : AccessError := .io "disk"
    let created := (Cluster.create 0 ⟨"c", [item]⟩ ⟨Cluster.start, []⟩).2
    let t : Traced Cluster := { created with
      state := { created.state with
        refusals := [none, none, none, some refused, none, some refused] } }
    let inside : List Move := [.scope .begin, .rows (.add item [.empty]) none]
    let moves := inside ++ inside ++ inside ++ [.scope .begin, .scope .rollback]
    let h := (Handle.start t).run 0 moves
    let rolled := Demand.rollback.toAction.perform backend 0 h.now
    0 < t.state.sessions.length ∧ t.state.session 0 = ⟨none, 0⟩ ∧ h.lost = false ∧
      backend.depth 0 h.now.state = 3 ∧ h.now.state.savepointNames 0 = ["sp_2", "sp_1"] ∧
      rolled.1.isOk = true ∧ backend.depth 0 rolled.2.state = 2 ∧
      h.begun.head? = some (rolled.2.state.view 0) := by
  intro item refused created t inside moves h rolled
  have hid : 0 < t.state.sessions.length := by decide +kernel
  have hfresh : t.state.session 0 = ⟨none, 0⟩ := by decide +kernel
  have hkept : ((Handle.start t).run 0 moves).lost = false := by decide +kernel
  have hdepth : backend.depth 0 h.now.state = 3 := by decide +kernel
  have hrefusals : h.now.state.refusals = [] := by decide +kernel
  have hmain := scopes_nest hid hfresh moves hkept
  -- What follows does not look into the moves.
  clear_value moves
  obtain ⟨-, -, hnames, hall⟩ := hmain
  obtain ⟨hwent, -, hafter, -, hback, -⟩ := hall .rollback
  have hnames : h.now.state.savepointNames 0 = _ := hnames
  rw [hdepth] at hnames hafter
  have hlets (n : Nat) : h.now.state.LetsThrough n := by
    intro refusal hmem
    rw [hrefusals, List.take_nil] at hmem
    cases hmem
  have hsucceeds : rolled.1.isOk = true :=
    hwent.2 ⟨.inr (by rw [hdepth]; decide), hlets _⟩
  exact ⟨hid, hfresh, hkept, hdepth, hnames.trans (by decide +kernel), hsucceeds,
    hafter.trans (if_pos hsucceeds), hback hsucceeds rfl⟩

end Sqlite

end ModelMapper
