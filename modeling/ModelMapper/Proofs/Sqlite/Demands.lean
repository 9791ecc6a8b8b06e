import ModelMapper.Proofs.Result
import ModelMapper.Proofs.Sqlite.Working

/-! # Scopes, statement by statement

A session opens and ends scopes by statements, and the engine may refuse each of these.

* `Demand` — a begin, a commit or a rollback, with its statements at a depth.
* `Connection.runAll` — statements that a connection takes, one after the other.
* `Cluster.forM_scope` — a session sends all of them, or those up to one that is refused.
* `Demand.perform_eq` — the operation of the backend sends the statements and counts.
* `Handle` — a session at work: the cluster, and what it saw at each begin.
* `Handle.run` — a run of demands and of operations on rows.
-/

namespace ModelMapper

namespace Sqlite

open Sql (savepointName)

/-- The savepoint that a statement ends or goes back to. -/
def Scope.target? : Scope → Option String
  | release name | rollbackTo name => some name
  | begin | commit | rollback | savepoint _ => none

/-! ## Demands -/

/-- What is asked of the scopes of a session. -/
inductive Demand where
  | begin
  | commit
  | rollback
deriving DecidableEq

namespace Demand

variable {d : Demand} {depth : Nat} {s : Scope}

def toAction : Demand → Action
  | begin => .begin
  | commit => .commit
  | rollback => .rollback

def context : Demand → String
  | begin => "begin failed"
  | commit => "commit failed"
  | rollback => "rollback failed"

/-- The statements for a demand at a depth.  Where no scope is open, there is none to end. -/
def statements : Demand → Nat → List Scope
  | begin, 0 => [.begin]
  | begin, n + 1 => [.savepoint (savepointName (n + 1))]
  | commit, 0 => []
  | commit, 1 => [.commit]
  | commit, n + 2 => [.release (savepointName (n + 1))]
  | rollback, 0 => []
  | rollback, 1 => [.rollback]
  | rollback, n + 2 => [.rollbackTo (savepointName (n + 1)), .release (savepointName (n + 1))]

/-- Only the end of an inner scope names a savepoint, by the depth. -/
theorem target_eq {name : String} (hmem : s ∈ d.statements depth)
    (hname : s.target? = some name) : ∃ n, depth = n + 2 ∧ name = savepointName (n + 1) := by
  unfold statements at hmem
  split at hmem
  case h_5 n =>
    cases List.mem_singleton.1 hmem
    cases hname
    exact ⟨n, rfl, rfl⟩
  case h_8 n =>
    rcases List.mem_pair.1 hmem with rfl | rfl
    · cases hname
      exact ⟨n, rfl, rfl⟩
    · cases hname
      exact ⟨n, rfl, rfl⟩
  case h_3 | h_6 => cases hmem
  all_goals
    cases List.mem_singleton.1 hmem
    cases hname

/-- Only a rollback of an inner scope has a statement behind another one. -/
theorem statements_cut {done rest : List Scope} (h : d.statements depth = done ++ s :: rest) :
    done = [] ∨ d = .rollback ∧
      ∃ n, depth = n + 2 ∧ done = [.rollbackTo (savepointName (n + 1))] := by
  cases done with
  | nil => exact .inl rfl
  | cons first between =>
    have hlength := congrArg List.length h
    rw [List.length_append, List.length_cons, List.length_cons] at hlength
    unfold statements at h hlength
    split at h
    case h_8 n =>
      refine .inr ⟨rfl, n, rfl, ?_⟩
      cases between with
      | nil =>
        cases h
        rfl
      | cons second between =>
        simp only [List.length_cons, List.length_nil] at hlength
        omega
    all_goals
      simp only [List.length_cons, List.length_nil] at hlength
      omega

def depthAfter (d : Demand) (depth : Nat) : Nat :=
  match d with
  | begin => depth + 1
  | commit | rollback => depth - 1

/-- What was seen at the begin of each open scope, with `seen` in sight now. -/
def begunAfter (d : Demand) (seen : Database) (begun : List Database) : List Database :=
  match d with
  | begin => seen :: begun
  | commit | rollback => begun.tail

theorem length_begunAfter (d : Demand) (seen : Database) (begun : List Database) :
    (d.begunAfter seen begun).length = d.depthAfter begun.length := by
  cases d with
  | begin => rfl
  | commit | rollback => exact List.length_tail

end Demand

/-! ## Statements -/

/-- The names of the open savepoints, the innermost first. -/
def Connection.savepointNames (c : Connection) : List String :=
  ((c.map OpenTransaction.savepoints).getD []).map Prod.fst

/-- Statements that a connection takes one after the other: the connection and the shared database
    after them. -/
def Connection.runAll (c : Connection) (shared : Database) (statements : List Scope) :
    Outcome (Connection × Database) :=
  statements.foldlM (fun now s => run now.1 now.2 s) (c, shared)

namespace Cluster

variable {c : Cluster} {id n m : Nat} {t : Traced Cluster} {connection : Connection}
  {shared : Database}

def savepointNames (c : Cluster) (id : Nat) : List String :=
  (c.session id).connection.savepointNames

/-- The next statements on scopes are let through, as many as `n`. -/
def LetsThrough (n : Nat) (c : Cluster) : Prop := ∀ refusal ∈ c.refusals.take n, refusal = none

theorem LetsThrough.mono (h : c.LetsThrough n) (hle : m ≤ n) : c.LetsThrough m :=
  fun refusal hmem => h refusal ((List.take_subset_take_left c.refusals hle) hmem)

theorem letsThrough_succ : c.LetsThrough (n + 1) ↔ c.refusal? = none ∧ c.pass.LetsThrough n := by
  unfold LetsThrough refusal? pass
  cases c.refusals with
  | nil => simp
  | cons refusal rest => simp

/-! ### Sessions -/

/-- The cluster after a session has come to another connection and depth. -/
def settle (c : Cluster) (id : Nat) (connection : Connection) (depth : Nat) (shared : Database) :
    Cluster :=
  ({ c with shared := shared }).setSession id ⟨connection, depth⟩

theorem session_settle (hid : id < c.sessions.length) (connection : Connection) (depth : Nat)
    (shared : Database) :
    (c.settle id connection depth shared).session id = ⟨connection, depth⟩ :=
  session_setSession_self (c := { c with shared := shared }) hid _

theorem view_settle (hid : id < c.sessions.length) (connection : Connection) (depth : Nat)
    (shared : Database) :
    (c.settle id connection depth shared).view id = connection.view shared := by
  rw [view, session_settle hid]
  rfl

/-- Another session sees the shared database as it is after that, or its own transaction. -/
theorem view_settle_of_ne {other : Nat} (hne : id ≠ other) (connection : Connection)
    (depth : Nat) : (c.settle id connection depth c.shared).view other = c.view other := by
  rw [view, view, settle, session, setSession, List.getElem?_set_ne hne]
  rfl

/-- Where the shared database stays and the session sees what it saw, so do all. -/
theorem view_settle_same (hid : id < c.sessions.length) (connection : Connection)
    (hview : connection.view c.shared = c.view id) (depth other : Nat) :
    (c.settle id connection depth c.shared).view other = c.view other := by
  by_cases hne : id = other
  · rw [← hne, view_settle hid, hview]
  · exact view_settle_of_ne hne connection depth

theorem session_eq_of {connection : Connection} {depth : Nat}
    (hconnection : (c.session id).connection = connection) (hdepth : c.depth id = depth) :
    c.session id = ⟨connection, depth⟩ := by
  subst hconnection hdepth
  rfl

theorem settle_self (hid : id < c.sessions.length) :
    c.settle id (c.session id).connection (c.depth id) c.shared = c := by
  have hself : c.session id = c.sessions[id] := by
    rw [session, List.getElem?_eq_getElem hid, Option.getD_some]
  show { c with sessions := c.sessions.set id (c.session id) } = c
  rw [hself, List.set_getElem_self]

theorem setDepth_settle (hid : id < c.sessions.length) (connection : Connection)
    (depth depth' : Nat) (shared : Database) :
    (c.settle id connection depth shared).setDepth id depth' =
      c.settle id connection depth' shared := by
  rw [setDepth, session_settle hid]
  unfold settle setSession
  dsimp only
  rw [List.set_set]

theorem settle_settle (c : Cluster) (id : Nat) (connection connection' : Connection)
    (depth depth' : Nat) (shared shared' : Database) :
    (c.settle id connection depth shared).settle id connection' depth' shared' =
      c.settle id connection' depth' shared' := by
  unfold settle setSession
  dsimp only
  rw [List.set_set]

/-! ### Statements of a session -/

theorem runScope_refused {e : AccessError} (h : c.refusal? = some e) (context : String)
    (s : Scope) : c.runScope id context s =
      (.error ((e.toError context).intoTransaction context), c.pass) := by
  unfold runScope
  rw [h]

theorem runScope_taken {s : Scope} (h : c.refusal? = none)
    (hrun : (c.session id).connection.run c.shared s = .ok (connection, shared))
    (context : String) :
    c.runScope id context s = (.ok (), c.pass.settle id connection (c.depth id) shared) := by
  unfold runScope
  dsimp only
  rw [h]
  dsimp only
  rw [hrun]
  rfl

/-- A statement is reported before it runs. -/
theorem run_scope (id : Nat) (context : String) (s : Scope) (t : Traced Cluster) :
    scope id context s t = ((t.state.runScope id context s).1.mapError Failure.error,
      ⟨(t.state.runScope id context s).2, Report.scope s (t.state.depth id) :: t.events⟩) := by
  show Call.step (fun c => c.runScope id context s) ⟨t.state, _⟩ = _
  exact Prod.ext (Call.outcome_step _ _) (Call.state_step _ _)

/-- The cluster after a number of statements, with nothing but the refusals for them used up. -/
def passing (c : Cluster) (n : Nat) : Cluster := { c with refusals := c.refusals.drop n }

/-- What is left when statements have been sent, with the connection and the shared database after
    them.  Each has been reported, and has had its place among the refusals. -/
def sending (id : Nat) (sent : List Scope) (connection : Connection) (shared : Database)
    (t : Traced Cluster) : Traced Cluster :=
  ⟨(t.state.passing sent.length).settle id connection (t.state.depth id) shared,
    (sent.map fun s => Report.scope s (t.state.depth id)).reverse ++ t.events⟩

theorem session_sending (hid : id < t.state.sessions.length) (sent : List Scope)
    (connection : Connection) (shared : Database) :
    (sending id sent connection shared t).state.session id = ⟨connection, t.state.depth id⟩ :=
  session_settle (c := t.state.passing sent.length) hid _ _ _

theorem depth_sending (hid : id < t.state.sessions.length) (sent : List Scope)
    (connection : Connection) (shared : Database) :
    (sending id sent connection shared t).state.depth id = t.state.depth id := by
  rw [depth, session_sending hid]

theorem sending_nil (hid : id < t.state.sessions.length) :
    sending id [] (t.state.session id).connection t.state.shared t = t := by
  show (⟨t.state.settle id _ _ _, t.events⟩ : Traced Cluster) = t
  rw [settle_self hid]

theorem sending_cons (hid : id < t.state.sessions.length) (s : Scope) (sent : List Scope)
    (connection connection' : Connection) (shared shared' : Database) :
    sending id sent connection' shared' (sending id [s] connection shared t) =
      sending id (s :: sent) connection' shared' t := by
  have hpassing : (t.state.passing 1).passing sent.length = t.state.passing (s :: sent).length := by
    unfold passing
    rw [List.drop_drop, Nat.add_comm]
    rfl
  have hstate : ((sending id [s] connection shared t).state.passing sent.length).settle id
      connection' (t.state.depth id) shared' =
        (t.state.passing (s :: sent).length).settle id connection' (t.state.depth id) shared' := by
    rw [← hpassing]
    exact settle_settle ((t.state.passing 1).passing sent.length) id _ _ _ _ _ _
  rw [sending, depth_sending hid, hstate]
  show (⟨_, (sent.map _).reverse ++ ([_] ++ t.events)⟩ : Traced Cluster) = _
  rw [← List.append_assoc, ← List.reverse_cons]
  rfl

/-- A statement that the connection takes is refused or let through. -/
theorem scope_cases (hid : id < t.state.sessions.length) (context : String) {s : Scope}
    (hrun : (t.state.session id).connection.run t.state.shared s = .ok (connection, shared)) :
    (t.state.refusal? = none ∧
        scope id context s t = (.ok (), sending id [s] connection shared t)) ∨
      (t.state.refusal? ≠ none ∧ ∃ e, scope id context s t =
        (.error e, sending id [s] (t.state.session id).connection t.state.shared t)) := by
  have hpass : t.state.pass = t.state.passing 1 := by
    rw [pass, passing, List.drop_one]
  rw [run_scope]
  cases hrefusal : t.state.refusal? with
  | none =>
    refine .inl ⟨rfl, ?_⟩
    rw [runScope_taken hrefusal hrun, hpass]
    rfl
  | some e =>
    refine .inr ⟨nofun, .error ((e.toError context).intoTransaction context), ?_⟩
    have hself : (t.state.passing 1).settle id (t.state.session id).connection (t.state.depth id)
        t.state.shared = t.state.passing 1 := settle_self (c := t.state.passing 1) hid
    rw [runScope_refused hrefusal, hpass, ← hself]
    rfl

/-- Statements that the connection takes are all sent, or those up to one that is refused. -/
theorem forM_scope (hid : id < t.state.sessions.length) (context : String)
    {statements : List Scope}
    (hruns : (t.state.session id).connection.runAll t.state.shared statements =
      .ok (connection, shared)) :
    (t.state.LetsThrough statements.length ∧ statements.forM (scope id context) t =
        (.ok (), sending id statements connection shared t)) ∨
      ∃ done s rest connection' shared', statements = done ++ s :: rest ∧
        t.state.LetsThrough done.length ∧ ¬t.state.LetsThrough (done.length + 1) ∧
        (t.state.session id).connection.runAll t.state.shared done = .ok (connection', shared') ∧
        ∃ e, statements.forM (scope id context) t =
          (.error e, sending id (done ++ [s]) connection' shared' t) := by
  have hnone (c : Cluster) : c.LetsThrough 0 := fun _ hmem => absurd hmem List.not_mem_nil
  -- The other statements are sent from where the first one has left the session.
  induction statements generalizing t with
  | nil =>
    cases hruns
    refine .inl ⟨hnone _, ?_⟩
    rw [sending_nil hid]
    rfl
  | cons s rest ih =>
    obtain ⟨⟨first, shared₁⟩, hrun, hrest⟩ := Result.bind_eq_ok.1 hruns
    have hforM : (s :: rest).forM (scope id context) t =
        (scope id context s >>= fun _ => rest.forM (scope id context)) t := rfl
    rw [hforM, Call.run_bind]
    rcases scope_cases hid context hrun with ⟨hrefusal, hscope⟩ | ⟨hrefusal, e, hscope⟩
    · rw [hscope]
      dsimp only
      let next := sending id [s] first shared₁ t
      have hlt : id < next.state.sessions.length :=
        (length_setSession (t.state.passing 1) id _).symm ▸ hid
      -- One of the refusals is used up.
      have hlets (n : Nat) : next.state.LetsThrough n ↔ t.state.LetsThrough (n + 1) := by
        rw [letsThrough_succ, pass, ← List.drop_one]
        exact (and_iff_right hrefusal).symm
      have hagain : (next.state.session id).connection.runAll next.state.shared rest =
          .ok (connection, shared) := by
        rw [session_sending hid]
        exact hrest
      rcases ih hlt hagain with ⟨hthrough, hok⟩ | ⟨done, s', rest', connection', shared', rfl,
        hdone, hstop, hpart, e, herror⟩
      · refine .inl ⟨(hlets _).1 hthrough, ?_⟩
        rw [hok, sending_cons hid]
      · refine .inr ⟨s :: done, s', rest', connection', shared', rfl, (hlets _).1 hdone,
          fun h => hstop ((hlets _).2 h), ?_, e, ?_⟩
        · rw [session_sending hid] at hpart
          exact Result.bind_eq_ok.2 ⟨_, hrun, hpart⟩
        · rw [herror, sending_cons hid]
          rfl
    · rw [hscope]
      refine .inr ⟨[], s, rest, _, _, rfl, hnone _, fun h => hrefusal (letsThrough_succ.1 h).1, rfl,
        e, rfl⟩

end Cluster

/-! ## The operations of the backend -/

namespace Demand

variable {d : Demand} {id : Nat} {t after : Traced Cluster}

/-- The statements for a demand, and the depth after them. -/
def carryOut (id : Nat) (d : Demand) (depth : Nat) : Call Cluster Unit := do
  (d.statements depth).forM (Cluster.scope id d.context)
  Call.modifyState fun c => c.setDepth id (d.depthAfter depth)

theorem carryOut_one {depth : Nat} {s : Scope} (h : d.statements depth = [s]) :
    carryOut id d depth = (do
      Cluster.scope id d.context s
      Call.modifyState fun c => c.setDepth id (d.depthAfter depth)) := by
  have hone : [s].forM (Cluster.scope id d.context) = Cluster.scope id d.context s :=
    bind_pure_unit
  rw [carryOut, h, hone]

theorem carryOut_two {depth : Nat} {s s' : Scope} (h : d.statements depth = [s, s']) :
    carryOut id d depth = (do
      Cluster.scope id d.context s
      Cluster.scope id d.context s'
      Call.modifyState fun c => c.setDepth id (d.depthAfter depth)) := by
  have htwo : [s, s'].forM (Cluster.scope id d.context) =
      Cluster.scope id d.context s >>= fun _ => Cluster.scope id d.context s' :=
    bind_congr fun _ => bind_pure_unit
  rw [carryOut, h, htwo, bind_assoc]

theorem begin_eq (id : Nat) (t : Traced Cluster) :
    Cluster.begin id t = carryOut id .begin (t.state.depth id) t := by
  rw [Cluster.begin, Call.run_state]
  cases t.state.depth id with
  | zero =>
    rw [carryOut_one rfl]
    rfl
  | succ n =>
    rw [carryOut_one rfl]
    rfl

theorem commit_eq (id : Nat) (t : Traced Cluster) :
    Cluster.commit id t = (if 0 < t.state.depth id then carryOut id .commit (t.state.depth id)
      else Call.fail Cluster.noTransaction) t := by
  rw [Cluster.commit, Call.run_state]
  rcases t.state.depth id with - | - | n
  · rfl
  · rw [if_pos (Nat.succ_pos _), carryOut_one rfl]
    rfl
  · rw [if_pos (Nat.succ_pos _), carryOut_one rfl]
    rfl

theorem rollback_eq (id : Nat) (t : Traced Cluster) :
    Cluster.rollback id t = (if 0 < t.state.depth id then carryOut id .rollback (t.state.depth id)
      else Call.fail Cluster.noTransaction) t := by
  rw [Cluster.rollback, Call.run_state]
  rcases t.state.depth id with - | - | n
  · rfl
  · rw [if_pos (Nat.succ_pos _), carryOut_one rfl]
    rfl
  · rw [if_pos (Nat.succ_pos _), carryOut_two rfl]
    rfl

/-- The operation of the backend carries a demand out where it is allowed. -/
theorem perform_eq (d : Demand) (id : Nat) (t : Traced Cluster) :
    d.toAction.perform backend id t =
      ((if d = .begin ∨ 0 < t.state.depth id then carryOut id d (t.state.depth id)
        else Call.fail Cluster.noTransaction) >>= fun _ => pure Yield.nothing) t := by
  have answering {x y : Call Cluster Unit} (h : x t = y t) :
      (x >>= fun _ => pure Yield.nothing) t = (y >>= fun _ => pure Yield.nothing) t := by
    rw [Call.run_bind, Call.run_bind, h]
  cases d with
  | begin =>
    rw [if_pos (.inl rfl)]
    exact answering (begin_eq id t)
  | commit =>
    simp only [reduceCtorEq, false_or]
    exact answering (commit_eq id t)
  | rollback =>
    simp only [reduceCtorEq, false_or]
    exact answering (rollback_eq id t)

/-- The statements are all sent, and the depth is counted behind them. -/
theorem perform_through (hallowed : d = .begin ∨ 0 < t.state.depth id)
    (hsent : (d.statements (t.state.depth id)).forM (Cluster.scope id d.context) t =
      (.ok (), after)) :
    d.toAction.perform backend id t = (.ok .nothing,
      ⟨after.state.setDepth id (d.depthAfter (t.state.depth id)), after.events⟩) := by
  rw [perform_eq, if_pos hallowed, Call.run_bind, carryOut, Call.run_bind, hsent]
  rfl

/-- A statement that is refused ends the operation, with the depth as it was. -/
theorem perform_stopped {e : Failure} (hallowed : d = .begin ∨ 0 < t.state.depth id)
    (hsent : (d.statements (t.state.depth id)).forM (Cluster.scope id d.context) t =
      (.error e, after)) :
    d.toAction.perform backend id t = (.error e, after) := by
  rw [perform_eq, if_pos hallowed, Call.run_bind, carryOut, Call.run_bind, hsent]

theorem perform_nothing (h : ¬(d = .begin ∨ 0 < t.state.depth id)) :
    d.toAction.perform backend id t = (.error (.error Cluster.noTransaction), t) := by
  rw [perform_eq, if_neg h]
  rfl

end Demand

/-! ## Handles -/

/-- The cluster in the hands of one session, with what has been reported. -/
structure Handle where
  now : Traced Cluster
  /-- What the session saw at the begin of each scope that is open, the innermost first. -/
  begun : List Database
  /-- Whether the engine has given up a transaction by itself. -/
  lost : Bool

/-- A move of the session: on its scopes or on rows.  The cluster says which statements on scopes
    are refused, and the move itself says it for those on rows. -/
inductive Move where
  | scope (d : Demand)
  | rows (a : RowAction) (refused : Option Nat)

namespace Handle

def start (t : Traced Cluster) : Handle := ⟨t, [], false⟩

/-- A demand on the scopes. -/
def ask (id : Nat) (d : Demand) (h : Handle) : Handle :=
  let performed := d.toAction.perform backend id h.now
  { h with
    now := performed.2
    begun := if performed.1.isOk then d.begunAfter (h.now.state.view id) h.begun else h.begun }

/-- An operation on rows. -/
def work (id : Nat) (a : RowAction) (h : Handle) : Handle :=
  let after := (a.toAction.perform backend id h.now).2
  { h with
    now := after
    lost := h.lost ||
      ((h.now.state.session id).connection.isSome &&
        (after.state.session id).connection.isNone) }

def play (id : Nat) (h : Handle) : Move → Handle
  | .scope d => h.ask id d
  | .rows a none => h.work id a
  | .rows a (some n) => ((a.before n).map fun done => h.work id done).getD h

def run (id : Nat) (h : Handle) (moves : List Move) : Handle := moves.foldl (play id) h

end Handle

end Sqlite

end ModelMapper
