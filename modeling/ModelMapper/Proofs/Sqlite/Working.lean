import ModelMapper.Backend.Action
import ModelMapper.Proofs.Backend.Runs
import ModelMapper.Sqlite.Backend

/-! # Work in a transaction

What the operations on rows do to the session they run on: they change the database it sees, and
nothing of its scopes, unless the engine gives up the whole transaction.

* `Cluster.Works` — such a change of a cluster.
* `Working` — a call that changes no more, whatever its outcome.
* `RowAction`, `RowAction.perform_works` — the operations on rows.
-/

namespace ModelMapper

namespace Sqlite

open Sql (Command)

namespace Cluster

variable {c c' c'' : Cluster} {id : Nat}

/-! ## Sessions -/

theorem session_setSession_self (hid : id < c.sessions.length) (s : Session) :
    (c.setSession id s).session id = s := by
  rw [session, setSession, List.getElem?_set_self hid, Option.getD_some]

theorem length_setSession (c : Cluster) (id : Nat) (s : Session) :
    (c.setSession id s).sessions.length = c.sessions.length :=
  List.length_set

/-- A session with a transaction is one of the cluster. -/
theorem lt_of_connection {t : OpenTransaction} (h : (c.session id).connection = some t) :
    id < c.sessions.length := by
  refine Nat.lt_of_not_le fun hge => ?_
  rw [session, List.getElem?_eq_none_iff.2 hge] at h
  cases h

/-! ## Changes -/

/-- The database that a session sees may have changed, and with it the shared one where no
    transaction is open.  The scopes are those from before, unless the transaction is gone. -/
structure Works (id : Nat) (c c' : Cluster) : Prop where
  length : c'.sessions.length = c.sessions.length
  depth : c'.depth id = c.depth id
  outside : (c.session id).connection = none → (c'.session id).connection = none
  inside : ∀ t, (c.session id).connection = some t → (c'.session id).connection = none ∨
    (∃ d, (c'.session id).connection = some { t with working := d }) ∧ c'.shared = c.shared

namespace Works

theorem refl (id : Nat) (c : Cluster) : Works id c c :=
  ⟨rfl, rfl, fun h => h, fun t h => .inr ⟨⟨t.working, h⟩, rfl⟩⟩

theorem trans (h : Works id c c') (h' : Works id c' c'') : Works id c c'' where
  length := h'.length.trans h.length
  depth := h'.depth.trans h.depth
  outside hnone := h'.outside (h.outside hnone)
  inside t ht := by
    rcases h.inside t ht with hgone | ⟨⟨d, hd⟩, hshared⟩
    · exact .inl (h'.outside hgone)
    · rcases h'.inside _ hd with hgone | ⟨⟨d', hd'⟩, hshared'⟩
      · exact .inl hgone
      · exact .inr ⟨⟨d', hd'⟩, hshared'.trans hshared⟩

theorem setView (c : Cluster) (id : Nat) (d : Database) : Works id c (c.setView id d) := by
  unfold Cluster.setView
  dsimp only
  cases hconnection : (c.session id).connection with
  | none => exact ⟨rfl, rfl, fun _ => hconnection, fun t ht => nomatch ht.symm.trans hconnection⟩
  | some t =>
    have hself := session_setSession_self (lt_of_connection hconnection)
      { c.session id with connection := some { t with working := d } }
    refine ⟨length_setSession _ _ _, ?_, fun h => ?_, fun t' ht => ?_⟩
    · exact (congrArg Session.depth hself :)
    · cases h.symm.trans hconnection
    · cases ht.symm.trans hconnection
      exact .inr ⟨⟨d, (congrArg Session.connection hself :)⟩, rfl⟩

theorem loseTransaction (c : Cluster) (id : Nat) : Works id c (c.loseTransaction id) := by
  by_cases hid : id < c.sessions.length
  · have hself := session_setSession_self hid { c.session id with connection := none }
    have hgone := congrArg Session.connection hself
    exact ⟨length_setSession _ _ _, (congrArg Session.depth hself :), fun _ => hgone,
      fun _ _ => .inl hgone⟩
  · have hsame : c.loseTransaction id = c := by
      rw [Cluster.loseTransaction, setSession,
        List.set_eq_of_length_le (Nat.le_of_not_lt hid)]
    rw [hsame]
    exact refl id c

theorem run (c : Cluster) (id : Nat) (context : String) (command : Command) :
    Works id c (c.run id context command).2 := by
  unfold Cluster.run
  cases (c.view id).execute command with
  | ok result => exact setView c id result.2
  | error e =>
    dsimp only
    split
    · exact loseTransaction c id
    · exact refl id c

end Works

end Cluster

/-! ## Calls -/

variable {α β : Type} {id : Nat}

/-- A call that changes the database its session sees, and nothing of its scopes. -/
def Working (id : Nat) (x : Call Cluster α) : Prop :=
  ∀ t : Traced Cluster, t.state.Works id (x t).2.state

namespace Working

theorem bind {x : Call Cluster α} {f : α → Call Cluster β} (hx : Working id x)
    (hf : ∀ a, Working id (f a)) : Working id (x >>= f) := by
  intro t
  have hfirst := hx t
  rw [Call.run_bind]
  revert hfirst
  rcases x t with ⟨outcome, after⟩
  cases outcome with
  | error e => exact fun hfirst => hfirst
  | ok a => exact fun hfirst => hfirst.trans (hf a after)

theorem pure (a : α) : Working id (Pure.pure a : Call Cluster α) := fun t => .refl id t.state

theorem ofResult (r : Result α) : Working id (Call.ofResult r : Call Cluster α) := by
  intro t
  rw [Call.state_ofResult]
  exact .refl id t.state

theorem call (id : Nat) (context : String) (command : Command) :
    Working id (Cluster.call id context command) :=
  .bind (fun t => .refl id t.state) fun _ t => by
    rw [Call.state_step]
    exact .run t.state id context command

theorem add (id : Nat) (s : Schema) (records : List Record) :
    Working id (Cluster.add id s records) := by
  induction records with
  | nil => exact pure _
  | cons r rest ih =>
    exact .bind (call _ _ _) fun _ => .bind (ofResult _) fun _ => .bind ih fun _ => pure _

end Working

/-! ## Operations on rows -/

inductive RowAction where
  | add (model : Schema) (records : List Record)
  | fetch (q : Query)
  | count (q : Query)
  | update (q : Query) (values : Record)
  | delete (q : Query)

namespace RowAction

def toAction : RowAction → Action
  | add model records => .add model records
  | fetch q => .fetch q
  | count q => .count q
  | update q values => .update q values
  | delete q => .delete q

/-- What is carried out of an operation whose `n`-th statement is refused: an addition has a
    statement for each record, the others have one. -/
def before (n : Nat) : RowAction → Option RowAction
  | add model records => some (add model (records.take n))
  | a => if n = 0 then none else some a

theorem perform_works (a : RowAction) (id : Nat) : Working id (a.toAction.perform backend id) := by
  cases a with
  | add model records => exact .bind (.add id model records) fun _ => .pure _
  | fetch q =>
    exact .bind (.bind (.ofResult _) fun _ => .bind (.call _ _ _) fun _ => .ofResult _)
      fun _ => .pure _
  | count q =>
    exact .bind (.bind (.ofResult _) fun _ => .bind (.call _ _ _) fun _ => .pure _)
      fun _ => .pure _
  | update q values =>
    exact .bind (.bind (.ofResult _) fun _ => .bind (.call _ _ _) fun _ => .pure _)
      fun _ => .pure _
  | delete q =>
    exact .bind (.bind (.ofResult _) fun _ => .bind (.call _ _ _) fun _ => .pure _)
      fun _ => .pure _

end RowAction

end Sqlite

end ModelMapper
