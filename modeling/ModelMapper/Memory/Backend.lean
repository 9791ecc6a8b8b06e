import ModelMapper.Backend.Basic
import ModelMapper.Memory.Cluster

/-! # The store in memory as a backend

The operations of a cluster with the events they report. Searches report their filter; a
scope reports the depth after it, and an outermost commit the number of its writes.
-/

namespace ModelMapper.Memory

namespace Report

def part : String := "driver::memory"

def search (f : Find) : Event :=
  ⟨.debug, part, "memory", [("collection", f.table), ("filter", f.filter.display)]⟩

def scope (message : String) (depth : Nat) : Event :=
  ⟨.debug, part, message, [("depth", toString depth)]⟩

def commit (depth changes : Nat) : Event :=
  ⟨.debug, part, "memory commit", [("depth", toString depth), ("changes", toString changes)]⟩

def create (c : Catalog) : Event :=
  ⟨.info, part, "creating " ++ toString c.size ++ " collections for " ++ c.name, []⟩

end Report

namespace Cluster

def tracedFetch (id : Nat) (q : Query) : Call Cluster (List Record) := do
  let f ← Call.ofResult q.toFind
  Call.emit (Report.search f)
  Call.read fun c => c.search id q.model f

def tracedBegin (id : Nat) : Call Cluster Unit := do
  Call.modifyState fun c => c.begin id
  Call.emit (Report.scope "memory begin" ((← Call.state).depth id))

def tracedCommit (id : Nat) : Call Cluster Unit := do
  let before := (← Call.state).session id
  Call.step fun c => c.commit id
  match before with
  | some ⟨_, log, []⟩ => Call.emit (Report.commit 0 log.length)
  | _ => Call.emit (Report.scope "memory release savepoint" ((← Call.state).depth id))

def tracedRollback (id : Nat) : Call Cluster Unit := do
  Call.step fun c => c.rollback id
  Call.emit (Report.scope "memory rollback" ((← Call.state).depth id))

end Cluster

def backend : Backend Cluster where
  name := "memory"
  add id schema records := Call.step fun c => c.add id schema records
  fetch := Cluster.tracedFetch
  count id q := Call.read fun c => c.count id q
  update id q values := Call.step fun c => c.update id q values
  delete id q := Call.step fun c => c.delete id q
  begin := Cluster.tracedBegin
  commit := Cluster.tracedCommit
  rollback := Cluster.tracedRollback
  depth id c := c.depth id
  create id catalog := do
    Call.emit (Report.create catalog)
    Call.step fun c => c.create id catalog
  drop id catalog := Call.step fun c => c.drop id catalog
  openSession _ := Call.step fun c => (.ok c.openSession.1, c.openSession.2)
  ping _ := pure ()
  close id := Call.modifyState fun c => c.close id

end ModelMapper.Memory
