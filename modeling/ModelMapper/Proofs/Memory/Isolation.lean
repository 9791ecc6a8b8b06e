import ModelMapper.Proofs.Backend.Simulation
import ModelMapper.Proofs.Memory.Journal
import ModelMapper.Proofs.Memory.Steps

/-! # Isolation of sessions

A cluster answers every run as a journal does: its shared store is what the published writes
lead to, and the private copy of a session what its draft leads to.

The invariant `Cluster.Agrees` ties the stores, the list of writes and the savepoints of every
session to the journal.  A write keeps it because the change that is noted leads to the store
that was written (`Store.apply_insert`), an inner rollback because each savepoint knows the
store and the number of writes of its scope, and an outermost commit because applying a list of
writes to the shared store is applying it after the published ones.
-/

namespace ModelMapper.Memory

/-! ## The invariant -/

/-- Each savepoint has the store and the number of writes of the scopes around it. -/
def SavedAs (base : List Change) : List (Store × Nat) → List (List Change) → Prop
  | [], [] => True
  | (store, length) :: saved, current :: outer =>
    Change.applyAll .empty (base ++ Draft.inOrder (current :: outer)) = .ok store ∧
      length = (Draft.inOrder (current :: outer)).length ∧ SavedAs base saved outer
  | _, _ => False

structure Transaction.Agrees (t : Transaction) (d : Draft) : Prop where
  working : Change.applyAll .empty d.visible = .ok t.working
  log : t.log = d.writes
  savepoints : SavedAs d.base t.savepoints d.outer

inductive SessionAgrees : Session → Option Draft → Prop where
  | idle : SessionAgrees none none
  | active {t : Transaction} {d : Draft} (h : t.Agrees d) : SessionAgrees (some t) (some d)

/-- The stores of the cluster are what the writes of the journal lead to. -/
structure Cluster.Agrees (c : Cluster) (j : Journal) : Prop where
  shared : Change.applyAll .empty j.published = .ok c.shared
  sequences : c.sequences = j.sequences
  length : c.sessions.length = j.drafts.length
  sessions : ∀ id, SessionAgrees (c.session id) (j.draft id)

theorem Cluster.agrees_start : start.Agrees .start where
  shared := rfl
  sequences := rfl
  length := rfl
  sessions
    | 0 => .idle
    | _ + 1 => .idle

namespace Draft

theorem inOrder_cons (current : List Change) (outer : List (List Change)) :
    inOrder (current :: outer) = inOrder outer ++ current := by
  simp [inOrder]

theorem writes_eq (d : Draft) : d.writes = inOrder d.outer ++ d.current :=
  inOrder_cons d.current d.outer

/-- A write is the last of the session's own. -/
theorem writes_snoc (d : Draft) (change : Change) :
    ({ d with current := d.current ++ [change] } : Draft).writes = d.writes ++ [change] := by
  rw [writes_eq, writes_eq, List.append_assoc]

theorem visible_snoc (d : Draft) (change : Change) :
    ({ d with current := d.current ++ [change] } : Draft).visible = d.visible ++ [change] := by
  rw [visible, writes_snoc, visible, List.append_assoc]

end Draft

theorem SavedAs.length {base : List Change} : ∀ {saved : List (Store × Nat)}
    {outer : List (List Change)}, SavedAs base saved outer → saved.length = outer.length
  | [], [], _ => rfl
  | _ :: _, _ :: _, h => congrArg (· + 1) h.2.2.length

namespace Cluster.Agrees

variable {c : Cluster} {j : Journal}

/-! ## What a session sees -/

theorem session_cases (h : c.Agrees j) (id : Nat) :
    (c.session id = none ∧ j.draft id = none) ∨
      ∃ t d, c.session id = some t ∧ j.draft id = some d ∧ t.Agrees d := by
  have hsession := h.sessions id
  generalize c.session id = s at hsession ⊢
  generalize j.draft id = d at hsession ⊢
  cases hsession with
  | idle => exact .inl ⟨rfl, rfl⟩
  | active ht => exact .inr ⟨_, _, rfl, rfl, ht⟩

/-- The store a session sees is what the writes it sees lead to. -/
theorem seen (h : c.Agrees j) (id : Nat) :
    Change.applyAll .empty (j.seen id) = .ok (c.view id) := by
  unfold Journal.seen Cluster.view
  rcases h.session_cases id with ⟨hs, hd⟩ | ⟨t, d, hs, hd, ht⟩
  · rw [hs, hd]
    exact h.shared
  · rw [hs, hd]
    exact ht.working

theorem view (h : c.Agrees j) (id : Nat) : j.view id = c.view id := by
  rw [Journal.view, Journal.replay, h.seen id]

theorem depth (h : c.Agrees j) (id : Nat) : c.depth id = j.depth id := by
  unfold Cluster.depth Journal.depth
  rcases h.session_cases id with ⟨hs, hd⟩ | ⟨t, d, hs, hd, ht⟩
  · rw [hs, hd]
    rfl
  · rw [hs, hd]
    exact congrArg (· + 1) ht.savepoints.length

theorem sequence (h : c.Agrees j) (table : String) : c.sequence table = j.sequence table := by
  rw [Cluster.sequence, Journal.sequence, h.sequences]

/-! ## Sessions -/

theorem set (h : c.Agrees j) (id : Nat) {s : Session} {d : Option Draft}
    (hs : SessionAgrees s d) : (c.setSession id s).Agrees (j.setDraft id d) where
  shared := h.shared
  sequences := h.sequences
  length := by simp [Cluster.setSession, Journal.setDraft, h.length]
  sessions other := by
    show SessionAgrees ((c.sessions.set id s)[other]?).join ((j.drafts.set id d)[other]?).join
    rw [join_set, join_set, h.length]
    split
    · exact hs
    · exact h.sessions other

/-! ## Writes -/

/-- A write that is noted as a change with the same effect keeps cluster and journal in step. -/
theorem write {α : Type} (h : c.Agrees j) (id : Nat) (f : Store → Result (α × Store))
    (change : α → Change)
    (hchange : ∀ store a after, f store = .ok (a, after) →
      Change.apply store (change a) = .ok after) :
    (c.write id f change).1 = (j.write id f change).1 ∧
      (c.write id f change).2.Agrees (j.write id f change).2 := by
  rw [Journal.write, h.view id]
  unfold Cluster.write Cluster.view Journal.record
  rcases h.session_cases id with ⟨hs, hd⟩ | ⟨t, d, hs, hd, ht⟩
  · rw [hs, hd]
    dsimp only
    cases hf : f c.shared with
    | error e => exact ⟨rfl, h⟩
    | ok pair =>
      -- Outside a transaction the change is published at once.
      obtain ⟨a, after⟩ := pair
      refine ⟨rfl, ?_⟩
      exact { h with shared := Change.applyAll_snoc h.shared (hchange _ _ _ hf) }
  · rw [hs, hd]
    dsimp only
    cases hf : f t.working with
    | error e => exact ⟨rfl, h⟩
    | ok pair =>
      obtain ⟨a, after⟩ := pair
      refine ⟨rfl, h.set id (.active { working := ?_, log := ?_, savepoints := ht.savepoints })⟩
      · rw [Draft.visible_snoc]
        exact Change.applyAll_snoc ht.working (hchange _ _ _ hf)
      · rw [Draft.writes_snoc, ht.log]

theorem add (h : c.Agrees j) (id : Nat) (schema : Schema) (records : List Record) :
    (c.add id schema records).1 = (j.add id schema records).1 ∧
      (c.add id schema records).2.Agrees (j.add id schema records).2 := by
  rw [Cluster.add, Journal.add, h.sequence]
  cases records.mapM schema.encode with
  | error e => exact ⟨rfl, h⟩
  | ok documents =>
    dsimp only
    obtain ⟨houtcome, hafter⟩ := h.write id
      (fun store => store.insert schema documents (j.sequence schema.table))
      (fun written => .insert schema written.1) fun _ _ _ hf => Store.apply_insert hf
    generalize c.write id _ _ = written at houtcome hafter ⊢
    generalize j.write id _ _ = noted at houtcome hafter ⊢
    obtain ⟨outcome, c'⟩ := written
    obtain ⟨_, j'⟩ := noted
    cases houtcome
    cases outcome with
    | error e => exact ⟨rfl, hafter⟩
    | ok pair =>
      refine ⟨rfl, { hafter with sequences := ?_ }⟩
      exact congrArg (Entries.put schema.table pair.2) hafter.sequences

theorem update (h : c.Agrees j) (id : Nat) (q : Query) (values : Record) :
    (c.update id q values).1 = (j.update id q values).1 ∧
      (c.update id q values).2.Agrees (j.update id q values).2 := by
  rw [Cluster.update, Journal.update]
  cases q.toFilter with
  | error e => exact ⟨rfl, h⟩
  | ok filter =>
    cases Cluster.changes q values with
    | error e => exact ⟨rfl, h⟩
    | ok assigned => exact h.write id _ _ fun _ _ _ hf => Change.apply_update hf

theorem delete (h : c.Agrees j) (id : Nat) (q : Query) :
    (c.delete id q).1 = (j.delete id q).1 ∧ (c.delete id q).2.Agrees (j.delete id q).2 := by
  rw [Cluster.delete, Journal.delete]
  cases q.toFilter with
  | error e => exact ⟨rfl, h⟩
  | ok filter => exact h.write id _ _ fun _ _ _ hf => Change.apply_delete hf

theorem create (h : c.Agrees j) (id : Nat) (catalog : Catalog) :
    (c.create id catalog).1 = (j.create id catalog).1 ∧
      (c.create id catalog).2.Agrees (j.create id catalog).2 :=
  h.write id _ _ fun _ _ _ hf => by
    cases hf
    rfl

theorem drop (h : c.Agrees j) (id : Nat) (catalog : Catalog) :
    (c.drop id catalog).1 = (j.drop id catalog).1 ∧
      (c.drop id catalog).2.Agrees (j.drop id catalog).2 :=
  h.write id _ _ fun _ _ _ hf => by
    cases hf
    rfl

/-! ## Scopes -/

theorem begin (h : c.Agrees j) (id : Nat) : (c.begin id).Agrees (j.begin id) := by
  rw [Cluster.begin, Journal.begin]
  rcases h.session_cases id with ⟨hs, hd⟩ | ⟨t, d, hs, hd, ht⟩
  · rw [hs, hd]
    refine h.set id (.active { working := ?_, log := rfl, savepoints := trivial })
    rw [Draft.visible, Draft.writes_eq]
    simpa [Draft.inOrder] using h.shared
  · rw [hs, hd]
    have hsame : ({ d with current := [], outer := d.current :: d.outer } : Draft).writes =
        d.writes := by
      rw [Draft.writes_eq, Draft.writes, List.append_nil]
    refine h.set id (.active { working := ?_, log := ?_, savepoints := ⟨?_, ?_, ht.savepoints⟩ })
    · rw [Draft.visible, hsame]
      exact ht.working
    · rw [hsame]
      exact ht.log
    · exact ht.working
    · exact congrArg List.length ht.log

theorem commit (h : c.Agrees j) (id : Nat) :
    (c.commit id).1 = (j.commit id).1 ∧ (c.commit id).2.Agrees (j.commit id).2 := by
  rw [Cluster.commit, Journal.commit]
  rcases h.session_cases id with ⟨hs, hd⟩ | ⟨t, d, hs, hd, ht⟩
  · rw [hs, hd]
    exact ⟨rfl, h⟩
  · rw [hs, hd]
    obtain ⟨working, log, savepoints⟩ := t
    obtain ⟨base, current, outer⟩ := d
    cases savepoints with
    | cons saved rest =>
      cases outer with
      | nil => exact ht.savepoints.elim
      | cons around outer =>
        -- The writes go on, only their scope is another one.
        have hsame : (Draft.mk base (around ++ current) outer).writes =
            (Draft.mk base current (around :: outer)).writes := by
          simp only [Draft.writes_eq, Draft.inOrder_cons, List.append_assoc]
        refine ⟨rfl, h.set id (.active { working := ?_, log := ?_, savepoints := ?_ })⟩
        · rw [Draft.visible, hsame]
          exact ht.working
        · rw [hsame]
          exact ht.log
        · exact ht.savepoints.2.2
    | nil =>
      cases outer with
      | cons around outer => exact ht.savepoints.elim
      | nil =>
        have hlog := ht.log
        subst hlog
        -- The outermost commit runs the list on the shared store as it is now.
        have hmerge := Change.applyAll_append .empty j.published
          (Draft.mk base current []).writes
        rw [h.shared, Result.ok_bind] at hmerge
        dsimp only
        rw [hmerge]
        have hended := h.set id .idle
        cases hall : Change.applyAll c.shared (Draft.mk base current []).writes with
        | error e => exact ⟨rfl, hended⟩
        | ok merged =>
          rw [hall] at hmerge
          exact ⟨rfl, { hended with shared := hmerge }⟩

theorem rollback (h : c.Agrees j) (id : Nat) :
    (c.rollback id).1 = (j.rollback id).1 ∧ (c.rollback id).2.Agrees (j.rollback id).2 := by
  rw [Cluster.rollback, Journal.rollback]
  rcases h.session_cases id with ⟨hs, hd⟩ | ⟨t, d, hs, hd, ht⟩
  · rw [hs, hd]
    exact ⟨rfl, h⟩
  · rw [hs, hd]
    obtain ⟨working, log, savepoints⟩ := t
    obtain ⟨base, current, outer⟩ := d
    cases savepoints with
    | nil =>
      cases outer with
      | cons around outer => exact ht.savepoints.elim
      | nil => exact ⟨rfl, h.set id .idle⟩
    | cons saved rest =>
      obtain ⟨store, length⟩ := saved
      cases outer with
      | nil => exact ht.savepoints.elim
      | cons around outer =>
        obtain ⟨hstore, hlength, hrest⟩ := ht.savepoints
        refine ⟨rfl, h.set id (.active { working := hstore, log := ?_, savepoints := hrest })⟩
        show log.take length = _
        have hlog : log = Draft.inOrder (around :: outer) ++ current :=
          ht.log.trans (Draft.writes_eq _)
        rw [hlog, hlength]
        exact List.take_left

/-! ## Opening and closing -/

theorem openSession (h : c.Agrees j) :
    c.openSession.1 = j.openSession.1 ∧ c.openSession.2.Agrees j.openSession.2 := by
  refine ⟨h.length, { h with length := ?_, sessions := fun id => ?_ }⟩
  · simp [Cluster.openSession, Journal.openSession, h.length]
  · show SessionAgrees ((c.sessions ++ [none])[id]?).join ((j.drafts ++ [none])[id]?).join
    rw [join_append_none, join_append_none]
    exact h.sessions id

theorem close (h : c.Agrees j) (id : Nat) : (c.close id).Agrees (j.close id) := h.set id .idle

end Cluster.Agrees

/-! ## Whole runs -/

theorem fetch_simulates (id : Nat) (q : Query) :
    Call.Simulates Cluster.Agrees (backend.fetch id q) (Journal.backend.fetch id q) := by
  show Call.Simulates Cluster.Agrees (Call.ofResult q.toFind >>= _) (Call.read _)
  unfold Journal.fetch Cluster.fetch
  cases q.toFind with
  | error e => exact fun _ _ h => ⟨rfl, h⟩
  | ok f =>
    have hsearch : ∀ (c : Cluster) (j : Journal), c.Agrees j →
        c.search id q.model f = (Cluster.alone (j.view id)).search 0 q.model f := by
      intro c j h
      rw [h.view id]
      rfl
    exact Call.Simulates.emit (Report.search f) (.read hsearch)

theorem commit_simulates (id : Nat) :
    Call.Simulates Cluster.Agrees (backend.commit id) (Journal.backend.commit id) := by
  refine .state fun before => .reporting (.step fun _ _ h => h.commit id) ?_
  split
  · exact fun _ => ⟨_, rfl⟩
  · exact fun _ => ⟨_, rfl⟩

/-- Each operation of a cluster is that of a journal. -/
theorem backend_simulates : backend.Simulates Cluster.Agrees Journal.backend where
  name := rfl
  add id s rs := .step fun _ _ h => h.add id s rs
  fetch := fetch_simulates
  count id q := .read fun c j h => by
    rw [Journal.count, h.view id]
    rfl
  update id q values := .step fun _ _ h => h.update id q values
  delete id q := .step fun _ _ h => h.delete id q
  begin id := .reporting (.modifyState fun _ _ h => h.begin id) fun _ => ⟨_, rfl⟩
  commit := commit_simulates
  rollback id := .reporting (.step fun _ _ h => h.rollback id) fun _ => ⟨_, rfl⟩
  depth id _ _ h := h.depth id
  create id catalog := .emit _ (.step fun _ _ h => h.create id catalog)
  drop id catalog := .step fun _ _ h => h.drop id catalog
  openSession _ := .step fun _ _ h => ⟨congrArg _ h.openSession.1, h.openSession.2⟩
  ping _ := .pure ()
  close id := .modifyState fun _ _ h => h.close id

/-- Sessions are isolated: every run of requests on a cluster has the outcomes it has on a
    journal, whatever the sessions and the order of their requests.  Afterwards the shared store
    is what the published writes lead to, and each session sees the store that the writes of its
    draft lead to. -/
theorem isolation (requests : List Request) :
    let run := Request.runAll backend requests ⟨.start, []⟩
    let ideal := Request.runAll Journal.backend requests ⟨.start, []⟩
    run.1 = ideal.1 ∧
      Change.applyAll .empty ideal.2.state.published = .ok run.2.state.shared ∧
      ∀ id, Change.applyAll .empty (ideal.2.state.seen id) = .ok (run.2.state.view id) := by
  obtain ⟨houtcomes, hagrees⟩ := Request.runAll_simulates backend_simulates requests
    (s := ⟨.start, []⟩) (t := ⟨.start, []⟩) Cluster.agrees_start
  exact ⟨houtcomes, hagrees.shared, hagrees.seen⟩

end ModelMapper.Memory
