import Mathlib.Data.List.ReduceOption
import ModelMapper.Proofs.Mapper.Persisting
import ModelMapper.Proofs.Memory.Batches

/-! # Where a cursor reads

A cursor passes the gate of its scope once, when it is opened.  Later batches are asked of the
session as they are needed, whatever has become of the scope.

* `Cursor.advance`, `Cursor.next_advance` — the next answer of a cursor, given what a fetch
  answers.
* `CursorRun`, `CursorRun.play` — a cursor in a run, with the fetches it has made.
* `CursorRun.Sound` — the answers are those of the fetches, batch by batch.
* `CursorRun.answers_follow_fetches` — where the answers of a cursor in a scope come from.
-/

namespace ModelMapper

open Memory (Cluster)
open Mapper (Open)

variable {σ M : Type}

/-! ## The next answer -/

namespace Cursor

/-- The cursor has nothing at hand and has not come to the end. -/
def wants (c : Cursor) : Bool := c.buffer.isEmpty && !c.exhausted

theorem wants_iff {c : Cursor} : c.wants = true ↔ c.buffer = [] ∧ c.exhausted = false := by
  simp [wants]

/-- The next answer and the cursor after it, where a fetch has answered if one was needed. -/
def advance (m : Model M) (c : Cursor) (outcome : Result (List Record)) :
    Option (Result M) × Cursor :=
  if c.wants then
    match outcome with
    | .ok records => (c.accept records).pop m
    | .error e => (some (.error e), { c with exhausted := true })
  else c.pop m

variable {b : Backend σ} {c : Cursor} {t t' : Traced σ}

theorem advance_ok (m : Model M) (h : c.wants = true) (records : List Record) :
    c.advance m (.ok records) = (c.accept records).pop m := if_pos h

theorem advance_error (m : Model M) (h : c.wants = true) (e : Error) :
    c.advance m (.error e) = (some (.error e), { c with exhausted := true }) := if_pos h

theorem next_pop (m : Model M) (h : c.wants = false) : c.next? b m t = (.ok (c.pop m), t) := by
  change (c.buffer.isEmpty && !c.exhausted) = false at h
  rw [next?, h]
  rfl

/-- A cursor that needs a batch asks for it, and answers from what it gets. -/
theorem next_advance (m : Model M) (h : c.wants = true) {outcome : Result (List Record)}
    (hfetch : b.fetch c.session (c.query.batch c.nextBatch batchSize) t =
      (outcome.mapError .error, t')) :
    ∃ events, c.next? b m t = (.ok (c.advance m outcome), ⟨t'.state, events⟩) := by
  have hneeds : (c.buffer.isEmpty && !c.exhausted) = true := h
  have hattempt : Call.attempt (c.fill b) t = (.ok (c.fill b t).1, (c.fill b t).2) := rfl
  rw [next?, hneeds, if_pos rfl, Call.run_bind, hattempt, fill, Call.run_bind, hfetch]
  cases outcome with
  | error e =>
    rw [advance_error m h]
    exact ⟨_, rfl⟩
  | ok records =>
    rw [advance_ok m h]
    exact ⟨_, rfl⟩

theorem pop_eq (m : Model M) (c : Cursor) : c.pop m =
    (c.buffer.head?.map fun r => m.ofRecord r ⟨c.session⟩, { c with buffer := c.buffer.tail }) := by
  obtain ⟨session, q, buffer, nextBatch, exhausted⟩ := c
  cases buffer <;> rfl

end Cursor

namespace Memory.Cluster

theorem view_of_depth_zero {c : Cluster} {id : Nat} (h : c.depth id = 0) :
    c.view id = c.shared := by
  unfold depth at h
  unfold view
  cases hs : c.session id with
  | none => rfl
  | some t =>
    rw [hs] at h
    cases h

/-- Without a transaction a session is answered as every other one. -/
theorem fetch_of_depth_zero {c : Cluster} {id other : Nat} (h : c.depth id = 0)
    (hother : c.depth other = 0) (q : Query) : c.fetch id q = c.fetch other q := by
  simp only [fetch, search, view_of_depth_zero h, view_of_depth_zero hother]

end Memory.Cluster

/-! ## Runs -/

/-- A fetch of a cursor: the mapper as it was then, and what the store answered. -/
structure Fetch where
  seen : Mapper Cluster
  outcome : Result (List Record)

namespace Fetch

/-- What a cursor tells of an answer: the models of the records, or the error. -/
def told (m : Model M) (session : Nat) (outcome : Result (List Record)) : List (Result M) :=
  match outcome with
  | .ok records => records.map fun r => m.ofRecord r ⟨session⟩
  | .error e => [.error e]

/-- The answer is a batch that is full. -/
def Full (outcome : Result (List Record)) : Prop :=
  ∃ records, outcome = .ok records ∧ batchSize ≤ records.length

end Fetch

/-- A cursor that is read from. -/
structure CursorRun (M : Type) where
  now : Traced (Mapper Cluster)
  cursor : Cursor
  /-- The fetches so far, the oldest first. -/
  fetches : List Fetch
  /-- The answers so far, the oldest first. -/
  answers : List (Option (Result M))

namespace CursorRun

/-- Something that happens: the cursor is asked for its next model, something is done with a handle
    of a scope, or a request reaches the store. -/
inductive Step where
  | next
  | operate (k : Nat) (op : Operation)
  | elsewhere (r : Request)

/-- What the store says to the fetch that the cursor would make. -/
def due (w : CursorRun M) : Fetch :=
  ⟨w.now.state, w.now.state.store.fetch w.cursor.session
    (w.cursor.query.batch w.cursor.nextBatch batchSize)⟩

def next (m : Model M) (w : CursorRun M) : CursorRun M :=
  let run := Mapper.onStore (w.cursor.next? Memory.backend m) w.now
  let made := if w.cursor.wants then [w.due] else []
  match run.1 with
  | .ok (answer, cursor) => ⟨run.2, cursor, w.fetches ++ made, w.answers ++ [answer]⟩
  | .error _ => { w with now := run.2 }

def play (m : Model M) (w : CursorRun M) : Step → CursorRun M
  | .next => w.next m
  | .operate k op => { w with now := (op.perform Memory.backend k w.now).2 }
  | .elsewhere r => { w with now := (Mapper.onStore (r.carryOut Memory.backend) w.now).2 }

/-- A cursor that has just been opened, with its first fetch. -/
def start (c : Cursor) (before after : Traced (Mapper Cluster)) : CursorRun M :=
  ⟨after, c, [⟨before.state, .ok c.buffer⟩], []⟩

/-! ## The invariant -/

/-- The answers so far and those at hand are what the fetches told, in order.  Each fetch has asked
    the store as it was then for the batch after those before it, and all but the last batch were
    full. -/
structure Sound (m : Model M) (session : Nat) (q : Query) (w : CursorRun M) : Prop where
  sameSession : w.cursor.session = session
  sameQuery : w.cursor.query = q
  answers : w.answers.reduceOption ++ Fetch.told m session (.ok w.cursor.buffer) =
    w.fetches.flatMap fun f => Fetch.told m session f.outcome
  fetched : ∀ i f, w.fetches[i]? = some f →
    f.outcome = f.seen.store.fetch session (q.batch i batchSize) ∧
      (i + 1 < w.fetches.length → Fetch.Full f.outcome)
  going : w.cursor.exhausted = false →
    w.cursor.nextBatch = w.fetches.length ∧ ∀ f ∈ w.fetches, Fetch.Full f.outcome

variable {m : Model M} {session : Nat} {q : Query} {w : CursorRun M}

/-- Without a fetch the first record at hand is answered. -/
theorem next_of_pop (m : Model M) (h : w.cursor.wants = false) : w.next m =
    ⟨w.now, (w.cursor.pop m).2, w.fetches, w.answers ++ [(w.cursor.pop m).1]⟩ := by
  have hrun : Mapper.onStore (w.cursor.next? Memory.backend m) w.now =
      (.ok (w.cursor.pop m), w.now) := by
    rw [Mapper.onStore, Call.within, Cursor.next_pop m h]
  rw [next, hrun, h]
  simp

/-- A fetch is made of the store as it is now. -/
theorem next_of_advance (m : Model M) (h : w.cursor.wants = true) : ∃ events, w.next m =
    ⟨⟨w.now.state, events⟩, (w.cursor.advance m w.due.outcome).2, w.fetches ++ [w.due],
      w.answers ++ [(w.cursor.advance m w.due.outcome).1]⟩ := by
  obtain ⟨events, hfetch⟩ := Cluster.run_fetch w.cursor.session
    (w.cursor.query.batch w.cursor.nextBatch batchSize) ⟨w.now.state.store, w.now.events⟩
  obtain ⟨events, hnext⟩ := Cursor.next_advance m h hfetch
  have hrun : Mapper.onStore (w.cursor.next? Memory.backend m) w.now =
      (.ok (w.cursor.advance m w.due.outcome), ⟨w.now.state, events⟩) := by
    rw [Mapper.onStore, Call.within, hnext]
    rfl
  refine ⟨events, ?_⟩
  rw [next, hrun, h]
  rfl

/-- The first record at hand is told, and then the others. -/
theorem told_pop (m : Model M) (session : Nat) (records : List Record) :
    (records.head?.map fun r => m.ofRecord r ⟨session⟩).toList ++
      Fetch.told m session (.ok records.tail) = Fetch.told m session (.ok records) := by
  cases records <;> rfl

/-- Handing out what is at hand keeps the invariant. -/
theorem Sound.pop (h : w.Sound m session q) {now : Traced (Mapper Cluster)} :
    Sound m session q ⟨now, (w.cursor.pop m).2, w.fetches, w.answers ++ [(w.cursor.pop m).1]⟩ := by
  rw [Cursor.pop_eq]
  refine ⟨h.sameSession, h.sameQuery, ?_, h.fetched, h.going⟩
  dsimp only
  rw [List.reduceOption_append, List.reduceOption_singleton, List.append_assoc, h.sameSession,
    told_pop]
  exact h.answers

/-- A fetch that is due asks for the batch after all that were full. -/
theorem Sound.fetched_due (h : w.Sound m session q) (hgoing : w.cursor.exhausted = false) (i : Nat)
    (f : Fetch) (hf : (w.fetches ++ [w.due])[i]? = some f) :
    f.outcome = f.seen.store.fetch session (q.batch i batchSize) ∧
      (i + 1 < (w.fetches ++ [w.due]).length → Fetch.Full f.outcome) := by
  obtain ⟨hbatch, hfull⟩ := h.going hgoing
  rcases Nat.lt_or_ge i w.fetches.length with hbefore | hlast
  · rw [List.getElem?_append_left hbefore] at hf
    exact ⟨(h.fetched i f hf).1, fun _ => hfull f (List.mem_of_getElem? hf)⟩
  · rw [List.getElem?_append_right hlast, List.getElem?_singleton] at hf
    split at hf
    · next hi =>
      cases hf
      have hi : i = w.cursor.nextBatch := by omega
      refine ⟨?_, fun hmore => ?_⟩
      · rw [hi, due, h.sameSession, h.sameQuery]
      · rw [List.length_append, List.length_singleton] at hmore
        omega
    · cases hf

theorem Sound.next (h : w.Sound m session q) : (w.next m).Sound m session q := by
  cases hwants : w.cursor.wants with
  | false =>
    rw [next_of_pop m hwants]
    exact h.pop
  | true =>
    obtain ⟨events, hnext⟩ := next_of_advance m hwants
    rw [hnext]
    obtain ⟨hempty, hgoing⟩ := Cursor.wants_iff.1 hwants
    have hfetched := h.fetched_due hgoing
    obtain ⟨hbatch, hfull⟩ := h.going hgoing
    -- nothing is at hand, so the answers so far are all that the fetches told
    have hanswers : w.answers.reduceOption =
        w.fetches.flatMap fun f => Fetch.told m session f.outcome := by
      simpa [hempty, Fetch.told] using h.answers
    cases houtcome : w.due.outcome with
    | error e =>
      rw [Cursor.advance_error m hwants]
      refine ⟨h.sameSession, h.sameQuery, ?_, hfetched, nofun⟩
      simp [List.reduceOption_append, hanswers, houtcome, hempty, Fetch.told]
    | ok records =>
      rw [Cursor.advance_ok m hwants]
      refine Sound.pop (w := ⟨w.now, w.cursor.accept records, w.fetches ++ [w.due], w.answers⟩)
        ⟨h.sameSession, h.sameQuery, ?_, hfetched, fun hmore => ⟨?_, ?_⟩⟩
      · simp [Cursor.accept, hanswers, houtcome, hempty, Fetch.told]
      · simp [Cursor.accept, hbatch]
      · have hlong : batchSize ≤ records.length := by simpa [Cursor.accept, hgoing] using hmore
        intro f hf
        rcases List.mem_append.mp hf with hf | hf
        · exact hfull f hf
        · rw [List.mem_singleton.mp hf, houtcome]
          exact ⟨records, rfl, hlong⟩

theorem Sound.play (h : w.Sound m session q) (s : Step) : (w.play m s).Sound m session q := by
  cases s with
  | next => exact h.next
  -- Nothing else comes near the cursor.
  | operate k op => exact ⟨h.sameSession, h.sameQuery, h.answers, h.fetched, h.going⟩
  | elsewhere r => exact ⟨h.sameSession, h.sameQuery, h.answers, h.fetched, h.going⟩

theorem Sound.steps (h : w.Sound m session q) (steps : List Step) :
    (steps.foldl (CursorRun.play m) w).Sound m session q := by
  induction steps generalizing w with
  | nil => exact h
  | cons s rest ih => exact ih (h.play s)

/-! ## Opening -/

/-- A cursor that was opened holds what the store answers to the first fetch. -/
theorem openOn_ok {c : Cursor} {t t' : Traced Cluster}
    (h : Cursor.openOn Memory.backend session q t = (.ok c, t')) :
    ∃ records, t.state.fetch session (q.stableOrder.batch 0 batchSize) = .ok records ∧
      c = (Cursor.mk session q.stableOrder [] 0 false).accept records := by
  obtain ⟨records, read, hfetch, haccepted⟩ := Call.bind_eq_ok h
  cases haccepted
  obtain ⟨events, hrun⟩ := Cluster.run_fetch session (q.stableOrder.batch 0 batchSize) t
  refine ⟨records, ?_, rfl⟩
  have houtcome := congrArg Prod.fst (hrun.symm.trans hfetch)
  dsimp only at houtcome
  cases hstore : t.state.fetch session (q.stableOrder.batch 0 batchSize) with
  | error e =>
    rw [hstore] at houtcome
    cases houtcome
  | ok found =>
    rw [hstore] at houtcome
    cases houtcome
    rfl

/-- It is in the session of an open scope, and has made one fetch. -/
theorem opened (m : Model M) {k : Nat} {c : Cursor} {t t₀ : Traced (Mapper Cluster)}
    (h : Search.all Memory.backend ⟨.scope k, .ok q⟩ t = (.ok c, t₀)) :
    ∃ sc, Open Memory.backend t.state k sc ∧
      (start c t t₀ : CursorRun M).Sound m sc.session q.stableOrder := by
  obtain ⟨sc, hopen, hgate⟩ | ⟨-, e, -, hgate⟩ := Mapper.checkOpen_cases Memory.backend k t
  · refine ⟨sc, hopen, ?_⟩
    have henter : Mapper.enter Memory.backend (.scope k) t = (.ok sc.session, t) := by
      rw [Mapper.enter, Call.run_bind, hgate]
      rfl
    have hcall : Mapper.onStore (Cursor.openOn Memory.backend sc.session q) t = (.ok c, t₀) := by
      rcases Call.guarded_cases _ t with ⟨c', t', hall, hguarded⟩ | ⟨f, e, t', t'', -, hguarded, -⟩
      · cases hguarded.symm.trans h
        rwa [Call.run_bind, Search.ready_of_enter henter] at hall
      · cases hguarded.symm.trans h
    have hopened : (Cursor.openOn Memory.backend sc.session q ⟨t.state.store, t.events⟩).1 =
        .ok c := congrArg Prod.fst hcall
    obtain ⟨records, hfetch, rfl⟩ := openOn_ok (Prod.ext hopened rfl)
    refine ⟨rfl, rfl, ?_, fun i f hf => ?_, fun hmore => ⟨rfl, fun f hf => ?_⟩⟩
    · simp [start]
    · cases i with
      | zero =>
        cases hf
        exact ⟨hfetch.symm, by simp [start]⟩
      | succ i => cases hf
    · have hlong : batchSize ≤ records.length := by simpa [start, Cursor.accept] using hmore
      cases List.mem_singleton.mp hf
      exact ⟨records, rfl, hlong⟩
  · rw [Search.all, guarded_bind_refused (Mapper.ready_refused hgate _)] at h
    cases h

/-! ## Where the answers come from -/

theorem fetches_play (m : Model M) (w : CursorRun M) (s : Step) :
    w.fetches <+: (w.play m s).fetches := by
  cases s with
  | next =>
    cases hwants : w.cursor.wants with
    | false => simp [play, next_of_pop m hwants]
    | true =>
      obtain ⟨events, hnext⟩ := next_of_advance m hwants
      simp [play, hnext]
  | operate k op => exact List.prefix_rfl
  | elsewhere r => exact List.prefix_rfl

theorem fetches_steps (m : Model M) (w : CursorRun M) (steps : List Step) :
    w.fetches <+: (steps.foldl (play m) w).fetches := by
  induction steps generalizing w with
  | nil => exact List.prefix_rfl
  | cons s rest ih => exact (fetches_play m w s).trans (ih (w.play m s))

/-- After a fetch the first of what it told is answered. -/
theorem Sound.next_fetched (h : w.Sound m session q) (hwants : w.cursor.wants = true) :
    let outcome := w.now.state.store.fetch session (q.batch w.fetches.length batchSize)
    (w.next m).fetches = w.fetches ++ [⟨w.now.state, outcome⟩] ∧
      (w.next m).answers = w.answers ++ [(Fetch.told m session outcome).head?] := by
  intro outcome
  obtain ⟨hempty, hgoing⟩ := Cursor.wants_iff.1 hwants
  have hdue : w.due = ⟨w.now.state, outcome⟩ := by
    rw [due, h.sameSession, h.sameQuery, (h.going hgoing).1]
  obtain ⟨events, hnext⟩ := next_of_advance m hwants
  rw [hnext, hdue]
  refine ⟨rfl, ?_⟩
  dsimp only
  cases outcome with
  | error e =>
    rw [Cursor.advance_error m hwants]
    rfl
  | ok records =>
    rw [Cursor.advance_ok m hwants]
    simp [Cursor.pop_eq, Cursor.accept, hempty, h.sameSession, Fetch.told]

/-- What a cursor hands out that was opened in a scope.

    Only its first fetch is behind the gate of the scope: if the rows fit in one batch, it is the
    only one.  Each fetch asks for the next batch in the session of the scope, with the store and
    the scopes as they are then, and everything handed out is what the fetches were answered, in
    their order.  So a fetch after the end of the transaction reads what every other session
    reads, and the answer is its first record whatever has become of the scope. -/
theorem answers_follow_fetches (m : Model M) {k : Nat} {q : Query} {c : Cursor}
    {t t₀ : Traced (Mapper Cluster)}
    (h : Search.all Memory.backend ⟨.scope k, .ok q⟩ t = (.ok c, t₀)) (steps : List Step) :
    ∃ sc, Open Memory.backend t.state k sc ∧
      let batch (i : Nat) := q.stableOrder.batch i batchSize
      let w := steps.foldl (play m) (start c t t₀)
      w.fetches.head? = some ⟨t.state, .ok c.buffer⟩ ∧
      (c.buffer.length < batchSize → w.fetches.length = 1) ∧
      (∀ i f, w.fetches[i]? = some f →
        f.outcome = f.seen.store.fetch sc.session (batch i) ∧
        (i + 1 < w.fetches.length → Fetch.Full f.outcome) ∧
        (f.seen.store.depth sc.session = 0 → ∀ other, f.seen.store.depth other = 0 →
          f.outcome = f.seen.store.fetch other (batch i))) ∧
      w.answers.reduceOption ++ Fetch.told m sc.session (.ok w.cursor.buffer) =
        w.fetches.flatMap (fun f => Fetch.told m sc.session f.outcome) ∧
      (w.cursor.wants = true →
        let outcome := w.now.state.store.fetch sc.session (batch w.fetches.length)
        (w.next m).fetches = w.fetches ++ [⟨w.now.state, outcome⟩] ∧
          (w.next m).answers = w.answers ++ [(Fetch.told m sc.session outcome).head?]) := by
  obtain ⟨sc, hopen, hstart⟩ := opened m h
  refine ⟨sc, hopen, ?_⟩
  intro batch w
  have hw : w.Sound m sc.session q.stableOrder := hstart.steps steps
  obtain ⟨later, hfetches⟩ : (start c t t₀ : CursorRun M).fetches <+: w.fetches :=
    fetches_steps m (start c t t₀) steps
  have hfirst : w.fetches[0]? = some ⟨t.state, .ok c.buffer⟩ := by rw [← hfetches]; rfl
  refine ⟨by rw [← hfetches]; rfl, fun hshort => ?_, fun i f hf => ?_, hw.answers,
    hw.next_fetched⟩
  · -- a second fetch comes after a full batch only
    by_contra hmore
    have hnonempty : 0 < w.fetches.length := by simp [← hfetches, start]
    obtain ⟨records, houtcome, hlong⟩ := (hw.fetched 0 _ hfirst).2 (by omega)
    cases houtcome
    omega
  · obtain ⟨houtcome, hfull⟩ := hw.fetched i f hf
    refine ⟨houtcome, hfull, fun hended other hother => ?_⟩
    rw [houtcome]
    exact Cluster.fetch_of_depth_zero hended hother _

/-- Two items are read in a transaction that is committed in between. -/
theorem answers_follow_fetches_of_items :
    let item : Schema := ⟨"Item", [.ofMarks "size" .int []]⟩
    let model := Model.ofSchema item
    let created := (Mapper.useModels Memory.backend ⟨"c", [item]⟩ ⟨Mapper.start .start, []⟩).2
    let begun := (Mapper.begin Memory.backend .database created).2
    let t := (Mapper.add Memory.backend model (.scope 0)
      (List.replicate 2 ⟨Record.empty.set "size" (.int 1), ⟨1⟩⟩) begun).2
    let opening := Search.all Memory.backend ⟨.scope 0, .ok ⟨item, none, []⟩⟩ t
    ∃ c, opening.1 = .ok c ∧ c.buffer.length = 2 ∧
      ([.next, .operate 0 .commit, .next].foldl (play model)
        (start c t opening.2)).fetches.length = 1 := by
  intro item model created begun t opening
  have hlength : (opening.1.toOption.map fun c => c.buffer.length) = some 2 := by decide +kernel
  rcases hrun : opening with ⟨outcome, t₀⟩
  rw [hrun] at hlength
  cases outcome with
  | error e => cases hlength
  | ok c =>
    have hlength : c.buffer.length = 2 := Option.some.inj hlength
    obtain ⟨sc, -, -, hone, -⟩ :=
      answers_follow_fetches model hrun [.next, .operate 0 .commit, .next]
    exact ⟨c, rfl, hlength, hone (by rw [hlength]; decide)⟩

/-- There are more items than fit in a batch, and a cursor over them is opened in a scope.  When
    the first batch has been handed out the scope is committed, rolled back, or has another one in
    it.  The cursor hands out the next item all the same, from a fetch that the gate of the scope
    would have refused. -/
theorem cursor_outlives_scope :
    let item : Schema := ⟨"Item", [.ofMarks "size" .int []]⟩
    let model := Model.ofSchema item
    let created := (Mapper.useModels Memory.backend ⟨"c", [item]⟩ ⟨Mapper.start .start, []⟩).2
    let filled := (Mapper.add Memory.backend model .database
      (List.replicate (batchSize + 1) ⟨Record.empty.set "size" (.int 1), ⟨0⟩⟩) created).2
    let begun := (Mapper.begin Memory.backend .database filled).2
    let opening := Search.all Memory.backend ⟨.scope 0, .ok ⟨item, none, []⟩⟩ begun
    ∀ op ∈ [Operation.commit, .rollback, .begin], ∃ c ∈ opening.1.toOption,
      let handedOut := List.replicate batchSize Step.next
      let w : CursorRun Instance :=
        (handedOut ++ [Step.operate 0 op]).foldl (play model) (start c begun opening.2)
      let after := w.next model
      (Mapper.checkOpen Memory.backend 0 w.now).1.isOk = false ∧
        (after.answers.map fun a => a.map Except.isOk) =
          List.replicate (batchSize + 1) (some true) ∧
        (after.fetches.map fun f =>
          (Mapper.checkOpen Memory.backend 0 ⟨f.seen, []⟩).1.isOk) = [true, false] := by
  decide +kernel

end CursorRun

end ModelMapper
