import ModelMapper.Proofs.Mapper.Tasks

/-! # Interleavings

What a transaction comes to when its operations are taken apart into their gates and calls, and
those of several tasks follow each other in any order.

* `Tasks.Sound.whole` — an operation that no other one interrupts.
* `Tasks.Sound.write_noted` — a write that is called in time.
* `Tasks.writes_stay_inside` — any interleaving in which no call goes astray.
* `Tasks.late_write_escapes` — a call that goes astray.
-/

namespace ModelMapper

open Memory (Cluster Change Write Recorded LevelsIn Works)
open Mapper (Open)

namespace Tasks

section

variable {tx session k : Nat} {c : Cluster} {w : Tasks}
  {outcome : Except Failure (Option Nat)} {now : Traced (Mapper Cluster)}

/-! ## Operations without interruption -/

/-- A whole operation, with no other one between its gate and its last call. -/
def whole (tx session : Nat) (w : Tasks) (k : Nat) (op : Operation) : Tasks :=
  (Step.enter k op :: List.replicate op.calls.length (.call w.underway.length)).foldl
    (Tasks.play tx session) w

theorem play_over {i : Nat} (hi : ∀ k a rest, w.underway[i]? ≠ some ⟨k, a :: rest⟩) (n : Nat) :
    (List.replicate n (Step.call i)).foldl (Tasks.play tx session) w = w := by
  induction n with
  | zero => rfl
  | succ n ih =>
    have hplay : w.play tx session (.call i) = w := by
      unfold Tasks.play
      dsimp only
      split
      · exact absurd ‹_› (hi _ _ _)
      · rfl
    rw [List.replicate_succ, List.foldl_cons, hplay, ih]

/-- An operation that has made its last call, or has failed, makes no more of them. -/
theorem play_done {i : Nat} (hi : w.underway[i]? = some ⟨k, []⟩) (n : Nat) :
    (List.replicate n (Step.call i)).foldl (Tasks.play tx session) w = w := by
  refine play_over (fun k' a rest heq => ?_) n
  rw [hi] at heq
  cases heq

theorem play_call {i : Nat} {a : Action} {rest : List Action}
    (hi : w.underway[i]? = some ⟨k, a :: rest⟩) :
    w.play tx session (.call i) = w.next tx session i k a rest := by
  unfold Tasks.play
  dsimp only
  rw [hi]

/-- The next call of an operation, whether it goes astray or not. -/
theorem next_same (tx : Nat) {i : Nat} {a : Action} {rest : List Action}
    (hi : w.underway[i]? = some ⟨k, a :: rest⟩)
    (hcall : Mapper.call Memory.backend session a w.now = (outcome, now)) :
    (w.next tx session i k a rest).now = now ∧
      (w.next tx session i k a rest).underway[i]? =
        some ⟨k, if outcome.isOk then rest else []⟩ := by
  have hlt : i < w.underway.length := (List.getElem?_eq_some_iff.1 hi).1
  unfold Tasks.next
  rw [hcall]
  dsimp only
  split
  · rw [(book_same _ _ _ _ _).1, (book_same _ _ _ _ _).2.1]
    exact ⟨rfl, List.getElem?_set_self hlt⟩
  · exact ⟨rfl, List.getElem?_set_self hlt⟩

/-- All calls of an operation in a row. -/
theorem now_calls {i : Nat} {calls : List Action} (hi : w.underway[i]? = some ⟨k, calls⟩) :
    ((List.replicate calls.length (Step.call i)).foldl (Tasks.play tx session) w).now =
      (Mapper.callAll Memory.backend session calls w.now).2 := by
  induction calls generalizing w with
  | nil => rfl
  | cons a rest ih =>
    rcases hcall : Mapper.call Memory.backend session a w.now with ⟨outcome, now⟩
    obtain ⟨hnow, hleft⟩ := next_same tx hi hcall
    rw [List.length_cons, List.replicate_succ, List.foldl_cons, play_call hi, Mapper.callAll,
      Call.run_bind, hcall]
    cases outcome with
    | error e =>
      rw [play_done hleft]
      exact hnow
    | ok new =>
      rw [ih hleft, hnow]

theorem astray_next {i : Nat} {a : Action} {rest : List Action} (hinner : w.innermost = some k) :
    (w.next tx session i k a rest).astray = w.astray := by
  unfold Tasks.next
  rcases Mapper.call Memory.backend session a w.now with ⟨outcome, now⟩
  dsimp only
  rw [if_pos hinner, (book_same _ _ _ _ _).2.2]

/-- Reading and writing leaves the innermost scope where it was. -/
theorem innermost_next {i : Nat} {a : Action} {rest : List Action} (ha : Works a)
    (hinner : w.innermost = some k) : (w.next tx session i k a rest).innermost = some k := by
  obtain ⟨level, outer, hlevels, rfl⟩ := exists_of_innermost hinner
  unfold Tasks.next
  rcases Mapper.call Memory.backend session a w.now with ⟨outcome, now⟩
  dsimp only
  rw [if_pos hinner]
  generalize hcalled : ({ w with
    now := now
    underway := w.underway.set i ⟨level.scope, if outcome.isOk then rest else []⟩ } : Tasks) =
      called
  have hsame : called.levels = level :: outer := hcalled ▸ hlevels
  rw [book_work ha outcome hsame]
  rfl

/-- Of the calls of an operation only the last one may open or end a scope. -/
theorem Sound.calls (h : Sound tx session c w) (hastray : w.astray = []) {i : Nat}
    {calls : List Action} (hi : w.underway[i]? = some ⟨k, calls⟩) (hinner : w.innermost = some k)
    (hworks : ∀ a ∈ calls.dropLast, Works a) :
    ((List.replicate calls.length (Step.call i)).foldl (Tasks.play tx session) w).astray = [] := by
  induction calls generalizing w with
  | nil => exact hastray
  | cons a rest ih =>
    have hnext : (w.next tx session i k a rest).astray = [] := (astray_next hinner).trans hastray
    rcases hcall : Mapper.call Memory.backend session a w.now with ⟨outcome, now⟩
    obtain ⟨-, hleft⟩ := next_same tx hi hcall
    rw [List.length_cons, List.replicate_succ, List.foldl_cons, play_call hi]
    cases hok : outcome.isOk with
    | false =>
      rw [hok] at hleft
      rw [play_done hleft]
      exact hnext
    | true =>
      rw [hok] at hleft
      cases rest with
      | nil => exact hnext
      | cons b rest =>
        obtain ⟨ha, hothers⟩ := List.forall_mem_cons.1 hworks
        exact ih (h.next hi hnext) hnext hleft (innermost_next ha hinner) hothers

theorem calls_work (op : Operation) : ∀ a ∈ op.calls.dropLast, Works a := by
  cases op with
  | work w gated => exact fun a ha => w.calls_work a (List.mem_of_mem_dropLast ha)
  | begin | commit | rollback => exact nofun

theorem play_enter (hk : k ∈ w.held) (op : Operation) :
    w.play tx session (.enter k op) = match op.gate Memory.backend k w.now with
      | (.ok _, now) => { w with now := now, underway := w.underway ++ [⟨k, op.calls⟩] }
      | (.error _, now) => { w with now := now } :=
  if_pos hk

/-- An operation that no other one interrupts does what it does as a whole, and does not go
    astray. -/
theorem Sound.whole (h : Sound tx session c w) (hastray : w.astray = []) (hk : k ∈ w.held)
    (op : Operation) :
    (w.whole tx session k op).astray = [] ∧
      (w.whole tx session k op).now.state = (op.perform Memory.backend k w.now).2.state := by
  rw [← (op.perform_proceeds Memory.backend k w.now).1, Tasks.whole, List.foldl_cons,
    play_enter hk, Operation.proceed, Call.run_bind]
  have hentered := h.enter hk op
  rcases gate_cases op k w.now with ⟨e, hrefused⟩ | ⟨sc, now, hopen, hpassed, -⟩
  · rw [hrefused]
    dsimp only
    rw [play_over fun k' a rest hi => ?_]
    · exact ⟨hastray, rfl⟩
    · rw [List.getElem?_eq_none (Nat.le_refl _)] at hi
      cases hi
  · rw [hpassed] at hentered ⊢
    obtain ⟨sc', hsc, rfl⟩ := h.scopes k hk
    cases hsc.symm.trans hopen.scope
    have hlast : (w.underway ++ [(⟨k, op.calls⟩ : Underway)])[w.underway.length]? =
        some ⟨k, op.calls⟩ := List.getElem?_concat_length
    exact ⟨hentered.calls hastray hlast (h.innermost_of_open hk hopen) (calls_work op),
      congrArg Traced.state (now_calls hlast)⟩

/-! ## Any interleaving -/

theorem sound_start {t : Traced (Mapper Cluster)}
    (hscope : t.state.scope? tx = some ⟨session, 1, false⟩)
    (hsession : t.state.store.session session = some ⟨t.state.store.shared, [], []⟩) :
    Sound tx session (t.state.store.without session) (start tx t) where
  scopes := List.forall_mem_singleton.2 ⟨_, hscope, rfl⟩
  unended k hk _ := hk
  underway := nofun
  nested := ⟨congrArg _ hscope, trivial⟩
  levels := by
    show LevelsIn [[]] (t.state.store.session session)
    rw [hsession]
    exact Recorded.nil
  outermost k hk := (Option.some.inj hk).symm
  unpublished _ := rfl
  forgotten := nofun
  attributed :=
    { nodup := List.pairwise_singleton _ tx
      known := List.forall_mem_singleton.2 ⟨List.mem_cons_self, nofun⟩
      own := List.forall_mem_singleton.2 nofun
      closed := nofun
      kept := List.forall_mem_singleton.2 nofun
      published := nofun }
  passes := ⟨none, .none, .start⟩

/-- A write that is called in time and succeeds is noted in the log of the transaction. -/
theorem Sound.write_noted (h : Sound tx session c w) (hinner : w.innermost = some k) {a : Action}
    (ha : a.writes = true) (hcall : Mapper.call Memory.backend session a w.now = (outcome, now))
    (hok : outcome.isOk = true) :
    now.state.store.shared = w.now.state.store.shared ∧ ∃ t store change,
      w.now.state.store.session session = some t ∧ Cluster.Notes a change ∧
        now.state.store.session session = some ⟨store, t.log ++ [change], t.savepoints⟩ := by
  have hne : a ≠ .begin := by
    rintro rfl
    cases ha
  obtain ⟨level, outer, hlevels, -⟩ := exists_of_innermost hinner
  obtain ⟨houtcome, hstate⟩ := call_eq hne hcall
  have hperformed :
      (a.perform Memory.backend session ⟨w.now.state.store, w.now.events⟩).1.isOk = true := by
    rw [houtcome] at hok
    cases hrun : (a.perform Memory.backend session ⟨w.now.state.store, w.now.events⟩).1 with
    | error e =>
      rw [hrun] at hok
      cases hok
    | ok y => rfl
  cases hs : w.now.state.store.session session with
  | none =>
    have hdepth := h.depth
    rw [hlevels, Cluster.depth, hs] at hdepth
    cases hdepth
  | some t =>
    obtain ⟨store, change, hnotes, hafter⟩ :=
      Cluster.perform_noted (s := ⟨w.now.state.store, w.now.events⟩) hs ha hperformed
    have hshared := (Cluster.perform_step session a
      ⟨w.now.state.store, w.now.events⟩).shared_of_active hafter
    rw [hstate]
    exact ⟨hshared, t, store, change, rfl, hnotes, hafter⟩

/-- Any number of tasks work with the handles of a transaction, and no call goes astray.  Then
    the cluster without the session has what the requests of the others have done, and once, if
    the commit of the transaction itself has succeeded, its writes.  These are the writes that
    have succeeded with it or with scopes committed into it, in their order; none of a scope that
    was rolled back is among them, and nothing at all is published if the transaction was.  A
    write that succeeds is noted in the log of the transaction at once, in the level of its
    scope.  What the gate lets through is the innermost open scope, so a call can go astray only
    if others come between the gate and the call: an operation whose steps come in a row does
    not, and does what the whole operation does. -/
theorem writes_stay_inside (steps : List Step) (t : Traced (Mapper Cluster)) :
    ∃ tx session t₀, Mapper.begin Memory.backend .database t = (.ok tx, t₀) ∧
      t₀.state.scope? tx = some ⟨session, 1, false⟩ ∧
      t₀.state.store.session session = some ⟨t₀.state.store.shared, [], []⟩ ∧
      let w := steps.foldl (Tasks.play tx session) (start tx t₀)
      w.astray = [] →
        (∃ log, Option.Rel Recorded w.published log ∧
          Cluster.Passes session (t₀.state.store.without session) w.others log
            (w.now.state.store.without session)) ∧
        LevelsIn (w.levels.map OpenLevel.writes) (w.now.state.store.session session) ∧
        (∀ k ∈ w.undone, ∀ writes, w.published = some writes → k ≠ tx ∧ ∀ x ∈ writes, x.1 ≠ k) ∧
        (∀ k a outcome now, w.innermost = some k → a.writes = true →
          Mapper.call Memory.backend session a w.now = (outcome, now) → outcome.isOk = true →
          now.state.store.shared = w.now.state.store.shared ∧ ∃ t store change,
            w.now.state.store.session session = some t ∧ Cluster.Notes a change ∧
              now.state.store.session session = some ⟨store, t.log ++ [change], t.savepoints⟩) ∧
        ∀ k ∈ w.held, ∀ op : Operation,
          ((op.gate Memory.backend k w.now).1.isOk = true → w.innermost = some k) ∧
            (w.whole tx session k op).astray = [] ∧
            (w.whole tx session k op).now.state = (op.perform Memory.backend k w.now).2.state := by
  obtain ⟨tx, session, t₀, hbegin, hscope, hsession⟩ := Mapper.begin_database t
  refine ⟨tx, session, t₀, hbegin, hscope, hsession, ?_⟩
  intro w hastray
  have h : Sound tx session _ w := (sound_start hscope hsession).steps hastray
  refine ⟨h.passes, h.levels, fun k hk writes hpublished => ⟨?_, fun x hx heq => ?_⟩,
    fun k a outcome now hinner ha hcall hok => h.write_noted hinner ha hcall hok,
    fun k hk op => ⟨fun hpassed => ?_, h.whole hastray hk op⟩⟩
  · rintro rfl
    cases hpublished.symm.trans (h.forgotten hk)
  · exact h.attributed.published writes hpublished x hx (heq ▸ hk)
  · rcases gate_cases op k w.now with ⟨e, hrefused⟩ | ⟨sc, now, hopen, -⟩
    · rw [hrefused] at hpassed
      cases hpassed
    · exact h.innermost_of_open hk hopen

/-- A task adds an item and is past the gate when another one rolls the transaction back.  Its
    call finds no transaction any more and writes to the shared store, the add succeeds, and the
    item is there although the transaction was rolled back. -/
theorem late_write_escapes :
    let item : Schema := ⟨"Item", [.ofMarks "id" .int [.key, .auto]]⟩
    let model := Model.ofSchema item
    let prepared := (Mapper.useModels Memory.backend ⟨"c", [item]⟩ ⟨Mapper.start .start, []⟩).2
    let begun := Mapper.begin Memory.backend .database prepared
    let add : Operation := .work (.add model [⟨.empty, ⟨1⟩⟩]) trivial
    let between := [Step.enter 0 add, .enter 0 .rollback, .call 1].foldl (Tasks.play 0 1)
      (start 0 begun.2)
    let last := between.play 0 1 (.call 0)
    let items (w : Tasks) := (w.now.state.store.count 0 ⟨item, none, []⟩).toOption
    begun.1.toOption = some 0 ∧ between.undone = [0] ∧ items between = some 0 ∧
      ((do
        let stored ← Mapper.onStore (Memory.backend.add 1 item [.empty])
        Call.ofResult (stored.mapM fun r => model.ofRecord r ⟨1⟩) :
          Call (Mapper Cluster) (List Instance)) between.now).1.isOk = true ∧
      items last = some 1 ∧ last.others.isEmpty = true ∧ last.published.isNone = true := by
  decide +kernel

end

end Tasks

end ModelMapper
