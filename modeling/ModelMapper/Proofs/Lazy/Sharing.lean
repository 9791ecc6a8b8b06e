import ModelMapper.Proofs.Lazy.Callers

/-! # One load for many callers

A get starts a load only for a field that was never loaded; later ones join the load in flight or
are answered from the cache.  A refresh starts another load beside an older one, so loads overlap
and end in any order, but the field is left with the outcome of the latest.

* `Callers.Asks`, `Callers.Sound.asks` — what a caller gets when it asks.
* `Callers.Moved`, `Callers.Sound.calls_run` — what a step does to the loads, and how many loads a
  run starts where there is something to load from.
* `Callers.Nearing`, `Callers.Sound.nearing_run` — a caller that polls comes to its answer,
  whatever the others do in between.
* `Callers.Shares`, `Callers.loads_are_shared` — all of it, in every interleaving.
-/

namespace ModelMapper

open LazyField (Slot.ofResult)

variable {α : Type}

namespace Loading

/-- The load that the first get will start, if nothing has been loaded. -/
def unstarted (l : Loading α) : Nat := if l.field.status = .notLoaded then 1 else 0

theorem unstarted_eq_one {l : Loading α} (hslot : l.field.slot = .notLoaded) : l.unstarted = 1 :=
  if_pos (by rw [LazyField.status, hslot])

theorem unstarted_settle_le (l : Loading α) (g : Nat) (r : Result α) :
    { l with field := l.field.settle g r }.unstarted ≤ l.unstarted := by
  by_cases hslot : l.field.slot = .loading g
  · rw [LazyField.settle_current hslot]
    cases r <;> exact Nat.zero_le _
  · exact Nat.le_of_eq (by rw [LazyField.settle_late hslot])

end Loading

namespace Callers

variable {s : Callers α}

namespace Move

def refreshes : Move α → Bool
  | ask call => call.request == .refresh
  | _ => false

def polls (i : Nat) : Move α → Bool
  | poll j => j == i
  | _ => false

/-- The caller that moves. A caller that asks is there only afterwards. -/
def mover? : Move α → Option Nat
  | ask _ => none
  | poll i => some i
  | settle i => some i
  | abandon i => some i

end Move

/-! ## Asking -/

/-- What asking does. -/
inductive Asks (s : Callers α) (call : LazyCall α) : Prop where
  /-- A get starts a load only where nothing has been loaded. -/
  | starts (hget : call.request = .get → s.loading.field.slot = .notLoaded)
      (hstarted : (s.ask call).loading.field.slot = .loading (s.loading.loads.length + 1))
      (hcalls : (s.ask call).loading.calls =
        s.loading.calls + if s.loading.field.bound then 1 else 0)
      (hlatest : (s.ask call).loading.loads.length = s.loading.loads.length + 1)
      (hcallers : (s.ask call).callers =
        s.callers ++ [⟨call, .waiting (s.loading.loads.length + 1), .waiting⟩])
  /-- The load in flight is the latest one. -/
  | joins (hget : call.request = .get)
      (hslot : s.loading.field.slot = .loading s.loading.loads.length)
      (hkept : (s.ask call).loading = s.loading)
      (hcallers : (s.ask call).callers =
        s.callers ++ [⟨call, .waiting s.loading.loads.length, .waiting⟩])
  | cached (hget : call.request = .get) {r : Result α}
      (hslot : s.loading.field.slot = Slot.ofResult r)
      (hkept : (s.ask call).loading = s.loading)
      (hcallers : (s.ask call).callers = s.callers ++ [⟨call, .done r, .answered (call.answer r)⟩])

theorem Sound.asks (h : s.Sound) (call : LazyCall α) : Asks s call := by
  obtain ⟨r, hget, hslot, henter⟩ | ⟨g, hget, hslot, henter⟩ | ⟨hget, henter⟩ :=
    s.loading.enter_cases call.request
  · refine .cached hget hslot ?_ ?_
    · rw [Callers.ask, henter]
    · rw [Callers.ask, henter]
      rfl
  · obtain ⟨rfl, -⟩ := h.loading.current g hslot
    refine .joins hget hslot ?_ ?_
    · rw [Callers.ask, henter]
    · rw [Callers.ask, henter]
      rfl
  · rw [h.loading.generation] at henter
    refine .starts hget ?_ ?_ ?_ ?_ <;> rw [Callers.ask, henter]
    · exact congrArg (fun g => Slot.loading (g + 1)) h.loading.generation
    · exact Loading.calls_launched s.loading
    · exact Loading.length_launched s.loading
    · rfl

/-! ## What a step does to the loads -/

/-- What a step does to the field and its loads. -/
inductive Moved (l : Loading α) (m : Move α) : Loading α → Prop where
  | kept : Moved l m l
  | started (hget : m.refreshes = false → l.field.slot = .notLoaded) : Moved l m l.launched
  | polled {g n : Nat} {load : Load α} (hload : l.load? g = some load) (hw : load.waits = n + 1) :
    Moved l m (l.withLoad g { load with waits := n })
  | told (g : Nat) (r : Result α) : Moved l m { l with field := l.field.settle g r }

theorem Sound.moved (h : s.Sound) (m : Move α) : Moved s.loading m (s.play m).loading := by
  cases m with
  | ask call =>
    show Moved _ _ (s.loading.enter call.request).2
    obtain ⟨r, -, -, henter⟩ | ⟨g, -, -, henter⟩ | ⟨hget, henter⟩ :=
      s.loading.enter_cases call.request
    · rw [henter]
      exact .kept
    · rw [henter]
      exact .kept
    · rw [henter]
      refine .started fun hm => hget ?_
      cases hrequest : call.request with
      | get => rfl
      | refresh => rw [Move.refreshes, hrequest] at hm; cases hm
  | poll i =>
    show Moved _ _ (s.poll i).loading
    have hpolled := h.polled i
    generalize s.poll i = s' at hpolled ⊢
    cases hpolled with
    | nobody => exact .kept
    | pending hi hload hw => exact .polled hload hw
    | ready => exact .kept
  | settle i =>
    show Moved _ _ (s.settle i).loading
    rw [Callers.settle]
    split
    · exact .told _ _
    · exact .kept
  | abandon i =>
    show Moved _ _ (s.abandon i).loading
    rw [Callers.abandon]
    split <;> exact .kept

section Moved

variable {l l' : Loading α} {m : Move α}

/-- A step asks for a load of its own if it is a refresh, and else for the first one at most. -/
theorem Moved.calls_le (h : Moved l m l') :
    l'.calls + l'.unstarted ≤ l.calls + l.unstarted + if m.refreshes then 1 else 0 := by
  cases h with
  | kept => exact Nat.le_add_right _ _
  | started hget =>
    have hload : (if l.field.bound then 1 else 0) ≤ 1 := by split <;> omega
    have hnone : l.launched.unstarted = 0 := rfl
    rw [Loading.calls_launched, hnone]
    cases hm : m.refreshes with
    | false =>
      -- The load that was to come has started.
      rw [Loading.unstarted_eq_one (hget hm)]
      omega
    | true =>
      rw [if_pos rfl]
      omega
  | polled => exact Nat.le_add_right _ _
  | told g r =>
    exact Nat.le_trans (Nat.add_le_add_left (l.unstarted_settle_le g r) _) (Nat.le_add_right _ _)

/-- Every step leaves a load its outcome, and takes it no further away. -/
theorem Moved.load? (h : Moved l m l') {g : Nat} {load : Load α} (hload : l.load? g = some load) :
    ∃ n, n ≤ load.waits ∧ l'.load? g = some { load with waits := n } := by
  cases h with
  | kept => exact ⟨load.waits, Nat.le_refl _, hload⟩
  | started => exact ⟨load.waits, Nat.le_refl _, Loading.load?_launched hload⟩
  | @polled g' n load' hload' hw =>
    rw [Loading.load?_withLoad hload']
    by_cases hg : g = g'
    · subst hg
      obtain rfl : load' = load := Option.some.inj (hload'.symm.trans hload)
      exact ⟨n, by omega, if_pos rfl⟩
    · exact ⟨load.waits, Nat.le_refl _, (if_neg hg).trans hload⟩
  | told => exact ⟨load.waits, Nat.le_refl _, hload⟩

end Moved

theorem Sound.calls_run (h : s.Sound) (moves : List (Move α)) :
    (s.run moves).loading.calls + (s.run moves).loading.unstarted ≤
      s.loading.calls + s.loading.unstarted + moves.countP Move.refreshes := by
  induction moves generalizing s with
  | nil => exact Nat.le_refl _
  | cons m moves ih =>
    have hplay := (h.moved m).calls_le
    have hrest := ih (h.play m)
    rw [List.countP_cons]
    show ((s.play m).run moves).loading.calls + ((s.play m).run moves).loading.unstarted ≤ _
    omega

theorem Sound.outcome_run (h : s.Sound) (moves : List (Move α)) {g : Nat} {r : Result α}
    (hr : s.loading.outcome? g = some r) : (s.run moves).loading.outcome? g = some r := by
  induction moves generalizing s with
  | nil => exact hr
  | cons m moves ih =>
    obtain ⟨load, hload, rfl⟩ := Option.map_eq_some_iff.1 hr
    obtain ⟨n, -, hload'⟩ := (h.moved m).load? hload
    exact ih (h.play m) (congrArg (Option.map Load.outcome) hload')

/-! ## Coming to an answer -/

/-- A caller stays where it is while others move. -/
theorem callers_play {m : Move α} {i : Nat} {c : Caller α} (hm : m.mover? ≠ some i)
    (hi : s.callers[i]? = some c) : (s.play m).callers[i]? = some c := by
  cases m with
  | ask call =>
    show (s.callers ++ _)[i]? = some c
    rw [List.getElem?_append_left (List.getElem?_eq_some_iff.1 hi).1, hi]
  | poll j =>
    have hne : j ≠ i := fun heq => hm (congrArg some heq)
    show (s.poll j).callers[i]? = some c
    rw [poll]
    split
    · split
      · exact (List.getElem?_set_ne hne).trans hi
      · exact hi
    · exact hi
  | settle j =>
    have hne : j ≠ i := fun heq => hm (congrArg some heq)
    show (s.settle j).callers[i]? = some c
    rw [settle]
    split
    · exact (List.getElem?_set_ne hne).trans hi
    · exact hi
  | abandon j =>
    have hne : j ≠ i := fun heq => hm (congrArg some heq)
    show (s.abandon j).callers[i]? = some c
    rw [abandon]
    split
    · exact hi
    · exact (List.getElem?_set_ne hne).trans hi
    · exact hi

theorem getElem?_set_caller {callers : List (Caller α)} {i : Nat} {c : Caller α}
    (hi : callers[i]? = some c) (c' : Caller α) : (callers.set i c')[i]? = some c' :=
  List.getElem?_set_self (List.getElem?_eq_some_iff.1 hi).1

/-- A caller of a load has its outcome, or will have it when it has polled `n` times. -/
inductive Nearing (s : Callers α) (i : Nat) (call : LazyCall α) (g : Nat) (r : Result α)
    (n : Nat) : Prop where
  | waiting {waits : Nat} (hi : s.callers[i]? = some ⟨call, .waiting g, .waiting⟩)
      (hload : s.loading.load? g = some ⟨waits, r⟩) (hn : waits < n)
  | holding (hi : s.callers[i]? = some ⟨call, .waiting g, .holding r⟩)
  | answered (hi : s.callers[i]? = some ⟨call, .waiting g, .answered (call.answer r)⟩)

variable {i g n : Nat} {call : LazyCall α} {r : Result α}

theorem Sound.nearing_poll (h : s.Sound) (hn : s.Nearing i call g r n) :
    (s.poll i).Nearing i call g r (n - 1) := by
  have hpolled := h.polled i
  generalize s.poll i = s' at hpolled ⊢
  cases hn with
  | @waiting waits hi hload hlt =>
    cases hpolled with
    | nobody hnobody => exact absurd hi (hnobody _ _)
    | @pending call' g' n' load hi' hload' hw =>
      cases hi.symm.trans hi'
      obtain rfl : load = ⟨waits, r⟩ := Option.some.inj (hload'.symm.trans hload)
      obtain rfl : waits = n' + 1 := hw
      refine .waiting hi ?_ (Nat.lt_sub_of_add_lt hlt)
      rw [Loading.load?_withLoad hload', if_pos rfl]
    | @ready call' g' load hi' hload' hw =>
      cases hi.symm.trans hi'
      obtain rfl : load = ⟨waits, r⟩ := Option.some.inj (hload'.symm.trans hload)
      exact .holding (getElem?_set_caller hi _)
  | holding hi =>
    cases hpolled with
    | nobody => exact .holding hi
    | pending hi' => cases hi.symm.trans hi'
    | ready hi' => cases hi.symm.trans hi'
  | answered hi =>
    cases hpolled with
    | nobody => exact .answered hi
    | pending hi' => cases hi.symm.trans hi'
    | ready hi' => cases hi.symm.trans hi'

theorem Nearing.settle (hn : s.Nearing i call g r n) : (s.settle i).Nearing i call g r n := by
  have hsettled := s.settled i
  generalize s.settle i = s' at hsettled ⊢
  cases hsettled with
  | nobody => exact hn
  | told hi' =>
    cases hn with
    | waiting hi => cases hi.symm.trans hi'
    | holding hi =>
      cases hi.symm.trans hi'
      exact .answered (getElem?_set_caller hi _)
    | answered hi => cases hi.symm.trans hi'

/-- A caller comes closer when it polls, and no step of another takes it back. -/
theorem Sound.nearing_play (h : s.Sound) (hn : s.Nearing i call g r n) {m : Move α}
    (hm : m ≠ .abandon i) :
    (s.play m).Nearing i call g r (n - if m.polls i then 1 else 0) := by
  by_cases hmover : m.mover? = some i
  · cases m with
    | ask call' => cases hmover
    | poll j =>
      cases hmover
      rw [Move.polls, beq_self_eq_true, if_pos rfl]
      exact h.nearing_poll hn
    | settle j =>
      cases hmover
      exact hn.settle
    | abandon j =>
      cases hmover
      exact absurd rfl hm
  · have hpolls : m.polls i = false := by
      cases m with
      | poll j => exact beq_false_of_ne fun heq => hmover (congrArg some heq)
      | _ => rfl
    rw [hpolls]
    cases hn with
    | waiting hi hload hlt =>
      obtain ⟨waits, hwaits, hload'⟩ := (h.moved m).load? hload
      exact .waiting (callers_play hmover hi) hload' (Nat.lt_of_le_of_lt hwaits hlt)
    | holding hi => exact .holding (callers_play hmover hi)
    | answered hi => exact .answered (callers_play hmover hi)

theorem Sound.nearing_run (h : s.Sound) (hn : s.Nearing i call g r n) {moves : List (Move α)}
    (hmoves : .abandon i ∉ moves) :
    (s.run moves).Nearing i call g r (n - moves.countP (Move.polls i)) := by
  induction moves generalizing s n with
  | nil => exact hn
  | cons m moves ih =>
    have hm : m ≠ .abandon i := fun heq => hmoves (heq ▸ List.mem_cons_self)
    have hrest := ih (h.play m) (h.nearing_play hn hm) fun hmem =>
      hmoves (List.mem_cons_of_mem _ hmem)
    rw [List.countP_cons, Nat.add_comm, ← Nat.sub_sub]
    exact hrest

/-- A caller that has polled often enough needs only to tell the field. -/
theorem Nearing.arrives (hn : s.Nearing i call g r 0) :
    (s.settle i).callers[i]? = some ⟨call, .waiting g, .answered (call.answer r)⟩ := by
  cases hn with
  | waiting hi hload hlt => exact absurd hlt (Nat.not_lt_zero _)
  | holding hi =>
    rw [Callers.settle, hi]
    exact getElem?_set_caller hi _
  | answered hi =>
    rw [Callers.settle, hi]
    exact hi

/-! ## All together -/

/-- Loads are shared. -/
structure Shares (s : Callers α) : Prop where
  asks : ∀ call, Asks s call
  /-- Each refresh loads at most once, and all gets together at most once, if nothing has been
      loaded. -/
  calls : ∀ more, (s.run more).loading.calls ≤ s.loading.calls + more.countP Move.refreshes +
    if s.loading.field.status = .notLoaded then 1 else 0
  /-- The load that a caller waits for has one outcome, now and later. -/
  outcome : ∀ {i : Nat} {call : LazyCall α} {g : Nat},
    s.callers[i]? = some ⟨call, .waiting g, .waiting⟩ →
    ∃ load, s.loading.load? g = some load ∧
      ∀ more, (s.run more).loading.outcome? g = some load.outcome
  /-- A caller that goes on polling gets that outcome, whatever the others do. -/
  arrives : ∀ {i : Nat} {call : LazyCall α} {g : Nat} {load : Load α},
    s.callers[i]? = some ⟨call, .waiting g, .waiting⟩ → s.loading.load? g = some load →
    ∀ more, Move.abandon i ∉ more → load.waits < more.countP (Move.polls i) →
      ((s.run more).settle i).callers[i]? =
        some ⟨call, .waiting g, .answered (call.answer load.outcome)⟩
  /-- A caller is told nothing else. A caller of the latest load leaves it in the field. -/
  told : ∀ {i : Nat} {call : LazyCall α} {g : Nat} {answer : Result α},
    s.callers[i]? = some ⟨call, .waiting g, .answered answer⟩ →
    ∃ r, s.loading.outcome? g = some r ∧ answer = call.answer r ∧
      (g = s.loading.loads.length → s.loading.field.slot = Slot.ofResult r)
  /-- What the field holds after a load is the outcome of the latest. -/
  latest : ∀ r, s.loading.field.slot = Slot.ofResult r → s.loading.loads ≠ [] →
    s.loading.latest? = some r

theorem Sound.shares (h : s.Sound) : s.Shares where
  asks := h.asks
  calls more := by
    have hcalls := h.calls_run more
    rw [Loading.unstarted.eq_def s.loading] at hcalls
    omega
  outcome hi := by
    cases h.callers _ (List.mem_of_getElem? hi) with
    | waiting _ hout =>
      obtain ⟨load, hload, rfl⟩ := Option.map_eq_some_iff.1 hout
      exact ⟨load, hload, fun more => h.outcome_run more hout⟩
  arrives {i call g load} hi hload more habandon hpolls := by
    have hrun := h.nearing_run (.waiting hi hload (Nat.lt_succ_self load.waits)) habandon
    rw [Nat.sub_eq_zero_of_le hpolls] at hrun
    exact hrun.arrives
  told hi := by
    cases h.callers _ (List.mem_of_getElem? hi) with
    | @answered _ _ r hout hslot => exact ⟨r, hout, rfl, hslot⟩
  latest r hslot hne := (h.loading.latest r hslot).resolve_left hne

/-- Loads are shared in every interleaving of callers, however they come, finish or go. -/
theorem loads_are_shared {field : LazyField α} (hnew : field.New) (coming : List (Load α))
    (moves : List (Move α)) : ((start field coming).run moves).Shares :=
  ((sound_start hnew coming).run moves).shares

/-- A refresh beside a load that is slower: its outcome stays, and both callers have their own. -/
theorem loads_are_shared_beside_refresh :
    let s := (start LazyField.unloaded [⟨1, .ok 1⟩, ⟨0, .ok 2⟩] : Callers Nat).run
      [.ask .get, .ask .refresh, .ask (.getOr 9), .poll 1, .settle 1, .poll 0, .poll 0, .settle 0]
    s.Shares ∧ s.loading.field.slot = .loaded 2 ∧ s.loading.calls = 2 ∧
      s.callers = [⟨.get, .waiting 1, .answered (.ok 1)⟩, ⟨.refresh, .waiting 2, .answered (.ok 2)⟩,
        ⟨.getOr 9, .waiting 2, .waiting⟩] :=
  ⟨loads_are_shared .unloaded _ _, rfl, rfl, rfl⟩

end Callers

end ModelMapper
