import ModelMapper.Proofs.Lazy.Sharing

/-! # Loads in flight

A load is in flight from its start until some caller polls it to its outcome.  A load that the
field has given up and that nobody waits for is dropped.

A get never puts a second load in flight, but a refresh does not look whether there is one.

* `Callers.inFlight` — the loads in flight.
* `Callers.overlaps` — how many refreshes were asked for while a load was in flight.
* `Callers.Sound.flying_play` — only asking puts a load in flight.
* `Callers.loads_overlap_by_refresh` — no more loads overlap than refreshes came in between, and a
  refresh beside a waiting caller makes two.
-/

namespace ModelMapper

variable {α : Type}

def LazyField.awaits (f : LazyField α) (g : Nat) : Bool :=
  match f.slot with
  | .loading current => current == g
  | _ => false

theorem LazyField.awaits_iff {f : LazyField α} {g : Nat} :
    f.awaits g = true ↔ f.slot = .loading g := by
  obtain ⟨bound, slot, generation⟩ := f
  cases slot <;> simp [awaits]

def Caller.awaits (c : Caller α) (g : Nat) : Bool :=
  match c with
  | ⟨_, .waiting current, .waiting⟩ => current == g
  | _ => false

theorem Caller.awaits_iff {c : Caller α} {g : Nat} :
    c.awaits g = true ↔ ∃ call, c = ⟨call, .waiting g, .waiting⟩ := by
  obtain ⟨call, ticket, progress⟩ := c
  cases ticket <;> cases progress <;> simp [awaits]

namespace Callers

variable {s : Callers α}

/-- A load has not completed, and there is somebody to complete it. -/
def flying (s : Callers α) (g : Nat) : Bool :=
  !s.completed.contains g && (s.loading.field.awaits g || s.callers.any (Caller.awaits · g))

theorem flying_iff {g : Nat} : s.flying g = true ↔ g ∉ s.completed ∧
    (s.loading.field.slot = .loading g ∨ ∃ call, ⟨call, .waiting g, .waiting⟩ ∈ s.callers) := by
  simp only [flying, Bool.and_eq_true, Bool.not_eq_true', List.contains_eq_mem,
    decide_eq_false_iff_not, Bool.or_eq_true, LazyField.awaits_iff, List.any_eq_true,
    Caller.awaits_iff]
  refine and_congr_right fun _ => or_congr_right ⟨?_, ?_⟩
  · rintro ⟨c, hc, call, rfl⟩
    exact ⟨call, hc⟩
  · rintro ⟨call, hc⟩
    exact ⟨_, hc, call, rfl⟩

def inFlight (s : Callers α) : List Nat := (List.range' 1 s.loading.loads.length).filter s.flying

/-- The last load that has started is in flight, or not, beside the others. -/
theorem inFlight_of_length {n : Nat} (hn : s.loading.loads.length = n + 1) :
    s.inFlight = (List.range' 1 n).filter s.flying ++ [1 + n].filter s.flying := by
  rw [inFlight, hn, List.range'_1_concat, List.filter_append]

/-- The refreshes asked for while a load is in flight. -/
def overlaps : Callers α → List (Move α) → Nat
  | _, [] => 0
  | s, m :: moves =>
    (if m.refreshes && !s.inFlight.isEmpty then 1 else 0) + (s.play m).overlaps moves

/-! ## Steps -/

section Waiting

variable {callers : List (Caller α)} {g : Nat} {c : Caller α}

/-- Whoever waits was there already, or has just come. -/
theorem waiting_of_mem_append
    (hmem : ∃ call, ⟨call, .waiting g, .waiting⟩ ∈ callers ++ [c]) :
    (∃ call, ⟨call, .waiting g, .waiting⟩ ∈ callers) ∨ c.awaits g = true := by
  obtain ⟨call, hmem⟩ := hmem
  obtain hmem | heq := List.mem_append.1 hmem
  · exact .inl ⟨call, hmem⟩
  · exact .inr (Caller.awaits_iff.2 ⟨call, (List.mem_singleton.1 heq).symm⟩)

/-- A caller that has moved on waits no more. -/
theorem waiting_of_mem_set {i : Nat} (hc : c.awaits g = false)
    (hmem : ∃ call, ⟨call, .waiting g, .waiting⟩ ∈ callers.set i c) :
    ∃ call, ⟨call, .waiting g, .waiting⟩ ∈ callers := by
  obtain ⟨call, hmem⟩ := hmem
  obtain hmem | heq := List.mem_or_eq_of_mem_set hmem
  · exact ⟨call, hmem⟩
  · rw [Caller.awaits_iff.2 ⟨call, heq.symm⟩] at hc
    cases hc

end Waiting

/-- A field that is told an outcome waits for no other load. -/
theorem slot_of_settle {f : LazyField α} {g g' : Nat} {r : Result α}
    (hslot : (f.settle g r).slot = .loading g') : f.slot = .loading g' := by
  by_cases hg : f.slot = .loading g
  · rw [LazyField.settle_current hg] at hslot
    exact absurd hslot (Slot.ofResult_ne_loading r g')
  · rwa [LazyField.settle_late hg] at hslot

theorem Sound.flying_ask (h : s.Sound) (call : LazyCall α) {g : Nat}
    (hg : g ≤ s.loading.loads.length) (hf : (s.ask call).flying g = true) : s.flying g = true := by
  obtain ⟨hcompleted, hwaits⟩ := flying_iff.1 hf
  refine flying_iff.2 ⟨hcompleted, ?_⟩
  cases h.asks call with
  | starts _ hstarted _ _ hcallers =>
    rw [hstarted, hcallers] at hwaits
    obtain hslot | hmem := hwaits
    · cases hslot
      omega
    · obtain hmem | hnew := waiting_of_mem_append hmem
      · exact .inr hmem
      · have : s.loading.loads.length + 1 = g := beq_iff_eq.1 hnew
        omega
  | joins _ hslot hkept hcallers =>
    rw [hkept, hcallers] at hwaits
    obtain hslot' | hmem := hwaits
    · exact .inl hslot'
    · obtain hmem | hnew := waiting_of_mem_append hmem
      · exact .inr hmem
      · exact .inl (beq_iff_eq.1 hnew ▸ hslot)
  | cached _ _ hkept hcallers =>
    rw [hkept, hcallers] at hwaits
    refine hwaits.imp_right fun hmem => (waiting_of_mem_append hmem).resolve_right ?_
    exact Bool.false_ne_true

/-- Only asking puts a load in flight, and that one is new. -/
theorem Sound.flying_play (h : s.Sound) (m : Move α) {g : Nat} (hg : g ≤ s.loading.loads.length)
    (hf : (s.play m).flying g = true) : s.flying g = true := by
  cases m with
  | ask call => exact h.flying_ask call hg hf
  | poll i =>
    replace hf : (s.poll i).flying g = true := hf
    have hpolled := h.polled i
    generalize s.poll i = s' at hpolled hf
    cases hpolled with
    | nobody => exact hf
    | pending => exact hf
    | ready hi =>
      obtain ⟨hcompleted, hwaits⟩ := flying_iff.1 hf
      refine flying_iff.2 ⟨fun hmem => hcompleted (List.mem_cons_of_mem _ hmem), ?_⟩
      exact hwaits.imp_right (waiting_of_mem_set rfl)
  | settle i =>
    replace hf : (s.settle i).flying g = true := hf
    have hsettled := s.settled i
    generalize s.settle i = s' at hsettled hf
    cases hsettled with
    | nobody => exact hf
    | told hi =>
      obtain ⟨hcompleted, hwaits⟩ := flying_iff.1 hf
      exact flying_iff.2 ⟨hcompleted, hwaits.imp slot_of_settle (waiting_of_mem_set rfl)⟩
  | abandon i =>
    replace hf : (s.abandon i).flying g = true := hf
    rw [Callers.abandon] at hf
    split at hf
    · exact hf
    · obtain ⟨hcompleted, hwaits⟩ := flying_iff.1 hf
      refine flying_iff.2 ⟨hcompleted, hwaits.imp_right (waiting_of_mem_set ?_)⟩
      simp [Caller.awaits]
    · exact hf

/-- A step starts a load if it is a refresh, or a get where nothing has been loaded. -/
theorem Sound.length_play (h : s.Sound) (m : Move α) :
    (s.play m).loading.loads.length = s.loading.loads.length ∨
    (s.play m).loading.loads.length = s.loading.loads.length + 1 ∧
      (m.refreshes = false → s.loading.loads = []) := by
  have hmoved := h.moved m
  generalize (s.play m).loading = l at hmoved ⊢
  cases hmoved with
  | kept | told => exact .inl rfl
  | started hget =>
    exact .inr ⟨Loading.length_launched _, fun hm => h.loading.unloaded (hget hm)⟩
  | polled => exact .inl (Loading.length_withLoad _ _ _)

theorem Sound.length_inFlight_play (h : s.Sound) (m : Move α) :
    (s.play m).inFlight.length ≤
      max 1 s.inFlight.length + if m.refreshes && !s.inFlight.isEmpty then 1 else 0 := by
  have hold : ((List.range' 1 s.loading.loads.length).filter (s.play m).flying).length ≤
      s.inFlight.length := by
    rw [inFlight, ← List.countP_eq_length_filter, ← List.countP_eq_length_filter]
    refine List.countP_mono_left fun g hg => h.flying_play m ?_
    have := List.mem_range'_1.1 hg
    omega
  obtain hlength | ⟨hlength, hget⟩ := h.length_play m
  · rw [inFlight, hlength]
    omega
  · have hnew := List.length_filter_le (s.play m).flying [1 + s.loading.loads.length]
    rw [List.length_singleton] at hnew
    rw [inFlight_of_length hlength, List.length_append]
    by_cases hnone : s.inFlight = []
    · rw [hnone] at hold ⊢
      exact Nat.le_trans (Nat.add_le_add hold hnew) (Nat.le_add_right _ _)
    · cases hrefreshes : m.refreshes with
      | false =>
        -- A get starts a load only where there is none.
        refine absurd ?_ hnone
        rw [inFlight, hget hrefreshes]
        rfl
      | true =>
        rw [List.isEmpty_eq_false_iff.2 hnone]
        show _ ≤ max 1 s.inFlight.length + 1
        omega

theorem Sound.length_inFlight_run (h : s.Sound) (moves : List (Move α)) :
    (s.run moves).inFlight.length ≤ max 1 s.inFlight.length + s.overlaps moves := by
  induction moves generalizing s with
  | nil => exact Nat.le_max_right _ _
  | cons m moves ih =>
    have hplay := h.length_inFlight_play m
    have hrest := ih (h.play m)
    rw [overlaps]
    show ((s.play m).run moves).inFlight.length ≤ _
    omega

/-- A refresh leaves the load of a caller who waits in flight, and starts its own. -/
theorem Sound.two_le_length_inFlight (h : s.Sound) {call : LazyCall α} {g : Nat}
    (hg : g ∈ s.inFlight) (hc : ⟨call, .waiting g, .waiting⟩ ∈ s.callers) :
    2 ≤ (s.ask .refresh).inFlight.length := by
  obtain ⟨hrange, hflying⟩ := List.mem_filter.1 hg
  cases h.asks .refresh with
  | joins hget => cases hget
  | cached hget => cases hget
  | starts _ hstarted _ hlatest hcallers =>
    have hold : (s.ask .refresh).flying g = true := by
      refine flying_iff.2 ⟨(flying_iff.1 hflying).1, .inr ⟨call, ?_⟩⟩
      rw [hcallers]
      exact List.mem_append_left _ hc
    have hnew : (s.ask .refresh).flying (1 + s.loading.loads.length) = true := by
      rw [Nat.add_comm]
      refine flying_iff.2 ⟨fun hmem => ?_, .inl hstarted⟩
      exact Nat.not_succ_le_self _ (h.completed _ hmem)
    rw [inFlight_of_length hlatest, List.length_append]
    exact Nat.add_le_add (List.length_pos_of_mem (List.mem_filter.2 ⟨hrange, hold⟩))
      (List.length_pos_of_mem (List.mem_filter.2 ⟨List.mem_singleton_self _, hnew⟩))

/-! ## Every interleaving -/

/-- However callers interleave, beyond one load only those overlap that a refresh started beside
    another; and in every state a refresh does so if somebody waits for a load in flight. -/
theorem loads_overlap_by_refresh {field : LazyField α} (hnew : field.New)
    (coming : List (Load α)) (moves : List (Move α)) :
    ((start field coming).run moves).inFlight.length ≤ 1 + (start field coming).overlaps moves ∧
    ∀ {call : LazyCall α} {g : Nat}, g ∈ ((start field coming).run moves).inFlight →
      ⟨call, .waiting g, .waiting⟩ ∈ ((start field coming).run moves).callers →
      2 ≤ (((start field coming).run moves).ask .refresh).inFlight.length := by
  have h := sound_start hnew coming
  exact ⟨h.length_inFlight_run moves, fun hg hc => (h.run moves).two_le_length_inFlight hg hc⟩

/-- Two refreshes beside a get, one after the other: three loads, all in flight. -/
theorem loads_overlap_by_two_refreshes :
    let s : Callers Nat := start .unloaded [⟨1, .ok 1⟩]
    let moves := [.ask .get, .ask .refresh, .ask .refresh]
    s.overlaps moves = 2 ∧ (s.run moves).inFlight = [1, 2, 3] ∧
      (s.run moves).inFlight.length ≤ 1 + s.overlaps moves ∧
      2 ≤ ((s.run moves).ask .refresh).inFlight.length := by
  intro s moves
  have hflight : (s.run moves).inFlight = [1, 2, 3] := rfl
  have hcaller : ⟨.get, .waiting 1, .waiting⟩ ∈ (s.run moves).callers := List.mem_cons_self
  obtain ⟨hbound, htwo⟩ := loads_overlap_by_refresh .unloaded [⟨1, .ok 1⟩] moves
  exact ⟨rfl, hflight, hbound, htwo (hflight ▸ List.mem_cons_self) hcaller⟩

/-- One get and one refresh are enough for two loads in flight at a time. -/
theorem two_loads_in_flight :
    let s : Callers Nat := (start .unloaded [⟨2, .ok 1⟩, ⟨2, .ok 2⟩]).run
      [.ask .get, .poll 0, .ask .refresh, .poll 1]
    s.inFlight = [1, 2] ∧ s.loading.calls = 2 ∧
      s.callers = [⟨.get, .waiting 1, .waiting⟩, ⟨.refresh, .waiting 2, .waiting⟩] :=
  ⟨rfl, rfl, rfl⟩

end Callers

end ModelMapper
