import ModelMapper.Lazy.Polling

/-! # Callers of a lazy field

Any number of callers ask one field, or clones of it, which share its state.  Each caller asks in
one step, polls its load in later ones, and takes the field's lock once more when the load has
answered.  Others come in between everywhere, and a caller can be abandoned anywhere.

How often a load is polled in vain is part of the load, so loads complete in any order.

* `LazyCall`, `Caller`, `Callers` — what callers ask for, and how far they have come.
* `Callers.play`, `Callers.run` — one step of one caller, and any interleaving.
* `Loading.Sound` — a field knows the number of its latest load and holds no other load's outcome.
* `Caller.Sound` — a caller has the outcome of its own load.
* `Callers.Sound.play`, `Callers.Sound.run` — both hold after every step, and in every run.
-/

namespace ModelMapper

open LazyField (Slot.ofResult)

variable {α : Type}

/-! ## Callers -/

/-- What can be asked of a field. -/
inductive LazyCall (α : Type) where
  | get
  /-- A value in place of a failure. -/
  | getOr (default : α)
  | refresh
  | refreshIfNeeded

namespace LazyCall

def request : LazyCall α → LazyRequest
  | refresh => .refresh
  | _ => .get

/-- What the caller is told of an outcome. -/
def answer : LazyCall α → Result α → Result α
  | getOr default, r => .ok (r.valueOr default)
  | _, r => r

end LazyCall

inductive Progress (α : Type) where
  | waiting
  /-- The load has answered, and the field is still to be told. -/
  | holding (r : Result α)
  | answered (r : Result α)
  | abandoned

/-- A caller that has asked, with what it got in hand. -/
structure Caller (α : Type) where
  call : LazyCall α
  ticket : Ticket α
  progress : Progress α

/-- A caller that has just asked. A cached outcome is its answer. -/
def Caller.start (call : LazyCall α) (ticket : Ticket α) : Caller α :=
  ⟨call, ticket,
    match ticket with
    | .done r => .answered (call.answer r)
    | .waiting _ => .waiting⟩

structure Callers (α : Type) where
  loading : Loading α
  callers : List (Caller α)
  /-- The loads that have completed. -/
  completed : List Nat

namespace Callers

def start (field : LazyField α) (coming : List (Load α)) : Callers α :=
  ⟨Loading.start field coming, [], []⟩

inductive Move (α : Type) where
  | ask (call : LazyCall α)
  | poll (i : Nat)
  | settle (i : Nat)
  | abandon (i : Nat)

def ask (s : Callers α) (call : LazyCall α) : Callers α :=
  { s with
    loading := (s.loading.enter call.request).2
    callers := s.callers ++ [.start call (s.loading.enter call.request).1] }

/-- A caller polls its load. The field is told in a step of its own. -/
def poll (s : Callers α) (i : Nat) : Callers α :=
  match s.callers[i]? with
  | some ⟨call, .waiting g, .waiting⟩ =>
    match s.loading.poll (.waiting g) with
    | (.done r, loading) =>
      { loading := { loading with field := s.loading.field }
        callers := s.callers.set i ⟨call, .waiting g, .holding r⟩
        completed := g :: s.completed }
    | (.waiting _, loading) => { s with loading := loading }
  | _ => s

/-- A caller tells the field what its load has answered. -/
def settle (s : Callers α) (i : Nat) : Callers α :=
  match s.callers[i]? with
  | some ⟨call, .waiting g, .holding r⟩ =>
    { s with
      loading := { s.loading with field := s.loading.field.settle g r }
      callers := s.callers.set i ⟨call, .waiting g, .answered (call.answer r)⟩ }
  | _ => s

def abandon (s : Callers α) (i : Nat) : Callers α :=
  match s.callers[i]? with
  | some ⟨_, _, .answered _⟩ => s
  | some c => { s with callers := s.callers.set i { c with progress := .abandoned } }
  | none => s

def play (s : Callers α) : Move α → Callers α
  | .ask call => s.ask call
  | .poll i => s.poll i
  | .settle i => s.settle i
  | .abandon i => s.abandon i

def run (s : Callers α) (moves : List (Move α)) : Callers α := moves.foldl play s

end Callers

/-! ## Loads -/

namespace Slot

theorem ofResult_inj {r r' : Result α} (h : Slot.ofResult r = Slot.ofResult r') : r = r' := by
  cases r <;> cases r' <;> cases h <;> rfl

/-- A slot is empty, has a load in flight, or holds an outcome. -/
theorem cases_eq (slot : Slot α) :
    slot = .notLoaded ∨ (∃ g, slot = .loading g) ∨ ∃ r, slot = Slot.ofResult r := by
  cases slot with
  | notLoaded => exact .inl rfl
  | loading g => exact .inr (.inl ⟨g, rfl⟩)
  | loaded a => exact .inr (.inr ⟨.ok a, rfl⟩)
  | failed e => exact .inr (.inr ⟨.error e, rfl⟩)

theorem ofResult_ne_loading (r : Result α) (g : Nat) : Slot.ofResult r ≠ .loading g := by
  cases r <;> nofun

end Slot

namespace Loading

variable {l : Loading α}

/-- The load of a number; loads are numbered from one. -/
def load? (l : Loading α) : Nat → Option (Load α)
  | 0 => none
  | g + 1 => l.loads[g]?

def outcome? (l : Loading α) (g : Nat) : Option (Result α) := (l.load? g).map Load.outcome

/-- The outcome of the load started last. -/
def latest? (l : Loading α) : Option (Result α) := l.outcome? l.loads.length

theorem le_of_outcome {g : Nat} {r : Result α} (h : l.outcome? g = some r) :
    0 < g ∧ g ≤ l.loads.length := by
  cases g with
  | zero => cases h
  | succ g =>
    obtain ⟨load, hload, -⟩ := Option.map_eq_some_iff.1 h
    exact ⟨Nat.succ_pos g, (List.getElem?_eq_some_iff.1 hload).1⟩

theorem loads_ne_nil {g : Nat} {r : Result α} (h : l.outcome? g = some r) : l.loads ≠ [] := by
  rintro hnil
  have hle := le_of_outcome h
  rw [hnil, List.length_nil] at hle
  omega

theorem exists_latest (h : l.loads ≠ []) : ∃ r, l.latest? = some r := by
  obtain ⟨first, hfirst⟩ : ∃ n, l.loads.length = n + 1 :=
    Nat.exists_eq_succ_of_ne_zero fun heq => h (List.eq_nil_of_length_eq_zero heq)
  rw [latest?, outcome?, hfirst, load?, List.getElem?_eq_getElem (by omega)]
  exact ⟨_, rfl⟩

/-- One more load, started and in flight. -/
def launched (l : Loading α) : Loading α := { l.launch with field := l.field.start.2 }

theorem length_launched (l : Loading α) : l.launched.loads.length = l.loads.length + 1 :=
  List.length_append

theorem calls_launched (l : Loading α) :
    l.launched.calls = l.calls + if l.field.bound then 1 else 0 := by
  show (if l.field.bound then l.calls + 1 else l.calls) = _
  split <;> rfl

theorem load?_launched {g : Nat} {load : Load α} (h : l.load? g = some load) :
    l.launched.load? g = some load := by
  cases g with
  | zero => cases h
  | succ g =>
    have hg : g < l.loads.length := (List.getElem?_eq_some_iff.1 h).1
    rw [load?] at h
    simp only [load?, launched, launch, List.getElem?_append_left hg, h]

theorem outcome?_launched {g : Nat} {r : Result α} (h : l.outcome? g = some r) :
    l.launched.outcome? g = some r := by
  obtain ⟨load, hload, rfl⟩ := Option.map_eq_some_iff.1 h
  rw [outcome?, load?_launched hload]
  rfl

/-- A caller is answered from the cache or joins the load in flight, and neither changes anything;
    or a load starts. A get starts one only where nothing has been loaded. -/
theorem enter_cases (l : Loading α) (request : LazyRequest) :
    (∃ r, request = .get ∧ l.field.slot = Slot.ofResult r ∧ l.enter request = (.done r, l)) ∨
    (∃ g, request = .get ∧ l.field.slot = .loading g ∧ l.enter request = (.waiting g, l)) ∨
    ((request = .get → l.field.slot = .notLoaded) ∧
      l.enter request = (.waiting (l.field.generation + 1), l.launched)) := by
  obtain ⟨⟨bound, slot, generation⟩, loads, coming, calls⟩ := l
  cases request with
  | refresh => exact .inr (.inr ⟨nofun, rfl⟩)
  | get =>
    cases slot with
    | notLoaded => exact .inr (.inr ⟨fun _ => rfl, rfl⟩)
    | loading g => exact .inr (.inl ⟨g, rfl, rfl, rfl⟩)
    | loaded a => exact .inl ⟨.ok a, rfl, rfl, rfl⟩
    | failed e => exact .inl ⟨.error e, rfl, rfl, rfl⟩

/-- A load that has been polled in vain often enough answers, and settles the field. -/
theorem poll_ready {g : Nat} {load : Load α} (h : l.load? g = some load) (hw : load.waits = 0) :
    l.poll (.waiting g) =
      (.done load.outcome, { l with field := l.field.settle g load.outcome }) := by
  cases g with
  | zero => cases h
  | succ g =>
    rw [load?] at h
    simp only [poll, Nat.add_sub_cancel, h, hw, if_true]

/-- The loads with one of them put in its own place. -/
def withLoad (l : Loading α) (g : Nat) (load : Load α) : Loading α :=
  { l with loads := l.loads.set (g - 1) load }

theorem poll_pending {g n : Nat} {load : Load α} (h : l.load? g = some load)
    (hw : load.waits = n + 1) :
    l.poll (.waiting g) = (.waiting g, l.withLoad g { load with waits := n }) := by
  cases g with
  | zero => cases h
  | succ g =>
    rw [load?] at h
    simp only [poll, Nat.add_sub_cancel, h, hw, Nat.succ_ne_zero, if_false]
    rfl

theorem length_withLoad (l : Loading α) (g : Nat) (load : Load α) :
    (l.withLoad g load).loads.length = l.loads.length := List.length_set

theorem load?_withLoad {g : Nat} {load : Load α} (h : l.load? g = some load) (load' : Load α)
    (k : Nat) : (l.withLoad g load').load? k = if k = g then some load' else l.load? k := by
  cases g with
  | zero => cases h
  | succ g =>
    have hg : g < l.loads.length := (List.getElem?_eq_some_iff.1 h).1
    cases k with
    | zero => rfl
    | succ k =>
      simp only [load?, withLoad, Nat.add_sub_cancel, List.getElem?_set, hg, if_true,
        Nat.add_right_cancel_iff, @eq_comm _ g k]

/-- A load that has come closer has the same outcome still. -/
theorem outcome?_withLoad {g : Nat} {load : Load α} (h : l.load? g = some load) (n k : Nat) :
    (l.withLoad g { load with waits := n }).outcome? k = l.outcome? k := by
  rw [outcome?, outcome?, load?_withLoad h]
  split
  · next heq => rw [heq, h, Option.map_some, Option.map_some]
  · rfl

end Loading

/-! ## What a field holds -/

namespace LazyField

/-- A field as it is made. -/
inductive New : LazyField α → Prop where
  | unloaded : New unloaded
  | ofValue (a : α) : New (ofValue a)
  | detached : New detached

theorem settle_current {f : LazyField α} {g : Nat} (h : f.slot = .loading g) (r : Result α) :
    f.settle g r = { f with slot := Slot.ofResult r } := by
  simp only [settle, h, if_true]

/-- The outcome of a load that is not in flight any more is left aside. -/
theorem settle_late {f : LazyField α} {g : Nat} (h : f.slot ≠ .loading g) (r : Result α) :
    f.settle g r = f := by
  rw [settle]
  split
  · next current hcurrent => exact if_neg fun heq : current = g => h (heq ▸ hcurrent)
  · rfl

end LazyField

namespace Loading

variable {l : Loading α}

/-- The field numbers its loads, waits for the latest one and holds the outcome of no other. -/
structure Sound (l : Loading α) : Prop where
  generation : l.field.generation = l.loads.length
  unloaded : l.field.slot = .notLoaded → l.loads = []
  current : ∀ g, l.field.slot = .loading g → g = l.loads.length ∧ l.loads ≠ []
  latest : ∀ r, l.field.slot = Slot.ofResult r → l.loads = [] ∨ l.latest? = some r

theorem sound_start {field : LazyField α} (h : field.New) (coming : List (Load α)) :
    (start field coming).Sound := by
  cases h with
  | unloaded => exact ⟨rfl, fun _ => rfl, nofun, fun _ _ => .inl rfl⟩
  | ofValue a => exact ⟨rfl, nofun, nofun, fun _ _ => .inl rfl⟩
  | detached => exact ⟨rfl, fun _ => rfl, nofun, fun _ _ => .inl rfl⟩

theorem loads_launched_ne_nil (l : Loading α) : l.launched.loads ≠ [] := fun hnil => by
  have hlength := length_launched l
  rw [hnil] at hlength
  cases hlength

/-- A load that has been started is the latest one, and the one in flight. -/
theorem Sound.launched (h : l.Sound) : l.launched.Sound where
  generation := by
    rw [length_launched, ← h.generation]
    rfl
  unloaded := nofun
  current := by
    rintro _ ⟨⟩
    exact ⟨by rw [length_launched, h.generation], loads_launched_ne_nil l⟩
  latest r hr := absurd hr.symm (Slot.ofResult_ne_loading r _)

/-- A caller that tells the outcome of the latest load leaves it in the field. -/
theorem Sound.slot_settle (h : l.Sound) {r : Result α}
    (hr : l.outcome? l.loads.length = some r) :
    (l.field.settle l.loads.length r).slot = Slot.ofResult r := by
  obtain hslot | ⟨g, hslot⟩ | ⟨r', hslot⟩ := l.field.slot.cases_eq
  · exact absurd (h.unloaded hslot) (loads_ne_nil hr)
  · obtain ⟨rfl, -⟩ := h.current g hslot
    rw [LazyField.settle_current hslot]
  · have hlatest := (h.latest r' hslot).resolve_left (loads_ne_nil hr)
    rw [LazyField.settle_late (hslot ▸ Slot.ofResult_ne_loading r' _), hslot,
      Option.some.inj (hlatest.symm.trans hr)]

theorem Sound.withLoad (h : l.Sound) {g : Nat} {load : Load α} (hload : l.load? g = some load)
    (n : Nat) : (l.withLoad g { load with waits := n }).Sound := by
  have hnil : (l.withLoad g { load with waits := n }).loads = [] ↔ l.loads = [] := by
    rw [← List.length_eq_zero_iff, length_withLoad, List.length_eq_zero_iff]
  have hlatest : (l.withLoad g { load with waits := n }).latest? = l.latest? := by
    rw [latest?, length_withLoad, outcome?_withLoad hload]
    rfl
  refine ⟨?_, fun hslot => hnil.2 (h.unloaded hslot), fun k hslot => ?_, fun r hslot => ?_⟩
  · rw [length_withLoad]
    exact h.generation
  · rw [length_withLoad, ne_eq, hnil]
    exact h.current k hslot
  · rw [hnil, hlatest]
    exact h.latest r hslot

theorem Sound.settled (h : l.Sound) {g : Nat} {r : Result α} (hr : l.outcome? g = some r) :
    { l with field := l.field.settle g r }.Sound := by
  by_cases hslot : l.field.slot = .loading g
  · obtain ⟨rfl, -⟩ := h.current g hslot
    rw [LazyField.settle_current hslot]
    refine ⟨h.generation, fun heq => ?_, fun k heq => ?_, fun r' heq => .inr ?_⟩
    · cases r <;> cases heq
    · exact absurd heq (Slot.ofResult_ne_loading r k)
    · exact hr.trans (congrArg some (Slot.ofResult_inj heq))
  · rw [LazyField.settle_late hslot]
    exact h

end Loading

/-! ## What a caller has -/

/-- A caller has the cached outcome, or the outcome of its own load. Once a caller of the latest
    load is answered, the field holds that outcome. -/
inductive Caller.Sound (l : Loading α) : Caller α → Prop where
  | cached (call : LazyCall α) (r : Result α) :
    Sound l ⟨call, .done r, .answered (call.answer r)⟩
  | waiting (call : LazyCall α) {g : Nat} {r : Result α} (h : l.outcome? g = some r) :
    Sound l ⟨call, .waiting g, .waiting⟩
  | holding (call : LazyCall α) {g : Nat} {r : Result α} (h : l.outcome? g = some r) :
    Sound l ⟨call, .waiting g, .holding r⟩
  | answered (call : LazyCall α) {g : Nat} {r : Result α} (h : l.outcome? g = some r)
      (hslot : g = l.loads.length → l.field.slot = Slot.ofResult r) :
    Sound l ⟨call, .waiting g, .answered (call.answer r)⟩
  | abandoned (call : LazyCall α) {g : Nat} {r : Result α} (h : l.outcome? g = some r) :
    Sound l ⟨call, .waiting g, .abandoned⟩

/-- Later the loads have the same outcomes, and a field that held the outcome of the latest load
    holds it still unless another has started. -/
theorem Caller.Sound.mono {l l' : Loading α} {c : Caller α} (h : c.Sound l)
    (hout : ∀ g r, l.outcome? g = some r → l'.outcome? g = some r)
    (hslot : ∀ g r, l.outcome? g = some r → (g = l.loads.length → l.field.slot = Slot.ofResult r) →
      g = l'.loads.length → l'.field.slot = Slot.ofResult r) : c.Sound l' := by
  cases h with
  | cached call r => exact .cached call r
  | waiting call h => exact .waiting call (hout _ _ h)
  | holding call h => exact .holding call (hout _ _ h)
  | answered call h hheld => exact .answered call (hout _ _ h) (hslot _ _ h hheld)
  | abandoned call h => exact .abandoned call (hout _ _ h)

/-! ## Steps -/

namespace Callers

variable {s : Callers α}

structure Sound (s : Callers α) : Prop where
  loading : s.loading.Sound
  callers : ∀ c ∈ s.callers, c.Sound s.loading
  completed : ∀ g ∈ s.completed, g ≤ s.loading.loads.length

theorem sound_start {field : LazyField α} (h : field.New) (coming : List (Load α)) :
    (start field coming).Sound := ⟨Loading.sound_start h coming, nofun, nofun⟩

/-- What polling does. -/
inductive Polled (s : Callers α) (i : Nat) : Callers α → Prop where
  /-- There is nobody who waits. -/
  | nobody (hi : ∀ call g, s.callers[i]? ≠ some ⟨call, .waiting g, .waiting⟩) : Polled s i s
  | pending {call : LazyCall α} {g n : Nat} {load : Load α}
      (hi : s.callers[i]? = some ⟨call, .waiting g, .waiting⟩)
      (hload : s.loading.load? g = some load) (hw : load.waits = n + 1) :
    Polled s i { s with loading := s.loading.withLoad g { load with waits := n } }
  | ready {call : LazyCall α} {g : Nat} {load : Load α}
      (hi : s.callers[i]? = some ⟨call, .waiting g, .waiting⟩)
      (hload : s.loading.load? g = some load) (hw : load.waits = 0) :
    Polled s i
      ⟨s.loading, s.callers.set i ⟨call, .waiting g, .holding load.outcome⟩, g :: s.completed⟩

theorem Sound.polled (h : s.Sound) (i : Nat) : Polled s i (s.poll i) := by
  rw [poll]
  split
  · next call g hi =>
    have hcaller := h.callers _ (List.mem_of_getElem? hi)
    obtain ⟨load, hload⟩ : ∃ load, s.loading.load? g = some load := by
      cases hcaller with
      | waiting _ hout => exact (Option.map_eq_some_iff.1 hout).imp fun _ => And.left
    cases hw : load.waits with
    | zero =>
      rw [Loading.poll_ready hload hw]
      exact .ready hi hload hw
    | succ n =>
      rw [Loading.poll_pending hload hw]
      exact .pending hi hload hw
  · next hi => exact .nobody fun call g heq => hi call g heq

/-- What telling the field does. -/
inductive Settled (s : Callers α) (i : Nat) : Callers α → Prop where
  | nobody (hi : ∀ call g r, s.callers[i]? ≠ some ⟨call, .waiting g, .holding r⟩) : Settled s i s
  | told {call : LazyCall α} {g : Nat} {r : Result α}
      (hi : s.callers[i]? = some ⟨call, .waiting g, .holding r⟩) :
    Settled s i ⟨{ s.loading with field := s.loading.field.settle g r },
      s.callers.set i ⟨call, .waiting g, .answered (call.answer r)⟩, s.completed⟩

theorem settled (s : Callers α) (i : Nat) : Settled s i (s.settle i) := by
  rw [settle]
  split
  · next call g r hi => exact .told hi
  · next hi => exact .nobody fun call g r heq => hi call g r heq

theorem Sound.ask (h : s.Sound) (call : LazyCall α) : (s.ask call).Sound := by
  obtain ⟨r, -, -, henter⟩ | ⟨g, -, hslot, henter⟩ | ⟨-, henter⟩ :=
    s.loading.enter_cases call.request
  · rw [Callers.ask, henter]
    refine ⟨h.loading, List.forall_mem_append.2 ⟨h.callers, ?_⟩, h.completed⟩
    exact List.forall_mem_singleton.2 (.cached call r)
  · obtain ⟨rfl, hne⟩ := h.loading.current g hslot
    obtain ⟨r, hr⟩ := Loading.exists_latest hne
    rw [Callers.ask, henter]
    refine ⟨h.loading, List.forall_mem_append.2 ⟨h.callers, ?_⟩, h.completed⟩
    exact List.forall_mem_singleton.2 (.waiting call hr)
  · obtain ⟨r, hr⟩ := Loading.exists_latest (Loading.loads_launched_ne_nil s.loading)
    have hnumber : s.loading.field.generation + 1 = s.loading.launched.loads.length := by
      rw [Loading.length_launched, h.loading.generation]
    rw [Callers.ask, henter, hnumber]
    refine ⟨h.loading.launched, List.forall_mem_append.2 ⟨fun c hc => ?_, ?_⟩, fun g hg => ?_⟩
    · -- A caller that waits for an earlier load does not wait for the latest one any more.
      refine (h.callers c hc).mono (fun _ _ => Loading.outcome?_launched) fun g r hout _ hg => ?_
      have hle := (Loading.le_of_outcome hout).2
      rw [Loading.length_launched] at hg
      omega
    · exact List.forall_mem_singleton.2 (.waiting call hr)
    · exact Nat.le_trans (h.completed g hg) (Loading.length_launched _ ▸ Nat.le_succ _)

/-- One caller is replaced by itself a step further. -/
theorem Sound.forall_mem_set (h : s.Sound) {i : Nat} {c : Caller α} (hc : c.Sound s.loading) :
    ∀ c' ∈ s.callers.set i c, c'.Sound s.loading := fun c' hc' =>
  (List.mem_or_eq_of_mem_set hc').elim (h.callers c') fun heq => heq ▸ hc

theorem Sound.poll (h : s.Sound) (i : Nat) : (s.poll i).Sound := by
  have hpolled := h.polled i
  generalize s.poll i = s' at hpolled ⊢
  cases hpolled with
  | nobody => exact h
  | @pending call g n load hi hload hw =>
    refine ⟨h.loading.withLoad hload n, fun c hc => ?_, ?_⟩
    · refine (h.callers c hc).mono (fun k r hr => ?_) fun k r _ hslot hk => hslot ?_
      · exact (Loading.outcome?_withLoad hload n k).trans hr
      · exact hk.trans (Loading.length_withLoad _ _ _)
    · rw [Loading.length_withLoad]
      exact h.completed
  | @ready call g load hi hload hw =>
    have hout : s.loading.outcome? g = some load.outcome := congrArg (Option.map _) hload
    refine ⟨h.loading, h.forall_mem_set (.holding call hout), ?_⟩
    exact List.forall_mem_cons.2 ⟨(Loading.le_of_outcome hout).2, h.completed⟩

/-- Telling the field an outcome changes nothing for those who have one. -/
theorem Sound.settle (h : s.Sound) (i : Nat) : (s.settle i).Sound := by
  have hsettled := s.settled i
  generalize s.settle i = s' at hsettled ⊢
  cases hsettled with
  | nobody => exact h
  | @told call g r hi =>
    have hout : s.loading.outcome? g = some r := by
      cases h.callers _ (List.mem_of_getElem? hi) with
      | holding _ hout => exact hout
    refine ⟨h.loading.settled hout, fun c hc => ?_, h.completed⟩
    rcases List.mem_or_eq_of_mem_set hc with hc | rfl
    · refine (h.callers c hc).mono (fun _ _ => id) fun k r' _ hslot hk => ?_
      have hheld : s.loading.field.slot = Slot.ofResult r' := hslot hk
      show (s.loading.field.settle g r).slot = _
      rw [LazyField.settle_late (hheld ▸ Slot.ofResult_ne_loading r' g), hheld]
    · refine .answered call hout fun hg => ?_
      obtain rfl : g = s.loading.loads.length := hg
      exact h.loading.slot_settle hout

theorem Sound.abandon (h : s.Sound) (i : Nat) : (s.abandon i).Sound := by
  rw [Callers.abandon]
  split
  · exact h
  · next c hne hi =>
    have hcaller := h.callers c (List.mem_of_getElem? hi)
    refine ⟨h.loading, h.forall_mem_set ?_, h.completed⟩
    cases hcaller with
    | cached call r => exact absurd rfl (hne _ _ _)
    | waiting call hout => exact .abandoned call hout
    | holding call hout => exact .abandoned call hout
    | answered call hout => exact absurd rfl (hne _ _ _)
    | abandoned call hout => exact .abandoned call hout
  · exact h

theorem Sound.play (h : s.Sound) (m : Move α) : (s.play m).Sound := by
  cases m with
  | ask call => exact h.ask call
  | poll i => exact h.poll i
  | settle i => exact h.settle i
  | abandon i => exact h.abandon i

theorem Sound.run (h : s.Sound) (moves : List (Move α)) : (s.run moves).Sound := by
  induction moves generalizing s with
  | nil => exact h
  | cons m moves ih => exact ih (h.play m)

end Callers

end ModelMapper
