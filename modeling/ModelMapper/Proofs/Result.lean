import Mathlib.Data.List.Forall2
import ModelMapper.Error

/-! # Outcomes

Operations one after another: the whole succeeds when each part does, whatever the errors are.

* `Result.bind_eq_ok`, `Result.map_eq_ok`, `Result.toOption_eq_some` — what a success was made of.
* `Result.mapM_eq_ok`, `Result.mapM_of_eq`, `Result.exists_of_mem_mapM`, `Result.mapM_of_forall`,
  `Result.mapM_of_error` — one operation on the elements of a list.
* `Result.mapM_perm` — the same in another order.
-/

namespace ModelMapper.Result

variable {ε α β : Type}

theorem bind_eq_ok {x : Except ε α} {f : α → Except ε β} {b : β} :
    (x >>= f) = .ok b ↔ ∃ a, x = .ok a ∧ f a = .ok b := by
  cases x with
  | error e => exact ⟨nofun, fun ⟨_, h, _⟩ => nomatch h⟩
  | ok a => exact ⟨fun h => ⟨a, rfl, h⟩, fun ⟨_, h, hf⟩ => by cases h; exact hf⟩

@[simp] theorem ok_bind (a : α) (f : α → Except ε β) :
    ((.ok a : Except ε α) >>= f) = f a := rfl

@[simp] theorem error_bind (e : ε) (f : α → Except ε β) :
    ((.error e : Except ε α) >>= f) = .error e := rfl

@[simp] theorem pure_eq_ok (a : α) : (pure a : Except ε α) = .ok a := rfl

@[simp] theorem throw_eq_error (e : ε) : (throw e : Except ε α) = .error e := rfl

theorem map_eq_ok {x : Except ε α} {f : α → β} {b : β} :
    x.map f = .ok b ↔ ∃ a, x = .ok a ∧ f a = b := by
  cases x with
  | error e => exact ⟨nofun, fun ⟨_, h, _⟩ => nomatch h⟩
  | ok a =>
    exact ⟨fun h => ⟨a, rfl, Except.ok.inj h⟩, fun ⟨_, h, hf⟩ => by cases h; exact congrArg _ hf⟩

theorem toOption_eq_some {x : Except ε α} {a : α} : x.toOption = some a ↔ x = .ok a := by
  cases x with
  | error e => exact ⟨nofun, nofun⟩
  | ok b => exact ⟨fun h => congrArg Except.ok (Option.some.inj h), fun h => by cases h; rfl⟩

/-- One answer for each element, in order. -/
theorem mapM_eq_ok {f : α → Except ε β} {as : List α} {bs : List β} :
    as.mapM f = .ok bs ↔ List.Forall₂ (fun a b => f a = .ok b) as bs := by
  induction as generalizing bs with
  | nil =>
    rw [List.forall₂_nil_left_iff]
    exact ⟨fun h => (Except.ok.inj h).symm, fun h => congrArg Except.ok h.symm⟩
  | cons a as ih =>
    rw [List.mapM_cons]
    constructor
    · intro h
      obtain ⟨b, hb, h⟩ := bind_eq_ok.1 h
      obtain ⟨rest, hrest, h⟩ := bind_eq_ok.1 h
      cases h
      exact .cons hb (ih.1 hrest)
    · rintro (- | ⟨hb, hrest⟩)
      rw [hb, ok_bind, ih.2 hrest]
      rfl

/-- The answers, where they are known. -/
theorem mapM_of_eq {f : α → Except ε β} {g : α → β} {as : List α} (h : ∀ a ∈ as, f a = .ok (g a)) :
    as.mapM f = .ok (as.map g) := by
  rw [mapM_eq_ok, List.forall₂_map_right_iff, List.forall₂_same]
  exact h

/-- Each answer is that of an element. -/
theorem exists_of_mem_mapM {f : α → Except ε β} {as : List α} {bs : List β}
    (h : as.mapM f = .ok bs) {b : β} (hb : b ∈ bs) : ∃ a ∈ as, f a = .ok b := by
  induction as generalizing bs with
  | nil =>
    cases h
    cases hb
  | cons a as ih =>
    rw [List.mapM_cons] at h
    obtain ⟨first, hfirst, h⟩ := bind_eq_ok.1 h
    obtain ⟨rest, hrest, h⟩ := bind_eq_ok.1 h
    cases h
    rcases List.mem_cons.1 hb with rfl | hb
    · exact ⟨a, List.mem_cons_self, hfirst⟩
    · obtain ⟨a', ha', hf⟩ := ih hrest hb
      exact ⟨a', List.mem_cons_of_mem _ ha', hf⟩

/-- If every element succeeds, they all do. -/
theorem mapM_of_forall {f : α → Except ε β} {as : List α} (h : ∀ a ∈ as, ∃ b, f a = .ok b) :
    ∃ bs, as.mapM f = .ok bs := by
  induction as with
  | nil => exact ⟨[], rfl⟩
  | cons a as ih =>
    obtain ⟨⟨b, hb⟩, hrest⟩ := List.forall_mem_cons.1 h
    obtain ⟨bs, hbs⟩ := ih hrest
    refine ⟨b :: bs, ?_⟩
    rw [List.mapM_cons, hb, hbs]
    rfl

/-- If one element fails, the first to fail is the answer. -/
theorem mapM_of_error {f : α → Except ε β} {as : List α} {a : α}
    (ha : a ∈ as) {e : ε} (h : f a = .error e) :
    ∃ done first rest e', as = done ++ first :: rest ∧ (∀ b ∈ done, ∃ x, f b = .ok x) ∧
      f first = .error e' ∧ as.mapM f = .error e' := by
  induction as with
  | nil => cases ha
  | cons b as ih =>
    rw [List.mapM_cons]
    cases hb : f b with
    | error e' => exact ⟨[], b, as, e', rfl, nofun, hb, rfl⟩
    | ok x =>
      have hmem : a ∈ as := by
        rcases List.mem_cons.1 ha with rfl | ha
        · exact nomatch hb.symm.trans h
        · exact ha
      obtain ⟨done, first, rest, e', rfl, hdone, hfirst, hall⟩ := ih hmem
      refine ⟨b :: done, first, rest, e', rfl, List.forall_mem_cons.2 ⟨⟨x, hb⟩, hdone⟩, hfirst, ?_⟩
      rw [hall]
      rfl

/-- In another order the elements succeed as well. -/
theorem mapM_perm {f : α → Except ε β} {xs ys : List α} (h : xs.Perm ys) {bs : List β}
    (hys : ys.mapM f = .ok bs) : ∃ as : List β, xs.mapM f = .ok as ∧ as.Perm bs := by
  induction h generalizing bs with
  | nil => exact ⟨bs, hys, .refl _⟩
  | @cons x xs ys _ ih =>
    rw [List.mapM_cons] at hys
    obtain ⟨b, hb, hrest⟩ := bind_eq_ok.1 hys
    obtain ⟨bs, hbs, hpure⟩ := bind_eq_ok.1 hrest
    cases hpure
    obtain ⟨as, has, hperm⟩ := ih hbs
    refine ⟨b :: as, ?_, hperm.cons b⟩
    rw [List.mapM_cons, hb, has]
    rfl
  | swap x y zs =>
    rw [List.mapM_cons] at hys
    obtain ⟨a, ha, hrest⟩ := bind_eq_ok.1 hys
    rw [List.mapM_cons] at hrest
    obtain ⟨as, has, hpure⟩ := bind_eq_ok.1 hrest
    obtain ⟨b, hb, hlast⟩ := bind_eq_ok.1 has
    obtain ⟨bs, hbs, hpure'⟩ := bind_eq_ok.1 hlast
    cases hpure'
    cases hpure
    refine ⟨b :: a :: bs, ?_, .swap a b bs⟩
    rw [List.mapM_cons, List.mapM_cons, ha, hb, hbs]
    rfl
  | trans _ _ ih ih' =>
    obtain ⟨bs', hbs', hperm'⟩ := ih' hys
    obtain ⟨as, has, hperm⟩ := ih hbs'
    exact ⟨as, has, hperm.trans hperm'⟩

end ModelMapper.Result
