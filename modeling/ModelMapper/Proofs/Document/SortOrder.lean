import ModelMapper.Proofs.Binary64.Rounding
import ModelMapper.Proofs.Mapper.Ties

/-! # The order of results on all values

Two whole numbers compare exactly, a whole number and any other number as floats. Beyond 53 binary
digits a float can so be level with two whole numbers that are not level with each other.

* `Doc.Finite` — what the numbers of documents are.
* `Doc.sortOrder_eq_gt` — when a value comes behind another one.
* `Doc.Blurred` — two whole numbers in the wrong order, and a number that no float tells from them.
* `Doc.sortOrder_trans_iff` — only such numbers keep the order from being transitive.
-/

namespace ModelMapper.Doc

/-- A document has no infinite numbers. -/
def Finite : Doc → Prop
  | float x => x.isFinite = true
  | _ => True

instance (d : Doc) : Decidable d.Finite := by
  cases d <;> unfold Finite <;> infer_instance

/-- What a number is as a float, in units of the smallest float. -/
def nearest (d : Doc) : Int := (d.asFloat?.map Binary64.scaled).getD 0

/-- A number is greater than another one, as whole numbers if both are. -/
def Above (a b : Doc) : Prop :=
  match a.asInt64?, b.asInt64? with
  | some m, some n => n.toInt < m.toInt
  | _, _ => b.nearest < a.nearest

/-- A whole number, another number and a smaller whole number, all of them one float. -/
structure Blurred (a b c : Doc) : Prop where
  falling : ∃ m n : Int64, a.asInt64? = some m ∧ c.asInt64? = some n ∧ n.toInt < m.toInt
  number : b.isNumber = true
  inexact : b.asInt64? = none
  first : a.nearest = b.nearest
  last : b.nearest = c.nearest

/-! ## Numbers -/

theorem isNumber_iff {d : Doc} : d.isNumber = true ↔ d.rank = 2 := by
  cases d <;> simp [isNumber, asFloat?, rank]

theorem exists_asFloat {d : Doc} (hd : d.Finite) (h : d.isNumber = true) :
    ∃ x, d.asFloat? = some x ∧ x.isNaN = false := by
  cases d with
  | int n => exact ⟨_, rfl, Binary64.isNaN_ofInt n⟩
  | float x => exact ⟨x, rfl, Binary64.isNaN_of_isFinite hd⟩
  | null | bool | text | list | object => exact absurd h Bool.false_ne_true

theorem asInt64?_eq_some {d : Doc} {n : Int64} (h : d.asInt64? = some n) : d = int n.toInt := by
  cases d with
  | int k =>
    rw [asInt64?] at h
    split at h
    · next hfits =>
      obtain ⟨hmin, hmax⟩ := Bool.and_eq_true_iff.1 hfits
      cases h
      rw [Int64.toInt_ofInt_of_le (of_decide_eq_true hmin) (Int.lt_add_one_of_le
        (of_decide_eq_true hmax))]
    · cases h
  | null | bool | float | text | list | object => cases h

theorem nearest_int (n : Int) : (int n).nearest = (Binary64.ofInt n).scaled := rfl

/-- Whole numbers are in the order of their floats. -/
theorem nearest_mono {a b : Doc} {m n : Int64} (ha : a.asInt64? = some m)
    (hb : b.asInt64? = some n) (h : m.toInt ≤ n.toInt) : a.nearest ≤ b.nearest := by
  rw [asInt64?_eq_some ha, asInt64?_eq_some hb]
  exact Binary64.scaled_ofInt_mono h

theorem compareNumbers_eq_gt {a b : Doc} (ha : a.Finite) (hb : b.Finite)
    (hna : a.isNumber = true) (hnb : b.isNumber = true) :
    (compareNumbers? a b).getD .eq = .gt ↔ a.Above b := by
  obtain ⟨x, hx, hxnan⟩ := exists_asFloat ha hna
  obtain ⟨y, hy, hynan⟩ := exists_asFloat hb hnb
  have hfloats : (do (← a.asFloat?).compare? (← b.asFloat?)) =
      some (compare a.nearest b.nearest) := by
    rw [nearest, nearest, hx, hy]
    show x.compare? y = _
    rw [Binary64.compare?, hxnan, hynan]
    rfl
  rw [compareNumbers?, Above, hfloats]
  cases a.asInt64? <;> cases b.asInt64? <;> exact compare_gt_iff_gt

theorem nearest_le_of_not_above {a b : Doc} (h : ¬a.Above b) : a.nearest ≤ b.nearest := by
  rw [Above] at h
  cases ha : a.asInt64? with
  | none =>
    rw [ha] at h
    exact not_lt.1 h
  | some m =>
    cases hb : b.asInt64? with
    | none =>
      rw [ha, hb] at h
      exact not_lt.1 h
    | some n =>
      rw [ha, hb] at h
      exact nearest_mono ha hb (not_lt.1 h)

/-- Three numbers of which no neighbours are falling fall from the first to the last only if they
    are blurred. -/
theorem above_iff_blurred {a b c : Doc} (hb : b.isNumber = true) (hab : ¬a.Above b)
    (hbc : ¬b.Above c) : a.Above c ↔ Blurred a b c := by
  constructor
  · intro hac
    have hfirst := nearest_le_of_not_above hab
    have hlast := nearest_le_of_not_above hbc
    -- As floats they do not fall, so the first and the last are whole numbers.
    obtain ⟨m, n, ha, hc, hfall⟩ : ∃ m n : Int64, a.asInt64? = some m ∧ c.asInt64? = some n ∧
        n.toInt < m.toInt := by
      rw [Above] at hac
      split at hac
      · next m n ha hc => exact ⟨m, n, ha, hc, hac⟩
      · exact absurd (hfirst.trans hlast) (not_le.2 hac)
    have hback := nearest_mono hc ha hfall.le
    refine ⟨⟨m, n, ha, hc, hfall⟩, hb, ?_, by omega, by omega⟩
    rw [Option.eq_none_iff_forall_ne_some]
    intro k hk
    rw [Above, ha, hk] at hab
    rw [Above, hk, hc] at hbc
    exact absurd ((not_lt.1 hab).trans (not_lt.1 hbc)) (not_le.2 hfall)
  · rintro ⟨⟨m, n, ha, hc, hfall⟩, -, -, -, -⟩
    rw [Above, ha, hc]
    exact hfall

theorem Blurred.rank {a b c : Doc} (h : Blurred a b c) : a.rank = 2 ∧ c.rank = 2 := by
  obtain ⟨m, n, ha, hc, -⟩ := h.falling
  rw [asInt64?_eq_some ha, asInt64?_eq_some hc]
  exact ⟨rfl, rfl⟩

/-- Whole numbers of no more than 53 binary digits are never blurred. -/
theorem Blurred.large {a b c : Doc} (h : Blurred a b c) : ∃ m n : Int64, a = int m.toInt ∧
    c = int n.toInt ∧ (2 ^ 53 < m.toInt.natAbs ∨ 2 ^ 53 < n.toInt.natAbs) := by
  obtain ⟨m, n, ha, hc, hfall⟩ := h.falling
  have hsame := h.first.trans h.last
  have ha := asInt64?_eq_some ha
  have hc := asInt64?_eq_some hc
  refine ⟨m, n, ha, hc, ?_⟩
  by_contra hsmall
  rw [not_or, not_lt, not_lt] at hsmall
  rw [ha, hc, nearest_int, nearest_int, Binary64.scaled_ofInt hsmall.1,
    Binary64.scaled_ofInt hsmall.2] at hsame
  have hunit : ∀ e, ((pow2 e : Nat) : Int) ≠ 0 :=
    fun e => Int.natCast_ne_zero.2 (Nat.two_pow_pos e).ne'
  exact hfall.ne' (mul_right_cancel₀ (hunit _) hsame)

/-! ## All values -/

theorem sortOrder_eq_gt {a b : Doc} : sortOrder a b = .gt ↔
    b.rank < a.rank ∨ a.rank = b.rank ∧ (a.compare? b).getD .eq = .gt := by
  rw [sortOrder, Ordering.then_eq_gt, compare_gt_iff_gt, compare_eq_iff_eq]

/-- Things of one kind that are not numbers are in order. -/
theorem compare?_trans {a b c : Doc} (hnumber : a.isNumber ≠ true) (hab : a.rank = b.rank)
    (hbc : b.rank = c.rank) (h : (a.compare? b).getD .eq ≠ .gt)
    (h' : (b.compare? c).getD .eq ≠ .gt) : (a.compare? c).getD .eq ≠ .gt := by
  cases a with
  | int n | float x => exact absurd rfl hnumber
  | bool x =>
    cases b <;> cases hab
    cases c <;> cases hbc
    rw [ne_eq, Ordering.ne_gt_iff_isLE] at h h' ⊢
    exact @Std.TransCmp.isLE_trans Bool compare _ _ _ _ h h'
  | text x =>
    cases b <;> cases hab
    cases c <;> cases hbc
    rw [ne_eq, Ordering.ne_gt_iff_isLE] at h h' ⊢
    exact @Std.TransCmp.isLE_trans String compare _ _ _ _ h h'
  | null | list items | object entries =>
    cases c <;> exact (by decide : Ordering.eq ≠ .gt)

theorem compare?_number {a b : Doc} (ha : a.isNumber = true) (hb : b.isNumber = true) :
    a.compare? b = compareNumbers? a b := by
  cases a with
  | null | bool | text | list | object => exact absurd ha Bool.false_ne_true
  | int | float =>
    cases b with
    | null | bool | text | list | object => exact absurd hb Bool.false_ne_true
    | int | float => rfl

/-- What does not fall from one value to the next does not fall at all, but for blurred numbers. -/
theorem sortOrder_trans_iff {a b c : Doc} (ha : a.Finite) (hb : b.Finite) (hc : c.Finite)
    (hab : sortOrder a b ≠ .gt) (hbc : sortOrder b c ≠ .gt) :
    sortOrder a c = .gt ↔ Blurred a b c := by
  rw [ne_eq, sortOrder_eq_gt, not_or, not_lt, not_and] at hab hbc
  rw [sortOrder_eq_gt]
  obtain ⟨hrankab, hab⟩ := hab
  obtain ⟨hrankbc, hbc⟩ := hbc
  by_cases hranks : a.rank = c.rank
  · have hrankab : a.rank = b.rank := by omega
    have hrankbc : b.rank = c.rank := by omega
    have hab := hab hrankab
    have hbc := hbc hrankbc
    rw [or_iff_right (by omega), and_iff_right hranks]
    by_cases hnumber : a.isNumber = true
    · have hnb : b.isNumber = true := isNumber_iff.2 (hrankab ▸ isNumber_iff.1 hnumber)
      have hnc : c.isNumber = true := isNumber_iff.2 (hranks ▸ isNumber_iff.1 hnumber)
      rw [compare?_number hnumber hnb, compareNumbers_eq_gt ha hb hnumber hnb] at hab
      rw [compare?_number hnb hnc, compareNumbers_eq_gt hb hc hnb hnc] at hbc
      rw [compare?_number hnumber hnc, compareNumbers_eq_gt ha hc hnumber hnc]
      exact above_iff_blurred hnb hab hbc
    · have hlevel := compare?_trans hnumber hrankab hrankbc hab hbc
      exact iff_of_false hlevel fun hblurred => hnumber (isNumber_iff.2 hblurred.rank.1)
  · refine iff_of_false (fun hgt => hgt.elim (by omega) fun hsame => hranks hsame.1) ?_
    exact fun hblurred => hranks (hblurred.rank.1.trans hblurred.rank.2.symm)

/-- The order is the same from both sides and transitive, but for blurred numbers, and these have
    more than 53 binary digits. -/
theorem sortOrder_swap_and_trans (a b c : Doc) (ha : a.Finite) (hb : b.Finite) (hc : c.Finite) :
    sortOrder a b = (sortOrder b a).swap ∧
      (sortOrder a b ≠ .gt → sortOrder b c ≠ .gt → (sortOrder a c = .gt ↔ Blurred a b c)) ∧
      (Blurred a b c → ∃ m n : Int64, a = int m.toInt ∧ c = int n.toInt ∧
        (2 ^ 53 < m.toInt.natAbs ∨ 2 ^ 53 < n.toInt.natAbs)) :=
  ⟨Std.OrientedCmp.eq_swap, sortOrder_trans_iff ha hb hc, Blurred.large⟩

theorem sortOrder_swap_and_trans_small : (int 1).Finite ∧ (float ⟨0x3FF8000000000000⟩).Finite ∧
    (int 2).Finite ∧ sortOrder (int 1) (float ⟨0x3FF8000000000000⟩) = .lt ∧
      sortOrder (float ⟨0x3FF8000000000000⟩) (int 2) = .lt ∧
      (sortOrder (int 1) (int 2) = .gt ↔
        Blurred (int 1) (float ⟨0x3FF8000000000000⟩) (int 2)) := by
  have hbelow : sortOrder (int 1) (float ⟨0x3FF8000000000000⟩) = .lt := by decide +kernel
  have habove : sortOrder (float ⟨0x3FF8000000000000⟩) (int 2) = .lt := by decide +kernel
  have horder := sortOrder_swap_and_trans (int 1) (float ⟨0x3FF8000000000000⟩) (int 2) trivial
    (by decide) trivial
  refine ⟨trivial, by decide, trivial, hbelow, habove, horder.2.1 ?_ ?_⟩
  · rw [hbelow]
    decide
  · rw [habove]
    decide

/-- The float `2 ^ 53` is level with the whole numbers `2 ^ 53` and `2 ^ 53 + 1`, so documents with
    these are left as they are, the largest number first. -/
theorem sorted_falling : (float ⟨0x4340000000000000⟩).Finite ∧
    sortOrder (int 9007199254740993) (float ⟨0x4340000000000000⟩) ≠ .gt ∧
    sortOrder (float ⟨0x4340000000000000⟩) (int 9007199254740992) ≠ .gt ∧
    sortOrder (int 9007199254740993) (int 9007199254740992) = .gt ∧
    (Documents.sorted (fun a b => Documents.compareBy [("x", 1)] a b == .lt)
        [[("id", int 1), ("x", int 9007199254740993)],
          [("id", int 2), ("x", float ⟨0x4340000000000000⟩)],
          [("id", int 3), ("x", int 9007199254740992)]]).map (fun d => (d.column "id").asInt64?) =
      [some 1, some 2, some 3] := by
  decide +kernel

end ModelMapper.Doc
