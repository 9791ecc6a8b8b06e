import Mathlib.Algebra.Order.Field.Power
import Mathlib.Data.Rat.Floor
import Mathlib.Tactic.FieldSimp
import Mathlib.Tactic.Linarith
import Mathlib.Tactic.NormNum
import Mathlib.Tactic.Positivity
import Mathlib.Tactic.Ring
import ModelMapper.Decimal.Shortest

/-! # Shortest decimals tell numbers apart

The reals that round to one magnitude and those that round to another have nothing in common, and
seventeen digits are enough to name one of them.

* `Decimal.value`, `Interval.Contains` — the number a decimal stands for, and the numbers of an
  interval.
* `intervalOf_apart` — the intervals of two magnitudes.
* `ten_pow_leadingPlace_le` — the place that the search for digits starts from.
* `Interval.isSome_onGrid` — a grid finer than an interval has a hit in it.
* `contains_shortest`, `magnitude_of_value` — the shortest decimal.
-/

namespace ModelMapper.Decimal

theorem pow2_pos (n : Nat) : 0 < pow2 n := Nat.pow_pos (by decide)

theorem log2_pow2 (n : Nat) : (pow2 n).log2 = n := Nat.log2_two_pow

theorem cast_pow10 (n : Nat) : (pow10 n : ℚ) = 10 ^ (n : Int) := by
  rw [zpow_natCast]
  exact Nat.cast_pow 10 n

/-- The number that a decimal stands for. -/
def value (d : Decimal) : ℚ := d.digits * 10 ^ d.exponent

theorem value_trim (fuel : Nat) (d : Decimal) : (trim fuel d).value = d.value := by
  induction fuel generalizing d with
  | zero => rfl
  | succ fuel ih =>
    rw [trim]
    split
    · next h =>
      have hdigits : (d.digits : ℚ) = 10 * (d.digits / 10 : Nat) := by
        exact_mod_cast show d.digits = 10 * (d.digits / 10) by omega
      rw [ih, value, value, hdigits, zpow_add_one₀ (by norm_num)]
      ring
    · rfl

/-! ## Intervals -/

namespace Interval

/-- The numbers of an interval, with its ends where it is closed. -/
def Contains (i : Interval) (v : ℚ) : Prop :=
  if i.closed then (i.low : ℚ) ≤ v * i.denominator ∧ v * i.denominator ≤ i.high
  else (i.low : ℚ) < v * i.denominator ∧ v * i.denominator < i.high

variable {i : Interval} {v : ℚ}

theorem Contains.of_between (hlow : (i.low : ℚ) < v * i.denominator)
    (hhigh : v * i.denominator < i.high) : i.Contains v := by
  rw [Contains]
  split
  · exact ⟨hlow.le, hhigh.le⟩
  · exact ⟨hlow, hhigh⟩

theorem Contains.between (h : i.Contains v) :
    (i.low : ℚ) ≤ v * i.denominator ∧ v * i.denominator ≤ i.high := by
  rw [Contains] at h
  split at h
  · exact h
  · exact ⟨h.1.le, h.2.le⟩

/-- A decimal is in the interval when the number it stands for is. -/
theorem holds_iff (d : Decimal) : i.holds d = true ↔ i.Contains d.value := by
  -- Both sides are compared over the power of ten that makes the decimal whole.
  obtain ⟨unit, scaled, hunit, hscaled, hholds⟩ : ∃ unit scaled : Nat, 0 < unit ∧
      (scaled : ℚ) = d.value * i.denominator * unit ∧
      (i.holds d = true ↔ if i.closed then i.low * unit ≤ scaled ∧ scaled ≤ i.high * unit
        else i.low * unit < scaled ∧ scaled < i.high * unit) := by
    rw [holds]
    by_cases hexp : 0 ≤ d.exponent
    · obtain ⟨n, hn⟩ := Int.eq_ofNat_of_zero_le hexp
      refine ⟨1, d.digits * pow10 n * i.denominator, Nat.one_pos, ?_, ?_⟩
      · rw [Decimal.value, hn, Nat.cast_mul, Nat.cast_mul, cast_pow10]
        push_cast
        ring
      · rw [if_pos hexp, if_pos hexp, hn]
        cases i.closed <;> simp
    · obtain ⟨n, hn⟩ : ∃ n : Nat, d.exponent = -(n : Int) := ⟨(-d.exponent).toNat, by omega⟩
      refine ⟨pow10 n, d.digits * i.denominator, Nat.pow_pos (by decide), ?_, ?_⟩
      · rw [Decimal.value, hn, cast_pow10, zpow_neg, Nat.cast_mul]
        field_simp
      · rw [if_neg hexp, if_neg hexp, hn]
        cases i.closed <;> simp
  have hpos : (0 : ℚ) < unit := by exact_mod_cast hunit
  rw [hholds, Contains, ← Nat.cast_le (α := ℚ), ← Nat.cast_le (α := ℚ), ← Nat.cast_lt (α := ℚ),
    ← Nat.cast_lt (α := ℚ), hscaled, Nat.cast_mul, Nat.cast_mul, mul_le_mul_iff_of_pos_right hpos,
    mul_le_mul_iff_of_pos_right hpos, mul_lt_mul_iff_of_pos_right hpos,
    mul_lt_mul_iff_of_pos_right hpos]

/-- The digits of the neighbour below the value on a grid. -/
def floorOn (i : Interval) (exponent : Int) : Nat :=
  (if 0 ≤ exponent then i.value else i.value * pow10 (-exponent).toNat) /
    if 0 ≤ exponent then i.denominator * pow10 exponent.toNat else i.denominator

theorem isSome_onGrid_iff {exponent : Int} : (i.onGrid exponent).isSome = true ↔
    i.holds ⟨i.floorOn exponent, exponent⟩ = true ∨
      i.holds ⟨i.floorOn exponent + 1, exponent⟩ = true := by
  unfold onGrid floorOn
  dsimp only
  generalize (if 0 ≤ exponent then i.value else _) = num
  generalize (if 0 ≤ exponent then i.denominator * _ else _) = den
  -- Both neighbours are tried, in whichever order.
  have hpair : ∀ a b : Decimal, (([a, b].find? i.holds).isSome = true ↔
      i.holds a = true ∨ i.holds b = true) := fun a b => by simp
  split
  · exact hpair _ _
  · split
    · exact (hpair _ _).trans or_comm
    · split
      · exact hpair _ _
      · exact (hpair _ _).trans or_comm

theorem floorOn_bounds (exponent : Int) (h : 0 < i.denominator) :
    (i.floorOn exponent : ℚ) * (10 ^ exponent * i.denominator) ≤ i.value ∧
      (i.value : ℚ) < (i.floorOn exponent + 1) * (10 ^ exponent * i.denominator) := by
  rw [floorOn]
  by_cases hexp : 0 ≤ exponent
  · obtain ⟨n, rfl⟩ := Int.eq_ofNat_of_zero_le hexp
    have hpos : 0 < i.denominator * pow10 n := Nat.mul_pos h (Nat.pow_pos (by decide))
    have hfloor : ((i.value / (i.denominator * pow10 n) * (i.denominator * pow10 n) : Nat) : ℚ) ≤
        i.value := by exact_mod_cast Nat.div_mul_le_self _ _
    have hnext : (i.value : ℚ) <
        ((i.denominator * pow10 n * (i.value / (i.denominator * pow10 n) + 1) : Nat) : ℚ) := by
      exact_mod_cast Nat.lt_mul_div_succ i.value hpos
    rw [if_pos hexp, if_pos hexp, Int.toNat_natCast]
    push_cast [cast_pow10] at hfloor hnext ⊢
    constructor <;> linarith
  · obtain ⟨n, rfl⟩ : ∃ n : Nat, exponent = -(n : Int) := ⟨(-exponent).toNat, by omega⟩
    have hten : (0 : ℚ) < 10 ^ (n : Int) := by positivity
    have hfloor : ((i.value * pow10 n / i.denominator * i.denominator : Nat) : ℚ) ≤
        (i.value * pow10 n : Nat) := by exact_mod_cast Nat.div_mul_le_self _ _
    have hnext : ((i.value * pow10 n : Nat) : ℚ) <
        (i.denominator * (i.value * pow10 n / i.denominator + 1) : Nat) := by
      exact_mod_cast Nat.lt_mul_div_succ _ h
    rw [if_neg hexp, if_neg hexp, neg_neg, Int.toNat_natCast, zpow_neg]
    push_cast [cast_pow10] at hfloor hnext ⊢
    constructor
    · field_simp
      linarith
    · field_simp
      linarith

/-- On a grid with a step shorter than the interval one of the neighbours of the value is in it. -/
theorem isSome_onGrid {exponent : Int} (hdenominator : 0 < i.denominator) (hlow : i.low < i.value)
    (hhigh : i.value < i.high)
    (hstep : (10 : ℚ) ^ exponent * i.denominator < i.high - i.low) :
    (i.onGrid exponent).isSome = true := by
  obtain ⟨hfloor, hnext⟩ := floorOn_bounds exponent hdenominator
  have hlow' : (i.low : ℚ) < i.value := by exact_mod_cast hlow
  have hhigh' : (i.value : ℚ) < i.high := by exact_mod_cast hhigh
  rw [isSome_onGrid_iff, holds_iff, holds_iff]
  rcases lt_or_ge (i.low : ℚ) (i.floorOn exponent * (10 ^ exponent * i.denominator)) with
    hin | hout
  · refine .inl (.of_between ?_ ?_) <;> rw [Decimal.value, mul_assoc]
    · exact hin
    · exact hfloor.trans_lt hhigh'
  · -- The floor is not above the low end, so the next neighbour is below the high one.
    refine .inr (.of_between ?_ ?_) <;> rw [Decimal.value, mul_assoc] <;> push_cast
    · linarith
    · linarith

end Interval

/-! ## The interval of a number -/

section

open Binary64

theorem significand_lt (x : Binary64) : x.significand < 2 ^ 52 * 2 := by
  have hfraction : x.fraction < 2 ^ 52 := Nat.mod_lt _ (by decide)
  rw [significand]
  split
  · omega
  · show x.fraction + 2 ^ 52 < _
    omega

/-- Above the smallest step the leading place is in the significand. -/
theorem le_significand {x : Binary64} (h : 0 < x.shift) : 2 ^ 52 ≤ x.significand := by
  rw [shift] at h
  rw [significand, if_neg (by omega)]
  exact Nat.le_add_left _ _

/-- How far the interval of a number reaches down, in quarters of its last place. -/
def below (x : Binary64) : Nat := if x.significand = pow2 52 ∧ 1 < x.exponentField then 1 else 2

theorem below_eq {x : Binary64} :
    (below x = 1 ∧ x.significand = 2 ^ 52) ∨
      below x = 2 ∧ (x.significand = 2 ^ 52 → x.shift = 0) := by
  rw [below]
  split
  · next h => exact .inl ⟨rfl, h.1⟩
  · next h =>
    refine .inr ⟨rfl, fun hsignificand => ?_⟩
    have hfield : ¬1 < x.exponentField := fun hfield => h ⟨hsignificand, hfield⟩
    rw [shift]
    omega

/-- The interval of a number ends before the one of a larger number starts, or where it starts; of
    two that touch one is open. -/
theorem intervalOf_apart {x y : Binary64} (h : x.magnitude < y.magnitude) :
    (intervalOf x).high < (intervalOf y).low ∨
      (intervalOf x).high = (intervalOf y).low ∧
        ((intervalOf x).closed && (intervalOf y).closed) = false := by
  have hx := significand_lt x
  have hy := significand_lt y
  have hbelow := below_eq (x := y)
  have hstep : 0 < 2 ^ x.shift := Nat.pow_pos (by decide)
  show (4 * x.significand + 2) * 2 ^ x.shift < (4 * y.significand - below y) * 2 ^ y.shift ∨
    (4 * x.significand + 2) * 2 ^ x.shift = (4 * y.significand - below y) * 2 ^ y.shift ∧
      (x.significand % 2 == 0 && y.significand % 2 == 0) = false
  change x.significand * 2 ^ x.shift < y.significand * 2 ^ y.shift at h
  suffices hends : ∃ n, (4 * y.significand - below y) * 2 ^ y.shift = n * 2 ^ x.shift ∧
      (4 * x.significand + 2 < n ∨ 4 * x.significand + 2 = n ∧
        (x.significand % 2 == 0 && y.significand % 2 == 0) = false) by
    obtain ⟨n, hn, hends⟩ := hends
    rw [hn, Nat.mul_lt_mul_right hstep, Nat.mul_left_inj hstep.ne']
    exact hends
  rcases Nat.lt_trichotomy x.shift y.shift with hshift | hshift | hshift
  · -- The significand of `y` has its leading place, and that of `x` ends before it.
    obtain ⟨k, hk⟩ := Nat.exists_eq_add_of_lt hshift
    have hleading := le_significand (Nat.zero_lt_of_lt hshift)
    have hpow : 0 < 2 ^ k := Nat.pow_pos (by decide)
    have hle : (4 * y.significand - below y) * 2 ≤ (4 * y.significand - below y) * 2 * 2 ^ k :=
      Nat.le_mul_of_pos_right _ hpow
    refine ⟨(4 * y.significand - below y) * 2 * 2 ^ k, ?_, ?_⟩
    · rw [hk, pow_add, pow_add]
      ring
    · rcases Nat.mod_two_eq_zero_or_one x.significand with heven | hodd
      · left
        omega
      · rw [hodd]
        rcases Nat.lt_or_ge (4 * x.significand + 2)
          ((4 * y.significand - below y) * 2 * 2 ^ k) with hlt | hge
        · exact .inl hlt
        · exact .inr ⟨by omega, rfl⟩
  · rw [hshift, Nat.mul_lt_mul_right (hshift ▸ hstep)] at h
    refine ⟨4 * y.significand - below y, by rw [hshift], ?_⟩
    by_cases hnext : y.significand = x.significand + 1
    · rcases hbelow with ⟨hone, -⟩ | ⟨htwo, -⟩
      · left
        omega
      · refine .inr ⟨by omega, ?_⟩
        rw [Bool.and_eq_false_iff, beq_eq_false_iff_ne, beq_eq_false_iff_ne]
        omega
    · left
      omega
  · -- The significand of `x` has its leading place, so `x` is the larger one.
    obtain ⟨k, hk⟩ := Nat.exists_eq_add_of_lt hshift
    have hleading := le_significand (Nat.zero_lt_of_lt hshift)
    have hpow : 0 < 2 ^ k := Nat.pow_pos (by decide)
    have hle : x.significand * 2 ≤ x.significand * 2 * 2 ^ k := Nat.le_mul_of_pos_right _ hpow
    have hsame : x.significand * 2 ^ x.shift = x.significand * 2 * 2 ^ k * 2 ^ y.shift := by
      rw [hk, pow_add, pow_add]
      ring
    rw [hsame, Nat.mul_lt_mul_right (Nat.pow_pos (by decide))] at h
    omega

/-- A number that two intervals have in common is of one magnitude. -/
theorem magnitude_of_contains {x y : Binary64} {v : ℚ} (hx : (intervalOf x).Contains v)
    (hy : (intervalOf y).Contains v) : x.magnitude = y.magnitude := by
  have hlt : ∀ x y : Binary64, (intervalOf x).Contains v → (intervalOf y).Contains v →
      ¬x.magnitude < y.magnitude := by
    intro x y hx hy hless
    have hhigh := hx.between.2
    have hlow := hy.between.1
    rcases intervalOf_apart hless with hends | ⟨hends, hopen⟩
    · have : ((intervalOf x).high : ℚ) < (intervalOf y).low := by exact_mod_cast hends
      exact absurd (hhigh.trans_lt this) (not_lt.2 hlow)
    · rw [Interval.Contains] at hx hy
      rw [hends] at hx hhigh
      rcases Bool.and_eq_false_iff.1 hopen with hclosed | hclosed
      · rw [hclosed, if_neg Bool.false_ne_true] at hx
        exact absurd hx.2 (not_lt.2 hlow)
      · rw [hclosed, if_neg Bool.false_ne_true] at hy
        exact absurd hy.1 (not_lt.2 hhigh)
  exact Nat.le_antisymm (not_lt.1 (hlt y x hy hx)) (not_lt.1 (hlt x y hx hy))

end

/-! ## Digits -/

theorem cast_pow_le {a b m n : Nat} (h : a ^ m ≤ b ^ n) : (a : ℚ) ^ m ≤ (b : ℚ) ^ n := by
  rw [← Nat.cast_pow, ← Nat.cast_pow]
  exact Nat.cast_le.2 h

theorem zpow_pow_comm (a : ℚ) (n : Int) (k : Nat) : (a ^ n) ^ k = (a ^ k) ^ n := by
  rw [← zpow_natCast, ← zpow_natCast, ← zpow_mul, ← zpow_mul, mul_comm]

/-- The factor of the estimate is the decimal logarithm of two, to within what is allowed for. -/
theorem ten_pow_estimate_le {n : Int} (h : -2048 ≤ n) :
    (10 : ℚ) ^ (n * 1233 / 4096) ≤ 5 * 2 ^ n := by
  have hfloor : n * 1233 / 4096 * (4096 : Nat) ≤ n * (1233 : Nat) := by omega
  have hten : (10 : ℚ) ^ 1233 ≤ 2 ^ 4096 := cast_pow_le (a := 10) (b := 2) (by decide +kernel)
  have htwo : (2 : ℚ) ^ 4096 ≤ 10 * 10 ^ 1233 := by
    rw [← pow_succ']
    exact cast_pow_le (a := 2) (b := 10) (by decide +kernel)
  have hscaled : ((10 : ℚ) ^ 1233) ^ n ≤ 5 ^ 4096 * (2 ^ 4096) ^ n := by
    have hten0 : (0 : ℚ) < 10 ^ 1233 := by positivity
    have hfive : (10 : ℚ) ^ 2048 ≤ 5 ^ 4096 := cast_pow_le (a := 10) (b := 5) (by decide +kernel)
    generalize (10 : ℚ) ^ 1233 = a at hten htwo hten0 ⊢
    generalize (2 : ℚ) ^ 4096 = b at hten htwo ⊢
    generalize (5 : ℚ) ^ 4096 = c at hfive ⊢
    have hb0 : 0 < b := hten0.trans_le hten
    have hc1 : 1 ≤ c := le_trans (one_le_pow₀ (by norm_num)) hfive
    rcases Int.le_total 0 n with hn | hn
    · obtain ⟨k, rfl⟩ := Int.eq_ofNat_of_zero_le hn
      rw [zpow_natCast, zpow_natCast]
      calc a ^ k ≤ b ^ k := pow_le_pow_left₀ hten0.le hten k
        _ ≤ c * b ^ k := le_mul_of_one_le_left (by positivity) hc1
    · obtain ⟨k, rfl⟩ : ∃ k : Nat, n = -(k : Int) := ⟨(-n).toNat, by omega⟩
      have hk : (10 : ℚ) ^ k ≤ c :=
        (pow_le_pow_right₀ (by norm_num) (by omega : k ≤ 2048)).trans hfive
      rw [zpow_neg, zpow_neg, zpow_natCast, zpow_natCast, ← div_eq_mul_inv,
        inv_le_comm₀ (by positivity) (by positivity), inv_div, div_le_iff₀ (by positivity)]
      calc b ^ k ≤ (10 * a) ^ k := pow_le_pow_left₀ hb0.le htwo k
        _ = 10 ^ k * a ^ k := mul_pow _ _ _
        _ ≤ c * a ^ k := by gcongr
        _ = a ^ k * c := mul_comm _ _
  -- Both sides are compared in the power that clears the denominator.
  refine le_of_pow_le_pow_left₀ (n := 4096) (by decide) (by positivity) ?_
  calc ((10 : ℚ) ^ (n * 1233 / 4096)) ^ 4096 = 10 ^ (n * 1233 / 4096 * (4096 : Nat)) := by
        rw [zpow_mul, zpow_natCast]
    _ ≤ 10 ^ (n * (1233 : Nat)) := zpow_le_zpow_right₀ (by norm_num) hfloor
    _ = (10 ^ 1233) ^ n := by rw [zpow_mul, zpow_natCast, zpow_pow_comm]
    _ ≤ 5 ^ 4096 * (2 ^ 4096) ^ n := hscaled
    _ = (5 * 2 ^ n) ^ 4096 := by rw [mul_pow, zpow_pow_comm]

/-- Whether a power of ten is at most a ratio, decided without dividing. -/
theorem ten_pow_mul_le_iff (num den : Nat) (e : Int) :
    (if 0 ≤ e then decide (den * pow10 e.toNat ≤ num)
      else decide (den ≤ num * pow10 (-e).toNat)) = true ↔ (10 : ℚ) ^ e * den ≤ num := by
  by_cases hexp : 0 ≤ e
  · obtain ⟨n, rfl⟩ := Int.eq_ofNat_of_zero_le hexp
    rw [if_pos hexp, decide_eq_true_eq, Int.toNat_natCast, mul_comm, ← cast_pow10]
    exact_mod_cast Iff.rfl
  · obtain ⟨n, rfl⟩ : ∃ n : Nat, e = -(n : Int) := ⟨(-e).toNat, by omega⟩
    rw [if_neg hexp, decide_eq_true_eq, neg_neg, Int.toNat_natCast, zpow_neg,
      inv_mul_le_iff₀ (by positivity), mul_comm, ← cast_pow10]
    exact_mod_cast Iff.rfl

/-- The place found is not above the one of the leading digit. -/
theorem ten_pow_leadingPlace_le {num den : Nat} (hnum : num ≠ 0)
    (h : -2048 ≤ (num.log2 : Int) - den.log2) :
    (10 : ℚ) ^ leadingPlace num den * den ≤ num := by
  obtain ⟨guess, hguess⟩ : ∃ guess, guess = ((num.log2 : Int) - den.log2) * 1233 / 4096 := ⟨_, rfl⟩
  obtain ⟨reaches, hreaches, hplace⟩ : ∃ reaches : Int → Bool,
      (∀ e, reaches e = true ↔ (10 : ℚ) ^ e * den ≤ num) ∧
      leadingPlace num den = if reaches (guess + 1) then guess + 1
        else if reaches guess then guess else guess - 1 :=
    ⟨_, ten_pow_mul_le_iff num den, by rw [hguess]; rfl⟩
  rw [hplace]
  split
  · next hnext => exact (hreaches _).1 hnext
  · split
    · next hhit => exact (hreaches _).1 hhit
    · -- The estimate is too high by less than one place.
      have hestimate := ten_pow_estimate_le h
      rw [← hguess] at hestimate
      have hlow : (2 : ℚ) ^ num.log2 ≤ num := by exact_mod_cast Nat.log2_self_le hnum
      have hhigh : (den : ℚ) ≤ 2 ^ den.log2 * 2 := by
        exact_mod_cast (Nat.lt_log2_self.le : den ≤ 2 ^ (den.log2 + 1))
      have hsplit : (2 : ℚ) ^ ((num.log2 : Int) - den.log2) * 2 ^ den.log2 = 2 ^ num.log2 := by
        rw [zpow_sub₀ (by norm_num), zpow_natCast, zpow_natCast]
        field_simp
      calc (10 : ℚ) ^ (guess - 1) * den = 10 ^ guess * den / 10 := by
            rw [zpow_sub_one₀ (by norm_num)]
            ring
        _ ≤ 5 * 2 ^ ((num.log2 : Int) - den.log2) * (2 ^ den.log2 * 2) / 10 := by gcongr
        _ = 2 ^ ((num.log2 : Int) - den.log2) * 2 ^ den.log2 := by ring
        _ = 2 ^ num.log2 := hsplit
        _ ≤ num := hlow

/-! ## Shortest decimals -/

/-- Seventeen digits reach into the interval of a number. -/
theorem isSome_onGrid_intervalOf {x : Binary64} (h : x.magnitude ≠ 0) :
    ((intervalOf x).onGrid
      (leadingPlace (intervalOf x).value (intervalOf x).denominator - 16)).isSome = true := by
  have hsignificand := significand_lt x
  have hpos : 0 < x.significand := Nat.pos_of_ne_zero fun hzero => h (by
    rw [Binary64.magnitude, hzero, Nat.zero_mul])
  have hunit : 0 < 2 ^ x.shift := Nat.pow_pos (by decide)
  have hbelow := below_eq (x := x)
  have hlow : (intervalOf x).low = (4 * x.significand - below x) * 2 ^ x.shift := rfl
  have hvalue : (intervalOf x).value = 4 * x.significand * 2 ^ x.shift := rfl
  have hhigh : (intervalOf x).high = (4 * x.significand + 2) * 2 ^ x.shift := rfl
  have hdenominator : (intervalOf x).denominator = pow2 1076 := by rw [intervalOf]
  generalize intervalOf x = i at hlow hvalue hhigh hdenominator ⊢
  have hleading : (10 : ℚ) ^ leadingPlace i.value i.denominator * i.denominator ≤ i.value := by
    refine ten_pow_leadingPlace_le ?_ ?_
    · rw [hvalue]
      exact (Nat.mul_pos (by omega) hunit).ne'
    · rw [hdenominator, log2_pow2]
      omega
  refine Interval.isSome_onGrid ?_ ?_ ?_ ?_
  · rw [hdenominator]
    exact pow2_pos 1076
  · rw [hlow, hvalue, Nat.mul_lt_mul_right hunit]
    omega
  · rw [hvalue, hhigh, Nat.mul_lt_mul_right hunit]
    omega
  · -- The step is the value over ten to the sixteenth, or less.
    have hstep : (10 : ℚ) ^ (leadingPlace i.value i.denominator - 16) * i.denominator * 10 ^ 16 ≤
        i.value := by
      rw [zpow_sub₀ (by norm_num)]
      refine le_trans (le_of_eq ?_) hleading
      field_simp
    have hwide : (4 * x.significand : ℚ) < (below x + 2) * 10 ^ 16 := by
      have hwide : 4 * x.significand < (below x + 2) * 10 ^ 16 := by
        rcases hbelow with ⟨hone, hleading⟩ | ⟨htwo, -⟩ <;> omega
      exact_mod_cast hwide
    have hwidth : (i.high : ℚ) - i.low = (below x + 2) * 2 ^ x.shift := by
      rw [hhigh, hlow]
      rw [Nat.cast_mul, Nat.cast_mul, Nat.cast_sub (by omega)]
      push_cast
      ring
    have hunit' : (0 : ℚ) < 2 ^ x.shift := by positivity
    rw [hwidth]
    refine lt_of_mul_lt_mul_right (a := (10 : ℚ) ^ 16) ?_ (by positivity)
    calc (10 : ℚ) ^ (leadingPlace i.value i.denominator - 16) * i.denominator * 10 ^ 16
        ≤ i.value := hstep
      _ = 4 * x.significand * 2 ^ x.shift := by
        rw [hvalue]
        push_cast
        ring
      _ < (below x + 2) * 10 ^ 16 * 2 ^ x.shift := mul_lt_mul_of_pos_right hwide hunit'
      _ = (below x + 2) * 2 ^ x.shift * 10 ^ 16 := by ring

theorem contains_shortest {x : Binary64} (h : x.magnitude ≠ 0) :
    (intervalOf x).Contains (shortest x).value := by
  rw [shortest, if_neg h]
  dsimp only
  rw [value_trim]
  obtain ⟨i, hi⟩ : ∃ i, i = intervalOf x := ⟨_, rfl⟩
  have hgrid := isSome_onGrid_intervalOf h
  rw [← hi] at hgrid ⊢
  obtain ⟨d, hd⟩ : ∃ d, (List.range 17).findSome? (fun (n : Nat) =>
      i.onGrid (leadingPlace i.value i.denominator - n)) = some d := by
    rw [← Option.isSome_iff_exists, List.findSome?_isSome_iff]
    exact ⟨16, List.mem_range.2 (by decide), hgrid⟩
  rw [hd, Option.getD_some]
  obtain ⟨n, -, hn⟩ := List.exists_of_findSome?_eq_some hd
  exact (Interval.holds_iff d).1 (List.find?_some hn)

theorem value_shortest_pos {x : Binary64} (h : x.magnitude ≠ 0) : 0 < (shortest x).value := by
  have hpos : 0 < x.significand := Nat.pos_of_ne_zero fun hzero => h (by
    rw [Binary64.magnitude, hzero, Nat.zero_mul])
  have hlow : 0 < (intervalOf x).low := by
    refine Nat.mul_pos ?_ (Nat.pow_pos (by decide))
    show 0 < 4 * x.significand - below x
    have hbelow := below_eq (x := x)
    omega
  have hbetween := (contains_shortest h).between.1
  have hlow' : (0 : ℚ) < (intervalOf x).low := by exact_mod_cast hlow
  exact pos_of_mul_pos_left (hlow'.trans_le hbetween) (Nat.cast_nonneg _)

/-- Numbers with one shortest decimal have one magnitude. -/
theorem magnitude_of_value {x y : Binary64} (h : (shortest x).value = (shortest y).value) :
    x.magnitude = y.magnitude := by
  have hzero : ∀ z : Binary64, z.magnitude = 0 → (shortest z).value = 0 := fun z hz => by
    rw [shortest, if_pos hz, value, Nat.cast_zero, zero_mul]
  by_cases hx : x.magnitude = 0
  · by_cases hy : y.magnitude = 0
    · rw [hx, hy]
    · exact absurd (h.symm.trans (hzero x hx)) (value_shortest_pos hy).ne'
  · by_cases hy : y.magnitude = 0
    · exact absurd (h.trans (hzero y hy)) (value_shortest_pos hx).ne'
    · exact magnitude_of_contains (contains_shortest hx) (h ▸ contains_shortest hy)

end ModelMapper.Decimal
