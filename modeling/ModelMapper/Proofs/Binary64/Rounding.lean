import Mathlib.Data.Nat.Log
import Mathlib.Tactic.Linarith
import Mathlib.Tactic.Ring
import ModelMapper.Binary64

/-! # Rounding whole numbers

* `BinaryFormat.round_whole` — the pattern of a whole number, by its first place and its rounded
  significand (`wholeSignificand`).
* `BinaryFormat.round_whole_mono` — a larger number has no smaller pattern.
* `Binary64.scaled_ofInt_mono` — so rounding to a float keeps the order of whole numbers.
* `Binary64.scaled_ofInt` — and does nothing to those of no more than 53 binary digits.
-/

namespace ModelMapper

namespace BinaryFormat

theorem roundDiv_bounds (a d : Nat) : a / d ≤ roundDiv a d ∧ roundDiv a d ≤ a / d + 1 := by
  rw [roundDiv]
  split
  · omega
  · split <;> omega

theorem roundDiv_mono {a b : Nat} (h : a ≤ b) (d : Nat) : roundDiv a d ≤ roundDiv b d := by
  have hfloor : a / d ≤ b / d := Nat.div_le_div_right h
  rcases hfloor.lt_or_eq with hlt | heq
  · -- Rounding goes up to the next floor at most.
    have hup := (roundDiv_bounds a d).2
    have hdown := (roundDiv_bounds b d).1
    omega
  · have hmod : a % d ≤ b % d := by
      have ha := Nat.div_add_mod a d
      have hb := Nat.div_add_mod b d
      rw [heq] at ha
      omega
    rw [roundDiv, roundDiv, heq]
    generalize b / d = floor
    generalize a % d = x at hmod ⊢
    generalize b % d = y at hmod ⊢
    by_cases hx : 2 * x < d
    · rw [if_pos hx]
      split
      · exact Nat.le_refl _
      · split <;> omega
    · have hy : ¬2 * y < d := by omega
      rw [if_neg hx, if_neg hy]
      split <;> split <;> omega

theorem roundDiv_mul (a : Nat) {d : Nat} (hd : 0 < d) : roundDiv (a * d) d = a := by
  rw [roundDiv, Nat.mul_mod_left, Nat.mul_div_cancel _ hd]
  exact if_pos hd

/-- The last place of a whole number is 52 places below its first. -/
theorem placeOf_double {n : Nat} (hn : n ≠ 0) : double.placeOf n 1 = (n.log2 : Int) - 52 := by
  have hlow : 2 ^ n.log2 ≤ n := Nat.log2_self_le hn
  have hmin : double.minExponent = -1074 := by decide
  have hguess : max ((n.log2 : Int) - (1 : Nat).log2 - double.precision) double.minExponent =
      n.log2 - 53 := by
    rw [hmin, show ((1 : Nat).log2 : Int) = 0 by decide, show (double.precision : Int) = 53 by rfl]
    omega
  rw [placeOf, hguess]
  by_cases hwide : (0 : Int) ≤ n.log2 - 53
  · obtain ⟨k, hk⟩ : ∃ k, n.log2 = k + 53 := ⟨n.log2 - 53, by omega⟩
    rw [if_pos hwide, if_pos]
    · omega
    · rw [hk] at hlow ⊢
      rw [decide_eq_true_eq, Nat.one_mul]
      have hexp : ((k + 53 : Nat) - 53 : Int).toNat + double.precision = k + 53 := by
        show _ + 53 = _
        omega
      rw [hexp]
      exact hlow
  · obtain ⟨k, hk⟩ : ∃ k, n.log2 + k = 53 := ⟨53 - n.log2, by omega⟩
    rw [if_neg hwide, if_pos]
    · omega
    · rw [decide_eq_true_eq, Nat.one_mul]
      have hexp : (-((n.log2 : Int) - 53)).toNat = k := by omega
      rw [hexp]
      show 2 ^ 53 ≤ n * 2 ^ k
      rw [← hk, Nat.pow_add]
      exact Nat.mul_le_mul_right _ hlow

/-- The significand of a whole number, rounded. -/
def wholeSignificand (n : Nat) : Nat := roundDiv (n * 2 ^ (52 - n.log2)) (2 ^ (n.log2 - 52))

/-- A carry out of the significand goes into the exponent. -/
theorem round_whole {n : Nat} (hn : n ≠ 0) : double.round n 1 =
    min ((n.log2 + 1022) * 2 ^ 52 + wholeSignificand n) (2047 * 2 ^ 52) := by
  have hinfinity : double.infinity = 2047 * 2 ^ 52 := by decide
  have hmin : double.minExponent = -1074 := by decide
  rw [round, if_neg hn, placeOf_double hn, hinfinity, hmin]
  dsimp only
  have hplace : ((n.log2 : Int) - 52 - -1074).toNat = n.log2 + 1022 := by omega
  have hpow : pow2 (double.precision - 1) = 2 ^ 52 := rfl
  have hsignificand : (if (0 : Int) ≤ (n.log2 : Int) - 52 then
      roundDiv n (1 * pow2 ((n.log2 : Int) - 52).toNat)
      else roundDiv (n * pow2 (-((n.log2 : Int) - 52)).toNat) 1) = wholeSignificand n := by
    rw [wholeSignificand]
    split
    · have hexp : ((n.log2 : Int) - 52).toNat = n.log2 - 52 := by omega
      have hzero : 52 - n.log2 = 0 := by omega
      rw [hexp, hzero, Nat.pow_zero, Nat.mul_one, Nat.one_mul]
      rfl
    · have hexp : (-((n.log2 : Int) - 52)).toNat = 52 - n.log2 := by omega
      have hzero : n.log2 - 52 = 0 := by omega
      rw [hexp, hzero, Nat.pow_zero]
      rfl
  rw [hplace, hpow, hsignificand]

theorem wholeSignificand_bounds {n : Nat} (hn : n ≠ 0) :
    2 ^ 52 ≤ wholeSignificand n ∧ wholeSignificand n ≤ 2 ^ 53 := by
  have hlow : 2 ^ n.log2 ≤ n := Nat.log2_self_le hn
  have hhigh : n < 2 ^ (n.log2 + 1) := Nat.lt_log2_self
  have hfloor : 2 ^ 52 ≤ n * 2 ^ (52 - n.log2) / 2 ^ (n.log2 - 52) ∧
      n * 2 ^ (52 - n.log2) / 2 ^ (n.log2 - 52) < 2 ^ 53 := by
    rw [Nat.le_div_iff_mul_le (Nat.two_pow_pos _), Nat.div_lt_iff_lt_mul (Nat.two_pow_pos _),
      ← Nat.pow_add, ← Nat.pow_add]
    have hsame : 52 + (n.log2 - 52) = n.log2 + (52 - n.log2) := by omega
    have hnext : 53 + (n.log2 - 52) = n.log2 + 1 + (52 - n.log2) := by omega
    rw [hsame, hnext, Nat.pow_add, Nat.pow_add _ (n.log2 + 1)]
    exact ⟨Nat.mul_le_mul_right _ hlow, Nat.mul_lt_mul_of_pos_right hhigh (Nat.two_pow_pos _)⟩
  have hround := roundDiv_bounds (n * 2 ^ (52 - n.log2)) (2 ^ (n.log2 - 52))
  rw [wholeSignificand]
  omega

theorem round_whole_mono {m n : Nat} (h : m ≤ n) : double.round m 1 ≤ double.round n 1 := by
  by_cases hm : m = 0
  · rw [hm, round, if_pos rfl]
    exact Nat.zero_le _
  have hn : n ≠ 0 := by omega
  rw [round_whole hm, round_whole hn]
  refine min_le_min_right _ ?_
  have hlog : m.log2 ≤ n.log2 := by
    rw [Nat.le_log2 hn]
    exact (Nat.log2_self_le hm).trans h
  rcases hlog.lt_or_eq with hlt | heq
  · -- A carry leads to the first pattern of the next exponent at most.
    have hmhigh := (wholeSignificand_bounds hm).2
    have hnlow := (wholeSignificand_bounds hn).1
    omega
  · have hsignificand : wholeSignificand m ≤ wholeSignificand n := by
      rw [wholeSignificand, wholeSignificand, heq]
      exact roundDiv_mono (Nat.mul_le_mul_right _ h) _
    omega

end BinaryFormat

namespace Binary64

/-- The magnitude of a pattern without a sign. -/
def magnitudeOf (p : Nat) : Nat :=
  if p / 2 ^ 52 = 0 then p % 2 ^ 52 else (p % 2 ^ 52 + 2 ^ 52) * 2 ^ (p / 2 ^ 52 - 1)

theorem magnitudeOf_mono {p q : Nat} (h : p ≤ q) : magnitudeOf p ≤ magnitudeOf q := by
  have hfraction : p % 2 ^ 52 < 2 ^ 52 := Nat.mod_lt _ (by decide)
  have hexponent : p / 2 ^ 52 ≤ q / 2 ^ 52 := Nat.div_le_div_right h
  rw [magnitudeOf, magnitudeOf]
  rcases hexponent.lt_or_eq with hlt | heq
  · obtain ⟨k, hk⟩ := Nat.exists_eq_add_of_lt hlt
    rw [if_neg (show q / 2 ^ 52 ≠ 0 by omega), show q / 2 ^ 52 - 1 = p / 2 ^ 52 + k by omega]
    have hpow : 0 < 2 ^ k := Nat.two_pow_pos k
    calc (if p / 2 ^ 52 = 0 then p % 2 ^ 52
          else (p % 2 ^ 52 + 2 ^ 52) * 2 ^ (p / 2 ^ 52 - 1))
        ≤ 2 ^ 52 * 2 ^ (p / 2 ^ 52) := by
          split
          · next hzero =>
            rw [hzero]
            omega
          · next hpos =>
            obtain ⟨e, he⟩ := Nat.exists_eq_succ_of_ne_zero hpos
            have hdouble : 2 ^ 52 * 2 ^ (e + 1) = 2 ^ 53 * 2 ^ e := by ring
            rw [he, Nat.succ_sub_one, Nat.succ_eq_add_one, hdouble]
            exact Nat.mul_le_mul_right _ (by omega)
      _ ≤ (q % 2 ^ 52 + 2 ^ 52) * 2 ^ (p / 2 ^ 52 + k) :=
          Nat.mul_le_mul (Nat.le_add_left _ _) (Nat.pow_le_pow_right (by decide) (by omega))
  · have hpq : p % 2 ^ 52 ≤ q % 2 ^ 52 := by omega
    rw [heq]
    split
    · exact hpq
    · exact Nat.mul_le_mul_right _ (Nat.add_le_add_right hpq _)

/-- The parts of a pattern are those it has without its sign. -/
theorem parts_withSign (neg : Bool) {p : Nat} (hp : p ≤ 2047 * 2 ^ 52) :
    (withSign neg p).negative = neg ∧ (withSign neg p).exponentField = p / 2 ^ 52 ∧
      (withSign neg p).fraction = p % 2 ^ 52 := by
  have hnat : (withSign neg p).bits.toNat = if neg then 2 ^ 63 + p else p :=
    UInt64.toNat_ofNat_of_lt' (show (if neg then 2 ^ 63 + p else p) < 2 ^ 64 by split <;> omega)
  rw [negative, exponentField, fraction, hnat]
  show decide (2 ^ 63 ≤ _) = _ ∧ _ / 2 ^ 52 % 2 ^ 11 = _ ∧ _ % 2 ^ 52 = _
  cases neg with
  | false =>
    rw [if_neg Bool.false_ne_true, decide_eq_false (by omega)]
    exact ⟨rfl, by omega, rfl⟩
  | true =>
    rw [if_pos rfl, decide_eq_true (Nat.le_add_right _ _)]
    exact ⟨rfl, by omega, by omega⟩

theorem scaled_withSign (neg : Bool) {p : Nat} (hp : p ≤ 2047 * 2 ^ 52) :
    (withSign neg p).scaled = if neg then -(magnitudeOf p : Int) else magnitudeOf p := by
  obtain ⟨hnegative, hexponent, hfraction⟩ := parts_withSign neg hp
  have hmagnitude : (withSign neg p).magnitude = magnitudeOf p := by
    rw [magnitude, significand, shift, hexponent, hfraction, magnitudeOf]
    split
    · next hzero =>
      rw [hzero]
      exact Nat.mul_one _
    · rfl
  rw [scaled, hnegative, hmagnitude]

theorem round_whole_le (n : Nat) : BinaryFormat.double.round n 1 ≤ 2047 * 2 ^ 52 := by
  by_cases hn : n = 0
  · rw [hn, BinaryFormat.round, if_pos rfl]
    exact Nat.zero_le _
  · rw [BinaryFormat.round_whole hn]
    exact Nat.min_le_right _ _

/-- A whole number too large for a float is infinite, none is a not-a-number. -/
theorem isNaN_ofInt (n : Int) : (ofInt n).isNaN = false := by
  have hround := round_whole_le n.natAbs
  obtain ⟨-, hexponent, hfraction⟩ := parts_withSign (decide (n < 0)) hround
  rw [ofInt, ofRatio, isNaN, hexponent, hfraction, Bool.and_eq_false_iff, beq_eq_false_iff_ne,
    bne_eq_false_iff_eq]
  omega

theorem scaled_ofInt_eq (n : Int) : (ofInt n).scaled =
    if n < 0 then -(magnitudeOf (BinaryFormat.double.round n.natAbs 1) : Int)
    else magnitudeOf (BinaryFormat.double.round n.natAbs 1) := by
  rw [ofInt, ofRatio, scaled_withSign _ (round_whole_le _)]
  simp only [decide_eq_true_eq]

/-- Rounding whole numbers keeps their order. -/
theorem scaled_ofInt_mono {m n : Int} (h : m ≤ n) : (ofInt m).scaled ≤ (ofInt n).scaled := by
  have hmono : ∀ {j k : Nat}, j ≤ k → magnitudeOf (BinaryFormat.double.round j 1) ≤
      magnitudeOf (BinaryFormat.double.round k 1) := fun hjk =>
    magnitudeOf_mono (BinaryFormat.round_whole_mono hjk)
  rw [scaled_ofInt_eq, scaled_ofInt_eq]
  by_cases hn : n < 0
  · -- Of two numbers below zero the smaller one has the larger magnitude.
    have := hmono (show n.natAbs ≤ m.natAbs by omega)
    rw [if_pos hn, if_pos (by omega)]
    omega
  · rw [if_neg hn]
    split
    · omega
    · have := hmono (show m.natAbs ≤ n.natAbs by omega)
      omega

/-- The magnitude with a significand that has its first place. -/
theorem magnitudeOf_normal (e : Nat) {s : Nat} (hlow : 2 ^ 52 ≤ s) (hhigh : s < 2 ^ 53) :
    magnitudeOf (e * 2 ^ 52 + s) = s * 2 ^ e := by
  have hexponent : (e * 2 ^ 52 + s) / 2 ^ 52 = e + 1 := by omega
  have hfraction : (e * 2 ^ 52 + s) % 2 ^ 52 + 2 ^ 52 = s := by omega
  rw [magnitudeOf, hexponent, if_neg (Nat.succ_ne_zero e), hfraction, Nat.add_sub_cancel]

theorem magnitudeOf_whole {n : Nat} (h : n ≤ 2 ^ 53) :
    magnitudeOf (BinaryFormat.double.round n 1) = n * pow2 1074 := by
  rcases Nat.eq_zero_or_pos n with rfl | hpos
  · rw [Nat.zero_mul]
    decide
  rcases h.lt_or_eq with hlt | rfl
  · have hn : n ≠ 0 := hpos.ne'
    have hlog : n.log2 ≤ 52 := Nat.lt_succ_iff.1 ((Nat.log2_lt hn).2 hlt)
    have hexact : BinaryFormat.wholeSignificand n = n * 2 ^ (52 - n.log2) := by
      rw [BinaryFormat.wholeSignificand, Nat.sub_eq_zero_of_le hlog]
      exact (congrArg (BinaryFormat.roundDiv · 1) (Nat.mul_one _).symm).trans
        (BinaryFormat.roundDiv_mul _ Nat.one_pos)
    have hlow := (BinaryFormat.wholeSignificand_bounds hn).1
    have hhigh : n * 2 ^ (52 - n.log2) < 2 ^ 53 := by
      have hnext : 2 ^ 53 = 2 ^ (n.log2 + 1) * 2 ^ (52 - n.log2) := by
        rw [← Nat.pow_add]
        congr 1
        omega
      rw [hnext]
      exact Nat.mul_lt_mul_of_pos_right Nat.lt_log2_self (Nat.two_pow_pos _)
    rw [hexact] at hlow
    have hunit : 2 ^ (52 - n.log2) * 2 ^ (n.log2 + 1022) = pow2 1074 := by
      have hplaces : 52 - n.log2 + (n.log2 + 1022) = 1074 := by omega
      rw [← hplaces]
      exact (Nat.pow_add 2 _ _).symm
    rw [BinaryFormat.round_whole hn, hexact, Nat.min_eq_left (by omega),
      magnitudeOf_normal _ hlow hhigh, Nat.mul_assoc, hunit]
  · decide +kernel

/-- Whole numbers of no more than 53 binary digits are floats. -/
theorem scaled_ofInt {n : Int} (h : n.natAbs ≤ 2 ^ 53) :
    (ofInt n).scaled = n * (pow2 1074 : Nat) := by
  rw [scaled_ofInt_eq, magnitudeOf_whole h]
  generalize pow2 1074 = unit
  rw [Nat.cast_mul]
  split
  · next hn => rw [← neg_mul, Int.ofNat_natAbs_of_nonpos hn.le, neg_neg]
  · next hn => rw [Int.natAbs_of_nonneg (not_lt.1 hn)]

end Binary64

end ModelMapper
