import Mathlib.Data.List.TakeWhile
import ModelMapper.Decimal.Layout
import ModelMapper.Proofs.Decimal.Shortest

/-! # Texts of numbers

In a layout that is always positional the text of a number is read as its digits, so that finite
numbers with one text are one number.

* `Decimal.ofText` — the number that digits with a point between them stand for.
* `NumberLayout.ofText_positional` — the digits of a decimal, wherever its point is.
* `NumberLayout.write_plain` — the text of a finite number is that of its shortest decimal.
* `Binary64.scaled_of_write` — finite numbers with one text.
-/

namespace ModelMapper

/-- The number that digits stand for, with or without a point between them. -/
def Decimal.ofText (text : List Char) : ℚ :=
  (Nat.ofDigitChars 10 (text.filter (· ≠ '.')) 0 : ℚ) /
    10 ^ ((text.dropWhile (· ≠ '.')).length - 1)

namespace NumberLayout

theorem isDigit_of_mem {n : Nat} {c : Char} (h : c ∈ Nat.toDigits 10 n) : c.isDigit = true :=
  Nat.isDigit_of_mem_toDigits (by decide) (by decide) h

theorem ne_point {c : Char} (h : c.isDigit = true) : decide (c ≠ '.') = true := by
  refine decide_eq_true ?_
  rintro rfl
  exact absurd h (by decide)

/-- A text of digits before and after a point, which may be left out where none follow. -/
inductive Reads : List Char → ℚ → Prop where
  | point {before after : List Char} (hbefore : ∀ c ∈ before, c.isDigit = true)
    (hafter : ∀ c ∈ after, c.isDigit = true) :
    Reads (before ++ '.' :: after)
      ((Nat.ofDigitChars 10 (before ++ after) 0 : ℚ) / 10 ^ after.length)
  | whole {text : List Char} (h : ∀ c ∈ text, c.isDigit = true) :
    Reads text (Nat.ofDigitChars 10 text 0)

variable {text : List Char} {v : ℚ}

theorem Reads.ofText (h : Reads text v) : Decimal.ofText text = v := by
  cases h with
  | @point before after hbefore hafter =>
    have hfirst : before.filter (fun c => decide (c ≠ '.')) = before :=
      List.filter_eq_self.2 fun c hc => ne_point (hbefore c hc)
    have hlast : after.filter (fun c => decide (c ≠ '.')) = after :=
      List.filter_eq_self.2 fun c hc => ne_point (hafter c hc)
    rw [Decimal.ofText, List.filter_append, List.filter_cons, hfirst, hlast,
      List.dropWhile_append_of_pos fun c hc => ne_point (hbefore c hc)]
    rfl
  | whole h =>
    have hall : text.filter (fun c => decide (c ≠ '.')) = text :=
      List.filter_eq_self.2 fun c hc => ne_point (h c hc)
    have hnone : text.dropWhile (fun c => decide (c ≠ '.')) = [] :=
      List.dropWhile_eq_nil_iff.2 fun c hc => ne_point (h c hc)
    rw [Decimal.ofText, hall, hnone]
    simp

theorem Reads.chars (h : Reads text v) {c : Char} (hc : c ∈ text) :
    c.isDigit = true ∨ c = '.' := by
  cases h with
  | point hbefore hafter =>
    rw [List.mem_append, List.mem_cons] at hc
    rcases hc with hc | hc | hc
    · exact .inl (hbefore c hc)
    · exact .inr hc
    · exact .inl (hafter c hc)
  | whole h => exact .inl (h c hc)

theorem Reads.unsigned (h : Reads text v) : '-' ∉ text := fun hmem =>
  absurd (h.chars hmem) (by decide)

/-- The digits of a decimal are read as its number, wherever the point is put. -/
theorem reads_positional (n : Nat) (exponent : Int) :
    Reads (positional false (toString n) ((toString n).length + exponent)).toList
      (n * 10 ^ exponent) := by
  have hdigits : ∀ c ∈ Nat.toDigits 10 n, c.isDigit = true := fun c => isDigit_of_mem
  have hread : Nat.ofDigitChars 10 (Nat.toDigits 10 n) 0 = n :=
    Nat.ofDigitChars_toDigits (by decide) (by decide)
  have hzeros : ∀ k, ∀ c ∈ List.replicate k '0', c.isDigit = true := fun k c hc => by
    rw [List.eq_of_mem_replicate hc]
    decide
  have htext : toString n = String.ofList (Nat.toDigits 10 n) := rfl
  rw [positional, htext, String.length_ofList]
  generalize Nat.toDigits 10 n = digits at hdigits hread ⊢
  dsimp only
  split
  · -- All digits stand after the point, behind zeros.
    obtain ⟨k, hk⟩ : ∃ k : Nat, exponent = -((k + digits.length : Nat) : Int) :=
      ⟨(-(digits.length + exponent)).toNat, by omega⟩
    have hcount : (-(digits.length + exponent)).toNat = k := by omega
    have hlist : ("0." ++ String.ofList (List.replicate k '0') ++ String.ofList digits).toList =
        ['0'] ++ '.' :: (List.replicate k '0' ++ digits) := by simp
    have hzero : Nat.ofDigitChars 10 ['0'] 0 = 0 := rfl
    have hdigit : ∀ c ∈ ['0'], c.isDigit = true := List.forall_mem_singleton.2 rfl
    have hreads := Reads.point hdigit (List.forall_mem_append.2 ⟨hzeros k, hdigits⟩)
    rw [Nat.ofDigitChars_append, Nat.ofDigitChars_append, Nat.ofDigitChars_replicate_zero, hzero,
      Nat.mul_zero, hread, List.length_append, List.length_replicate] at hreads
    rwa [hcount, hlist, hk, zpow_neg, zpow_natCast, ← div_eq_mul_inv]
  · split
    · -- All digits stand before the point, and zeros behind them.
      obtain ⟨k, rfl⟩ : ∃ k : Nat, exponent = (k : Int) := ⟨exponent.toNat, by omega⟩
      have hcount : (digits.length + (k : Int)).toNat - digits.length = k := by omega
      have hlist : (String.ofList digits ++
          String.ofList (List.replicate k '0') ++ (if false = true then ".0" else "")).toList =
            digits ++ List.replicate k '0' := by simp
      have hreads := Reads.whole (List.forall_mem_append.2 ⟨hdigits, hzeros k⟩)
      rw [Nat.ofDigitChars_append, Nat.ofDigitChars_replicate_zero, hread, mul_comm, Nat.cast_mul,
        Nat.cast_pow] at hreads
      rwa [hcount, hlist, zpow_natCast]
    · obtain ⟨k, rfl⟩ : ∃ k : Nat, exponent = -(k : Int) := ⟨(-exponent).toNat, by omega⟩
      have hcount : (digits.length + -(k : Int)).toNat = digits.length - k := by omega
      have hlist : (String.ofList (digits.take (digits.length - k)) ++ "." ++
          String.ofList (digits.drop (digits.length - k))).toList =
            digits.take (digits.length - k) ++ '.' :: digits.drop (digits.length - k) := by simp
      have hall : ∀ c ∈ digits.take (digits.length - k) ++ digits.drop (digits.length - k),
          c.isDigit = true := by
        rwa [List.take_append_drop]
      obtain ⟨hbefore, hafter⟩ := List.forall_mem_append.1 hall
      have hreads := Reads.point hbefore hafter
      rw [List.take_append_drop, hread, List.length_drop, Nat.sub_sub_self (by omega)] at hreads
      rwa [hcount, String.toList_ofList, hlist, zpow_neg, zpow_natCast, ← div_eq_mul_inv]

/-- The text of a finite number is its sign with the digits of its shortest decimal. -/
theorem write_plain {x : Binary64} (hx : x.isFinite = true) :
    ∃ text, plain.write x = (if x.negative then "-" else "") ++ text ∧
      Reads text.toList (Decimal.shortest x).value := by
  refine ⟨_, ?_, reads_positional (Decimal.shortest x).digits (Decimal.shortest x).exponent⟩
  have hfield : (x.exponentField == 2047) = false := by
    rwa [Binary64.isFinite, bne, Bool.not_eq_true'] at hx
  have hpoint : (if (Decimal.shortest x).digits = 0 then 1 else (Decimal.shortest x).pointAt) =
      (Decimal.shortest x).pointAt := by
    split
    · next hzero =>
      by_cases hmagnitude : x.magnitude = 0
      · rw [Decimal.shortest, if_pos hmagnitude]
        rfl
      · have hpos := Decimal.value_shortest_pos hmagnitude
        rw [Decimal.value, hzero, Nat.cast_zero, zero_mul] at hpos
        exact absurd hpos (lt_irrefl 0)
    · rfl
  rw [write, Binary64.isNaN, Binary64.isInfinite, hfield]
  dsimp only
  rw [hpoint]
  rfl

end NumberLayout

/-- A sign is told apart from a text without one. -/
theorem sign_append_inj {a b : Bool} {s t : List Char} (hs : '-' ∉ s) (ht : '-' ∉ t)
    (h : (if a then "-" else "").toList ++ s = (if b then "-" else "").toList ++ t) :
    a = b ∧ s = t := by
  cases a <;> cases b
  case false.false | true.true => exact ⟨rfl, List.append_cancel_left h⟩
  case false.true =>
    change s = '-' :: t at h
    exact absurd (h ▸ List.mem_cons_self) hs
  case true.false =>
    change '-' :: s = t at h
    exact absurd (h ▸ List.mem_cons_self) ht

namespace Binary64

/-- Finite numbers with one text have one sign and one magnitude. -/
theorem parts_of_write {x y : Binary64} (hx : x.isFinite = true) (hy : y.isFinite = true)
    (h : NumberLayout.plain.write x = NumberLayout.plain.write y) :
    x.negative = y.negative ∧ x.magnitude = y.magnitude := by
  obtain ⟨text, hxtext, hxreads⟩ := NumberLayout.write_plain hx
  obtain ⟨text', hytext, hyreads⟩ := NumberLayout.write_plain hy
  rw [hxtext, hytext] at h
  have hlist := congrArg String.toList h
  rw [String.toList_append, String.toList_append] at hlist
  -- Digits do not start with a sign.
  obtain ⟨hsign, hdigits⟩ := sign_append_inj hxreads.unsigned hyreads.unsigned hlist
  rw [hdigits] at hxreads
  exact ⟨hsign, Decimal.magnitude_of_value (hxreads.ofText.symm.trans hyreads.ofText)⟩

/-- The text of a finite number tells its value apart from all others. -/
theorem scaled_of_write {x y : Binary64} (hx : x.isFinite = true) (hy : y.isFinite = true)
    (h : NumberLayout.plain.write x = NumberLayout.plain.write y) : x.scaled = y.scaled := by
  obtain ⟨hsign, hmagnitude⟩ := parts_of_write hx hy h
  rw [scaled, scaled, hsign, hmagnitude]

end Binary64

end ModelMapper
