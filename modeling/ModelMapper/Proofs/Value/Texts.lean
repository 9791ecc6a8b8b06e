import Mathlib
import ModelMapper.Proofs.Decimal.Texts
import ModelMapper.Proofs.Time.Reading

/-! # Texts of values

What the text of a value tells of it.  A number of either sign, a whole number, a text, a truth
value and a timestamp of any year are known by their text.  The two kinds of values that are not
are byte strings, shown by their length, and what is not a number.

* `Binary64.eq_of_magnitude`, `Binary64.write_inj` — floats, infinities included.
* `Timestamp.OnClock`, `Timestamp.toText_injective` — timestamps of all years.
* `Value.alike`, `Value.eq_or_alike_of_display` — values of one type with one text.
-/

namespace ModelMapper

/-! ## Floats -/

namespace Binary64

variable {x y : Binary64}

theorem eq_of_parts (hsign : x.negative = y.negative)
    (hexponent : x.exponentField = y.exponentField) (hfraction : x.fraction = y.fraction) :
    x = y := by
  obtain ⟨b⟩ := x
  obtain ⟨c⟩ := y
  change decide (2 ^ 63 ≤ b.toNat) = decide (2 ^ 63 ≤ c.toNat) at hsign
  change b.toNat / 2 ^ 52 % 2 ^ 11 = c.toNat / 2 ^ 52 % 2 ^ 11 at hexponent
  change b.toNat % 2 ^ 52 = c.toNat % 2 ^ 52 at hfraction
  have hb := b.toNat_lt
  have hc := c.toNat_lt
  rw [decide_eq_decide] at hsign
  exact congrArg Binary64.mk (UInt64.toNat_inj.1 (by omega))

/-- Of two numbers with one magnitude neither has its last place above that of the other. -/
theorem shift_le_of_magnitude (h : x.magnitude = y.magnitude) : y.shift ≤ x.shift := by
  by_contra hshift
  obtain ⟨k, hk⟩ := Nat.exists_eq_add_of_lt (Nat.lt_of_not_le hshift)
  have hleading := Decimal.le_significand (Nat.zero_lt_of_lt (Nat.lt_of_not_le hshift))
  have hends := Decimal.significand_lt x
  change x.significand * 2 ^ x.shift = y.significand * 2 ^ y.shift at h
  have hscale : y.significand * 2 ^ y.shift = y.significand * 2 * 2 ^ k * 2 ^ x.shift := by
    rw [hk, pow_add, pow_add]
    ring
  rw [hscale] at h
  have hsame := Nat.eq_of_mul_eq_mul_right (Nat.two_pow_pos x.shift) h
  have hle : y.significand * 2 ≤ y.significand * 2 * 2 ^ k :=
    Nat.le_mul_of_pos_right _ (Nat.two_pow_pos k)
  omega

/-- A pattern is its sign and its magnitude. -/
theorem eq_of_magnitude (hsign : x.negative = y.negative) (h : x.magnitude = y.magnitude) :
    x = y := by
  have hshift : x.shift = y.shift :=
    le_antisymm (shift_le_of_magnitude h.symm) (shift_le_of_magnitude h)
  rw [magnitude, magnitude, hshift] at h
  have hsame : x.significand = y.significand :=
    Nat.eq_of_mul_eq_mul_right (Nat.two_pow_pos y.shift) h
  have hx : x.fraction < 2 ^ 52 := Nat.mod_lt _ (by decide)
  have hy : y.fraction < 2 ^ 52 := Nat.mod_lt _ (by decide)
  have hpow : pow2 52 = 2 ^ 52 := rfl
  rw [shift, shift] at hshift
  rw [significand, significand, hpow] at hsame
  -- A pattern with the least exponent is told from the next one by its leading place.
  have hparts : x.exponentField = y.exponentField ∧ x.fraction = y.fraction := by
    split at hsame <;> split at hsame <;> omega
  exact eq_of_parts hsign hparts.1 hparts.2

theorem kind_cases (x : Binary64) :
    (x.isFinite = true ∧ x.isNaN = false ∧ x.isInfinite = false) ∨
      (x.isNaN = true ∧ x.isInfinite = false) ∨ x.isInfinite = true ∧ x.isNaN = false := by
  rw [isFinite, isNaN, isInfinite, bne, bne]
  cases x.exponentField == 2047 <;> cases x.fraction == 0 <;> decide

theorem write_of_isNaN (hx : x.isNaN = true) : NumberLayout.plain.write x = "NaN" := by
  rw [NumberLayout.write, hx]
  rfl

theorem write_of_isInfinite (hx : x.isInfinite = true) (hnumber : x.isNaN = false) :
    NumberLayout.plain.write x = (if x.negative then "-" else "") ++ "inf" := by
  rw [NumberLayout.write, hnumber, hx]
  rfl

/-- The text of a finite number has digits, a point and a sign, so a letter tells the other texts
    apart. -/
theorem contains_write_of_isFinite (hx : x.isFinite = true) {c : Char}
    (hc : ¬(c.isDigit = true ∨ c = '.' ∨ c = '-')) :
    (NumberLayout.plain.write x).toList.contains c = false := by
  obtain ⟨text, htext, hreads⟩ := NumberLayout.write_plain hx
  rw [← Bool.not_eq_true, List.contains_iff_mem, htext, String.toList_append, List.mem_append]
  rintro (hmem | hmem)
  · split at hmem
    · exact hc (.inr (.inr (List.mem_singleton.1 hmem)))
    · cases hmem
  · exact hc (or_assoc.1 (.inl (hreads.chars hmem)))

theorem isNaN_eq_contains (x : Binary64) :
    x.isNaN = (NumberLayout.plain.write x).toList.contains 'N' := by
  rcases kind_cases x with ⟨hx, hnan, -⟩ | ⟨hx, -⟩ | ⟨hx, hnan⟩
  · rw [hnan, contains_write_of_isFinite hx (by decide)]
  · rw [hx, write_of_isNaN hx]
    rfl
  · rw [hnan, write_of_isInfinite hx hnan]
    cases x.negative <;> rfl

theorem isInfinite_eq_contains (x : Binary64) :
    x.isInfinite = (NumberLayout.plain.write x).toList.contains 'i' := by
  rcases kind_cases x with ⟨hx, -, hinfinite⟩ | ⟨hx, hinfinite⟩ | ⟨hx, hnan⟩
  · rw [hinfinite, contains_write_of_isFinite hx (by decide)]
  · rw [hinfinite, write_of_isNaN hx]
    rfl
  · rw [hx, write_of_isInfinite hx hnan]
    cases x.negative <;> rfl

/-- Numbers of either sign, and infinities, are known by their text. -/
theorem write_inj (h : NumberLayout.plain.write x = NumberLayout.plain.write y) :
    x = y ∨ x.isNaN = true ∧ y.isNaN = true := by
  have hnan : x.isNaN = y.isNaN := by rw [isNaN_eq_contains, isNaN_eq_contains, h]
  have hinfinite : x.isInfinite = y.isInfinite := by
    rw [isInfinite_eq_contains, isInfinite_eq_contains, h]
  rcases kind_cases x with ⟨hx, hxnan, hxinf⟩ | ⟨hx, -⟩ | ⟨hx, hxnan⟩
  · rcases kind_cases y with ⟨hy, -, -⟩ | ⟨hy, -⟩ | ⟨hy, -⟩
    · obtain ⟨hsign, hmagnitude⟩ := parts_of_write hx hy h
      exact .inl (eq_of_magnitude hsign hmagnitude)
    · rw [hxnan, hy] at hnan
      cases hnan
    · rw [hxinf, hy] at hinfinite
      cases hinfinite
  · exact .inr ⟨hx, hnan ▸ hx⟩
  · have hy : y.isInfinite = true := hinfinite ▸ hx
    rw [write_of_isInfinite hx hxnan, write_of_isInfinite hy (hnan ▸ hxnan)] at h
    have hlist := congrArg String.toList h
    rw [String.toList_append, String.toList_append] at hlist
    obtain ⟨hsign, -⟩ := sign_append_inj (by decide) (by decide) hlist
    rw [isInfinite, Bool.and_eq_true, beq_iff_eq, beq_iff_eq] at hx hy
    exact .inl (eq_of_parts hsign (hx.1.trans hy.1.symm) (hx.2.trans hy.2.symm))

end Binary64

/-! ## Timestamps -/

namespace Timestamp

/-- What stands before the first character that is no digit is known. -/
theorem append_inj_of_digits {a b x y : List Char} (ha : ∀ c ∈ a, c.isDigit = true)
    (hb : ∀ c ∈ b, c.isDigit = true) (hx : x.takeWhile Char.isDigit = [])
    (hy : y.takeWhile Char.isDigit = []) (h : a ++ x = b ++ y) : a = b ∧ x = y := by
  have hdigits := congrArg (List.takeWhile Char.isDigit) h
  rw [List.takeWhile_append_of_pos ha, List.takeWhile_append_of_pos hb, hx, hy, List.append_nil,
    List.append_nil] at hdigits
  subst hdigits
  exact ⟨rfl, List.append_cancel_left h⟩

theorem isDigit_of_mem_padded {width n : Nat} {c : Char} (h : c ∈ padded width n) :
    c.isDigit = true := by
  rcases List.mem_append.1 h with h | h
  · rw [List.eq_of_mem_replicate h]
    rfl
  · exact NumberLayout.isDigit_of_mem h

theorem ofDigitChars_padded (width n : Nat) : Nat.ofDigitChars 10 (padded width n) 0 = n := by
  rw [padded, Nat.ofDigitChars_append, Nat.ofDigitChars_replicate_zero, Nat.mul_zero,
    Nat.ofDigitChars_toDigits (by decide) (by decide)]

/-- A field of digits is known, and what follows it. -/
theorem padded_append_inj {width n k : Nat} {x y : List Char}
    (hx : x.takeWhile Char.isDigit = []) (hy : y.takeWhile Char.isDigit = [])
    (h : padded width n ++ x = padded width k ++ y) : n = k ∧ x = y := by
  obtain ⟨hdigits, hrest⟩ := append_inj_of_digits (fun _ => isDigit_of_mem_padded)
    (fun _ => isDigit_of_mem_padded) hx hy h
  refine ⟨?_, hrest⟩
  rw [← ofDigitChars_padded width n, hdigits, ofDigitChars_padded]

theorem padded_cons_inj {width n k : Nat} {sep : Char} {x y : List Char}
    (hsep : sep.isDigit = false) (h : padded width n ++ sep :: x = padded width k ++ sep :: y) :
    n = k ∧ x = y := by
  have hend : ∀ z : List Char, (sep :: z).takeWhile Char.isDigit = [] := fun z =>
    List.takeWhile_cons_of_neg (by rw [hsep]; exact Bool.false_ne_true)
  obtain ⟨hn, hrest⟩ := padded_append_inj (hend x) (hend y) h
  exact ⟨hn, (List.cons.inj hrest).2⟩

/-- Digits do not start with a sign. -/
theorem padded_append_ne {width n : Nat} {c : Char} {x y : List Char} (hwidth : 0 < width)
    (hc : c.isDigit = false) : padded width n ++ x ≠ c :: y := by
  intro h
  cases htext : padded width n with
  | nil =>
    have hlength := congrArg List.length htext
    rw [padded, List.length_append, List.length_replicate, List.length_nil] at hlength
    omega
  | cons d rest =>
    rw [htext] at h
    have hd : d.isDigit = true := isDigit_of_mem_padded (htext ▸ List.mem_cons_self)
    rw [(List.cons.inj h).1, hc] at hd
    cases hd

/-- A year is known with its sign, and what follows it. -/
theorem yearText_inj {a b : Int} {x y : List Char}
    (h : yearText a ++ '-' :: x = yearText b ++ '-' :: y) : a = b ∧ x = y := by
  have hsign : ∀ year : Int, (if year < 0 then '-' else '+').isDigit = false := fun year => by
    split <;> rfl
  rw [yearText, yearText] at h
  by_cases ha : 0 ≤ a ∧ a ≤ 9999 <;> by_cases hb : 0 ≤ b ∧ b ≤ 9999
  · rw [if_pos ha, if_pos hb] at h
    obtain ⟨hyear, hrest⟩ := padded_cons_inj (by decide) h
    exact ⟨by omega, hrest⟩
  · rw [if_pos ha, if_neg hb] at h
    exact absurd h (padded_append_ne (by decide) (hsign b))
  · rw [if_neg ha, if_pos hb] at h
    exact absurd h.symm (padded_append_ne (by decide) (hsign a))
  · rw [if_neg ha, if_neg hb] at h
    obtain ⟨hsame, htail⟩ := List.cons.inj h
    obtain ⟨hyear, hrest⟩ := padded_cons_inj (by decide) htail
    refine ⟨?_, hrest⟩
    split at hsame <;> split at hsame <;> first
      | omega
      | cases hsame

/-- A fraction starts with its point, if there is one. -/
theorem takeWhile_fractionText (nanos : Nat) (rest : List Char) :
    (fractionText nanos ++ '+' :: rest).takeWhile Char.isDigit = [] := by
  rw [fractionText]
  split
  · rfl
  · split
    · rfl
    · split <;> rfl

/-- The clock shows the moment: only the last second of a minute has a leap second behind it. -/
def OnClock (t : Timestamp) : Prop :=
  t.nanos < nanosPerSecond ∨ t.secs % 60 = 59 ∧ t.nanos < 2 * nanosPerSecond

instance (t : Timestamp) : Decidable t.OnClock := inferInstanceAs (Decidable (_ ∨ _))

/-- Timestamps of any year are known by their text. -/
theorem toText_injective {a b : Timestamp} (ha : a.OnClock) (hb : b.OnClock)
    (h : a.toText = b.toText) : a = b := by
  have htext := congrArg String.toList h
  rw [toText, toText, String.toList_ofList, String.toList_ofList, toChars, toChars, civilChars,
    civilChars] at htext
  simp only [List.append_assoc, List.cons_append] at htext
  -- One field after the other.
  obtain ⟨hyear, htext⟩ := yearText_inj htext
  obtain ⟨hmonth, htext⟩ := padded_cons_inj (by decide) htext
  obtain ⟨hday, htext⟩ := padded_cons_inj (by decide) htext
  obtain ⟨hhour, htext⟩ := padded_cons_inj (by decide) htext
  obtain ⟨hminute, htext⟩ := padded_cons_inj (by decide) htext
  obtain ⟨hsecond, htext⟩ := padded_append_inj (takeWhile_fractionText _ _)
    (takeWhile_fractionText _ _) htext
  have hfraction : a.nanos % nanosPerSecond = b.nanos % nanosPerSecond := by
    have hread := fraction_fractionText (Nat.mod_lt a.nanos (show 0 < nanosPerSecond by decide))
      ['0', '0', ':', '0', '0']
    rw [htext, fraction_fractionText (Nat.mod_lt b.nanos (by decide))] at hread
    exact (Prod.mk.inj (Option.some.inj hread)).1.symm
  have hdays : a.days = b.days := calc
    a.days = a.date.toDays := (Date.toDays_ofDays a.days).symm
    _ = (Date.mk b.date.year b.date.month b.date.day).toDays := by rw [← hyear, ← hmonth, ← hday]
    _ = b.days := Date.toDays_ofDays b.days
  have hsa := second_eq a
  have hsb := second_eq b
  rw [shownSecond, shownSecond] at hsecond
  rw [OnClock] at ha hb
  rw [nanosPerSecond] at ha hb hsecond hfraction
  -- A shown second of 60 is a leap second behind the 59th, any other one is the second itself.
  have hsecs : a.secs = b.secs := by omega
  have hnanos : a.nanos = b.nanos := by omega
  obtain ⟨s, n⟩ := a
  obtain ⟨s', n'⟩ := b
  cases hsecs
  cases hnanos
  rfl

end Timestamp

/-! ## Values -/

namespace Value

/-- Whether one text stands for both values though they may differ: they are byte strings of one
    length, or neither is a number. -/
def alike : Value → Value → Bool
  | .bytes x, .bytes y => x.length == y.length
  | .float x, .float y => x.isNaN && y.isNaN
  | _, _ => false

variable {ty : FieldType} {v w : Value}

theorem alike_comm (v w : Value) : v.alike w = w.alike v := by
  cases v <;> cases w
  case bytes.bytes x y => exact BEq.comm
  case float.float x y => exact Bool.and_comm _ _
  all_goals rfl

theorem isNull_of_alike (h : v.alike w = true) : v.isNull = false := by
  cases v <;> first
    | rfl
    | cases h

theorem display_of_alike (h : v.alike w = true) : v.display = w.display := by
  cases v <;> cases w
  case bytes.bytes x y =>
    rw [display, display, eq_of_beq h]
  case float.float x y =>
    obtain ⟨hx, hy⟩ := Bool.and_eq_true_iff.1 h
    rw [display, display, Binary64.write_of_isNaN hx, Binary64.write_of_isNaN hy]
  all_goals cases h

/-- Bytes with one text are of one length. -/
theorem length_of_display {a b : List UInt8} (h : (bytes a).display = (bytes b).display) :
    a.length = b.length := by
  have hlist := congrArg String.toList h
  rw [display, display, String.toList_append, String.toList_append, String.toList_append,
    String.toList_append] at hlist
  have htext := List.append_cancel_left (List.append_cancel_right hlist)
  exact Nat.repr_inj.1 (String.toList_inj.1 htext)

/-- Values of one type with one text are the same, or alike. -/
theorem eq_or_alike_of_display (hv : v.type? = some ty) (hw : w.type? = some ty)
    (hvclock : ∀ t, v = .timestamp t → t.OnClock) (hwclock : ∀ t, w = .timestamp t → t.OnClock)
    (h : v.display = w.display) : v = w ∨ v.alike w = true := by
  rw [← hw] at hv
  cases v <;> cases w
  case null.null => exact .inl rfl
  case bool.bool a b =>
    cases a <;> cases b <;> first
      | exact .inl rfl
      | exact absurd h (by decide)
  case int.int i j => exact .inl (congrArg int (Int64.toInt_inj.1 (Int.repr_inj.1 h)))
  case float.float x y =>
    rcases Binary64.write_inj h with rfl | hnan
    · exact .inl rfl
    · exact .inr (Bool.and_eq_true_iff.2 hnan)
  case text.text => exact .inl (congrArg text h)
  case bytes.bytes x y => exact .inr (beq_iff_eq.2 (length_of_display h))
  case timestamp.timestamp a b =>
    have hab := Timestamp.toText_injective (hvclock a rfl) (hwclock b rfl) h
    exact .inl (congrArg timestamp hab)
  all_goals cases hv

end Value

end ModelMapper
