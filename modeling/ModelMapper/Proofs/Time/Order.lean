import ModelMapper.Proofs.Time.Calendar
import ModelMapper.Time.Timestamp

/-! # The order of timestamp text

Between the years 0 and 9999 timestamps have the order of their text.

* `Timestamp.digits` — the last digits of a number, as many as asked for.
* `Timestamp.groupText` — digits in groups of three, without the groups of zeros at the end.
* `Timestamp.Civil` — the timestamps of these years.
* `Timestamp.toText_lt` — an earlier timestamp has a lesser text.
* `Timestamp.compare_toText`, `Timestamp.toText_inj` — text compares as timestamps do.
-/

namespace ModelMapper.Timestamp

/-! ## Digits -/

/-- The last decimal digits of a number. -/
def digits : Nat → Nat → List Char
  | 0, _ => []
  | width + 1, n => digits width (n / 10) ++ [Nat.digitChar (n % 10)]

theorem digits_zero (width : Nat) : digits width 0 = List.replicate width '0' := by
  induction width with
  | zero => rfl
  | succ width ih =>
    rw [digits, ih, List.replicate_succ']
    rfl

theorem padded_eq_digits {width n : Nat} (hwidth : 0 < width) (h : n < 10 ^ width) :
    padded width n = digits width n := by
  induction width generalizing n with
  | zero => omega
  | succ width ih =>
    rcases Nat.lt_or_ge n 10 with hn | hn
    · rw [padded, digits, Nat.toDigits_of_lt_base hn, Nat.div_eq_of_lt hn, Nat.mod_eq_of_lt hn,
        digits_zero]
      rfl
    · have hwidth : 0 < width := by
        rcases Nat.eq_zero_or_pos width with rfl | hpos
        · omega
        · exact hpos
      have hdiv : n / 10 < 10 ^ width := by
        rw [Nat.pow_succ] at h
        omega
      rw [digits, ← ih hwidth hdiv, padded, padded, Nat.toDigits_of_base_le (by omega) hn,
        List.length_append, List.length_singleton, Nat.add_sub_add_right, List.append_assoc]

theorem digitChar_lt {a b : Nat} (h : a < b) (hb : b < 10) : Nat.digitChar a < Nat.digitChar b := by
  show (Nat.digitChar a).toNat < (Nat.digitChar b).toNat
  rw [Nat.toNat_digitChar_of_lt_ten (by omega), Nat.toNat_digitChar_of_lt_ten hb]
  omega

/-- Numbers of one width compare as their digits do. -/
theorem digits_append_lt {width n k : Nat} (h : n < k) (hk : k < 10 ^ width) (x y : List Char) :
    digits width n ++ x < digits width k ++ y := by
  induction width generalizing n k x y with
  | zero => omega
  | succ width ih =>
    rw [digits, digits, List.append_assoc, List.append_assoc]
    rw [Nat.pow_succ] at hk
    rcases Nat.lt_or_ge (n / 10) (k / 10) with hdiv | hdiv
    · exact ih hdiv (by omega) _ _
    · have heq : n / 10 = k / 10 := by omega
      rw [heq]
      exact List.append_left_lt (List.cons_lt_cons_iff.2
        (.inl (digitChar_lt (by omega) (Nat.mod_lt k (by omega)))))

/-- A sign comes before every digit. -/
theorem plus_lt_digits (width n : Nat) (x y : List Char) :
    '+' :: x < digits (width + 1) n ++ y := by
  induction width generalizing n y with
  | zero =>
    refine List.cons_lt_cons_iff.2 (.inl ?_)
    show '+'.toNat < (Nat.digitChar (n % 10)).toNat
    rw [Nat.toNat_digitChar_of_lt_ten (Nat.mod_lt n (by omega))]
    have hplus : '+'.toNat = 43 := rfl
    omega
  | succ width ih =>
    rw [digits, List.append_assoc]
    exact ih (n / 10) _

/-! ## Fractions -/

/-- Groups of three digits, up to the last one that is not zero. -/
def groupText : List Nat → List Char
  | [] => []
  | g :: rest => if (∀ k ∈ g :: rest, k = 0) then [] else digits 3 g ++ groupText rest

theorem not_lt_zeros {a b : List Nat} (hlength : a.length = b.length) (hb : ∀ k ∈ b, k = 0) :
    ¬a < b := by
  induction b generalizing a with
  | nil => exact List.not_lt_nil a
  | cons k b ih =>
    cases a with
    | nil => cases hlength
    | cons j a =>
      rw [List.cons_lt_cons_iff, hb k List.mem_cons_self]
      rintro (h | ⟨-, h⟩)
      · omega
      · exact ih (Nat.succ.inj hlength) (fun x hx => hb x (List.mem_cons_of_mem _ hx)) h

/-- Fractions compare as their texts do, since the sign that follows is less than a digit. -/
theorem groupText_lt {a b : List Nat} (h : a < b) (hlength : a.length = b.length)
    (hb : ∀ k ∈ b, k < 1000) (x y : List Char) :
    groupText a ++ '+' :: x < groupText b ++ '+' :: y := by
  induction a generalizing b with
  | nil =>
    cases b with
    | nil => exact absurd h (List.lt_irrefl _)
    | cons k b => cases hlength
  | cons j a ih =>
    cases b with
    | nil => cases hlength
    | cons k b =>
      -- The greater fraction has a digit left, where the lesser one may have ended.
      have hzeros : ¬∀ i ∈ k :: b, i = 0 := fun hzero => not_lt_zeros hlength hzero h
      rw [groupText, groupText, if_neg hzeros]
      split
      · rw [List.append_assoc]
        exact plus_lt_digits 2 k _ _
      · rw [List.append_assoc, List.append_assoc]
        rcases List.cons_lt_cons_iff.1 h with hjk | ⟨rfl, hrest⟩
        · exact digits_append_lt hjk (hb k List.mem_cons_self) _ _
        · exact List.append_left_lt (ih hrest (Nat.succ.inj hlength) fun i hi =>
            hb i (List.mem_cons_of_mem _ hi))

/-- The milliseconds, microseconds and nanoseconds of a fraction. -/
def groups (nanos : Nat) : List Nat := [nanos / 1000000, nanos / 1000 % 1000, nanos % 1000]

theorem digits_add (width more n : Nat) :
    digits (width + more) n = digits width (n / 10 ^ more) ++ digits more n := by
  induction more generalizing n with
  | zero => simp [digits]
  | succ more ih =>
    rw [← Nat.add_assoc, digits, digits, ih, List.append_assoc, Nat.pow_succ',
      Nat.div_div_eq_div_mul]

theorem digits_mod (width n : Nat) : digits width (n % 10 ^ width) = digits width n := by
  induction width generalizing n with
  | zero => rfl
  | succ width ih =>
    have hdiv : n % 10 ^ (width + 1) / 10 = n / 10 % 10 ^ width := by
      rw [Nat.pow_succ', Nat.mod_mul_right_div_self]
    have hmod : n % 10 ^ (width + 1) % 10 = n % 10 := by
      rw [Nat.pow_succ', Nat.mod_mul_right_mod]
    rw [digits, digits, hdiv, hmod, ih]

theorem fractionText_eq {nanos : Nat} (h : nanos < nanosPerSecond) :
    fractionText nanos = if nanos = 0 then [] else '.' :: groupText (groups nanos) := by
  rw [nanosPerSecond] at h
  rw [fractionText]
  split
  · rfl
  · next hne =>
    have hsix : digits 6 (nanos / 1000) =
        digits 3 (nanos / 1000000) ++ digits 3 (nanos / 1000 % 1000) := by
      rw [show 6 = 3 + 3 from rfl, digits_add, Nat.div_div_eq_div_mul,
        ← digits_mod 3 (nanos / 1000)]
      rfl
    have hnine : digits 9 nanos =
        digits 3 (nanos / 1000000) ++ digits 3 (nanos / 1000 % 1000) ++
          digits 3 (nanos % 1000) := by
      rw [← hsix, show 9 = 6 + 3 from rfl, digits_add, ← digits_mod 3 nanos]
      rfl
    rw [groups, groupText, groupText, groupText, groupText]
    simp only [List.forall_mem_cons, List.not_mem_nil, false_implies, implies_true, and_true]
    split
    · next hmillis =>
      have hmiddle : nanos / 1000 % 1000 = 0 := by omega
      have hlast : nanos % 1000 = 0 := by omega
      have hfirst : nanos / 1000000 ≠ 0 := by omega
      rw [padded_eq_digits (by omega) (by omega)]
      simp [hfirst, hmiddle, hlast]
    · split
      · next hlast =>
        have hmiddle : nanos / 1000 % 1000 ≠ 0 := by omega
        rw [padded_eq_digits (by omega) (by omega), hsix]
        simp [hmiddle, hlast]
      · next hlast =>
        rw [padded_eq_digits (by omega) (by omega), hnine]
        simp [hlast]

/-- Fractions have the order of their texts. -/
theorem fractionText_lt {a b : Nat} (h : a < b) (hb : b < nanosPerSecond) (x y : List Char) :
    fractionText a ++ '+' :: x < fractionText b ++ '+' :: y := by
  rw [fractionText_eq hb, fractionText_eq (by omega), if_neg (show b ≠ 0 by omega)]
  rw [nanosPerSecond] at hb
  split
  · exact List.cons_lt_cons_iff.2 (.inl (by decide))
  · have hgroups : groups a < groups b := by
      simp only [groups, List.cons_lt_cons_iff, List.lt_irrefl, and_false, or_false]
      omega
    refine List.cons_lt_cons_iff.2 (.inr ⟨rfl, groupText_lt hgroups rfl ?_ x y⟩)
    simp only [groups, List.forall_mem_cons, List.not_mem_nil, false_implies, implies_true,
      and_true]
    omega

/-! ## Timestamps -/

/-- A timestamp of the years from 0 to 9999. Only the last second of a minute has a leap second
    behind it: more nanoseconds than a second has are shown at any other one as the second after
    it, which is another timestamp of the same text. -/
structure Civil (t : Timestamp) : Prop where
  nanos_lt : t.nanos < nanosPerSecond ∨ t.secs % 60 = 59 ∧ t.nanos < 2 * nanosPerSecond
  year_nonneg : 0 ≤ t.date.year
  year_le : t.date.year ≤ 9999

instance (t : Timestamp) : Decidable t.Civil :=
  decidable_of_iff
    ((t.nanos < nanosPerSecond ∨ t.secs % 60 = 59 ∧ t.nanos < 2 * nanosPerSecond) ∧
      0 ≤ t.date.year ∧ t.date.year ≤ 9999)
    ⟨fun h => ⟨h.1, h.2.1, h.2.2⟩, fun h => ⟨h.nanos_lt, h.year_nonneg, h.year_le⟩⟩

/-- The order in time. -/
def Earlier (a b : Timestamp) : Prop := a.secs < b.secs ∨ a.secs = b.secs ∧ a.nanos < b.nanos

theorem second_eq (t : Timestamp) : t.secondOfDay < 86400 ∧
    t.secs = t.days * 86400 + t.secondOfDay := by
  rw [secondOfDay, days]
  omega

/-- A leap second is shown as the second 60. -/
theorem shownSecond_eq {t : Timestamp} (h : t.Civil) :
    t.nanos < nanosPerSecond ∧ t.shownSecond = t.secondOfDay % 60 ∨
      t.secondOfDay % 60 = 59 ∧ t.shownSecond = 60 ∧ nanosPerSecond ≤ t.nanos ∧
        t.nanos < 2 * nanosPerSecond := by
  have hsecond := second_eq t
  have hnanos := h.nanos_lt
  rw [shownSecond]
  simp only [nanosPerSecond] at hnanos ⊢
  omega

/-- The text of the date and the time, every field with all its digits. -/
theorem toChars_eq {t : Timestamp} (h : t.Civil) :
    t.toChars = digits 4 t.date.year.toNat ++ '-' :: (digits 2 t.date.month ++
      '-' :: (digits 2 t.date.day ++ 'T' :: (digits 2 (t.secondOfDay / 3600) ++
      ':' :: (digits 2 (t.secondOfDay / 60 % 60) ++ ':' :: (digits 2 t.shownSecond ++
      (fractionText (t.nanos % nanosPerSecond) ++ '+' :: ['0', '0', ':', '0', '0'])))))) := by
  have hcalendar : t.date.OnCalendar := Date.onCalendar_ofDays t.days
  have hmonth := hcalendar.month_le
  have hday : t.date.day ≤ 31 := le_trans hcalendar.day_le (Date.daysInMonth_le _ _)
  have hsecond := (second_eq t).1
  have hyear := h.year_nonneg
  have hyear' := h.year_le
  have hshown : t.shownSecond ≤ 60 := by
    rcases shownSecond_eq h with ⟨-, hshown⟩ | ⟨-, hshown, -, -⟩ <;> omega
  rw [toChars, civilChars, yearText, if_pos ⟨hyear, hyear'⟩]
  rw [padded_eq_digits (by omega) (by omega), padded_eq_digits (by omega) (by omega),
    padded_eq_digits (by omega) (by omega), padded_eq_digits (by omega) (by omega),
    padded_eq_digits (by omega) (by omega), padded_eq_digits (by omega) (by omega)]
  simp only [List.append_assoc, List.cons_append]

/-- A field decides, or it is the same and what follows decides. -/
theorem field_lt {width n k : Nat} {sep : Char} {x y : List Char} (hk : k < 10 ^ width)
    (h : n < k ∨ n = k ∧ x < y) : digits width n ++ sep :: x < digits width k ++ sep :: y := by
  rcases h with h | ⟨rfl, h⟩
  · exact digits_append_lt h hk _ _
  · exact List.append_left_lt (List.cons_lt_cons_iff.2 (.inr ⟨rfl, h⟩))

/-- An earlier timestamp has a lesser text. -/
theorem toText_lt {a b : Timestamp} (ha : a.Civil) (hb : b.Civil) (h : a.Earlier b) :
    a.toText < b.toText := by
  rw [String.lt_iff, toText, toText, String.toList_ofList, String.toList_ofList, toChars_eq ha,
    toChars_eq hb]
  have hcalendar : b.date.OnCalendar := Date.onCalendar_ofDays b.days
  have hmonth := hcalendar.month_le
  have hday : b.date.day ≤ 31 := le_trans hcalendar.day_le (Date.daysInMonth_le _ _)
  have hyear := ha.year_nonneg
  have hyear' := hb.year_le
  have hsa := second_eq a
  have hsb := second_eq b
  have hshown := shownSecond_eq ha
  have hshown' := shownSecond_eq hb
  have hdays : a.days ≤ b.days := by
    rcases h with h | ⟨h, -⟩ <;> rw [days, days] <;> omega
  rcases lt_or_eq_of_le hdays with hlt | heq
  · -- The dates decide.
    have hdate : a.date.Before b.date := Date.before_ofDays hlt
    rcases hdate with hy | ⟨hy, hm | ⟨hm, hd⟩⟩
    · exact field_lt (by omega) (.inl (by omega))
    · exact field_lt (by omega) (.inr ⟨by omega, field_lt (by omega) (.inl hm)⟩)
    · exact field_lt (by omega) (.inr ⟨by omega, field_lt (by omega) (.inr ⟨hm,
        field_lt (by omega) (.inl hd)⟩)⟩)
  · -- The times of the day decide.
    have hdate : a.date = b.date := congrArg Date.ofDays heq
    rw [hdate]
    refine List.append_left_lt (List.cons_lt_cons_iff.2 (.inr ⟨rfl, List.append_left_lt
      (List.cons_lt_cons_iff.2 (.inr ⟨rfl, List.append_left_lt
        (List.cons_lt_cons_iff.2 (.inr ⟨rfl, ?_⟩))⟩))⟩))
    have hsecond : a.secondOfDay < b.secondOfDay ∨
        a.secondOfDay = b.secondOfDay ∧ a.nanos < b.nanos := by
      rcases h with h | h <;> omega
    refine field_lt (by omega) ?_
    -- One field of the clock after the other, down to the fraction.
    rcases lt_trichotomy (a.secondOfDay / 3600) (b.secondOfDay / 3600) with hh | hh | hh
    · exact .inl hh
    · refine .inr ⟨hh, field_lt (by omega) ?_⟩
      rcases lt_trichotomy (a.secondOfDay / 60 % 60) (b.secondOfDay / 60 % 60) with hm | hm | hm
      · exact .inl hm
      · refine .inr ⟨hm, ?_⟩
        rcases lt_trichotomy a.shownSecond b.shownSecond with hs | hs | hs
        · exact digits_append_lt hs (by omega) _ _
        · rw [hs]
          refine List.append_left_lt (fractionText_lt ?_ ?_ _ _)
          · simp only [nanosPerSecond] at hshown hshown' ⊢
            omega
          · exact Nat.mod_lt _ (by decide)
        · omega
      · omega
    · omega

theorem earlier_trichotomy (a b : Timestamp) : a.Earlier b ∨ a = b ∨ b.Earlier a := by
  obtain ⟨s, n⟩ := a
  obtain ⟨s', n'⟩ := b
  simp only [Earlier, Timestamp.mk.injEq]
  omega

theorem compare_eq_lt {a b : Timestamp} (h : a.Earlier b) :
    a.compare b = .lt ∧ b.compare a = .gt := by
  rcases h with h | ⟨hsecs, h⟩
  · rw [compare, compare, Int.compare_eq_lt.2 h, Int.compare_eq_gt.2 h]
    exact ⟨rfl, rfl⟩
  · rw [compare, compare, hsecs, Int.compare_eq_eq.2 rfl, Nat.compare_eq_lt.2 h,
      Nat.compare_eq_gt.2 h]
    exact ⟨rfl, rfl⟩

theorem compare_text_eq_lt {a b : String} (h : a < b) :
    Ord.compare a b = .lt ∧ Ord.compare b a = .gt :=
  ⟨compareOfLessAndEq_eq_lt.2 h,
    (compareOfLessAndEq_eq_gt String.le_antisymm String.le_total String.not_le b a).2 h⟩

/-- Text compares as the timestamps do. -/
theorem compare_toText {a b : Timestamp} (ha : a.Civil) (hb : b.Civil) :
    Ord.compare a.toText b.toText = a.compare b := by
  rcases earlier_trichotomy a b with h | rfl | h
  · rw [(compare_eq_lt h).1, (compare_text_eq_lt (toText_lt ha hb h)).1]
  · rw [Std.LawfulEqOrd.compare_eq_iff_eq.2 rfl, compare, Int.compare_eq_eq.2 rfl,
      Nat.compare_eq_eq.2 rfl]
    rfl
  · rw [(compare_eq_lt h).2, (compare_text_eq_lt (toText_lt hb ha h)).2]

/-- Different timestamps have different texts. -/
theorem toText_inj {a b : Timestamp} (ha : a.Civil) (hb : b.Civil) :
    a.toText = b.toText ↔ a = b := by
  refine ⟨fun h => ?_, congrArg toText⟩
  rcases earlier_trichotomy a b with hlt | heq | hlt
  · exact absurd (h ▸ toText_lt ha hb hlt) (String.lt_irrefl _)
  · exact heq
  · exact absurd (h ▸ toText_lt hb ha hlt) (String.lt_irrefl _)

end ModelMapper.Timestamp
