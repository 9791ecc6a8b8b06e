import Mathlib.Tactic
import ModelMapper.Time.Calendar

/-! # Days and dates

Counting days and naming them are inverse to each other, and both keep the order.

* `Date.daysBeforeYear`, `Date.daysBeforeMonth` — the days before a year and before a month,
  where years begin in March.
* `Date.toDays_ofDays`, `Date.onCalendar_ofDays` — each day has a date, which counts back to it.
* `Date.before_ofDays` — a later day has a later date.
-/

namespace ModelMapper.Date

/-- The date is one of the calendar, in whatever year. -/
structure OnCalendar (d : Date) : Prop where
  month_pos : 1 ≤ d.month
  month_le : d.month ≤ 12
  day_pos : 1 ≤ d.day
  day_le : d.day ≤ daysInMonth d.year d.month

theorem daysInMonth_le (year : Int) (month : Nat) : daysInMonth year month ≤ 31 := by
  unfold daysInMonth
  split
  · split <;> decide
  · decide
  · decide
  · decide
  · decide
  · decide

/-- The order of dates, by year, month and day. -/
def Before (a b : Date) : Prop :=
  a.year < b.year ∨ a.year = b.year ∧ (a.month < b.month ∨ a.month = b.month ∧ a.day < b.day)

/-! ## Years that begin in March -/

/-- Days from the year zero to a year. -/
def daysBeforeYear (year : Int) : Int := 365 * year + year / 4 - year / 100 + year / 400

/-- Days of a year before a month, counted from March as zero. -/
def daysBeforeMonth (month : Int) : Int := (153 * month + 2) / 5

theorem isLeapYear_iff {year : Int} :
    isLeapYear year = true ↔ year % 4 = 0 ∧ (year % 100 ≠ 0 ∨ year % 400 = 0) := by
  simp [isLeapYear]

/-- The leap day of a year is the last day of the year before, which begins in March. -/
theorem daysBeforeYear_succ (year : Int) :
    daysBeforeYear (year + 1) =
      daysBeforeYear year + if isLeapYear (year + 1) then 366 else 365 := by
  simp only [daysBeforeYear]
  split
  · next h =>
    rw [isLeapYear_iff] at h
    omega
  · next h =>
    rw [isLeapYear_iff] at h
    omega

theorem daysBeforeYear_lt {a b : Int} (h : a < b) :
    daysBeforeYear (a + 1) ≤ daysBeforeYear b := by
  have ha : (a + 1) / 100 = (a + 1) / 4 / 25 := by omega
  have hb : b / 100 = b / 4 / 25 := by omega
  simp only [daysBeforeYear]
  omega

theorem toDays_eq (d : Date) :
    d.toDays = daysBeforeYear (if d.month ≤ 2 then d.year - 1 else d.year) +
      daysBeforeMonth (if d.month ≤ 2 then d.month + 9 else d.month - 3) + d.day - 1 -
        epochOffset := by
  simp only [toDays, daysBeforeYear, daysBeforeMonth]
  generalize (if d.month ≤ 2 then d.year - 1 else d.year) = year
  have hyear : year / 400 * 400 + year % 400 = year := by omega
  omega

/-! ## From days to dates -/

/-- The year of a day within an era of 400 years. -/
theorem year_of_day {day year : Int} (hday : 0 ≤ day ∧ day < 146097)
    (hyear : year = (day - day / 1460 + day / 36524 - day / 146096) / 365) :
    0 ≤ year ∧ year ≤ 399 ∧ daysBeforeYear year ≤ day ∧ day < daysBeforeYear (year + 1) := by
  -- The last day of an era is the one whose century the quotient misses.
  have hcentury : year / 100 = day / 36524 ∨ day = 146096 := by
    have hcases : day / 36524 = 0 ∨ day / 36524 = 1 ∨ day / 36524 = 2 ∨ day / 36524 = 3 ∨
      day / 36524 = 4 := by omega
    omega
  have hfour : year = 4 * (day / 1460) - 1 ∨ year = 4 * (day / 1460) ∨
      year = 4 * (day / 1460) + 1 ∨ year = 4 * (day / 1460) + 2 ∨
      year = 4 * (day / 1460) + 3 := by
    omega
  rw [daysBeforeYear_succ]
  rcases hcentury with hc | rfl
  · have hlast : day / 146096 = 0 ∨ day = 146096 := by omega
    have hrange : 0 ≤ year ∧ year ≤ 399 := by omega
    have hlow : daysBeforeYear year ≤ day := by
      simp only [daysBeforeYear]
      omega
    refine ⟨hrange.1, hrange.2, hlow, ?_⟩
    split
    · simp only [daysBeforeYear]
      omega
    · next hleap =>
      rw [isLeapYear_iff] at hleap
      simp only [daysBeforeYear]
      omega
  · subst hyear
    decide

theorem daysBeforeYear_era {year : Int} (era : Int) (h : 0 ≤ year) (h' : year ≤ 399) :
    daysBeforeYear (year + era * 400) = era * 146097 + (365 * year + year / 4 - year / 100) := by
  simp only [daysBeforeYear]
  omega

/-- The parts of a day: a year and a month that begin in March, and a day of the month. -/
theorem ofDays_parts (days : Int) : ∃ year month day : Int,
    0 ≤ month ∧ month ≤ 11 ∧ 1 ≤ day ∧
    days = daysBeforeYear year + daysBeforeMonth month + day - 1 - epochOffset ∧
    day ≤ daysBeforeMonth (month + 1) - daysBeforeMonth month ∧
    days + epochOffset < daysBeforeYear (year + 1) ∧
    ofDays days = ⟨if month ≤ 9 then year else year + 1,
      (if month ≤ 9 then month + 3 else month - 9).toNat, day.toNat⟩ := by
  obtain ⟨era, hera⟩ : ∃ era, era = (days + epochOffset) / 146097 := ⟨_, rfl⟩
  obtain ⟨dayOfEra, hdayOfEra⟩ : ∃ day, day = (days + epochOffset) % 146097 := ⟨_, rfl⟩
  obtain ⟨year, hyear⟩ : ∃ year, year =
    (dayOfEra - dayOfEra / 1460 + dayOfEra / 36524 - dayOfEra / 146096) / 365 := ⟨_, rfl⟩
  obtain ⟨dayOfYear, hdayOfYear⟩ : ∃ day,
    day = dayOfEra - (365 * year + year / 4 - year / 100) := ⟨_, rfl⟩
  obtain ⟨month, hmonth⟩ : ∃ month, month = (5 * dayOfYear + 2) / 153 := ⟨_, rfl⟩
  have hrange := year_of_day (by omega : 0 ≤ dayOfEra ∧ dayOfEra < 146097) hyear
  have hbefore := daysBeforeYear_era era hrange.1 hrange.2.1
  have hzero : daysBeforeYear year = 365 * year + year / 4 - year / 100 := by
    have h := daysBeforeYear_era 0 hrange.1 hrange.2.1
    simpa using h
  have hnext := daysBeforeYear_succ year
  have hnextEra := daysBeforeYear_succ (year + era * 400)
  -- Eras are alike in their leap years.
  have hleap : isLeapYear (year + era * 400 + 1) = isLeapYear (year + 1) := by
    rw [Bool.eq_iff_iff, isLeapYear_iff, isLeapYear_iff]
    omega
  rw [hleap] at hnextEra
  have hlength : (if isLeapYear (year + 1) = true then (366 : Int) else 365) ≤ 366 := by
    split <;> omega
  have hdays : days + epochOffset = era * 146097 + dayOfEra := by omega
  have hday : 0 ≤ dayOfYear ∧ dayOfYear ≤ 365 := by omega
  have hmonths : 0 ≤ month ∧ month ≤ 11 ∧ daysBeforeMonth month ≤ dayOfYear ∧
      dayOfYear < daysBeforeMonth (month + 1) := by
    simp only [daysBeforeMonth]
    omega
  refine ⟨year + era * 400, month, dayOfYear - daysBeforeMonth month + 1, hmonths.1, hmonths.2.1,
    by omega, by omega, by omega, by omega, ?_⟩
  simp only [ofDays, ← hera, ← hdayOfEra, ← hyear, ← hdayOfYear, ← hmonth, daysBeforeMonth]
  have hten : (month < 10) ↔ month ≤ 9 := by omega
  simp only [hten]
  split
  · rw [if_neg (by omega)]
  · rw [if_pos (by omega)]

/-- Counting the days to the date of a day gives the day. -/
theorem toDays_ofDays (days : Int) : (ofDays days).toDays = days := by
  obtain ⟨year, month, day, hm, hm', hd, hdays, -, -, hdate⟩ := ofDays_parts days
  rw [hdate, toDays_eq, hdays]
  by_cases h : month ≤ 9
  · simp only [h, if_true]
    rw [if_neg (by omega), if_neg (by omega), Int.toNat_of_nonneg (by omega),
      Int.toNat_of_nonneg (by omega), Int.add_sub_cancel]
  · simp only [h, if_false]
    rw [if_pos (by omega), if_pos (by omega), Int.toNat_of_nonneg (by omega),
      Int.toNat_of_nonneg (by omega), Int.sub_add_cancel, Int.add_sub_cancel]

theorem onCalendar_ofDays (days : Int) : (ofDays days).OnCalendar := by
  obtain ⟨year, month, day, hm, hm', hd, hdays, hlength, hnext, hdate⟩ := ofDays_parts days
  rw [hdate]
  refine ⟨?_, ?_, ?_, ?_⟩
  · dsimp only
    split <;> omega
  · dsimp only
    split <;> omega
  · dsimp only
    omega
  · have hcases : month = 0 ∨ month = 1 ∨ month = 2 ∨ month = 3 ∨ month = 4 ∨ month = 5 ∨
        month = 6 ∨ month = 7 ∨ month = 8 ∨ month = 9 ∨ month = 10 ∨ month = 11 := by omega
    -- The length of February comes from the year that follows.
    have hyear := daysBeforeYear_succ year
    simp only [daysBeforeMonth] at hlength hdays
    rcases hcases with rfl | rfl | rfl | rfl | rfl | rfl | rfl | rfl | rfl | rfl | rfl | rfl <;>
      simp [daysInMonth] at hlength hdays ⊢ <;> try omega
    split at hyear
    · next h =>
      simp only [h, if_true]
      omega
    · next h =>
      simp only [h]
      simp
      omega

/-! ## The order of dates -/

/-- The place of a date among the years and months that begin in March. -/
theorem OnCalendar.parts {d : Date} (h : d.OnCalendar) : ∃ year month : Int,
    0 ≤ month ∧ month ≤ 11 ∧ 12 * year + month = 12 * d.year + d.month - 3 ∧
    d.toDays + epochOffset = daysBeforeYear year + daysBeforeMonth month + d.day - 1 ∧
    (month ≤ 10 → d.day ≤ daysBeforeMonth (month + 1) - daysBeforeMonth month) ∧
    d.toDays + epochOffset < daysBeforeYear (year + 1) := by
  obtain ⟨y, m, day⟩ := d
  obtain ⟨hm, hm', hd, hd'⟩ := h
  dsimp only at hm hm' hd hd'
  have hcases : m = 1 ∨ m = 2 ∨ m = 3 ∨ m = 4 ∨ m = 5 ∨ m = 6 ∨ m = 7 ∨ m = 8 ∨ m = 9 ∨
      m = 10 ∨ m = 11 ∨ m = 12 := by omega
  refine ⟨if m ≤ 2 then y - 1 else y, if m ≤ 2 then m + 9 else m - 3, ?_⟩
  rw [toDays_eq, daysBeforeYear_succ]
  simp only [daysBeforeMonth]
  rcases hcases with rfl | rfl | rfl | rfl | rfl | rfl | rfl | rfl | rfl | rfl | rfl | rfl <;>
    simp [daysInMonth] at hd' ⊢
  case inr.inl =>
    by_cases hleap : isLeapYear y = true
    · rw [if_pos hleap] at hd' ⊢
      omega
    · rw [if_neg hleap] at hd' ⊢
      omega
  all_goals omega

theorem toDays_lt_of_before {a b : Date} (ha : a.OnCalendar) (hb : b.OnCalendar)
    (h : a.Before b) : a.toDays < b.toDays := by
  obtain ⟨year, month, hm, hm', hplace, hdays, hlength, hnext⟩ := ha.parts
  obtain ⟨year', month', hm₂, hm₂', hplace', hdays', -, -⟩ := hb.parts
  have hmonth := ha.month_pos
  have hmonth' := ha.month_le
  have hmonth₂ := hb.month_pos
  have hmonth₂' := hb.month_le
  have hday := hb.day_pos
  have hmonths : 0 ≤ daysBeforeMonth month' := by
    simp only [daysBeforeMonth]
    omega
  rcases lt_trichotomy year year' with hyear | hyear | hyear
  · have hle := daysBeforeYear_lt hyear
    omega
  · subst hyear
    rcases lt_trichotomy month month' with hmonth | hmonth | hmonth
    · have hle := hlength (by omega)
      have hmono : daysBeforeMonth (month + 1) ≤ daysBeforeMonth month' := by
        simp only [daysBeforeMonth]
        omega
      omega
    · subst hmonth
      have hlt : a.day < b.day := by
        rcases h with h | ⟨h, h' | h'⟩ <;> omega
      omega
    · rcases h with h | ⟨h, h' | h'⟩ <;> omega
  · rcases h with h | ⟨h, h' | h'⟩ <;> omega

/-- A later day has a later date. -/
theorem before_ofDays {a b : Int} (h : a < b) : (ofDays a).Before (ofDays b) := by
  -- Dates are in a linear order, and counting back would bring the days into the other one.
  by_contra hbefore
  have hle : ofDays b = ofDays a ∨ (ofDays b).Before (ofDays a) := by
    generalize ofDays a = first at hbefore ⊢
    generalize ofDays b = second at hbefore ⊢
    obtain ⟨year, month, day⟩ := first
    obtain ⟨year', month', day'⟩ := second
    simp only [Before, Date.mk.injEq] at hbefore ⊢
    omega
  rcases hle with heq | hlt
  · have hdays := congrArg toDays heq
    rw [toDays_ofDays, toDays_ofDays] at hdays
    omega
  · have hdays := toDays_lt_of_before (onCalendar_ofDays b) (onCalendar_ofDays a) hlt
    rw [toDays_ofDays, toDays_ofDays] at hdays
    omega

end ModelMapper.Date
