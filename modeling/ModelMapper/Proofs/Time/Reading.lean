import ModelMapper.Proofs.Time.Order
import ModelMapper.Value.Reading

/-! # Reading timestamp text

The text of a timestamp between the years 0 and 9999 is read as that timestamp.

* `Timestamp.number_digits`, `Timestamp.fraction_fractionText` — one field of the text.
* `Timestamp.internetFields_toChars` — all of them, in the strict form.
* `Timestamp.read_toText` — the whole.
-/

namespace ModelMapper.Timestamp

open Reader

/-! ## Digits -/

theorem length_digits (width n : Nat) : (digits width n).length = width := by
  induction width generalizing n with
  | zero => rfl
  | succ width ih => rw [digits, List.length_append, ih, List.length_singleton]

theorem isDigit_digitChar {n : Nat} (h : n < 10) : (Nat.digitChar n).isDigit = true := by
  have hchar := Nat.toNat_digitChar_of_lt_ten h
  rw [Char.isDigit, Bool.and_eq_true, decide_eq_true_eq, decide_eq_true_eq]
  constructor
  · show (48 : Nat) ≤ (Nat.digitChar n).toNat
    omega
  · show (Nat.digitChar n).toNat ≤ 57
    omega

theorem isDigit_digits (width n : Nat) : ∀ c ∈ digits width n, c.isDigit = true := by
  induction width generalizing n with
  | zero => nofun
  | succ width ih =>
    intro c hc
    rcases List.mem_append.1 hc with hc | hc
    · exact ih (n / 10) c hc
    · rw [List.mem_singleton.1 hc]
      exact isDigit_digitChar (Nat.mod_lt _ (by omega))

theorem digitsValue_digits {width n : Nat} (h : n < 10 ^ width) :
    digitsValue (digits width n) = n := by
  induction width generalizing n with
  | zero =>
    rw [Nat.pow_zero] at h
    obtain rfl : n = 0 := by omega
    rfl
  | succ width ih =>
    have hdiv : n / 10 < 10 ^ width := by
      rw [Nat.pow_succ] at h
      omega
    have hfront := ih hdiv
    rw [digitsValue] at hfront
    rw [digitsValue, digits, List.foldl_append, hfront, List.foldl_cons, List.foldl_nil,
      Nat.toNat_digitChar_of_lt_ten (Nat.mod_lt _ (by omega))]
    omega

theorem takeWhile_digits (width n : Nat) (rest : List Char) :
    (digits width n ++ rest).takeWhile Char.isDigit =
      digits width n ++ rest.takeWhile Char.isDigit :=
  List.takeWhile_append_of_pos (isDigit_digits width n)

/-- A field with all its digits is read in full, whatever follows. -/
theorem number_digits {width n : Nat} (h : n < 10 ^ width) (rest : List Char) :
    number width (some width) (digits width n ++ rest) = some (n, rest) := by
  have hlength := length_digits width n
  rw [number, takeWhile_digits]
  rw [List.take_left' hlength, if_neg (by omega), digitsValue_digits h, List.drop_left]

theorem fraction_digits {width n : Nat} (hpos : 0 < width) (hwidth : width ≤ 9)
    (h : n < 10 ^ width) (rest : List Char) :
    fraction ('.' :: (digits width n ++ '+' :: rest)) =
      some (n * pow10 (9 - width), '+' :: rest) := by
  have hlength := length_digits width n
  have hrun : (digits width n ++ '+' :: rest).takeWhile Char.isDigit = digits width n := by
    rw [takeWhile_digits]
    exact List.append_nil _
  rw [fraction, hrun, List.take_of_length_le (by omega), List.drop_left, digitsValue_digits h,
    hlength]
  cases hdigits : digits width n with
  | nil =>
    rw [hdigits] at hlength
    simp only [List.length_nil] at hlength
    omega
  | cons c cs => rfl

theorem fraction_fractionText {nanos : Nat} (h : nanos < nanosPerSecond) (rest : List Char) :
    fraction (fractionText nanos ++ '+' :: rest) = some (nanos, '+' :: rest) := by
  rw [nanosPerSecond] at h
  rw [fractionText]
  split
  · next hzero =>
    subst hzero
    rfl
  · split
    · next hmillis =>
      rw [padded_eq_digits (by omega) (by omega), List.cons_append,
        fraction_digits (by omega) (by omega) (by omega)]
      show some (nanos / 1000000 * 1000000, _) = _
      rw [Nat.div_mul_cancel (Nat.dvd_of_mod_eq_zero hmillis)]
    · split
      · next hmicros =>
        rw [padded_eq_digits (by omega) (by omega), List.cons_append,
          fraction_digits (by omega) (by omega) (by omega)]
        show some (nanos / 1000 * 1000, _) = _
        rw [Nat.div_mul_cancel (Nat.dvd_of_mod_eq_zero hmicros)]
      · rw [padded_eq_digits (by omega) (by omega), List.cons_append,
          fraction_digits (by omega) (by omega) (by omega)]
        show some (nanos * 1, _) = _
        rw [Nat.mul_one]

/-! ## Fields -/

/-- A reader goes on where the one before it stopped. -/
theorem read_bind {α β : Type} {x : Reader α} {f : α → Reader β} {text rest : List Char} {a : α}
    (h : x text = some (a, rest)) : (x >>= f) text = f a rest := by
  show (x text).bind (fun p => f p.1 p.2) = _
  rw [h]
  rfl

theorem between_digits {low high width n : Nat} (hlow : low ≤ n) (hhigh : n ≤ high)
    (h : n < 10 ^ width) (rest : List Char) :
    between low high (number width (some width)) (digits width n ++ rest) = some (n, rest) := by
  rw [between, read_bind (number_digits h rest), if_pos ⟨hlow, hhigh⟩]
  rfl

theorem char_cons (c : Char) (rest : List Char) : char c (c :: rest) = some ((), rest) := by
  have hnext : next (c :: rest) = some (c, rest) := rfl
  rw [char, read_bind hnext, if_pos rfl]
  rfl

/-- The fields a timestamp is shown with. -/
def fields (t : Timestamp) : Fields where
  date := t.date
  hour := t.secondOfDay / 3600
  minute := t.secondOfDay / 60 % 60
  second := t.shownSecond
  nanos := t.nanos % nanosPerSecond

theorem internetFields_toChars {t : Timestamp} (h : t.Civil) :
    internetFields t.toChars = some ((t.fields, 0), []) := by
  have hcalendar : t.date.OnCalendar := Date.onCalendar_ofDays t.days
  have hday : t.date.day ≤ 31 := le_trans hcalendar.day_le (Date.daysInMonth_le _ _)
  have hmonth := hcalendar.month_le
  have hsecond := (second_eq t).1
  have hyear := h.year_nonneg
  have hyear' := h.year_le
  have hshown : t.shownSecond ≤ 60 := by
    rcases shownSecond_eq h with ⟨-, hshown⟩ | ⟨-, hshown, -, -⟩ <;> omega
  have hnanos : t.nanos % nanosPerSecond < nanosPerSecond := Nat.mod_lt _ (by decide)
  have hclock : ∀ rest, clock (number 2 (some 2)) (digits 2 (t.secondOfDay / 3600) ++
      ':' :: (digits 2 (t.secondOfDay / 60 % 60) ++ ':' :: (digits 2 t.shownSecond ++
      (fractionText (t.nanos % nanosPerSecond) ++ '+' :: rest)))) =
      some ((t.secondOfDay / 3600, t.secondOfDay / 60 % 60, t.shownSecond,
        t.nanos % nanosPerSecond), '+' :: rest) := by
    intro rest
    rw [clock, read_bind (between_digits (by omega) (by omega) (by omega) _),
      read_bind (char_cons _ _), read_bind (between_digits (by omega) (by omega) (by omega) _),
      read_bind (char_cons _ _), read_bind (between_digits (by omega) (by omega) (by omega) _),
      read_bind (fraction_fractionText hnanos rest)]
    rfl
  -- Field by field: each reader stops where the text of its field ends.
  have hseparator : ∀ rest, internetSeparator ('T' :: rest) = some ((), rest) := fun _ => rfl
  have hoffset : internetOffset ['+', '0', '0', ':', '0', '0'] = some (0, []) := by decide
  rw [toChars_eq h, internetFields]
  dsimp only
  rw [read_bind (number_digits (by omega) _), read_bind (char_cons _ _),
    read_bind (between_digits hcalendar.month_pos hmonth (by omega) _), read_bind (char_cons _ _),
    read_bind (between_digits hcalendar.day_pos hday (by omega) _), read_bind (hseparator _),
    read_bind (hclock _), read_bind hoffset, Int.toNat_of_nonneg hyear]
  rfl

theorem moment_eq {f : Fields} {t : Timestamp} (hvalid : f.date.isValid = true)
    (hrange : Date.minYear ≤ t.date.year ∧ t.date.year ≤ Date.maxYear)
    (hsecs : f.date.toDays * 86400 + (f.hour * 3600 + f.minute * 60 +
      (if f.second = 60 then 59 else f.second) : Nat) - 0 = t.secs)
    (hnanos : (if f.second = 60 then nanosPerSecond + f.nanos else f.nanos) = t.nanos) :
    f.moment? 0 = some t := by
  rw [Fields.moment?, hsecs, hnanos]
  simp [hrange, hvalid]

/-- The fields name the moment they were made of. -/
theorem moment_fields {t : Timestamp} (h : t.Civil) : t.fields.moment? 0 = some t := by
  have hcalendar : t.date.OnCalendar := Date.onCalendar_ofDays t.days
  have hdays : t.date.toDays = t.days := Date.toDays_ofDays t.days
  have hsecond := second_eq t
  have hshown := shownSecond_eq h
  have hyear := h.year_nonneg
  have hyear' := h.year_le
  have hrange : Date.minYear ≤ t.date.year ∧ t.date.year ≤ Date.maxYear := by
    rw [Date.minYear, Date.maxYear]
    omega
  have hvalid : t.date.isValid = true := by
    simp only [Date.isValid, Bool.and_eq_true, decide_eq_true_eq]
    exact ⟨⟨⟨⟨hrange, hcalendar.month_pos⟩, hcalendar.month_le⟩, hcalendar.day_pos⟩,
      hcalendar.day_le⟩
  -- A second shown as 60 is the one before it, with the nanoseconds of a leap second.
  refine moment_eq hvalid hrange ?_ ?_
  · show t.date.toDays * 86400 + (t.secondOfDay / 3600 * 3600 + t.secondOfDay / 60 % 60 * 60 +
      (if t.shownSecond = 60 then 59 else t.shownSecond) : Nat) - 0 = t.secs
    rw [hdays]
    split <;> omega
  · show (if t.shownSecond = 60 then nanosPerSecond + t.nanos % nanosPerSecond
      else t.nanos % nanosPerSecond) = t.nanos
    simp only [nanosPerSecond] at hshown ⊢
    split <;> omega

/-- The text of a timestamp is read as the timestamp. -/
theorem read_toText {t : Timestamp} (h : t.Civil) : read t.toText = .ok t := by
  have hinternet : internet? t.toChars = some t := by
    rw [internet?, Reader.whole, internetFields_toChars h]
    exact moment_fields h
  rw [read, ofText?, toText, String.toList_ofList, hinternet]
  rfl

end ModelMapper.Timestamp
