import Mathlib.Algebra.BigOperators.Intervals

/-!
# The Gregorian calendar

Dates of the Gregorian calendar, the day after a date, and the number of days from the beginning of
a year to a date.

## Main definitions

* `Calendar.Date`: a year, a month and a day that the month has.
* `Calendar.Date.next`: the day after a date.
* `Calendar.Date.daysSince`: the number of days from the beginning of a year to a date.

## Main results

* `Calendar.Date.daysSince_next`: the next day is one day later.
* `Calendar.Date.next_induction`: induction from the beginning of a year on, day by day.
* `Calendar.Date.iterate_next`: counting the days from the beginning of a year leads to the date.
-/

namespace Calendar

/-- A year with a 29th of February. -/
def IsLeap (year : ℕ) : Prop := 4 ∣ year ∧ (¬100 ∣ year ∨ 400 ∣ year)

instance : DecidablePred IsLeap := fun _ => inferInstanceAs (Decidable (_ ∧ _))

/-- The number of days of a month. -/
def daysInMonth (year : ℕ) : ℕ → ℕ
  | 2 => if IsLeap year then 29 else 28
  | 4 | 6 | 9 | 11 => 30
  | _ => 31

/-- The number of days of a year. -/
def daysInYear (year : ℕ) : ℕ := ∑ month ∈ Finset.Ico 1 13, daysInMonth year month

theorem daysInMonth_pos (year month : ℕ) : 0 < daysInMonth year month := by
  unfold daysInMonth
  split
  · split_ifs <;> decide
  all_goals decide

/-- A date of the Gregorian calendar. -/
@[ext]
structure Date where
  year : ℕ
  month : ℕ
  day : ℕ
  one_le_month : 1 ≤ month
  month_le : month ≤ 12
  one_le_day : 1 ≤ day
  day_le : day ≤ daysInMonth year month

namespace Date

/-- The first day of a month. -/
def firstOfMonth (year month : ℕ) (h : 1 ≤ month ∧ month ≤ 12) : Date :=
  ⟨year, month, 1, h.1, h.2, le_rfl, daysInMonth_pos year month⟩

/-- The first day of a year. -/
def newYear (year : ℕ) : Date := firstOfMonth year 1 (by decide)

/-- The day after a date. -/
def next (d : Date) : Date :=
  if hday : d.day < daysInMonth d.year d.month then
    { d with
      day := d.day + 1
      one_le_day := Nat.le_add_left 1 _
      day_le := hday }
  else if hmonth : d.month < 12 then
    firstOfMonth d.year (d.month + 1) ⟨Nat.le_add_left 1 _, hmonth⟩
  else newYear (d.year + 1)

/-- The number of days from the beginning of a year to the date. -/
def daysSince (first : ℕ) (d : Date) : ℕ :=
  ∑ year ∈ Finset.Ico first d.year, daysInYear year +
    ∑ month ∈ Finset.Ico 1 d.month, daysInMonth d.year month + (d.day - 1)

/-! ### The day after a date -/

variable {d : Date} {first : ℕ}

/-- The day after a date is in the same month, or the first one of the next month, or of the next
year. -/
theorem next_cases (d : Date) :
    (∃ h, d.next =
      ⟨d.year, d.month, d.day + 1, d.one_le_month, d.month_le, Nat.le_add_left 1 _, h⟩) ∨
    (d.day = daysInMonth d.year d.month ∧
      ∃ h : d.month + 1 ≤ 12,
        d.next = firstOfMonth d.year (d.month + 1) ⟨Nat.le_add_left 1 _, h⟩) ∨
    (d.day = daysInMonth d.year d.month ∧ d.month = 12 ∧ d.next = newYear (d.year + 1)) := by
  by_cases hday : d.day < daysInMonth d.year d.month
  · exact .inl ⟨hday, dif_pos hday⟩
  have hlast : d.day = daysInMonth d.year d.month := le_antisymm d.day_le (Nat.le_of_not_lt hday)
  by_cases hmonth : d.month < 12
  · exact .inr (.inl ⟨hlast, hmonth, (dif_neg hday).trans (dif_pos hmonth)⟩)
  · exact .inr (.inr ⟨hlast, le_antisymm d.month_le (Nat.le_of_not_lt hmonth),
      (dif_neg hday).trans (dif_neg hmonth)⟩)

@[simp] theorem daysSince_newYear (first : ℕ) : (newYear first).daysSince first = 0 := by
  simp [daysSince, newYear, firstOfMonth]

/-- The next day is one day later. -/
theorem daysSince_next (h : first ≤ d.year) : d.next.daysSince first = d.daysSince first + 1 := by
  have hpos := d.one_le_day
  rcases d.next_cases with ⟨_, heq⟩ | ⟨hlast, _, heq⟩ | ⟨hlast, hmonth, heq⟩
  · simp only [heq, daysSince]
    omega
  · simp only [heq, daysSince, firstOfMonth]
    rw [Finset.sum_Ico_succ_top d.one_le_month, ← hlast]
    omega
  · simp only [heq, daysSince, newYear, firstOfMonth]
    rw [Finset.sum_Ico_succ_top h, daysInYear, Finset.sum_Ico_succ_top (by decide), hmonth,
      Finset.Ico_self, Finset.sum_empty, hlast, hmonth]
    have hpos := daysInMonth_pos d.year 12
    omega

/-- Every date but the first one of a year is the day after another one. -/
theorem exists_next (h : first ≤ d.year) (hne : d ≠ newYear first) :
    ∃ e : Date, first ≤ e.year ∧ e.next = d := by
  obtain ⟨year, month, day, hmonth, hmonth', hday, hday'⟩ := d
  by_cases hfirst : day = 1
  · subst hfirst
    by_cases hjanuary : month = 1
    · subst hjanuary
      -- the day before is the 31st of December
      obtain ⟨year, rfl⟩ : ∃ y, year = y + 1 := by
        refine Nat.exists_eq_add_one.mpr (Nat.pos_of_ne_zero ?_)
        rintro rfl
        obtain rfl : first = 0 := Nat.le_zero.mp h
        exact hne rfl
      have hlt : first < year + 1 := lt_of_le_of_ne h fun heq => hne (heq ▸ rfl)
      refine ⟨⟨year, 12, 31, by decide, by decide, by decide, le_rfl⟩, Nat.le_of_lt_succ hlt, ?_⟩
      exact (dif_neg (Nat.lt_irrefl _)).trans (dif_neg (Nat.lt_irrefl 12))
    · -- it is the last one of the month before
      obtain ⟨month, rfl⟩ : ∃ m, month = m + 1 := Nat.exists_eq_add_one.mpr hmonth
      have hpos : 1 ≤ month := by omega
      refine ⟨⟨year, month, daysInMonth year month, hpos, by omega, daysInMonth_pos _ _, le_rfl⟩, h,
        ?_⟩
      exact (dif_neg (Nat.lt_irrefl _)).trans (dif_pos hmonth')
  · obtain ⟨day, rfl⟩ : ∃ n, day = n + 1 := Nat.exists_eq_add_one.mpr hday
    exact ⟨⟨year, month, day, hmonth, hmonth', by omega, Nat.le_of_lt hday'⟩, h, dif_pos hday'⟩

/-- Induction from the beginning of a year on, day by day. -/
theorem next_induction {P : Date → Prop} (hzero : P (newYear first))
    (hnext : ∀ d : Date, first ≤ d.year → P d → P d.next) (h : first ≤ d.year) : P d := by
  induction hn : d.daysSince first generalizing d with
  | zero =>
    by_cases hne : d = newYear first
    · exact hne ▸ hzero
    · obtain ⟨e, he, rfl⟩ := exists_next h hne
      exact absurd ((daysSince_next he).symm.trans hn) (Nat.succ_ne_zero _)
  | succ n ih =>
    by_cases hne : d = newYear first
    · exact hne ▸ hzero
    · obtain ⟨e, he, rfl⟩ := exists_next h hne
      exact hnext e he (ih he (Nat.succ_injective ((daysSince_next he).symm.trans hn)))

/-- Counting the days from the beginning of a year leads to the date. -/
theorem iterate_next (h : first ≤ d.year) : next^[d.daysSince first] (newYear first) = d := by
  refine next_induction (P := fun d => next^[d.daysSince first] (newYear first) = d) ?_ ?_ h
  · rw [daysSince_newYear, Function.iterate_zero_apply]
  · intro d hd ih
    rw [daysSince_next hd, Function.iterate_succ_apply', ih]

end Date

end Calendar
