import Mathlib.Algebra.Order.BigOperators.Group.Finset
import TellerOBC.Foundations.Calendar

/-!
# Dates with a time of the day

Moments of the Gregorian calendar with a resolution of a second, all days having 24 hours, and the
number of seconds from the beginning of a year to a moment. Moments and numbers of seconds
correspond to each other.

## Main definitions

* `Calendar.Moment`: a date with a time of the day.
* `Calendar.Moment.secondsSince`, `Calendar.Moment.ofSeconds`: the seconds from the beginning of a
  year to a moment, and the moment after so many seconds.
* `Calendar.Moment.next`: the moment one second later.

## Main results

* `Calendar.Moment.secondsSince_ofSeconds`, `Calendar.Moment.ofSeconds_secondsSince`.
* `Calendar.Moment.secondsSince_next`: the next moment is one second later.
* `Calendar.Date.le_year_iff`, `Calendar.Moment.le_year_ofSeconds_iff`: the beginning of a year
  separates what is before it from what is not.
-/

namespace Calendar

/-! ### Years -/

namespace Date

variable {d : Date} {first : ℕ}

theorem daysSince_newYear_eq (first year : ℕ) :
    (newYear year).daysSince first = ∑ y ∈ Finset.Ico first year, daysInYear y := by
  simp only [daysSince, newYear, firstOfMonth, Finset.Ico_self, Finset.sum_empty, Nat.sub_self,
    Nat.add_zero]

theorem le_year_next (d : Date) : d.year ≤ d.next.year := by
  rcases d.next_cases with ⟨_, heq⟩ | ⟨_, _, heq⟩ | ⟨_, _, heq⟩
  · exact (congrArg Date.year heq).ge
  · exact (congrArg Date.year heq).ge
  · exact (Nat.le_succ _).trans (congrArg Date.year heq).ge

theorem le_year_iterate_next (first n : ℕ) : first ≤ (next^[n] (newYear first)).year := by
  induction n with
  | zero => exact le_rfl
  | succ n ih =>
    rw [Function.iterate_succ_apply']
    exact ih.trans (le_year_next _)

/-- So many days later. -/
theorem daysSince_iterate_next (first n : ℕ) :
    (next^[n] (newYear first)).daysSince first = n := by
  induction n with
  | zero => exact daysSince_newYear first
  | succ n ih =>
    rw [Function.iterate_succ_apply', daysSince_next (le_year_iterate_next first n), ih]

theorem day_le_31 (d : Date) : d.day ≤ 31 := by
  refine d.day_le.trans ?_
  unfold daysInMonth
  split
  · split_ifs <;> decide
  all_goals decide

/-- A date is before the end of its year. -/
theorem dayOfYear_lt (d : Date) :
    ∑ month ∈ Finset.Ico 1 d.month, daysInMonth d.year month + (d.day - 1) < daysInYear d.year := by
  have hsplit := Finset.sum_Ico_consecutive (daysInMonth d.year) d.one_le_month
    (show d.month ≤ 13 from Nat.le_succ_of_le d.month_le)
  have hmonth : daysInMonth d.year d.month ≤
      ∑ month ∈ Finset.Ico d.month 13, daysInMonth d.year month :=
    Finset.single_le_sum (fun _ _ => Nat.zero_le _)
      (Finset.mem_Ico.mpr ⟨le_rfl, Nat.lt_succ_of_le d.month_le⟩)
  have hday := d.day_le
  have hpos := d.one_le_day
  rw [daysInYear, ← hsplit]
  omega

/-- A date is in a year or after it if it is not before the beginning of the year. -/
theorem le_year_iff (h : first ≤ d.year) {year : ℕ} :
    year ≤ d.year ↔ (newYear year).daysSince first ≤ d.daysSince first := by
  have hmono {a b : ℕ} (hab : a ≤ b) :
      (newYear a).daysSince first ≤ (newYear b).daysSince first := by
    rw [daysSince_newYear_eq, daysSince_newYear_eq]
    exact Finset.sum_le_sum_of_subset (Finset.Ico_subset_Ico_right hab)
  have hlow : (newYear d.year).daysSince first ≤ d.daysSince first := by
    rw [daysSince_newYear_eq, daysSince]
    omega
  have hhigh : d.daysSince first < (newYear (d.year + 1)).daysSince first := by
    have hlt := d.dayOfYear_lt
    rw [daysSince_newYear_eq, Finset.sum_Ico_succ_top h, daysSince]
    omega
  constructor
  · intro hle
    exact (hmono hle).trans hlow
  · intro hle
    by_contra hnot
    have hyear := hmono (show d.year + 1 ≤ year from Nat.lt_of_not_le hnot)
    omega

end Date

/-- A year has 365 or 366 days. -/
theorem daysInYear_eq (year : ℕ) : daysInYear year = 365 + if IsLeap year then 1 else 0 := by
  simp only [daysInYear, Finset.sum_Ico_eq_sum_range, Finset.sum_range_succ, Finset.sum_range_zero,
    Nat.reduceSub, Nat.reduceAdd, daysInMonth]
  split_ifs <;> rfl

/-- Every year has at least 365 days. -/
theorem Date.year_sub_le (d : Date) (first : ℕ) : 365 * (d.year - first) ≤ d.daysSince first := by
  have hyears : (Finset.Ico first d.year).card • 365 ≤
      ∑ year ∈ Finset.Ico first d.year, daysInYear year :=
    Finset.card_nsmul_le_sum _ _ _ fun year _ => (daysInYear_eq year).symm ▸ Nat.le_add_right 365 _
  rw [Nat.card_Ico] at hyears
  change (d.year - first) * 365 ≤ _ at hyears
  rw [daysSince]
  omega

/-! ### Moments -/

/-- A date with a time of the day. -/
@[ext]
structure Moment where
  date : Date
  hour : ℕ
  minute : ℕ
  second : ℕ
  hour_lt : hour < 24
  minute_lt : minute < 60
  second_lt : second < 60

namespace Moment

/-- The number of seconds of the day before the moment. -/
def secondOfDay (m : Moment) : ℕ := m.hour * 3600 + m.minute * 60 + m.second

/-- The moment of a day with a number of seconds before it. -/
def atSecond (date : Date) (n : ℕ) (h : n < 86400) : Moment where
  date := date
  hour := n / 3600
  minute := n / 60 % 60
  second := n % 60
  hour_lt := Nat.div_lt_of_lt_mul h
  minute_lt := Nat.mod_lt _ (Nat.succ_pos 59)
  second_lt := Nat.mod_lt _ (Nat.succ_pos 59)

@[simp] theorem atSecond_date (date : Date) (n : ℕ) (h : n < 86400) :
    (atSecond date n h).date = date := rfl

/-- The moment one second later. -/
def next (m : Moment) : Moment :=
  if h : m.secondOfDay + 1 < 86400 then atSecond m.date (m.secondOfDay + 1) h
  else atSecond m.date.next 0 (Nat.succ_pos 86399)

/-- The number of seconds from the beginning of a year to the moment. -/
def secondsSince (first : ℕ) (m : Moment) : ℕ := m.date.daysSince first * 86400 + m.secondOfDay

/-- The moment a number of seconds after the beginning of a year. -/
def ofSeconds (first n : ℕ) : Moment :=
  atSecond (Date.next^[n / 86400] (.newYear first)) (n % 86400) (Nat.mod_lt _ (Nat.succ_pos 86399))

variable {m : Moment} {first : ℕ}

theorem secondOfDay_lt (m : Moment) : m.secondOfDay < 86400 := by
  have hhour := m.hour_lt
  have hminute := m.minute_lt
  have hsecond := m.second_lt
  rw [secondOfDay]
  omega

theorem secondOfDay_atSecond (date : Date) (n : ℕ) (h : n < 86400) :
    (atSecond date n h).secondOfDay = n := by
  simp only [secondOfDay, atSecond]
  omega

theorem atSecond_secondOfDay (m : Moment) :
    atSecond m.date m.secondOfDay m.secondOfDay_lt = m := by
  have hminute := m.minute_lt
  have hsecond := m.second_lt
  ext
  · rfl
  · rfl
  · rfl
  · simp only [atSecond, secondOfDay]
    omega
  · simp only [atSecond, secondOfDay]
    omega
  · simp only [atSecond, secondOfDay]
    omega

/-- The next moment is one second later. -/
theorem secondsSince_next (h : first ≤ m.date.year) :
    m.next.secondsSince first = m.secondsSince first + 1 := by
  rw [next]
  split_ifs with hday
  · rw [secondsSince, secondsSince, secondOfDay_atSecond, atSecond_date, Nat.add_assoc]
  · have hlt := m.secondOfDay_lt
    rw [secondsSince, secondsSince, secondOfDay_atSecond, atSecond_date, Date.daysSince_next h]
    omega

theorem le_year_next (m : Moment) : m.date.year ≤ m.next.date.year := by
  rw [next]
  split_ifs
  · exact le_rfl
  · exact m.date.le_year_next

theorem secondsSince_ofSeconds (first n : ℕ) : (ofSeconds first n).secondsSince first = n := by
  rw [ofSeconds, secondsSince, secondOfDay_atSecond, atSecond_date, Date.daysSince_iterate_next]
  omega

theorem year_ofSeconds (first n : ℕ) : first ≤ (ofSeconds first n).date.year := by
  rw [ofSeconds, atSecond_date]
  exact Date.le_year_iterate_next first _

theorem ofSeconds_secondsSince (h : first ≤ m.date.year) :
    ofSeconds first (m.secondsSince first) = m := by
  have hlt := m.secondOfDay_lt
  have hdays : m.secondsSince first / 86400 = m.date.daysSince first := by
    rw [secondsSince]
    omega
  have hsecond : m.secondsSince first % 86400 = m.secondOfDay := by
    rw [secondsSince]
    omega
  simp only [ofSeconds, hdays, hsecond, Date.iterate_next h, atSecond_secondOfDay]

/-- The beginning of a year separates the moments before it from the others. -/
theorem le_year_ofSeconds_iff {first year n : ℕ} :
    year ≤ (ofSeconds first n).date.year ↔ (Date.newYear year).daysSince first * 86400 ≤ n := by
  rw [Date.le_year_iff (year_ofSeconds first n), ofSeconds, atSecond_date,
    Date.daysSince_iterate_next, Nat.le_div_iff_mul_le (Nat.succ_pos 86399)]

end Moment

end Calendar
