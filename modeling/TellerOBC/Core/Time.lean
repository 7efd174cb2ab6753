import Mathlib.Tactic.IntervalCases
import TellerOBC.Foundations.Calendar

/-!
# The day of the week

`utcTimeToDayOfWeek` of `core/utils/time.c` computes the day of the week with a closed formula, the
method of Sakamoto: a year is taken to begin in March, and a table has the number of days from then
to the beginning of a month, modulo seven.

## Main definitions

* `TellerOBC.BrokenDownTime`: the date of a broken down time.
* `TellerOBC.utcTimeToDayOfWeek`.

## Main results

* `TellerOBC.sakamoto_next`: from one day to the next one the sum of the formula grows by one, up to
  multiples of seven.
* `TellerOBC.utcTimeToDayOfWeek_eq_daysSince`: the result is that of counting the days.
-/

namespace TellerOBC

open Calendar

/-- `broken_down_time_t`, less the time of the day. -/
structure BrokenDownTime where
  year : UInt16
  month : UInt8
  day : UInt8
  deriving DecidableEq, Repr

/-- The table of `utcTimeToDayOfWeek`. -/
def monthTable : List ℤ := [0, 3, 2, 5, 0, 3, 5, 1, 4, 6, 2, 4]

/-- `utcTimeToDayOfWeek`: Sunday is zero. There is no result for a month that is not in the table.
The divisions and the remainder are those of the source, which round towards zero. -/
def utcTimeToDayOfWeek (components : BrokenDownTime) : Option ℤ :=
  let y : ℤ := components.year.toNat
  let m : ℤ := components.month.toNat
  let d : ℤ := components.day.toNat
  let y := y - if m < 3 then 1 else 0
  if m - 1 < 0 then none
  else (monthTable[(m - 1).toNat]?).map fun t =>
    (y + y.tdiv 4 - y.tdiv 100 + y.tdiv 400 + t + d).tmod 7

/-- The date of a broken down time. -/
structure BrokenDownTime.IsDate (components : BrokenDownTime) (d : Date) : Prop where
  year_eq : components.year.toNat = d.year
  month_eq : components.month.toNat = d.month
  day_eq : components.day.toNat = d.day

/-! ### The sum of the formula -/

/-- The table in natural numbers. -/
def monthOffset (month : ℕ) : ℕ := [0, 3, 2, 5, 0, 3, 5, 1, 4, 6, 2, 4].getD (month - 1) 0

/-- The number of days up to a year, with its leap day, modulo seven. -/
def yearOffset (y : ℕ) : ℕ := y + y / 4 - y / 100 + y / 400

/-- The year of the formula, which begins in March. -/
def marchYear (year month : ℕ) : ℕ := if month < 3 then year - 1 else year

/-- The sum of the formula. -/
def sakamoto (d : Date) : ℕ :=
  yearOffset (marchYear d.year d.month) + monthOffset d.month + d.day

theorem sakamoto_firstOfMonth (year month : ℕ) (h : 1 ≤ month ∧ month ≤ 12) :
    sakamoto (.firstOfMonth year month h) =
      yearOffset (marchYear year month) + monthOffset month + 1 := rfl

theorem sakamoto_newYear_1970 : sakamoto (.newYear 1970) % 7 = 4 := rfl

/-- A year has 365 days, which is one modulo seven, or 366. -/
theorem yearOffset_succ (y : ℕ) :
    yearOffset (y + 1) = yearOffset y + 1 + if IsLeap (y + 1) then 1 else 0 := by
  have hle : y / 100 ≤ y / 4 := Nat.div_le_div_left (by decide) (by decide)
  have hcentury : 100 ∣ y + 1 → 4 ∣ y + 1 := Nat.dvd_trans (by decide)
  have hfour : 400 ∣ y + 1 → 100 ∣ y + 1 := Nat.dvd_trans (by decide)
  -- a division steps where the next year is a multiple of the divisor
  simp only [yearOffset, Nat.succ_div]
  by_cases h4 : 4 ∣ y + 1
  · by_cases h100 : 100 ∣ y + 1
    · by_cases h400 : 400 ∣ y + 1
      · rw [if_pos h4, if_pos h100, if_pos h400, if_pos ⟨h4, .inr h400⟩]
        omega
      · rw [if_pos h4, if_pos h100, if_neg h400, if_neg (fun h => h.2.elim (· h100) h400)]
        omega
    · rw [if_pos h4, if_neg h100, if_neg (h100 ∘ hfour), if_pos ⟨h4, .inl h100⟩]
      omega
  · rw [if_neg h4, if_neg (h4 ∘ hcentury), if_neg (h4 ∘ hcentury ∘ hfour), if_neg (h4 ·.1)]
    omega

theorem marchYear_succ {year month : ℕ} (hm : month ≠ 2) :
    marchYear year (month + 1) = marchYear year month := by
  unfold marchYear
  split_ifs <;> omega

/-- The table counts the days of the months, except that the year begins in March. -/
theorem monthOffset_succ (year : ℕ) {m : ℕ} (hpos : 1 ≤ m) (hle : m ≤ 11) (hm : m ≠ 2) :
    monthOffset (m + 1) % 7 = (monthOffset m + daysInMonth year m) % 7 := by
  interval_cases m <;> simp only [monthOffset, daysInMonth, List.getD_cons_zero,
    List.getD_cons_succ, Nat.reduceAdd, Nat.reduceSub, Nat.reduceMod]
  contradiction

theorem daysInMonth_february (year : ℕ) :
    daysInMonth year 2 = 28 + if IsLeap year then 1 else 0 := by
  rw [daysInMonth]
  split_ifs <;> rfl

/-- The year of the formula begins when February ends. -/
theorem sakamoto_march (y : ℕ) (h : 1 ≤ 3 ∧ 3 ≤ 12) :
    sakamoto (.firstOfMonth (y + 1) 3 h) % 7 =
      (yearOffset (marchYear (y + 1) 2) + monthOffset 2 + daysInMonth (y + 1) 2 + 1) % 7 := by
  have hfebruary : marchYear (y + 1) 2 = y := rfl
  have hmarch : marchYear (y + 1) 3 = y + 1 := rfl
  rw [sakamoto_firstOfMonth, hfebruary, hmarch, yearOffset_succ, daysInMonth_february]
  simp only [monthOffset, List.getD_cons_succ, List.getD_cons_zero, Nat.reduceSub]
  omega

/-- **The next day.** The sum of the formula grows by one, up to multiples of seven. -/
theorem sakamoto_next {d : Date} (hyear : 1 ≤ d.year) :
    sakamoto d.next % 7 = (sakamoto d + 1) % 7 := by
  obtain ⟨y, hy⟩ : ∃ y, d.year = y + 1 := Nat.exists_eq_add_one.mpr hyear
  rcases d.next_cases with ⟨_, heq⟩ | ⟨hlast, hmonth, heq⟩ | ⟨hlast, hmonth, heq⟩
  · rw [heq, sakamoto, sakamoto]
    rfl
  · rw [heq, sakamoto.eq_def d, hlast]
    by_cases hm : d.month = 2
    · simp only [hm, hy]
      exact sakamoto_march y _
    · have hoffset := monthOffset_succ d.year d.one_le_month (Nat.le_of_succ_le_succ hmonth) hm
      rw [sakamoto_firstOfMonth, marchYear_succ hm]
      omega
  · have hdecember : marchYear (y + 1) 12 = y + 1 := rfl
    have hjanuary : marchYear (y + 1 + 1) 1 = y + 1 := rfl
    rw [heq, Date.newYear, sakamoto_firstOfMonth, sakamoto.eq_def d, hlast, hmonth, hy, hdecember,
      hjanuary]
    simp only [monthOffset, daysInMonth, List.getD_cons_zero, List.getD_cons_succ, Nat.reduceSub]
    omega

/-- The sum counts the days. -/
theorem sakamoto_eq_daysSince {d : Date} (hyear : 1970 ≤ d.year) :
    sakamoto d % 7 = (d.daysSince 1970 + 4) % 7 := by
  refine Date.next_induction (P := fun d => sakamoto d % 7 = (d.daysSince 1970 + 4) % 7) ?_ ?_ hyear
  · rw [Date.daysSince_newYear]
    exact sakamoto_newYear_1970
  · intro d hd ih
    rw [Date.daysSince_next hd, sakamoto_next (Nat.le_trans (by decide) hd)]
    omega

/-! ### The function -/

theorem monthTable_eq {m : ℕ} (hpos : 1 ≤ m) (hle : m ≤ 12) :
    monthTable[((m : ℤ) - 1).toNat]? = some (monthOffset m : ℤ) := by
  interval_cases m <;> rfl

/-- On a date, the function computes the sum of the formula modulo seven. -/
theorem utcTimeToDayOfWeek_eq_sakamoto {components : BrokenDownTime} {d : Date}
    (h : components.IsDate d) (hyear : 1 ≤ d.year) :
    utcTimeToDayOfWeek components = some ((sakamoto d % 7 : ℕ) : ℤ) := by
  have hmonth : ¬((d.month : ℤ) - 1 < 0) := by
    have hpos := d.one_le_month
    omega
  simp only [utcTimeToDayOfWeek, h.year_eq, h.month_eq, h.day_eq, if_neg hmonth,
    monthTable_eq d.one_le_month d.month_le, Option.map_some]
  obtain ⟨y, hy⟩ : ∃ y : ℕ, y = marchYear d.year d.month := ⟨_, rfl⟩
  have hshift : (d.year : ℤ) - (if (d.month : ℤ) < 3 then 1 else 0) = y := by
    rw [hy, marchYear]
    split_ifs <;> omega
  have hsum : (y : ℤ) + (y : ℤ).tdiv 4 - (y : ℤ).tdiv 100 + (y : ℤ).tdiv 400 +
      (monthOffset d.month : ℤ) + (d.day : ℤ) = (sakamoto d : ℕ) := by
    simp only [sakamoto, yearOffset, ← hy, Int.tdiv_eq_ediv_of_nonneg (Int.natCast_nonneg y)]
    omega
  rw [hshift, hsum, Int.tmod_eq_emod_of_nonneg (Int.natCast_nonneg _)]
  rfl

/-- **The day of the week** of every date from 1970 on is the number of days since the first of
January 1970, which was a Thursday, modulo seven. -/
theorem utcTimeToDayOfWeek_eq_daysSince {components : BrokenDownTime} {d : Date}
    (h : components.IsDate d) (hyear : 1970 ≤ d.year) :
    ∃ day : ℕ, utcTimeToDayOfWeek components = some (day : ℤ) ∧ day ≤ 6 ∧
      day = (d.daysSince 1970 + 4) % 7 := by
  refine ⟨_, utcTimeToDayOfWeek_eq_sakamoto h (Nat.le_trans (by decide) hyear), ?_,
    sakamoto_eq_daysSince hyear⟩
  exact Nat.le_of_lt_succ (Nat.mod_lt _ (by decide))

/-- What the theorem says of the 26th of October 2024. -/
theorem utcTimeToDayOfWeek_eq_daysSince_2024 :
    ∃ day : ℕ, utcTimeToDayOfWeek ⟨2024, 10, 26⟩ = some (day : ℤ) ∧ day ≤ 6 ∧ day =
      (Date.daysSince 1970 ⟨2024, 10, 26, by decide, by decide, by decide, by decide⟩ + 4) % 7 :=
  utcTimeToDayOfWeek_eq_daysSince ⟨rfl, rfl, rfl⟩ (show 1970 ≤ 2024 by decide)

end TellerOBC
