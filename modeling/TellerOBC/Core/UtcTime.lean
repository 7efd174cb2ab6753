import TellerOBC.Core.Time
import TellerOBC.Foundations.Moments

/-!
# Times in milliseconds

`utcTimeToMsec` and `utcMsecToTime` of `core/utils/time.c` convert between broken down times and the
number of milliseconds since the beginning of 1970. They use the functions `timegm` and `gmtime_r`
of the C library, which here are exact: `gmtime_r` counts the days of the Gregorian calendar, and
`timegm` is the formula of POSIX for the seconds since the epoch, with a month that is out of range
carried over to the year. A `time_t` has 64 bits and an `int` has 32 bits.

The year of a broken down time has 16 bits. So there are timestamps whose broken down time has
another year.

## Main definitions

* `TellerOBC.BrokenDownTimestamp`, `TellerOBC.Tm`: broken down times with the time of the day.
* `TellerOBC.timegm`, `TellerOBC.gmtimeR`.
* `TellerOBC.utcTimeToMsec`, `TellerOBC.utcMsecToTime`.

## Main results

* `TellerOBC.timegm_ofMoment`: the formula counts the seconds.
* `TellerOBC.exists_utcMsecToTime`: the fields of the broken down time of a timestamp.
* `TellerOBC.utcTimeToMsec_utcMsecToTime`: the round trip.
-/

namespace TellerOBC

open Calendar

/-- `broken_down_time_t`. -/
structure BrokenDownTimestamp extends BrokenDownTime where
  hour : UInt8
  minute : UInt8
  second : UInt8
  millisecond : UInt16
  deriving DecidableEq, Repr

/-- `struct tm`, less the fields that are not used. -/
structure Tm where
  tmYear : ℤ
  tmMon : ℤ
  tmMday : ℤ
  tmHour : ℤ
  tmMin : ℤ
  tmSec : ℤ
  deriving DecidableEq, Repr

/-! ### The C library -/

/-- The number of days from the beginning of 1970 to that of a year. -/
def daysBeforeYear (year : ℤ) : ℤ :=
  365 * (year - 1970) + (year - 1969) / 4 - (year - 1901) / 100 + (year - 1601) / 400

/-- The number of days of a year before a month, where January is zero. -/
def daysBeforeMonth (year : ℤ) (month : ℕ) : ℤ :=
  [0, 31, 59, 90, 120, 151, 181, 212, 243, 273, 304, 334].getD month 0 +
    if 2 ≤ month ∧ 4 ∣ year ∧ (¬100 ∣ year ∨ 400 ∣ year) then 1 else 0

/-- `timegm`. -/
def timegm (tm : Tm) : ℤ :=
  let year := tm.tmYear + 1900 + tm.tmMon / 12
  let days := daysBeforeYear year + daysBeforeMonth year (tm.tmMon % 12).toNat + (tm.tmMday - 1)
  days * 86400 + tm.tmHour * 3600 + tm.tmMin * 60 + tm.tmSec

/-- The broken down time of a moment. -/
def Tm.ofMoment (m : Moment) : Tm where
  tmYear := (m.date.year : ℤ) - 1900
  tmMon := (m.date.month : ℤ) - 1
  tmMday := m.date.day
  tmHour := m.hour
  tmMin := m.minute
  tmSec := m.second

/-- `gmtime_r`, for times that are not negative. There is no result if the year does not fit into an
`int`. -/
def gmtimeR (time : ℕ) : Option Tm :=
  let m := Moment.ofSeconds 1970 time
  if m.date.year - 1900 ≤ 0x7FFFFFFF then some (Tm.ofMoment m) else none

/-! ### The conversions -/

/-- `utcTimeToMsec`. -/
def utcTimeToMsec (components : BrokenDownTimestamp) : Option UInt64 :=
  if components.year < 1970 then none
  else
    let time := timegm {
      tmYear := (components.year.toNat : ℤ) - 1900
      tmMon := (components.month.toNat : ℤ) - 1
      tmMday := components.day.toNat
      tmHour := components.hour.toNat
      tmMin := components.minute.toNat
      tmSec := components.second.toNat }
    if time < 0 then none else some (UInt64.ofInt (time * 1000 + components.millisecond.toNat))

/-- `utcMsecToTime`. -/
def utcMsecToTime (timestamp : UInt64) : Option BrokenDownTimestamp :=
  (gmtimeR (timestamp / 1000).toNat).map fun tm => {
    year := UInt16.ofInt (tm.tmYear + 1900)
    month := UInt8.ofInt (tm.tmMon + 1)
    day := UInt8.ofInt tm.tmMday
    hour := UInt8.ofInt tm.tmHour
    minute := UInt8.ofInt tm.tmMin
    second := UInt8.ofInt tm.tmSec
    millisecond := (timestamp % 1000).toUInt16 }

/-- The moment of a broken down time. -/
structure BrokenDownTimestamp.IsMoment (components : BrokenDownTimestamp) (m : Moment) : Prop where
  isDate : components.IsDate m.date
  hour_eq : components.hour.toNat = m.hour
  minute_eq : components.minute.toNat = m.minute
  second_eq : components.second.toNat = m.second

/-! ### The formula counts the seconds -/

theorem daysBeforeYear_succ (y : ℕ) :
    daysBeforeYear ((y + 1 : ℕ) : ℤ) = 364 * (y + 1) + yearOffset y + 1 - 719527 := by
  have hle : y / 100 ≤ y / 4 := Nat.div_le_div_left (by decide) (by decide)
  have h4 : (((y + 1 : ℕ) : ℤ) - 1969) / 4 = (y / 4 : ℕ) - 492 := by omega
  have h100 : (((y + 1 : ℕ) : ℤ) - 1901) / 100 = (y / 100 : ℕ) - 19 := by omega
  have h400 : (((y + 1 : ℕ) : ℤ) - 1601) / 400 = (y / 400 : ℕ) - 4 := by omega
  rw [daysBeforeYear, yearOffset, h4, h100, h400]
  omega

theorem daysBeforeYear_eq {year : ℕ} (h : 1970 ≤ year) :
    daysBeforeYear year = (Date.newYear year).daysSince 1970 := by
  rw [Date.daysSince_newYear_eq]
  induction year, h using Nat.le_induction with
  | base => rfl
  | succ year h ih =>
    obtain ⟨y, rfl⟩ : ∃ y, year = y + 1 :=
      Nat.exists_eq_add_one.mpr (Nat.lt_of_lt_of_le (by decide) h)
    rw [daysBeforeYear_succ] at ih ⊢
    rw [Finset.sum_Ico_succ_top h, yearOffset_succ, daysInYear_eq]
    omega

theorem daysSince_newYear_2000 : (Date.newYear 2000).daysSince 1970 = 10957 :=
  Int.ofNat.inj (@daysBeforeYear_eq 2000 (by decide)).symm

theorem daysSince_newYear_2100 : (Date.newYear 2100).daysSince 1970 = 47482 :=
  Int.ofNat.inj (@daysBeforeYear_eq 2100 (by decide)).symm

theorem daysBeforeMonth_succ (year : ℕ) {month : ℕ} (hpos : 1 ≤ month) (hlt : month < 12) :
    daysBeforeMonth year month = daysBeforeMonth year (month - 1) + daysInMonth year month := by
  have hleap : ((4 : ℤ) ∣ year ∧ (¬(100 : ℤ) ∣ year ∨ (400 : ℤ) ∣ year)) ↔ IsLeap year := by
    rw [IsLeap]
    omega
  simp only [daysBeforeMonth, hleap]
  by_cases h : IsLeap year <;> interval_cases month <;> simp [h, daysInMonth]

theorem daysBeforeMonth_eq (year : ℕ) {month : ℕ} (hpos : 1 ≤ month) (hle : month ≤ 12) :
    daysBeforeMonth year (month - 1) = ∑ m ∈ Finset.Ico 1 month, daysInMonth year m := by
  induction month, hpos using Nat.le_induction with
  | base => rfl
  | succ month hpos ih =>
    rw [Finset.sum_Ico_succ_top hpos, Nat.cast_add, ← ih (Nat.le_of_succ_le hle)]
    exact daysBeforeMonth_succ year hpos hle

/-- The seconds of a moment, by the formula. -/
theorem timegm_ofMoment {m : Moment} (h : 1970 ≤ m.date.year) :
    timegm (Tm.ofMoment m) = m.secondsSince 1970 := by
  have hpos := m.date.one_le_month
  have hle := m.date.month_le
  have hday := m.date.one_le_day
  have hyear : (m.date.year : ℤ) - 1900 + 1900 + ((m.date.month : ℤ) - 1) / 12 = m.date.year := by
    omega
  have hmonth : (((m.date.month : ℤ) - 1) % 12).toNat = m.date.month - 1 := by omega
  have hdays : m.date.daysSince 1970 = (Date.newYear m.date.year).daysSince 1970 +
      ∑ month ∈ Finset.Ico 1 m.date.month, daysInMonth m.date.year month + (m.date.day - 1) := by
    rw [Date.daysSince_newYear_eq, Date.daysSince]
  simp only [timegm, Tm.ofMoment, hyear, hmonth, daysBeforeYear_eq h, daysBeforeMonth_eq _ hpos hle]
  rw [Moment.secondsSince, hdays, Moment.secondOfDay]
  omega

theorem ofInt_natCast (n : ℕ) : UInt64.ofInt n = UInt64.ofNat n := by
  rw [UInt64.ofInt, ← UInt64.toNat_inj, UInt64.toNat_ofNat', UInt64.toNat_ofNat']
  omega

theorem utcTimeToMsec_eq {components : BrokenDownTimestamp} {m : Moment}
    (h : components.IsMoment m) (hyear : 1970 ≤ m.date.year) :
    utcTimeToMsec components =
      some (UInt64.ofNat (m.secondsSince 1970 * 1000 + components.millisecond.toNat)) := by
  have hlow : ¬ components.year < 1970 := by
    rw [UInt16.lt_iff_toNat_lt, h.isDate.year_eq]
    exact Nat.not_lt.mpr hyear
  have htime := timegm_ofMoment hyear
  rw [Tm.ofMoment] at htime
  rw [utcTimeToMsec, if_neg hlow]
  simp only [h.isDate.year_eq, h.isDate.month_eq, h.isDate.day_eq, h.hour_eq, h.minute_eq,
    h.second_eq, htime]
  rw [if_neg (Int.not_lt.mpr (Int.natCast_nonneg _))]
  exact congrArg some (ofInt_natCast _)

/-! ### The broken down time of a timestamp -/

/-- The moment of a timestamp. -/
def momentOf (timestamp : UInt64) : Moment := Moment.ofSeconds 1970 (timestamp.toNat / 1000)

theorem secondsSince_momentOf (timestamp : UInt64) :
    (momentOf timestamp).secondsSince 1970 = timestamp.toNat / 1000 :=
  Moment.secondsSince_ofSeconds ..

theorem gmtimeR_eq (timestamp : UInt64) :
    gmtimeR (timestamp / 1000).toNat = some (Tm.ofMoment (momentOf timestamp)) := by
  have hlt := timestamp.toNat_lt
  have hdays := Date.year_sub_le (momentOf timestamp).date 1970
  have hseconds := secondsSince_momentOf timestamp
  rw [Moment.secondsSince] at hseconds
  rw [gmtimeR, UInt64.toNat_div]
  refine if_pos ?_
  change (momentOf timestamp).date.year - 1900 ≤ _
  omega

-- unfolding it would compare numbers with the largest `int`
attribute [irreducible] gmtimeR

theorem toNat_ofInt_of_lt {n : ℕ} (h : n < 256) : (UInt8.ofInt n).toNat = n := by
  rw [UInt8.ofInt, UInt8.toNat_ofNat']
  omega

/-- The broken down time of a timestamp has the fields of its moment, the year cut to 16 bits. -/
theorem exists_utcMsecToTime (timestamp : UInt64) :
    ∃ components, utcMsecToTime timestamp = some components ∧
      components.year.toNat = (momentOf timestamp).date.year % 65536 ∧
      components.millisecond.toNat = timestamp.toNat % 1000 ∧
      ((momentOf timestamp).date.year < 65536 → components.IsMoment (momentOf timestamp)) := by
  obtain ⟨m, hm⟩ : ∃ m, m = momentOf timestamp := ⟨_, rfl⟩
  refine ⟨_, by rw [utcMsecToTime, gmtimeR_eq, Option.map_some], ?_⟩
  rw [← hm]
  have hyear : (UInt16.ofInt ((Tm.ofMoment m).tmYear + 1900)).toNat = m.date.year % 65536 := by
    have hadd : (Tm.ofMoment m).tmYear + 1900 = m.date.year := Int.sub_add_cancel ..
    rw [hadd, UInt16.ofInt, UInt16.toNat_ofNat']
    omega
  have hmonth : (UInt8.ofInt ((Tm.ofMoment m).tmMon + 1)).toNat = m.date.month := by
    have hle := m.date.month_le
    rw [Tm.ofMoment, Int.sub_add_cancel, toNat_ofInt_of_lt (by omega)]
  have hday : (UInt8.ofInt (Tm.ofMoment m).tmMday).toNat = m.date.day :=
    toNat_ofInt_of_lt (by have := m.date.day_le_31; omega)
  refine ⟨hyear, ?_, fun hlt => ?_⟩
  · rw [UInt64.toNat_toUInt16, UInt64.toNat_mod]
    change timestamp.toNat % 1000 % 65536 = _
    omega
  · refine ⟨⟨?_, hmonth, hday⟩, ?_, ?_, ?_⟩
    · rw [hyear, Nat.mod_eq_of_lt hlt]
    · exact toNat_ofInt_of_lt (m.hour_lt.trans (by decide))
    · exact toNat_ofInt_of_lt (m.minute_lt.trans (by decide))
    · exact toNat_ofInt_of_lt (m.second_lt.trans (by decide))

/-- **Round trip.** A timestamp comes back if its year fits into 16 bits. -/
theorem utcTimeToMsec_utcMsecToTime (timestamp : UInt64)
    (h : (momentOf timestamp).date.year < 65536) :
    (utcMsecToTime timestamp).bind utcTimeToMsec = some timestamp := by
  obtain ⟨components, htime, -, hmillisecond, hmoment⟩ := exists_utcMsecToTime timestamp
  rw [htime, Option.bind_some, utcTimeToMsec_eq (hmoment h) (Moment.year_ofSeconds ..),
    secondsSince_momentOf, hmillisecond, Nat.div_add_mod']
  exact congrArg some UInt64.ofNat_toNat

end TellerOBC
