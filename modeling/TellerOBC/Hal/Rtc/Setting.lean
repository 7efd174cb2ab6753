import TellerOBC.Hal.Rtc

/-!
# Setting the real-time clock

`setTimeMsec` is given a timestamp that comes unchecked from a clock sync command. It waits for the
next whole second and sets the clock to one second less. The clock has two digits for the year.
There is one check, that the year of the timestamp is not before 2000; it is made before the second
is subtracted, and for the year cut to 16 bits. No check is made that the year is before 2100.

## Main definitions

* `TellerOBC.Rtc.secondBefore`: the second that the clock is to be set to.
* `TellerOBC.Rtc.SetsExactly`: the clock is set right whenever `setTimeMsec` succeeds.

## Main results

* `TellerOBC.Rtc.setsExactly_iff`: the timestamps for which this is so.
-/

namespace TellerOBC.Rtc

open Calendar Program

/-- The timestamp in seconds, rounded up. -/
def secondsRoundedUp (timestamp : UInt64) : ℕ := (timestamp.toNat + 999) / 1000

/-- The registers are accepted by the clock and denote the timestamp rounded up to a whole second
minus one second. -/
def Registers.IsExact (r : Registers) (timestamp : UInt64) : Prop :=
  r.IsAccepted ∧ ∃ m, r.Denotes m ∧
    (m.secondsSince 1970 : ℤ) = (secondsRoundedUp timestamp : ℤ) - 1

/-- Whenever `setTimeMsec` returns true, the registers are exact. -/
def SetsExactly (timestamp : UInt64) : Prop :=
  ∀ (r : Registers) (events : List (Event Call.Answer)),
    (setTimeMsec timestamp).Runs events true → (r.after events).IsExact timestamp

/-! ### What is written -/

/-- The timestamp that `setTimeMsec` writes. -/
def secondBefore (timestamp : UInt64) : UInt64 :=
  (if timestamp % 1000 > 0 then timestamp + (1000 - timestamp % 1000) else timestamp) - 1000

/-- The registers that a broken down time is written to. -/
def registersOf (bt : BrokenDownTimestamp) : Registers := ⟨dateOf bt, timeOf bt⟩

section

variable {timestamp : UInt64} {events : List (Event Call.Answer)}

/-- Neither the sum nor the difference wraps in the end. -/
theorem toNat_secondBefore (h : 0 < timestamp.toNat) :
    (secondBefore timestamp).toNat = (secondsRoundedUp timestamp - 1) * 1000 := by
  have hlt := timestamp.toNat_lt
  have hmod : (timestamp % 1000).toNat = timestamp.toNat % 1000 := UInt64.toNat_mod ..
  rw [secondBefore, secondsRoundedUp]
  by_cases hpos : timestamp % 1000 > 0
  · rw [if_pos hpos]
    rw [gt_iff_lt, UInt64.lt_iff_toNat_lt, hmod] at hpos
    change 0 < timestamp.toNat % 1000 at hpos
    have hle : timestamp % 1000 ≤ 1000 := by
      rw [UInt64.le_iff_toNat_le, hmod]
      change timestamp.toNat % 1000 ≤ 1000
      omega
    rw [UInt64.toNat_sub, UInt64.toNat_add, UInt64.toNat_sub_of_le _ _ hle, hmod]
    change (2 ^ 64 - 1000 + (timestamp.toNat + (1000 - timestamp.toNat % 1000)) % 2 ^ 64) % 2 ^ 64 =
      _
    omega
  · rw [if_neg hpos]
    rw [gt_iff_lt, UInt64.lt_iff_toNat_lt, hmod] at hpos
    change ¬ 0 < timestamp.toNat % 1000 at hpos
    rw [UInt64.toNat_sub]
    change (2 ^ 64 - 1000 + timestamp.toNat) % 2 ^ 64 = _
    omega

theorem runs_writeTimeMsec (h : (writeTimeMsec timestamp).Runs events true) :
    ∃ bt, utcMsecToTime timestamp = some bt ∧ ∀ r : Registers, r.after events = registersOf bt := by
  obtain ⟨bt, hbt, -⟩ := exists_utcMsecToTime timestamp
  rw [writeTimeMsec, hbt] at h
  obtain ⟨dateIsSet, rest, rfl, h⟩ := h
  cases dateIsSet with
  | false => exact absurd h.2 (by decide)
  | true =>
    obtain ⟨timeIsSet, rest, rfl, rfl, hset⟩ := h
    obtain rfl : true = timeIsSet := hset
    exact ⟨bt, hbt, fun r => rfl⟩

/-- The registers after a run that succeeds. -/
theorem runs_setTimeMsec (h : (setTimeMsec timestamp).Runs events true) :
    2000 ≤ (momentOf timestamp).date.year % 65536 ∧
      ∃ bt, utcMsecToTime (secondBefore timestamp) = some bt ∧
        ∀ r : Registers, r.after events = registersOf bt := by
  obtain ⟨bt, hbt, hyear, -⟩ := exists_utcMsecToTime timestamp
  rw [setTimeMsec, hbt] at h
  dsimp only at h
  split_ifs at h with hlow
  · exact absurd h.2 (by decide)
  refine ⟨?_, ?_⟩
  · rw [← hyear]
    exact Nat.not_lt.mp fun hlt => hlow (UInt16.lt_iff_toNat_lt.mpr hlt)
  · rw [waitForWholeSecond] at h
    dsimp only at h
    rw [secondBefore]
    split_ifs at h ⊢ with hpos
    · obtain ⟨_, rest, rfl, h⟩ := h
      obtain ⟨bt, hbt, hafter⟩ := runs_writeTimeMsec h
      exact ⟨bt, hbt, fun r => hafter r⟩
    · exact runs_writeTimeMsec h

/-- If no call of the HAL fails, `setTimeMsec` succeeds for every timestamp that passes its
check. -/
theorem exists_runs_setTimeMsec (h : 2000 ≤ (momentOf timestamp).date.year % 65536) :
    ∃ events, (setTimeMsec timestamp).Runs events true := by
  have hwrite (t : UInt64) : ∃ events, (writeTimeMsec t).Runs events true := by
    obtain ⟨bt, hbt, -⟩ := exists_utcMsecToTime t
    refine ⟨[⟨.setDate (dateOf bt), true⟩, ⟨.setTime (timeOf bt), true⟩], ?_⟩
    rw [writeTimeMsec, hbt]
    exact ⟨true, _, rfl, true, _, rfl, rfl, rfl⟩
  obtain ⟨bt, hbt, hyear, -⟩ := exists_utcMsecToTime timestamp
  have hnot : ¬ bt.year < 2000 := by
    rw [UInt16.lt_iff_toNat_lt, hyear]
    exact Nat.not_lt.mpr h
  rw [setTimeMsec, hbt]
  dsimp only
  rw [if_neg hnot, waitForWholeSecond]
  dsimp only
  split_ifs with hpos
  · obtain ⟨events, hevents⟩ := hwrite (timestamp + (1000 - timestamp % 1000) - 1000)
    exact ⟨⟨.delayMsec (1000 - timestamp % 1000).toUInt32, ()⟩ :: events, (), events, rfl, hevents⟩
  · exact hwrite (timestamp - 1000)

end

/-! ### When it is exact -/

/-- The day of the week of a date is accepted. -/
theorem weekDay_bounds {bt : BrokenDownTimestamp} {m : Moment} (h : bt.IsMoment m)
    (hyear : 1970 ≤ m.date.year) :
    1 ≤ (dateOf bt).weekDay.toNat ∧ (dateOf bt).weekDay.toNat ≤ 7 := by
  have hday : ∀ n < 7, 1 ≤ (weekDay (n : ℕ)).toNat ∧ (weekDay (n : ℕ)).toNat ≤ 7 := by decide
  rw [dateOf, utcTimeToDayOfWeek_eq_sakamoto h.isDate (Nat.le_trans (by decide) hyear)]
  exact hday _ (Nat.mod_lt _ (by decide))

/-- A moment of the years that the clock has is written as it is. -/
theorem denotes_registersOf {bt : BrokenDownTimestamp} {m : Moment} (h : bt.IsMoment m)
    (hlow : 2000 ≤ m.date.year) (hhigh : m.date.year ≤ 2099) :
    (registersOf bt).IsAccepted ∧ (registersOf bt).Denotes m := by
  have hyear : (registersOf bt).date.year.toNat = m.date.year - 2000 := by
    obtain ⟨y, hy⟩ : ∃ y, m.date.year = y + 2000 := Nat.exists_eq_add_of_le' hlow
    have hsub : (bt.year.toNat : ℤ) - 2000 = (y : ℕ) := by
      rw [h.isDate.year_eq, hy]
      omega
    rw [registersOf, dateOf, hsub, toNat_ofInt_of_lt (by omega)]
    omega
  have hmonth := h.isDate.month_eq
  have hday := h.isDate.day_eq
  have hweekDay := weekDay_bounds h (Nat.le_trans (by decide) hlow)
  refine ⟨⟨?_, ?_, ?_, hweekDay, ?_, ?_, ?_⟩, ?_, hmonth, hday, h.hour_eq, h.minute_eq, h.second_eq⟩
  · omega
  · have hpos := m.date.one_le_month
    have hle := m.date.month_le
    change 1 ≤ bt.month.toNat ∧ bt.month.toNat ≤ 12
    omega
  · have hpos := m.date.one_le_day
    have hle := m.date.day_le_31
    change 1 ≤ bt.day.toNat ∧ bt.day.toNat ≤ 31
    omega
  · exact h.hour_eq.trans_le (Nat.le_of_lt_succ m.hour_lt)
  · exact h.minute_eq.trans_le (Nat.le_of_lt_succ m.minute_lt)
  · exact h.second_eq.trans_le (Nat.le_of_lt_succ m.second_lt)
  · omega

theorem secondsSince_secondBefore {timestamp : UInt64} (h : 0 < timestamp.toNat) :
    (momentOf (secondBefore timestamp)).secondsSince 1970 = secondsRoundedUp timestamp - 1 := by
  rw [secondsSince_momentOf, toNat_secondBefore h, Nat.mul_div_cancel _ (by decide)]

/-- If the clock denotes the right second, then this second is in the years of the clock. -/
theorem year_secondBefore {timestamp : UInt64} (h : 0 < timestamp.toNat) {r : Registers}
    (hexact : r.IsExact timestamp) :
    2000 ≤ (momentOf (secondBefore timestamp)).date.year ∧
      (momentOf (secondBefore timestamp)).date.year ≤ 2099 := by
  obtain ⟨hin, m, hdenotes, hm⟩ := hexact
  have hyear := hdenotes.year_eq
  have hle := hin.year_le
  have hrounded : 1 ≤ secondsRoundedUp timestamp := by
    rw [secondsRoundedUp]
    omega
  have hmoment : momentOf (secondBefore timestamp) = m := by
    have hsame : m.secondsSince 1970 = (momentOf (secondBefore timestamp)).secondsSince 1970 := by
      rw [secondsSince_secondBefore h]
      omega
    have hback := Moment.ofSeconds_secondsSince (show 1970 ≤ m.date.year by omega)
    rwa [hsame, secondsSince_momentOf] at hback
  rw [hmoment]
  omega

/-- The second that the clock is set to is in the years that the clock has. -/
theorem year_secondBefore_iff {timestamp : UInt64} (h : 0 < timestamp.toNat) :
    (2000 ≤ (momentOf (secondBefore timestamp)).date.year ∧
      (momentOf (secondBefore timestamp)).date.year ≤ 2099) ↔
    946684800000 < timestamp.toNat ∧ timestamp.toNat ≤ 4102444800000 := by
  have hseconds : (secondBefore timestamp).toNat / 1000 = secondsRoundedUp timestamp - 1 := by
    rw [toNat_secondBefore h, Nat.mul_div_cancel _ (by decide)]
  have hlow : 2000 ≤ (momentOf (secondBefore timestamp)).date.year ↔
      10957 * 86400 ≤ secondsRoundedUp timestamp - 1 := by
    rw [momentOf, Moment.le_year_ofSeconds_iff, daysSince_newYear_2000, hseconds]
  have hhigh : 2100 ≤ (momentOf (secondBefore timestamp)).date.year ↔
      47482 * 86400 ≤ secondsRoundedUp timestamp - 1 := by
    rw [momentOf, Moment.le_year_ofSeconds_iff, daysSince_newYear_2100, hseconds]
  rw [secondsRoundedUp] at hlow hhigh
  omega

/-- **When the clock is set exactly.** `setTimeMsec` fails if the year of the timestamp, cut to 16
bits, is before 2000. Otherwise it sets the clock exactly if and only if the timestamp is after the
beginning of 2000 and not after the beginning of 2100. -/
theorem setsExactly_iff (timestamp : UInt64) :
    SetsExactly timestamp ↔ (momentOf timestamp).date.year % 65536 < 2000 ∨
      946684800000 < timestamp.toNat ∧ timestamp.toNat ≤ 4102444800000 := by
  by_cases hrefused : (momentOf timestamp).date.year % 65536 < 2000
  · refine iff_of_true (fun r events hruns => ?_) (.inl hrefused)
    exact absurd (runs_setTimeMsec hruns).1 (Nat.not_le.mpr hrefused)
  have haccepted := Nat.not_lt.mp hrefused
  have hpos : 0 < timestamp.toNat := by
    refine Nat.pos_of_ne_zero fun hzero => hrefused ?_
    rw [momentOf, hzero]
    decide
  rw [← year_secondBefore_iff hpos, or_iff_right hrefused]
  constructor
  · intro hexact
    obtain ⟨events, hruns⟩ := exists_runs_setTimeMsec haccepted
    exact year_secondBefore hpos (hexact ⟨⟨0, 1, 1, 6⟩, ⟨0, 0, 0⟩⟩ events hruns)
  · rintro ⟨hlow, hhigh⟩ r events hruns
    obtain ⟨bt, hbt, hafter⟩ := (runs_setTimeMsec hruns).2
    obtain ⟨bt', hbt', -, -, hmoment⟩ := exists_utcMsecToTime (secondBefore timestamp)
    obtain rfl : bt = bt' := Option.some.inj (hbt.symm.trans hbt')
    obtain ⟨hin, hdenotes⟩ := denotes_registersOf
      (hmoment (Nat.lt_of_le_of_lt hhigh (by decide))) hlow hhigh
    rw [hafter r]
    refine ⟨hin, _, hdenotes, ?_⟩
    rw [secondsSince_secondBefore hpos, secondsRoundedUp]
    omega

/-- At the very beginning of 2000 the check is passed, and a year before that of the clock is
written. -/
theorem not_setsExactly : ¬ ∀ timestamp, SetsExactly timestamp := by
  intro h
  have hlow : 2000 ≤ (momentOf 946684800000).date.year :=
    Moment.le_year_ofSeconds_iff.mpr (by rw [daysSince_newYear_2000]; decide)
  have hhigh : ¬ 2100 ≤ (momentOf 946684800000).date.year := fun hle =>
    absurd (Moment.le_year_ofSeconds_iff.mp hle) (by rw [daysSince_newYear_2100]; decide)
  have hbefore : ¬ 2000 ≤ (momentOf (secondBefore 946684800000)).date.year := fun hle =>
    absurd (Moment.le_year_ofSeconds_iff.mp hle) (by rw [daysSince_newYear_2000]; decide)
  have hfirst : 1970 ≤ (momentOf (secondBefore 946684800000)).date.year :=
    Moment.year_ofSeconds ..
  have haccepted : 2000 ≤ (momentOf 946684800000).date.year % 65536 := by omega
  obtain ⟨events, hruns⟩ := exists_runs_setTimeMsec haccepted
  obtain ⟨bt, hbt, hafter⟩ := (runs_setTimeMsec hruns).2
  obtain ⟨bt', hbt', hyear, -⟩ := exists_utcMsecToTime (secondBefore 946684800000)
  obtain rfl : bt = bt' := Option.some.inj (hbt.symm.trans hbt')
  have hle := (h _ (registersOf bt) events hruns).1.year_le
  rw [hafter, registersOf, dateOf, UInt8.ofInt, UInt8.toNat_ofNat'] at hle
  omega

end TellerOBC.Rtc
