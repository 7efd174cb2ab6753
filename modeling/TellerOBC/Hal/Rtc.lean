import TellerOBC.Core.UtcTime
import TellerOBC.Foundations.Program

/-!
# The real-time clock

`getTimeMsec` and `setTimeMsec` of `hal/stm32/rtc.cpp`. The clock has registers for the date, with
the last two digits of the year, and for the time of the day. They are read and written by functions
of the STM32 HAL, which can fail.

The milliseconds come from a counter of the clock that is not written. The source divides in
floating point; here the quotient is exact before its fraction is dropped.

## Main definitions

* `TellerOBC.Rtc.Call`: the functions that are called.
* `TellerOBC.Rtc.getTimeMsec`, `TellerOBC.Rtc.setTimeMsec`.
* `TellerOBC.Rtc.Registers.after`: the registers after some calls.
-/

namespace TellerOBC.Rtc

open Calendar Program

/-- `RTC_DateTypeDef`. -/
structure RtcDate where
  year : UInt8
  month : UInt8
  date : UInt8
  weekDay : UInt8
  deriving DecidableEq, Repr

/-- `RTC_TimeTypeDef`, less the fields that are not used, as it is written. -/
structure RtcTime where
  hours : UInt8
  minutes : UInt8
  seconds : UInt8
  deriving DecidableEq, Repr

/-- `RTC_TimeTypeDef` as it is read. -/
structure RtcTimeReading extends RtcTime where
  subSeconds : UInt32
  secondFraction : UInt32
  deriving DecidableEq, Repr

/-- The calls to the HAL. -/
inductive Call where
  | delayMsec (delay : UInt32)
  | getTime
  | getDate
  | setDate (date : RtcDate)
  | setTime (time : RtcTime)
  deriving DecidableEq, Repr

/-- The answers to the calls. A failed call of `HAL_RTC_GetTime` or `HAL_RTC_GetDate` has none, and
the other functions of the RTC tell whether they succeeded. -/
abbrev Call.Answer : Call → Type
  | .delayMsec _ => Unit
  | .getTime => Option RtcTimeReading
  | .getDate => Option RtcDate
  | .setDate _ => Bool
  | .setTime _ => Bool

/-- Call a function of the HAL. -/
def hal (c : Call) : Program Call.Answer c.Answer := perform c

/-! ### Reading the clock -/

/-- The broken down time that `getTimeMsec` assembles. -/
def brokenDownTime (time : RtcTimeReading) (date : RtcDate) : BrokenDownTimestamp where
  year := date.year.toUInt16 + 2000
  month := date.month
  day := date.date
  hour := time.hours
  minute := time.minutes
  second := time.seconds
  millisecond := UInt16.ofNat ((1000 * time.subSeconds).toNat / (time.secondFraction.toNat + 1))

/-- `getTimeMsec`. -/
def getTimeMsec : Program Call.Answer UInt64 := do
  match ← hal .getTime with
  | none => return 0
  | some time =>
    match ← hal .getDate with
    | none => return 0
    | some date => return (utcTimeToMsec (brokenDownTime time date)).getD 0

/-! ### Setting the clock -/

/-- The day of the week for the HAL, where Sunday is seven. -/
def weekDay (day : ℤ) : UInt8 :=
  if UInt8.ofInt day = 0 then 7 else UInt8.ofInt day

/-- The date that is written. The difference is cut to eight bits, and a month that `gmtime_r`
returns has a day of the week. -/
def dateOf (bt : BrokenDownTimestamp) : RtcDate where
  year := UInt8.ofInt ((bt.year.toNat : ℤ) - 2000)
  month := bt.month
  date := bt.day
  weekDay := weekDay ((utcTimeToDayOfWeek bt.toBrokenDownTime).getD 0)

/-- The time of the day that is written. -/
def timeOf (bt : BrokenDownTimestamp) : RtcTime := ⟨bt.hour, bt.minute, bt.second⟩

/-- The part of `setTimeMsec` that waits for a whole second: the timestamp of that second. -/
def waitForWholeSecond (timestamp : UInt64) : Program Call.Answer UInt64 :=
  let remainder := timestamp % 1000
  if remainder > 0 then do
    let remainder := 1000 - remainder
    let _ ← hal (.delayMsec remainder.toUInt32)
    return timestamp + remainder
  else return timestamp

/-- The part of `setTimeMsec` that writes to the clock. -/
def writeTimeMsec (timestamp : UInt64) : Program Call.Answer Bool :=
  match utcMsecToTime timestamp with
  | none => return false
  | some bt => do
    let dateIsSet ← hal (.setDate (dateOf bt))
    if dateIsSet then hal (.setTime (timeOf bt)) else return false

/-- `setTimeMsec`. -/
def setTimeMsec (timestamp : UInt64) : Program Call.Answer Bool :=
  match utcMsecToTime timestamp with
  | none => return false
  | some bt =>
    if bt.year < 2000 then return false
    else do
      let timestamp ← waitForWholeSecond timestamp
      writeTimeMsec (timestamp - 1000)

/-! ### The registers -/

/-- The registers that are written. -/
structure Registers where
  date : RtcDate
  time : RtcTime
  deriving DecidableEq, Repr

/-- A call that succeeds stores what it is given. -/
def Registers.store (r : Registers) : Event Call.Answer → Registers
  | ⟨.setDate date, true⟩ => { r with date := date }
  | ⟨.setTime time, true⟩ => { r with time := time }
  | _ => r

/-- The registers after some calls. -/
def Registers.after (r : Registers) (events : List (Event Call.Answer)) : Registers :=
  events.foldl Registers.store r

/-- What the clock accepts. -/
structure Registers.IsAccepted (r : Registers) : Prop where
  year_le : r.date.year.toNat ≤ 99
  month : 1 ≤ r.date.month.toNat ∧ r.date.month.toNat ≤ 12
  date : 1 ≤ r.date.date.toNat ∧ r.date.date.toNat ≤ 31
  weekDay : 1 ≤ r.date.weekDay.toNat ∧ r.date.weekDay.toNat ≤ 7
  hours_le : r.time.hours.toNat ≤ 23
  minutes_le : r.time.minutes.toNat ≤ 59
  seconds_le : r.time.seconds.toNat ≤ 59

/-- The registers denote a moment of the years from 2000 on. -/
structure Registers.Denotes (r : Registers) (m : Moment) : Prop where
  year_eq : 2000 + r.date.year.toNat = m.date.year
  month_eq : r.date.month.toNat = m.date.month
  date_eq : r.date.date.toNat = m.date.day
  hours_eq : r.time.hours.toNat = m.hour
  minutes_eq : r.time.minutes.toNat = m.minute
  seconds_eq : r.time.seconds.toNat = m.second

end TellerOBC.Rtc
