import TellerOBC.Foundations.StepSystem
import TellerOBC.Hal.Rtc

/-!
# The readings of the real-time clock

The clock has a counter that is decremented with every tick, from the value that the HAL calls
`SecondFraction` down to zero; then the next second begins. `getTimeMsec` takes the counter for the
ticks that have passed in the second. So within a second its readings go down, unless the
milliseconds of the tick are those of the next one.

## Main definitions

* `TellerOBC.Rtc.Clock`, `TellerOBC.Rtc.Clock.tick`: the clock in the years from 2000 to 2099.
* `TellerOBC.Rtc.reading`: what `getTimeMsec` returns.
* `TellerOBC.Rtc.NonDecreasing`: the readings do not go down in a run of ticks.
* `TellerOBC.Rtc.IsSteady`: the ticks at which the reading does not go down.

## Main results

* `TellerOBC.Rtc.toNat_reading`: the reading.
* `TellerOBC.Rtc.nonDecreasing_iff`: the runs in which the readings do not go down.
-/

namespace TellerOBC.Rtc

open Calendar Program StepSystem

/-- The state of the clock: a moment that its registers can denote, and the counter. The divider has
15 bits. -/
structure Clock where
  moment : Moment
  secondFraction : ℕ
  subSeconds : ℕ
  le_year : 2000 ≤ moment.date.year
  year_le : moment.date.year ≤ 2099
  secondFraction_le : secondFraction ≤ 0x7FFF
  subSeconds_le : subSeconds ≤ secondFraction

/-- A tick of the clock. In the last second of 2099 the last tick has no successor. -/
def Clock.tick (c : Clock) : Option Clock :=
  if c.subSeconds = 0 then
    if h : c.moment.next.date.year ≤ 2099 then some {
      moment := c.moment.next
      secondFraction := c.secondFraction
      subSeconds := c.secondFraction
      le_year := c.le_year.trans c.moment.le_year_next
      year_le := h
      secondFraction_le := c.secondFraction_le
      subSeconds_le := le_rfl }
    else none
  else some { c with
    subSeconds := c.subSeconds - 1
    subSeconds_le := (Nat.sub_le ..).trans c.subSeconds_le }

/-- The time that the HAL reads. -/
def Clock.time (c : Clock) : RtcTimeReading where
  hours := UInt8.ofNat c.moment.hour
  minutes := UInt8.ofNat c.moment.minute
  seconds := UInt8.ofNat c.moment.second
  subSeconds := UInt32.ofNat c.subSeconds
  secondFraction := UInt32.ofNat c.secondFraction

/-- The date that the HAL reads. -/
def Clock.date (c : Clock) : RtcDate where
  year := UInt8.ofNat (c.moment.date.year - 2000)
  month := UInt8.ofNat c.moment.date.month
  date := UInt8.ofNat c.moment.date.day
  weekDay := weekDay ((c.moment.date.daysSince 1970 + 4) % 7 : ℕ)

/-- The clock answers when it is read. -/
def Clock.environment : Environment Call.Answer Clock
  | .delayMsec _, c => ((), c)
  | .getTime, c => (some c.time, c)
  | .getDate, c => (some c.date, c)
  | .setDate _, c => (false, c)
  | .setTime _, c => (false, c)

/-- What `getTimeMsec` returns. -/
def reading (c : Clock) : UInt64 := (getTimeMsec.exec Clock.environment c).1

/-- The clock as a system that ticks. -/
def step (c : Clock) (_ : Unit) : Option Clock := c.tick

/-- In a run of ticks, no reading is lower than one before. -/
def NonDecreasing (c : Clock) (ticks : List Unit) : Prop :=
  ∀ earlier later a b, earlier ++ later <+: ticks → run step c earlier = some a →
    run step a later = some b → reading a ≤ reading b

/-- The second ends, or the milliseconds are not lower at the next tick. -/
def IsSteady (c : Clock) : Prop :=
  c.subSeconds = 0 ∨ 1000 ≤ 1000 * c.subSeconds % (c.secondFraction + 1)

/-! ### The reading -/

/-- The milliseconds of the reading. -/
def milliseconds (c : Clock) : ℕ := 1000 * c.subSeconds / (c.secondFraction + 1)

section

variable {c c' : Clock}

theorem milliseconds_lt (c : Clock) : milliseconds c < 1000 := by
  have hle := c.subSeconds_le
  refine Nat.div_lt_of_lt_mul ?_
  omega

theorem isMoment_brokenDownTime (c : Clock) :
    (brokenDownTime c.time c.date).IsMoment c.moment ∧
      (brokenDownTime c.time c.date).millisecond.toNat = milliseconds c := by
  have hlow := c.le_year
  have hhigh := c.year_le
  have hmonth := c.moment.date.month_le
  have hday := c.moment.date.day_le_31
  have hhour := c.moment.hour_lt
  have hminute := c.moment.minute_lt
  have hsecond := c.moment.second_lt
  have hsub := c.subSeconds_le
  have hfraction := c.secondFraction_le
  have hbyte {n : ℕ} (h : n < 256) : (UInt8.ofNat n).toNat = n := by
    rw [UInt8.toNat_ofNat']
    exact Nat.mod_eq_of_lt h
  have hword {n : ℕ} (h : n < 2 ^ 32) : (UInt32.ofNat n).toNat = n := by
    rw [UInt32.toNat_ofNat']
    exact Nat.mod_eq_of_lt h
  refine ⟨⟨⟨?_, hbyte (by omega), hbyte (by omega)⟩, hbyte (by omega), hbyte (by omega),
    hbyte (by omega)⟩, ?_⟩
  · change ((UInt8.ofNat (c.moment.date.year - 2000)).toUInt16 + 2000).toNat = _
    rw [UInt16.toNat_add, UInt8.toNat_toUInt16, hbyte (by omega)]
    change (c.moment.date.year - 2000 + 2000) % 65536 = _
    omega
  · have hlt := milliseconds_lt c
    have hproduct : (1000 * UInt32.ofNat c.subSeconds).toNat = 1000 * c.subSeconds := by
      rw [UInt32.toNat_mul, hword (by omega)]
      exact Nat.mod_eq_of_lt (show 1000 * c.subSeconds < 2 ^ 32 by omega)
    change (UInt16.ofNat ((1000 * UInt32.ofNat c.subSeconds).toNat /
      ((UInt32.ofNat c.secondFraction).toNat + 1))).toNat = _
    rw [hproduct, hword (by omega), UInt16.toNat_ofNat']
    exact Nat.mod_eq_of_lt (show milliseconds c < 65536 by omega)

/-- A moment before 2100 is fewer seconds from 1970 than the beginning of 2100. -/
theorem secondsSince_lt {m : Moment} (hlow : 1970 ≤ m.date.year) (hhigh : m.date.year ≤ 2099) :
    m.secondsSince 1970 < 47482 * 86400 := by
  by_contra hnot
  have hyear : 2100 ≤ (Moment.ofSeconds 1970 (m.secondsSince 1970)).date.year := by
    rw [Moment.le_year_ofSeconds_iff, daysSince_newYear_2100]
    exact Nat.not_lt.mp hnot
  rw [Moment.ofSeconds_secondsSince hlow] at hyear
  exact Nat.not_lt.mpr hyear (Nat.lt_succ_of_le hhigh)

/-- **The reading** is the moment in milliseconds with what the counter is taken for. -/
theorem toNat_reading (c : Clock) :
    (reading c).toNat = c.moment.secondsSince 1970 * 1000 + milliseconds c := by
  have hlow : 1970 ≤ c.moment.date.year := Nat.le_trans (by decide) c.le_year
  have hseconds := secondsSince_lt hlow c.year_le
  have hlt := milliseconds_lt c
  obtain ⟨hmoment, hmilliseconds⟩ := isMoment_brokenDownTime c
  have hread : reading c = (utcTimeToMsec (brokenDownTime c.time c.date)).getD 0 := by
    simp only [reading, getTimeMsec, hal, perform_bind, pure_eq, exec, Clock.environment]
  rw [hread, utcTimeToMsec_eq hmoment hlow, hmilliseconds, Option.getD_some, UInt64.toNat_ofNat']
  refine Nat.mod_eq_of_lt ?_
  omega

/-! ### A tick -/

/-- What a tick does. -/
theorem tick_cases (h : c.tick = some c') :
    c.subSeconds = 0 ∧ c'.moment = c.moment.next ∨
      0 < c.subSeconds ∧ c'.moment = c.moment ∧ c'.secondFraction = c.secondFraction ∧
        c'.subSeconds = c.subSeconds - 1 := by
  rw [Clock.tick] at h
  split_ifs at h with hend hyear
  · obtain rfl := Option.some.inj h
    exact .inl ⟨hend, rfl⟩
  · obtain rfl := Option.some.inj h
    exact .inr ⟨Nat.pos_of_ne_zero hend, rfl, rfl, rfl⟩

/-- Within a second, one less is counted. -/
theorem reading_le_of_count (hpos : 0 < c.subSeconds) (hmoment : c'.moment = c.moment)
    (hfraction : c'.secondFraction = c.secondFraction) (hsub : c'.subSeconds = c.subSeconds - 1) :
    (reading c).toNat ≤ (reading c').toNat ↔
      1000 ≤ 1000 * c.subSeconds % (c.secondFraction + 1) := by
  have hcounts : 0 < c.secondFraction + 1 := Nat.succ_pos _
  have hfrom : 1000 * (c.subSeconds - 1) = 1000 * c.subSeconds - 1000 := Nat.mul_sub_one ..
  have hdivision := Nat.div_add_mod (1000 * c.subSeconds) (c.secondFraction + 1)
  rw [toNat_reading, toNat_reading, hmoment, Nat.add_le_add_iff_left, milliseconds, milliseconds,
    hfraction, hsub, hfrom, Nat.le_div_iff_mul_le hcounts, Nat.mul_comm (_ / _)]
  omega

/-- At the end of a second, what is lost of the milliseconds is less than the second. -/
theorem reading_le_of_next (hmoment : c'.moment = c.moment.next) :
    (reading c).toNat ≤ (reading c').toNat := by
  have hlow : 1970 ≤ c.moment.date.year := Nat.le_trans (by decide) c.le_year
  have hlt := milliseconds_lt c
  rw [toNat_reading, toNat_reading, hmoment, Moment.secondsSince_next hlow]
  omega

/-- **A tick** does not lower the reading if and only if the clock is steady. -/
theorem reading_le_iff (h : c.tick = some c') :
    (reading c).toNat ≤ (reading c').toNat ↔ IsSteady c := by
  rcases tick_cases h with ⟨hend, hmoment⟩ | ⟨hpos, hmoment, hfraction, hsub⟩
  · exact iff_of_true (reading_le_of_next hmoment) (.inl hend)
  · rw [reading_le_of_count hpos hmoment hfraction hsub, IsSteady, or_iff_right hpos.ne']

/-- With no more than 1000 counts to the second, a clock is steady at the end of a second only. -/
theorem isSteady_iff (h : c.secondFraction < 1000) : IsSteady c ↔ c.subSeconds = 0 := by
  have hlt := Nat.mod_lt (1000 * c.subSeconds) (Nat.succ_pos c.secondFraction)
  exact or_iff_left (Nat.not_le.mpr (Nat.lt_of_lt_of_le hlt h))

/-- **When the readings do not go down.** The readings of a run of ticks are not decreasing if and
only if the clock is steady at every tick of the run. -/
theorem nonDecreasing_iff (c : Clock) (ticks : List Unit) :
    NonDecreasing c ticks ↔ Meets step (fun c _ => c.tick.isSome → IsSteady c) c ticks := by
  have hguard (c : Clock) (a : Unit) :
      (∀ c', step c a = some c' → (reading c).toNat ≤ (reading c').toNat) ↔
        (c.tick.isSome → IsSteady c) := by
    constructor
    · intro hle hsome
      obtain ⟨c', hc'⟩ := Option.isSome_iff_exists.mp hsome
      exact (reading_le_iff hc').mp (hle c' hc')
    · intro hsteady c' hc'
      exact (reading_le_iff hc').mpr (hsteady (Option.isSome_of_eq_some hc'))
  simp only [NonDecreasing, UInt64.le_iff_toNat_le]
  refine Iff.trans (forall_le_iff_meets (f := fun c => (reading c).toNat)) ?_
  exact meets_congr (I := fun _ => True) (fun _ _ _ _ _ => trivial) (fun c a _ => hguard c a)
    trivial

end

/-- The clock at noon of 26 October 2024, when 1 is left of 255. -/
def almostNextSecond : Clock where
  moment := ⟨⟨2024, 10, 26, by decide, by decide, by decide, by decide⟩, 12, 0, 0, by decide,
    by decide, by decide⟩
  secondFraction := 255
  subSeconds := 1
  le_year := by decide
  year_le := by decide
  secondFraction_le := by decide
  subSeconds_le := by decide

/-- The last tick but one of a second lowers the reading by three milliseconds. -/
theorem not_nonDecreasing : ¬ ∀ c ticks, NonDecreasing c ticks := by
  intro h
  obtain ⟨c', hc'⟩ : ∃ c', almostNextSecond.tick = some c' := ⟨_, rfl⟩
  have hle := h almostNextSecond [()] [] [()] almostNextSecond c' List.prefix_rfl rfl
    (run_cons_eq_some.mpr ⟨c', hc', rfl⟩)
  rw [UInt64.le_iff_toNat_le, reading_le_iff hc', isSteady_iff (by decide)] at hle
  exact absurd hle (by decide)

end TellerOBC.Rtc
