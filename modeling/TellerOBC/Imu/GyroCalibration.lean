import TellerOBC.Core.Telem.Generic
import TellerOBC.Imu.AccelCalibration
import TellerOBC.Scheduler.Clock

/-!
# The calibration of the gyroscope

`GyroCalibration` and `update` of `modules/imu.cpp`: a calibration takes the mean of at least 50
samples over at least a second. An update feeds it with the sample in the variable of the module
even if the driver has failed to deliver a new one.

An update is given what the driver delivers, with the reading of the clock that is its stamp, and
the reading of the clock in the calibration of the accelerometer. The log messages are left out.

## Main definitions

* `TellerOBC.GyroCalibration`, with `start`, `feedMeasurement`.
* `TellerOBC.Imu`, with `startGyroCalibration`, `startAccelerometerCalibration`, `update`.
* `TellerOBC.Imu.Tracked`, `TellerOBC.Imu.step`: the module under a clock that does not go back,
  with the stamps of the samples that were delivered since the last start.
* `TellerOBC.Imu.FeedsFresh`: an update that does not fail when it matters.

## Main results

* `TellerOBC.Imu.completes_with_fresh_samples`.
-/

namespace TellerOBC

/-! ### The calibration -/

/-- The calibration. -/
structure GyroCalibration (F : Type*) where
  mean : RunningMean F
  running : Bool
  startedAt : UInt32
  deriving DecidableEq, Repr

namespace GyroCalibration

variable {F : Type*} [Scalar F]

/-- The constructor. -/
def new : GyroCalibration F := ⟨.reset, false, 0⟩

/-- `start`. -/
def start (now : UInt32) : GyroCalibration F := ⟨.reset, true, now⟩

/-- `feedMeasurement`: whether the calibration has ended, and the new state. -/
def feedMeasurement (g : GyroCalibration F) (measurement : Measurement3d F) :
    Bool × GyroCalibration F :=
  let mean := g.mean.add measurement.value
  let ended : Bool := mean.numSamples ≥ 50 ∧ measurement.timestampInMsec - g.startedAt ≥ 1000
  (ended, { g with mean := mean, running := if ended then false else g.running })

/-- When a calibration that is running ends. -/
theorem running_feedMeasurement {g : GyroCalibration F} (hrunning : g.running = true)
    (measurement : Measurement3d F) :
    (g.feedMeasurement measurement).2.running = false ↔
      49 ≤ g.mean.numSamples ∧ 1000 ≤ measurement.timestampInMsec - g.startedAt := by
  have hended : ∀ (p : Prop) [Decidable p],
      (if decide p = true then false else true) = false ↔ p := by
    intro p _
    by_cases hp : p <;> simp [hp]
  rw [feedMeasurement, hrunning]
  exact (hended _).trans (and_congr_left' Nat.succ_le_succ_iff)

end GyroCalibration

/-! ### The module -/

/-- The static variables of the module. -/
structure Imu (F : Type*) where
  status : SubsystemStatus
  rawAcceleration : Measurement3d F
  acceleration : Measurement3d F
  rawAngularVelocity : Measurement3d F
  angularVelocity : Measurement3d F
  gyroOffset : Vector3 F
  accelCalibration : AccelCalibration F
  gyroCalibration : GyroCalibration F
  deriving DecidableEq, Repr

/-- What an update reads: the acceleration and the angular velocity that the driver delivers, if it
does not fail, and the clock, in the driver and in the calibration of the accelerometer. -/
structure ImuInput (F : Type*) where
  sample : Option (Vector3 F × Vector3 F)
  now : UInt32
  accelNow : UInt32
  deriving DecidableEq, Repr

namespace Imu

open StepSystem (run Meets run_cons_eq_some invariant_visits invariant_visits_of_step visits_of_run)
open AccelCalibration (axisSide)

variable {F : Type*} [Scalar F]

/-- `convertFromSensorToBodyFrame`. -/
def convertFromSensorToBodyFrame (sensor : Vector3 F) : Vector3 F :=
  ⟨-sensor.y, -sensor.x, -sensor.z⟩

/-- The variables before any call. -/
def new : Imu F where
  status := .critical
  rawAcceleration := ⟨0, .const 0⟩
  acceleration := ⟨0, .const 0⟩
  rawAngularVelocity := ⟨0, .const 0⟩
  angularVelocity := ⟨0, .const 0⟩
  gyroOffset := .const 0
  accelCalibration := .new
  gyroCalibration := .new

/-- `startGyroCalibration`. -/
def startGyroCalibration (imu : Imu F) (now : UInt32) : Imu F :=
  { imu with gyroCalibration := .start now }

/-- `startAccelerometerCalibration`. -/
def startAccelerometerCalibration (imu : Imu F) (now : UInt32) : Imu F :=
  { imu with accelCalibration := imu.accelCalibration.start now }

/-- What the driver does to the raw measurements: `drivers::imu::update`. -/
def updateRaw (imu : Imu F) (input : ImuInput F) : Imu F :=
  match input.sample with
  | some (acceleration, angularVelocity) =>
    { imu with
      status := .ok
      rawAcceleration := ⟨input.now, acceleration⟩
      rawAngularVelocity := ⟨input.now, angularVelocity⟩ }
  | none => { imu with status := .error }

/-- The calibration of the gyroscope in `update`. -/
def feedGyroCalibration (imu : Imu F) : Imu F :=
  if imu.gyroCalibration.running then
    let fed := imu.gyroCalibration.feedMeasurement imu.rawAngularVelocity
    if fed.1 then
      { imu with
        gyroCalibration := fed.2
        gyroOffset := convertFromSensorToBodyFrame fed.2.mean.current }
    else { imu with gyroCalibration := fed.2 }
  else imu

/-- The calibration of the accelerometer in `update`. -/
def feedAccelCalibration (identifySide : Vector3 F → Side) (imu : Imu F) (now : UInt32) : Imu F :=
  if imu.accelCalibration.isRunning then
    { imu with
      accelCalibration :=
        (imu.accelCalibration.feedMeasurement identifySide imu.rawAcceleration now).2 }
  else imu

/-- The conversions in `update`. -/
def convert (imu : Imu F) : Imu F :=
  { imu with
    acceleration := ⟨imu.rawAcceleration.timestampInMsec,
      convertFromSensorToBodyFrame imu.rawAcceleration.value⟩
    angularVelocity := ⟨imu.rawAngularVelocity.timestampInMsec,
      (convertFromSensorToBodyFrame imu.rawAngularVelocity.value).zipWith (· - ·)
        imu.gyroOffset⟩ }

/-- `update`: whether the module is healthy, and the new state. -/
def update (identifySide : Vector3 F → Side) (imu : Imu F) (input : ImuInput F) : Bool × Imu F :=
  let updated :=
    ((imu.updateRaw input).feedGyroCalibration.feedAccelCalibration identifySide
      input.accelNow).convert
  (updated.status = .ok, updated)

/-! ### Runs -/

/-- The calls, with the times at which they read the clock. -/
inductive Call (F : Type*) where
  | startGyroCalibration (time : ℕ)
  | startAccelerometerCalibration (now : UInt32)
  | update (sample : Option (Vector3 F × Vector3 F)) (time : ℕ) (accelNow : UInt32)

/-- The module and the time, with the time at which the calibration of the gyroscope was started
last, and the stamps of the samples that were delivered since, the last one first. -/
structure Tracked (F : Type*) where
  imu : Imu F
  now : ℕ
  startedAt : ℕ
  fresh : List ℕ

/-- The module before any call. -/
def Tracked.new : Tracked F := ⟨.new, 0, 0, []⟩

/-- A call. Times do not go back. -/
def step (identifySide : Vector3 F → Side) (t : Tracked F) : Call F → Option (Tracked F)
  | .startGyroCalibration time =>
    if t.now ≤ time then
      some ⟨t.imu.startGyroCalibration (clockReading time), time, time, []⟩
    else none
  | .startAccelerometerCalibration now =>
    some { t with imu := t.imu.startAccelerometerCalibration now }
  | .update sample time accelNow =>
    if t.now ≤ time then
      some {
        imu := (t.imu.update identifySide ⟨sample, clockReading time, accelNow⟩).2
        now := time
        startedAt := t.startedAt
        fresh := if sample.isSome then time :: t.fresh else t.fresh }
    else none

/-- The calibration completes: it is running before and not after. -/
def Completes (t u : Tracked F) : Prop :=
  t.imu.gyroCalibration.running = true ∧ u.imu.gyroCalibration.running = false

/-- At least 50 samples were delivered since the start, the last of them a second after it. -/
def EnoughFresh (t : Tracked F) : Prop :=
  50 ≤ t.fresh.length ∧ ∃ last ∈ t.fresh.head?, t.startedAt + 1000 ≤ last

/-- The driver does not fail while a calibration is running with less than 49 samples, nor with 49
samples of which the last one is stamped a second after the start. -/
def FeedsFresh (t : Tracked F) : Call F → Prop
  | .update none _ _ => t.imu.gyroCalibration.running = true →
    49 ≤ t.imu.gyroCalibration.mean.numSamples ∧
      (t.imu.gyroCalibration.mean.numSamples = 49 →
        t.imu.rawAngularVelocity.timestampInMsec - t.imu.gyroCalibration.startedAt < 1000)
  | _ => True

/-! ### One update -/

section

variable (identifySide : Vector3 F → Side) (imu : Imu F) (input : ImuInput F)

/-- The calibration after an update: it is fed with the sample in the variable of the module. -/
theorem gyroCalibration_update :
    (imu.update identifySide input).2.gyroCalibration =
      if imu.gyroCalibration.running then
        (imu.gyroCalibration.feedMeasurement (imu.updateRaw input).rawAngularVelocity).2
      else imu.gyroCalibration := by
  have haccel : ∀ (imu : Imu F) now,
      (imu.feedAccelCalibration identifySide now).gyroCalibration = imu.gyroCalibration := by
    intro imu now
    rw [feedAccelCalibration]
    split_ifs <;> rfl
  have hraw : (imu.updateRaw input).gyroCalibration = imu.gyroCalibration := by
    rw [updateRaw]
    split <;> rfl
  rw [update]
  dsimp only [convert]
  rw [haccel, feedGyroCalibration, hraw]
  dsimp only
  split_ifs
  · rfl
  · rfl
  · exact hraw

/-- The sample in the variable of the module after an update. -/
theorem rawAngularVelocity_update :
    (imu.update identifySide input).2.rawAngularVelocity =
      (imu.updateRaw input).rawAngularVelocity := by
  rw [update]
  dsimp only [convert, feedAccelCalibration, feedGyroCalibration]
  split_ifs <;> rfl

end

/-! ### Updates of a running calibration -/

section

variable {t u : Tracked F} {identifySide : Vector3 F → Side}

/-- What an update does while a calibration is running. -/
structure Feeds (t u : Tracked F) (sample : Option (Vector3 F × Vector3 F)) (time : ℕ) :
    Prop where
  now_le : t.now ≤ time
  now_eq : u.now = time
  startedAt_eq : u.startedAt = t.startedAt
  fresh_eq : u.fresh = if sample.isSome then time :: t.fresh else t.fresh
  timestamp_eq : u.imu.rawAngularVelocity.timestampInMsec =
    if sample.isSome then clockReading time else t.imu.rawAngularVelocity.timestampInMsec
  calibration_startedAt_eq : u.imu.gyroCalibration.startedAt = t.imu.gyroCalibration.startedAt
  numSamples_eq : u.imu.gyroCalibration.mean.numSamples =
    t.imu.gyroCalibration.mean.numSamples + 1
  running_iff : u.imu.gyroCalibration.running = false ↔
    49 ≤ t.imu.gyroCalibration.mean.numSamples ∧
      1000 ≤ u.imu.rawAngularVelocity.timestampInMsec - t.imu.gyroCalibration.startedAt

theorem eq_of_step_start {time : ℕ}
    (hstep : step identifySide t (.startGyroCalibration time) = some u) :
    u = ⟨t.imu.startGyroCalibration (clockReading time), time, time, []⟩ := by
  rw [step, Option.ite_none_right_eq_some] at hstep
  exact (Option.some.inj hstep.2).symm

theorem feeds_of_step (hrunning : t.imu.gyroCalibration.running = true)
    {sample : Option (Vector3 F × Vector3 F)} {time : ℕ} {accelNow : UInt32}
    (hstep : step identifySide t (.update sample time accelNow) = some u) :
    Feeds t u sample time := by
  rw [step, Option.ite_none_right_eq_some, Option.some.injEq] at hstep
  obtain ⟨hle, rfl⟩ := hstep
  have hcalibration :=
    gyroCalibration_update identifySide t.imu ⟨sample, clockReading time, accelNow⟩
  rw [if_pos hrunning] at hcalibration
  refine ⟨hle, rfl, rfl, rfl, ?_, ?_, ?_, ?_⟩
  · rw [rawAngularVelocity_update]
    cases sample <;> rfl
  · rw [hcalibration]
    rfl
  · rw [hcalibration]
    rfl
  · rw [hcalibration, GyroCalibration.running_feedMeasurement hrunning, rawAngularVelocity_update]

/-! ### The invariants -/

/-- What holds while a calibration is running. -/
structure Started (t : Tracked F) : Prop where
  startedAt_eq : t.imu.gyroCalibration.startedAt = clockReading t.startedAt
  startedAt_le : t.startedAt ≤ t.now
  length_le : t.fresh.length ≤ t.imu.gyroCalibration.mean.numSamples
  early : 50 ≤ t.imu.gyroCalibration.mean.numSamples →
    t.imu.rawAngularVelocity.timestampInMsec - t.imu.gyroCalibration.startedAt < 1000

omit [Scalar F] in
theorem Started.update (h : Started t) {sample : Option (Vector3 F × Vector3 F)} {time : ℕ}
    (hfeeds : Feeds t u sample time) (hrunning : u.imu.gyroCalibration.running = true) :
    Started u := by
  refine ⟨?_, ?_, ?_, fun hcount => ?_⟩
  · rw [hfeeds.calibration_startedAt_eq, hfeeds.startedAt_eq, h.startedAt_eq]
  · rw [hfeeds.startedAt_eq, hfeeds.now_eq]
    exact h.startedAt_le.trans hfeeds.now_le
  · rw [hfeeds.fresh_eq, hfeeds.numSamples_eq]
    split_ifs
    · exact Nat.succ_le_succ h.length_le
    · exact h.length_le.trans (Nat.le_succ _)
  · -- Otherwise the update would have ended the calibration.
    rw [hfeeds.numSamples_eq, Nat.succ_le_succ_iff] at hcount
    rw [hfeeds.calibration_startedAt_eq]
    refine UInt32.not_le.mp fun hlate => ?_
    exact nomatch (hfeeds.running_iff.mpr ⟨hcount, hlate⟩).symm.trans hrunning

/-- Only an update of a running calibration leaves one running, other than a start. -/
theorem running_of_step {sample : Option (Vector3 F × Vector3 F)} {time : ℕ} {accelNow : UInt32}
    (hstep : step identifySide t (.update sample time accelNow) = some u)
    (hrunning : u.imu.gyroCalibration.running = true) :
    t.imu.gyroCalibration.running = true := by
  rw [step, Option.ite_none_right_eq_some, Option.some.injEq] at hstep
  obtain ⟨-, rfl⟩ := hstep
  by_contra hnot
  have hcalibration :=
    gyroCalibration_update identifySide t.imu ⟨sample, clockReading time, accelNow⟩
  rw [if_neg hnot] at hcalibration
  rw [hcalibration] at hrunning
  exact hnot hrunning

theorem started_step (ht : t.imu.gyroCalibration.running = true → Started t) {call : Call F}
    (hstep : step identifySide t call = some u) :
    u.imu.gyroCalibration.running = true → Started u := by
  intro hrunning
  cases call with
  | startGyroCalibration time =>
    obtain rfl := eq_of_step_start hstep
    exact ⟨rfl, le_rfl, le_rfl, nofun⟩
  | startAccelerometerCalibration now =>
    obtain rfl := Option.some.inj hstep
    have h := ht hrunning
    exact ⟨h.startedAt_eq, h.startedAt_le, h.length_le, h.early⟩
  | update sample time accelNow =>
    have hbefore := running_of_step hstep hrunning
    exact (ht hbefore).update (feeds_of_step hbefore hstep) hrunning

/-- After every run, a calibration that is running was started. -/
theorem started_run {calls : List (Call F)} (hrun : run (step identifySide) .new calls = some t) :
    t.imu.gyroCalibration.running = true → Started t :=
  invariant_visits_of_step
    (I := fun t : Tracked F => t.imu.gyroCalibration.running = true → Started t)
    (fun _ _ _ ht hstep => started_step ht hstep) (fun h => absurd h Bool.false_ne_true)
    (visits_of_run hrun)

/-- The first 49 samples of a calibration that is running are fresh. -/
def FirstFresh (t : Tracked F) : Prop :=
  t.imu.gyroCalibration.running = true →
    min t.imu.gyroCalibration.mean.numSamples 49 ≤ t.fresh.length

theorem firstFresh_step (ht : FirstFresh t) {call : Call F} (hok : FeedsFresh t call)
    (hstep : step identifySide t call = some u) : FirstFresh u := by
  intro hrunning
  cases call with
  | startGyroCalibration time =>
    obtain rfl := eq_of_step_start hstep
    exact Nat.min_le_left _ _
  | startAccelerometerCalibration now =>
    obtain rfl := Option.some.inj hstep
    exact ht hrunning
  | update sample time accelNow =>
    have hbefore := running_of_step hstep hrunning
    have hfeeds := feeds_of_step hbefore hstep
    have hfirst := ht hbefore
    rw [hfeeds.numSamples_eq, hfeeds.fresh_eq]
    cases sample with
    | some sample =>
      rw [Option.isSome_some, if_pos rfl, List.length_cons]
      omega
    | none =>
      rw [Option.isSome_none, if_neg Bool.false_ne_true]
      have hcount := (hok hbefore).1
      omega

/-! ### Completions -/

/-- A reading a second after the start, in the sense of the wrapping difference, is that of a time a
second after it. -/
theorem add_le_of_clockReading {start time : ℕ} (hle : start ≤ time)
    (hlate : 1000 ≤ clockReading time - clockReading start) : start + 1000 ≤ time := by
  obtain ⟨d, rfl⟩ := Nat.exists_eq_add_of_le hle
  have hsub : clockReading (start + d) - clockReading start = clockReading d := by
    rw [map_add, add_sub_cancel_left]
  have hnat := UInt32.le_iff_toNat_le.mp (hsub ▸ hlate)
  rw [toNat_clockReading] at hnat
  exact Nat.add_le_add_left (hnat.trans (Nat.mod_le d _)) start

/-- At some later time, the clock reads a second more than at the start. -/
theorem exists_time_of_reading (start now : ℕ) :
    ∃ time, now ≤ time ∧ 1000 ≤ clockReading time - clockReading start := by
  refine ⟨start + (1000 + 2 ^ 32 * now), by omega, ?_⟩
  rw [map_add, add_sub_cancel_left, UInt32.le_iff_toNat_le, toNat_clockReading,
    Nat.add_mul_mod_self_left]
  decide

/-- Only an update completes a calibration. -/
theorem Completes.exists_update (h : Completes t u) {call : Call F}
    (hstep : step identifySide t call = some u) :
    ∃ sample time accelNow, call = .update sample time accelNow := by
  cases call with
  | startGyroCalibration time =>
    obtain rfl := eq_of_step_start hstep
    exact absurd h.2.symm Bool.false_ne_true
  | startAccelerometerCalibration now =>
    obtain rfl := Option.some.inj hstep
    exact nomatch h.1.symm.trans h.2
  | update sample time accelNow => exact ⟨sample, time, accelNow, rfl⟩

/-- A calibration whose first 49 samples are fresh completes with a fresh sample, unless the driver
fails when it matters. -/
theorem enoughFresh_of_completes (hstarted : t.imu.gyroCalibration.running = true → Started t)
    (hfirst : FirstFresh t) {call : Call F} (hok : FeedsFresh t call)
    (hstep : step identifySide t call = some u) (h : Completes t u) : EnoughFresh u := by
  obtain ⟨sample, time, accelNow, rfl⟩ := h.exists_update hstep
  have hfeeds := feeds_of_step h.1 hstep
  have hstart := hstarted h.1
  obtain ⟨hcount, hlate⟩ := hfeeds.running_iff.mp h.2
  have hlength := hfirst h.1
  rw [min_eq_right hcount] at hlength
  rw [hfeeds.timestamp_eq] at hlate
  cases sample with
  | none =>
    -- Neither the 50th sample nor a later one can be stale.
    rw [Option.isSome_none, if_neg Bool.false_ne_true] at hlate
    refine absurd hlate (UInt32.not_le.mpr ?_)
    rcases hcount.eq_or_lt with hcount | hcount
    · exact (hok h.1).2 hcount.symm
    · exact hstart.early hcount
  | some sample =>
    rw [Option.isSome_some, if_pos rfl, hstart.startedAt_eq] at hlate
    rw [EnoughFresh, hfeeds.fresh_eq, Option.isSome_some, if_pos rfl, hfeeds.startedAt_eq]
    exact ⟨Nat.succ_le_succ hlength, time, rfl,
      add_le_of_clockReading (hstart.startedAt_le.trans hfeeds.now_le) hlate⟩

/-! ### The guard is exact -/

/-- A call can be followed by others up to a completion without enough fresh samples. -/
def CanCompleteStale (identifySide : Vector3 F → Side) (t : Tracked F) (call : Call F) : Prop :=
  ∃ before last v w, [call] <+: before ++ [last] ∧ run (step identifySide) t before = some v ∧
    step identifySide v last = some w ∧ Completes v w ∧ ¬EnoughFresh w

/-- An update that does not fail. -/
def success (time : ℕ) : Call F := .update (some (.const 0, .const 0)) time 0

theorem exists_success (identifySide : Vector3 F → Side) {time : ℕ} (hle : t.now ≤ time) :
    ∃ u, step identifySide t (success time) = some u :=
  ⟨_, if_pos hle⟩

/-- Updates that do not fail, from a second after the start, complete a calibration at the 50th
sample. -/
theorem exists_completion (identifySide : Vector3 F → Side) {k time : ℕ}
    (hrunning : t.imu.gyroCalibration.running = true)
    (hcount : t.imu.gyroCalibration.mean.numSamples + (k + 1) = 50) (hle : t.now ≤ time)
    (hlate : 1000 ≤ clockReading time - t.imu.gyroCalibration.startedAt) :
    ∃ v w, run (step identifySide) t (List.replicate k (success time)) = some v ∧
      step identifySide v (success time) = some w ∧ Completes v w ∧
      w.fresh.length = t.fresh.length + (k + 1) := by
  obtain ⟨u, hu⟩ := exists_success identifySide hle
  have hfeeds := feeds_of_step hrunning hu
  have hlength : u.fresh.length = t.fresh.length + 1 := by
    rw [hfeeds.fresh_eq, Option.isSome_some, if_pos rfl, List.length_cons]
  induction k generalizing t u with
  | zero =>
    refine ⟨t, u, rfl, hu, ⟨hrunning, hfeeds.running_iff.mpr ⟨?_, ?_⟩⟩, hlength⟩
    · omega
    · rw [hfeeds.timestamp_eq, Option.isSome_some, if_pos rfl]
      exact hlate
  | succ k ih =>
    have hstill : u.imu.gyroCalibration.running = true := by
      rw [← Bool.not_eq_false, hfeeds.running_iff]
      omega
    have hnow : u.now ≤ time := hfeeds.now_eq.le
    have hcount' := hfeeds.numSamples_eq
    obtain ⟨u', hu'⟩ := exists_success identifySide hnow
    have hfeeds' := feeds_of_step hstill hu'
    obtain ⟨v, w, hrun, hstep, hcompletes, hfresh⟩ := ih hstill (by omega) hnow
      (by rw [hfeeds.calibration_startedAt_eq]; exact hlate) u' hu' hfeeds'
      (by rw [hfeeds'.fresh_eq, Option.isSome_some, if_pos rfl, List.length_cons])
    exact ⟨v, w, run_cons_eq_some.mpr ⟨u, hu, hrun⟩, hstep, hcompletes, by omega⟩

/-- A failure when it matters. -/
theorem canCompleteStale_of_not_feedsFresh
    (hstarted : t.imu.gyroCalibration.running = true → Started t) {call : Call F}
    (hstep : step identifySide t call = some u) (hfails : ¬FeedsFresh t call) :
    CanCompleteStale identifySide t call := by
  cases call with
  | startGyroCalibration | startAccelerometerCalibration => exact absurd trivial hfails
  | update sample time accelNow =>
    cases sample with
    | some sample => exact absurd trivial hfails
    | none =>
      obtain ⟨hrunning, hearly⟩ := Classical.not_imp.mp hfails
      have hstart := hstarted hrunning
      have hfeeds := feeds_of_step hrunning hstep
      have hnext := started_step hstarted hstep
      have hfresh : u.fresh = t.fresh := by
        rw [hfeeds.fresh_eq, Option.isSome_none, if_neg Bool.false_ne_true]
      have hlength := hstart.length_le
      have hcount : t.imu.gyroCalibration.mean.numSamples ≤ 49 := by
        by_contra hmany
        exact hearly ⟨by omega, fun h => by omega⟩
      cases hstill : u.imu.gyroCalibration.running with
      | false =>
        refine ⟨[], _, t, u, List.prefix_rfl, rfl, hstep, ⟨hrunning, hstill⟩, fun h => ?_⟩
        have henough := h.1
        rw [hfresh] at henough
        omega
      | true =>
        have hless : t.imu.gyroCalibration.mean.numSamples < 49 := by
          refine lt_of_le_of_ne hcount fun heq => hearly ⟨heq.ge, fun _ => ?_⟩
          rw [← UInt32.not_le]
          intro hlate
          have hstale := hfeeds.timestamp_eq
          rw [Option.isSome_none, if_neg Bool.false_ne_true] at hstale
          rw [← hstale] at hlate
          exact nomatch (hfeeds.running_iff.mpr ⟨heq.ge, hlate⟩).symm.trans hstill
        obtain ⟨later, hle, hlate⟩ := exists_time_of_reading u.startedAt u.now
        rw [← (hnext hstill).startedAt_eq] at hlate
        obtain ⟨k, hk⟩ := Nat.exists_eq_add_of_lt hless
        obtain ⟨v, w, hrun, hw, hcompletes, hmany⟩ := exists_completion identifySide
          (k := k) hstill (by rw [hfeeds.numSamples_eq]; omega) hle hlate
        refine ⟨.update none time accelNow :: List.replicate k (success later), _, v, w,
          ⟨_, rfl⟩, run_cons_eq_some.mpr ⟨u, hstep, hrun⟩, hw, hcompletes, fun h => ?_⟩
        have henough := h.1
        rw [hmany, hfresh] at henough
        omega

end

/-! ### Fresh samples -/

/-- **A gyro calibration completes after 50 fresh samples**, the last of them a second after the
start, in every run in which the driver does not fail when it matters. A failure when it matters can
lead to a completion without them. -/
theorem completes_with_fresh_samples (identifySide : Vector3 F → Side) {calls : List (Call F)}
    {t u : Tracked F} {call : Call F} (hrun : run (step identifySide) .new calls = some t)
    (hstep : step identifySide t call = some u) :
    (Meets (step identifySide) FeedsFresh .new calls → FeedsFresh t call → Completes t u →
      EnoughFresh u) ∧
    (¬FeedsFresh t call → CanCompleteStale identifySide t call) := by
  refine ⟨fun hmeets hok hcompletes => ?_,
    canCompleteStale_of_not_feedsFresh (started_run hrun) hstep⟩
  have hfirst : FirstFresh t := invariant_visits (fun _ _ _ ht hok hs => firstFresh_step ht hok hs)
    (fun h => absurd h Bool.false_ne_true) hmeets (visits_of_run hrun)
  exact enoughFresh_of_completes (started_run hrun) hfirst hok hstep hcompletes

/-! ### Calibrations in integers -/

instance (t : Tracked F) (call : Call F) : Decidable (FeedsFresh t call) :=
  match call with
  | .update none _ _ => inferInstanceAs (Decidable (_ → _))
  | .update (some _) _ _ => inferInstanceAs (Decidable True)
  | .startGyroCalibration _ => inferInstanceAs (Decidable True)
  | .startAccelerometerCalibration _ => inferInstanceAs (Decidable True)

instance (t u : Tracked F) : Decidable (Completes t u) := inferInstanceAs (Decidable (_ ∧ _))

/-- An update every 20 ms. -/
def updates (sample : Option (Vector3 Int × Vector3 Int)) (startAt k : ℕ) : List (Call Int) :=
  (List.range k).map fun n => .update sample (startAt + 20 * n) 0

/-- A calibration of which all samples but the 50th are fresh. -/
def oneFailure : List (Call Int) :=
  .startGyroCalibration 1000 :: updates (some (.const 0, ⟨1, 2, 3⟩)) 1000 49 ++
    [.update none 1980 0]

/-- The driver delivers a sample before the calibration is started, and fails since. -/
def onlyFailures : List (Call Int) :=
  .update (some (.const 0, ⟨1, 2, 3⟩)) 500 0 :: .startGyroCalibration 1000 :: updates none 1000 49

/-- A calibration with a failure completes with the 50th fresh sample. -/
theorem completes_with_fresh_samples_of_oneFailure :
    ∃ t u, run (step axisSide) .new oneFailure = some t ∧
      step axisSide t (success 2000) = some u ∧ Completes t u ∧ EnoughFresh u := by
  refine ⟨(run (step axisSide) .new oneFailure).get (by decide +kernel),
    (step axisSide ((run (step axisSide) .new oneFailure).get (by decide +kernel))
      (success 2000)).get (by decide +kernel),
    (Option.some_get _).symm, (Option.some_get _).symm, by decide +kernel, ?_⟩
  exact (completes_with_fresh_samples axisSide (Option.some_get _).symm
    (Option.some_get _).symm).1 (by decide +kernel) trivial (by decide +kernel)

/-- A calibration without a fresh sample completes. -/
theorem completes_with_stale_sample :
    ∃ t u, run (step axisSide) .new onlyFailures = some t ∧
      step axisSide t (.update none 1980 0) = some u ∧ Completes t u ∧ u.fresh = [] ∧
      ¬EnoughFresh u := by
  have hnone : ((step axisSide ((run (step axisSide) .new onlyFailures).get (by decide +kernel))
      (.update none 1980 0)).get (by decide +kernel)).fresh = [] := by decide +kernel
  refine ⟨(run (step axisSide) .new onlyFailures).get (by decide +kernel),
    (step axisSide ((run (step axisSide) .new onlyFailures).get (by decide +kernel))
      (.update none 1980 0)).get (by decide +kernel),
    (Option.some_get _).symm, (Option.some_get _).symm, by decide +kernel, hnone, fun h => ?_⟩
  have hmany := h.1
  rw [hnone] at hmany
  exact absurd hmany (by decide)

end Imu

end TellerOBC
