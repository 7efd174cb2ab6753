import TellerOBC.Core.RunningMean

/-!
# The calibration of the accelerometer

`AccelCalibration` of `modules/imu.cpp`: the device is laid on each of its six sides in turn, and
the mean of some measurements is stored as the extremum of the side. A bit set keeps the sides that
are done. It is cleared when the calibration is cancelled, but not when a calibration has finished:
the next one then starts with all its bits set.

The side that a measurement identifies is an arbitrary function of it. The object is static, so that
its fields are zero before its constructor runs.

## Main definitions

* `TellerOBC.Side`, `TellerOBC.AccelCalibration`, with `cancel`, `start`, `feedMeasurement`.
* `TellerOBC.AccelCalibration.Tracked`, `TellerOBC.AccelCalibration.track`: a calibration with the
  calls since its last start.
* `TellerOBC.AccelCalibration.SampledSide`: the extremum of a side comes from these calls.

## Main results

* `TellerOBC.AccelCalibration.sampled_iff_startedFrom`: when all extrema come from a calibration.
-/

namespace TellerOBC

/-- The sides: `Side`, without the combination `ALL`. -/
inductive Side where
  | none
  | xNeg
  | xPos
  | yNeg
  | yPos
  | zNeg
  | zPos
  deriving DecidableEq, Repr

namespace Side

/-- The bit of a side. -/
def bit : Side → UInt8
  | none => 0
  | xNeg => 1
  | xPos => 2
  | yNeg => 4
  | yPos => 8
  | zNeg => 16
  | zPos => 32

/-- `Side::ALL`. -/
def all : UInt8 :=
  xNeg.bit ||| xPos.bit ||| yNeg.bit ||| yPos.bit ||| zNeg.bit ||| zPos.bit

end Side

/-- The states of the calibration: `State`. -/
inductive AccelState where
  | notRunning
  | started
  | waitingForRest
  | sampling
  | finished
  deriving DecidableEq, Repr

/-- The calibration. -/
structure AccelCalibration (F : Type*) where
  mean : RunningMean F
  mins : Vector3 F
  maxs : Vector3 F
  state : AccelState
  expectedSide : Side
  previousFinishedSide : Side
  finishedSides : UInt8
  lastStateChangeAt : UInt32
  deriving DecidableEq, Repr

namespace AccelCalibration

variable {F : Type*} [Scalar F]

/-- The calibration before any call. -/
def new : AccelCalibration F where
  mean := .reset
  mins := .const 0
  maxs := .const 0
  state := .notRunning
  expectedSide := .none
  previousFinishedSide := .none
  finishedSides := 0
  lastStateChangeAt := 0

section

variable (c : AccelCalibration F)

/-- `isRunning`. -/
def isRunning : Bool := c.state ≠ .notRunning ∧ c.state ≠ .finished

/-- What `setState` does to the other variables. -/
def enter (c : AccelCalibration F) : AccelState → AccelCalibration F
  | .notRunning =>
    { c with
      mean := .reset
      previousFinishedSide := .none
      finishedSides := 0
      mins := c.mins.map (· * 0)
      maxs := c.maxs.map (· * 0) }
  | .started | .waitingForRest => { c with mean := .reset, expectedSide := .none }
  | .sampling => { c with mean := .reset }
  | .finished => { c with expectedSide := .none }

/-- `setState`. -/
def setState (state : AccelState) (now : UInt32) : AccelCalibration F :=
  if c.state = state then c
  else enter
    { c with
      state := state
      lastStateChangeAt := if state = .notRunning then 0 else now } state

/-- `updateExtrema`, unless it fails. -/
def updateExtrema : Option (AccelCalibration F) :=
  match c.expectedSide with
  | .xPos => some { c with maxs := { c.maxs with x := c.mean.current.x } }
  | .xNeg => some { c with mins := { c.mins with x := c.mean.current.x } }
  | .yPos => some { c with maxs := { c.maxs with y := c.mean.current.y } }
  | .yNeg => some { c with mins := { c.mins with y := c.mean.current.y } }
  | .zPos => some { c with maxs := { c.maxs with z := c.mean.current.z } }
  | .zNeg => some { c with mins := { c.mins with z := c.mean.current.z } }
  | .none => none

/-- `cancel`. -/
def cancel (now : UInt32) : AccelCalibration F := c.setState .notRunning now

/-- `start`. -/
def start (now : UInt32) : AccelCalibration F := c.setState .started now

/-- `HAVE_ENOUGH_SAMPLES`. -/
def haveEnoughSamples (measurement : Measurement3d F) : Bool :=
  c.mean.numSamples ≥ 50 ∧ measurement.timestampInMsec - c.lastStateChangeAt ≥ 1000

/-- A measurement in the state `WAITING_FOR_REST`. -/
def feedWaiting (measurement : Measurement3d F) (side : Side) (now : UInt32) :
    AccelCalibration F :=
  if c.expectedSide = .none then { c with expectedSide := side }
  else if c.expectedSide = side then
    let c := { c with mean := c.mean.add measurement.value }
    if c.haveEnoughSamples measurement then c.setState .sampling now else c
  else c.setState .started now

/-- A measurement in the state `SAMPLING`: the side whose extremum it stores, and the new state. -/
def feedSampling (measurement : Measurement3d F) (side : Side) (now : UInt32) :
    Option Side × AccelCalibration F :=
  if c.expectedSide = side then
    let c := { c with mean := c.mean.add measurement.value }
    if c.haveEnoughSamples measurement then
      match c.updateExtrema with
      | some c =>
        let c := { c with
          previousFinishedSide := side
          finishedSides := c.finishedSides ||| side.bit }
        (some side, c.setState (if c.finishedSides = Side.all then .finished else .started) now)
      | none => (none, c.setState .started now)
    else (none, c)
  else (none, c.setState .started now)

/-- `feedMeasurement`: the side whose extremum it stores, and the new state. What it returns is the
negation of `isRunning`. -/
def feedMeasurement (identifySide : Vector3 F → Side) (measurement : Measurement3d F)
    (now : UInt32) : Option Side × AccelCalibration F :=
  match c.state with
  | .notRunning | .finished => (none, c)
  | .started => (none, c.setState .waitingForRest now)
  | .waitingForRest => (none, c.feedWaiting measurement (identifySide measurement.value) now)
  | .sampling => c.feedSampling measurement (identifySide measurement.value) now

end

/-! ### Runs -/

/-- The calls. -/
inductive Call (F : Type*) where
  | cancel
  | start
  | feedMeasurement (measurement : Measurement3d F)
  deriving DecidableEq, Repr

/-- A call that was made, the state in which it was made, and the side whose extremum it stored. -/
structure Entry (F : Type*) where
  state : AccelState
  call : Call F
  stored : Option Side
  deriving DecidableEq, Repr

/-- A call at a reading of the clock: the side whose extremum it stores, and the new state. -/
def apply (identifySide : Vector3 F → Side) (c : AccelCalibration F) (now : UInt32) :
    Call F → Option Side × AccelCalibration F
  | .cancel => (none, c.cancel now)
  | .start => (none, c.start now)
  | .feedMeasurement measurement => c.feedMeasurement identifySide measurement now

/-- A calibration, the state in which it was started last while it was not running, and the calls
since then, the last one first. -/
structure Tracked (F : Type*) where
  calibration : AccelCalibration F
  startedFrom : Option AccelState
  entries : List (Entry F)

/-- A calibration before any call. -/
def Tracked.new : Tracked F := ⟨.new, none, []⟩

/-- A call. -/
def track (identifySide : Vector3 F → Side) (t : Tracked F) (c : Call F × UInt32) : Tracked F :=
  let applied := t.calibration.apply identifySide c.2 c.1
  match c.1, t.calibration.isRunning with
  | .start, false => ⟨applied.2, some t.calibration.state, []⟩
  | call, _ =>
    { t with
      calibration := applied.2
      entries := ⟨t.calibration.state, call, applied.1⟩ :: t.entries }

/-! ### Extrema -/

/-- The component of a vector that belongs to a side. -/
def component (v : Vector3 F) : Side → F
  | .none => 0
  | .xNeg | .xPos => v.x
  | .yNeg | .yPos => v.y
  | .zNeg | .zPos => v.z

/-- The extremum of a side. -/
def extremum (c : AccelCalibration F) : Side → F
  | .none => 0
  | .xNeg => c.mins.x
  | .xPos => c.maxs.x
  | .yNeg => c.mins.y
  | .yPos => c.maxs.y
  | .zNeg => c.mins.z
  | .zPos => c.maxs.z

/-- A measurement that is sampled without storing an extremum. -/
def sampleEntry (measurement : Measurement3d F) : Entry F :=
  ⟨.sampling, .feedMeasurement measurement, none⟩

/-- The calls contain at least 50 consecutive samples of a side, the last of which stores their mean
as the extremum of the side, and this is the extremum that the calibration has. -/
def SampledSide (identifySide : Vector3 F → Side) (entries : List (Entry F))
    (c : AccelCalibration F) (side : Side) : Prop :=
  ∃ after before last samples,
    entries = after ++ ⟨.sampling, .feedMeasurement last, some side⟩ ::
      samples.map sampleEntry ++ before ∧
    50 ≤ (last :: samples).length ∧
    (∀ measurement ∈ last :: samples, identifySide measurement.value = side) ∧
    c.extremum side = component (meanOf ((last :: samples).map Measurement3d.value)).current side

section

variable {c d : AccelCalibration F} {identifySide : Vector3 F → Side} {entries : List (Entry F)}
  {side : Side}

/-- Later calls that leave the extremum alone. -/
theorem SampledSide.cons (h : SampledSide identifySide entries c side) (entry : Entry F)
    (hextremum : d.extremum side = c.extremum side) :
    SampledSide identifySide (entry :: entries) d side := by
  obtain ⟨after, before, last, samples, hentries, hcount, hside, hmean⟩ := h
  exact ⟨entry :: after, before, last, samples, by rw [hentries]; rfl, hcount, hside,
    hextremum.trans hmean⟩

/-- A sampled side is that of a call that stored its extremum. -/
theorem SampledSide.exists_mem (h : SampledSide identifySide entries c side) :
    ∃ entry ∈ entries, entry.stored = some side := by
  obtain ⟨after, before, last, samples, rfl, -⟩ := h
  exact ⟨⟨.sampling, .feedMeasurement last, some side⟩, by simp, rfl⟩

/-- What `updateExtrema` stores. -/
theorem exists_updateExtrema (hside : c.expectedSide ≠ .none) :
    ∃ mins maxs, c.updateExtrema = some { c with mins := mins, maxs := maxs } ∧
      ({ c with mins := mins, maxs := maxs } : AccelCalibration F).extremum c.expectedSide =
        component c.mean.current c.expectedSide ∧
      ∀ other, other ≠ c.expectedSide →
        ({ c with mins := mins, maxs := maxs } : AccelCalibration F).extremum other =
          c.extremum other := by
  rw [updateExtrema]
  cases hexpected : c.expectedSide with
  | none => exact absurd hexpected hside
  | xNeg | xPos | yNeg | yPos | zNeg | zPos =>
    refine ⟨_, _, rfl, rfl, fun other hother => ?_⟩
    cases other <;> first | rfl | exact absurd rfl hother

/-- A change to another state than `NOT_RUNNING` keeps the extrema and the finished sides. -/
theorem setState_keeps {state : AccelState} (hstate : state ≠ .notRunning) (now : UInt32) :
    (c.setState state now).state = state ∧
      (c.setState state now).finishedSides = c.finishedSides ∧
      (c.setState state now).extremum = c.extremum := by
  rw [setState]
  split_ifs with hsame
  · exact ⟨hsame, rfl, rfl⟩
  · cases state with
    | notRunning => exact absurd rfl hstate
    | started | waitingForRest | sampling | finished =>
      refine ⟨rfl, rfl, ?_⟩
      funext side
      cases side <;> rfl

/-! ### Finished sides -/

/-- The side is among the finished ones. -/
def HasSide (finishedSides : UInt8) (side : Side) : Prop := finishedSides &&& side.bit ≠ 0

theorem hasSide_all : ∀ side, side ≠ Side.none → HasSide Side.all side := by
  intro side hside
  rw [HasSide]
  cases side <;> first | exact absurd rfl hside | decide

theorem all_or_bit (side : Side) : Side.all ||| side.bit = Side.all := by
  cases side <;> decide

theorem HasSide.of_or {finishedSides : UInt8} {other : Side}
    (h : HasSide (finishedSides ||| other.bit) side) :
    HasSide finishedSides side ∨ side = other := by
  by_cases hside : side = other
  · exact Or.inr hside
  · refine Or.inl ?_
    have hdisjoint : other.bit &&& side.bit = 0 := by
      cases other <;> cases side <;> first | exact absurd rfl hside | rfl
    have hdistrib : (finishedSides ||| other.bit) &&& side.bit =
        (finishedSides &&& side.bit) ||| (other.bit &&& side.bit) :=
      UInt8.eq_of_toBitVec_eq BitVec.and_or_distrib_right
    rwa [HasSide, hdistrib, hdisjoint, UInt8.or_zero] at h

/-! ### One measurement -/

/-- A measurement in the state `WAITING_FOR_REST`. Sampling starts with an expected side and no
samples. -/
theorem feedWaiting_cases (hstate : c.state = .waitingForRest) (measurement : Measurement3d F)
    (now : UInt32) (hd : c.feedWaiting measurement side now = d) :
    d.finishedSides = c.finishedSides ∧ d.extremum = c.extremum ∧
      (d.state = .started ∨ d.state = .waitingForRest ∨
        d.state = .sampling ∧ d.expectedSide ≠ .none ∧ d.mean = meanOf []) := by
  rw [feedWaiting] at hd
  dsimp only at hd
  split_ifs at hd with hnone hside henough
  · rw [← hd]
    exact ⟨rfl, rfl, Or.inr (Or.inl hstate)⟩
  · rw [setState, if_neg (show c.state ≠ .sampling by rw [hstate]; nofun)] at hd
    rw [← hd]
    exact ⟨rfl, rfl, Or.inr (Or.inr ⟨rfl, hnone, rfl⟩)⟩
  · rw [← hd]
    exact ⟨rfl, rfl, Or.inr (Or.inl hstate)⟩
  · obtain ⟨hstarted, hsides, hextremum⟩ :=
      setState_keeps (c := c) (show AccelState.started ≠ .notRunning by nofun) now
    rw [← hd]
    exact ⟨hsides, hextremum, Or.inl hstarted⟩

/-- A measurement in the state `SAMPLING`: it is not of the expected side, or it is kept, or it is
the last one and the extremum of the side is stored. -/
theorem feedSampling_cases (hexpected : c.expectedSide ≠ .none) (measurement : Measurement3d F)
    (now : UInt32) {stored : Option Side}
    (hd : c.feedSampling measurement side now = (stored, d)) :
    (stored = none ∧ d.state = .started ∧ d.finishedSides = c.finishedSides ∧
      d.extremum = c.extremum) ∨
    (stored = none ∧ c.expectedSide = side ∧
      d = { c with mean := c.mean.add measurement.value }) ∨
    (stored = some side ∧ c.expectedSide = side ∧ 50 ≤ (c.mean.add measurement.value).numSamples ∧
      d.finishedSides = c.finishedSides ||| side.bit ∧
      d.extremum side = component (c.mean.add measurement.value).current side ∧
      (∀ other, other ≠ side → d.extremum other = c.extremum other) ∧
      d.state = if d.finishedSides = Side.all then .finished else .started) := by
  rw [feedSampling] at hd
  split_ifs at hd with hside
  · subst hside
    dsimp only at hd
    split_ifs at hd with henough
    · obtain ⟨mins, maxs, hupdate, hextremum, hother⟩ :=
        exists_updateExtrema (c := { c with mean := c.mean.add measurement.value }) hexpected
      rw [hupdate] at hd
      obtain ⟨rfl, rfl⟩ := Prod.mk.inj hd
      have hnext : (if c.finishedSides ||| c.expectedSide.bit = Side.all then AccelState.finished
          else .started) ≠ .notRunning := by
        split_ifs <;> nofun
      obtain ⟨hstate, hsides, hkeeps⟩ := setState_keeps
        (c := { c with
          mean := c.mean.add measurement.value
          mins := mins
          maxs := maxs
          previousFinishedSide := c.expectedSide
          finishedSides := c.finishedSides ||| c.expectedSide.bit }) hnext now
      refine Or.inr (Or.inr ⟨rfl, rfl, (of_decide_eq_true henough).1, hsides, ?_, ?_, ?_⟩)
      · exact (congrFun hkeeps _).trans hextremum
      · exact fun other hne => (congrFun hkeeps _).trans (hother other hne)
      · rw [hsides]
        exact hstate
    · obtain ⟨rfl, rfl⟩ := Prod.mk.inj hd
      exact Or.inr (Or.inl ⟨rfl, rfl, rfl⟩)
  · obtain ⟨rfl, rfl⟩ := Prod.mk.inj hd
    exact Or.inl ⟨rfl, setState_keeps (by nofun) now⟩

omit [Scalar F] in
theorem isRunning_eq_false : c.isRunning = false ↔ c.state = .notRunning ∨ c.state = .finished := by
  rw [isRunning]
  cases c.state <;> decide

/-- A measurement does nothing to a calibration that is not running. -/
theorem feedMeasurement_of_not_running (hrunning : c.isRunning = false)
    (measurement : Measurement3d F) (now : UInt32) :
    c.feedMeasurement identifySide measurement now = (none, c) := by
  rw [feedMeasurement]
  rcases isRunning_eq_false.mp hrunning with hstate | hstate <;> rw [hstate]

/-- What a measurement does to a calibration that is running. It is no sample, or it is kept as a
sample, or it is the last sample of its side and the extremum of the side is stored. -/
theorem feedMeasurement_cases (hrunning : c.isRunning = true)
    (hexpected : c.state = .sampling → c.expectedSide ≠ .none) (measurement : Measurement3d F)
    (now : UInt32) {stored : Option Side}
    (hd : c.feedMeasurement identifySide measurement now = (stored, d)) :
    (stored = none ∧ d.finishedSides = c.finishedSides ∧ d.extremum = c.extremum ∧
      (d.state = .started ∨ d.state = .waitingForRest ∨
        d.state = .sampling ∧ d.expectedSide ≠ .none ∧ d.mean = meanOf [])) ∨
    (c.state = .sampling ∧ stored = none ∧ c.expectedSide = identifySide measurement.value ∧
      d = { c with mean := c.mean.add measurement.value }) ∨
    (c.state = .sampling ∧ stored = some (identifySide measurement.value) ∧
      c.expectedSide = identifySide measurement.value ∧
      50 ≤ (c.mean.add measurement.value).numSamples ∧
      d.finishedSides = c.finishedSides ||| (identifySide measurement.value).bit ∧
      d.extremum (identifySide measurement.value) =
        component (c.mean.add measurement.value).current (identifySide measurement.value) ∧
      (∀ other, other ≠ identifySide measurement.value → d.extremum other = c.extremum other) ∧
      d.state = if d.finishedSides = Side.all then .finished else .started) := by
  rw [feedMeasurement] at hd
  cases hstate : c.state with
  | notRunning | finished =>
    rw [isRunning, hstate] at hrunning
    exact absurd hrunning (by decide)
  | started =>
    rw [hstate] at hd
    obtain ⟨rfl, rfl⟩ := Prod.mk.inj hd
    obtain ⟨hnext, hsides, hextremum⟩ :=
      setState_keeps (c := c) (show AccelState.waitingForRest ≠ .notRunning by nofun) now
    exact Or.inl ⟨rfl, hsides, hextremum, Or.inr (Or.inl hnext)⟩
  | waitingForRest =>
    rw [hstate] at hd
    obtain ⟨rfl, hfed⟩ := Prod.mk.inj hd
    exact Or.inl ⟨rfl, feedWaiting_cases hstate measurement now hfed⟩
  | sampling =>
    rw [hstate] at hd
    rcases feedSampling_cases (hexpected hstate) measurement now hd with
      ⟨hstored, hnext, hsides, hextremum⟩ | hkept | hlast
    · exact Or.inl ⟨hstored, hsides, hextremum, Or.inl hnext⟩
    · rw [hstate] at hkept
      exact Or.inr (Or.inl ⟨rfl, hkept⟩)
    · exact Or.inr (Or.inr ⟨rfl, hlast⟩)

/-! ### The invariant -/

/-- How far a calibration has come. If it was started in the state `NOT_RUNNING`, its finished sides
were sampled since. If it was started in the state `FINISHED`, all sides count as finished, and none
was sampled since. -/
def Progress (identifySide : Vector3 F → Side) (t : Tracked F) : Prop :=
  (t.startedFrom = some .notRunning ∧ ∀ side, HasSide t.calibration.finishedSides side →
    SampledSide identifySide t.entries t.calibration side) ∨
  (t.startedFrom = some .finished ∧ t.calibration.finishedSides = Side.all ∧
    ∀ entry ∈ t.entries, entry.stored = none)

/-- What holds after every run. -/
structure Consistent (identifySide : Vector3 F → Side) (t : Tracked F) : Prop where
  notRunning : t.calibration.state = .notRunning → t.calibration.finishedSides = 0
  finished : t.calibration.state = .finished → t.calibration.finishedSides = Side.all
  progress : t.calibration.isRunning = true → Progress identifySide t
  sampling : t.calibration.state = .sampling → t.calibration.expectedSide ≠ .none ∧
    ∃ (samples : List (Measurement3d F)) (before : List (Entry F)),
      t.entries = samples.map sampleEntry ++ before ∧
      (∀ measurement ∈ samples,
        identifySide measurement.value = t.calibration.expectedSide) ∧
      t.calibration.mean = meanOf (samples.map Measurement3d.value)

variable {t : Tracked F}

theorem consistent_new : Consistent identifySide (.new : Tracked F) :=
  ⟨fun _ => rfl, nofun, nofun, nofun⟩

theorem Progress.push (h : Progress identifySide t) {entry : Entry F}
    (hstored : entry.stored = none) (hsides : d.finishedSides = t.calibration.finishedSides)
    (hextremum : d.extremum = t.calibration.extremum) :
    Progress identifySide { t with calibration := d, entries := entry :: t.entries } := by
  refine h.imp (fun h => ⟨h.1, fun side hside => ?_⟩) fun h => ⟨h.1, hsides.trans h.2.1, ?_⟩
  · dsimp only at hside
    rw [hsides] at hside
    exact (h.2 side hside).cons entry (congrFun hextremum side)
  · exact List.forall_mem_cons.mpr ⟨hstored, h.2.2⟩

/-- A call that stores nothing and leaves a calibration in the state `STARTED` or
`WAITING_FOR_REST`. -/
theorem Consistent.push (h : Consistent identifySide t) {entry : Entry F}
    (hrunning : t.calibration.isRunning = true) (hstored : entry.stored = none)
    (hstate : d.state = .started ∨ d.state = .waitingForRest)
    (hsides : d.finishedSides = t.calibration.finishedSides)
    (hextremum : d.extremum = t.calibration.extremum) :
    Consistent identifySide { t with calibration := d, entries := entry :: t.entries } := by
  refine ⟨fun hd => ?_, fun hd => ?_, fun _ => (h.progress hrunning).push hstored hsides hextremum,
    fun hd => ?_⟩
  all_goals rcases hstate with hstate | hstate <;> exact nomatch hstate.symm.trans hd

/-! ### Calls -/

/-- A calibration that is cancelled is not running. -/
theorem state_cancel (now : UInt32) : (c.cancel now).state = .notRunning := by
  rw [cancel, setState]
  by_cases hstate : c.state = .notRunning
  · rw [if_pos hstate]
    exact hstate
  · rw [if_neg hstate]
    rfl

theorem Consistent.cancel (h : Consistent identifySide t) (now : UInt32) :
    Consistent identifySide (track identifySide t (.cancel, now)) := by
  have hstate : (t.calibration.cancel now).state = .notRunning := state_cancel now
  have hsides : (t.calibration.cancel now).finishedSides = 0 := by
    rw [AccelCalibration.cancel, setState]
    by_cases hnot : t.calibration.state = .notRunning
    · rw [if_pos hnot]
      exact h.notRunning hnot
    · rw [if_neg hnot]
      rfl
  refine ⟨fun _ => hsides, fun hd => ?_, fun hd => ?_, fun hd => ?_⟩
  · exact nomatch hstate.symm.trans hd
  · exact nomatch (isRunning_eq_false.mpr (Or.inl hstate)).symm.trans hd
  · exact nomatch hstate.symm.trans hd

theorem Consistent.start (h : Consistent identifySide t) (now : UInt32) :
    Consistent identifySide (track identifySide t (.start, now)) := by
  obtain ⟨hstate, hsides, hextremum⟩ :=
    setState_keeps (c := t.calibration) (show AccelState.started ≠ .notRunning by nofun) now
  cases hrunning : t.calibration.isRunning with
  | true =>
    rw [track, hrunning]
    exact h.push hrunning rfl (Or.inl hstate) hsides hextremum
  | false =>
    rw [track, hrunning]
    refine ⟨fun hd => ?_, fun hd => ?_, fun _ => ?_, fun hd => ?_⟩
    · exact nomatch hstate.symm.trans hd
    · exact nomatch hstate.symm.trans hd
    swap
    · exact nomatch hstate.symm.trans hd
    rcases isRunning_eq_false.mp hrunning with hnot | hfinished
    · refine Or.inl ⟨congrArg some hnot, fun side hside => ?_⟩
      rw [HasSide] at hside
      dsimp only [apply, AccelCalibration.start] at hside
      rw [hsides, h.notRunning hnot, UInt8.zero_and] at hside
      exact absurd rfl hside
    · exact Or.inr ⟨congrArg some hfinished, hsides.trans (h.finished hfinished), nofun⟩

theorem track_feedMeasurement (measurement : Measurement3d F) (now : UInt32) :
    track identifySide t (.feedMeasurement measurement, now) = { t with
      calibration := (t.calibration.feedMeasurement identifySide measurement now).2
      entries := ⟨t.calibration.state, .feedMeasurement measurement,
        (t.calibration.feedMeasurement identifySide measurement now).1⟩ :: t.entries } := rfl

/-- A measurement in the state `SAMPLING` that stores an extremum. -/
theorem Consistent.sampledSide (h : Consistent identifySide t)
    (hstate : t.calibration.state = .sampling) {measurement : Measurement3d F}
    (hside : t.calibration.expectedSide = identifySide measurement.value)
    (hcount : 50 ≤ (t.calibration.mean.add measurement.value).numSamples)
    (hextremum : d.extremum (identifySide measurement.value) =
      component (t.calibration.mean.add measurement.value).current
        (identifySide measurement.value)) :
    SampledSide identifySide (⟨.sampling, .feedMeasurement measurement,
      some (identifySide measurement.value)⟩ :: t.entries) d (identifySide measurement.value) := by
  obtain ⟨-, samples, before, hentries, hsamples, hmean⟩ := h.sampling hstate
  have hadd : t.calibration.mean.add measurement.value =
      meanOf ((measurement :: samples).map Measurement3d.value) := by
    rw [hmean]
    rfl
  rw [hadd, numSamples_meanOf, List.length_map] at hcount
  refine ⟨[], before, measurement, samples, ?_, hcount, ?_, ?_⟩
  · rw [hentries]
    rfl
  · exact List.forall_mem_cons.mpr ⟨rfl, fun m hm => (hsamples m hm).trans hside⟩
  · rw [hextremum, hadd]

/-- Progress after an extremum was stored: either all sides that count as finished were sampled, or
all sides count as finished and only one was sampled. -/
theorem Consistent.progress_stored (h : Consistent identifySide t)
    (hstate : t.calibration.state = .sampling) {measurement : Measurement3d F}
    (hside : t.calibration.expectedSide = identifySide measurement.value)
    (hcount : 50 ≤ (t.calibration.mean.add measurement.value).numSamples)
    (hsides : d.finishedSides =
      t.calibration.finishedSides ||| (identifySide measurement.value).bit)
    (hextremum : d.extremum (identifySide measurement.value) =
      component (t.calibration.mean.add measurement.value).current
        (identifySide measurement.value))
    (hother : ∀ other, other ≠ identifySide measurement.value →
      d.extremum other = t.calibration.extremum other) :
    let entries : List (Entry F) := ⟨.sampling, .feedMeasurement measurement,
      some (identifySide measurement.value)⟩ :: t.entries
    (t.startedFrom = some .notRunning ∧
      ∀ side, HasSide d.finishedSides side → SampledSide identifySide entries d side) ∨
    (t.startedFrom = some .finished ∧ d.finishedSides = Side.all ∧
      ∀ side, SampledSide identifySide entries d side → side = identifySide measurement.value) := by
  intro entries
  have hsampled := h.sampledSide hstate hside hcount hextremum
  have hrunning : t.calibration.isRunning = true := by
    rw [isRunning, hstate]
    rfl
  refine (h.progress hrunning).imp (fun hp => ⟨hp.1, fun side hhas => ?_⟩)
    fun hp => ⟨hp.1, ?_, fun side hs => ?_⟩
  · by_cases heq : side = identifySide measurement.value
    · rw [heq]
      exact hsampled
    · rw [hsides] at hhas
      rcases hhas.of_or with hhas | hside
      · exact (hp.2 side hhas).cons _ (hother side heq)
      · exact absurd hside heq
  · rw [hsides, hp.2.1, all_or_bit]
  · obtain ⟨entry, hentry, hstored⟩ := hs.exists_mem
    rcases List.mem_cons.mp hentry with rfl | hentry
    · exact (Option.some.inj hstored).symm
    · exact nomatch (hp.2.2 entry hentry).symm.trans hstored

theorem Consistent.feedMeasurement (h : Consistent identifySide t)
    (measurement : Measurement3d F) (now : UInt32) :
    Consistent identifySide (track identifySide t (.feedMeasurement measurement, now)) := by
  rw [track_feedMeasurement]
  cases hrunning : t.calibration.isRunning with
  | false =>
    rw [feedMeasurement_of_not_running hrunning]
    refine ⟨h.notRunning, h.finished, fun hd => ?_, fun hd => ?_⟩
    · exact nomatch hrunning.symm.trans hd
    · dsimp only at hd
      rw [isRunning, hd] at hrunning
      exact absurd hrunning (by decide)
  | true =>
    rcases hd : t.calibration.feedMeasurement identifySide measurement now with ⟨stored, d⟩
    rcases feedMeasurement_cases hrunning (fun hs => (h.sampling hs).1) measurement now hd with
      ⟨rfl, hsides, hextremum, hnext⟩ | ⟨hstate, rfl, hside, rfl⟩ |
        ⟨hstate, rfl, hside, hcount, hsides, hextremum, hother, hnext⟩
    · rcases hnext with hnext | hnext | ⟨hnext, hexpected, hmean⟩
      · exact h.push hrunning rfl (Or.inl hnext) hsides hextremum
      · exact h.push hrunning rfl (Or.inr hnext) hsides hextremum
      · refine ⟨fun hd => ?_, fun hd => ?_, fun _ => ?_, fun _ => ?_⟩
        · exact nomatch hnext.symm.trans hd
        · exact nomatch hnext.symm.trans hd
        · exact (h.progress hrunning).push rfl hsides hextremum
        · exact ⟨hexpected, [], _, rfl, nofun, hmean⟩
    · obtain ⟨hexpected, samples, before, hentries, hsamples, hmean⟩ := h.sampling hstate
      refine ⟨fun hd => ?_, fun hd => ?_, fun _ => ?_, fun _ => ?_⟩
      · exact nomatch hstate.symm.trans hd
      · exact nomatch hstate.symm.trans hd
      · exact (h.progress hrunning).push rfl rfl rfl
      · refine ⟨hexpected, measurement :: samples, before, ?_, ?_, ?_⟩
        · dsimp only
          rw [hentries, hstate]
          rfl
        · exact List.forall_mem_cons.mpr ⟨hside.symm, hsamples⟩
        · dsimp only
          rw [hmean]
          rfl
    · have hprogress := h.progress_stored hstate hside hcount hsides hextremum hother
      rw [hstate]
      by_cases hall : d.finishedSides = Side.all
      · rw [if_pos hall] at hnext
        refine ⟨fun hd => ?_, fun _ => hall, fun hd => ?_, fun hd => ?_⟩
        · exact nomatch hnext.symm.trans hd
        · exact nomatch (isRunning_eq_false.mpr (Or.inr hnext)).symm.trans hd
        · exact nomatch hnext.symm.trans hd
      · rw [if_neg hall] at hnext
        refine ⟨fun hd => ?_, fun hd => ?_, fun _ => ?_, fun hd => ?_⟩
        · exact nomatch hnext.symm.trans hd
        · exact nomatch hnext.symm.trans hd
        · rcases hprogress with hp | ⟨-, hp, -⟩
          · exact Or.inl hp
          · exact absurd hp hall
        · exact nomatch hnext.symm.trans hd

/-- Every call keeps the invariant. -/
theorem Consistent.track (h : Consistent identifySide t) (c : Call F × UInt32) :
    Consistent identifySide (AccelCalibration.track identifySide t c) := by
  obtain ⟨call, now⟩ := c
  cases call with
  | cancel => exact h.cancel now
  | start => exact h.start now
  | feedMeasurement measurement => exact h.feedMeasurement measurement now

theorem consistent_foldl (h : Consistent identifySide t) (calls : List (Call F × UInt32)) :
    Consistent identifySide (calls.foldl (AccelCalibration.track identifySide) t) := by
  induction calls generalizing t with
  | nil => exact h
  | cons c calls ih => exact ih (h.track c)

/-- Only a measurement that stores an extremum finishes a calibration. -/
theorem Consistent.exists_of_finished (h : Consistent identifySide t) (c : Call F × UInt32)
    (hbefore : t.calibration.state ≠ .finished)
    (hafter : (AccelCalibration.track identifySide t c).calibration.state = .finished) :
    ∃ side, (t.startedFrom = some .notRunning ∧ ∀ other, other ≠ .none →
        SampledSide identifySide (AccelCalibration.track identifySide t c).entries
          (AccelCalibration.track identifySide t c).calibration other) ∨
      (t.startedFrom = some .finished ∧ ∀ other,
        SampledSide identifySide (AccelCalibration.track identifySide t c).entries
          (AccelCalibration.track identifySide t c).calibration other → other = side) := by
  obtain ⟨call, now⟩ := c
  cases call with
  | cancel => exact nomatch (state_cancel now).symm.trans hafter
  | start =>
    have hstart := (setState_keeps (c := t.calibration)
      (show AccelState.started ≠ .notRunning by nofun) now).1
    rw [AccelCalibration.track] at hafter
    cases hrunning : t.calibration.isRunning with
    | true | false =>
      rw [hrunning] at hafter
      exact nomatch hstart.symm.trans hafter
  | feedMeasurement measurement =>
    rw [track_feedMeasurement] at hafter ⊢
    cases hrunning : t.calibration.isRunning with
    | false =>
      rw [feedMeasurement_of_not_running hrunning] at hafter
      exact absurd hafter hbefore
    | true =>
      rcases hd : t.calibration.feedMeasurement identifySide measurement now with ⟨stored, d⟩
      rw [hd] at hafter
      rcases feedMeasurement_cases hrunning (fun hs => (h.sampling hs).1) measurement now hd with
        ⟨-, -, -, hnext⟩ | ⟨hstate, -, -, rfl⟩ |
          ⟨hstate, rfl, hside, hcount, hsides, hextremum, hother, hnext⟩
      · rcases hnext with hnext | hnext | ⟨hnext, -⟩ <;> exact nomatch hnext.symm.trans hafter
      · exact nomatch hstate.symm.trans hafter
      · have hall : d.finishedSides = Side.all := by
          by_contra hne
          rw [if_neg hne] at hnext
          exact nomatch hnext.symm.trans hafter
        rw [hstate]
        refine ⟨identifySide measurement.value, ?_⟩
        refine (h.progress_stored hstate hside hcount hsides hextremum hother).imp
          (fun hp => ⟨hp.1, fun other hne => hp.2 other ?_⟩) fun hp => ⟨hp.1, hp.2.2⟩
        rw [hall]
        exact hasSide_all other hne

end

/-- **When the extrema come from the calibration that finishes.** After any calls, let a call finish
the calibration. All its extrema are means of at least 50 consecutive samples of their sides since
its start, exactly when it was started in the state `NOT_RUNNING`. -/
theorem sampled_iff_startedFrom (identifySide : Vector3 F → Side)
    (calls : List (Call F × UInt32)) (last : Call F × UInt32)
    (hbefore : (calls.foldl (track identifySide) .new).calibration.state ≠ .finished)
    (hafter : (track identifySide (calls.foldl (track identifySide) .new) last).calibration.state =
      .finished) :
    let before := calls.foldl (track identifySide) .new
    let after := track identifySide before last
    (∀ side, side ≠ .none → SampledSide identifySide after.entries after.calibration side) ↔
      before.startedFrom = some .notRunning := by
  intro before after
  have hconsistent : Consistent identifySide before := consistent_foldl consistent_new calls
  obtain ⟨side, ⟨hfrom, hall⟩ | ⟨hfrom, honly⟩⟩ :=
    hconsistent.exists_of_finished last hbefore hafter
  · exact ⟨fun _ => hfrom, fun _ => hall⟩
  · refine ⟨fun hall => ?_, fun hnot => nomatch hfrom.symm.trans hnot⟩
    have hneg := honly .xNeg (hall .xNeg nofun)
    have hpos := honly .xPos (hall .xPos nofun)
    exact nomatch hneg.trans hpos.symm

/-! ### A calibration in integers -/

instance : Scalar Int where
  zero := 0
  add := Int.add
  sub := Int.sub
  neg := Int.neg
  mul := Int.mul
  div := Int.tdiv
  natCast := Int.ofNat

/-- The side of a vector along an axis. -/
def axisSide (v : Vector3 Int) : Side :=
  if v.x > 0 then .xPos else if v.x < 0 then .xNeg
  else if v.y > 0 then .yPos else if v.y < 0 then .yNeg
  else if v.z > 0 then .zPos else if v.z < 0 then .zNeg else .none

/-- The measurements of two seconds at rest, one every 20 ms. -/
def restOn (v : Vector3 Int) (startAt : ℕ) : List (Call Int × UInt32) :=
  (List.range 102).map fun k =>
    (.feedMeasurement ⟨UInt32.ofNat (startAt + 20 * k), v⟩, UInt32.ofNat (startAt + 20 * k))

/-- A calibration on all sides. -/
def restOnAllSides : List (Call Int × UInt32) :=
  (.start, 0) :: (restOn ⟨1, 0, 0⟩ 0 ++ restOn ⟨-1, 0, 0⟩ 2040 ++ restOn ⟨0, 1, 0⟩ 4080 ++
    restOn ⟨0, -1, 0⟩ 6120 ++ restOn ⟨0, 0, 1⟩ 8160 ++ restOn ⟨0, 0, -1⟩ 10200)

/-- The first calibration samples all sides. -/
theorem sampled_first :
    (track axisSide (restOnAllSides.dropLast.foldl (track axisSide) .new)
      (.feedMeasurement ⟨12220, ⟨0, 0, -1⟩⟩, 12220)).calibration.state = .finished ∧
    ∀ side, side ≠ .none → SampledSide axisSide
      (track axisSide (restOnAllSides.dropLast.foldl (track axisSide) .new)
        (.feedMeasurement ⟨12220, ⟨0, 0, -1⟩⟩, 12220)).entries
      (track axisSide (restOnAllSides.dropLast.foldl (track axisSide) .new)
        (.feedMeasurement ⟨12220, ⟨0, 0, -1⟩⟩, 12220)).calibration side := by
  have hrunning : (restOnAllSides.dropLast.foldl (track axisSide) .new).calibration.state ≠
      .finished := by decide +kernel
  have hfinished : (track axisSide (restOnAllSides.dropLast.foldl (track axisSide) .new)
      (.feedMeasurement ⟨12220, ⟨0, 0, -1⟩⟩, 12220)).calibration.state = .finished := by
    decide +kernel
  have hfrom : (restOnAllSides.dropLast.foldl (track axisSide) .new).startedFrom =
      some .notRunning := by decide +kernel
  exact ⟨hfinished, (sampled_iff_startedFrom axisSide _ _ hrunning hfinished).mpr hfrom⟩

/-- The next calibration finishes after one side. -/
theorem not_sampled_next :
    let calls := restOnAllSides ++ (.start, 13000) :: restOn ⟨1, 0, 0⟩ 13000
    let before := calls.dropLast.foldl (track axisSide) .new
    let after := calls.foldl (track axisSide) .new
    before.calibration.state ≠ .finished ∧ after.calibration.state = .finished ∧
      ¬ ∀ side, side ≠ .none → SampledSide axisSide after.entries after.calibration side := by
  intro calls before after
  refine ⟨by decide +kernel, by decide +kernel, fun hall => ?_⟩
  obtain ⟨entry, hentry, hstored⟩ := (hall .xNeg nofun).exists_mem
  have hnone : ∀ entry ∈ after.entries, entry.stored ≠ some .xNeg := by decide +kernel
  exact hnone entry hentry hstored

end AccelCalibration

end TellerOBC
