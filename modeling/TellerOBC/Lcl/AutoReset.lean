import TellerOBC.Foundations.StepSystem

/-!
# The auto-reset logic of the current limiters

`modules/lcl.cpp`: after liftoff, a latching current limiter (LCL) that is triggered is reset
automatically, a while after the trigger and at most ten times in a row. An update samples the LO
signal and, if it is high, the LCLs. The first update with a high LO detects the liftoff.

An update reads the clock once. The samples and the reading are inputs, and the LCLs that are reset
are outputs; the pulses on the reset pins and the log messages are left out.

## Main definitions

* `TellerOBC.Lcl`, `TellerOBC.Lcl.AutoReset`, `TellerOBC.Lcl.State`: the static variables.
* `TellerOBC.Lcl.updateAutoResetLogic`.
* `TellerOBC.Lcl.AutoReset.Moves`: the transitions of one LCL after the detection.
* `TellerOBC.Lcl.Clocked`, `TellerOBC.Lcl.step`: the logic under a clock that never goes back.

## Main results

* `TellerOBC.Lcl.update_of_takeoff`: what an update does after the detection.
* `TellerOBC.Lcl.consistent_run`: the invariant of an LCL.
-/

namespace TellerOBC

/-- The latching current limiters: `lcl_t`. -/
inductive Lcl where
  | gmmLcl
  | scmLcl
  | sucLcl1
  | sucLcl2
  | sucLcl3
  | camLcl
  deriving DecidableEq, Repr

namespace Lcl

/-- The LCLs in the order of their numbers. -/
def all : List Lcl := [gmmLcl, scmLcl, sucLcl1, sucLcl2, sucLcl3, camLcl]

/-! ### The state -/

/-- `DELAY_AFTER_AUTO_RESET_MSEC`. -/
def delayAfterAutoResetMsec : UInt32 := 3000

/-- `DELAY_BEFORE_AUTO_RESET_MSEC`. -/
def delayBeforeAutoResetMsec : UInt32 := 3000

/-- `RECOVERY_PERIOD_MSEC`. -/
def recoveryPeriodMsec : UInt32 := 10000

/-- `MAX_RESET_COUNT`. -/
def maxResetCount : UInt8 := 10

/-- `lcl_auto_reset_state_t`. -/
inductive AutoResetState where
  | disabled
  | off
  | on
  | triedRecently
  | waiting
  | givenUp
  deriving DecidableEq, Repr

/-- `lcl_auto_reset_t`. -/
structure AutoReset where
  state : AutoResetState
  lastTriggerAt : UInt32
  lastResetAt : UInt32
  resetCounter : UInt8
  deriving DecidableEq, Repr

/-- The static variables. -/
structure State where
  lastLiftoffStartedAtMsec : UInt32
  autoReset : Lcl → AutoReset

/-- What an update reads: the LO signal, the query pins of the LCLs, the answers of
`wasBootedAfterLiftoff` and the clock. -/
structure Input where
  lo : Bool
  triggered : Lcl → Bool
  wasBootedAfterLiftoff : Lcl → Bool
  now : UInt32

/-! ### Updates -/

/-- An LCL after `clearAutoResetLogic`. -/
def AutoReset.cleared : AutoReset := ⟨.disabled, 0, 0, 0⟩

/-- `clearAutoResetLogic`. -/
def clearAutoResetLogic : State := ⟨0, fun _ => .cleared⟩

/-- What `updateAutoResetLogicAfterTakeoff` makes of an LCL when it detects the liftoff. -/
def AutoReset.atLiftoff (triggered wasBootedAfterLiftoff : Bool) : AutoReset where
  state := if triggered && !wasBootedAfterLiftoff then .off else .on
  lastTriggerAt := 0
  lastResetAt := 0
  resetCounter := 0

/-- What `updateAutoResetLogicAfterTakeoff` makes of an LCL later: whether it is reset, and its new
state. -/
def AutoReset.afterTakeoff (a : AutoReset) (triggered : Bool) (now : UInt32) : Bool × AutoReset :=
  match a.state with
  | .on =>
    if triggered then
      if a.resetCounter ≥ maxResetCount then
        (false, { a with state := .givenUp, resetCounter := 0 })
      else (false, { a with lastTriggerAt := now, state := .waiting })
    else if a.lastResetAt > 0 ∧ now - a.lastResetAt ≥ recoveryPeriodMsec then
      (false, { a with resetCounter := 0, lastResetAt := 0, lastTriggerAt := 0 })
    else (false, a)
  | .waiting =>
    if !triggered then (false, { a with state := .on })
    else if now - a.lastTriggerAt ≥ delayBeforeAutoResetMsec then
      (true, { a with
        lastResetAt := now
        state := .triedRecently
        resetCounter := a.resetCounter + 1 })
    else (false, a)
  | .triedRecently =>
    if now - a.lastResetAt ≥ delayAfterAutoResetMsec then (false, { a with state := .on })
    else (false, a)
  | _ => (false, a)

section

variable (s : State) (input : Input)

/-- `updateAutoResetLogicAfterTakeoff`: the LCLs that it resets, and the new state. -/
def updateAutoResetLogicAfterTakeoff : List Lcl × State :=
  if s.lastLiftoffStartedAtMsec = 0 then
    ([], {
      lastLiftoffStartedAtMsec := input.now
      autoReset := fun i => .atLiftoff (input.triggered i) (input.wasBootedAfterLiftoff i) })
  else
    (all.filter fun i => ((s.autoReset i).afterTakeoff (input.triggered i) input.now).1,
      { s with
        autoReset := fun i => ((s.autoReset i).afterTakeoff (input.triggered i) input.now).2 })

/-- `updateAutoResetLogicBeforeTakeoff`. -/
def updateAutoResetLogicBeforeTakeoff : State :=
  if s.lastLiftoffStartedAtMsec ≠ 0 then clearAutoResetLogic else s

/-- `updateAutoResetLogic`: the LCLs that it resets, and the new state. -/
def updateAutoResetLogic : List Lcl × State :=
  if input.lo then updateAutoResetLogicAfterTakeoff s input
  else ([], updateAutoResetLogicBeforeTakeoff s)

end

/-! ### The transitions of an LCL -/

namespace AutoReset

/-- The transitions of an LCL after the detection of the liftoff, and whether it is reset. -/
inductive Moves (a : AutoReset) (triggered : Bool) (now : UInt32) : Bool → AutoReset → Prop
  | giveUp (hstate : a.state = .on) (htriggered : triggered = true)
      (hcount : 10 ≤ a.resetCounter.toNat) :
      Moves a triggered now false { a with state := .givenUp, resetCounter := 0 }
  | wait (hstate : a.state = .on) (htriggered : triggered = true)
      (hcount : a.resetCounter.toNat < 10) :
      Moves a triggered now false { a with lastTriggerAt := now, state := .waiting }
  | recover (hstate : a.state = .on) (htriggered : triggered = false) (hreset : 0 < a.lastResetAt)
      (hperiod : recoveryPeriodMsec ≤ now - a.lastResetAt) :
      Moves a triggered now false ⟨.on, 0, 0, 0⟩
  | abandon (hstate : a.state = .waiting) (htriggered : triggered = false) :
      Moves a triggered now false { a with state := .on }
  | reset (hstate : a.state = .waiting) (htriggered : triggered = true)
      (hdelay : delayBeforeAutoResetMsec ≤ now - a.lastTriggerAt) :
      Moves a triggered now true { a with
        lastResetAt := now
        state := .triedRecently
        resetCounter := a.resetCounter + 1 }
  | inspect (hstate : a.state = .triedRecently)
      (hdelay : delayAfterAutoResetMsec ≤ now - a.lastResetAt) :
      Moves a triggered now false { a with state := .on }
  | stay (hon : a.state = .on → triggered = false)
      (hwaiting : a.state = .waiting → triggered = true) : Moves a triggered now false a

theorem moves_afterTakeoff (a : AutoReset) (triggered : Bool) (now : UInt32) :
    Moves a triggered now (a.afterTakeoff triggered now).1 (a.afterTakeoff triggered now).2 := by
  rw [afterTakeoff]
  cases hstate : a.state with
  | on =>
    dsimp only
    split_ifs with htriggered hcount hrecover
    · exact .giveUp hstate htriggered (UInt8.le_iff_toNat_le.mp hcount)
    · exact .wait hstate htriggered (UInt8.lt_iff_toNat_lt.mp (UInt8.not_le.mp hcount))
    · exact .recover hstate (eq_false_of_ne_true htriggered) hrecover.1 hrecover.2
    · exact .stay (fun _ => eq_false_of_ne_true htriggered)
        fun hwaiting => nomatch hstate.symm.trans hwaiting
  | waiting =>
    dsimp only
    split_ifs with htriggered hdelay
    · exact .abandon hstate (by simpa using htriggered)
    · exact .reset hstate (by simpa using htriggered) hdelay
    · exact .stay (fun hon => nomatch hstate.symm.trans hon) fun _ => by simpa using htriggered
  | triedRecently =>
    dsimp only
    split_ifs with hdelay
    · exact .inspect hstate hdelay
    · exact .stay (fun hon => nomatch hstate.symm.trans hon)
        fun hwaiting => nomatch hstate.symm.trans hwaiting
  | disabled | off | givenUp =>
    exact .stay (fun hon => nomatch hstate.symm.trans hon)
      fun hwaiting => nomatch hstate.symm.trans hwaiting

/-- What holds of an LCL at a reading of the clock. -/
structure Valid (now : UInt32) (a : AutoReset) : Prop where
  resetCounter_le : a.resetCounter.toNat ≤ 10
  resetCounter_lt : a.state = .waiting → a.resetCounter.toNat < 10
  lastTriggerAt_le : a.lastTriggerAt ≤ now
  lastResetAt_le : a.lastResetAt ≤ now

theorem valid_of_eq_zero {a : AutoReset} (now : UInt32) (hcounter : a.resetCounter = 0)
    (htrigger : a.lastTriggerAt = 0) (hreset : a.lastResetAt = 0) : Valid now a where
  resetCounter_le := by rw [hcounter]; decide
  resetCounter_lt := fun _ => by rw [hcounter]; decide
  lastTriggerAt_le := htrigger ▸ UInt32.zero_le
  lastResetAt_le := hreset ▸ UInt32.zero_le

theorem Valid.moves {a b : AutoReset} {triggered reset : Bool} {now now' : UInt32}
    (h : Valid now a) (hnow : now ≤ now') (hmove : Moves a triggered now' reset b) :
    Valid now' b := by
  have htrigger := UInt32.le_trans h.lastTriggerAt_le hnow
  have hreset := UInt32.le_trans h.lastResetAt_le hnow
  cases hmove with
  | giveUp => exact ⟨Nat.zero_le _, nofun, htrigger, hreset⟩
  | wait _ _ hcount => exact ⟨h.resetCounter_le, fun _ => hcount, UInt32.le_refl _, hreset⟩
  | recover => exact valid_of_eq_zero now' rfl rfl rfl
  | abandon => exact ⟨h.resetCounter_le, nofun, htrigger, hreset⟩
  | inspect => exact ⟨h.resetCounter_le, nofun, htrigger, hreset⟩
  | reset hstate =>
    have hcount := h.resetCounter_lt hstate
    refine ⟨?_, nofun, htrigger, UInt32.le_refl _⟩
    rw [UInt8.toNat_add]
    change (a.resetCounter.toNat + 1) % 256 ≤ 10
    omega
  | stay => exact ⟨h.resetCounter_le, h.resetCounter_lt, htrigger, hreset⟩

end AutoReset

/-! ### Runs -/

/-- The logic and the last reading of the clock. -/
structure Clocked where
  state : State
  now : UInt32

/-- The logic after `init`. -/
def Clocked.init : Clocked := ⟨clearAutoResetLogic, 0⟩

/-- An update. The clock never goes back and is never zero. -/
def step (c : Clocked) (input : Input) : Option Clocked :=
  if 0 < input.now ∧ c.now ≤ input.now then
    some ⟨(updateAutoResetLogic c.state input).2, input.now⟩
  else none

/-- The times at which an LCL is reset. -/
def autoResetTimes (i : Lcl) (s : State) : List Input → List ℕ
  | [] => []
  | input :: inputs =>
    let updated := updateAutoResetLogic s input
    (if i ∈ updated.1 then [input.now.toNat] else []) ++ autoResetTimes i updated.2 inputs

theorem mem_all (i : Lcl) : i ∈ all := by
  cases i <;> decide

section

variable {s : State} {input : Input} (i : Lcl)

theorem update_of_lo_eq_false (hlo : input.lo = false)
    (hcleared : s.lastLiftoffStartedAtMsec = 0 → s.autoReset i = .cleared) :
    i ∉ (updateAutoResetLogic s input).1 ∧
      (updateAutoResetLogic s input).2.lastLiftoffStartedAtMsec = 0 ∧
      (updateAutoResetLogic s input).2.autoReset i = .cleared := by
  rw [updateAutoResetLogic, hlo, if_neg Bool.false_ne_true, updateAutoResetLogicBeforeTakeoff]
  refine ⟨List.not_mem_nil, ?_⟩
  split_ifs with hliftoff
  · exact ⟨rfl, rfl⟩
  · exact ⟨not_not.mp hliftoff, hcleared (not_not.mp hliftoff)⟩

theorem update_of_detection (hlo : input.lo = true) (hliftoff : s.lastLiftoffStartedAtMsec = 0) :
    i ∉ (updateAutoResetLogic s input).1 ∧
      (updateAutoResetLogic s input).2.lastLiftoffStartedAtMsec = input.now ∧
      (updateAutoResetLogic s input).2.autoReset i =
        .atLiftoff (input.triggered i) (input.wasBootedAfterLiftoff i) := by
  rw [updateAutoResetLogic, hlo, if_pos rfl, updateAutoResetLogicAfterTakeoff, if_pos hliftoff]
  exact ⟨List.not_mem_nil, rfl, rfl⟩

theorem autoReset_update_of_takeoff (hlo : input.lo = true)
    (hliftoff : s.lastLiftoffStartedAtMsec ≠ 0) :
    (updateAutoResetLogic s input).2.lastLiftoffStartedAtMsec = s.lastLiftoffStartedAtMsec ∧
      (updateAutoResetLogic s input).2.autoReset i =
        ((s.autoReset i).afterTakeoff (input.triggered i) input.now).2 := by
  rw [updateAutoResetLogic, hlo, if_pos rfl, updateAutoResetLogicAfterTakeoff, if_neg hliftoff]
  exact ⟨rfl, rfl⟩

theorem update_of_takeoff (hlo : input.lo = true) (hliftoff : s.lastLiftoffStartedAtMsec ≠ 0) :
    ∃ reset, (i ∈ (updateAutoResetLogic s input).1 ↔ reset = true) ∧
      (updateAutoResetLogic s input).2.lastLiftoffStartedAtMsec = s.lastLiftoffStartedAtMsec ∧
      (s.autoReset i).Moves (input.triggered i) input.now reset
        ((updateAutoResetLogic s input).2.autoReset i) := by
  obtain ⟨hstarted, hreset⟩ := autoReset_update_of_takeoff i hlo hliftoff
  refine ⟨_, ?_, hstarted, hreset ▸ AutoReset.moves_afterTakeoff _ _ _⟩
  rw [updateAutoResetLogic, hlo, if_pos rfl, updateAutoResetLogicAfterTakeoff, if_neg hliftoff,
    List.mem_filter]
  exact and_iff_right (mem_all i)

end

theorem step_eq_some {c d : Clocked} {input : Input} (h : step c input = some d) :
    0 < input.now ∧ c.now ≤ input.now ∧
      d = ⟨(updateAutoResetLogic c.state input).2, input.now⟩ := by
  rw [step, Option.ite_none_right_eq_some] at h
  exact ⟨h.1.1, h.1.2, (Option.some.inj h.2).symm⟩

/-- What holds of an LCL after every run. -/
structure Consistent (i : Lcl) (c : Clocked) : Prop where
  cleared : c.state.lastLiftoffStartedAtMsec = 0 → c.state.autoReset i = .cleared
  valid : (c.state.autoReset i).Valid c.now

theorem consistent_init (i : Lcl) : Consistent i Clocked.init :=
  ⟨fun _ => rfl, AutoReset.valid_of_eq_zero _ rfl rfl rfl⟩

theorem Consistent.step {i : Lcl} {c d : Clocked} {input : Input} (h : Consistent i c)
    (hstep : Lcl.step c input = some d) : Consistent i d := by
  obtain ⟨hpos, hnow, rfl⟩ := step_eq_some hstep
  cases hlo : input.lo with
  | false =>
    obtain ⟨-, -, hreset⟩ := update_of_lo_eq_false i hlo h.cleared
    refine ⟨fun _ => hreset, ?_⟩
    dsimp only
    rw [hreset]
    exact AutoReset.valid_of_eq_zero _ rfl rfl rfl
  | true =>
    by_cases hliftoff : c.state.lastLiftoffStartedAtMsec = 0
    · obtain ⟨-, hstarted, hreset⟩ := update_of_detection i hlo hliftoff
      refine ⟨fun hzero => absurd (hstarted.symm.trans hzero) (UInt32.ne_of_lt hpos).symm, ?_⟩
      dsimp only
      rw [hreset]
      exact AutoReset.valid_of_eq_zero _ rfl rfl rfl
    · obtain ⟨reset, -, hstarted, hmove⟩ := update_of_takeoff i hlo hliftoff
      exact ⟨fun hzero => absurd (hstarted.symm.trans hzero) hliftoff, h.valid.moves hnow hmove⟩

/-- The invariant of an LCL holds after every run. -/
theorem consistent_run (i : Lcl) {inputs : List Input} {c d : Clocked} (h : Consistent i c)
    (hrun : StepSystem.run step c inputs = some d) : Consistent i d :=
  StepSystem.invariant_visits_of_step (fun _ _ _ hc => hc.step) h
    (StepSystem.visits_of_run hrun)

end Lcl

end TellerOBC
