import TellerOBC.Core.MajorityVoter
import TellerOBC.Scheduler.Clock

/-!
# The signals of the service module

`modules/rxsm.cpp`: the SODS, SOE and LO signals are sampled together, and each of them has a
majority voter. A rise of a vote restarts the scheduler of the signal, a fall stops it.

An update takes one reading of the clock. The log record of a change is an output.

## Main definitions

* `TellerOBC.StateManager`, with `update`, `getTimeSinceLiftoffMsec`, `wasBootedAfterLiftoff`.
* `TellerOBC.Rxsm`, `TellerOBC.Rxsm.update`: the state manager with the schedulers.
* `TellerOBC.lastRisingEdge`: the last rise of a vote.
* `TellerOBC.Rxsm.Follows`: a voter and a scheduler follow the samples of a signal.

## Main results

* `TellerOBC.Rxsm.signals_run`.
-/

namespace TellerOBC

/-! ### The state manager -/

/-- The states of the signals: `State`. -/
structure SignalState where
  sods : Bool
  soe : Bool
  lo : Bool
  deriving DecidableEq, Repr

namespace RxsmSignal

/-- `signal::SODS`. -/
def sods : UInt8 := 1

/-- `signal::SOE`. -/
def soe : UInt8 := 2

/-- `signal::LO`. -/
def lo : UInt8 := 4

/-- The bit field of some signals. -/
def bits (signals : SignalState) : UInt8 :=
  (if signals.lo then lo else 0) ||| (if signals.sods then sods else 0) |||
    (if signals.soe then soe else 0)

/-- The bits of a bit field. -/
theorem bits_and (signals : SignalState) :
    (bits signals = 0 ↔ signals = ⟨false, false, false⟩) ∧
      decide (bits signals &&& lo ≠ 0) = signals.lo ∧
      decide (bits signals &&& sods ≠ 0) = signals.sods ∧
      decide (bits signals &&& soe ≠ 0) = signals.soe := by
  obtain ⟨sods, soe, lo⟩ := signals
  revert sods soe lo
  decide

end RxsmSignal

/-- The state manager. -/
structure StateManager where
  sods : MajorityVoter
  soe : MajorityVoter
  lo : MajorityVoter
  lastLOSignalRisingEdgeTimestamp : UInt32
  lastSODSSignalRisingEdgeTimestamp : UInt32
  lastSOESignalRisingEdgeTimestamp : UInt32
  deriving DecidableEq, Repr

namespace StateManager

/-- The state manager before `init`. -/
def new : StateManager := ⟨.reset false, .reset false, .reset false, 0, 0, 0⟩

variable (m : StateManager)

/-- `getState`. -/
def getState : SignalState := ⟨m.sods.get, m.soe.get, m.lo.get⟩

/-- `reset`. -/
def reset : StateManager :=
  { m with sods := .reset false, soe := .reset false, lo := .reset false }

/-- `update`: the bit field of the signals that changed, and the new state. -/
def update (sample : SignalState) (now : UInt32) : UInt8 × StateManager :=
  let lo := m.lo.feedAndCheck sample.lo
  let sods := m.sods.feedAndCheck sample.sods
  let soe := m.soe.feedAndCheck sample.soe
  (RxsmSignal.bits ⟨sods.1, soe.1, lo.1⟩, {
    sods := sods.2
    soe := soe.2
    lo := lo.2
    lastLOSignalRisingEdgeTimestamp :=
      if lo.1 && lo.2.get then now else m.lastLOSignalRisingEdgeTimestamp
    lastSODSSignalRisingEdgeTimestamp :=
      if sods.1 && sods.2.get then now else m.lastSODSSignalRisingEdgeTimestamp
    lastSOESignalRisingEdgeTimestamp :=
      if soe.1 && soe.2.get then now else m.lastSOESignalRisingEdgeTimestamp })

/-- `getTimeSinceLiftoffMsec`. -/
def getTimeSinceLiftoffMsec (now : UInt32) : UInt32 := now - m.lastLOSignalRisingEdgeTimestamp

/-- `wasBootedAfterLiftoff`. -/
def wasBootedAfterLiftoff : Bool :=
  m.lastLOSignalRisingEdgeTimestamp > 0 && m.lastLOSignalRisingEdgeTimestamp < 3000 &&
    m.lastSODSSignalRisingEdgeTimestamp > 0 && m.lastSODSSignalRisingEdgeTimestamp < 3000

end StateManager

/-! ### The module -/

/-- The arguments of `rxsmLogRecord.write`. -/
structure RxsmLogRecord where
  timeMS : UInt32
  state : SignalState
  deriving DecidableEq, Repr

/-- The state manager and the schedulers that it controls. -/
structure Rxsm where
  manager : StateManager
  schedulers : SchedulerList
  deriving DecidableEq, Repr

namespace Rxsm

variable (r : Rxsm)

/-- `init`, if the callback is registered. -/
def init : Rxsm := { r with manager := r.manager.reset }

/-- Restart or stop the scheduler of a signal that changed. -/
def drive (s : Scheduler) (now : UInt32) (changed voted : Bool) : Scheduler :=
  if changed then if voted then s.restart now else s.stop now else s

/-- `update`: the log record that it writes, and the new state. -/
def update (sample : SignalState) (now : UInt32) : Option RxsmLogRecord × Rxsm :=
  let updated := r.manager.update sample now
  let changed := updated.1
  if changed ≠ 0 then
    let state := updated.2.getState
    (some ⟨now, state⟩, {
      manager := updated.2
      schedulers := {
        soe := drive r.schedulers.soe now (changed &&& RxsmSignal.soe ≠ 0) state.soe
        sods := drive r.schedulers.sods now (changed &&& RxsmSignal.sods ≠ 0) state.sods
        lo := drive r.schedulers.lo now (changed &&& RxsmSignal.lo ≠ 0) state.lo } })
  else (none, { r with manager := updated.2 })

/-- An update feeds each voter with the sample of its own signal. -/
theorem manager_update (sample : SignalState) (now : UInt32) :
    (r.update sample now).2.manager.lo = r.manager.lo.feed sample.lo ∧
      (r.update sample now).2.manager.sods = r.manager.sods.feed sample.sods ∧
      (r.update sample now).2.manager.soe = r.manager.soe.feed sample.soe := by
  rw [update]
  dsimp only
  split <;> exact ⟨rfl, rfl, rfl⟩

/-- An update drives each scheduler with the change of its own signal. -/
theorem schedulers_update (sample : SignalState) (now : UInt32) :
    (r.update sample now).2.schedulers = {
      sods := drive r.schedulers.sods now (r.manager.sods.feedAndCheck sample.sods).1
        (r.manager.sods.feed sample.sods).get
      soe := drive r.schedulers.soe now (r.manager.soe.feedAndCheck sample.soe).1
        (r.manager.soe.feed sample.soe).get
      lo := drive r.schedulers.lo now (r.manager.lo.feedAndCheck sample.lo).1
        (r.manager.lo.feed sample.lo).get } := by
  obtain ⟨hzero, hlo, hsods, hsoe⟩ := RxsmSignal.bits_and
    ⟨(r.manager.sods.feedAndCheck sample.sods).1, (r.manager.soe.feedAndCheck sample.soe).1,
      (r.manager.lo.feedAndCheck sample.lo).1⟩
  rw [update]
  dsimp only
  by_cases hchanged : (r.manager.update sample now).1 = 0
  · obtain ⟨hsods, hsoe, hlo⟩ := SignalState.mk.inj (hzero.mp hchanged)
    rw [if_neg (not_not.mpr hchanged), hlo, hsods, hsoe]
    rfl
  · rw [if_pos hchanged, StateManager.update]
    dsimp only
    rw [hlo, hsods, hsoe]
    rfl

end Rxsm

/-! ### The samples of a signal -/

/-- The time of the last rise of the vote on a signal. Its samples come with their times, the last
one first. -/
def lastRisingEdge : List (Bool × ℕ) → Option ℕ
  | [] => none
  | (bit, time) :: past =>
    if majority (bit :: past.map Prod.fst) && !majority (past.map Prod.fst) then some time
    else lastRisingEdge past

namespace Rxsm

/-- A voter and a scheduler follow the samples of a signal: the voter holds them, and the scheduler
runs if the vote is high, and then since its last rise. -/
structure Follows (past : List (Bool × ℕ)) (v : MajorityVoter) (s : Scheduler) : Prop where
  holds : v.Holds (past.map Prod.fst)
  isClockRunning_eq : s.isClockRunning = majority (past.map Prod.fst)
  startedAt_eq : majority (past.map Prod.fst) = true →
    (lastRisingEdge past).map clockReading = some s.startedAt

variable {past : List (Bool × ℕ)} {v : MajorityVoter} {s : Scheduler}

theorem follows_reset (hs : s.isClockRunning = false) : Follows [] (.reset false) s :=
  ⟨MajorityVoter.holds_reset, hs, nofun⟩

/-- A restart of a scheduler that is not running. -/
theorem restart_of_not_running (hs : s.isClockRunning = false) (now : UInt32) :
    (s.restart now).isClockRunning = true ∧ (s.restart now).startedAt = now := by
  rw [Scheduler.restart, Scheduler.start, Scheduler.reset, hs]
  refine ⟨rfl, ?_⟩
  change now - (0 - 0) = now
  rw [UInt32.sub_self, UInt32.sub_zero]

theorem stop_isClockRunning (now : UInt32) : (s.stop now).isClockRunning = false := by
  rw [Scheduler.stop]
  split_ifs with hs
  · rfl
  · exact eq_false_of_ne_true hs

/-- The next sample of the signal. -/
theorem Follows.drive (h : Follows past v s) (bit : Bool) (time : ℕ) :
    Follows ((bit, time) :: past) (v.feed bit)
      (Rxsm.drive s (clockReading time) (v.feedAndCheck bit).1 (v.feed bit).get) := by
  have hfeed := h.holds.feed bit
  rw [h.holds.feedAndCheck_eq, hfeed.get_eq]
  refine ⟨hfeed, ?_, ?_⟩ <;> rw [List.map_cons]
  · rw [Rxsm.drive]
    cases hold : majority (past.map Prod.fst) <;>
      cases hnew : majority (bit :: past.map Prod.fst)
    · exact h.isClockRunning_eq.trans hold
    · exact (restart_of_not_running (h.isClockRunning_eq.trans hold) _).1
    · exact stop_isClockRunning _
    · exact h.isClockRunning_eq.trans hold
  · intro hnew
    rw [lastRisingEdge, Rxsm.drive, hnew]
    cases hold : majority (past.map Prod.fst) with
    | false =>
      exact congrArg some (restart_of_not_running (h.isClockRunning_eq.trans hold) _).2.symm
    | true => exact h.startedAt_eq hold

/-! ### Runs -/

open StepSystem (run invariant_history meets_true)

/-- The module and the time of the last update. -/
structure Timed where
  rxsm : Rxsm
  now : ℕ
  deriving DecidableEq, Repr

/-- An update with some samples at a time. Times do not go back. -/
def step (t : Timed) (c : SignalState × ℕ) : Option Timed :=
  if t.now ≤ c.2 then some ⟨(t.rxsm.update c.1 (clockReading c.2)).2, c.2⟩ else none

/-- The samples of a signal. -/
def samplesOf (signal : SignalState → Bool) (past : List (SignalState × ℕ)) : List (Bool × ℕ) :=
  past.map fun c => (signal c.1, c.2)

/-- The voters follow their signals, and the schedulers do if they were not running at first. The
last samples come first. -/
structure Tracks (past : List (SignalState × ℕ)) (t : Timed) : Prop where
  sods : Follows (samplesOf SignalState.sods past) t.rxsm.manager.sods t.rxsm.schedulers.sods
  lo : Follows (samplesOf SignalState.lo past) t.rxsm.manager.lo t.rxsm.schedulers.lo
  soe : t.rxsm.manager.soe.Holds ((samplesOf SignalState.soe past).map Prod.fst)
  le_now : ∀ c ∈ past, c.2 ≤ t.now

theorem Tracks.step {past : List (SignalState × ℕ)} {t u : Timed} {c : SignalState × ℕ}
    (h : Tracks past t) (hstep : Rxsm.step t c = some u) : Tracks (c :: past) u := by
  rw [Rxsm.step, Option.ite_none_right_eq_some] at hstep
  obtain ⟨htime, hu⟩ := hstep
  obtain rfl := Option.some.inj hu
  obtain ⟨hlo, hsods, hsoe⟩ := manager_update t.rxsm c.1 (clockReading c.2)
  have hschedulers := schedulers_update t.rxsm c.1 (clockReading c.2)
  refine ⟨?_, ?_, ?_, ?_⟩
  · dsimp only
    rw [hsods, hschedulers]
    exact h.sods.drive c.1.sods c.2
  · dsimp only
    rw [hlo, hschedulers]
    exact h.lo.drive c.1.lo c.2
  · dsimp only
    rw [hsoe]
    exact h.soe.feed c.1.soe
  · intro d hd
    rcases List.mem_cons.mp hd with rfl | hd
    · exact Nat.le_refl _
    · exact (h.le_now d hd).trans htime

theorem tracks_run {samples : List (SignalState × ℕ)} {t u : Timed} (h : Tracks [] t)
    (hrun : run step t samples = some u) : Tracks samples.reverse u := by
  rw [← List.reverse_nil] at h
  refine invariant_history (J := fun past (t : Timed) => Tracks past.reverse t)
    (fun past _ c _ h _ hstep => ?_) h (meets_true t samples) hrun
  rw [List.reverse_concat]
  exact h.step hstep

theorem exists_mem_of_lastRisingEdge {past : List (Bool × ℕ)} {edge : ℕ}
    (h : lastRisingEdge past = some edge) : ∃ bit, (bit, edge) ∈ past := by
  induction past with
  | nil => exact nomatch h
  | cons c past ih =>
    obtain ⟨bit, time⟩ := c
    rw [lastRisingEdge] at h
    split_ifs at h
    · obtain rfl := Option.some.inj h
      exact ⟨bit, List.mem_cons_self⟩
    · obtain ⟨bit', hmem⟩ := ih h
      exact ⟨bit', List.mem_cons_of_mem _ hmem⟩

/-- The voter of a signal has the majority of the last five samples, and the scheduler of the signal
runs exactly if the vote is high, since the last rise of the vote. -/
structure Controls (past : List (Bool × ℕ)) (now : ℕ) (v : MajorityVoter) (s : Scheduler) :
    Prop where
  get_eq : v.get = majority (past.map Prod.fst)
  isClockRunning_eq : s.isClockRunning = v.get
  elapsed_eq : v.get = true → ∃ edge, lastRisingEdge past = some edge ∧
    ∀ time, now ≤ time →
      (s.getElapsedTimeMsec (clockReading time) 0).toNat = (time - edge) % 2 ^ 32

theorem Follows.controls {now : ℕ} (h : Follows past v s) (hle : ∀ c ∈ past, c.2 ≤ now) :
    Controls past now v s := by
  refine ⟨h.holds.get_eq, h.isClockRunning_eq.trans h.holds.get_eq.symm, fun hget => ?_⟩
  have hvoted := h.holds.get_eq.symm.trans hget
  obtain ⟨edge, hedge, hstarted⟩ := Option.map_eq_some_iff.mp (h.startedAt_eq hvoted)
  refine ⟨edge, hedge, fun time htime => ?_⟩
  obtain ⟨bit, hmem⟩ := exists_mem_of_lastRisingEdge hedge
  have hedgeTime : edge ≤ time := (hle _ hmem).trans htime
  rw [Scheduler.getElapsedTimeMsec, h.isClockRunning_eq.trans hvoted, if_pos rfl,
    if_neg (not_not.mpr rfl), ← hstarted, ← toNat_clockReading]
  conv_lhs => rw [← Nat.sub_add_cancel hedgeTime, map_add, add_sub_cancel_right]

/-- **The signals control their schedulers.** After `init`, with the schedulers of LO and SODS not
running, and any updates at any times, each vote is the majority of the last five samples, and the
two schedulers run exactly if their votes are high, since the last rises. -/
theorem signals_run (r : Rxsm) (hlo : r.schedulers.lo.isClockRunning = false)
    (hsods : r.schedulers.sods.isClockRunning = false) (samples : List (SignalState × ℕ))
    (t : Timed) (hrun : run step ⟨r.init, 0⟩ samples = some t) :
    Controls (samplesOf SignalState.lo samples.reverse) t.now t.rxsm.manager.lo
        t.rxsm.schedulers.lo ∧
      Controls (samplesOf SignalState.sods samples.reverse) t.now t.rxsm.manager.sods
        t.rxsm.schedulers.sods ∧
      t.rxsm.manager.soe.get =
        majority ((samplesOf SignalState.soe samples.reverse).map Prod.fst) := by
  have hinit : Tracks [] ⟨r.init, 0⟩ :=
    ⟨follows_reset hsods, follows_reset hlo, MajorityVoter.holds_reset, nofun⟩
  have htracks := tracks_run hinit hrun
  have hle : ∀ (signal : SignalState → Bool), ∀ c ∈ samplesOf signal samples.reverse,
      c.2 ≤ t.now := by
    intro signal c hc
    obtain ⟨d, hd, rfl⟩ := List.mem_map.mp hc
    exact htracks.le_now d hd
  exact ⟨htracks.lo.controls (hle _), htracks.sods.controls (hle _), htracks.soe.get_eq⟩

/-- The samples of a liftoff: the LO signal bounces and then stays high. -/
def bouncingLiftoff : List (SignalState × ℕ) :=
  [true, false, true, true, true].zipIdx.map fun c => (⟨true, true, c.1⟩, 2 ^ 32 - 40 + 20 * c.2)

/-- Its vote rises with the third high sample in five. -/
theorem controls_bouncingLiftoff :
    ∃ t, run step ⟨init ⟨.new, .new⟩, 0⟩ bouncingLiftoff = some t ∧ t.now = 2 ^ 32 + 40 ∧
      Controls (samplesOf SignalState.lo bouncingLiftoff.reverse) t.now t.rxsm.manager.lo
        t.rxsm.schedulers.lo ∧
      lastRisingEdge (samplesOf SignalState.lo bouncingLiftoff.reverse) = some (2 ^ 32 + 20) :=
  ⟨_, rfl, by decide, (signals_run ⟨.new, .new⟩ rfl rfl bouncingLiftoff _ rfl).1, by decide⟩

end Rxsm

end TellerOBC
