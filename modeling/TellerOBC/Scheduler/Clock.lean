import Mathlib.Data.UInt
import TellerOBC.Foundations.StepSystem
import TellerOBC.Scheduler.Events

/-!
# The clock of a scheduler

The two readings and the flag of a scheduler keep a stopwatch. Operations may come at any time and
in any order; times do not wrap around, but their readings do.

## Main definitions

* `TellerOBC.clockReading`: the reading of the system clock at a time.
* `TellerOBC.Scheduler.Keeps`: a scheduler keeps a stopwatch.
* `TellerOBC.Scheduler.Timeline`, `TellerOBC.Scheduler.clockStep`: a scheduler beside the stopwatch
  that is operated in the same way.

## Main results

* `TellerOBC.Scheduler.Keeps.apply`: the operations of a scheduler are those of a stopwatch.
* `TellerOBC.Scheduler.getElapsedTimeMsec_run`.
-/

namespace TellerOBC

/-- The reading of the system clock at a time: `getTimeSinceBootMsec`. -/
def clockReading : ℕ →+ UInt32 where
  toFun := UInt32.ofNat
  map_zero' := rfl
  map_add' _ _ := UInt32.ofNat_add _ _

theorem toNat_clockReading (time : ℕ) : (clockReading time).toNat = time % 2 ^ 32 :=
  UInt32.toNat_ofNat'

namespace Scheduler

open StepSystem (run run_cons_eq_some)

/-- The operations on the clock of a scheduler. -/
inductive ClockCommand where
  | start
  | stop
  | reset
  | restart
  deriving DecidableEq, Repr

/-- An operation on a scheduler at a reading of the clock. -/
def apply (s : Scheduler) (now : UInt32) : ClockCommand → Scheduler
  | .start => s.start now
  | .stop => s.stop now
  | .reset => s.reset now
  | .restart => s.restart now

/-- An operation on a stopwatch. -/
def ClockCommand.applyTo (w : Stopwatch) : ClockCommand → Stopwatch
  | .start => w.start
  | .stop => w.stop
  | .reset => w.reset
  | .restart => w.reset.start

/-! ### The stopwatch of a scheduler -/

/-- The scheduler keeps a stopwatch at a time. -/
structure Keeps (s : Scheduler) (now : ℕ) (w : Stopwatch) : Prop where
  isClockRunning_eq : s.isClockRunning = w.running
  represents : w.Represents clockReading s.startedAt s.stoppedAt now

section

variable {s : Scheduler} {now : ℕ} {w : Stopwatch}

theorem keeps_new (events : Option EventTable) (now : ℕ) :
    Keeps { new with events := events } now ⟨false, 0⟩ :=
  ⟨rfl, Stopwatch.represents_zero 0 now⟩

/-- Time passes. -/
theorem Keeps.tick (h : s.Keeps now w) (d : ℕ) : s.Keeps (now + d) (w.tick d) :=
  ⟨h.isClockRunning_eq, h.represents.tick d⟩

/-- The elapsed time is the reading of the total running time. -/
theorem Keeps.getElapsedTimeMsec_eq (h : s.Keeps now w) :
    s.getElapsedTimeMsec (clockReading now) 0 = clockReading w.total := by
  rw [← h.represents.elapsed_eq, getElapsedTimeMsec, h.isClockRunning_eq]
  split_ifs with hrunning hne
  · exact absurd rfl hne
  · rfl
  · rfl

theorem Keeps.reset (h : s.Keeps now w) : (s.reset (clockReading now)).Keeps now w.reset := by
  refine ⟨h.isClockRunning_eq, ?_⟩
  rw [Scheduler.reset, h.isClockRunning_eq]
  cases hrunning : w.running with
  | false => exact Stopwatch.Represents.reset_of_not_running hrunning 0
  | true => exact Stopwatch.Represents.reset_of_running hrunning 0

theorem Keeps.start (h : s.Keeps now w) : (s.start (clockReading now)).Keeps now w.start := by
  cases hrunning : w.running with
  | false =>
    have hnot := h.isClockRunning_eq.trans hrunning
    rw [Scheduler.start, getElapsedTimeMsec, hnot]
    exact ⟨rfl, h.represents.start hrunning 0⟩
  | true =>
    have hstart : w.start = w := by rw [Stopwatch.start, ← hrunning]
    rw [Scheduler.start, h.isClockRunning_eq.trans hrunning, hstart]
    exact h

theorem Keeps.stop (h : s.Keeps now w) : (s.stop (clockReading now)).Keeps now w.stop := by
  cases hrunning : w.running with
  | false =>
    have hstop : w.stop = w := by rw [Stopwatch.stop, ← hrunning]
    rw [Scheduler.stop, h.isClockRunning_eq.trans hrunning, hstop]
    exact h
  | true =>
    rw [Scheduler.stop, h.isClockRunning_eq.trans hrunning]
    exact ⟨rfl, h.represents.stop hrunning⟩

/-- The operations of a scheduler are those of its stopwatch. -/
theorem Keeps.apply (h : s.Keeps now w) (command : ClockCommand) :
    (s.apply (clockReading now) command).Keeps now (command.applyTo w) := by
  cases command with
  | start => exact h.start
  | stop => exact h.stop
  | reset => exact h.reset
  | restart => exact h.reset.start

end

/-! ### Runs -/

/-- A scheduler, the time, and a stopwatch. -/
structure Timeline where
  scheduler : Scheduler
  now : ℕ
  stopwatch : Stopwatch
  deriving DecidableEq, Repr

/-- A scheduler after its construction, with a table, and a stopwatch at zero. -/
def Timeline.init (events : Option EventTable) : Timeline where
  scheduler := new.setEvents 0 events
  now := 0
  stopwatch := ⟨false, 0⟩

/-- The stopwatch at a later time. -/
def Timeline.stopwatchAt (t : Timeline) (time : ℕ) : Stopwatch := t.stopwatch.tick (time - t.now)

/-- An operation at a time, on the scheduler and on the stopwatch. Times do not go back. -/
def clockStep (t : Timeline) (c : ClockCommand × ℕ) : Option Timeline :=
  if t.now ≤ c.2 then
    some {
      scheduler := t.scheduler.apply (clockReading c.2) c.1
      now := c.2
      stopwatch := c.1.applyTo (t.stopwatchAt c.2) }
  else none

theorem Keeps.stopwatchAt {t : Timeline} (h : t.scheduler.Keeps t.now t.stopwatch) {time : ℕ}
    (htime : t.now ≤ time) : t.scheduler.Keeps time (t.stopwatchAt time) := by
  have htick := h.tick (time - t.now)
  rwa [Nat.add_sub_cancel' htime] at htick

theorem keeps_init (events : Option EventTable) :
    (Timeline.init events).scheduler.Keeps (Timeline.init events).now
      (Timeline.init events).stopwatch := by
  cases events with
  | none => exact keeps_new none 0
  | some table => exact keeps_new (some table) 0

/-- The schedulers after `init` are such schedulers. -/
theorem schedulerList_init (now : UInt32) :
    (SchedulerList.new.init now).sods =
        (Timeline.init (some ⟨1, eventsRelativeToSODS⟩)).scheduler ∧
      (SchedulerList.new.init now).soe =
        (Timeline.init (some ⟨2, eventsRelativeToSOE⟩)).scheduler ∧
      (SchedulerList.new.init now).lo =
        (Timeline.init (some ⟨3, eventsRelativeToLiftoff⟩)).scheduler :=
  ⟨rfl, rfl, rfl⟩

theorem Keeps.clockStep {t u : Timeline} {c : ClockCommand × ℕ}
    (h : t.scheduler.Keeps t.now t.stopwatch) (hstep : Scheduler.clockStep t c = some u) :
    u.scheduler.Keeps u.now u.stopwatch := by
  rw [Scheduler.clockStep, Option.ite_none_right_eq_some] at hstep
  obtain ⟨htime, hu⟩ := hstep
  rw [← Option.some.inj hu]
  exact (h.stopwatchAt htime).apply c.1

/-- **The elapsed time is the running time.** After any operations at any times, at any later time,
the elapsed time is the time for which the clock of the scheduler has been running since the last
reset, modulo `2 ^ 32`. -/
theorem getElapsedTimeMsec_run (events : Option EventTable) (commands : List (ClockCommand × ℕ))
    (t : Timeline) (hrun : run clockStep (.init events) commands = some t) (time : ℕ)
    (htime : t.now ≤ time) :
    (t.scheduler.getElapsedTimeMsec (clockReading time) 0).toNat =
      (t.stopwatchAt time).total % 2 ^ 32 := by
  have hkeeps : t.scheduler.Keeps t.now t.stopwatch :=
    StepSystem.invariant_visits_of_step (fun _ _ _ h hstep => Keeps.clockStep h hstep)
      (keeps_init events) (StepSystem.visits_of_run hrun)
  rw [(hkeeps.stopwatchAt htime).getElapsedTimeMsec_eq, toNat_clockReading]

/-- A clock that wraps around while it runs, is stopped twice and goes on. -/
theorem getElapsedTimeMsec_around_wrap :
    ∃ t, run clockStep (.init none) [(.restart, 2 ^ 32 - 100), (.start, 2 ^ 32 - 50),
        (.stop, 2 ^ 32 + 200), (.stop, 2 ^ 32 + 250), (.start, 2 ^ 32 + 1000)] = some t ∧
      (t.scheduler.getElapsedTimeMsec (clockReading (2 ^ 32 + 1001)) 0).toNat = 301 :=
  ⟨_, rfl, getElapsedTimeMsec_run none [(.restart, 2 ^ 32 - 100), (.start, 2 ^ 32 - 50),
    (.stop, 2 ^ 32 + 200), (.stop, 2 ^ 32 + 250), (.start, 2 ^ 32 + 1000)] _ rfl (2 ^ 32 + 1001)
    (by decide)⟩

end Scheduler

end TellerOBC
