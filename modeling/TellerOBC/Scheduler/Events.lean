import TellerOBC.Cmd.Process
import TellerOBC.Foundations.Stopwatch
import TellerOBC.Lcl.AutoReset

/-!
# The scheduler

`modules/scheduler.cpp` and `modules/scheduler.h`: a scheduler has a clock that can be paused and a
table of events that are executed when the clock reaches their timestamps. There are three
schedulers, one for each signal of the service module.

The readings of the system clock are arguments. Every member function reads the clock at most once.
What `executeEvent` does to other modules is an output. A table is found at an address, which is
what `setEvents` compares.

## Main definitions

* `TellerOBC.SchedulerEvent`, `TellerOBC.EventTable`: the events and their tables.
* `TellerOBC.Scheduler`, with `getElapsedTimeMsec`, `reset`, `start`, `stop`, `restart`,
  `setEvents`, `executePendingEvents`.
* `TellerOBC.executeEvent`.
* `TellerOBC.SchedulerList`, with `init`, `update`.
-/

namespace TellerOBC

/-! ### Events -/

/-- `scheduler_event_type_t`. -/
inductive SchedulerEventType where
  | eventNop
  | eventEnd
  | eventLclReset
  | eventGpioSet
  | eventGpioClear
  | eventCalibration
  | eventEnableDisableCamera
  | eventToggleCamera
  | eventSetTelemetryLevel
  deriving DecidableEq, Repr

/-- `EVENT_FLAG_IGNORE_WHEN_BOOTED_AFTER_LIFTOFF`. -/
def eventFlagIgnoreWhenBootedAfterLiftoff : UInt8 := 1

/-- `scheduler_event_t`. The fields that an initializer leaves out are zero. -/
structure SchedulerEvent where
  timestampMsec : UInt32
  type : SchedulerEventType
  param : UInt32 := 0
  flags : UInt8 := 0
  deriving DecidableEq, Repr

/-- `NO_MORE_EVENTS`. -/
def noMoreEvents : SchedulerEvent := ⟨0xFFFFFFFF, .eventEnd, 0, 0⟩

/-- A table of events in memory. -/
structure EventTable where
  address : ℕ
  events : List SchedulerEvent
  deriving DecidableEq, Repr

/-- `eventsRelativeToSOE`. -/
def eventsRelativeToSOE : List SchedulerEvent := [
  { timestampMsec := 0, type := .eventLclReset, param := 0 },
  { timestampMsec := 0, type := .eventLclReset, param := 2 },
  { timestampMsec := 0, type := .eventLclReset, param := 3 },
  { timestampMsec := 0, type := .eventLclReset, param := 4 },
  { timestampMsec := 0, type := .eventSetTelemetryLevel, param := 0 },
  { timestampMsec := 1000, type := .eventLclReset, param := 1 },
  { timestampMsec := 15000, type := .eventCalibration, param := 1,
    flags := eventFlagIgnoreWhenBootedAfterLiftoff },
  { timestampMsec := 30000, type := .eventLclReset, param := 5 },
  noMoreEvents]

/-- `eventsRelativeToSODS`. -/
def eventsRelativeToSODS : List SchedulerEvent := [
  { timestampMsec := 0, type := .eventSetTelemetryLevel, param := 0 },
  noMoreEvents]

/-- `eventsRelativeToLiftoff`. -/
def eventsRelativeToLiftoff : List SchedulerEvent := [
  { timestampMsec := 0, type := .eventSetTelemetryLevel, param := 0 },
  noMoreEvents]

/-! ### The execution of an event -/

/-- What the execution of an event does to another module. -/
inductive SchedulerEffect where
  | resetLcl (lcl : Lcl)
  | writeGpio (pin : UInt32) (value : Bool)
  | performCalibration (procedure : CalibrationProcedure)
  | setCameraEnabled (enabled : Bool)
  | sendCameraPulse
  | setTelemetryLevel (level : TelemetryLevel)
  deriving DecidableEq, Repr

/-- `NUM_GPIO_PINS`. -/
def numGpioPins : UInt32 := 17

/-- The calibration procedures in the order of their numbers. -/
def calibrationProcedures : List CalibrationProcedure := [.nop, .gyro, .accel]

/-- `executeEvent`, given the answer of `wasBootedAfterLiftoff`. -/
def executeEvent (wasBootedAfterLiftoff : Bool) (event : SchedulerEvent) :
    Option SchedulerEffect :=
  if event.flags &&& eventFlagIgnoreWhenBootedAfterLiftoff ≠ 0 ∧ wasBootedAfterLiftoff then none
  else
    match event.type with
    | .eventLclReset => Lcl.all[event.param.toNat]?.map .resetLcl
    | .eventGpioSet | .eventGpioClear =>
      if event.param < numGpioPins then
        some (.writeGpio event.param (event.type = .eventGpioSet))
      else none
    | .eventCalibration => calibrationProcedures[event.param.toNat]?.map .performCalibration
    | .eventEnableDisableCamera => some (.setCameraEnabled (event.param ≠ 0))
    | .eventToggleCamera => some .sendCameraPulse
    -- `setTelemetryLevel` takes an unknown level for the minimal one
    | .eventSetTelemetryLevel =>
      some (.setTelemetryLevel (if event.param = 0 then .full else .minimal))
    | .eventNop | .eventEnd => none

/-! ### Schedulers -/

/-- A scheduler. -/
structure Scheduler where
  startedAt : UInt32
  stoppedAt : UInt32
  isClockRunning : Bool
  events : Option EventTable
  nextEventIndex : ℕ
  deriving DecidableEq, Repr

namespace Scheduler

/-- The constructor. -/
def new : Scheduler := ⟨0, 0, false, none, 0⟩

section

variable (s : Scheduler) (now : UInt32)

/-- `getElapsedTimeMsec`, with its argument and the reading of the clock. -/
def getElapsedTimeMsec (arg : UInt32) : UInt32 :=
  if s.isClockRunning then (if arg ≠ 0 then arg else now) - s.startedAt
  else s.stoppedAt - s.startedAt

/-- `reset`. -/
def reset : Scheduler :=
  { s with
    startedAt := if s.isClockRunning then now else 0
    stoppedAt := 0
    nextEventIndex := 0 }

/-- `start`. -/
def start : Scheduler :=
  if !s.isClockRunning then
    { s with
      startedAt := now - s.getElapsedTimeMsec now 0
      stoppedAt := 0
      isClockRunning := true }
  else s

/-- `stop`. -/
def stop : Scheduler :=
  if s.isClockRunning then { s with stoppedAt := now, isClockRunning := false } else s

/-- `restart`. -/
def restart : Scheduler := (s.reset now).start now

/-- `setEvents`. -/
def setEvents (events : Option EventTable) : Scheduler :=
  if events.map EventTable.address = s.events.map EventTable.address then s
  else { (s.stop now).reset now with events := events }

/-- `clearEvents`. -/
def clearEvents : Scheduler := s.setEvents now none

/-- The loop of `executePendingEvents` over the entries of the table from an index on: the events
that it executes and the index of the next one, or nothing if it reads beyond the table. -/
def executeFrom (elapsedTime : UInt32) :
    List SchedulerEvent → ℕ → Option (List SchedulerEvent × ℕ)
  | [], _ => none
  | nextEvent :: entries, nextEventIndex =>
    if nextEvent.type = .eventEnd ∨ nextEvent.timestampMsec > elapsedTime then
      some ([], nextEventIndex)
    else
      (executeFrom elapsedTime entries (nextEventIndex + 1)).map fun r => (nextEvent :: r.1, r.2)

/-- `executePendingEvents`: the events that it executes and the new state, or nothing if it reads
beyond the table. -/
def executePendingEvents : Option (List SchedulerEvent × Scheduler) :=
  match s.isClockRunning, s.events with
  | true, some table =>
    (executeFrom (s.getElapsedTimeMsec now 0) (table.events.drop s.nextEventIndex)
      s.nextEventIndex).map fun r => (r.1, { s with nextEventIndex := r.2 })
  | _, _ => some ([], s)

end

end Scheduler

/-! ### The schedulers of the signals -/

/-- `schedulerList`. -/
structure SchedulerList where
  sods : Scheduler
  soe : Scheduler
  lo : Scheduler
  deriving DecidableEq, Repr

namespace SchedulerList

/-- The schedulers before `init`. -/
def new : SchedulerList := ⟨.new, .new, .new⟩

/-- `init`. The tables are at different addresses. -/
def init (l : SchedulerList) (now : UInt32) : SchedulerList where
  sods := l.sods.setEvents now (some ⟨1, eventsRelativeToSODS⟩)
  soe := l.soe.setEvents now (some ⟨2, eventsRelativeToSOE⟩)
  lo := l.lo.setEvents now (some ⟨3, eventsRelativeToLiftoff⟩)

/-- `update`, with a reading of the clock for each scheduler and the answer of
`wasBootedAfterLiftoff`: what it does to other modules and the new schedulers. -/
def update (l : SchedulerList) (soeNow sodsNow loNow : UInt32) (wasBootedAfterLiftoff : Bool) :
    Option (List SchedulerEffect × SchedulerList) := do
  let soe ← l.soe.executePendingEvents soeNow
  let sods ← l.sods.executePendingEvents sodsNow
  let lo ← l.lo.executePendingEvents loNow
  return ((soe.1 ++ sods.1 ++ lo.1).filterMap (executeEvent wasBootedAfterLiftoff),
    ⟨sods.2, soe.2, lo.2⟩)

end SchedulerList

end TellerOBC
