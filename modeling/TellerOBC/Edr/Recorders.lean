import Mathlib.Logic.Function.Basic
import TellerOBC.Edr.Requests
import TellerOBC.Foundations.CheckedMemory

/-!
# The recorders of the storage areas

The array `recorders` of `modules/edr.cpp` has a recorder for each storage area, also for the
unspecified one. Two tasks run `manage`, one for the flash memory and one for the SD card, and
log requests go to the recorders of these two areas. The recorder of the unspecified area is never
run, and this is why the assertion in `sendRequest` holds when `requestStopAndUnmount` is called for
any area, though it does not check the area itself.

## Main definitions

* `TellerOBC.Recorders`, `TellerOBC.Recorders.step`.
* `TellerOBC.Recorders.requestStopAndUnmount`, `TellerOBC.Recorders.simulateIOError`.

## Main results

* `TellerOBC.Recorders.requestStopAndUnmount_eq_ok`: no assertion fails in a reachable state.
-/

namespace TellerOBC

open CheckedMemory StepSystem

/-- `recorders`. -/
structure Recorders (F : Type) where
  recorder : StorageArea → RecorderTask F

/-- The steps: those of the two areas with a task, where the requests that other tasks offer are
among the steps of the recorders. -/
inductive RecordersAction (F : Type) where
  | flashMemory (action : RecorderAction F)
  | sdCard (action : RecorderAction F)

namespace Recorders

variable {F : Type}

/-- The recorders before any task is started. -/
def start : Recorders F where
  recorder _ := RecorderTask.start

variable (s : Recorders F)

/-- A step of the recorder of an area. -/
def stepOf (area : StorageArea) (action : RecorderAction F) : Option (Recorders F) :=
  ((s.recorder area).step action).map fun recorder =>
    { recorder := Function.update s.recorder area recorder }

/-- The steps. -/
def step : RecordersAction F → Option (Recorders F)
  | .flashMemory action => s.stepOf .flashMemory action
  | .sdCard action => s.stepOf .sdCard action

/-- `running` of the recorder of an area. -/
def running (area : StorageArea) : Bool := (s.recorder area).state = .running

/-- The assertion in `sendRequest` and `simulateIOError`: `area > STORAGE_AREA_UNKNOWN`. All areas
are less than `NUM_STORAGE_AREAS`. -/
def verifyArea (area : StorageArea) : Except Fault Unit := verify (area ≠ .unknown)

/-- `requestStopAndUnmount`: whether a request was sent. -/
def requestStopAndUnmount (area : StorageArea) : Except Fault Bool := do
  if s.running area then
    verifyArea area
    return true
  else
    return false

/-- `simulateIOError`. -/
def simulateIOError (area : StorageArea) : Except Fault Unit := verifyArea area

variable {s}

theorem recorder_of_stepOf {t : Recorders F} {area other : StorageArea} {action : RecorderAction F}
    (hne : other ≠ area) (hstep : s.stepOf area action = some t) :
    t.recorder other = s.recorder other := by
  obtain ⟨recorder, -, rfl⟩ := Option.map_eq_some_iff.mp hstep
  exact Function.update_of_ne hne ..

/-- The recorder of the unspecified area stays as it is. -/
theorem unknown_of_step {t : Recorders F} (action : RecordersAction F)
    (hstep : s.step action = some t) : t.recorder .unknown = s.recorder .unknown := by
  cases action with
  | flashMemory action => exact recorder_of_stepOf (by decide) hstep
  | sdCard action => exact recorder_of_stepOf (by decide) hstep

/-- The recorder of the unspecified area is never running. -/
theorem not_running_unknown {actions : List (RecordersAction F)}
    (hvisit : Visits step start actions s) : s.running .unknown = false := by
  have h : s.recorder .unknown = RecorderTask.start :=
    invariant_visits_of_step (I := fun s => s.recorder .unknown = RecorderTask.start)
      (fun _ action _ h hstep => (unknown_of_step action hstep).trans h) rfl hvisit
  rw [running, h]
  rfl

/-- No assertion fails in `requestStopAndUnmount`. -/
theorem requestStopAndUnmount_eq_ok {actions : List (RecordersAction F)}
    (hvisit : Visits step start actions s) (area : StorageArea) :
    s.requestStopAndUnmount area = .ok (s.running area) := by
  cases hrunning : s.running area with
  | true =>
    have hne : area ≠ .unknown := by
      rintro rfl
      exact absurd hrunning (Bool.eq_false_iff.mp (not_running_unknown hvisit))
    rw [requestStopAndUnmount, if_pos hrunning, verifyArea, verify, if_pos hne]
    rfl
  | false =>
    rw [requestStopAndUnmount, if_neg (Bool.eq_false_iff.mp hrunning)]
    rfl

theorem simulateIOError_eq_ok {area : StorageArea} (h : area ≠ .unknown) :
    simulateIOError area = .ok () := if_pos h

end Recorders

end TellerOBC
