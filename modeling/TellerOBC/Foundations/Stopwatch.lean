import Mathlib.Algebra.Group.Basic
import Mathlib.Algebra.Group.Hom.Defs
import Mathlib.Algebra.Group.Nat.Defs

/-!
# Stopwatches in two readings of a clock

A stopwatch runs or is paused, and has a total running time. It can be kept in two readings of a
clock: one that lies the total running time before the present or, while the stopwatch is paused,
before the second one. The readings may be elements of any commutative group, so that the clock may
wrap around; the total running time is then represented by its own reading.

The second reading does not matter while the stopwatch runs.

## Main definitions

* `Stopwatch`, with the operations `Stopwatch.tick`, `start`, `stop`, `reset`.
* `Stopwatch.Represents`: two readings keep a stopwatch.

## Main results

* `Stopwatch.Represents.tick`, `start`, `stop`, `reset`: what the operations do to the readings.
* `Stopwatch.Represents.elapsed_eq`: the reading of the total running time.
-/

/-- A stopwatch: whether it runs, and how long it has been running since it was last reset. -/
structure Stopwatch where
  running : Bool
  total : ℕ
  deriving DecidableEq, Repr

namespace Stopwatch

/-- Some time passes. -/
def tick (w : Stopwatch) (d : ℕ) : Stopwatch :=
  { w with total := if w.running then w.total + d else w.total }

/-- Go on running. -/
def start (w : Stopwatch) : Stopwatch := { w with running := true }

/-- Pause. -/
def stop (w : Stopwatch) : Stopwatch := { w with running := false }

/-- Go back to zero, running or paused as before. -/
def reset (w : Stopwatch) : Stopwatch := { w with total := 0 }

section

variable (w : Stopwatch)

@[simp] theorem tick_running (d : ℕ) : (w.tick d).running = w.running := rfl

@[simp] theorem tick_zero : w.tick 0 = w := by
  rw [tick, Nat.add_zero, ite_self]

theorem tick_total_of_running (h : w.running = true) (d : ℕ) : (w.tick d).total = w.total + d :=
  if_pos h

theorem tick_total_of_not_running (h : w.running = false) (d : ℕ) :
    (w.tick d).total = w.total := by
  rw [tick, h, if_neg Bool.false_ne_true]

theorem total_le_tick (d : ℕ) : w.total ≤ (w.tick d).total := by
  rw [tick]
  split_ifs
  · exact Nat.le_add_right _ _
  · exact Nat.le_refl _

end

/-! ### Readings -/

section

variable {G : Type*} [AddCommGroup G] (reading : ℕ →+ G)

/-- The readings keep a stopwatch at a time: the first one is the total running time before the end
of the last period in which it ran, which is now if it runs. -/
def Represents (startedAt stoppedAt : G) (now : ℕ) (w : Stopwatch) : Prop :=
  (if w.running then reading now else stoppedAt) - startedAt = reading w.total

variable {reading} {startedAt stoppedAt : G} {now : ℕ} {w : Stopwatch}

/-- Equal readings keep a stopwatch that is paused at zero. -/
theorem represents_zero (startedAt : G) (now : ℕ) :
    Represents reading startedAt startedAt now ⟨false, 0⟩ := by
  rw [Represents, if_neg Bool.false_ne_true, sub_self, map_zero]

/-- Time passes. -/
theorem Represents.tick (h : Represents reading startedAt stoppedAt now w) (d : ℕ) :
    Represents reading startedAt stoppedAt (now + d) (w.tick d) := by
  rw [Represents] at h ⊢
  cases hrunning : w.running with
  | false =>
    rw [tick_running, tick_total_of_not_running w hrunning, ← h, hrunning]
    rfl
  | true =>
    rw [hrunning, if_pos rfl] at h
    rw [tick_running, tick_total_of_running w hrunning, hrunning, if_pos rfl, map_add, map_add, ← h,
      add_sub_right_comm]

/-- The readings give the total running time. -/
theorem Represents.elapsed_eq (h : Represents reading startedAt stoppedAt now w) :
    (if w.running then reading now else stoppedAt) - startedAt = reading w.total := h

/-- A paused stopwatch is started by moving the first reading. -/
theorem Represents.start (h : Represents reading startedAt stoppedAt now w)
    (hrunning : w.running = false) (stoppedAt' : G) :
    Represents reading (reading now - (stoppedAt - startedAt)) stoppedAt' now w.start := by
  rw [Represents, hrunning, if_neg Bool.false_ne_true] at h
  rw [Represents, h]
  exact sub_sub_cancel _ _

/-- A running stopwatch is stopped by storing the second reading. -/
theorem Represents.stop (h : Represents reading startedAt stoppedAt now w)
    (hrunning : w.running = true) : Represents reading startedAt (reading now) now w.stop := by
  rw [Represents, hrunning, if_pos rfl] at h
  exact h

/-- A running stopwatch is reset by storing the first reading. -/
theorem Represents.reset_of_running (hrunning : w.running = true) (stoppedAt' : G) :
    Represents reading (reading now) stoppedAt' now w.reset := by
  rw [Represents, reset, hrunning, if_pos rfl, sub_self, map_zero]

/-- A paused stopwatch is reset by making the readings equal. -/
theorem Represents.reset_of_not_running (hrunning : w.running = false) (startedAt' : G) :
    Represents reading startedAt' startedAt' now w.reset := by
  rw [Represents, reset, hrunning, if_neg Bool.false_ne_true, sub_self, map_zero]

end

end Stopwatch
