import Mathlib.Data.List.Basic

/-!
# Running means of measurements

`core/math/running_mean.hpp`, at the vectors of `core/math/vector.hpp`, with the measurements of
`core/telem/generic.h`. The components of a vector are of an arbitrary type with some operations of
floating point numbers, of which no laws are assumed.

The number of samples is not bounded here.

## Main definitions

* `TellerOBC.Scalar`, `TellerOBC.Vector3`, `TellerOBC.Measurement3d`.
* `TellerOBC.RunningMean`, with `reset`, `add`.
* `TellerOBC.meanOf`: the running mean of some samples.
-/

namespace TellerOBC

/-- The operations on the components of vectors. -/
class Scalar (F : Type*) extends Zero F, Add F, Sub F, Neg F, Mul F, Div F, NatCast F

/-- A vector: `Vector3`. -/
@[ext]
structure Vector3 (F : Type*) where
  x : F
  y : F
  z : F
  deriving DecidableEq, Repr

/-- A measurement: `measurement_3d_t`. -/
structure Measurement3d (F : Type*) where
  timestampInMsec : UInt32
  value : Vector3 F
  deriving DecidableEq, Repr

namespace Vector3

variable {F : Type*}

/-- The vector with equal components. -/
def const (a : F) : Vector3 F := ⟨a, a, a⟩

/-- An operation on the components of two vectors. -/
def zipWith (f : F → F → F) (v w : Vector3 F) : Vector3 F := ⟨f v.x w.x, f v.y w.y, f v.z w.z⟩

/-- An operation on the components of a vector. -/
def map (f : F → F) (v : Vector3 F) : Vector3 F := ⟨f v.x, f v.y, f v.z⟩

end Vector3

/-- A running mean. -/
structure RunningMean (F : Type*) where
  numSamples : ℕ
  current : Vector3 F
  deriving DecidableEq, Repr

namespace RunningMean

variable {F : Type*} [Scalar F]

/-- `reset`. -/
def reset : RunningMean F := ⟨0, .const 0⟩

/-- `add`. -/
def add (mean : RunningMean F) (sample : Vector3 F) : RunningMean F where
  numSamples := mean.numSamples + 1
  current := mean.current.zipWith (· + ·)
    ((sample.zipWith (· - ·) mean.current).map (· / ((mean.numSamples + 1 : ℕ) : F)))

end RunningMean

section

variable {F : Type*} [Scalar F]

/-- The running mean of some samples, the last one first. -/
def meanOf (samples : List (Vector3 F)) : RunningMean F :=
  samples.foldr (fun sample mean => mean.add sample) .reset

theorem numSamples_meanOf (samples : List (Vector3 F)) :
    (meanOf samples).numSamples = samples.length := by
  induction samples with
  | nil => rfl
  | cons sample samples ih => exact congrArg (· + 1) ih

end

end TellerOBC
