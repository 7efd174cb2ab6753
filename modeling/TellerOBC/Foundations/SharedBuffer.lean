import Mathlib.Data.List.GetD

/-!
# Windows of a shared buffer

Several clients write to the start of one buffer, and later read what they wrote from a window of
places. What a client reads is what it wrote as long as the writes of the others leave its window
as it is.

## Main definitions

* `SharedBuffer.writeFront`, `SharedBuffer.window`.

## Main results

* `SharedBuffer.window_writeFront`: a client finds what it wrote.
* `SharedBuffer.window_eq_cons`: reading a window element by element.
-/

namespace SharedBuffer

variable {β : Type*} {n : ℕ}

/-- Write a list to the start of a buffer. What does not fit is lost. -/
@[irreducible] def writeFront (buffer : Vector β n) (written : List β) : Vector β n :=
  Vector.ofFn fun k => written.getD k buffer[k]

/-- The places of a buffer from the first one up to, but without, the last one. -/
def window (buffer : Vector β n) (first last : ℕ) : List β :=
  (buffer.toList.take last).drop first

/-- A client finds what it wrote. -/
theorem window_writeFront (buffer : Vector β n) {written : List β} (h : written.length ≤ n) :
    window (writeFront buffer written) 0 written.length = written := by
  refine List.ext_getElem ?_ fun k hk hk' => ?_
  · simp only [window, List.drop_zero, List.length_take, Vector.length_toList]
    exact Nat.min_eq_left h
  · simp only [window, writeFront, List.drop_zero, List.getElem_take, Vector.getElem_toList,
      Vector.getElem_ofFn, List.getD_eq_getElem _ _ hk']

theorem window_self (buffer : Vector β n) (k : ℕ) : window buffer k k = [] :=
  List.drop_eq_nil_of_le (List.length_take_le _ _)

/-- The first element of a window. -/
theorem window_eq_cons (buffer : Vector β n) {first last : ℕ} (h : first < last) (hn : first < n) :
    window buffer first last = buffer[first] :: window buffer (first + 1) last := by
  have hlength : first < (buffer.toList.take last).length := by
    rw [List.length_take, Vector.length_toList]
    exact Nat.lt_min.mpr ⟨h, hn⟩
  rw [window, window, List.drop_eq_getElem_cons hlength, List.getElem_take, Vector.getElem_toList]

end SharedBuffer
