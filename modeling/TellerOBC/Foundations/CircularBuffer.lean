import Mathlib.Data.List.Rotate
import TellerOBC.Foundations.CheckedMemory

/-!
# Circular buffers

An array that is used in circles is seen from a position: the elements from there to the end of the
array, and then those at its start. Moving the position rotates this list. An access of several
elements is one to the linear part of the array behind the position, and a second one to the start
of the array for what does not fit. In the list both are one access to the first elements.

## Main definitions

* `CircularBuffer.next`: a position moved on, around the end of the array.
* `CircularBuffer.viewFrom`: the array seen from a position.
* `CircularBuffer.copyIn`, `CircularBuffer.copyOut`: the accesses in two parts.

## Main results

* `CircularBuffer.viewFrom_next`: the view from a position further on.
* `CircularBuffer.copyOut_eq`: what is read is the start of the view.
* `CircularBuffer.exists_copyIn`: writing replaces the start of the view.
* `CircularBuffer.viewFrom_set`: writing one element.
-/

namespace CircularBuffer

open CheckedMemory

variable {β : Type} {n : ℕ}

/-! ### Positions -/

/-- The position `k` places behind `i` in an array of length `n`. -/
def next (n i k : ℕ) : ℕ := if n ≤ i + k then i + k - n else i + k

theorem next_lt {i k : ℕ} (hi : i < n) (hk : k ≤ n) : next n i k < n := by
  rw [next]
  split_ifs <;> omega

@[simp] theorem next_zero {i : ℕ} (hi : i < n) : next n i 0 = i := if_neg (by omega)

theorem next_eq_mod {i k : ℕ} (hi : i < n) (hk : k ≤ n) : next n i k = (i + k) % n := by
  rw [next]
  split_ifs with h
  · rw [Nat.mod_eq_sub_mod h, Nat.mod_eq_of_lt (by omega)]
  · rw [Nat.mod_eq_of_lt (by omega)]

theorem next_next {i j k : ℕ} (hi : i < n) (hjk : j + k ≤ n) :
    next n (next n i j) k = next n i (j + k) := by
  rw [next, next, next]
  split_ifs <;> omega

/-- Positions less than a round apart are different. -/
theorem next_injective {i j k : ℕ} (hj : j < n) (hk : k < n)
    (h : next n i j = next n i k) : j = k := by
  rw [next, next] at h
  split_ifs at h <;> omega

/-! ### Views -/

/-- The elements of an array from a position to its end, and then those before the position. -/
def viewFrom (buffer : Vector β n) (i : ℕ) : List β := buffer.toList.rotate i

variable (buffer : Vector β n) {i k : ℕ}

@[simp] theorem length_viewFrom (i : ℕ) : (viewFrom buffer i).length = n := by
  rw [viewFrom, List.length_rotate, Vector.length_toList]

theorem viewFrom_of_lt (hi : i < n) :
    viewFrom buffer i = buffer.toList.drop i ++ buffer.toList.take i := by
  rw [viewFrom, List.rotate_eq_drop_append_take]
  rw [Vector.length_toList]
  exact hi.le

theorem viewFrom_of_append {buffer : Vector β n} {l m : List β} (h : buffer.toList = l ++ m) :
    viewFrom buffer l.length = m ++ l := by
  rw [viewFrom, h, List.rotate_append_length_eq]

/-- The view from a position further on. -/
theorem viewFrom_next (hi : i < n) (hk : k ≤ n) :
    viewFrom buffer (next n i k) = (viewFrom buffer i).drop k ++ (viewFrom buffer i).take k := by
  have hrotate : viewFrom buffer (next n i k) = (viewFrom buffer i).rotate k := by
    rw [viewFrom, viewFrom, List.rotate_rotate, next_eq_mod hi hk]
    nth_rewrite 2 [← List.rotate_mod]
    rw [Vector.length_toList]
  rw [hrotate, List.rotate_eq_drop_append_take]
  rw [length_viewFrom]
  exact hk

/-- The view from a position given what it is from an earlier one. -/
theorem viewFrom_next_of_eq_append {l m : List β} (hi : i < n) (h : viewFrom buffer i = l ++ m) :
    viewFrom buffer (next n i l.length) = m ++ l := by
  have hlength : l.length ≤ n := by
    rw [← length_viewFrom buffer i, h, List.length_append]
    exact Nat.le_add_right ..
  rw [viewFrom_next buffer hi hlength, h, List.drop_left, List.take_left]

/-- The view from a position given what it is from a later one. -/
theorem viewFrom_of_next_eq_append {l m : List β} (hi : i < n) (hlength : m.length + l.length = n)
    (h : viewFrom buffer (next n i l.length) = m ++ l) : viewFrom buffer i = l ++ m := by
  have hl : ((viewFrom buffer i).drop l.length).length = m.length := by
    rw [List.length_drop, length_viewFrom]
    omega
  have hview := viewFrom_next buffer hi (k := l.length) (by omega)
  obtain ⟨hdrop, htake⟩ := List.append_inj (hview.symm.trans h) hl
  rw [← List.take_append_drop l.length (viewFrom buffer i), hdrop, htake]

/-! ### Accesses in two parts -/

/-- Read elements from a position on: first up to the end of the array, then from its start. -/
def copyOut (i count : ℕ) : Except Fault (List β) := do
  let tocopy := min (n - i) count
  let linear ← readRange buffer.toList i tocopy
  if 0 < count - tocopy then return linear ++ (← readRange buffer.toList 0 (count - tocopy))
  else return linear

/-- Write the first elements of a list from a position on: first up to the end of the array, then
to its start. -/
def copyIn (i : ℕ) (data : List β) (count : ℕ) : Except Fault (Vector β n) := do
  let tocopy := min (n - i) count
  let buffer ← writeRange buffer i (← readRange data 0 tocopy)
  if 0 < count - tocopy then writeRange buffer 0 (← readRange data tocopy (count - tocopy))
  else return buffer

/-- What is read is the start of the view. -/
theorem copyOut_eq (hi : i < n) (count : ℕ) (hcount : count ≤ n) :
    copyOut buffer i count = .ok ((viewFrom buffer i).take count) := by
  have hn : buffer.toList.length = n := Vector.length_toList
  have hdrop : (buffer.toList.drop i).length = n - i := by rw [List.length_drop, hn]
  rw [viewFrom_of_lt buffer hi, copyOut]
  rcases Nat.le_total count (n - i) with hle | hle
  · -- the elements end before the end of the array
    rw [min_eq_right hle, Nat.sub_self, readRange_of_le (by omega),
      List.take_append_of_le_length (by omega)]
    rfl
  · rw [min_eq_left hle, readRange_of_le (by omega), List.take_append, hdrop,
      List.take_of_length_le (by omega : (buffer.toList.drop i).length ≤ count),
      List.take_of_length_le hdrop.le, List.take_take]
    rcases hle.eq_or_lt with heq | hlt
    · rw [← heq, Nat.sub_self, Nat.zero_min, List.take_zero, List.append_nil]
      rfl
    · rw [readRange_of_le (by omega), List.drop_zero, min_eq_left (by omega)]
      simp only [Nat.sub_pos_of_lt hlt, if_true]
      rfl

theorem exists_append (hi : i < n) : ∃ l m, buffer.toList = l ++ m ∧ l.length = i := by
  refine ⟨buffer.toList.take i, buffer.toList.drop i, (List.take_append_drop ..).symm, ?_⟩
  rw [List.length_take, Vector.length_toList, min_eq_left hi.le]

/-- Writing to the linear part behind a position replaces the start of the view. -/
theorem exists_writeRange_viewFrom (hi : i < n) (written : List β)
    (hfits : i + written.length ≤ n) :
    ∃ buffer', writeRange buffer i written = .ok buffer' ∧
      viewFrom buffer' i = written ++ (viewFrom buffer i).drop written.length := by
  obtain ⟨l, m, hlist, rfl⟩ := exists_append buffer hi
  have hlength : l.length + m.length = n := by
    rw [← List.length_append, ← hlist, Vector.length_toList]
  obtain ⟨buffer', hwrite, hlist'⟩ := exists_writeRange hlist written (by omega)
  rw [List.append_assoc] at hlist'
  refine ⟨buffer', hwrite, ?_⟩
  rw [viewFrom_of_append hlist', viewFrom_of_append hlist, List.append_assoc,
    List.drop_append_of_le_length (by omega)]

/-- Writing replaces the start of the view. -/
theorem exists_copyIn (hi : i < n) {data : List β} {count : ℕ} (hdata : count ≤ data.length)
    (hcount : count ≤ n) :
    ∃ buffer', copyIn buffer i data count = .ok buffer' ∧
      viewFrom buffer' i = data.take count ++ (viewFrom buffer i).drop count := by
  obtain ⟨l, m, hlist, rfl⟩ := exists_append buffer hi
  have hlength : l.length + m.length = n := by
    rw [← List.length_append, ← hlist, Vector.length_toList]
  rcases Nat.lt_or_ge (n - l.length) count with hlt | hle
  · obtain ⟨hm, hwritten⟩ : n - l.length = m.length ∧ (data.take m.length).length = m.length := by
      rw [List.length_take]
      omega
    rw [hm] at hlt
    have hrest : ((data.drop m.length).take (count - m.length)).length = count - m.length := by
      rw [List.length_take, List.length_drop]
      omega
    -- the first part fills the array, the second one goes to its start
    obtain ⟨buffer₁, hwrite₁, hlist₁⟩ := exists_writeRange hlist (data.take m.length) hwritten.le
    rw [hwritten, List.drop_length, List.append_nil] at hlist₁
    obtain ⟨buffer₂, hwrite₂, hlist₂⟩ := exists_writeRange_zero buffer₁
      ((data.drop m.length).take (count - m.length)) (by omega)
    rw [hlist₁, hrest, List.drop_append_of_le_length (by omega), ← List.append_assoc] at hlist₂
    refine ⟨buffer₂, ?_, ?_⟩
    · simp only [copyIn, hm, min_eq_left hlt.le, Nat.sub_pos_of_lt hlt, if_true,
        readRange_of_le (show 0 + m.length ≤ data.length by omega), List.drop_zero, hwrite₁,
        readRange_of_le (show m.length + (count - m.length) ≤ data.length by omega), bind,
        Except.bind]
      exact hwrite₂
    · have hview := viewFrom_of_append hlist₂
      have hl : ((data.drop m.length).take (count - m.length) ++
          l.drop (count - m.length)).length = l.length := by
        rw [List.length_append, hrest, List.length_drop]
        omega
      have htake : data.take count =
          data.take m.length ++ (data.drop m.length).take (count - m.length) := by
        rw [← List.take_add, Nat.add_sub_cancel' hlt.le]
      rw [hl] at hview
      rw [hview, viewFrom_of_append hlist, htake, List.append_assoc, List.drop_append,
        List.drop_eq_nil_of_le hlt.le, List.nil_append]
  · have hwritten : (data.take count).length = count := by rw [List.length_take]; omega
    obtain ⟨buffer', hwrite, hview⟩ :=
      exists_writeRange_viewFrom buffer hi (data.take count) (by omega)
    refine ⟨buffer', ?_, by rw [hview, hwritten]⟩
    simp only [copyIn, min_eq_right hle, Nat.sub_self, Nat.lt_irrefl, if_false,
      readRange_of_le (show 0 + count ≤ data.length by omega), List.drop_zero, hwrite, bind,
      Except.bind]
    rfl

/-- An element of the view. -/
theorem getElem?_viewFrom (hi : i < n) (hk : k < n) {ptr : Fin n} (hptr : (ptr : ℕ) = next n i k) :
    (viewFrom buffer i)[k]? = some (buffer.get ptr) := by
  obtain rfl : ptr = ⟨next n i k, next_lt hi hk.le⟩ := Fin.ext hptr
  rw [viewFrom, List.getElem?_rotate (by rwa [Vector.length_toList]), Vector.length_toList]
  simp only [Vector.get, next_eq_mod hi hk.le, Nat.add_comm i k]
  exact List.getElem?_eq_getElem _

/-- Writing one element changes it in the view from any position. -/
theorem viewFrom_set (hi : i < n) (hk : k < n) (b : β) :
    viewFrom (buffer.set (next n i k) b (next_lt hi hk.le)) i = (viewFrom buffer i).set k b := by
  refine List.ext_getElem (by simp only [length_viewFrom, List.length_set]) fun j hj hj' => ?_
  rw [length_viewFrom] at hj
  simp only [viewFrom, List.getElem_rotate, Vector.length_toList, Vector.getElem_toList,
    List.getElem_set]
  rw [Vector.getElem_set]
  have hpos : next n i k = (j + i) % n ↔ k = j := by
    rw [Nat.add_comm j i, ← next_eq_mod hi hj.le]
    exact ⟨next_injective hk hj, fun h => by rw [h]⟩
  simp only [hpos]

end CircularBuffer
