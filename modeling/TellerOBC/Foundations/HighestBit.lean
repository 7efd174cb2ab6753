import Mathlib.Data.Nat.Bitwise

/-!
# The highest bit of a number, by smearing

A number `y` *covers* the bits of `x` over `k` places if each bit of `y` says whether `x` has a bit
at that place or at one of the `k - 1` places above it. Shifting by `k` and combining doubles the
number of places. A number that covers all bits of `x` has ones up to the highest bit of `x`, and
its upper half is that bit alone.

## Main definitions

* `HighestBit.Covers`.

## Main results

* `HighestBit.Covers.or_shiftRight`: one step of the smearing.
* `HighestBit.Covers.sub_shiftRight`: the highest bit.
-/

namespace HighestBit

/-- A bit of `y` is set if a bit of `x` is set at its place or less than `k` places above. -/
def Covers (k x y : ℕ) : Prop :=
  ∀ i, y.testBit i = true ↔ ∃ j < k, x.testBit (i + j) = true

theorem covers_one (x : ℕ) : Covers 1 x x := by
  intro i
  refine ⟨fun h => ⟨0, Nat.zero_lt_one, h⟩, ?_⟩
  rintro ⟨j, hj, h⟩
  rwa [Nat.lt_one_iff.mp hj] at h

namespace Covers

variable {k x y : ℕ}

/-- **Smearing** doubles the number of places. -/
theorem or_shiftRight (h : Covers k x y) : Covers (k + k) x (y ||| y >>> k) := by
  intro i
  rw [Nat.testBit_or, Bool.or_eq_true, Nat.testBit_shiftRight, h i, h (k + i)]
  constructor
  · rintro (⟨j, hj, hx⟩ | ⟨j, hj, hx⟩)
    · exact ⟨j, hj.trans_le (Nat.le_add_right k k), hx⟩
    · refine ⟨k + j, Nat.add_lt_add_left hj k, ?_⟩
      rwa [← Nat.add_assoc, Nat.add_comm i k]
  · rintro ⟨j, hj, hx⟩
    rcases lt_or_ge j k with hlt | hle
    · exact Or.inl ⟨j, hlt, hx⟩
    · refine Or.inr ⟨j - k, Nat.sub_lt_left_of_lt_add hle hj, ?_⟩
      rwa [show k + i + (j - k) = i + j by omega]

/-- A number that covers all bits has ones up to the highest one. -/
theorem eq_two_pow_sub_one (h : Covers k x y) (hx : x ≠ 0) (hk : x < 2 ^ k) :
    y = 2 ^ (x.log2 + 1) - 1 := by
  refine Nat.eq_of_testBit_eq fun i => ?_
  rw [Nat.testBit_two_pow_sub_one, Bool.eq_iff_iff, h i, decide_eq_true_eq, Nat.lt_succ_iff]
  constructor
  · rintro ⟨j, -, hbit⟩
    exact (Nat.le_add_right i j).trans ((Nat.le_log2 hx).mpr (Nat.ge_two_pow_of_testBit hbit))
  · intro hi
    have hlog : x.log2 < k := (Nat.log2_lt hx).mpr hk
    refine ⟨x.log2 - i, (Nat.sub_le _ _).trans_lt hlog, ?_⟩
    rw [Nat.add_sub_cancel' hi]
    exact Nat.testBit_log2 hx

/-- **The highest bit** is what remains of a number that covers all bits without its lower half. -/
theorem sub_shiftRight (h : Covers k x y) (hx : x ≠ 0) (hk : x < 2 ^ k) :
    y - y >>> 1 = 2 ^ x.log2 := by
  have hpos := Nat.two_pow_pos x.log2
  rw [h.eq_two_pow_sub_one hx hk, Nat.shiftRight_eq_div_pow, pow_succ]
  omega

end Covers

end HighestBit
