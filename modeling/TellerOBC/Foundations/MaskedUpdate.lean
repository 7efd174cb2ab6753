import Mathlib.Data.Nat.Notation

/-!
# Masked updates

An update of the bits of a word that a mask selects. Updates one after the other are one update.

## Main definitions

* `BitVec.maskedUpdate`.

## Main results

* `BitVec.getLsbD_maskedUpdate`: the bits after an update.
* `BitVec.maskedUpdate_maskedUpdate`: two updates are one.
-/

namespace BitVec

variable {w : ℕ}

/-- The word with the bits of the value where the mask has ones. -/
def maskedUpdate (old value mask : BitVec w) : BitVec w := (old &&& ~~~mask) ||| (value &&& mask)

theorem getLsbD_maskedUpdate (old value mask : BitVec w) (i : ℕ) :
    (maskedUpdate old value mask).getLsbD i =
      if mask.getLsbD i then value.getLsbD i else old.getLsbD i := by
  rw [maskedUpdate, getLsbD_or, getLsbD_and, getLsbD_and, getLsbD_not]
  by_cases hi : i < w
  · cases mask.getLsbD i <;> simp [hi]
  · simp [getLsbD_of_ge _ _ (Nat.le_of_not_lt hi)]

@[simp] theorem maskedUpdate_zero (old value : BitVec w) :
    maskedUpdate old value 0#w = old := by
  refine eq_of_getLsbD_eq fun i _ => ?_
  rw [getLsbD_maskedUpdate, getLsbD_zero, if_neg Bool.false_ne_true]

/-- Two updates are one. -/
theorem maskedUpdate_maskedUpdate (old v₁ m₁ v₂ m₂ : BitVec w) :
    maskedUpdate (maskedUpdate old v₁ m₁) v₂ m₂ =
      maskedUpdate old (maskedUpdate v₁ v₂ m₂) (m₁ ||| m₂) := by
  refine eq_of_getLsbD_eq fun i _ => ?_
  simp only [getLsbD_maskedUpdate, getLsbD_or]
  cases m₁.getLsbD i <;> cases m₂.getLsbD i <;> rfl

end BitVec
