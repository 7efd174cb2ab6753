import Mathlib.Data.Nat.Find
import TellerOBC.Foundations.FallibleLoop

/-!
# Loops that wait for a condition

The loop `while (!condition) wait();` around a condition variable. Other threads change the object
during a wait, and the loop sees it at its beginning and after each of its waits: the object is
given as the sequence of these states. A wait may end for any reason, and so the loop is left only
where the condition holds.

## Main definitions

* `ConditionLoop.pass`: one pass of the loop.

## Main results

* `ConditionLoop.ends_iff`: the loop is left at the first state where the condition holds.
-/

namespace ConditionLoop

open FallibleLoop

variable {S R ε : Type*}

/-- One pass of the loop: it is left with a result if the condition holds, and waits otherwise. -/
def pass (ready : S → Bool) (result : S → R) (states : ℕ → S) (k : ℕ) : Except ε (ℕ ⊕ R) :=
  if ready (states k) then .ok (.inr (result (states k))) else .ok (.inl (k + 1))

variable {ready : S → Bool} {result : S → R} {states : ℕ → S} {outcome : Except ε R}

/-- The loop waits until the condition holds. -/
theorem ends_iff_of_first {n : ℕ} (hready : ready (states n) = true)
    (hwait : ∀ m < n, ready (states m) = false) :
    Ends (run (pass ready result states) 0) outcome ↔ outcome = .ok (result (states n)) := by
  suffices ∀ d k, k + d = n → (Ends (run (pass ready result states) k) outcome ↔
      outcome = .ok (result (states n))) from this n 0 (Nat.zero_add n)
  intro d
  induction d with
  | zero =>
    rintro k rfl
    exact ends_of_exit (if_pos hready)
  | succ d ih =>
    intro k hk
    have hnext : (pass ready result states k : Except ε (ℕ ⊕ R)) = .ok (.inl (k + 1)) :=
      if_neg (by simp [hwait k (by omega)])
    rw [ends_of_next hnext]
    exact ih (k + 1) (by omega)

/-- **The end of the loop.** It is left at the first state where the condition holds, and does not
end if there is none. -/
theorem ends_iff :
    Ends (run (pass ready result states) 0) outcome ↔
      ∃ n, ready (states n) = true ∧ (∀ m < n, ready (states m) = false) ∧
        outcome = .ok (result (states n)) := by
  constructor
  · intro hends
    by_cases hex : ∃ n, ready (states n) = true
    · have hwait : ∀ m < Nat.find hex, ready (states m) = false := fun m hm =>
        Bool.eq_false_iff.mpr (Nat.find_min hex hm)
      exact ⟨_, Nat.find_spec hex, hwait,
        (ends_iff_of_first (Nat.find_spec hex) hwait).mp hends⟩
    · refine absurd hends (not_ends (I := fun _ => True) (fun k _ => ⟨k + 1, ?_, trivial⟩) trivial)
      exact if_neg fun hready => hex ⟨k, hready⟩
  · rintro ⟨n, hready, hwait, rfl⟩
    exact (ends_iff_of_first hready hwait).mpr rfl

end ConditionLoop
