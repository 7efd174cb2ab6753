import Mathlib.Data.Nat.Notation

/-!
# Loops that may fail or never end

A loop of an imperative program whose passes can fail and whose end is not certain. A pass fails, or
goes on with a new state, or leaves the loop with a result. The loop is run with fuel, and has not
ended as long as the fuel does not suffice. It never ends if no fuel suffices.

## Main definitions

* `FallibleLoop.run`: the loop with fuel.
* `FallibleLoop.Ends`: the loop ends with a failure or a result.

## Main results

* `FallibleLoop.ends_of_next`, `FallibleLoop.ends_of_exit`, `FallibleLoop.ends_of_error`: the rules
  of a pass.
* `FallibleLoop.ends_foldl`: loops that take an input apart.
* `FallibleLoop.not_ends`: loops that always go on.
-/

namespace FallibleLoop

variable {S R ε : Type*}

/-- The outcome of the loop if it ends within the given number of passes. -/
def run (pass : S → Except ε (S ⊕ R)) : S → ℕ → Option (Except ε R)
  | _, 0 => none
  | s, fuel + 1 =>
    match pass s with
    | .error e => some (.error e)
    | .ok (.inr r) => some (.ok r)
    | .ok (.inl t) => run pass t fuel

/-- A computation with fuel ends with an outcome. -/
def Ends (f : ℕ → Option (Except ε R)) (outcome : Except ε R) : Prop :=
  ∃ fuel, f fuel = some outcome

variable {pass : S → Except ε (S ⊕ R)} {s t : S} {outcome : Except ε R}

theorem run_of_next (h : pass s = .ok (.inl t)) (fuel : ℕ) :
    run pass s (fuel + 1) = run pass t fuel := by
  rw [run, h]

/-- A pass that goes on. -/
theorem ends_of_next (h : pass s = .ok (.inl t)) :
    Ends (run pass s) outcome ↔ Ends (run pass t) outcome := by
  constructor
  · rintro ⟨_ | fuel, hrun⟩
    · cases hrun
    · exact ⟨fuel, by rwa [run_of_next h] at hrun⟩
  · rintro ⟨fuel, hrun⟩
    exact ⟨fuel + 1, by rwa [run_of_next h]⟩

/-- A loop whose next pass ends it in any case. -/
theorem ends_iff_of_run {o : Except ε R} (h : ∀ fuel, run pass s (fuel + 1) = some o) :
    Ends (run pass s) outcome ↔ outcome = o := by
  constructor
  · rintro ⟨_ | fuel, hrun⟩
    · cases hrun
    · rw [h] at hrun
      exact (Option.some.inj hrun).symm
  · rintro rfl
    exact ⟨1, h 0⟩

/-- A computation that needs no fuel. -/
theorem ends_const {o : Except ε R} : Ends (fun _ => some o) outcome ↔ outcome = o :=
  ⟨fun ⟨_, h⟩ => (Option.some.inj h).symm, fun h => ⟨0, congrArg some h.symm⟩⟩

/-- A pass that leaves the loop. -/
theorem ends_of_exit {r : R} (h : pass s = .ok (.inr r)) :
    Ends (run pass s) outcome ↔ outcome = .ok r :=
  ends_iff_of_run fun fuel => by rw [run, h]

/-- A pass that fails. -/
theorem ends_of_error {e : ε} (h : pass s = .error e) :
    Ends (run pass s) outcome ↔ outcome = .error e :=
  ends_iff_of_run fun fuel => by rw [run, h]

/-- A loop that takes an input apart: while an element is left, a pass goes on with it. -/
theorem ends_foldl {α : Type*} {advance : S → α → S} {P : S → List α → Prop}
    (hpass : ∀ s a as, P s (a :: as) →
      pass s = .ok (.inl (advance s a)) ∧ P (advance s a) as)
    {as : List α} (h : P s as) :
    P (as.foldl advance s) [] ∧
      (Ends (run pass s) outcome ↔ Ends (run pass (as.foldl advance s)) outcome) := by
  induction as generalizing s with
  | nil => exact ⟨h, Iff.rfl⟩
  | cons a as ih =>
    obtain ⟨hnext, hrest⟩ := hpass s a as h
    obtain ⟨hend, hiff⟩ := ih hrest
    exact ⟨hend, (ends_of_next hnext).trans hiff⟩

/-- **Loops that never end.** If every pass from a state with the invariant goes on with such a
state, the loop does not end. -/
theorem not_ends {I : S → Prop} (hpass : ∀ s, I s → ∃ t, pass s = .ok (.inl t) ∧ I t) (hs : I s) :
    ¬ Ends (run pass s) outcome := by
  rintro ⟨fuel, hrun⟩
  induction fuel generalizing s with
  | zero => cases hrun
  | succ fuel ih =>
    obtain ⟨t, ht, hI⟩ := hpass s hs
    rw [run_of_next ht] at hrun
    exact ih hI hrun

end FallibleLoop
