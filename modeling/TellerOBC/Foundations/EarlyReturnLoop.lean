import Mathlib.Data.Nat.Notation
import Mathlib.Logic.Relation

/-!
# While loops with early return

The loop `while (cond) { body }` of an imperative program whose body may leave the enclosing
function. A pass of the body maps the state to a new state together with `some r` when the body
left the loop with the result `r`, and with `none` when the loop goes on. The loop is run with
fuel; the rule `EarlyReturnLoop.rule` asks for a measure below the fuel that every pass going on
decreases, so what it proves is the meaning of the loop and not of a loop that was cut off.

## Main definitions

* `EarlyReturnLoop.loop`: the loop with fuel.
* `EarlyReturnLoop.Pass`: a pass that goes on.

## Main results

* `EarlyReturnLoop.rule`: the total-correctness rule of the loop.
* `EarlyReturnLoop.invariant`: what every pass keeps is kept by the loop.
* `EarlyReturnLoop.established`: what every pass establishes holds after the loop.
* `EarlyReturnLoop.loop_congr`: loops whose bodies agree where an invariant holds.
* `EarlyReturnLoop.loop_of_passes`: a loop ends with the pass that leaves it.
-/

namespace EarlyReturnLoop

variable {S R : Type*} (cond : S → Bool) (body : S → S × Option R) (exit : R)

/-- Run `while (cond) { body }` with at most the given number of passes. The result is `exit`
when the condition ends the loop. -/
def loop : ℕ → S → R × S
  | 0, s => (exit, s)
  | fuel + 1, s =>
    if cond s then
      match body s with
      | (t, some r) => (r, t)
      | (t, none) => loop fuel t
    else (exit, s)

/-- A pass of the loop after which it goes on. -/
def Pass (s t : S) : Prop := cond s = true ∧ body s = (t, none)

variable {cond body exit}

/-- **The rule of the loop.** A pass from a state with the invariant either leaves the loop in a
state of the postcondition or keeps the invariant and decreases the measure; the invariant and
the negated condition give the postcondition of the normal exit. -/
theorem rule {I : S → Prop} {Q : R → S → Prop} (μ : S → ℕ)
    (hleave : ∀ s t r, I s → cond s = true → body s = (t, some r) → Q r t)
    (hpass : ∀ s t, I s → cond s = true → body s = (t, none) → I t ∧ μ t < μ s)
    (hexit : ∀ s, I s → cond s = false → Q exit s) :
    ∀ fuel s, I s → μ s < fuel →
      Q (loop cond body exit fuel s).1 (loop cond body exit fuel s).2 := by
  intro fuel
  induction fuel with
  | zero => intro s _ h; exact absurd h (Nat.not_lt_zero _)
  | succ fuel ih =>
    intro s hs hμ
    cases hc : cond s with
    | false => simpa only [loop, hc, Bool.false_eq_true, ↓reduceIte] using hexit s hs hc
    | true =>
      rcases hb : body s with ⟨t, r | r⟩
      · obtain ⟨ht, hlt⟩ := hpass s t hs hc hb
        simpa only [loop, hc, hb, ↓reduceIte] using ih t ht (by omega)
      · simpa only [loop, hc, hb, ↓reduceIte] using hleave s t r hs hc hb

/-- What every pass keeps holds when the loop ends. -/
theorem invariant {I : S → Prop} (hbody : ∀ s, I s → cond s = true → I (body s).1) :
    ∀ fuel s, I s → I (loop cond body exit fuel s).2 := by
  intro fuel
  induction fuel with
  | zero => intro s hs; exact hs
  | succ fuel ih =>
    intro s hs
    cases hc : cond s with
    | false => simpa only [loop, hc, Bool.false_eq_true, ↓reduceIte] using hs
    | true =>
      have hb := hbody s hs hc
      rcases h : body s with ⟨t, r | r⟩
      · rw [h] at hb
        simpa only [loop, hc, h, ↓reduceIte] using ih t hb
      · rw [h] at hb
        simpa only [loop, hc, h, ↓reduceIte] using hb

/-- What every pass establishes holds when a loop ends that was entered. -/
theorem established {I Q : S → Prop}
    (hbody : ∀ s, I s → cond s = true → I (body s).1 ∧ Q (body s).1) (fuel : ℕ) {s : S}
    (hs : I s) (hcond : cond s = true) : Q (loop cond body exit (fuel + 1) s).2 := by
  have hb := hbody s hs hcond
  rcases h : body s with ⟨t, r | r⟩
  · rw [h] at hb
    have hloop : Q (loop cond body exit fuel t).2 :=
      (invariant (I := fun s => I s ∧ Q s) (fun s hs hc => hbody s hs.1 hc) fuel t hb).2
    simpa only [loop, hcond, h, ↓reduceIte] using hloop
  · rw [h] at hb
    simpa only [loop, hcond, h, ↓reduceIte] using hb.2

/-- Loops whose bodies agree in all states that are passed through have the same result. -/
theorem loop_congr {body' : S → S × Option R} {I : S → Prop}
    (hbody : ∀ s, I s → cond s = true → body s = body' s ∧ I (body s).1) :
    ∀ fuel s, I s → loop cond body exit fuel s = loop cond body' exit fuel s := by
  intro fuel
  induction fuel with
  | zero => intro s _; rfl
  | succ fuel ih =>
    intro s hs
    cases hc : cond s with
    | false => simp only [loop, hc, Bool.false_eq_true, ↓reduceIte]
    | true =>
      obtain ⟨heq, hI⟩ := hbody s hs hc
      rcases hb : body s with ⟨t, r | r⟩
      · rw [hb] at heq hI
        simpa only [loop, hc, hb, ← heq, ↓reduceIte] using ih t hI
      · rw [hb] at heq
        simp only [loop, hc, hb, ← heq, ↓reduceIte]

/-- A loop that can only be left with the result of its normal exit has that result. -/
theorem loop_fst (hleave : ∀ s t r, body s = (t, some r) → r = exit) :
    ∀ fuel s, (loop cond body exit fuel s).1 = exit := by
  intro fuel
  induction fuel with
  | zero => intro s; rfl
  | succ fuel ih =>
    intro s
    cases hc : cond s with
    | false => simp only [loop, hc, Bool.false_eq_true, ↓reduceIte]
    | true =>
      rcases hb : body s with ⟨t, r | r⟩
      · simpa only [loop, hc, hb, ↓reduceIte] using ih t
      · simpa only [loop, hc, hb, ↓reduceIte] using hleave s t r hb

/-- A loop that comes to a pass that leaves it ends there, with the result of that pass. -/
theorem loop_of_passes {s t u : S} {r : R} (μ : S → ℕ)
    (hμ : ∀ s t, Pass cond body s t → μ t < μ s)
    (hpasses : Relation.ReflTransGen (Pass cond body) s t) (hcond : cond t = true)
    (hbody : body t = (u, some r)) {fuel : ℕ} (hfuel : μ s < fuel) :
    loop cond body exit fuel s = (r, u) := by
  induction hpasses using Relation.ReflTransGen.head_induction_on generalizing fuel with
  | refl =>
    obtain ⟨fuel, rfl⟩ := Nat.exists_eq_add_one.mpr (Nat.zero_lt_of_lt hfuel)
    simp only [loop, hcond, hbody, ↓reduceIte]
  | head hpass _ ih =>
    obtain ⟨fuel, rfl⟩ := Nat.exists_eq_add_one.mpr (Nat.zero_lt_of_lt hfuel)
    have hlt := hμ _ _ hpass
    simp only [loop, hpass.1, hpass.2, ↓reduceIte]
    exact ih (by omega)

end EarlyReturnLoop
