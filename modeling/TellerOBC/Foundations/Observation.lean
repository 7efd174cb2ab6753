import TellerOBC.Foundations.CutOff

/-!
# What the events of a run show

An observation collects something from the events of a run, such as the headers of commands. Events
show a list of observations if they do so whatever comes after them; then the observations of events
one after the other are those of the parts.

## Main definitions

* `Observation.Shows`: events with these observations.
* `Observation.Hidden`: a program that shows none.

## Main results

* `Observation.Shows.append`, `Observation.Hidden.bind`: parts one after the other.
-/

namespace Observation

open CutOff

variable {ε β : Type} {f : List ε → List β} {es es' : List ε} {obs obs' : List β}

/-- The events show these observations, whatever comes after them. -/
def Shows (f : List ε → List β) (es : List ε) (obs : List β) : Prop :=
  ∀ rest, f (es ++ rest) = obs ++ f rest

theorem Shows.nil : Shows f [] [] := fun _ => rfl

theorem Shows.append (h : Shows f es obs) (h' : Shows f es' obs') :
    Shows f (es ++ es') (obs ++ obs') := by
  intro rest
  rw [List.append_assoc, h, h', List.append_assoc]

theorem Shows.eq (h : Shows f es obs) (hnil : f [] = []) : f es = obs := by
  have heq := h []
  rwa [List.append_nil, hnil, List.append_nil] at heq

/-! ### Programs that show nothing -/

variable {Call : Type} {Answer : Call → Type} {α γ : Type}
  {f : List (Program.Event Answer) → List β}

/-- The program shows nothing in any run. -/
def Hidden (f : List (Program.Event Answer) → List β) (p : CutOff Answer α) : Prop :=
  ∀ es r, Runs p es r → Shows f es []

theorem Hidden.pure (a : α) : Hidden f (pure a : CutOff Answer α) := by
  rintro es r ⟨rfl, -⟩
  exact .nil

theorem Hidden.bind {p : CutOff Answer α} {q : α → CutOff Answer γ} (hp : Hidden f p)
    (hq : ∀ a, Hidden f (q a)) : Hidden f (p >>= q) := by
  intro es r h
  rcases runs_bind.mp h with ⟨hcut, -⟩ | ⟨es₁, es₂, a, rfl, h₁, h₂⟩
  · exact hp es none hcut
  · exact (hp es₁ _ h₁).append (hq a es₂ r h₂)

theorem Hidden.ite {c : Prop} [Decidable c] {p q : CutOff Answer α} (hp : Hidden f p)
    (hq : Hidden f q) : Hidden f (if c then p else q) := by
  split
  · exact hp
  · exact hq

end Observation
