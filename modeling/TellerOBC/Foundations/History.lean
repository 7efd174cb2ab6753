import Mathlib.Data.List.Infix
import Mathlib.Tactic.Common

/-!
# Histories of machines with outputs

A machine with outputs takes inputs one after the other; its history pairs every input with the
output at it. An invariant relates the history to the state. What a machine remembers of its past is
an event *since* which something has held of all later events, the operator of temporal logic.

## Main definitions

* `Machine.final`, `Machine.history`: the state and the history after inputs.
* `Machine.Since`: an event of a history with what has held since.

## Main results

* `Machine.invariant`: the invariant rule for histories.
* `Machine.since_concat_iff`: what one more event does to it.
-/

namespace Machine

variable {S I O : Type*}

/-- The state after inputs. -/
def final (step : S → I → O × S) (s : S) (inputs : List I) : S :=
  inputs.foldl (fun s i => (step s i).2) s

/-- The inputs with the outputs at them. -/
def history (step : S → I → O × S) : S → List I → List (I × O)
  | _, [] => []
  | s, i :: inputs => (i, (step s i).1) :: history step (step s i).2 inputs

variable (step : S → I → O × S) (s : S)

theorem final_concat (inputs : List I) (i : I) :
    final step s (inputs ++ [i]) = (step (final step s inputs) i).2 := by
  simp only [final, List.foldl_append, List.foldl_cons, List.foldl_nil]

theorem history_concat (inputs : List I) (i : I) :
    history step s (inputs ++ [i]) =
      history step s inputs ++ [(i, (step (final step s inputs) i).1)] := by
  induction inputs generalizing s with
  | nil => rfl
  | cons first inputs ih => exact congrArg ((first, (step s first).1) :: ·) (ih (step s first).2)

theorem map_fst_history (inputs : List I) : (history step s inputs).map Prod.fst = inputs := by
  induction inputs generalizing s with
  | nil => rfl
  | cons first inputs ih => exact congrArg (first :: ·) (ih (step s first).2)

variable {step s}

/-- **Invariants of histories.** What holds at the beginning and is kept by every step holds after
all inputs. -/
theorem invariant {Inv : List (I × O) → S → Prop} (hstart : Inv [] s)
    (hstep : ∀ past s i, Inv past s → Inv (past ++ [(i, (step s i).1)]) (step s i).2)
    (inputs : List I) : Inv (history step s inputs) (final step s inputs) := by
  induction inputs using List.reverseRecOn with
  | nil => exact hstart
  | append_singleton inputs i ih =>
    rw [history_concat, final_concat]
    exact hstep _ _ i ih

/-! ### Since -/

variable {E : Type*} {p : E → Prop} {q : E → E → Prop} {past : List E} {e e' : E}

/-- The event `e` is of the kind `p`, and all later events are related to it by `q`. -/
def Since (p : E → Prop) (q : E → E → Prop) (past : List E) (e : E) : Prop :=
  p e ∧ ∃ before after, past = before ++ e :: after ∧ ∀ e' ∈ after, q e e'

theorem not_since_nil (e : E) : ¬Since p q [] e := by
  rintro ⟨-, before, after, heq, -⟩
  exact List.append_ne_nil_of_right_ne_nil before (List.cons_ne_nil e after) heq.symm

/-- One more event is the event itself or a later one. -/
theorem since_concat_iff :
    Since p q (past ++ [e']) e ↔ p e ∧ e = e' ∨ Since p q past e ∧ q e e' := by
  constructor
  · rintro ⟨he, before, after, heq, hall⟩
    rcases List.eq_nil_or_concat' after with rfl | ⟨init, last, rfl⟩
    · exact Or.inl ⟨he, (List.singleton_inj.mp (List.append_inj' heq rfl).2).symm⟩
    · rw [← List.cons_append, ← List.append_assoc] at heq
      obtain ⟨hinit, hlast⟩ := List.append_inj' heq rfl
      rw [List.singleton_inj] at hlast
      rw [hlast]
      exact Or.inr ⟨⟨he, before, init, hinit, fun x hx => hall x (List.mem_append_left _ hx)⟩,
        hall last (List.mem_append_right _ (List.mem_singleton_self last))⟩
  · rintro (⟨he, rfl⟩ | ⟨⟨he, before, after, rfl, hall⟩, hlast⟩)
    · exact ⟨he, past, [], rfl, List.forall_mem_nil _⟩
    · refine ⟨he, before, after ++ [e'], by simp, fun x hx => ?_⟩
      rcases List.mem_append.mp hx with hx | hx
      · exact hall x hx
      · rwa [List.mem_singleton.mp hx]

end Machine
