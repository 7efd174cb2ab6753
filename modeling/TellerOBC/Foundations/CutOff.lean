import TellerOBC.Foundations.Program

/-!
# Programs with loops that may be cut off

A program is a finite tree, so a loop that polls its surroundings until something happens is
given a number of passes, and a run that needs more passes is cut off. A program that may be cut
off has no value then. What is proved of all runs for all numbers of passes holds of the loop
itself: each finite part of its run is a run for a large enough number of passes.

## Main definitions

* `CutOff`: programs that may be cut off, with their monad structure.
* `CutOff.Runs`: the runs, with `none` for the value of a run that was cut off.
* `CutOff.Emits`: a property of all events.
* `CutOff.Triple`: what holds before and after the runs in an environment.
* `CutOff.Ends`: the run in an environment is not cut off.

## Main results

* `CutOff.runs_bind`, `CutOff.Emits.bind`, `CutOff.Triple.bind`, `CutOff.Ends.bind`: sequential
  composition.
* `CutOff.Emits.triple`: what all events keep is kept by the runs.
-/

/-- Programs that may be cut off before they have a value. -/
abbrev CutOff {Call : Type} (Answer : Call → Type) (α : Type) : Type :=
  OptionT (Program Answer) α

namespace CutOff

open Program

variable {Call : Type} {Answer : Call → Type} {α β W : Type}

/-- The program that makes one call. -/
def perform (c : Call) : CutOff Answer (Answer c) :=
  OptionT.mk (.call c fun answer => .done (some answer))

/-- The program that is cut off at once. -/
def stop : CutOff Answer α := OptionT.mk (.done none)

/-- The program can have these events and end with this value, or be cut off. -/
def Runs (p : CutOff Answer α) (es : List (Event Answer)) (r : Option α) : Prop :=
  Program.Runs p.run es r

variable {p : CutOff Answer α} {f : α → CutOff Answer β} {es : List (Event Answer)}

theorem runs_pure {a : α} {r : Option α} :
    Runs (pure a : CutOff Answer α) es r ↔ es = [] ∧ r = some a := Iff.rfl

theorem runs_perform {c : Call} {r : Option (Answer c)} :
    Runs (perform c : CutOff Answer (Answer c)) es r ↔
      ∃ answer, es = [⟨c, answer⟩] ∧ r = some answer := by
  constructor
  · rintro ⟨answer, _, rfl, rfl, rfl⟩
    exact ⟨answer, rfl, rfl⟩
  · rintro ⟨answer, rfl, rfl⟩
    exact ⟨answer, [], rfl, rfl, rfl⟩

theorem runs_perform_bind {c : Call} {f : Answer c → CutOff Answer β} {r : Option β} :
    Runs (perform c >>= f) es r ↔
      ∃ answer rest, es = ⟨c, answer⟩ :: rest ∧ Runs (f answer) rest r := Iff.rfl

/-- A composition is cut off in its first part, or runs through both parts. -/
theorem runs_bind {r : Option β} : Runs (p >>= f) es r ↔
    (Runs p es none ∧ r = none) ∨
      ∃ es₁ es₂ a, es = es₁ ++ es₂ ∧ Runs p es₁ (some a) ∧ Runs (f a) es₂ r := by
  rw [Runs, OptionT.run_bind, Option.elimM, Program.runs_bind]
  constructor
  · rintro ⟨es₁, es₂, o, rfl, hp, hf⟩
    cases o with
    | none =>
      obtain ⟨rfl, rfl⟩ := hf
      rw [List.append_nil]
      exact Or.inl ⟨hp, rfl⟩
    | some a => exact Or.inr ⟨es₁, es₂, a, rfl, hp, hf⟩
  · rintro (⟨hp, rfl⟩ | ⟨es₁, es₂, a, rfl, hp, hf⟩)
    · exact ⟨es, [], none, (List.append_nil es).symm, hp, rfl, rfl⟩
    · exact ⟨es₁, es₂, some a, rfl, hp, hf⟩

/-! ### Properties of all events -/

/-- All events of all runs satisfy `P`. -/
def Emits (P : Event Answer → Prop) (p : CutOff Answer α) : Prop :=
  ∀ es r, Runs p es r → ∀ e ∈ es, P e

variable {P : Event Answer → Prop}

theorem Emits.pure (a : α) : Emits P (pure a : CutOff Answer α) := by
  rintro es r ⟨rfl, -⟩ e he
  exact absurd he List.not_mem_nil

theorem Emits.stop : Emits P (stop : CutOff Answer α) := by
  rintro es r ⟨rfl, -⟩ e he
  exact absurd he List.not_mem_nil

theorem Emits.perform {c : Call} (h : ∀ answer, P ⟨c, answer⟩) :
    Emits P (perform c : CutOff Answer (Answer c)) := by
  intro es r hruns e he
  obtain ⟨answer, rfl, -⟩ := runs_perform.mp hruns
  rw [List.mem_singleton.mp he]
  exact h answer

theorem Emits.bind (hp : Emits P p) (hf : ∀ a, Emits P (f a)) : Emits P (p >>= f) := by
  intro es r hruns e he
  rcases runs_bind.mp hruns with ⟨hcut, -⟩ | ⟨es₁, es₂, a, rfl, h₁, h₂⟩
  · exact hp es none hcut e he
  · rcases List.mem_append.mp he with he | he
    · exact hp es₁ _ h₁ e he
    · exact hf a es₂ r h₂ e he

theorem Emits.ite {c : Prop} [Decidable c] {q : CutOff Answer α} (hp : c → Emits P p)
    (hq : ¬c → Emits P q) : Emits P (if c then p else q) := by
  split
  · exact hp ‹_›
  · exact hq ‹_›

theorem Emits.mono {Q : Event Answer → Prop} (h : ∀ e, P e → Q e) (hp : Emits P p) : Emits Q p :=
  fun es r hruns e he => h e (hp es r hruns e he)

/-! ### Runs in an environment -/

/-- After a first part that has a value, the rest runs from the state it leaves. -/
theorem exec_bind_of_some {env : Environment Answer W} {a : α} {w w' : W}
    (h : p.run.exec env w = (some a, w')) (f : α → CutOff Answer β) :
    (p >>= f).run.exec env w = (f a).run.exec env w' := by
  rw [OptionT.run_bind, Option.elimM, exec_bind, h]
  rfl

/-- From a state with `pre`, a run in the environment that is not cut off ends with `post`. -/
def Triple (env : Environment Answer W) (pre : W → Prop) (p : CutOff Answer α)
    (post : α → W → Prop) : Prop :=
  ∀ w, pre w → ∀ a, (p.run.exec env w).1 = some a → post a (p.run.exec env w).2

variable {env : Environment Answer W} {pre : W → Prop} {post : α → W → Prop}

theorem Triple.pure {a : α} (h : ∀ w, pre w → post a w) :
    Triple env pre (pure a : CutOff Answer α) post := by
  intro w hw a' ha'
  obtain rfl : a = a' := Option.some.inj ha'
  exact h w hw

theorem Triple.stop : Triple env pre (stop : CutOff Answer α) post := fun _ _ _ => nofun

theorem Triple.perform {c : Call} {post : Answer c → W → Prop}
    (h : ∀ w, pre w → post (env c w).1 (env c w).2) :
    Triple env pre (perform c : CutOff Answer (Answer c)) post := by
  intro w hw answer hanswer
  obtain rfl : (env c w).1 = answer := Option.some.inj hanswer
  exact h w hw

theorem Triple.bind {Q : α → W → Prop} {post : β → W → Prop} (hp : Triple env pre p Q)
    (hf : ∀ a, Triple env (Q a) (f a) post) : Triple env pre (p >>= f) post := by
  intro w hw b hb
  rw [OptionT.run_bind, Option.elimM, exec_bind] at hb ⊢
  cases ho : (p.run.exec env w).1 with
  | none =>
    rw [ho] at hb
    cases hb
  | some a =>
    rw [ho] at hb
    exact hf a _ (hp w hw a ho) b hb

theorem Triple.ite {c : Prop} [Decidable c] {q : CutOff Answer α}
    (hp : c → Triple env pre p post) (hq : ¬c → Triple env pre q post) :
    Triple env pre (if c then p else q) post := by
  split
  · exact hp ‹_›
  · exact hq ‹_›

theorem Triple.weaken {pre' : W → Prop} {post' : α → W → Prop} (h : Triple env pre p post)
    (hpre : ∀ w, pre' w → pre w) (hpost : ∀ a w, post a w → post' a w) :
    Triple env pre' p post' :=
  fun w hw a ha => hpost a _ (h w (hpre w hw) a ha)

/-- A part of the assertion before that does not depend on the state may be assumed. -/
theorem Triple.of_and {φ : Prop} (h : φ → Triple env pre p post) :
    Triple env (fun w => pre w ∧ φ) p post :=
  fun w hw => h hw.2 w hw.1

/-- From the state, the run in the environment is not cut off and ends with `post`. -/
def Ends (env : Environment Answer W) (p : CutOff Answer α) (post : α → W → Prop) (w : W) : Prop :=
  ∃ a w', p.run.exec env w = (some a, w') ∧ post a w'

variable {w : W}

theorem Ends.pure {a : α} (h : post a w) : Ends env (pure a : CutOff Answer α) post w :=
  ⟨a, w, rfl, h⟩

theorem Ends.perform {c : Call} {post : Answer c → W → Prop} (h : post (env c w).1 (env c w).2) :
    Ends env (perform c : CutOff Answer (Answer c)) post w :=
  ⟨(env c w).1, (env c w).2, rfl, h⟩

theorem Ends.bind {post : β → W → Prop} (h : Ends env p (fun a => Ends env (f a) post) w) :
    Ends env (p >>= f) post w := by
  obtain ⟨a, w', hp, b, w'', hf, hpost⟩ := h
  exact ⟨b, w'', (exec_bind_of_some hp f).trans hf, hpost⟩

theorem Ends.ite {c : Prop} [Decidable c] {q : CutOff Answer α} (hp : c → Ends env p post w)
    (hq : ¬c → Ends env q post w) : Ends env (if c then p else q) post w := by
  split
  · exact hp ‹_›
  · exact hq ‹_›

theorem Ends.mono {post' : α → W → Prop} (h : Ends env p post w)
    (hpost : ∀ a w', post a w' → post' a w') : Ends env p post' w := by
  obtain ⟨a, w', hp, ha⟩ := h
  exact ⟨a, w', hp, hpost a w' ha⟩

/-- A program all of whose events keep an assertion keeps it. -/
theorem Emits.triple {I : W → Prop} (hp : Emits P p)
    (hkeep : ∀ c w, P ⟨c, (env c w).1⟩ → I w → I (env c w).2) :
    Triple env I p fun _ => I := by
  have hall : ∀ (q : Program Answer (Option α)) w, (∀ e ∈ q.trace env w, P e) → I w →
      I (q.exec env w).2 := by
    intro q
    induction q with
    | done a => exact fun w _ hI => hI
    | call c next ih =>
      intro w hP hI
      have hhead := hP _ List.mem_cons_self
      exact ih _ _ (fun e he => hP e (List.mem_cons_of_mem _ he)) (hkeep c w hhead hI)
  exact fun w hI a _ => hall p.run w (hp _ _ (runs_trace env p.run w)) hI

end CutOff
