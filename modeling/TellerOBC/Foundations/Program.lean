import Mathlib.Data.List.Basic

/-!
# Programs that call their surroundings

A program either ends with a value or makes a call and goes on depending on the answer. The calls
form a type, and every call has a type of answers. A program has no state of its own: an
environment answers the calls and keeps whatever state there is.

Running a program in an environment gives its value, the final state of the environment, and the
*trace*, the calls with their answers in order. What holds of all events of a program whatever the
answers are (`Program.Always`) holds of its traces in all environments, and a relation between
states that every answer respects is respected by whole runs.

## Main definitions

* `Program`, with its monad structure.
* `Program.Environment`, `Program.exec`, `Program.trace`.
* `Program.Always`: properties of all calls with their answers, and of all values.
* `Program.Runs`: the runs of a program whatever answers the calls.
* `Program.Ensures`: what holds of the values and histories after all runs.

## Main results

* `Program.Always.bind`, `Program.Always.of_runs`: proving and using them.
* `Program.exec_bind`, `Program.Ensures.bind`: sequential composition.
* `Program.exec_respects`, `Program.Always.exec`: what all answers respect is respected by runs.
-/

/-- Programs over calls with given types of answers. -/
inductive Program {Call : Type} (Answer : Call → Type) (α : Type) : Type where
  | done (a : α)
  | call (c : Call) (next : Answer c → Program Answer α)

namespace Program

variable {Call : Type} {Answer : Call → Type} {α β W : Type}

/-- Sequential composition. -/
def bind : Program Answer α → (α → Program Answer β) → Program Answer β
  | done a, f => f a
  | call c next, f => call c fun answer => (next answer).bind f

instance : Monad (Program Answer) where
  pure := done
  bind := bind

/-- The program that makes one call. -/
def perform (c : Call) : Program Answer (Answer c) := call c done

@[simp] theorem pure_eq (a : α) : (pure a : Program Answer α) = done a := rfl

@[simp] theorem done_bind (a : α) (f : α → Program Answer β) : done a >>= f = f a := rfl

@[simp] theorem call_bind (c : Call) (next : Answer c → Program Answer α)
    (f : α → Program Answer β) : call c next >>= f = call c fun answer => next answer >>= f := rfl

@[simp] theorem perform_bind (c : Call) (f : Answer c → Program Answer β) :
    perform c >>= f = call c f := rfl

/-! ### Runs -/

/-- An event: a call with its answer. -/
abbrev Event (Answer : Call → Type) : Type := Σ c, Answer c

/-- An environment answers calls and changes its state. -/
abbrev Environment (Answer : Call → Type) (W : Type) : Type := (c : Call) → W → Answer c × W

variable (env : Environment Answer W)

/-- The value of a program and the state after it. -/
def exec : Program Answer α → W → α × W
  | done a, w => (a, w)
  | call c next, w => (next (env c w).1).exec (env c w).2

/-- The events of a program, in order. -/
def trace : Program Answer α → W → List (Event Answer)
  | done _, _ => []
  | call c next, w => ⟨c, (env c w).1⟩ :: (next (env c w).1).trace (env c w).2

/-- **Runs respect what answers respect.** -/
theorem exec_respects {R : W → W → Prop} (hrefl : ∀ w, R w w)
    (htrans : ∀ {u v w}, R u v → R v w → R u w) (henv : ∀ c w, R w (env c w).2)
    (p : Program Answer α) (w : W) : R w (p.exec env w).2 := by
  induction p generalizing w with
  | done a => exact hrefl w
  | call c next ih => exact htrans (henv c w) (ih _ _)

/-! ### Properties of all events and values -/

/-- All events that a program can have satisfy `P` and all values that it can end with satisfy `Q`,
whatever the answers are. -/
def Always (P : Event Answer → Prop) (Q : α → Prop) : Program Answer α → Prop
  | done a => Q a
  | call c next => ∀ answer, P ⟨c, answer⟩ ∧ (next answer).Always P Q

variable {env} {P : Event Answer → Prop} {Q : α → Prop}

theorem Always.bind {p : Program Answer α} {f : α → Program Answer β} {R : β → Prop}
    (hp : p.Always P Q) (hf : ∀ a, Q a → (f a).Always P R) : (p >>= f).Always P R := by
  induction p with
  | done a => exact hf a hp
  | call c next ih => exact fun answer => ⟨(hp answer).1, ih answer (hp answer).2⟩

/-- What all events have in common that satisfy `P`, the run in an environment respects, and its
value satisfies `Q`. -/
theorem Always.exec {R : W → W → Prop} (hrefl : ∀ w, R w w)
    (htrans : ∀ {u v w}, R u v → R v w → R u w)
    (henv : ∀ c w, P ⟨c, (env c w).1⟩ → R w (env c w).2) {p : Program Answer α}
    (hp : p.Always P Q) (w : W) : Q (p.exec env w).1 ∧ R w (p.exec env w).2 := by
  induction p generalizing w with
  | done a => exact ⟨hp, hrefl w⟩
  | call c next ih =>
    have hcall := hp (env c w).1
    exact And.imp_right (htrans (henv c w hcall.1)) (ih _ hcall.2 _)

/-! ### Runs with arbitrary answers -/

/-- The program can have these events and end with this value. -/
def Runs : Program Answer α → List (Event Answer) → α → Prop
  | done a, es, r => es = [] ∧ r = a
  | call c next, es, r => ∃ answer rest, es = ⟨c, answer⟩ :: rest ∧ (next answer).Runs rest r

theorem runs_bind {p : Program Answer α} {f : α → Program Answer β} {es : List (Event Answer)}
    {b : β} :
    (p >>= f).Runs es b ↔ ∃ es₁ es₂ a, es = es₁ ++ es₂ ∧ p.Runs es₁ a ∧ (f a).Runs es₂ b := by
  induction p generalizing es with
  | done a =>
    constructor
    · intro h
      exact ⟨[], es, a, rfl, ⟨rfl, rfl⟩, h⟩
    · rintro ⟨_, es₂, _, rfl, ⟨rfl, rfl⟩, h⟩
      exact h
  | call c next ih =>
    constructor
    · rintro ⟨answer, rest, rfl, h⟩
      obtain ⟨es₁, es₂, a, rfl, hp, hf⟩ := (ih answer).mp h
      exact ⟨⟨c, answer⟩ :: es₁, es₂, a, rfl, ⟨answer, es₁, rfl, hp⟩, hf⟩
    · rintro ⟨_, es₂, a, rfl, ⟨answer, rest, rfl, hp⟩, hf⟩
      exact ⟨answer, rest ++ es₂, rfl, (ih answer).mpr ⟨rest, es₂, a, rfl, hp, hf⟩⟩

/-- A property of all events and values holds of those of every run. -/
theorem Always.of_runs {P : Event Answer → Prop} {Q : α → Prop} {p : Program Answer α}
    (hp : p.Always P Q) {es : List (Event Answer)} {r : α} (h : p.Runs es r) :
    (∀ event ∈ es, P event) ∧ Q r := by
  induction p generalizing es with
  | done a =>
    obtain ⟨rfl, rfl⟩ := h
    exact ⟨List.forall_mem_nil _, hp⟩
  | call c next ih =>
    obtain ⟨answer, rest, rfl, hrest⟩ := h
    obtain ⟨hevents, hvalue⟩ := ih answer (hp answer).2 hrest
    exact ⟨List.forall_mem_cons.mpr ⟨(hp answer).1, hevents⟩, hvalue⟩

/-- The run in an environment is a run. -/
theorem runs_trace (env : Environment Answer W) (p : Program Answer α) (w : W) :
    p.Runs (p.trace env w) (p.exec env w).1 := by
  induction p generalizing w with
  | done a => exact ⟨rfl, rfl⟩
  | call c next ih => exact ⟨_, _, rfl, ih _ _⟩

theorem exec_bind (env : Environment Answer W) (p : Program Answer α)
    (f : α → Program Answer β) (w : W) :
    (p >>= f).exec env w = (f (p.exec env w).1).exec env (p.exec env w).2 := by
  induction p generalizing w with
  | done a => rfl
  | call c next ih => exact ih _ _

/-! ### Histories -/

/-- After a history, every run ends with a value and a history that satisfy `post`. -/
def Ensures (history : List (Event Answer)) (p : Program Answer α)
    (post : α → List (Event Answer) → Prop) : Prop :=
  ∀ es r, p.Runs es r → post r (history ++ es)

variable {history : List (Event Answer)} {post : α → List (Event Answer) → Prop}

theorem Ensures.pure {a : α} (h : post a history) :
    Ensures history (pure a : Program Answer α) post := by
  rintro es r ⟨rfl, rfl⟩
  rwa [List.append_nil]

theorem Ensures.call {c : Call} {next : Answer c → Program Answer α}
    (h : ∀ answer, Ensures (history ++ [⟨c, answer⟩]) (next answer) post) :
    Ensures history (.call c next) post := by
  rintro es r ⟨answer, rest, rfl, hrest⟩
  have hpost := h answer rest r hrest
  rwa [List.append_assoc] at hpost

theorem Ensures.bind {p : Program Answer α} {f : α → Program Answer β}
    {Q : α → List (Event Answer) → Prop} {post : β → List (Event Answer) → Prop}
    (hp : Ensures history p Q) (hf : ∀ a h, Q a h → Ensures h (f a) post) :
    Ensures history (p >>= f) post := by
  intro es r hruns
  obtain ⟨es₁, es₂, a, rfl, h₁, h₂⟩ := runs_bind.mp hruns
  rw [← List.append_assoc]
  exact hf a _ (hp es₁ a h₁) es₂ r h₂

theorem Ensures.ite {c : Prop} [Decidable c] {p q : Program Answer α}
    (hp : c → Ensures history p post) (hq : ¬c → Ensures history q post) :
    Ensures history (if c then p else q) post := by
  split
  · exact hp ‹_›
  · exact hq ‹_›

end Program
