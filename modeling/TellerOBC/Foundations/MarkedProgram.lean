import TellerOBC.Foundations.CutOff

/-!
# Programs with marks

What a program is about to do, or has achieved, cannot always be seen from its calls alone. A
program with marks makes marks between its calls, which have no effect. Without its marks it is a
program again, and the runs of both are the same up to the marks.

## Main definitions

* `MarkedProgram.Answers`, `MarkedProgram.unmarked`, `MarkedProgram.mark`: programs with marks.
* `MarkedProgram.erase`: the program without its marks.
* `MarkedProgram.calls`, `MarkedProgram.marks`: the calls and the marks of a run.
* `MarkedProgram.callsAfter`: the calls between a mark and the next one.

## Main results

* `MarkedProgram.erase_bind`: erasing the marks of a composition.
* `MarkedProgram.runs_erase`, `MarkedProgram.exists_runs_of_erase`: the runs without the marks.
* `MarkedProgram.runs_unmarked`: the runs of a part without marks.
-/

namespace MarkedProgram

open Program

variable {Call Mark : Type} {Answer : Call → Type} {α β : Type}

/-- The answers to calls; a mark has none. -/
abbrev Answers (Answer : Call → Type) (Mark : Type) : Call ⊕ Mark → Type
  | .inl c => Answer c
  | .inr _ => Unit

/-- A call with its answer, as an event of a program with marks. -/
def event (e : Event Answer) : Event (Answers Answer Mark) := ⟨.inl e.1, e.2⟩

/-- The event of a mark. -/
def markEvent (m : Mark) : Event (Answers Answer Mark) := ⟨.inr m, ()⟩

/-- The call of an event. -/
def callOf : Event (Answers Answer Mark) → Option (Event Answer)
  | ⟨.inl c, answer⟩ => some ⟨c, answer⟩
  | ⟨.inr _, _⟩ => none

/-- The mark of an event. -/
def markOf : Event (Answers Answer Mark) → Option Mark
  | ⟨.inl _, _⟩ => none
  | ⟨.inr m, _⟩ => some m

/-- The calls among the events. -/
def calls (es : List (Event (Answers Answer Mark))) : List (Event Answer) := es.filterMap callOf

/-- The marks among the events. -/
def marks (es : List (Event (Answers Answer Mark))) : List Mark := es.filterMap markOf

theorem marks_append (es₁ es₂ : List (Event (Answers Answer Mark))) :
    marks (es₁ ++ es₂) = marks es₁ ++ marks es₂ := List.filterMap_append

@[simp] theorem calls_map_event (es : List (Event Answer)) :
    calls (es.map event : List (Event (Answers Answer Mark))) = es := by
  rw [calls, List.filterMap_map]
  exact List.filterMap_some

@[simp] theorem marks_map_event (es : List (Event Answer)) :
    marks (es.map event : List (Event (Answers Answer Mark))) = [] := by
  rw [marks, List.filterMap_map, List.filterMap_eq_nil_iff]
  exact fun _ _ => rfl

@[simp] theorem marks_markEvent (m : Mark) (es : List (Event (Answers Answer Mark))) :
    marks (markEvent m :: es) = m :: marks es := rfl

/-- The calls before the first mark. -/
def callsUntilMark : List (Event (Answers Answer Mark)) → List (Event Answer)
  | ⟨.inl c, answer⟩ :: es => ⟨c, answer⟩ :: callsUntilMark es
  | ⟨.inr _, _⟩ :: _ => []
  | [] => []

/-- The calls between the first mark of a kind and the mark after it. -/
def callsAfter [DecidableEq Mark] (m : Mark) :
    List (Event (Answers Answer Mark)) → List (Event Answer)
  | ⟨.inl _, _⟩ :: es => callsAfter m es
  | ⟨.inr m', _⟩ :: es => if m' = m then callsUntilMark es else callsAfter m es
  | [] => []

theorem callsUntilMark_append (es₁ : List (Event Answer))
    (es₂ : List (Event (Answers Answer Mark))) :
    callsUntilMark (es₁.map event ++ es₂) = es₁ ++ callsUntilMark es₂ := by
  induction es₁ with
  | nil => rfl
  | cons e es₁ ih => exact congrArg (List.cons e) ih

theorem callsAfter_append [DecidableEq Mark] (m : Mark) (es₁ : List (Event Answer))
    (es₂ : List (Event (Answers Answer Mark))) :
    callsAfter m (es₁.map event ++ es₂) = callsAfter m es₂ := by
  induction es₁ with
  | nil => rfl
  | cons e es₁ ih => exact ih

/-! ### Programs -/

/-- A program without marks. -/
def ofProgram : Program Answer α → Program (Answers Answer Mark) α
  | .done a => .done a
  | .call c next => .call (.inl c) fun answer => ofProgram (next answer)

/-- The program without its marks. -/
def eraseProgram : Program (Answers Answer Mark) α → Program Answer α
  | .done a => .done a
  | .call (.inl c) next => .call c fun answer => eraseProgram (next answer)
  | .call (.inr _) next => eraseProgram (next ())

theorem eraseProgram_bind (p : Program (Answers Answer Mark) α)
    (f : α → Program (Answers Answer Mark) β) :
    eraseProgram (p >>= f) = eraseProgram p >>= fun a => eraseProgram (f a) := by
  induction p with
  | done a => rfl
  | call c next ih =>
    cases c with
    | inl c => exact congrArg (Program.call c) (funext fun answer => ih answer)
    | inr m => exact ih ()

theorem eraseProgram_ofProgram (p : Program Answer α) :
    eraseProgram (ofProgram p : Program (Answers Answer Mark) α) = p := by
  induction p with
  | done a => rfl
  | call c next ih => exact congrArg (Program.call c) (funext fun answer => ih answer)

/-- The environment, in which a mark has no effect. -/
def environment {W : Type} (env : Environment Answer W) : Environment (Answers Answer Mark) W
  | .inl c, w => env c w
  | .inr _, w => ((), w)

/-- A run with marks is a run without them. -/
theorem runs_eraseProgram {p : Program (Answers Answer Mark) α}
    {es : List (Event (Answers Answer Mark))} {r : α} (h : p.Runs es r) :
    (eraseProgram p).Runs (calls es) r := by
  induction p generalizing es with
  | done a =>
    obtain ⟨rfl, rfl⟩ := h
    exact ⟨rfl, rfl⟩
  | call c next ih =>
    obtain ⟨answer, rest, rfl, hrest⟩ := h
    cases c with
    | inl c => exact ⟨answer, calls rest, rfl, ih answer hrest⟩
    | inr m =>
      change (eraseProgram (next ())).Runs (calls rest) r
      exact ih () hrest

/-- Every run can be marked. -/
theorem exists_runs_of_eraseProgram {p : Program (Answers Answer Mark) α}
    {es : List (Event Answer)} {r : α} (h : (eraseProgram p).Runs es r) :
    ∃ es', calls es' = es ∧ p.Runs es' r := by
  induction p generalizing es with
  | done a =>
    obtain ⟨rfl, rfl⟩ := h
    exact ⟨[], rfl, rfl, rfl⟩
  | call c next ih =>
    cases c with
    | inl c =>
      obtain ⟨answer, rest, rfl, hrest⟩ := h
      obtain ⟨es', rfl, hruns⟩ := ih answer hrest
      exact ⟨⟨.inl c, answer⟩ :: es', rfl, answer, es', rfl, hruns⟩
    | inr m =>
      obtain ⟨es', rfl, hruns⟩ := ih () h
      exact ⟨⟨.inr m, ()⟩ :: es', rfl, (), es', rfl, hruns⟩

theorem runs_ofProgram {p : Program Answer α} {es : List (Event (Answers Answer Mark))} {r : α} :
    (ofProgram p).Runs es r ↔ ∃ es', es = es'.map event ∧ p.Runs es' r := by
  induction p generalizing es with
  | done a =>
    constructor
    · rintro ⟨rfl, rfl⟩
      exact ⟨[], rfl, rfl, rfl⟩
    · rintro ⟨_, rfl, rfl, rfl⟩
      exact ⟨rfl, rfl⟩
  | call c next ih =>
    constructor
    · rintro ⟨answer, rest, rfl, hrest⟩
      obtain ⟨es', rfl, hruns⟩ := (ih answer).mp hrest
      exact ⟨⟨c, answer⟩ :: es', rfl, answer, es', rfl, hruns⟩
    · rintro ⟨_, rfl, answer, es', rfl, hruns⟩
      exact ⟨answer, es'.map event, rfl, (ih answer).mpr ⟨es', rfl, hruns⟩⟩

/-! ### Programs that may be cut off -/

/-- A program that may be cut off, without marks. -/
def unmarked (p : CutOff Answer α) : CutOff (Answers Answer Mark) α := OptionT.mk (ofProgram p.run)

/-- Make a mark. -/
def mark (m : Mark) : CutOff (Answers Answer Mark) Unit :=
  OptionT.mk (.call (.inr m) fun _ => .done (some ()))

/-- The program without its marks. -/
def erase (p : CutOff (Answers Answer Mark) α) : CutOff Answer α := OptionT.mk (eraseProgram p.run)

@[simp] theorem erase_pure (a : α) : erase (pure a : CutOff (Answers Answer Mark) α) = pure a := rfl

@[simp] theorem erase_unmarked (p : CutOff Answer α) :
    erase (unmarked p : CutOff (Answers Answer Mark) α) = p :=
  congrArg OptionT.mk (eraseProgram_ofProgram p.run)

theorem erase_bind (p : CutOff (Answers Answer Mark) α) (f : α → CutOff (Answers Answer Mark) β) :
    erase (p >>= f) = erase p >>= fun a => erase (f a) := by
  refine congrArg OptionT.mk ?_
  rw [OptionT.run_bind, Option.elimM, eraseProgram_bind]
  refine congrArg (eraseProgram p.run >>= ·) (funext fun o => ?_)
  cases o <;> rfl

/-- A mark has no effect. -/
@[simp] theorem erase_mark_bind (m : Mark) (f : Unit → CutOff Answer α) :
    (erase (mark m) >>= f) = f () := rfl

theorem erase_ite {c : Prop} [Decidable c] (p q : CutOff (Answers Answer Mark) α) :
    erase (if c then p else q) = if c then erase p else erase q := apply_ite erase c p q

/-- A run with marks is a run without them. -/
theorem runs_erase {p : CutOff (Answers Answer Mark) α} {es : List (Event (Answers Answer Mark))}
    {r : Option α} (h : CutOff.Runs p es r) : CutOff.Runs (erase p) (calls es) r :=
  runs_eraseProgram h

/-- Every run can be marked. -/
theorem exists_runs_of_erase {p : CutOff (Answers Answer Mark) α} {es : List (Event Answer)}
    {r : Option α} (h : CutOff.Runs (erase p) es r) : ∃ es', calls es' = es ∧ CutOff.Runs p es' r :=
  exists_runs_of_eraseProgram h

theorem runs_unmarked {p : CutOff Answer α} {es : List (Event (Answers Answer Mark))}
    {r : Option α} :
    CutOff.Runs (unmarked p) es r ↔ ∃ es', es = es'.map event ∧ CutOff.Runs p es' r :=
  runs_ofProgram

theorem runs_mark_bind {m : Mark} {f : Unit → CutOff (Answers Answer Mark) α}
    {es : List (Event (Answers Answer Mark))} {r : Option α} :
    CutOff.Runs (mark m >>= f) es r ↔
      ∃ rest, es = markEvent m :: rest ∧ CutOff.Runs (f ()) rest r := by
  constructor
  · rintro ⟨⟨⟩, rest, rfl, h⟩
    exact ⟨rest, rfl, h⟩
  · rintro ⟨rest, rfl, h⟩
    exact ⟨(), rest, rfl, h⟩

end MarkedProgram
