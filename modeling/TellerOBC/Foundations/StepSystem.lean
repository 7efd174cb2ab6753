import Mathlib.Data.List.Infix

/-!
# Runs of guarded step functions

A system is given by a guarded step function `step : σ → α → Option σ`: the action `a` is
enabled in the state `s` when `step s a` is `some t`, and then leads to `t`. A run is a list
of actions. One definition serves to replay a concrete schedule and to prove what holds after
every schedule.

Besides plain invariants this file treats *guarded* runs: `Meets ok s as` says that every
action of `as` is taken in a state that satisfies `ok` together with the action. An invariant
that is preserved by the actions meeting `ok` holds all along a run that meets `ok`
(`StepSystem.invariant_visits`). If moreover every action that does not meet `ok` breaks a
property at once, then the property holds along a run exactly when the run meets `ok`
(`StepSystem.forall_visits_iff_meets`).

## Main definitions

* `StepSystem.run`: the state after a list of actions.
* `StepSystem.Meets`: every action of a run is taken in a state where it is allowed.
* `StepSystem.Visits`: the states met along a run, its first and last one included.

## Main results

* `StepSystem.invariant_visits`, `StepSystem.invariant_history`: the induction over guarded runs,
  also with the actions so far.
* `StepSystem.forall_visits_iff_meets`: when a guard is exact for a property of all states.
* `StepSystem.forall_le_iff_meets`: when something grows along a run.
-/

namespace StepSystem

variable {σ α : Type*} (step : σ → α → Option σ)

/-- The state after the actions of a list, in order; `none` if one of them is not enabled. -/
def run : σ → List α → Option σ
  | s, [] => some s
  | s, a :: as => (step s a).bind fun t => run t as

/-- Every action of the run is taken in a state that satisfies `ok` together with it. -/
def Meets (ok : σ → α → Prop) : σ → List α → Prop
  | _, [] => True
  | s, a :: as => ok s a ∧ ∀ t, step s a = some t → Meets ok t as

/-- The state `t` is met along the run: it is reached by a prefix of its actions. -/
def Visits (s : σ) (as : List α) (t : σ) : Prop :=
  ∃ bs, bs <+: as ∧ run step s bs = some t

variable {step}

@[simp] theorem run_nil (s : σ) : run step s [] = some s := rfl

theorem run_cons (s : σ) (a : α) (as : List α) :
    run step s (a :: as) = (step s a).bind fun t => run step t as := rfl

theorem run_cons_eq_some {s t : σ} {a : α} {as : List α} :
    run step s (a :: as) = some t ↔ ∃ u, step s a = some u ∧ run step u as = some t := by
  rw [run_cons, Option.bind_eq_some_iff]

theorem run_concat_eq_some {s t : σ} {a : α} {as : List α} :
    run step s (as ++ [a]) = some t ↔ ∃ u, run step s as = some u ∧ step u a = some t := by
  induction as generalizing s with
  | nil => simp only [List.nil_append, run_cons, run_nil, Option.bind_fun_some, Option.some.injEq,
      exists_eq_left']
  | cons b as ih =>
    simp only [List.cons_append, run_cons_eq_some, ih]
    exact ⟨fun ⟨v, hv, u, hu, ht⟩ => ⟨u, ⟨v, hv, hu⟩, ht⟩,
      fun ⟨u, ⟨v, hv, hu⟩, ht⟩ => ⟨v, hv, u, hu, ht⟩⟩

theorem visits_nil {s t : σ} : Visits step s [] t ↔ t = s := by
  constructor
  · rintro ⟨bs, hbs, h⟩
    rw [List.prefix_nil.mp hbs, run_nil] at h
    exact (Option.some.inj h).symm
  · rintro rfl
    exact ⟨[], List.prefix_rfl, rfl⟩

theorem visits_cons {s t : σ} {a : α} {as : List α} :
    Visits step s (a :: as) t ↔ t = s ∨ ∃ u, step s a = some u ∧ Visits step u as t := by
  constructor
  · rintro ⟨bs, hbs, h⟩
    cases bs with
    | nil => exact Or.inl (Option.some.inj h).symm
    | cons b bs =>
      obtain ⟨rfl, hpre⟩ := List.cons_prefix_cons.mp hbs
      obtain ⟨u, hu, hrun⟩ := run_cons_eq_some.mp h
      exact Or.inr ⟨u, hu, bs, hpre, hrun⟩
  · rintro (rfl | ⟨u, hu, bs, hpre, hrun⟩)
    · exact ⟨[], List.nil_prefix, rfl⟩
    · exact ⟨a :: bs, List.cons_prefix_cons.mpr ⟨rfl, hpre⟩, run_cons_eq_some.mpr ⟨u, hu, hrun⟩⟩

/-- The first state of a run is met along it. -/
theorem visits_start (s : σ) (as : List α) : Visits step s as s :=
  ⟨[], List.nil_prefix, rfl⟩

/-- The last state of a run is met along it. -/
theorem visits_of_run {s t : σ} {as : List α} (h : run step s as = some t) :
    Visits step s as t :=
  ⟨as, List.prefix_rfl, h⟩

variable {ok : σ → α → Prop} {I : σ → Prop}

/-- **Guarded induction.** What the allowed actions preserve holds of every state met along a
run whose actions are all allowed. -/
theorem invariant_visits (hstep : ∀ s a t, I s → ok s a → step s a = some t → I t)
    {s t : σ} {as : List α} (hs : I s) (hok : Meets step ok s as) (h : Visits step s as t) :
    I t := by
  induction as generalizing s with
  | nil => rwa [visits_nil.mp h]
  | cons a as ih =>
    rcases visits_cons.mp h with rfl | ⟨u, hu, hvisit⟩
    · exact hs
    · exact ih (hstep s a u hs hok.1 hu) (hok.2 u hu) hvisit

/-- **Induction with the history.** What the allowed actions preserve of a state together with the
actions so far holds of the state after a run whose actions are all allowed. -/
theorem invariant_history {J : List α → σ → Prop}
    (hstep : ∀ past s a t, J past s → ok s a → step s a = some t → J (past ++ [a]) t)
    {past : List α} {s t : σ} {as : List α} (hs : J past s) (hok : Meets step ok s as)
    (hrun : run step s as = some t) : J (past ++ as) t := by
  induction as generalizing past s with
  | nil =>
    obtain rfl := Option.some.inj hrun
    rwa [List.append_nil]
  | cons a as ih =>
    obtain ⟨u, hu, hrest⟩ := run_cons_eq_some.mp hrun
    rw [List.append_cons]
    exact ih (hstep past s a u hs hok.1 hu) (hok.2 u hu) hrest

/-- A run meets a guard if its first action does, and the rest of the run from the next state. -/
theorem Meets.cons {s t : σ} {a : α} {as : List α} (ha : ok s a) (hstep : step s a = some t)
    (has : Meets step ok t as) : Meets step ok s (a :: as) :=
  ⟨ha, fun u hu => by rwa [← Option.some.inj (hstep.symm.trans hu)]⟩

/-- A run meets a guard if its first part does, and the rest from the state after the first part. -/
theorem Meets.append {s : σ} {as bs : List α} (has : Meets step ok s as)
    (hbs : ∀ t, run step s as = some t → Meets step ok t bs) : Meets step ok s (as ++ bs) := by
  induction as generalizing s with
  | nil => exact hbs s rfl
  | cons a as ih =>
    refine ⟨has.1, fun t ht => ih (has.2 t ht) fun u hu => hbs u ?_⟩
    exact run_cons_eq_some.mpr ⟨t, ht, hu⟩

/-- Guards that agree where an invariant holds are met by the same runs. -/
theorem meets_congr {ok' : σ → α → Prop} (hstep : ∀ s a t, I s → step s a = some t → I t)
    (hok : ∀ s a, I s → (ok s a ↔ ok' s a)) {s : σ} (hs : I s) {as : List α} :
    Meets step ok s as ↔ Meets step ok' s as := by
  induction as generalizing s with
  | nil => exact Iff.rfl
  | cons a as ih =>
    exact and_congr (hok s a hs) (forall_congr' fun t => imp_congr_right fun ht =>
      ih (hstep s a t hs ht))

/-- A run that does not meet a guard has an action that is not allowed in its state. -/
theorem exists_of_not_meets {s : σ} {as : List α} (h : ¬Meets step ok s as) :
    ∃ earlier a later u, as = earlier ++ a :: later ∧ run step s earlier = some u ∧ ¬ok u a := by
  induction as generalizing s with
  | nil => exact absurd trivial h
  | cons a as ih =>
    by_cases ha : ok s a
    · have hrest : ¬∀ t, step s a = some t → Meets step ok t as := fun hrest => h ⟨ha, hrest⟩
      obtain ⟨t, hrest⟩ := not_forall.mp hrest
      obtain ⟨hstep, hnot⟩ := Classical.not_imp.mp hrest
      obtain ⟨earlier, b, later, u, rfl, hrun, hb⟩ := ih hnot
      exact ⟨a :: earlier, b, later, u, rfl, run_cons_eq_some.mpr ⟨t, hstep, hrun⟩, hb⟩
    · exact ⟨[], a, as, s, rfl, rfl, ha⟩

instance Meets.decidable [∀ s a, Decidable (ok s a)] :
    ∀ s as, Decidable (Meets step ok s as)
  | _, [] => inferInstanceAs (Decidable True)
  | s, a :: as =>
    match hstep : step s a with
    | none => decidable_of_iff (ok s a) ⟨fun h => ⟨h, fun _ ht => nomatch hstep.symm.trans ht⟩,
        And.left⟩
    | some t =>
      have := Meets.decidable t as
      decidable_of_iff (ok s a ∧ Meets step ok t as)
        ⟨fun h => Meets.cons h.1 hstep h.2, fun h => ⟨h.1, h.2 t hstep⟩⟩

/-- Every run meets the guard that allows everything. -/
theorem meets_true (s : σ) (as : List α) : Meets step (fun _ _ => True) s as := by
  induction as generalizing s with
  | nil => trivial
  | cons a as ih => exact ⟨trivial, fun t _ => ih t⟩

/-- A list of actions that all satisfy a guard on actions meets it from every state. -/
theorem meets_of_forall_mem {p : α → Prop} {as : List α} (h : ∀ a ∈ as, p a) (s : σ) :
    Meets step (fun _ a => p a) s as := by
  induction as generalizing s with
  | nil => trivial
  | cons a as ih =>
    rw [List.forall_mem_cons] at h
    exact ⟨h.1, fun t _ => ih h.2 t⟩

/-- A run meets a guard on the actions alone if all its actions do. -/
theorem meets_iff_forall_mem {p : α → Prop} {s t : σ} {as : List α}
    (hrun : run step s as = some t) :
    Meets step (fun s a => (step s a).isSome → p a) s as ↔ ∀ a ∈ as, p a := by
  induction as generalizing s with
  | nil => exact ⟨fun _ => nofun, fun _ => trivial⟩
  | cons a as ih =>
    obtain ⟨u, hu, hrest⟩ := run_cons_eq_some.mp hrun
    rw [List.forall_mem_cons, ← ih hrest]
    refine ⟨fun h => ⟨h.1 (by rw [hu]; rfl), h.2 u hu⟩, fun h => ?_⟩
    exact Meets.cons (fun _ => h.1) hu h.2

/-- What every step preserves holds of every state met along a run. -/
theorem invariant_visits_of_step (hstep : ∀ s a t, I s → step s a = some t → I t) {s t : σ}
    {as : List α} (hs : I s) (h : Visits step s as t) : I t :=
  invariant_visits (fun s a t hI _ => hstep s a t hI) hs (meets_true s as) h

/-! ### What grows along a run -/

section

variable {β : Type*} [Preorder β] {f : σ → β}

/-- What no step lowers is not lower after a run. -/
theorem le_of_meets {s u : σ} {as bs : List α}
    (h : Meets step (fun s a => ∀ t, step s a = some t → f s ≤ f t) s as) (hbs : bs <+: as)
    (hrun : run step s bs = some u) : f s ≤ f u := by
  induction as generalizing s bs with
  | nil =>
    obtain rfl := List.prefix_nil.mp hbs
    exact (congrArg f (Option.some.inj hrun)).le
  | cons a as ih =>
    cases bs with
    | nil => exact (congrArg f (Option.some.inj hrun)).le
    | cons b bs =>
      obtain ⟨rfl, hrestPre⟩ := List.cons_prefix_cons.mp hbs
      obtain ⟨t, hstep, hrest⟩ := run_cons_eq_some.mp hrun
      exact (h.1 t hstep).trans (ih (h.2 t hstep) hrestPre hrest)

/-- **Growth along a run.** Of any two states along a run the later one is not lower, exactly when
no step of the run lowers its state. -/
theorem forall_le_iff_meets {s : σ} {as : List α} :
    (∀ bs cs t u, bs ++ cs <+: as → run step s bs = some t → run step t cs = some u →
      f t ≤ f u) ↔
      Meets step (fun s a => ∀ t, step s a = some t → f s ≤ f t) s as := by
  induction as generalizing s with
  | nil =>
    refine iff_of_true (fun bs cs t u hpre hbs hcs => ?_) trivial
    obtain ⟨rfl, rfl⟩ := List.append_eq_nil_iff.mp (List.prefix_nil.mp hpre)
    exact (congrArg f (Option.some.inj hcs)).le
  | cons a as ih =>
    constructor
    · intro h
      refine ⟨fun t hstep => ?_, fun t hstep => ih.mp fun bs cs v w hpre hbs hcs => ?_⟩
      · exact h [] [a] s t ⟨as, rfl⟩ rfl (run_cons_eq_some.mpr ⟨t, hstep, rfl⟩)
      · exact h (a :: bs) cs v w (List.cons_prefix_cons.mpr ⟨rfl, hpre⟩)
          (run_cons_eq_some.mpr ⟨t, hstep, hbs⟩) hcs
    · intro h bs cs t u hpre hbs hcs
      cases bs with
      | nil =>
        obtain rfl := Option.some.inj hbs
        exact le_of_meets h hpre hcs
      | cons b bs =>
        obtain ⟨rfl, hrestPre⟩ := List.cons_prefix_cons.mp hpre
        obtain ⟨v, hstep, hrest⟩ := run_cons_eq_some.mp hbs
        exact ih.mpr (h.2 v hstep) bs cs t u hrestPre hrest hcs

end

/-- **Exactness of a guard.** If `I` is preserved by the allowed actions and implies `P`, and
an action that is not allowed leads from `I` to a state without `P`, then `P` holds all along a
run exactly when all its actions are allowed. Only enabled actions are required to be allowed. -/
theorem forall_visits_iff_meets {P : σ → Prop} (hP : ∀ s, I s → P s)
    (hstep : ∀ s a t, I s → ok s a → step s a = some t → I t)
    (hbreak : ∀ s a t, I s → ¬ ok s a → step s a = some t → ¬ P t)
    {s : σ} {as : List α} (hs : I s) :
    (∀ t, Visits step s as t → P t) ↔
      Meets step (fun s a => (step s a).isSome → ok s a) s as := by
  induction as generalizing s with
  | nil =>
    simp only [visits_nil, forall_eq, Meets, iff_true]
    exact hP s hs
  | cons a as ih =>
    constructor
    · intro h
      have hallowed : (step s a).isSome → ok s a := by
        intro hsome
        obtain ⟨t, ht⟩ := Option.isSome_iff_exists.mp hsome
        by_contra hnot
        exact hbreak s a t hs hnot ht
          (h t (visits_cons.mpr (Or.inr ⟨t, ht, visits_start t as⟩)))
      refine ⟨hallowed, fun t ht => ?_⟩
      have hI : I t := hstep s a t hs (hallowed (by simp [ht])) ht
      exact (ih hI).mp fun u hu => h u (visits_cons.mpr (Or.inr ⟨t, ht, hu⟩))
    · rintro ⟨hallowed, hrest⟩ t ht
      rcases visits_cons.mp ht with rfl | ⟨u, hu, hvisit⟩
      · exact hP _ hs
      · have hI : I u := hstep s a u hs (hallowed (by simp [hu])) hu
        exact (ih hI).mpr (hrest u hu) t hvisit

end StepSystem
