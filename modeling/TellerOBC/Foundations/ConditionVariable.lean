import Mathlib.Data.List.Perm.Basic

/-!
# Condition variables

The threads that wait on a condition variable, each with the data of its call. A thread sleeps until
it is notified or its wait ends by itself, which may happen at any time and happens also when a
timeout expires. It is then woken, and goes on when it gets the mutex.

A sleeping thread must not miss what it waits for. Two rules say that it does not. If a thread is
notified for each item that threads wait for, then there are at least as many woken threads as items
while a thread sleeps (`CondVar.Covers`). If all threads are notified whenever the condition of one
of them may become true, then the condition of every sleeping thread is false (`CondVar.Blocked`).

## Main definitions

* `CondVar` with `wait`, `wake`, `notifyOne`, `notifyEach`, `notifyAll`, `resume`.
* `CondVar.Covers`, `CondVar.Blocked`: no sleeping thread misses what it waits for.

## Main results

* `CondVar.Covers.notifyOne`, `CondVar.Covers.resume`: a notification makes up for a new item, and
  a woken thread for an item that is taken.
* `CondVar.perm_of_wake`, `CondVar.perm_of_resume` and others: no thread is lost.
-/

/-- The threads that wait on a condition variable. -/
structure CondVar (τ : Type*) where
  /-- The threads that were not notified and whose wait has not ended. -/
  sleeping : List τ := []
  /-- The threads that wait for the mutex. -/
  woken : List τ := []

namespace CondVar

variable {τ : Type*} (c : CondVar τ)

/-- All threads that have not returned from their wait. -/
def waiters : List τ := c.sleeping ++ c.woken

/-- A thread begins to wait. -/
def wait (x : τ) : CondVar τ := { c with sleeping := c.sleeping ++ [x] }

/-- The wait of a sleeping thread ends. -/
def wake (i : ℕ) : Option (CondVar τ) :=
  c.sleeping[i]?.map fun x => ⟨c.sleeping.eraseIdx i, c.woken ++ [x]⟩

/-- `notify_one`, which wakes a sleeping thread if there is one. -/
def notifyOne (i : ℕ) : Option (CondVar τ) := if c.sleeping.isEmpty then some c else c.wake i

/-- One call of `notify_one` after the other. -/
def notifyEach : List ℕ → CondVar τ → Option (CondVar τ)
  | [], c => some c
  | i :: is, c => (c.notifyOne i).bind (notifyEach is)

/-- `notify_all`. -/
def notifyAll : CondVar τ := ⟨[], c.woken ++ c.sleeping⟩

/-- A woken thread gets the mutex and returns from its wait. -/
def resume (j : ℕ) : Option (τ × CondVar τ) :=
  c.woken[j]?.map fun x => (x, { c with woken := c.woken.eraseIdx j })

/-- If a thread sleeps, then there is a woken thread for each of `n` items. -/
def Covers (n : ℕ) : Prop := c.sleeping ≠ [] → n ≤ c.woken.length

/-- No sleeping thread could go on. -/
def Blocked (ready : τ → Prop) : Prop := ∀ x ∈ c.sleeping, ¬ready x

variable {c} {d : CondVar τ} {x : τ} {i j : ℕ}

theorem wake_eq_some : c.wake i = some d ↔ ∃ h : i < c.sleeping.length,
    d = ⟨c.sleeping.eraseIdx i, c.woken ++ [c.sleeping[i]]⟩ := by
  rw [wake, Option.map_eq_some_iff]
  constructor
  · rintro ⟨x, hx, rfl⟩
    obtain ⟨hlt, rfl⟩ := List.getElem?_eq_some_iff.mp hx
    exact ⟨hlt, rfl⟩
  · rintro ⟨hlt, rfl⟩
    exact ⟨_, List.getElem?_eq_getElem hlt, rfl⟩

theorem resume_eq_some : c.resume j = some (x, d) ↔ ∃ h : j < c.woken.length,
    x = c.woken[j] ∧ d = { c with woken := c.woken.eraseIdx j } := by
  rw [resume, Option.map_eq_some_iff]
  constructor
  · rintro ⟨y, hy, heq⟩
    obtain ⟨hlt, rfl⟩ := List.getElem?_eq_some_iff.mp hy
    obtain ⟨rfl, rfl⟩ := Prod.mk.inj heq
    exact ⟨hlt, rfl, rfl⟩
  · rintro ⟨hlt, rfl, rfl⟩
    exact ⟨_, List.getElem?_eq_getElem hlt, rfl⟩

/-- `notify_one` wakes a thread, or no thread sleeps. -/
theorem notifyOne_cases (h : c.notifyOne i = some d) :
    c.sleeping = [] ∧ d = c ∨ c.wake i = some d := by
  rw [notifyOne] at h
  split_ifs at h with hempty
  · exact Or.inl ⟨List.isEmpty_iff.mp hempty, (Option.some.inj h).symm⟩
  · exact Or.inr h

/-- A notification wakes threads only. -/
theorem sublist_of_wake (h : c.wake i = some d) : d.sleeping.Sublist c.sleeping := by
  obtain ⟨-, rfl⟩ := wake_eq_some.mp h
  exact List.eraseIdx_sublist _ _

theorem sublist_of_notifyOne (h : c.notifyOne i = some d) : d.sleeping.Sublist c.sleeping := by
  obtain ⟨-, rfl⟩ | hwake := notifyOne_cases h
  · exact List.Sublist.refl _
  · exact sublist_of_wake hwake

theorem sleeping_of_resume (h : c.resume j = some (x, d)) : d.sleeping = c.sleeping := by
  obtain ⟨-, -, rfl⟩ := resume_eq_some.mp h
  rfl

/-! ### No thread is lost -/

theorem perm_wait (c : CondVar τ) (x : τ) : (c.wait x).waiters.Perm (x :: c.waiters) := by
  rw [waiters, wait, List.append_assoc, List.singleton_append]
  exact List.perm_middle

theorem perm_of_wake (h : c.wake i = some d) : d.waiters.Perm c.waiters := by
  obtain ⟨hlt, rfl⟩ := wake_eq_some.mp h
  rw [waiters, waiters, ← List.append_assoc]
  refine (List.perm_append_singleton _ _).trans ?_
  exact (List.getElem_cons_eraseIdx_perm hlt).append_right c.woken

theorem perm_of_notifyOne (h : c.notifyOne i = some d) : d.waiters.Perm c.waiters := by
  obtain ⟨-, rfl⟩ | hwake := notifyOne_cases h
  · exact List.Perm.refl _
  · exact perm_of_wake hwake

theorem perm_of_notifyEach {is : List ℕ} (h : notifyEach is c = some d) :
    d.waiters.Perm c.waiters := by
  induction is generalizing c with
  | nil => rw [Option.some.inj h]
  | cons i is ih =>
    obtain ⟨e, he, hrest⟩ := Option.bind_eq_some_iff.mp h
    exact (ih hrest).trans (perm_of_notifyOne he)

theorem perm_notifyAll (c : CondVar τ) : c.notifyAll.waiters.Perm c.waiters := by
  rw [waiters, waiters, notifyAll, List.nil_append]
  exact List.perm_append_comm

theorem perm_of_resume (h : c.resume j = some (x, d)) : c.waiters.Perm (x :: d.waiters) := by
  obtain ⟨hlt, rfl, rfl⟩ := resume_eq_some.mp h
  rw [waiters, waiters]
  refine ((List.getElem_cons_eraseIdx_perm hlt).symm.append_left c.sleeping).trans ?_
  exact List.perm_middle

/-! ### A thread for each item -/

theorem covers_zero (c : CondVar τ) : c.Covers 0 := fun _ => Nat.zero_le _

theorem covers_notifyAll (c : CondVar τ) (n : ℕ) : c.notifyAll.Covers n := fun h => absurd rfl h

theorem Covers.mono {m n : ℕ} (h : c.Covers n) (hle : m ≤ n) : c.Covers m :=
  fun hne => Nat.le_trans hle (h hne)

/-- If no thread is woken, then no item is there for a thread that sleeps. -/
theorem Covers.eq_zero {n : ℕ} (h : c.Covers n) (hwoken : c.woken = []) (hne : c.sleeping ≠ []) :
    n = 0 := by
  have hle := h hne
  rw [hwoken] at hle
  exact Nat.le_zero.mp hle

/-- A wait that ends makes up for one more item. -/
theorem Covers.wake_succ {n : ℕ} (h : c.Covers n) (hwake : c.wake i = some d) :
    d.Covers (n + 1) := by
  obtain ⟨hlt, rfl⟩ := wake_eq_some.mp hwake
  intro _
  rw [List.length_append, List.length_singleton]
  exact Nat.succ_le_succ (h (List.ne_nil_of_length_pos (Nat.zero_lt_of_lt hlt)))

theorem Covers.wake {n : ℕ} (h : c.Covers n) (hwake : c.wake i = some d) : d.Covers n :=
  (h.wake_succ hwake).mono (Nat.le_succ n)

/-- **A notification makes up for a new item.** -/
theorem Covers.notifyOne {n : ℕ} (h : c.Covers n) (hnotify : c.notifyOne i = some d) :
    d.Covers (n + 1) := by
  obtain ⟨hnil, rfl⟩ | hwake := notifyOne_cases hnotify
  · exact fun hne => absurd hnil hne
  · exact h.wake_succ hwake

theorem Covers.notifyEach {n : ℕ} {is : List ℕ} (h : c.Covers n)
    (hnotify : CondVar.notifyEach is c = some d) : d.Covers (n + is.length) := by
  induction is generalizing c n with
  | nil => rwa [← Option.some.inj hnotify]
  | cons i is ih =>
    obtain ⟨e, he, hrest⟩ := Option.bind_eq_some_iff.mp hnotify
    have hcovers := ih (h.notifyOne he) hrest
    rwa [List.length_cons, Nat.add_comm is.length, ← Nat.add_assoc]

/-- **A woken thread makes up for the item that it takes.** -/
theorem Covers.resume {n : ℕ} (h : c.Covers n) (hresume : c.resume j = some (x, d)) :
    d.Covers (n - 1) := by
  obtain ⟨hlt, -, rfl⟩ := resume_eq_some.mp hresume
  intro hne
  rw [List.length_eraseIdx_of_lt hlt]
  exact Nat.sub_le_sub_right (h hne) 1

/-! ### A condition for each thread -/

theorem Blocked.mono {ready ready' : τ → Prop} (h : c.Blocked ready)
    (himp : ∀ x, ready' x → ready x) : c.Blocked ready' :=
  fun x hx hready => h x hx (himp x hready)

theorem Blocked.wait {ready : τ → Prop} (h : c.Blocked ready) (hx : ¬ready x) :
    (c.wait x).Blocked ready := by
  intro y hy
  rcases List.mem_append.mp hy with hy | hy
  · exact h y hy
  · rwa [List.mem_singleton.mp hy]

theorem Blocked.wake {ready : τ → Prop} (h : c.Blocked ready) (hwake : c.wake i = some d) :
    d.Blocked ready := by
  obtain ⟨-, rfl⟩ := wake_eq_some.mp hwake
  exact fun y hy => h y (List.mem_of_mem_eraseIdx hy)

theorem Blocked.resume {ready : τ → Prop} (h : c.Blocked ready)
    (hresume : c.resume j = some (x, d)) : d.Blocked ready := by
  obtain ⟨-, -, rfl⟩ := resume_eq_some.mp hresume
  exact h

theorem blocked_notifyAll (c : CondVar τ) (ready : τ → Prop) : c.notifyAll.Blocked ready :=
  fun _ hy => absurd hy List.not_mem_nil

end CondVar
