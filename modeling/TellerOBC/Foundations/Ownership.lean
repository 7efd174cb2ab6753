import Mathlib.Data.List.Nodup
import Mathlib.Data.List.Perm.Basic

/-!
# Accounting for allocations

The allocations of a program are numbered in their order. At any time each of them should be owned
by exactly one of the program's objects, or have been freed once. `Ownership.Accounted` says so for
the list `references` of the allocations that objects refer to and the list `freed` of the
allocations that were freed, and is kept by the operations on them: passing an allocation on,
allocating and freeing.

## Main definitions

* `Ownership.Accounted`: every allocation is referenced or freed, once.

## Main results

* `Ownership.Accounted.live_iff`: the allocations that were not freed are those referenced.
* `Ownership.Accounted.of_perm`, `Ownership.Accounted.allocate`, `Ownership.Accounted.free`: the
  operations.
-/

namespace Ownership

/-- Every allocation is referenced or freed, once. -/
def Accounted (references freed : List ℕ) (allocated : ℕ) : Prop :=
  (references ++ freed).Perm (List.range allocated)

namespace Accounted

variable {references references' freed : List ℕ} {allocated : ℕ}

theorem nodup (h : Accounted references freed allocated) : (references ++ freed).Nodup :=
  h.nodup_iff.mpr List.nodup_range

theorem nodup_references (h : Accounted references freed allocated) : references.Nodup :=
  (List.nodup_append.mp h.nodup).1

theorem nodup_freed (h : Accounted references freed allocated) : freed.Nodup :=
  (List.nodup_append.mp h.nodup).2.1

theorem lt_of_mem (h : Accounted references freed allocated) {n : ℕ} (hn : n ∈ references) :
    n < allocated :=
  List.mem_range.mp (h.mem_iff.mp (List.mem_append_left _ hn))

theorem not_mem_freed (h : Accounted references freed allocated) {n : ℕ} (hn : n ∈ references) :
    n ∉ freed :=
  fun hfreed => (List.nodup_append.mp h.nodup).2.2 n hn n hfreed rfl

/-- The allocations that were not freed are those referenced. -/
theorem live_iff (h : Accounted references freed allocated) (n : ℕ) :
    n < allocated ∧ n ∉ freed ↔ n ∈ references := by
  constructor
  · rintro ⟨hn, hnot⟩
    have hmem : n ∈ references ++ freed := h.mem_iff.mpr (List.mem_range.mpr hn)
    exact (List.mem_append.mp hmem).resolve_right hnot
  · exact fun hn => ⟨h.lt_of_mem hn, h.not_mem_freed hn⟩

/-- The next allocation is neither referenced nor freed. -/
theorem not_mem_next (h : Accounted references freed allocated) :
    allocated ∉ references ++ freed := by
  rw [h.mem_iff, List.mem_range]
  exact Nat.lt_irrefl _

/-- An allocation passes from one object to another. -/
theorem of_perm (h : Accounted references freed allocated) (hperm : references'.Perm references) :
    Accounted references' freed allocated :=
  (hperm.append_right _).trans h

/-- An object owns a new allocation. -/
theorem allocate (h : Accounted references freed allocated)
    (hperm : references'.Perm (allocated :: references)) :
    Accounted references' freed (allocated + 1) := by
  rw [Accounted, List.range_succ]
  exact ((hperm.append_right _).trans (h.cons _)).trans (List.perm_append_singleton ..).symm

/-- Objects free the allocations that they own. -/
theorem free (h : Accounted references freed allocated) {released : List ℕ}
    (hperm : references.Perm (released ++ references')) :
    Accounted references' (freed ++ released) allocated := by
  refine List.Perm.trans ?_ ((hperm.append_right _).symm.trans h)
  rw [List.perm_iff_count]
  intro n
  simp only [List.count_append]
  omega

/-- When nothing is referenced, every allocation has been freed, once. -/
theorem freed_of_nil (h : Accounted [] freed allocated) : freed.Perm (List.range allocated) := h

end Accounted

end Ownership
