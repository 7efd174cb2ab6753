import TellerOBC.Foundations.Transfer

/-!
# Pieces of a list at addresses

A list that was cut into pieces is stored from an address on, one piece after the other. The
elements of a list with their addresses are `List.zipIdx`.

## Main definitions

* `Placement.Piece`, `Placement.placed`: pieces with the addresses of their first elements.

## Main results

* `Placement.flatMap_zipIdx_placed`: together the pieces have each element once, at its address.
* `Placement.mod_add_length_le`: if the first address is a multiple of the size of the pieces, then
  no piece goes over a multiple of it.
-/

namespace Placement

variable {α : Type} {size start : ℕ} {xs : List α}

/-- A part of a list, with the address of its first element. -/
structure Piece (α : Type) where
  address : ℕ
  elements : List α
  deriving DecidableEq, Repr

/-- The pieces with their addresses, from a first one on. -/
def placed (start : ℕ) : List (List α) → List (Piece α)
  | [] => []
  | xs :: pieces => ⟨start, xs⟩ :: placed (start + xs.length) pieces

/-- Together the pieces have each element once, at its address. -/
theorem flatMap_zipIdx_placed (start : ℕ) (pieces : List (List α)) :
    (placed start pieces).flatMap (fun p => p.elements.zipIdx p.address) =
      pieces.flatten.zipIdx start := by
  induction pieces generalizing start with
  | nil => rfl
  | cons xs pieces ih =>
    rw [placed, List.flatMap_cons, ih, List.flatten_cons, List.zipIdx_append]

/-- If the first address is a multiple of the size of the pieces, no piece goes over a multiple of
it. -/
theorem mod_add_length_le (hstart : start % (size + 1) = 0) {p : Piece α}
    (h : p ∈ placed start (Transfer.pieces size xs)) :
    p.address % (size + 1) + p.elements.length ≤ size + 1 := by
  fun_induction Transfer.pieces size xs generalizing start with
  | case1 => exact absurd h List.not_mem_nil
  | case2 x xs ih =>
    have hlength : (x :: xs.take size).length ≤ size + 1 :=
      Nat.succ_le_succ (List.length_take_le ..)
    rcases List.mem_cons.mp h with rfl | h
    · rwa [hstart, Nat.zero_add]
    by_cases hlast : xs.length ≤ size
    · rw [List.drop_eq_nil_of_le hlast, Transfer.pieces_nil] at h
      exact absurd h List.not_mem_nil
    · -- the piece is full, so that the next one begins at a multiple too
      have hfull : (x :: xs.take size).length = size + 1 :=
        congrArg Nat.succ (List.length_take_of_le (Nat.le_of_not_le hlast))
      rw [hfull] at h
      exact ih (by rw [Nat.add_mod_right, hstart]) h

end Placement
