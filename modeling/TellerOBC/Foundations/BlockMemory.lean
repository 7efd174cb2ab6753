import Mathlib.Data.List.GetD

/-!
# Memories that consist of blocks

A memory with an address for each element, the elements of which are in blocks of the same size.
What is between two addresses is put together from parts of blocks.

## Main definitions

* `BlockMemory.elementAt`, `BlockMemory.elementsFrom`: what is at an address, and from an address
  on.

## Main results

* `BlockMemory.elementsFrom_add`, `BlockMemory.elementsFrom_block`: two parts one after the other,
  and a part of a block.
-/

namespace BlockMemory

variable {β : Type} (default : β) (blocks : ℕ → List β) (size : ℕ)

/-- The element at an address. -/
def elementAt (a : ℕ) : β := (blocks (a / size)).getD (a % size) default

/-- As many elements from an address on. -/
def elementsFrom (first count : ℕ) : List β :=
  (List.range' first count).map (elementAt default blocks size)

@[simp] theorem length_elementsFrom (first count : ℕ) :
    (elementsFrom default blocks size first count).length = count := by
  rw [elementsFrom, List.length_map, List.length_range']

@[simp] theorem elementsFrom_zero (first : ℕ) :
    elementsFrom default blocks size first 0 = [] := rfl

/-- The elements from an address on are those up to another address and those from there on. -/
theorem elementsFrom_add (first m n : ℕ) :
    elementsFrom default blocks size first (m + n) =
      elementsFrom default blocks size first m ++
        elementsFrom default blocks size (first + m) n := by
  rw [elementsFrom, ← List.range'_append_1, List.map_append]
  rfl

variable {default blocks size}

/-- The elements from an offset in a block on, up to its end. -/
theorem elementsFrom_block {b offset count : ℕ} (hblock : (blocks b).length = size)
    (hcount : offset + count ≤ size) :
    elementsFrom default blocks size (b * size + offset) count =
      ((blocks b).drop offset).take count := by
  apply List.ext_getElem
  · rw [length_elementsFrom, List.length_take, List.length_drop, hblock]
    omega
  · intro i hi _
    rw [length_elementsFrom] at hi
    have hlt : offset + i < size := by omega
    have hdiv : (b * size + offset + i) / size = b := by
      rw [Nat.add_assoc, Nat.mul_comm, Nat.mul_add_div (by omega), Nat.div_eq_of_lt hlt,
        Nat.add_zero]
    have hmod : (b * size + offset + i) % size = offset + i := by
      rw [Nat.add_assoc, Nat.mul_add_mod_of_lt hlt]
    simp only [elementsFrom, List.getElem_map, List.getElem_range', List.getElem_take,
      List.getElem_drop, elementAt, Nat.one_mul, hdiv, hmod]
    exact List.getD_eq_getElem _ _ (hblock.symm ▸ hlt)

end BlockMemory
