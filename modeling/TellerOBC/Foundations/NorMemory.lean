import Mathlib.Data.List.Basic
import Mathlib.Tactic.Common

/-!
# NOR memories

A NOR memory can be read anywhere, programming can only clear bits, and a whole region at a time is
erased to ones. So what is programmed is read back where the memory was erased before.

## Main definitions

* `NorMemory.read`, `NorMemory.program`, `NorMemory.erase`.

## Main results

* `NorMemory.program_append`, `NorMemory.read_add`: parts one after the other.
* `NorMemory.read_program_of_erased`: programming erased bytes and reading them.
* `NorMemory.read_program_of_disjoint`, `NorMemory.read_erase_of_disjoint`: everything else.
-/

namespace NorMemory

variable (memory : ℕ → UInt8)

/-- The bytes from an address on. -/
def read (address size : ℕ) : List UInt8 :=
  (List.range size).map fun i => memory (address + i)

/-- Program bytes from an address on: bits are cleared where the bytes have zeros. -/
def program (address : ℕ) (data : List UInt8) : ℕ → UInt8 := fun a =>
  if address ≤ a then
    match data[a - address]? with
    | some byte => memory a &&& byte
    | none => memory a
  else memory a

/-- Erase a region. -/
def erase (address size : ℕ) : ℕ → UInt8 := fun a =>
  if address ≤ a ∧ a < address + size then 0xFF else memory a

variable {memory} {address size other n : ℕ} {data : List UInt8}

@[simp] theorem length_read : (read memory address size).length = size := by
  rw [read, List.length_map, List.length_range]

theorem read_add (memory : ℕ → UInt8) (address m n : ℕ) :
    read memory address (m + n) = read memory address m ++ read memory (address + m) n := by
  simp only [read, List.range_add, List.map_append, List.map_map, Nat.add_assoc]
  rfl

@[simp] theorem program_nil (memory : ℕ → UInt8) (address : ℕ) :
    program memory address [] = memory := by
  funext a
  simp [program]

/-- Outside of what is programmed the memory keeps its bytes. -/
theorem program_of_not_mem {a : ℕ} (h : ¬(address ≤ a ∧ a < address + data.length)) :
    program memory address data a = memory a := by
  rw [program]
  split_ifs with hle
  · rw [List.getElem?_eq_none (by omega)]
  · rfl

theorem program_add {i : ℕ} (hi : i < data.length) :
    program memory address data (address + i) = memory (address + i) &&& data[i] := by
  simp [program, hi]

/-- Bytes are programmed in parts. -/
theorem program_append (memory : ℕ → UInt8) (address : ℕ) (xs ys : List UInt8) :
    program memory address (xs ++ ys) =
      program (program memory address xs) (address + xs.length) ys := by
  funext a
  by_cases hfirst : address ≤ a ∧ a < address + xs.length
  · have hrest : ¬(address + xs.length ≤ a ∧ a < address + xs.length + ys.length) := by omega
    rw [program_of_not_mem hrest, program, program, if_pos hfirst.1, if_pos hfirst.1,
      List.getElem?_append_left (by omega)]
  · rw [program, program, program_of_not_mem hfirst]
    split_ifs with hle hrest hrest
    · rw [List.getElem?_append_right (by omega), Nat.sub_add_eq]
    · rw [List.getElem?_append_left (by omega), List.getElem?_eq_none (by omega)]
    · omega
    · rfl

theorem and_ones (byte : UInt8) : 0xFF &&& byte = byte :=
  (UInt8.neg_one_and : -1 &&& byte = byte)

/-- **What was programmed is read back** where the memory was erased. -/
theorem read_program_of_erased (h : ∀ i < data.length, memory (address + i) = 0xFF) :
    read (program memory address data) address data.length = data := by
  refine List.ext_getElem (by simp) fun i hi hi' => ?_
  simp only [read, List.getElem_map, List.getElem_range]
  rw [program_add hi', h i hi', and_ones]

theorem read_congr {memory' : ℕ → UInt8}
    (h : ∀ i < size, memory (address + i) = memory' (address + i)) :
    read memory address size = read memory' address size :=
  List.map_congr_left fun i hi => h i (List.mem_range.mp hi)

theorem read_program_of_disjoint (h : other + n ≤ address ∨ address + data.length ≤ other) :
    read (program memory address data) other n = read memory other n :=
  read_congr fun _ _ => program_of_not_mem (by omega)

theorem erase_of_mem {a : ℕ} (h : address ≤ a ∧ a < address + size) :
    erase memory address size a = 0xFF := if_pos h

theorem read_erase_of_disjoint (h : other + n ≤ address ∨ address + size ≤ other) :
    read (erase memory address size) other n = read memory other n :=
  read_congr fun _ _ => if_neg (by omega)

end NorMemory
