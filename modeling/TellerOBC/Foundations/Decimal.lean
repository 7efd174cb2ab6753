import Mathlib.Data.List.Basic

/-!
# Decimal numerals as ASCII bytes

The decimal numerals that the conversions of the C standard library print, as lists of bytes,
and the value of a list of digits. Printing is inverted by taking the value, with and without
leading zeros, so that different numbers have different numerals of either kind.

## Main definitions

* `Decimal.ascii`: the bytes of a list of ASCII characters.
* `Decimal.print`, `Decimal.printPadded`: the numeral of a number.
* `Decimal.isDigit`, `Decimal.value`: digits and the value of a list of digits.

## Main results

* `Decimal.value_print`, `Decimal.value_printPadded`, `Decimal.isDigit_of_mem_print`.
-/

namespace Decimal

/-- The bytes of ASCII characters. -/
def ascii (cs : List Char) : List UInt8 := cs.map Char.toUInt8

/-- The numeral of a number without leading zeros. -/
def print (n : ℕ) : List UInt8 := ascii (Nat.toDigits 10 n)

/-- The numeral of a number with leading zeros up to a width. -/
def printPadded (width n : ℕ) : List UInt8 :=
  List.replicate (width - (print n).length) 0x30 ++ print n

/-- Whether a byte is an ASCII digit. -/
def isDigit (b : UInt8) : Bool := 0x30 ≤ b && b ≤ 0x39

/-- The value of a list of digits. -/
def value (ds : List UInt8) : ℕ := ds.foldl (fun n d => 10 * n + (d.toNat - 48)) 0

theorem toNat_toUInt8_of_isDigit {c : Char} (h : c.isDigit = true) :
    c.toUInt8.toNat = c.toNat := by
  rw [Char.isDigit_iff_toNat] at h
  have hlt : c.val.toNat < 256 := Nat.lt_of_le_of_lt h.2 (by decide)
  rw [Char.toUInt8, UInt32.toNat_toUInt8, Nat.mod_eq_of_lt hlt]
  rfl

theorem print_ne_nil (n : ℕ) : print n ≠ [] := by
  simp [print, ascii, Nat.toDigits_ne_nil]

/-- A numeral consists of digits. -/
theorem isDigit_of_mem_print {n : ℕ} {b : UInt8} (h : b ∈ print n) : isDigit b = true := by
  obtain ⟨c, hc, rfl⟩ := List.mem_map.mp h
  have hdigit := Nat.isDigit_of_mem_toDigits (by decide) (by decide) hc
  have hnat := toNat_toUInt8_of_isDigit hdigit
  rw [Char.isDigit_iff_toNat] at hdigit
  simp only [isDigit, Bool.and_eq_true, decide_eq_true_eq, UInt8.le_iff_toNat_le, hnat]
  exact hdigit

/-- **Round trip.** The value of a numeral is the number. -/
theorem value_print (n : ℕ) : value (print n) = n := by
  have hfold : value (print n) = Nat.ofDigitChars 10 (Nat.toDigits 10 n) 0 := by
    rw [value, print, ascii, List.foldl_map, Nat.ofDigitChars_eq_foldl]
    refine List.foldl_ext _ _ _ fun m c hc => ?_
    have hdigit := Nat.isDigit_of_mem_toDigits (by decide) (by decide) hc
    rw [toNat_toUInt8_of_isDigit hdigit]
    rfl
  rw [hfold, Nat.ofDigitChars_ten_toDigits]

theorem value_replicate_append (k : ℕ) (ds : List UInt8) :
    value (List.replicate k 0x30 ++ ds) = value ds := by
  induction k with
  | zero => rfl
  | succ k ih => exact ih

/-- **Round trip.** Leading zeros do not change the value. -/
theorem value_printPadded (width n : ℕ) : value (printPadded width n) = n := by
  rw [printPadded, value_replicate_append, value_print]

/-- Numbers have different numerals with leading zeros. -/
theorem printPadded_injective (width : ℕ) : Function.Injective (printPadded width) :=
  Function.LeftInverse.injective (value_printPadded width)

end Decimal
