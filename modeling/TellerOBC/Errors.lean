import Mathlib.Data.Fintype.Basic
import Mathlib.Data.Finset.Lattice.Fold
import Mathlib.Data.UInt
import TellerOBC.Foundations.HighestBit
import TellerOBC.Foundations.StepSystem

/-!
# Error conditions

`modules/errors.cpp`: a mask of the errors that are present, and one of them that `getError`
returns. The single error is the smallest code that was set, until it is cleared; then it becomes
the largest code that is present, which is found by smearing the bits of the mask and taking a
logarithm.

The mask and the single error agree after all calls. But the single error changes without a change
of the mask when an error is set that is present and smaller.

`std::log2f` is a parameter, truncated to an integer as the code does. Where needed, it is exact on
powers of two. The error LED and the log records are left out.

## Main definitions

* `TellerOBC.Errors` with `setError`, `clearError`, `clearAllErrors`, `hasError`, `getError`.
* `TellerOBC.Errors.present`: the set of the errors that are present.
* `TellerOBC.Errors.Stable`: a call that leaves this set unchanged leaves `getError` unchanged.

## Main results

* `TellerOBC.Errors.Agrees.step`: the invariant.
* `TellerOBC.Errors.getError_run`: `getError` after every run.
* `TellerOBC.Errors.stable_iff`: the runs in which `getError` is stable.
-/

namespace TellerOBC

/-- `error_t`, the values from `NO_ERROR` to `SIMULATED_ERROR`. -/
abbrev Errors.Code := Fin 64

/-- `NO_ERROR`. -/
def noError : Errors.Code := 0

/-- `ERROR_BIT`. -/
def errorBit (code : Errors.Code) : UInt64 := 1 <<< (UInt64.ofNat code - 1)

/-- A logarithm that is exact on powers of two. -/
def ExactOnPowers (log2f : UInt64 → ℕ) : Prop :=
  ∀ k < 64, log2f (UInt64.ofNat (2 ^ k)) = k

/-- The state of the module: `errorCodes` and `singleError`. -/
structure Errors where
  errorCodes : UInt64
  singleError : ℕ
  deriving DecidableEq, Repr

namespace Errors

open HighestBit StepSystem

/-- Before the first call. -/
def start : Errors := ⟨0, noError⟩

/-- The bits of `updateSingleError`: all bits from the highest one down are set. -/
def smear (codes : UInt64) : UInt64 :=
  let codes := codes ||| (codes >>> 1)
  let codes := codes ||| (codes >>> 2)
  let codes := codes ||| (codes >>> 4)
  let codes := codes ||| (codes >>> 8)
  let codes := codes ||| (codes >>> 16)
  codes ||| (codes >>> 32)

variable (log2f : UInt64 → ℕ) (s : Errors)

/-- `updateSingleError`. -/
def updateSingleError : Errors :=
  if s.errorCodes ≠ 0 then
    let codes := smear s.errorCodes
    { s with singleError := log2f (codes - (codes >>> 1)) + 1 }
  else { s with singleError := noError }

/-- `setError`. -/
def setError (code : Code) (present : Bool) : Errors :=
  if code = noError then s
  else if present then
    let s := { s with errorCodes := s.errorCodes ||| errorBit code }
    if s.singleError = 0 ∨ code.val < s.singleError then { s with singleError := code } else s
  else
    let s := { s with errorCodes := s.errorCodes &&& ~~~errorBit code }
    if s.singleError = code.val then s.updateSingleError log2f else s

/-- `clearError`. -/
def clearError (code : Code) : Errors := s.setError log2f code false

/-- `clearAllErrors`. -/
def clearAllErrors : Errors :=
  if s.errorCodes ≠ 0 then updateSingleError log2f { s with errorCodes := 0 } else s

/-- `hasError`. -/
def hasError (code : Code) : Bool := s.errorCodes &&& errorBit code ≠ 0

/-- `hasAnyErrors`. -/
def hasAnyErrors : Bool := s.errorCodes ≠ 0

/-- `getError`. -/
def getError : ℕ := s.singleError

/-- The errors that are present. -/
def present : Finset Code := {code | code ≠ noError ∧ s.hasError code = true}

/-! ### The mask -/

theorem toNat_errorBit {code : Code} (h : code ≠ noError) :
    (errorBit code).toNat = 2 ^ (code.val - 1) := by
  revert code
  decide +kernel

variable {s}

/-- An error is present if its bit is set. -/
theorem mem_present {code : Code} :
    code ∈ s.present ↔ code ≠ noError ∧ s.errorCodes.toNat.testBit (code - 1) = true := by
  rw [present, Finset.mem_filter, and_iff_right (Finset.mem_univ _)]
  refine and_congr_right fun hcode => ?_
  rw [hasError, decide_eq_true_eq, ne_eq, ← UInt64.toNat_inj, UInt64.toNat_and,
    toNat_errorBit hcode, Nat.and_two_pow]
  cases s.errorCodes.toNat.testBit (code - 1) <;> simp

/-- The bits are set in the mask up to the highest one. -/
theorem covers_smear (codes : UInt64) : Covers 64 codes.toNat (smear codes).toNat := by
  simp only [smear, UInt64.toNat_or, UInt64.toNat_shiftRight]
  have h₁ := (covers_one codes.toNat).or_shiftRight
  have h₂ := h₁.or_shiftRight
  have h₄ := h₂.or_shiftRight
  have h₈ := h₄.or_shiftRight
  have h₁₆ := h₈.or_shiftRight
  exact h₁₆.or_shiftRight

/-- The argument of the logarithm is a power of two. -/
theorem sub_shiftRight_smear {codes : UInt64} (h : codes ≠ 0) :
    smear codes - (smear codes >>> 1) = UInt64.ofNat (2 ^ codes.toNat.log2) := by
  have hne : codes.toNat ≠ 0 := fun hzero => h (UInt64.toNat_inj.mp hzero)
  have hlog : codes.toNat.log2 < 64 := (Nat.log2_lt hne).mpr codes.toNat_lt
  have hshift : (smear codes >>> 1).toNat = (smear codes).toNat >>> 1 :=
    UInt64.toNat_shiftRight ..
  have hle : smear codes >>> 1 ≤ smear codes := by
    rw [UInt64.le_iff_toNat_le, hshift, Nat.shiftRight_eq_div_pow]
    exact Nat.div_le_self _ _
  rw [← UInt64.toNat_inj, UInt64.toNat_sub_of_le _ _ hle, hshift,
    (covers_smear codes).sub_shiftRight hne codes.toNat_lt, UInt64.toNat_ofNat']
  exact (Nat.mod_eq_of_lt (Nat.pow_lt_pow_right (by decide) hlog)).symm

/-- Different errors have different bits. -/
theorem testBit_errorBit {code code' : Code} (h : code ≠ noError) (h' : code' ≠ noError) :
    (errorBit code).toNat.testBit (code' - 1) = decide (code' = code) := by
  have hpos : 0 < code.val := Fin.pos_iff_ne_zero.mpr h
  have hpos' : 0 < code'.val := Fin.pos_iff_ne_zero.mpr h'
  rw [toNat_errorBit h, Nat.testBit_two_pow, decide_eq_decide, Fin.ext_iff]
  omega

/-- Setting a bit inserts its error. -/
theorem present_or {code : Code} (hcode : code ≠ noError) {t : Errors}
    (ht : t.errorCodes = s.errorCodes ||| errorBit code) : t.present = insert code s.present := by
  ext code'
  rw [Finset.mem_insert, mem_present, mem_present, ht, UInt64.toNat_or, Nat.testBit_or]
  by_cases hcode' : code' = noError
  · simp [hcode', Ne.symm hcode]
  · simp [hcode', testBit_errorBit hcode hcode', or_comm]

/-- Clearing a bit erases its error. -/
theorem present_and_not {code : Code} (hcode : code ≠ noError) {t : Errors}
    (ht : t.errorCodes = s.errorCodes &&& ~~~errorBit code) : t.present = s.present.erase code := by
  ext code'
  have hnot : (~~~errorBit code).toNat.testBit (code' - 1) =
      !(errorBit code).toNat.testBit (code' - 1) := by
    have hlt : code'.val - 1 < 64 := (Nat.sub_le _ _).trans_lt code'.isLt
    have hbit := @BitVec.getLsbD_not 64 (code'.val - 1) (errorBit code).toBitVec
    rwa [decide_eq_true hlt, Bool.true_and] at hbit
  rw [Finset.mem_erase, mem_present, mem_present, ht, UInt64.toNat_and, Nat.testBit_and, hnot]
  by_cases hcode' : code' = noError
  · simp [hcode']
  · simp [hcode', testBit_errorBit hcode hcode', and_comm]

theorem present_zero {t : Errors} (ht : t.errorCodes = 0) : t.present = ∅ := by
  ext code
  rw [mem_present, ht]
  simp

/-! ### The mask and the single error -/

/-- The single error is one of those that are present, if there are any. -/
structure Agrees (s : Errors) : Prop where
  errorCodes_lt : s.errorCodes.toNat < 2 ^ 63
  singleError_eq : s.present = ∅ → s.singleError = noError.val
  exists_present : s.present ≠ ∅ → ∃ code ∈ s.present, s.singleError = code.val

theorem agrees_start : Agrees start :=
  ⟨by decide, fun _ => rfl, fun h => absurd (present_zero rfl) h⟩

/-- The highest bit of a mask that is not zero is an error. -/
theorem exists_present_log2 (h : s.errorCodes ≠ 0) (hlt : s.errorCodes.toNat < 2 ^ 63) :
    ∃ code ∈ s.present, code.val = s.errorCodes.toNat.log2 + 1 := by
  have hne : s.errorCodes.toNat ≠ 0 := fun hzero => h (UInt64.toNat_inj.mp hzero)
  have hlog : s.errorCodes.toNat.log2 < 63 := (Nat.log2_lt hne).mpr hlt
  refine ⟨⟨s.errorCodes.toNat.log2 + 1, Nat.succ_lt_succ hlog⟩, mem_present.mpr ⟨?_, ?_⟩, rfl⟩
  · exact fun heq => absurd (Fin.ext_iff.mp heq) (Nat.succ_ne_zero _)
  · rw [Nat.add_sub_cancel]
    exact Nat.testBit_log2 hne

/-- With a mask below `2 ^ 63`, some error is present exactly if the mask is not zero. -/
theorem present_eq_empty_iff (hlt : s.errorCodes.toNat < 2 ^ 63) :
    s.present = ∅ ↔ s.errorCodes = 0 := by
  refine ⟨fun hempty => ?_, present_zero⟩
  by_contra hne
  obtain ⟨code, hmem, -⟩ := exists_present_log2 hne hlt
  rw [hempty] at hmem
  exact absurd hmem (Finset.notMem_empty code)

section

variable {log2f} {t : Errors}

/-- Updating the single error makes it one of those that are present. -/
theorem agrees_updateSingleError (hlog2f : ExactOnPowers log2f)
    (hlt : s.errorCodes.toNat < 2 ^ 63) : Agrees (s.updateSingleError log2f) := by
  rw [updateSingleError]
  split_ifs with hne
  · obtain ⟨code, hmem, hcode⟩ := exists_present_log2 hne hlt
    have hlog : log2f (UInt64.ofNat (2 ^ s.errorCodes.toNat.log2)) + 1 = code.val := by
      rw [hcode, hlog2f _ (by omega)]
    exact ⟨hlt, fun hempty => absurd ((present_eq_empty_iff hlt).mp hempty) hne,
      fun _ => ⟨code, hmem, by simp only [sub_shiftRight_smear hne, hlog]⟩⟩
  · have hempty := present_zero (not_not.mp hne)
    exact ⟨hlt, fun _ => rfl, fun hnonempty => absurd hempty hnonempty⟩

theorem setError_noError (present : Bool) : s.setError log2f noError present = s := if_pos rfl

/-- Setting an error inserts it, and makes it the single error if it is smaller. -/
theorem setError_true {code : Code} (hcode : code ≠ noError) :
    s.setError log2f code true = ⟨s.errorCodes ||| errorBit code,
      if s.singleError = 0 ∨ code.val < s.singleError then code.val else s.singleError⟩ := by
  rw [setError, if_neg hcode, if_pos rfl]
  dsimp only
  split_ifs <;> rfl

/-- Clearing an error erases it, and updates the single error if it is the same. -/
theorem setError_false {code : Code} (hcode : code ≠ noError) :
    s.setError log2f code false =
      if s.singleError = code.val then
        updateSingleError log2f ⟨s.errorCodes &&& ~~~errorBit code, s.singleError⟩
      else ⟨s.errorCodes &&& ~~~errorBit code, s.singleError⟩ := by
  rw [setError, if_neg hcode, if_neg Bool.false_ne_true]

theorem present_updateSingleError : (s.updateSingleError log2f).present = s.present := by
  rw [updateSingleError]
  split_ifs <;> rfl

theorem present_setError_true {code : Code} (hcode : code ≠ noError) :
    (s.setError log2f code true).present = insert code s.present := by
  rw [setError_true hcode]
  exact present_or hcode rfl

theorem present_setError_false {code : Code} (hcode : code ≠ noError) :
    (s.setError log2f code false).present = s.present.erase code := by
  rw [setError_false hcode]
  split_ifs
  · rw [present_updateSingleError]
    exact present_and_not hcode rfl
  · exact present_and_not hcode rfl

theorem errorBit_lt {code : Code} (h : code ≠ noError) : (errorBit code).toNat < 2 ^ 63 := by
  have hpos : 0 < code.val := Fin.pos_iff_ne_zero.mpr h
  rw [toNat_errorBit h]
  exact Nat.pow_lt_pow_right (by decide) (by omega)

namespace Agrees

theorem and_not_lt (h : Agrees s) (code : Code) :
    (s.errorCodes &&& ~~~errorBit code).toNat < 2 ^ 63 := by
  rw [UInt64.toNat_and]
  exact Nat.and_le_left.trans_lt h.errorCodes_lt

theorem setError_true (h : Agrees s) {code : Code} (hcode : code ≠ noError) :
    Agrees (s.setError log2f code true) := by
  have hpresent : (s.setError log2f code true).present = insert code s.present :=
    present_setError_true hcode
  refine ⟨?_, fun hempty => ?_, fun _ => ?_⟩
  · rw [Errors.setError_true hcode, UInt64.toNat_or]
    exact Nat.or_lt_two_pow h.errorCodes_lt (errorBit_lt hcode)
  · exact absurd (hpresent.symm.trans hempty) (Finset.insert_ne_empty _ _)
  · rw [hpresent, Errors.setError_true hcode]
    dsimp only
    split_ifs with hsmaller
    · exact ⟨code, Finset.mem_insert_self _ _, rfl⟩
    · have hsingle : s.singleError ≠ 0 := fun hzero => hsmaller (Or.inl hzero)
      obtain ⟨code', hmem, heq⟩ := h.exists_present fun hempty => hsingle (h.singleError_eq hempty)
      exact ⟨code', Finset.mem_insert_of_mem hmem, heq⟩

theorem setError_false (h : Agrees s) (hlog2f : ExactOnPowers log2f) {code : Code}
    (hcode : code ≠ noError) : Agrees (s.setError log2f code false) := by
  have hpresent : (s.setError log2f code false).present = s.present.erase code :=
    present_setError_false hcode
  rw [Errors.setError_false hcode] at hpresent ⊢
  split_ifs at hpresent ⊢ with hsingle
  · exact agrees_updateSingleError hlog2f (h.and_not_lt code)
  · have hkeep : s.present ≠ ∅ → ∃ code' ∈ s.present.erase code, s.singleError = code'.val := by
      intro hnonempty
      obtain ⟨code', hmem, heq⟩ := h.exists_present hnonempty
      refine ⟨code', Finset.mem_erase.mpr ⟨?_, hmem⟩, heq⟩
      rintro rfl
      exact hsingle heq
    refine ⟨h.and_not_lt code, fun hempty => ?_, fun hnonempty => ?_⟩
    · refine h.singleError_eq (by_contra fun hnonempty => ?_)
      obtain ⟨code', hmem, -⟩ := hkeep hnonempty
      rw [← hpresent, hempty] at hmem
      exact Finset.notMem_empty _ hmem
    · rw [hpresent] at hnonempty ⊢
      refine hkeep fun hempty => hnonempty ?_
      rw [hempty, Finset.erase_empty]

theorem setError (h : Agrees s) (hlog2f : ExactOnPowers log2f) (code : Code) (present : Bool) :
    Agrees (s.setError log2f code present) := by
  by_cases hcode : code = noError
  · rwa [hcode, setError_noError]
  · cases present with
    | true => exact h.setError_true hcode
    | false => exact h.setError_false hlog2f hcode

theorem clearAllErrors (h : Agrees s) (hlog2f : ExactOnPowers log2f) :
    Agrees (s.clearAllErrors log2f) := by
  rw [Errors.clearAllErrors]
  split_ifs
  · exact agrees_updateSingleError hlog2f (Nat.two_pow_pos 63)
  · exact h

end Agrees

end

/-! ### Runs -/

/-- The calls that change the errors. -/
inductive Call where
  | setError (code : Code) (present : Bool)
  | clearError (code : Code)
  | clearAllErrors
  deriving DecidableEq, Repr

/-- A step is a call. -/
def step (s : Errors) : Call → Option Errors
  | .setError code present => some (s.setError log2f code present)
  | .clearError code => some (s.clearError log2f code)
  | .clearAllErrors => some (s.clearAllErrors log2f)

/-- The guarantee of `getError`: a call that leaves the set of present errors unchanged leaves the
value unchanged. -/
def Stable (s : Errors) (call : Call) : Prop :=
  ∀ t, s.step log2f call = some t → t.present = s.present → t.getError = s.getError

/-- The call sets an error that is present already and smaller than the single error. -/
def SetsSmaller (s : Errors) : Call → Prop
  | .setError code true => code ∈ s.present ∧ code.val < s.singleError
  | _ => False

instance (s : Errors) : ∀ call, Decidable (s.SetsSmaller call)
  | .setError code true => inferInstanceAs (Decidable (code ∈ s.present ∧ code.val < s.singleError))
  | .setError _ false | .clearError _ | .clearAllErrors => inferInstanceAs (Decidable False)

section

variable {log2f} {t : Errors}

/-- **Every call keeps the mask and the single error in agreement.** -/
theorem Agrees.step (hlog2f : ExactOnPowers log2f) (h : Agrees s) {call : Call}
    (hstep : s.step log2f call = some t) : Agrees t := by
  cases call with
  | setError code present =>
    obtain rfl := Option.some.inj hstep
    exact h.setError hlog2f code present
  | clearError code =>
    obtain rfl := Option.some.inj hstep
    exact h.setError hlog2f code false
  | clearAllErrors =>
    obtain rfl := Option.some.inj hstep
    exact h.clearAllErrors hlog2f

/-- Clearing an error is stable. -/
theorem Agrees.getError_clear (h : Agrees s) {code : Code}
    (hpresent : (s.setError log2f code false).present = s.present) :
    (s.setError log2f code false).getError = s.getError := by
  by_cases hcode : code = noError
  · rw [hcode, setError_noError]
  · rw [present_setError_false hcode] at hpresent
    have habsent : code ∉ s.present := Finset.erase_eq_self.mp hpresent
    have hsingle : s.singleError ≠ code.val := by
      intro heq
      by_cases hempty : s.present = ∅
      · exact hcode (Fin.ext (heq.symm.trans (h.singleError_eq hempty)))
      · obtain ⟨code', hmem, heq'⟩ := h.exists_present hempty
        exact habsent (Fin.ext (heq.symm.trans heq') ▸ hmem)
    rw [Errors.setError_false hcode, if_neg hsingle]
    rfl

/-- Setting an error is stable unless it is present and smaller than the single error. -/
theorem Agrees.getError_set_iff (h : Agrees s) (code : Code) :
    ((s.setError log2f code true).present = s.present →
      (s.setError log2f code true).getError = s.getError) ↔
      ¬(code ∈ s.present ∧ code.val < s.singleError) := by
  by_cases hcode : code = noError
  · rw [hcode, setError_noError]
    exact iff_of_true (fun _ => rfl) fun hmem => (mem_present.mp hmem.1).1 rfl
  · rw [present_setError_true hcode, Finset.insert_eq_self, not_and]
    refine imp_congr_right fun hmem => ?_
    have hsingle : s.singleError ≠ 0 := by
      obtain ⟨code', hmem', heq⟩ := h.exists_present (Finset.ne_empty_of_mem hmem)
      rw [heq]
      exact fun hzero => (mem_present.mp hmem').1 (Fin.ext hzero)
    rw [getError, getError, Errors.setError_true hcode]
    simp only [hsingle, false_or, not_lt, ite_eq_right_iff]
    omega

/-- Clearing all errors is stable. -/
theorem Agrees.getError_clearAll (h : Agrees s)
    (hpresent : (s.clearAllErrors log2f).present = s.present) :
    (s.clearAllErrors log2f).getError = s.getError := by
  rw [Errors.clearAllErrors] at hpresent ⊢
  split_ifs at hpresent ⊢ with hne
  · rw [present_updateSingleError, present_zero rfl] at hpresent
    exact absurd ((present_eq_empty_iff h.errorCodes_lt).mp hpresent.symm) hne
  · rfl

/-- **A call is stable** exactly if it does not set an error that is present and smaller than the
single error. -/
theorem Agrees.stable_call_iff (h : Agrees s) (call : Call) :
    s.Stable log2f call ↔ ¬s.SetsSmaller call := by
  cases call with
  | setError code present =>
    simp only [Stable, Errors.step, Option.some.injEq, forall_eq']
    cases present with
    | true => exact h.getError_set_iff code
    | false => exact iff_of_true h.getError_clear not_false
  | clearError code =>
    simp only [Stable, Errors.step, Option.some.injEq, forall_eq']
    exact iff_of_true h.getError_clear not_false
  | clearAllErrors =>
    simp only [Stable, Errors.step, Option.some.injEq, forall_eq']
    exact iff_of_true h.getError_clearAll not_false

end

/-- **`getError` after every run**: `NO_ERROR` exactly if no error is present, and else one of the
errors that are present. -/
theorem getError_run {log2f : UInt64 → ℕ} (hlog2f : ExactOnPowers log2f) {calls : List Call}
    {s : Errors} (hrun : run (step log2f) start calls = some s) :
    (s.getError = noError.val ↔ ∀ code ≠ noError, s.hasError code = false) ∧
      (s.getError ≠ noError.val → ∃ code, s.getError = code.val ∧ s.hasError code = true) := by
  have h : Agrees s :=
    invariant_visits_of_step (fun _ _ _ h => h.step hlog2f) agrees_start (visits_of_run hrun)
  have hempty : s.present = ∅ ↔ ∀ code ≠ noError, s.hasError code = false := by
    simp only [present, Finset.filter_eq_empty_iff, Finset.mem_univ, true_implies, not_and,
      Bool.not_eq_true]
  rw [← hempty]
  by_cases hpresent : s.present = ∅
  · exact ⟨iff_of_true (h.singleError_eq hpresent) hpresent,
      fun hne => absurd (h.singleError_eq hpresent) hne⟩
  · obtain ⟨code, hmem, heq⟩ := h.exists_present hpresent
    obtain ⟨hcode, herror⟩ := (Finset.mem_filter.mp hmem).2
    refine ⟨iff_of_false (fun hzero => ?_) hpresent, fun _ => ⟨code, heq, herror⟩⟩
    exact hcode (Fin.ext (heq.symm.trans hzero))

/-- The logarithm of integers is exact on powers of two. -/
theorem exactOnPowers_log2 : ExactOnPowers fun codes => codes.toNat.log2 := by
  intro k hk
  dsimp only
  rw [UInt64.toNat_ofNat', Nat.mod_eq_of_lt (Nat.pow_lt_pow_right (by decide) hk)]
  exact Nat.log2_two_pow

/-- The smallest of three errors is cleared. -/
theorem getError_of_clear :
    ∃ s, run (step fun codes => codes.toNat.log2) start
        [.setError 2 true, .setError 3 true, .setError 32 true, .clearError 2] = some s ∧
      s.getError = 32 ∧ ∃ code, s.getError = code.val ∧ s.hasError code = true := by
  have hrun : run (step fun codes => codes.toNat.log2) start
      [.setError 2 true, .setError 3 true, .setError 32 true, .clearError 2] =
        some ⟨2 ^ 31 + 2 ^ 2, 32⟩ := by
    decide +kernel
  exact ⟨_, hrun, rfl, (getError_run exactOnPowers_log2 hrun).2 (by decide)⟩

/-- **When `getError` is stable.** The calls of a run that leave the set of present errors unchanged
leave the value unchanged, exactly if no call of the run sets an error that is present and smaller
than the single error. -/
theorem stable_iff {log2f : UInt64 → ℕ} (hlog2f : ExactOnPowers log2f) (calls : List Call) :
    Meets (step log2f) (Stable log2f) start calls ↔
      Meets (step log2f) (fun s call => ¬s.SetsSmaller call) start calls :=
  meets_congr (fun _ _ _ h => h.step hlog2f) (fun _ call h => h.stable_call_iff call) agrees_start

/-- Errors that are set once. -/
theorem stable_of_set_once :
    Meets (step fun codes => codes.toNat.log2) (Stable fun codes => codes.toNat.log2) start
      [.setError 3 true, .setError 3 true, .setError 2 true, .clearError 3, .clearAllErrors] :=
  (stable_iff exactOnPowers_log2 _).mpr (by decide +kernel)

/-- A full queue is reported again, and replaces a failure of the temperature sensor as the single
error. -/
theorem not_stable_of_set_again :
    ¬∀ calls, Meets (step fun codes => codes.toNat.log2) (Stable fun codes => codes.toNat.log2)
      start calls := by
  intro h
  have hlast := (((((h [.setError 2 true, .setError 3 true, .setError 32 true, .clearError 2,
    .setError 3 true]).2 _ rfl).2 _ rfl).2 _ rfl).2 _ rfl).1 _ rfl
  exact absurd (hlast (by decide +kernel)) (by decide +kernel)

end Errors

end TellerOBC
