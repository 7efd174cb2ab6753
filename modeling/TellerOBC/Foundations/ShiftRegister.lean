import Mathlib.Logic.Function.Iterate
import Mathlib.Tactic.Common

/-!
# Cyclic redundancy checks as shift registers

A shift register with feedback takes the bits of a message one by one: the register is shifted,
and the polynomial is combined with it if the bit that leaves the register differs from the bit of
the message. Register and message enter linearly, in the sense of the exclusive or. Hence the
value after a message is the one of the message of zeros combined with the one of the empty
register, and the bits that would leave the register can be combined with the message beforehand:
this is what a table-driven implementation does with eight bits at a time.

## Main definitions

* `ShiftRegister`, `ShiftRegister.reflected`, `ShiftRegister.direct`: registers, and the two
  directions of shifting.
* `ShiftRegister.feed`: the register after a message.
* `ShiftRegister.lsbFirst`, `ShiftRegister.msbFirst`: the bits of a word.
* `ShiftRegister.IsBurst`: the errors in a message lie close together.

## Main results

* `ShiftRegister.feed_xor`: linearity.
* `ShiftRegister.feed_eq`: several bits at once.
* `ShiftRegister.feed_burst_ne_zero`: a burst of errors no longer than the register is seen in it.
-/

/-- A shift register with feedback over `w` bits. -/
structure ShiftRegister (w : ℕ) where
  /-- The register moved by one place. -/
  shift : BitVec w → BitVec w
  /-- The bit that leaves the register. -/
  out : BitVec w → Bool
  /-- The feedback. -/
  poly : BitVec w
  shift_xor : ∀ x y, shift (x ^^^ y) = shift x ^^^ shift y
  out_xor : ∀ x y, out (x ^^^ y) = (out x ^^ out y)

namespace ShiftRegister

variable {w : ℕ}

/-- The reflected register, which the least significant bit leaves. -/
def reflected (poly : BitVec w) : ShiftRegister w where
  shift x := x >>> 1
  out x := x.getLsbD 0
  poly := poly
  shift_xor x y := BitVec.ushiftRight_xor_distrib x y 1
  out_xor _ _ := BitVec.getLsbD_xor

/-- The register which the most significant bit leaves. -/
def direct (poly : BitVec w) : ShiftRegister w where
  shift x := x <<< 1
  out x := x.msb
  poly := poly
  shift_xor x y := BitVec.shiftLeft_xor_distrib x y 1
  out_xor _ _ := BitVec.msb_xor

variable (reg : ShiftRegister w)

/-- What is combined with the shifted register. -/
def feedback (b : Bool) : BitVec w :=
  if b then reg.poly else 0#w

/-- The register after one bit of the message. -/
def step (x : BitVec w) (b : Bool) : BitVec w :=
  reg.shift x ^^^ reg.feedback (reg.out x ^^ b)

/-- The register after the bits of a message. -/
def feed (x : BitVec w) (bits : List Bool) : BitVec w :=
  bits.foldl reg.step x

/-- The bits that leave the register in `n` shifts without feedback. -/
def outBits (n : ℕ) (x : BitVec w) : List Bool :=
  (List.range n).map fun i => reg.out (reg.shift^[i] x)

/-- The bits of a word, the least significant one first. -/
def lsbFirst {n : ℕ} (x : BitVec n) : List Bool :=
  (List.range n).map x.getLsbD

/-- The bits of a word, the most significant one first. -/
def msbFirst {n : ℕ} (x : BitVec n) : List Bool :=
  (List.range n).map x.getMsbD

/-! ### Linearity -/

@[simp] theorem feed_nil (x : BitVec w) : reg.feed x [] = x := rfl

@[simp] theorem feed_cons (x : BitVec w) (b : Bool) (bits : List Bool) :
    reg.feed x (b :: bits) = reg.feed (reg.step x b) bits := rfl

theorem feed_append (x : BitVec w) (xs ys : List Bool) :
    reg.feed x (xs ++ ys) = reg.feed (reg.feed x xs) ys :=
  List.foldl_append

@[simp] theorem shift_zero : reg.shift 0#w = 0#w := by
  have h := reg.shift_xor 0#w 0#w
  rwa [BitVec.xor_self, BitVec.xor_self] at h

@[simp] theorem out_zero : reg.out 0#w = false := by
  have h := reg.out_xor 0#w 0#w
  rwa [BitVec.xor_self, Bool.xor_self] at h

theorem feedback_xor (a b : Bool) :
    reg.feedback (a ^^ b) = reg.feedback a ^^^ reg.feedback b := by
  cases a <;> cases b <;> simp [feedback]

theorem step_xor (x y : BitVec w) (a b : Bool) :
    reg.step (x ^^^ y) (a ^^ b) = reg.step x a ^^^ reg.step y b := by
  have hbits : (reg.out x ^^ reg.out y ^^ (a ^^ b)) = ((reg.out x ^^ a) ^^ (reg.out y ^^ b)) := by
    cases reg.out x <;> cases reg.out y <;> cases a <;> cases b <;> rfl
  rw [step, reg.shift_xor, reg.out_xor, hbits, feedback_xor, step, step]
  ac_rfl

/-- **Linearity.** Combined messages of the same length take combined registers to combined
registers. -/
theorem feed_xor (x y : BitVec w) {xs ys : List Bool} (h : xs.length = ys.length) :
    reg.feed (x ^^^ y) (List.zipWith xor xs ys) = reg.feed x xs ^^^ reg.feed y ys := by
  induction xs generalizing x y ys with
  | nil =>
    rw [List.eq_nil_of_length_eq_zero h.symm]
    rfl
  | cons a xs ih =>
    cases ys with
    | nil => simp at h
    | cons b ys =>
      rw [List.zipWith_cons_cons, feed_cons, step_xor]
      exact ih _ _ (Nat.succ.inj h)

theorem zipWith_xor_replicate (bits : List Bool) :
    List.zipWith xor bits (List.replicate bits.length false) = bits := by
  induction bits with
  | nil => rfl
  | cons b bits ih =>
    rw [List.length_cons, List.replicate_succ, List.zipWith_cons_cons, ih, Bool.xor_false]

/-- The part `y` of the register passes by the message. -/
theorem feed_xor_left (x y : BitVec w) (bits : List Bool) :
    reg.feed (x ^^^ y) bits =
      reg.feed x bits ^^^ reg.feed y (List.replicate bits.length false) := by
  rw [← reg.feed_xor x y (List.length_replicate.symm), zipWith_xor_replicate]

@[simp] theorem feed_zeros (n : ℕ) : reg.feed 0#w (List.replicate n false) = 0#w := by
  induction n with
  | zero => rfl
  | succ n ih =>
    rw [List.replicate_succ, feed_cons]
    simpa [step, feedback] using ih

/-! ### Several bits at once -/

theorem outBits_succ (n : ℕ) (x : BitVec w) :
    reg.outBits (n + 1) x = reg.out x :: reg.outBits n (reg.shift x) := by
  simp [outBits, List.range_succ_eq_map, Function.comp_def]

@[simp] theorem length_outBits (n : ℕ) (x : BitVec w) : (reg.outBits n x).length = n := by
  simp [outBits]

/-- **Several bits at once.** The bits that leave the register are combined with the message, and
what remains in the register is shifted. -/
theorem feed_eq (x : BitVec w) (bits : List Bool) :
    reg.feed x bits = reg.shift^[bits.length] x ^^^
      reg.feed 0#w (List.zipWith xor (reg.outBits bits.length x) bits) := by
  induction bits generalizing x with
  | nil => simp [outBits]
  | cons b bits ih =>
    have hlen : (List.zipWith xor (reg.outBits bits.length (reg.shift x)) bits).length =
        bits.length := by simp
    have hstep : reg.step 0#w (reg.out x ^^ b) = 0#w ^^^ reg.feedback (reg.out x ^^ b) := by
      simp [step]
    rw [feed_cons, step, feed_xor_left, ih, List.length_cons, outBits_succ,
      List.zipWith_cons_cons, feed_cons, hstep, feed_xor_left reg 0#w, hlen, BitVec.xor_assoc]
    rfl

theorem zipWith_xor_lsbFirst {n : ℕ} (x y : BitVec n) :
    List.zipWith xor (lsbFirst x) (lsbFirst y) = lsbFirst (x ^^^ y) := by
  simp [lsbFirst, List.zipWith_map, List.zipWith_self]

theorem zipWith_xor_msbFirst {n : ℕ} (x y : BitVec n) :
    List.zipWith xor (msbFirst x) (msbFirst y) = msbFirst (x ^^^ y) := by
  simp [msbFirst, List.zipWith_map, List.zipWith_self]

@[simp] theorem length_lsbFirst {n : ℕ} (x : BitVec n) : (lsbFirst x).length = n := by
  simp [lsbFirst]

@[simp] theorem length_msbFirst {n : ℕ} (x : BitVec n) : (msbFirst x).length = n := by
  simp [msbFirst]

theorem iterate_shift_reflected (poly : BitVec w) (n : ℕ) (x : BitVec w) :
    (reflected poly).shift^[n] x = x >>> n := by
  induction n generalizing x with
  | zero => simp
  | succ n ih =>
    rw [Function.iterate_succ_apply, ih]
    exact (Nat.add_comm n 1 ▸ BitVec.shiftRight_add x 1 n).symm

theorem iterate_shift_direct (poly : BitVec w) (n : ℕ) (x : BitVec w) :
    (direct poly).shift^[n] x = x <<< n := by
  induction n generalizing x with
  | zero => simp
  | succ n ih =>
    rw [Function.iterate_succ_apply, ih]
    exact (Nat.add_comm n 1 ▸ BitVec.shiftLeft_add x 1 n).symm

theorem outBits_reflected (poly : BitVec w) (n : ℕ) (x : BitVec w) :
    (reflected poly).outBits n x = (List.range n).map x.getLsbD := by
  simp only [outBits, iterate_shift_reflected]
  simp [reflected]

theorem outBits_direct (poly : BitVec w) (n : ℕ) (x : BitVec w) :
    (direct poly).outBits n x = (List.range n).map x.getMsbD := by
  simp only [outBits, iterate_shift_direct]
  simp [direct, BitVec.msb_shiftLeft]

/-! ### Bursts of errors -/

/-- The bits that are set are among `n` consecutive ones. -/
def IsBurst (n : ℕ) (bits : List Bool) : Prop :=
  ∃ start, ∀ i, bits.getD i false = true → start ≤ i ∧ i < start + n

/-- The bits to look at are those of the message. -/
theorem isBurst_of_forall_lt {n : ℕ} {bits : List Bool} (start : ℕ)
    (h : ∀ i < bits.length, bits.getD i false = true → start ≤ i ∧ i < start + n) :
    IsBurst n bits := by
  refine ⟨start, fun i htrue => h i ?_ htrue⟩
  by_contra hi
  rw [List.getD_eq_getElem?_getD, List.getElem?_eq_none (by omega)] at htrue
  simp at htrue

/-- A reflected register that is empty after at most `w` bits held these bits: the highest bit of
the polynomial stays in the register as long. -/
theorem getLsbD_of_feed_eq_zero {poly : BitVec w} (hpoly : poly.msb = true) {x : BitVec w}
    {bits : List Bool} (hlen : bits.length ≤ w) (h : (reflected poly).feed x bits = 0#w)
    (i : ℕ) : x.getLsbD i = bits.getD i false := by
  induction bits generalizing x i with
  | nil =>
    rw [feed_nil] at h
    simp [h]
  | cons b bits ih =>
    rw [List.length_cons] at hlen
    have hbits := ih (by omega) h
    have hfeedback : ((reflected poly).out x ^^ b) = false := by
      by_contra hb
      rw [Bool.not_eq_false] at hb
      have hstep : (reflected poly).step x b = x >>> 1 ^^^ poly := by
        rw [step, hb]
        rfl
      have htop := hbits (w - 1)
      rw [List.getD_eq_getElem?_getD, List.getElem?_eq_none (by omega), hstep,
        BitVec.getLsbD_xor, ← BitVec.msb_eq_getLsbD_last poly, hpoly, BitVec.getLsbD_ushiftRight,
        BitVec.getLsbD_of_ge x (1 + (w - 1)) (by omega)] at htop
      simp at htop
    have hstep : (reflected poly).step x b = x >>> 1 := by
      rw [step, hfeedback]
      simp [feedback, reflected]
    cases i with
    | zero => exact bne_eq_false_iff_eq.mp hfeedback
    | succ i =>
      rw [List.getD_cons_succ, ← hbits i, hstep, BitVec.getLsbD_ushiftRight, Nat.add_comm]

/-- Bits after an error do not remove it from the register. -/
theorem eq_zero_of_feed_replicate {poly : BitVec w} (hpoly : poly.msb = true) {x : BitVec w}
    {n : ℕ} (h : (reflected poly).feed x (List.replicate n false) = 0#w) : x = 0#w := by
  have hw : 1 ≤ w := by
    by_contra hw
    obtain rfl : w = 0 := by omega
    simp [BitVec.msb, BitVec.getMsbD] at hpoly
  induction n generalizing x with
  | zero => exact h
  | succ n ih =>
    have hlen : [false].length ≤ w := hw
    refine BitVec.eq_of_getLsbD_eq fun i hi => ?_
    rw [getLsbD_of_feed_eq_zero hpoly hlen (ih h)]
    cases i <;> simp

/-- The bits before and after a burst are zeros. -/
theorem IsBurst.exists_eq_append {n : ℕ} {bits : List Bool} (h : IsBurst n bits) :
    ∃ burst a b, burst.length ≤ n ∧
      bits = List.replicate a false ++ burst ++ List.replicate b false := by
  obtain ⟨start, hset⟩ := h
  have hget {i : ℕ} (hi : i < bits.length) (htrue : bits[i] ≠ false) :
      start ≤ i ∧ i < start + n := by
    refine hset i ?_
    rw [List.getD_eq_getElem?_getD, List.getElem?_eq_getElem hi]
    exact (Bool.not_eq_false _).mp htrue
  have hbefore : bits.take start = List.replicate (bits.take start).length false := by
    refine List.eq_replicate_iff.mpr ⟨rfl, fun b hb => ?_⟩
    obtain ⟨i, hi, rfl⟩ := List.getElem_of_mem hb
    rw [List.getElem_take]
    rw [List.length_take] at hi
    by_contra htrue
    have := hget (by omega) htrue
    omega
  have hafter : bits.drop (start + n) = List.replicate (bits.drop (start + n)).length false := by
    refine List.eq_replicate_iff.mpr ⟨rfl, fun b hb => ?_⟩
    obtain ⟨i, hi, rfl⟩ := List.getElem_of_mem hb
    rw [List.getElem_drop]
    rw [List.length_drop] at hi
    by_contra htrue
    have := hget (by omega) htrue
    omega
  refine ⟨(bits.drop start).take n, (bits.take start).length, (bits.drop (start + n)).length,
    List.length_take_le _ _, ?_⟩
  rw [← hbefore, ← hafter, List.append_assoc, ← List.drop_drop, List.take_append_drop,
    List.take_append_drop]

/-- **Bursts are seen.** An error in at most `w` consecutive bits of a message leaves a reflected
register that is not empty. -/
theorem feed_burst_ne_zero {poly : BitVec w} (hpoly : poly.msb = true) {bits : List Bool}
    (hburst : IsBurst w bits) (herror : true ∈ bits) :
    (reflected poly).feed 0#w bits ≠ 0#w := by
  obtain ⟨burst, a, b, hlen, rfl⟩ := hburst.exists_eq_append
  intro h
  rw [feed_append, feed_append, feed_zeros] at h
  have hzero := getLsbD_of_feed_eq_zero hpoly hlen (eq_zero_of_feed_replicate hpoly h)
  have hmem : true ∈ burst := by simpa using herror
  obtain ⟨i, hi, htrue⟩ := List.getElem_of_mem hmem
  have hbit := hzero i
  rw [List.getD_eq_getElem?_getD, List.getElem?_eq_getElem hi, htrue] at hbit
  simp at hbit

end ShiftRegister
