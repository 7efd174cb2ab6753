import Mathlib.Data.List.Basic

/-!
# Majority voters

`core/utils/majority_voter.h`: the last five values of a bit are kept in the low bits of a byte, the
last one lowest, and the majority is looked up in a table of 32 bits.

## Main definitions

* `TellerOBC.MajorityVoter`, with `reset`, `feed`, `get`, `feedAndCheck`.
* `TellerOBC.lastFive`, `TellerOBC.majority`: the vote on a sequence of bits.

## Main results

* `TellerOBC.MajorityVoter.Holds.feed`, `TellerOBC.MajorityVoter.Holds.get_eq`: a voter holds the
  last bits that it was fed, and gives the vote on them.
-/

namespace TellerOBC

/-! ### Votes -/

/-- The last five bits of a sequence that starts with its last bit. Missing bits are low. -/
def lastFive (bits : List Bool) : List Bool := (bits ++ List.replicate 5 false).take 5

/-- The vote on the last five bits. -/
def majority (bits : List Bool) : Bool := 3 ≤ (lastFive bits).count true

theorem length_lastFive (bits : List Bool) : (lastFive bits).length = 5 := by
  rw [lastFive, List.length_take, List.length_append, List.length_replicate]
  omega

theorem lastFive_cons (bit : Bool) (bits : List Bool) :
    lastFive (bit :: bits) = bit :: (lastFive bits).take 4 := by
  rw [lastFive, List.cons_append, List.take_succ_cons, lastFive, List.take_take]
  rfl

/-! ### Voters -/

/-- A majority voter. -/
structure MajorityVoter where
  history : UInt8
  deriving DecidableEq, Repr

namespace MajorityVoter

/-- `MASK`. -/
def mask : UInt8 := ((1 : UInt8) <<< 5) - 1

/-- `MAJORITY_TABLE`. -/
def majorityTable : UInt32 := 4276676736

/-- `reset`. -/
def reset (value : Bool) : MajorityVoter := ⟨if value then mask else 0⟩

/-- `get`. -/
def get (v : MajorityVoter) : Bool := majorityTable &&& (1 <<< v.history.toUInt32) ≠ 0

/-- `feed`. -/
def feed (v : MajorityVoter) (bit : Bool) : MajorityVoter :=
  ⟨((v.history <<< 1) ||| (if bit then 1 else 0)) &&& mask⟩

/-- `feedAndCheck`: whether the vote changes, and the new state. -/
def feedAndCheck (v : MajorityVoter) (bit : Bool) : Bool × MajorityVoter :=
  (v.get != (v.feed bit).get, v.feed bit)

/-! ### The bits of a voter -/

/-- Bits as a number, the first one lowest. -/
def encodeBits : List Bool → UInt8
  | [] => 0
  | bit :: bits => (if bit then 1 else 0) + 2 * encodeBits bits

/-- The voter holds the last five bits of a sequence. -/
def Holds (v : MajorityVoter) (bits : List Bool) : Prop := v = ⟨encodeBits (lastFive bits)⟩

theorem holds_reset : (reset false).Holds [] := rfl

/-- The next history, for each of the 32 histories. -/
theorem feed_encodeBits : ∀ {bits : List Bool}, bits.length = 5 → ∀ bit,
    feed ⟨encodeBits bits⟩ bit = ⟨encodeBits (bit :: bits.take 4)⟩
  | [a, b, c, d, e], _, bit => by
    revert a b c d e bit
    decide

/-- The table has the majority of each of the 32 histories. -/
theorem get_encodeBits : ∀ {bits : List Bool}, bits.length = 5 →
    get ⟨encodeBits bits⟩ = decide (3 ≤ bits.count true)
  | [a, b, c, d, e], _ => by
    revert a b c d e
    decide

variable {v : MajorityVoter} {bits : List Bool}

/-- A voter is fed another bit. -/
theorem Holds.feed (h : v.Holds bits) (bit : Bool) : (v.feed bit).Holds (bit :: bits) := by
  rw [Holds] at h
  rw [h, Holds, feed_encodeBits (length_lastFive bits), lastFive_cons]

/-- **The voter has the majority.** -/
theorem Holds.get_eq (h : v.Holds bits) : v.get = majority bits := by
  rw [Holds] at h
  rw [h, get_encodeBits (length_lastFive bits), majority]

/-- A change of the vote is noticed. -/
theorem Holds.feedAndCheck_eq (h : v.Holds bits) (bit : Bool) :
    v.feedAndCheck bit = (majority bits != majority (bit :: bits), v.feed bit) := by
  rw [feedAndCheck, h.get_eq, (h.feed bit).get_eq]

end MajorityVoter

end TellerOBC
