import TellerOBC.Foundations.Transfer
import TellerOBC.Scm.Relay

/-!
# The log records of a measurement

`logSCMMeasurement` of `modules/scm.cpp` writes a packed histogram to the log in fragments, like
`sendSCMMeasurement` sends it. Its loop does not move the pointer from one fragment to the next:
every record gets the first fragment.

The histogram field of a record starts at the pointer. It is used up to the length field.

## Main definitions

* `TellerOBC.Scm.loggedRecords`, `TellerOBC.Scm.LogRecord.fragment`.
* `TellerOBC.Scm.Logs`: the records hold some bytes in fragments.

## Main results

* `TellerOBC.Scm.logs_logSCMMeasurement_iff`: when the records hold the packed histogram.
-/

namespace TellerOBC.Scm

/-- The record that an output writes. -/
def Output.record? : Output → Option LogRecord
  | log record => some record
  | send _ => none

/-- The log records among the outputs. -/
def loggedRecords (outputs : List Output) : List LogRecord := outputs.filterMap Output.record?

/-- The histogram field cut to the length field. -/
def LogRecord.fragment (record : LogRecord) : List UInt8 :=
  record.histogram.take record.length.toNat

/-- The packed histogram. -/
def packedBytes (m : Measurement) : List UInt8 := m.packedHistogram.take (packedLength m)

/-- The records hold the bytes in fragments, each fragment index once and in order. -/
structure Logs (records : List LogRecord) (bytes : List UInt8) : Prop where
  data_eq : records.flatMap LogRecord.fragment = bytes
  maxFrag_eq : ∀ r ∈ records, r.maxFrag.toNat + 1 = records.length
  frag_eq : records.map (fun r => r.frag.toNat) = List.range records.length

/-! ### The records -/

section

variable (m : Measurement)

/-- The first fragment of the packed histogram. -/
def firstFragment : List UInt8 := m.packedHistogram.take (min (packedLength m) fragmentSize)

theorem loggedRecords_logSCMMeasurement :
    loggedRecords (logSCMMeasurement m) = (List.range (numFragments m)).map fun i => {
      timeMS := m.lastMessageStartedAt
      i := m.scintillatorIndex
      maxFrag := UInt8.ofNat (numFragments m - 1)
      frag := UInt8.ofNat i
      length := UInt8.ofNat (min (packedLength m) fragmentSize)
      histogram := m.packedHistogram } := by
  rw [loggedRecords, logSCMMeasurement, List.filterMap_map, ← List.filterMap_eq_map]
  rfl

variable {m}

/-- Every record holds the first fragment. -/
theorem flatMap_fragment_logSCMMeasurement :
    (loggedRecords (logSCMMeasurement m)).flatMap LogRecord.fragment =
      (List.replicate (numFragments m) (firstFragment m)).flatten := by
  have hlength : (UInt8.ofNat (min (packedLength m) fragmentSize)).toNat =
      min (packedLength m) fragmentSize := by
    rw [UInt8.toNat_ofNat']
    refine Nat.mod_eq_of_lt ?_
    rw [show fragmentSize = 56 from rfl]
    omega
  rw [loggedRecords_logSCMMeasurement, List.flatMap_map, List.flatMap_def]
  simp only [LogRecord.fragment, hlength]
  rw [List.map_const', List.length_range]
  rfl

theorem length_loggedRecords :
    (loggedRecords (logSCMMeasurement m)).length = numFragments m := by
  rw [loggedRecords_logSCMMeasurement, List.length_map, List.length_range]

/-- The number of fragments is that of the pieces, and small. -/
theorem numFragments_eq (hle : packedLength m ≤ 512) :
    numFragments m = (packedLength m + 55) / 56 ∧ numFragments m ≤ 10 := by
  rw [numFragments, show fragmentSize = 56 from rfl]
  split_ifs <;> omega

/-- The fragment indices are right whatever the fragments hold. -/
theorem frag_logSCMMeasurement (hle : packedLength m ≤ 512) :
    (loggedRecords (logSCMMeasurement m)).map (fun r => r.frag.toNat) =
      List.range (numFragments m) := by
  have hfew := (numFragments_eq hle).2
  rw [loggedRecords_logSCMMeasurement, List.map_map]
  conv_rhs => rw [← List.map_id (List.range (numFragments m))]
  refine List.map_congr_left fun i hi => ?_
  rw [List.mem_range] at hi
  exact (UInt8.toNat_ofNat' ..).trans (Nat.mod_eq_of_lt (by omega))

theorem maxFrag_logSCMMeasurement (hle : packedLength m ≤ 512) :
    ∀ r ∈ loggedRecords (logSCMMeasurement m), r.maxFrag.toNat + 1 = numFragments m := by
  have hfew := (numFragments_eq hle).2
  intro r hr
  rw [loggedRecords_logSCMMeasurement] at hr
  obtain ⟨i, hi, rfl⟩ := List.mem_map.mp hr
  rw [List.mem_range] at hi
  rw [UInt8.toNat_ofNat']
  omega

/-- **The log holds the histogram if its fragments are equal.** For a packed histogram in the
buffer, the fragment indices of the records are right, but the records hold the packed histogram
exactly when all its fragments are equal to the first one, as when there is just one. -/
theorem logs_logSCMMeasurement_iff (m : Measurement) (hbuffer : m.packedHistogram.length = 512)
    (hpos : 0 < packedLength m) (hle : packedLength m ≤ 512) :
    Logs (loggedRecords (logSCMMeasurement m)) (packedBytes m) ↔
      ∀ fragment ∈ Transfer.pieces 55 (packedBytes m), fragment = firstFragment m := by
  have hlength : (packedBytes m).length = packedLength m := by
    rw [packedBytes, List.length_take, hbuffer, Nat.min_eq_left hle]
  have hfirst : (firstFragment m).length = min (packedLength m) 56 := by
    rw [firstFragment, List.length_take, hbuffer, show fragmentSize = 56 from rfl]
    omega
  have hcount : (Transfer.pieces 55 (packedBytes m)).length = numFragments m := by
    rw [Transfer.length_pieces, hlength, (numFragments_eq hle).1]
  constructor
  · intro hlogs
    have hdata := hlogs.data_eq
    rw [flatMap_fragment_logSCMMeasurement] at hdata
    suffices hpieces : Transfer.pieces 55 (packedBytes m) =
        List.replicate (numFragments m) (firstFragment m) by
      intro fragment hfragment
      rw [hpieces] at hfragment
      exact List.eq_of_mem_replicate hfragment
    rcases Nat.lt_or_ge 56 (packedLength m) with hlong | hshort
    · rw [← hdata]
      exact Transfer.pieces_flatten_replicate (by omega) _
    · have hone : numFragments m = 1 := by
        have hnum := (numFragments_eq hle).1
        omega
      rw [hone, List.replicate_one, List.flatten_singleton] at hdata
      rw [hone, List.replicate_one, ← hdata]
      exact Transfer.pieces_of_length_le (List.ne_nil_of_length_pos (by omega)) (by omega)
  · intro hall
    refine ⟨?_, ?_, ?_⟩
    · rw [flatMap_fragment_logSCMMeasurement, ← hcount, ← List.eq_replicate_of_mem hall,
        Transfer.flatten_pieces]
    · rw [length_loggedRecords]
      exact maxFrag_logSCMMeasurement hle
    · rw [length_loggedRecords]
      exact frag_logSCMMeasurement hle

/-- The measurement of a histogram whose first bins count up to a number. -/
def ramp (n : ℕ) : Measurement :=
  (packHistogram { State.zero.measurement with
    histogram := Vector.ofFn fun i => if i.val < n then UInt16.ofNat (i.val + 1) else 0 }).2

/-- A ramp of four bins fits into a fragment. -/
theorem logs_ramp_four : packedBytes (ramp 4) = [1, 2, 3, 4, 96, 129, 252] ∧
    Logs (loggedRecords (logSCMMeasurement (ramp 4))) (packedBytes (ramp 4)) := by
  obtain ⟨hbytes, hbuffer, hpos, hle, hfragments⟩ :
      packedBytes (ramp 4) = [1, 2, 3, 4, 96, 129, 252] ∧
        (ramp 4).packedHistogram.length = 512 ∧ 0 < packedLength (ramp 4) ∧
        packedLength (ramp 4) ≤ 512 ∧
        ∀ fragment ∈ Transfer.pieces 55 (packedBytes (ramp 4)),
          fragment = firstFragment (ramp 4) := by
    decide +kernel
  exact ⟨hbytes, (logs_logSCMMeasurement_iff (ramp 4) hbuffer hpos hle).mpr hfragments⟩

/-- A ramp of 60 bins does not, and its second fragment is not logged. -/
theorem not_logs_ramp_sixty :
    (0 < packedLength (ramp 60) ∧ packedLength (ramp 60) ≤ 512) ∧
      ¬ Logs (loggedRecords (logSCMMeasurement (ramp 60))) (packedBytes (ramp 60)) :=
  ⟨by decide +kernel, fun hlogs => absurd hlogs.data_eq (by decide +kernel)⟩

end

end TellerOBC.Scm
