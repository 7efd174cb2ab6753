import TellerOBC.Core.HistogramBounds
import TellerOBC.Scm.Update

/-!
# The SCM module stays in its buffers

The numbers that `modules/scm.cpp` receives can be runs and counts of any size, in any order. Here
its static arrays are arrays: a write outside of the histogram, of the packed histogram or of the
data of a frame is a fault, and so is a fragment that is not a part of the bytes between the start
and the end of the packed histogram.

There is no fault, from the zeroed static variables on and whatever is called and received, since
the index into the histogram is at most the number of bins and the end of the packed histogram is
in its buffer (`TellerOBC.Scm.Checked.Memory.InBounds`). So the module does what it does in the
model without faults.

## Main definitions

* `TellerOBC.Scm.Checked.Memory`, `TellerOBC.Scm.Checked.Module`: the static variables.
* `TellerOBC.Scm.Checked.handleNumber`, `TellerOBC.Scm.Checked.update`: the module with faults.
* `TellerOBC.Scm.Checked.run`: any calls of the functions of the module.

## Main results

* `TellerOBC.Scm.Checked.run_inBounds`: what holds after any calls.
-/

namespace TellerOBC.Scm

/-- The functions of the module that other modules call. -/
inductive Call where
  | init
  | destroy
  | setup (isConnected : Bool)
  | update (input : Input)
  deriving DecidableEq, Repr

/-- `destroy`. -/
def destroy (s : State) : State := { s with status := .critical, varuintDecoder := .reset }

/-- A call: what it puts out, and the state after it. -/
def call (s : State) : Call → List Output × State
  | .init => ([], init s)
  | .destroy => ([], destroy s)
  | .setup isConnected => ([], (setup s isConnected).2)
  | .update input => ((update s input).outputs, (update s input).state)

/-- Calls: what they put out, and the state after them. -/
def calls (s : State) : List Call → List Output × State
  | [] => ([], s)
  | c :: cs =>
    let r := call s c
    let rest := calls r.2 cs
    (r.1 ++ rest.1, rest.2)

/-! ### The invariant -/

/-- The index into the histogram is at most the number of bins, and the end of the packed histogram
is in its buffer. -/
structure InBounds (m : Measurement) : Prop where
  histogramIndex_le : m.histogramIndex ≤ histogramSize
  packedHistogramEnd_le : ∀ last, m.packedHistogramEnd = some last → last ≤ histogramSize * 2

section

variable {m : Measurement}

theorem inBounds_start (h : InBounds m) (index : UInt8) :
    InBounds (startHistogramForScintillator m index) :=
  ⟨Nat.zero_le _, h.packedHistogramEnd_le⟩

theorem InBounds.storeBin (h : InBounds m) (value : UInt16) : InBounds (storeBin m value) := by
  rw [Scm.storeBin]
  split_ifs with hlt
  · exact ⟨hlt, h.packedHistogramEnd_le⟩
  · exact h

theorem InBounds.addZeros (h : InBounds m) (count : ℕ) :
    InBounds (addZerosToHistogram m count) := by
  induction count generalizing m with
  | zero => exact h
  | succ count ih =>
    rw [addZerosToHistogram]
    split_ifs
    · exact ih (h.storeBin 0)
    · exact h

theorem InBounds.packHistogram (h : InBounds m) : InBounds (packHistogram m).2 := by
  rw [Scm.packHistogram]
  split_ifs with hsize
  · exact ⟨h.histogramIndex_le, fun last hlast => absurd hlast (Option.some_ne_none last).symm⟩
  · refine ⟨h.histogramIndex_le, fun last hlast => ?_⟩
    rw [histogramGetPackedSize_eq] at hsize
    obtain rfl := Option.some.inj hlast
    exact Nat.not_lt.mp hsize

theorem isSome_packHistogram (h : (packHistogram m).1 = true) :
    (packHistogram m).2.packedHistogramEnd.isSome := by
  rw [Scm.packHistogram] at h ⊢
  split_ifs at h ⊢
  rfl

theorem InBounds.finishHistogram (h : InBounds m) : InBounds (finishHistogram m).2 := by
  rw [Scm.finishHistogram]
  dsimp only
  split_ifs
  · exact h.packHistogram
  · exact h.packHistogram
  · exact h

/-- **Whatever number arrives.** -/
theorem InBounds.handleNumber (h : InBounds m) (value : UInt32) (overlong : UInt8) (now : UInt32) :
    InBounds (handleNumber m value overlong now).2.2 := by
  rw [Scm.handleNumber]
  split_ifs
  · exact inBounds_start h.finishHistogram _
  · exact ⟨h.histogramIndex_le, h.packedHistogramEnd_le⟩
  · exact h.addZeros _
  · exact h.storeBin _
  · exact h

theorem InBounds.receive {s : State} (h : InBounds s.measurement) (input : Input) :
    InBounds (receive s input).2.2.measurement := by
  rw [Scm.receive]
  split
  · exact h
  · dsimp only
    split_ifs
    · exact h.handleNumber _ _ _
    · exact h

theorem InBounds.call {s : State} (h : InBounds s.measurement) (c : Call) :
    InBounds (call s c).2.measurement := by
  cases c with
  | init => exact ⟨Nat.zero_le _, h.packedHistogramEnd_le⟩
  | destroy => exact h
  | setup isConnected => exact ⟨h.histogramIndex_le, h.packedHistogramEnd_le⟩
  | update input => exact h.receive input

end

namespace Checked

open CheckedMemory

/-! ### The histogram -/

/-- The variables of a measurement, with their arrays, and the data of the frame to be sent. -/
structure Memory where
  lastMessageStartedAt : UInt32
  scintillatorIndex : UInt8
  histogram : Vector UInt16 histogramSize
  histogramIndex : UInt16
  packedHistogram : Vector UInt8 (histogramSize * 2)
  packedHistogramEnd : Option ℕ
  scmFrameData : Vector UInt8 fragmentSize

/-- The measurement in memory. -/
def Memory.measurement (m : Memory) : Measurement where
  lastMessageStartedAt := m.lastMessageStartedAt
  scintillatorIndex := m.scintillatorIndex
  histogram := m.histogram
  histogramIndex := m.histogramIndex.toNat
  packedHistogram := m.packedHistogram.toList
  packedHistogramEnd := m.packedHistogramEnd

section

variable (m : Memory)

/-- `startHistogramForScintillator`. -/
def startHistogramForScintillator (index : UInt8) : Memory :=
  { m with
    scintillatorIndex := index
    histogramIndex := 0
    histogram := Vector.replicate histogramSize 0 }

/-- Store a bin at the index, which has to be in the histogram, and increment the index. -/
def storeBin (value : UInt16) : Except Fault Memory := do
  let histogram ← writeRange m.histogram m.histogramIndex.toNat [value]
  return { m with histogram := histogram, histogramIndex := m.histogramIndex + 1 }

/-- `addNonzeroToHistogram`. -/
def addNonzeroToHistogram (value : UInt32) : Except Fault Memory :=
  if m.histogramIndex ≥ 256 then return m
  else storeBin m (if value ≥ 0xFFFF then 0xFFFF else value.toUInt16)

/-- `addZerosToHistogram`. -/
def addZerosToHistogram (m : Memory) : ℕ → Except Fault Memory
  | 0 => return m
  | count + 1 =>
    if m.histogramIndex < 256 then do
      let m ← storeBin m 0
      addZerosToHistogram m count
    else return m

/-- `packHistogram`. -/
def packHistogram : Except Fault (Bool × Memory) :=
  if histogramGetPackedSize m.histogram.toList > histogramSize * 2 then
    return (false, { m with packedHistogramEnd := none })
  else do
    let packed ← histogramPackAt m.packedHistogram 0 m.histogram.toList
    return (true, { m with packedHistogram := packed.1, packedHistogramEnd := some packed.2 })

/-! ### Fragments -/

/-- The bytes from a place in the packed histogram on. They have to be before its end. -/
def readFragment (ptr length : ℕ) : Except Fault (List UInt8) :=
  match m.packedHistogramEnd with
  | none => throw .read
  | some last => readRange (m.packedHistogram.toList.take last) ptr length

/-- The length of the fragment at a place in the packed histogram. The difference of the pointers is
not signed. -/
def fragmentLength (ptr : ℕ) : ℕ :=
  if packedLength m.measurement < ptr then fragmentSize
  else min (packedLength m.measurement - ptr) fragmentSize

/-- `logSCMMeasurement`. -/
def logSCMMeasurement : Except Fault (List Output) :=
  (List.range (numFragments m.measurement)).mapM fun i => do
    let _ ← readFragment m 0 (fragmentLength m 0)
    return .log {
      timeMS := m.lastMessageStartedAt
      i := m.scintillatorIndex
      maxFrag := UInt8.ofNat (numFragments m.measurement - 1)
      frag := UInt8.ofNat i
      length := UInt8.ofNat (fragmentLength m 0)
      histogram := m.packedHistogram.toList }

/-- The loop of `sendSCMMeasurement` from the fragment with index `i` on, with the pointer. -/
def sendFragments (scmFrame : ScmData) (m : Memory) :
    ℕ → ℕ → ℕ → Except Fault (List Output × Memory)
  | 0, _, _ => return ([], m)
  | n + 1, i, ptr => do
    let length := fragmentLength m ptr
    let fragment ← readFragment m ptr length
    let data ← writeRange m.scmFrameData 0 fragment
    let rest ← sendFragments scmFrame { m with scmFrameData := data } n (i + 1) (ptr + length)
    return (.send (encodeSCMFrame
      { scmFrame with fragmentIndex := UInt8.ofNat i, data := data.toList.take length }) :: rest.1,
        rest.2)

/-- `sendSCMMeasurement`. -/
def sendSCMMeasurement : Except Fault (List Output × Memory) :=
  if numFragments m.measurement = 0 then return ([], m)
  else
    let scmFrame : ScmData := {
      timestampInMsec := m.lastMessageStartedAt
      maxFragmentIndex := UInt8.ofNat (numFragments m.measurement - 1)
      fragmentIndex := 0
      scintillatorIndex := m.scintillatorIndex
      data := [] }
    sendFragments scmFrame m (numFragments m.measurement) 0 0

/-! ### Calls -/

/-- What `update` does with the previous histogram when a marker arrives. -/
def finishHistogram : Except Fault (List Output × Memory) :=
  if m.lastMessageStartedAt > 0 then do
    let packed ← packHistogram m
    if packed.1 then do
      let logged ← logSCMMeasurement packed.2
      let sent ← sendSCMMeasurement packed.2
      return (logged ++ sent.1, sent.2)
    else return ([], packed.2)
  else return ([], m)

/-- What `update` does with a number: whether it sets `updated`, what it puts out and the
measurement. -/
def handleNumber (value : UInt32) (overlong : UInt8) (now : UInt32) :
    Except Fault (Bool × List Output × Memory) :=
  if overlong = 2 ∧ value < numScintillators then do
    let finished ← finishHistogram m
    return (false, finished.1, startHistogramForScintillator finished.2 value.toUInt8)
  else if overlong = 1 ∧ value = 0 then return (true, [], { m with lastMessageStartedAt := now })
  else if overlong = 1 then do
    let m ← addZerosToHistogram m value.toNat
    return (false, [], m)
  else if overlong = 0 then do
    let m ← addNonzeroToHistogram m value
    return (false, [], m)
  else return (false, [], m)

end

/-- The static variables. -/
structure Module where
  status : SubsystemStatus
  varuintDecoder : VaruintDecoder
  memory : Memory

/-- The state in memory. -/
def Module.state (s : Module) : State where
  status := s.status
  varuintDecoder := s.varuintDecoder
  measurement := s.memory.measurement

section

variable (s : Module)

/-- `update` up to the call of `updateStatus`. -/
def receive (input : Input) : Except Fault (List Output × Module) :=
  match input.ch with
  | none => return ([], s)
  | some ch =>
    let fed := s.varuintDecoder.feed ch
    if fed.1 then do
      let handled ← handleNumber s.memory fed.2.getValue fed.2.getOverlong input.startedAt
      return (handled.2.1, { s with varuintDecoder := fed.2, memory := handled.2.2 })
    else return ([], { s with varuintDecoder := fed.2 })

/-- `update`: what it puts out, and the variables after it. -/
def update (input : Input) : Except Fault (List Output × Module) := do
  let received ← receive s input
  return (received.1, { received.2 with
    status := updateStatus received.2.memory.measurement input.now })

/-- A call: what it puts out, and the variables after it. -/
def call : Call → Except Fault (List Output × Module)
  | .init => return ([], {
      status := .critical
      varuintDecoder := .reset
      memory := startHistogramForScintillator { s.memory with lastMessageStartedAt := 0 } 0 })
  | .destroy => return ([], { s with status := .critical, varuintDecoder := .reset })
  | .setup isConnected => return ([], { s with
      status := if isConnected then .ok else .critical
      memory := { s.memory with lastMessageStartedAt := 0 } })
  | .update input => update s input

end

/-- Calls: what they put out, and the variables after them. -/
def run (s : Module) : List Call → Except Fault (List Output × Module)
  | [] => return ([], s)
  | c :: cs => do
    let r ← call s c
    let rest ← run r.2 cs
    return (r.1 ++ rest.1, rest.2)

/-- The static variables before `init`. -/
def Module.zero : Module where
  status := .critical
  varuintDecoder := .reset
  memory := {
    lastMessageStartedAt := 0
    scintillatorIndex := 0
    histogram := Vector.replicate histogramSize 0
    histogramIndex := 0
    packedHistogram := Vector.replicate (histogramSize * 2) 0
    packedHistogramEnd := none
    scmFrameData := Vector.replicate fragmentSize 0 }

/-! ### No faults -/

section

variable {m : Memory}

/-- The index is in the histogram, and the increment does not wrap. -/
theorem exists_storeBin (hlt : m.histogramIndex < 256) (value : UInt16) :
    ∃ m', storeBin m value = .ok m' ∧ m'.measurement = Scm.storeBin m.measurement value := by
  have hindex : m.histogramIndex.toNat < histogramSize := UInt16.lt_iff_toNat_lt.mp hlt
  have hsucc : (m.histogramIndex + 1).toNat = m.histogramIndex.toNat + 1 := by
    rw [UInt16.toNat_add]
    exact Nat.mod_eq_of_lt (Nat.lt_of_le_of_lt hindex (by decide))
  refine ⟨_, by rw [storeBin, writeRange_singleton _ hindex]; rfl, ?_⟩
  rw [Scm.storeBin, dif_pos (show m.measurement.histogramIndex < histogramSize from hindex)]
  simp only [Memory.measurement, hsucc]

theorem exists_addNonzeroToHistogram (m : Memory) (value : UInt32) :
    ∃ m', addNonzeroToHistogram m value = .ok m' ∧
      m'.measurement = Scm.addNonzeroToHistogram m.measurement value := by
  rw [addNonzeroToHistogram, Scm.addNonzeroToHistogram]
  by_cases hend : m.histogramIndex ≥ 256
  · have hnot : ¬ m.measurement.histogramIndex < histogramSize :=
      Nat.not_lt.mpr (UInt16.le_iff_toNat_le.mp hend)
    rw [if_pos hend]
    exact ⟨m, rfl, by rw [Scm.storeBin, dif_neg hnot]⟩
  · rw [if_neg hend]
    exact exists_storeBin (UInt16.not_le.mp hend) _

theorem exists_addZerosToHistogram (m : Memory) (count : ℕ) :
    ∃ m', addZerosToHistogram m count = .ok m' ∧
      m'.measurement = Scm.addZerosToHistogram m.measurement count := by
  induction count generalizing m with
  | zero => exact ⟨m, rfl, rfl⟩
  | succ count ih =>
    rw [addZerosToHistogram, Scm.addZerosToHistogram]
    by_cases hlt : m.histogramIndex < 256
    · have hindex : m.measurement.histogramIndex < histogramSize := UInt16.lt_iff_toNat_lt.mp hlt
      obtain ⟨m', hstore, hm'⟩ := exists_storeBin hlt 0
      rw [if_pos hlt, if_pos hindex, hstore, ← hm']
      exact ih m'
    · have hnot : ¬ m.measurement.histogramIndex < histogramSize :=
        fun h => hlt (UInt16.lt_iff_toNat_lt.mpr h)
      rw [if_neg hlt, if_neg hnot]
      exact ⟨m, rfl, rfl⟩

/-- The size function allows packing only what fits into the buffer. -/
theorem exists_packHistogram (m : Memory) :
    ∃ m', packHistogram m = .ok ((Scm.packHistogram m.measurement).1, m') ∧
      m'.measurement = (Scm.packHistogram m.measurement).2 := by
  rw [packHistogram, Scm.packHistogram]
  by_cases hsize : histogramGetPackedSize m.histogram.toList > histogramSize * 2
  · have hsize' : histogramGetPackedSize m.measurement.histogram.toList > histogramSize * 2 := hsize
    rw [if_pos hsize, if_pos hsize']
    exact ⟨_, rfl, rfl⟩
  · have hsize' : ¬ histogramGetPackedSize m.measurement.histogram.toList > histogramSize * 2 :=
      hsize
    have hfits : (histogramPack m.histogram.toList).length ≤ m.packedHistogram.toList.length := by
      rw [Vector.length_toList, ← histogramGetPackedSize_eq]
      exact Nat.not_lt.mp hsize
    obtain ⟨buf, hpack, hbuf⟩ := writesBehind_histogramPackAt (l := [])
      (m := m.packedHistogram.toList) _ rfl hfits
    rw [List.length_nil, Nat.zero_add] at hpack
    rw [if_neg hsize, if_neg hsize', hpack]
    refine ⟨_, rfl, ?_⟩
    simp only [Memory.measurement, hbuf, List.nil_append, overwrite]

/-! ### No fragment is out of bounds -/

/-- The bytes of the packed histogram. -/
def packedBytes (m : Memory) : List UInt8 :=
  m.packedHistogram.toList.take (packedLength m.measurement)

/-- There is a packed histogram, in its buffer. -/
structure IsPacked (m : Memory) : Prop where
  isSome : m.packedHistogramEnd.isSome
  packedLength_le : packedLength m.measurement ≤ histogramSize * 2

theorem isPacked_of_inBounds (h : InBounds m.measurement)
    (hsome : m.measurement.packedHistogramEnd.isSome) : IsPacked m := by
  obtain ⟨last, hlast⟩ := Option.isSome_iff_exists.mp hsome
  refine ⟨hsome, ?_⟩
  rw [packedLength, hlast]
  exact h.packedHistogramEnd_le last hlast

theorem IsPacked.length (h : IsPacked m) :
    (packedBytes m).length = packedLength m.measurement := by
  rw [packedBytes, List.length_take, Vector.length_toList, Nat.min_eq_left h.packedLength_le]

/-- A fragment between the pointer and the end. -/
theorem IsPacked.readFragment_eq (h : IsPacked m) {ptr : ℕ}
    (hptr : ptr ≤ packedLength m.measurement) :
    fragmentLength m ptr = min ((packedBytes m).drop ptr).length fragmentSize ∧
      readFragment m ptr (fragmentLength m ptr) =
        .ok (((packedBytes m).drop ptr).take (fragmentLength m ptr)) := by
  obtain ⟨last, hlast⟩ := Option.isSome_iff_exists.mp h.isSome
  have hlength : packedLength m.measurement = last := by
    rw [packedLength, Memory.measurement, hlast]
    rfl
  have hfragment : fragmentLength m ptr = min (packedLength m.measurement - ptr) fragmentSize := by
    rw [fragmentLength, if_neg (Nat.not_lt.mpr hptr)]
  refine ⟨by rw [hfragment, List.length_drop, h.length], ?_⟩
  have hbytes : m.packedHistogram.toList.take last = packedBytes m := by
    rw [packedBytes, hlength]
  rw [readFragment, hlast]
  dsimp only
  rw [hbytes]
  refine readRange_of_le ?_
  rw [h.length, hfragment]
  omega

theorem IsPacked.logSCMMeasurement_eq (h : IsPacked m) :
    logSCMMeasurement m = .ok (Scm.logSCMMeasurement m.measurement) := by
  obtain ⟨hlength, hread⟩ := h.readFragment_eq (Nat.zero_le _)
  have hfragment : fragmentLength m 0 = min (packedLength m.measurement) fragmentSize := by
    rw [hlength, List.drop_zero, h.length]
  rw [logSCMMeasurement, hread, hfragment]
  exact List.mapM_pure

/-- The loop sends the bytes from the pointer on. -/
theorem IsPacked.exists_sendFragments (h : IsPacked m) (scmFrame : ScmData) (n i : ℕ) {ptr : ℕ}
    (hptr : ptr ≤ packedLength m.measurement) :
    ∃ m', sendFragments scmFrame m n i ptr =
        .ok (Scm.sendFragments scmFrame n i ((packedBytes m).drop ptr), m') ∧
      m'.measurement = m.measurement := by
  induction n generalizing m i ptr with
  | zero => exact ⟨m, rfl, rfl⟩
  | succ n ih =>
    obtain ⟨hlength, hread⟩ := h.readFragment_eq hptr
    have hfits :
        (((packedBytes m).drop ptr).take (fragmentLength m ptr)).length ≤ fragmentSize := by
      rw [List.length_take, hlength]
      omega
    obtain ⟨data, hwrite, hdata⟩ := exists_writeRange_zero m.scmFrameData _ hfits
    have htake : data.toList.take (fragmentLength m ptr) =
        ((packedBytes m).drop ptr).take (fragmentLength m ptr) := by
      rw [hdata]
      refine List.take_left' ?_
      rw [List.length_take, hlength]
      omega
    have hpacked : IsPacked { m with scmFrameData := data } := ⟨h.isSome, h.packedLength_le⟩
    have hnext : ptr + fragmentLength m ptr ≤ packedLength m.measurement := by
      rw [hlength, List.length_drop, h.length]
      omega
    obtain ⟨m', hrest, hm'⟩ := ih hpacked (i + 1) hnext
    refine ⟨m', ?_, hm'⟩
    rw [sendFragments, hread]
    dsimp only [bind, Except.bind]
    rw [hwrite]
    dsimp only
    rw [hrest, Scm.sendFragments, ← hlength, htake, List.drop_drop]
    rfl

theorem IsPacked.exists_sendSCMMeasurement (h : IsPacked m) :
    ∃ m', sendSCMMeasurement m = .ok (Scm.sendSCMMeasurement m.measurement, m') ∧
      m'.measurement = m.measurement := by
  rw [sendSCMMeasurement, Scm.sendSCMMeasurement]
  split_ifs with hzero
  · exact ⟨m, rfl, rfl⟩
  · exact h.exists_sendFragments _ _ 0 (Nat.zero_le _)

/-! ### Calls -/

theorem exists_finishHistogram (h : InBounds m.measurement) :
    ∃ m', finishHistogram m = .ok ((Scm.finishHistogram m.measurement).1, m') ∧
      m'.measurement = (Scm.finishHistogram m.measurement).2 := by
  have hbounds := h.packHistogram
  rw [finishHistogram, Scm.finishHistogram]
  by_cases hstarted : m.lastMessageStartedAt > 0
  · have hstarted' : m.measurement.lastMessageStartedAt > 0 := hstarted
    obtain ⟨m₁, hpack, hm₁⟩ := exists_packHistogram m
    rw [if_pos hstarted, if_pos hstarted', hpack]
    dsimp only [bind, Except.bind]
    by_cases hfits : (Scm.packHistogram m.measurement).1 = true
    · have hpacked : IsPacked m₁ := by
        rw [← hm₁] at hbounds
        exact isPacked_of_inBounds hbounds (hm₁ ▸ isSome_packHistogram hfits)
      obtain ⟨m₂, hsend, hm₂⟩ := hpacked.exists_sendSCMMeasurement
      rw [if_pos hfits, if_pos hfits, hpacked.logSCMMeasurement_eq]
      dsimp only
      rw [hsend, hm₁]
      exact ⟨m₂, rfl, hm₂.trans hm₁⟩
    · rw [if_neg hfits, if_neg hfits]
      exact ⟨m₁, rfl, hm₁⟩
  · have hstarted' : ¬ m.measurement.lastMessageStartedAt > 0 := hstarted
    rw [if_neg hstarted, if_neg hstarted']
    exact ⟨m, rfl, rfl⟩

/-- Numbers are handled without a fault. -/
theorem exists_handleNumber (h : InBounds m.measurement) (value : UInt32) (overlong : UInt8)
    (now : UInt32) :
    ∃ m', handleNumber m value overlong now =
        .ok ((Scm.handleNumber m.measurement value overlong now).1,
          (Scm.handleNumber m.measurement value overlong now).2.1, m') ∧
      m'.measurement = (Scm.handleNumber m.measurement value overlong now).2.2 := by
  rw [handleNumber, Scm.handleNumber]
  split_ifs
  · obtain ⟨m', hfinish, hm'⟩ := exists_finishHistogram h
    rw [hfinish]
    exact ⟨_, rfl, congrArg (Scm.startHistogramForScintillator · value.toUInt8) hm'⟩
  · exact ⟨_, rfl, rfl⟩
  · obtain ⟨m', hadd, hm'⟩ := exists_addZerosToHistogram m value.toNat
    rw [hadd]
    exact ⟨m', rfl, hm'⟩
  · obtain ⟨m', hadd, hm'⟩ := exists_addNonzeroToHistogram m value
    rw [hadd]
    exact ⟨m', rfl, hm'⟩
  · exact ⟨m, rfl, rfl⟩

end

section

variable {s : Module}

theorem exists_receive (h : InBounds s.memory.measurement) (input : Input) :
    ∃ s', receive s input = .ok ((Scm.receive s.state input).2.1, s') ∧
      s'.state = (Scm.receive s.state input).2.2 := by
  rw [receive, Scm.receive]
  cases input.ch with
  | none => exact ⟨s, rfl, rfl⟩
  | some ch =>
    have hdecoder : s.state.varuintDecoder = s.varuintDecoder := rfl
    dsimp only
    rw [hdecoder]
    split_ifs
    · obtain ⟨m', hhandle, hm'⟩ := exists_handleNumber h
        (s.varuintDecoder.feed ch).2.getValue (s.varuintDecoder.feed ch).2.getOverlong
        input.startedAt
      rw [hhandle]
      refine ⟨_, rfl, ?_⟩
      simp only [Module.state, hm']
    · exact ⟨_, rfl, rfl⟩

/-- **One call.** -/
theorem exists_call (h : InBounds s.memory.measurement) (c : Call) :
    ∃ s', call s c = .ok ((Scm.call s.state c).1, s') ∧ s'.state = (Scm.call s.state c).2 := by
  cases c with
  | init => exact ⟨_, rfl, rfl⟩
  | destroy => exact ⟨_, rfl, rfl⟩
  | setup isConnected => exact ⟨_, rfl, rfl⟩
  | update input =>
    obtain ⟨s', hreceive, hs'⟩ := exists_receive h input
    refine ⟨_, by rw [call, update, hreceive]; rfl, ?_⟩
    rw [Scm.call, Scm.update, ← hs']
    rfl

end

/-- Calls from a state in bounds. -/
theorem exists_run {s : Module} (h : InBounds s.memory.measurement) (cs : List Call) :
    ∃ s', run s cs = .ok ((calls s.state cs).1, s') ∧ s'.state = (calls s.state cs).2 ∧
      InBounds s'.memory.measurement := by
  induction cs generalizing s with
  | nil => exact ⟨s, rfl, rfl, h⟩
  | cons c cs ih =>
    obtain ⟨s₁, hcall, hs₁⟩ := exists_call h c
    have hbounds : InBounds s₁.memory.measurement := by
      have hnext := InBounds.call (s := s.state) h c
      rwa [← hs₁] at hnext
    obtain ⟨s₂, hrest, hs₂, hbounds₂⟩ := ih hbounds
    refine ⟨s₂, ?_, ?_, hbounds₂⟩
    · rw [run, hcall]
      dsimp only [bind, Except.bind]
      rw [hrest, calls, ← hs₁]
      rfl
    · rw [calls, ← hs₁]
      exact hs₂

/-- **The module stays in its buffers.** Whatever functions of the module are called, and whatever
bytes arrive, from the zeroed static variables on: no bin is written outside of the histogram,
packing does not write outside of its buffer, and all fragments are parts of the packed histogram.
The module puts out what it does in the model without faults. Afterwards the index into the
histogram is at most 256, and the end of the packed histogram is in its buffer. -/
theorem run_inBounds (cs : List Call) :
    ∃ s, run Module.zero cs = .ok ((calls State.zero cs).1, s) ∧
      s.state = (calls State.zero cs).2 ∧ InBounds s.memory.measurement := by
  have hzero : Module.zero.state = State.zero := by
    simp only [Module.state, Module.zero, Memory.measurement, State.zero, Vector.toList_replicate]
    rfl
  have hstart : InBounds Module.zero.memory.measurement :=
    ⟨Nat.zero_le _, fun last hlast => absurd hlast (Option.some_ne_none last).symm⟩
  rw [← hzero]
  exact exists_run hstart cs

end Checked

end TellerOBC.Scm
