import TellerOBC.Core.Histogram
import TellerOBC.Core.Telem.ScmFrames

/-!
# The SCM module

`modules/scm.cpp`: numbers arrive from the SCM in variable-length form, and their overlong counts
tell what they are. The compact form is a count of the histogram, the first overlong form a run of
empty bins or, if it is zero, the start of a packet, and the second overlong form the marker of a
scintillator. A histogram is logged and sent when the next marker arrives.

An update reads at most one byte. The byte and the readings of the clock are inputs, and the log
records and the telemetry messages are outputs.

## Main definitions

* `TellerOBC.Scm.Measurement`, `TellerOBC.Scm.State`: the static variables of the module.
* `TellerOBC.Scm.startHistogramForScintillator`, `addNonzeroToHistogram`, `addZerosToHistogram`,
  `packHistogram`, `logSCMMeasurement`, `sendSCMMeasurement`.
* `TellerOBC.Scm.update`, `TellerOBC.Scm.run`: one update, and a sequence of them.
-/

namespace TellerOBC.Scm

/-- `NUM_SCINTILLATORS`. -/
def numScintillators : UInt32 := 3

/-- `HISTOGRAM_SIZE`. -/
abbrev histogramSize : ℕ := 256

/-- `FRAGMENT_SIZE`. -/
def fragmentSize : ℕ := maxScmFrameFragmentLength

/-! ### States and effects -/

/-- The current measurement. The packed histogram is at the start of its buffer, up to its end if
there is one; otherwise `packedHistogramEnd` is the null pointer. -/
structure Measurement where
  lastMessageStartedAt : UInt32
  scintillatorIndex : UInt8
  histogram : Vector UInt16 histogramSize
  histogramIndex : ℕ
  packedHistogram : List UInt8
  packedHistogramEnd : Option ℕ
  deriving DecidableEq

/-- The static variables. -/
structure State where
  status : SubsystemStatus
  varuintDecoder : VaruintDecoder
  measurement : Measurement
  deriving DecidableEq

/-- The arguments of `logRecord.write`. The histogram is passed as a pointer; here it is what it
points to. -/
structure LogRecord where
  timeMS : UInt32
  i : UInt8
  maxFrag : UInt8
  frag : UInt8
  length : UInt8
  histogram : List UInt8
  deriving DecidableEq, Repr

/-- What the module does to others: it writes a log record or hands the payload of a message to
`send`. -/
inductive Output where
  | log (record : LogRecord)
  | send (payload : List UInt8)
  deriving DecidableEq, Repr

/-- The payload of a message. -/
def Output.payload? : Output → Option (List UInt8)
  | log _ => none
  | send payload => some payload

/-! ### The histogram -/

section

variable (m : Measurement)

/-- `startHistogramForScintillator`. -/
def startHistogramForScintillator (index : UInt8) : Measurement :=
  { m with
    scintillatorIndex := index
    histogramIndex := 0
    histogram := Vector.replicate histogramSize 0 }

/-- Store a bin and go to the next one, unless the end of the histogram is reached. -/
def storeBin (value : UInt16) : Measurement :=
  if h : m.histogramIndex < histogramSize then
    { m with
      histogram := m.histogram.set m.histogramIndex value h
      histogramIndex := m.histogramIndex + 1 }
  else m

/-- `addNonzeroToHistogram`. -/
def addNonzeroToHistogram (value : UInt32) : Measurement :=
  storeBin m (if value ≥ 0xFFFF then 0xFFFF else value.toUInt16)

/-- `addZerosToHistogram`. -/
def addZerosToHistogram (m : Measurement) : ℕ → Measurement
  | 0 => m
  | count + 1 =>
    if m.histogramIndex < histogramSize then addZerosToHistogram (storeBin m 0) count else m

/-- `packHistogram`. -/
def packHistogram : Bool × Measurement :=
  if histogramGetPackedSize m.histogram.toList > histogramSize * 2 then
    (false, { m with packedHistogramEnd := none })
  else
    let packed := histogramPack m.histogram.toList
    (true, { m with
      packedHistogram := overwrite m.packedHistogram packed
      packedHistogramEnd := some packed.length })

/-! ### Fragments -/

/-- `packedHistogramEnd - packedHistogram`. -/
def packedLength : ℕ := m.packedHistogramEnd.getD 0

/-- The number of fragments, as `logSCMMeasurement` and `sendSCMMeasurement` compute it. -/
def numFragments : ℕ :=
  packedLength m / fragmentSize + if packedLength m % fragmentSize > 0 then 1 else 0

/-- `logSCMMeasurement`. -/
def logSCMMeasurement : List Output :=
  -- the pointer stays at the start of the packed histogram
  (List.range (numFragments m)).map fun i => .log {
    timeMS := m.lastMessageStartedAt
    i := m.scintillatorIndex
    maxFrag := UInt8.ofNat (numFragments m - 1)
    frag := UInt8.ofNat i
    length := UInt8.ofNat (min (packedLength m) fragmentSize)
    histogram := m.packedHistogram }

/-- The loop of `sendSCMMeasurement` from the fragment with index `i` on, with the bytes from the
pointer to the end. -/
def sendFragments (scmFrame : ScmData) : ℕ → ℕ → List UInt8 → List Output
  | 0, _, _ => []
  | n + 1, i, bytes =>
    let length := min bytes.length fragmentSize
    .send (encodeSCMFrame
        { scmFrame with fragmentIndex := UInt8.ofNat i, data := bytes.take length }) ::
      sendFragments scmFrame n (i + 1) (bytes.drop length)

/-- `sendSCMMeasurement`. -/
def sendSCMMeasurement : List Output :=
  if numFragments m = 0 then []
  else
    let scmFrame : ScmData := {
      timestampInMsec := m.lastMessageStartedAt
      maxFragmentIndex := UInt8.ofNat (numFragments m - 1)
      fragmentIndex := 0
      scintillatorIndex := m.scintillatorIndex
      data := [] }
    sendFragments scmFrame (numFragments m) 0 (m.packedHistogram.take (packedLength m))

/-! ### Updates -/

/-- What `update` does with the previous histogram when a marker arrives. -/
def finishHistogram : List Output × Measurement :=
  if m.lastMessageStartedAt > 0 then
    let packed := packHistogram m
    if packed.1 then (logSCMMeasurement packed.2 ++ sendSCMMeasurement packed.2, packed.2)
    else ([], packed.2)
  else ([], m)

/-- What `update` does with a number, where `now` is the reading of the clock: whether it sets
`updated`, what it puts out and the measurement. -/
def handleNumber (value : UInt32) (overlong : UInt8) (now : UInt32) :
    Bool × List Output × Measurement :=
  if overlong = 2 ∧ value < numScintillators then
    let finished := finishHistogram m
    (false, finished.1, startHistogramForScintillator finished.2 value.toUInt8)
  else if overlong = 1 ∧ value = 0 then (true, [], { m with lastMessageStartedAt := now })
  else if overlong = 1 then (false, [], addZerosToHistogram m value.toNat)
  else if overlong = 0 then (false, [], addNonzeroToHistogram m value)
  else (false, [], m)

/-- `updateStatus`: the status that it sets. -/
def updateStatus (now : UInt32) : SubsystemStatus :=
  if m.lastMessageStartedAt = 0 then .error
  else if now - m.lastMessageStartedAt < 300 then .ok
  else if now - m.lastMessageStartedAt < 3000 then .warning
  else .error

end

/-- The inputs of an update: the byte that `uart::read` gets, if it succeeds, and the readings of
the clock at the start of a packet and in `updateStatus`. -/
structure Input where
  ch : Option UInt8
  startedAt : UInt32
  now : UInt32
  deriving DecidableEq, Repr

/-- What an update returns, puts out and leaves behind. -/
structure UpdateResult where
  healthy : Bool
  updated : Bool
  outputs : List Output
  state : State

section

variable (s : State)

/-- `update` up to the call of `updateStatus`. -/
def receive (input : Input) : Bool × List Output × State :=
  match input.ch with
  | none => (false, [], s)
  | some ch =>
    let fed := s.varuintDecoder.feed ch
    if fed.1 then
      let handled := handleNumber s.measurement fed.2.getValue fed.2.getOverlong input.startedAt
      (handled.1, handled.2.1, { s with varuintDecoder := fed.2, measurement := handled.2.2 })
    else (false, [], { s with varuintDecoder := fed.2 })

/-- `update`. -/
def update (input : Input) : UpdateResult :=
  let received := receive s input
  let status := updateStatus received.2.2.measurement input.now
  { healthy := status ≠ .error
    updated := received.1
    outputs := received.2.1
    state := { received.2.2 with status := status } }

/-- `setup`. -/
def setup (isConnected : Bool) : Bool × State :=
  let status := if isConnected then SubsystemStatus.ok else .critical
  (status = .ok,
    { s with status := status, measurement := { s.measurement with lastMessageStartedAt := 0 } })

/-- `init`. -/
def init : State where
  status := .critical
  varuintDecoder := .reset
  measurement := startHistogramForScintillator { s.measurement with lastMessageStartedAt := 0 } 0

end

/-- The static variables before `init`. -/
def State.zero : State where
  status := .critical
  varuintDecoder := .reset
  measurement := {
    lastMessageStartedAt := 0
    scintillatorIndex := 0
    histogram := Vector.replicate histogramSize 0
    histogramIndex := 0
    packedHistogram := List.replicate (histogramSize * 2) 0
    packedHistogramEnd := none }

/-! ### Sequences of updates -/

/-- A sequence of updates: what they put out, and the state after them. -/
def run (s : State) : List Input → List Output × State
  | [] => ([], s)
  | input :: inputs =>
    let r := update s input
    let rest := run r.state inputs
    (r.outputs ++ rest.1, rest.2)

/-- The bytes that the updates read. -/
def receivedBytes (inputs : List Input) : List UInt8 := inputs.filterMap Input.ch

theorem run_append (s : State) (xs ys : List Input) :
    run s (xs ++ ys) = ((run s xs).1 ++ (run (run s xs).2 ys).1, (run (run s xs).2 ys).2) := by
  induction xs generalizing s with
  | nil => rfl
  | cons x xs ih => rw [List.cons_append, run, ih, run, List.append_assoc]

end TellerOBC.Scm
