import TellerOBC.Core.Telem.CommandFrames

/-!
# SCM frames

The wire encoding of the frames with fragments of packed histograms: `core/telem/scm.cpp`.

## Main definitions

* `TellerOBC.ScmData`, `TellerOBC.encodeSCMFrame`, `TellerOBC.decodeSCMFrame`,
  `TellerOBC.validateEncodedSCMFrame`.

## Main results

* `TellerOBC.decode_encodeSCMFrame`: a frame is decoded to what was encoded.
-/

namespace TellerOBC

/-- `MAX_SCM_FRAME_FRAGMENT_LENGTH`. -/
def maxScmFrameFragmentLength : ℕ := maxPayloadLength - 7

/-- The data of an SCM frame: `scm_data_t`, with the bytes of `data` up to `length`. -/
structure ScmData where
  timestampInMsec : UInt32
  maxFragmentIndex : UInt8
  fragmentIndex : UInt8
  scintillatorIndex : UInt8
  data : List UInt8
  deriving DecidableEq, Repr

/-- `encodeSCMFrame`: the bytes of the encoded frame. -/
def encodeSCMFrame (data : ScmData) : List UInt8 :=
  uint32Bytes data.timestampInMsec ++
    ([data.maxFragmentIndex, data.fragmentIndex, data.scintillatorIndex] ++ data.data)

/-- `validateEncodedSCMFrame`. -/
def validateEncodedSCMFrame (encoded : List UInt8) : Bool := 7 ≤ encoded.length

/-- `decodeSCMFrame`. -/
def decodeSCMFrame (encoded : List UInt8) : ScmData where
  timestampInMsec := uint32At encoded 0
  maxFragmentIndex := byteAt encoded 4
  fragmentIndex := byteAt encoded 5
  scintillatorIndex := byteAt encoded 6
  data := encoded.drop 7

/-- A frame is decoded to what was encoded. -/
theorem decode_encodeSCMFrame (data : ScmData) : decodeSCMFrame (encodeSCMFrame data) = data := by
  rw [decodeSCMFrame, encodeSCMFrame, uint32At_uint32Bytes]
  rfl

theorem validate_encodeSCMFrame (data : ScmData) :
    validateEncodedSCMFrame (encodeSCMFrame data) = true :=
  decide_eq_true (Nat.le_add_left 7 data.data.length)

end TellerOBC
