import TellerOBC.Storage.Medium

/-!
# Raw storage downloads

The raw read operation on a medium (`TellerOBC.Medium`) performs the transfer of the fragments
of the requested bytes, whatever sends are refused. The storage command carries a length of 16
bits, which the decoder does not bound, while a fragment index has only eight bits: a download
of more than `59 * 256 = 15104` bytes repeats its indices.

## Main definitions

* `TellerOBC.RawStorageReadOperation.pending`: the frames that an operation still has to send.

## Main results

* `TellerOBC.RawStorageReadOperation.exists_iterate`: an iteration is a round of the transfer.
* `TellerOBC.isDownloadOf_rawStorageDownload_iff`: when the frames of a raw download carry the
  bytes of the device with distinct fragment indices.
-/

namespace TellerOBC

open Medium

namespace RawStorageReadOperation

variable (m : Medium) (op : RawStorageReadOperation)

/-- The frames that the operation still has to send. -/
def pending : List TelemetryFrame :=
  fragments op.targets op.binaryData.frameType op.binaryData.seqNo
    op.binaryData.maxFragmentIndex op.binaryData.fragmentIndex
    (Transfer.pieces 58 (m.deviceBytes op.address op.bytesLeft.toNat))

theorem pending_of_not_running (h : op.running = false) : op.pending m = [] := by
  have hzero : op.bytesLeft.toNat = 0 := by
    simpa [running, UInt16.lt_iff_toNat_lt] using h
  rw [pending, hzero]
  simp [deviceBytes, fragments]

/-- The first fragment of the operation. -/
def firstFragment : TelemetryFrame :=
  ⟨op.targets, FrameType.binaryData,
    [op.binaryData.frameType, op.binaryData.seqNo, op.binaryData.maxFragmentIndex,
      op.binaryData.fragmentIndex] ++
      m.deviceBytes op.address (fragmentLimit op.bytesLeft).toNat⟩

/-- The operation with its first fragment put into the buffer. -/
def load : RawStorageReadOperation :=
  { op with
    binaryData :=
      { op.binaryData with
        dataLength := fragmentLimit op.bytesLeft
        data := overwrite op.binaryData.data
          (m.deviceBytes op.address (fragmentLimit op.bytesLeft).toNat) } }

/-- The operation after its first fragment. -/
def advance : RawStorageReadOperation :=
  let dataLength := fragmentLimit op.bytesLeft
  { op.load m with
    address := op.address + dataLength.toUInt64
    bytesLeft := op.bytesLeft - dataLength.toUInt16
    binaryData :=
      { (op.load m).binaryData with fragmentIndex := op.binaryData.fragmentIndex + 1 } }

theorem pending_of_running (h : op.running = true) :
    op.pending m = op.firstFragment m :: (op.advance m).pending m := by
  have hpos : 0 < op.bytesLeft.toNat := by
    simpa [running, UInt16.lt_iff_toNat_lt] using h
  have hne : m.deviceBytes op.address op.bytesLeft.toNat ≠ [] := by
    rw [← List.length_pos_iff, length_deviceBytes]
    exact hpos
  have htake : (m.deviceBytes op.address op.bytesLeft.toNat).take (58 + 1) =
      m.deviceBytes op.address (fragmentLimit op.bytesLeft).toNat := by
    rw [take_deviceBytes, toNat_fragmentLimit]
  have hdrop : (m.deviceBytes op.address op.bytesLeft.toNat).drop (58 + 1) =
      m.deviceBytes (op.address + (fragmentLimit op.bytesLeft).toUInt64)
        (op.bytesLeft - (fragmentLimit op.bytesLeft).toUInt16).toNat := by
    rw [drop_deviceBytes, toNat_sub_fragmentLimit]
    rcases Nat.lt_or_ge 59 op.bytesLeft.toNat with hlt | hge
    · have h59 : fragmentLimit op.bytesLeft = 59 :=
        if_pos (UInt16.lt_iff_toNat_lt.mpr (by simpa using hlt))
      rw [h59]
      rfl
    · simp [deviceBytes, Nat.sub_eq_zero_of_le hge]
  rw [pending, Transfer.pieces_of_ne_nil 58 hne, htake, hdrop]
  rfl

/-- Putting the first fragment into the buffer does not change what is to be sent. -/
theorem pending_load : (op.load m).pending m = op.pending m := rfl

/-- One pass of the loop offers the first fragment. -/
theorem pass_eq (w : State) (harea : op.area ≠ .unknown) :
    pass m.io (op, w) =
      match send op.targets FrameType.binaryData (op.firstFragment m).payload w with
      | (false, w) => ((op.load m, w), some none)
      | (true, w) => ((op.advance m, w), none) := by
  have hread : m.io.readRawData op.area op.address (fragmentLimit op.bytesLeft).toNat w =
      (some (m.deviceBytes op.address (fragmentLimit op.bytesLeft).toNat), w) := by
    cases h : op.area with
    | unknown => exact absurd h harea
    | flashMemory => rfl
    | sdCard => rfl
  have hencode : encodeBinaryDataFrame (op.load m).binaryData = (op.firstFragment m).payload :=
    encodeBinaryDataFrame_overwrite _ (by rw [length_deviceBytes]; rfl) _ rfl
  simp only [pass, hread]
  rw [← hencode]
  cases hσ : w.outcomes 0 with
  | true =>
    rw [sendTo_accepted m _ _ _ hσ]
    simp only [send, hσ, ↓reduceIte]
    rfl
  | false =>
    rw [sendTo_refused m _ _ _ hσ]
    simp only [send, hσ, Bool.false_eq_true, ↓reduceIte]
    rfl

/-- **An iteration is a round of the transfer** of the frames that the operation has to send. -/
theorem exists_iterate (fs : Filesystems) (w : State) (harea : op.area ≠ .unknown)
    (hfs : (fs.getState op.area).isSome) :
    ∃ op' w', op.iterate m.io fs w = (none, op', w') ∧ op'.area = op.area ∧
      w'.transfer (op'.pending m) = (w.transfer (op.pending m)).round := by
  obtain ⟨s, hs⟩ := Option.isSome_iff_exists.mp hfs
  have hloop := @EarlyReturnLoop.rule _ _ (fun s : RawStorageReadOperation × State => s.1.running)
    (pass m.io) none
    (fun s => s.1.area = op.area ∧
      (s.2.transfer (s.1.pending m)).round = (w.transfer (op.pending m)).round)
    (fun r s => r = none ∧ s.1.area = op.area ∧
      s.2.transfer (s.1.pending m) = (w.transfer (op.pending m)).round)
    (fun s => s.1.bytesLeft.toNat) ?_ ?_ ?_ (op.bytesLeft.toNat + 1) (op, w) ⟨rfl, rfl⟩
    (Nat.lt_succ_self _)
  · obtain ⟨hnone, hkeep, hround⟩ := hloop
    exact ⟨_, _, by rw [iterate, hs]; exact Prod.ext hnone rfl, hkeep, hround⟩
  · -- a refused fragment stays the first one to send
    rintro ⟨o, v⟩ ⟨o', v'⟩ r ⟨ho, hround⟩ hrun hpass
    rw [pass_eq m o v (ho ▸ harea)] at hpass
    cases hσ : v.outcomes 0 with
    | true => simp [send, hσ] at hpass
    | false =>
      simp only [send, hσ, Bool.false_eq_true, ↓reduceIte, Prod.mk.injEq,
        Option.some.injEq] at hpass
      obtain ⟨⟨rfl, rfl⟩, rfl⟩ := hpass
      refine ⟨rfl, ho, ?_⟩
      rw [← hround, pending_load, pending_of_running m o hrun]
      exact (Transfer.round_refused _ _ _ hσ).symm
  · rintro ⟨o, v⟩ ⟨o', v'⟩ ⟨ho, hround⟩ hrun hpass
    rw [pass_eq m o v (ho ▸ harea)] at hpass
    cases hσ : v.outcomes 0 with
    | false => simp [send, hσ] at hpass
    | true =>
      simp only [send, hσ, ↓reduceIte, Prod.mk.injEq, and_true] at hpass
      obtain ⟨rfl, rfl⟩ := hpass
      refine ⟨⟨ho, ?_⟩, ?_⟩
      · rw [← hround, pending_of_running m o hrun]
        exact (Transfer.round_accepted _ _ _ hσ).symm
      · have hpos : 0 < o.bytesLeft.toNat := by
          simpa [running, UInt16.lt_iff_toNat_lt] using hrun
        show (o.bytesLeft - (fragmentLimit o.bytesLeft).toUInt16).toNat < o.bytesLeft.toNat
        rw [toNat_sub_fragmentLimit]
        omega
  · rintro ⟨o, v⟩ ⟨ho, hround⟩ hrun
    refine ⟨rfl, ho, ?_⟩
    rw [← hround, pending_of_not_running m o hrun]
    rfl

end RawStorageReadOperation

/-! ### Downloads started by a command -/

section RawDownload

variable (m : Medium)

/-- The frames that an installed raw read still has to send. -/
def StorageAccessOperation.pendingRaw : StorageAccessOperation → State → List TelemetryFrame
  | rawStorageRead op, _ => op.pending m
  | _, _ => []

/-- The operation is a raw read from an area with a driver and a state object. -/
def StorageAccessOperation.ReadsDevice (fs : Filesystems) (op : StorageAccessOperation)
    (_ : State) : Prop :=
  ∃ o, op = rawStorageRead o ∧ o.area ≠ .unknown ∧ (fs.getState o.area).isSome

/-- **The frames of a raw download** are the fragments of the bytes of the device. -/
theorem framesAfter_rawStorageDownload (s : Storage State) (area : StorageArea)
    (address : UInt64) (length : UInt16) (targets seqNo : UInt8) (harea : area ≠ .unknown)
    (hfs : (s.filesystems.getState area).isSome)
    (hstart : (s.startRawStorageDownload m.io area address length targets seqNo).1 = none)
    {n : ℕ} (hn : (length.toNat + 58) / 59 ≤ Transfer.acceptances s.world.outcomes n) :
    m.framesAfter s.world.sent
        (s.startRawStorageDownload m.io area address length targets seqNo).2 n =
      fragments targets FrameType.storage seqNo (maxFragmentIndexFor length) 0
        (Transfer.pieces 58 (m.deviceBytes address length.toNat)) := by
  have heq := Storage.startRawStorageDownload_eq_none hstart
  set t := (s.startRawStorageDownload m.io area address length targets seqNo).2
  have hworld : t.world = s.world := by
    rw [heq, setOperation_world]
    rfl
  have hkeeps : Keeps StorageAccessOperation.ReadsDevice t := by
    intro op hop
    rw [heq] at hop ⊢
    exact ⟨_, (Option.some.inj hop).symm, harea, hfs⟩
  have hrest : (transferOf (StorageAccessOperation.pendingRaw m) t).rest =
      fragments targets FrameType.storage seqNo (maxFragmentIndexFor length) 0
        (Transfer.pieces 58 (m.deviceBytes address length.toNat)) := by
    rw [heq]
    rfl
  have hsent := @sent_iterate m (StorageAccessOperation.pendingRaw m)
    StorageAccessOperation.ReadsDevice ?_ ?_ t hkeeps n ?_
  · rw [Medium.framesAfter, hsent, hworld, List.drop_left, hrest]
  · rintro fs _ w ⟨o, rfl, ho, hsome⟩
    obtain ⟨o', w', hit, hkeep, hround⟩ := o.exists_iterate m fs w ho hsome
    refine ⟨.rawStorageRead o', w', by rw [StorageAccessOperation.iterate, hit], ?_, hround⟩
    exact ⟨o', rfl, hkeep ▸ ho, hkeep ▸ hsome⟩
  · rintro fs _ w ⟨o, rfl, -, -⟩ hrun
    exact o.pending_of_not_running m hrun
  · rwa [hrest, length_fragments, Transfer.length_pieces, length_deviceBytes, hworld]

/-- **Raw downloads.** Once enough sends were accepted, the frames of a started raw download
carry the requested bytes of the device with the fragment indices `0, 1, 2, …` exactly when at
most 15104 bytes were requested. -/
theorem isDownloadOf_rawStorageDownload_iff (s : Storage State) (area : StorageArea)
    (address : UInt64) (length : UInt16) (targets seqNo : UInt8) (harea : area ≠ .unknown)
    (hfs : (s.filesystems.getState area).isSome)
    (hstart : (s.startRawStorageDownload m.io area address length targets seqNo).1 = none)
    {n : ℕ} (hn : (length.toNat + 58) / 59 ≤ Transfer.acceptances s.world.outcomes n) :
    IsDownloadOf (m.deviceBytes address length.toNat)
        (m.framesAfter s.world.sent
          (s.startRawStorageDownload m.io area address length targets seqNo).2 n) ↔
      length.toNat ≤ 15104 := by
  have hcount : (Transfer.pieces 58 (m.deviceBytes address length.toNat)).length =
      (length.toNat + 58) / 59 := by
    rw [Transfer.length_pieces, length_deviceBytes]
  rw [framesAfter_rawStorageDownload m s area address length targets seqNo harea hfs hstart hn]
  constructor
  · intro h
    by_contra hlen
    refine not_isDownloadOf_of_length ?_ h
    rw [length_fragments, hcount]
    omega
  · intro hlen
    have hmax : maxFragmentIndexFor length = UInt8.ofNat
        ((Transfer.pieces 58 (m.deviceBytes address length.toNat)).length - 1) := by
      rw [hcount, maxFragmentIndexFor_eq]
    have h := isDownloadOf_fragments targets FrameType.storage seqNo _ (by rw [hcount]; omega) hmax
    rwa [Transfer.flatten_pieces] at h

/-- The download of 60 bytes of a blank device in two fragments. -/
theorem isDownloadOf_rawStorageDownload_blank :
    IsDownloadOf (blank.deviceBytes 0 60)
        (blank.framesAfter []
          ((booted fun _ => true).startRawStorageDownload blank.io .flashMemory 0 60 1 0).2 2) ↔
      60 ≤ 15104 :=
  isDownloadOf_rawStorageDownload_iff blank (booted fun _ => true) .flashMemory 0 60 1 0
    (by decide) rfl rfl (acceptances_booted 2).ge

/-- **The fragment index wraps around.** A download of 15105 bytes is accepted, and its 257
fragments have only 256 different indices. -/
theorem not_isDownloadOf_rawStorageDownload_blank :
    ((booted fun _ => true).startRawStorageDownload blank.io .flashMemory 0 15105 1 0).1 = none ∧
      ¬ IsDownloadOf (blank.deviceBytes 0 15105)
        (blank.framesAfter []
          ((booted fun _ => true).startRawStorageDownload blank.io .flashMemory 0 15105 1 0).2
          257) := by
  have hframes : blank.framesAfter []
        ((booted fun _ => true).startRawStorageDownload blank.io .flashMemory 0 15105 1 0).2 257 =
      fragments 1 FrameType.storage 0 (maxFragmentIndexFor 15105) 0
        (Transfer.pieces 58 (blank.deviceBytes 0 15105)) :=
    framesAfter_rawStorageDownload blank (booted fun _ => true) .flashMemory 0 15105 1 0
      (by decide) rfl rfl (acceptances_booted 257).ge
  refine ⟨rfl, not_isDownloadOf_of_length ?_⟩
  rw [hframes, length_fragments, Transfer.length_pieces, length_deviceBytes]
  decide

end RawDownload

end TellerOBC
