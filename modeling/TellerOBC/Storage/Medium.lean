import TellerOBC.Foundations.Transfer
import TellerOBC.Storage.Manager

/-!
# A medium where every access succeeds

The storage operations are suspended by failed sends only when nothing else fails. This file
gives the surroundings of such a download: a device, a file and a directory whose contents do
not change, on which every access succeeds, and a telemetry module that accepts or refuses each
frame as a sequence of outcomes says. The accepted frames are kept in order.

A download on a medium is then a transfer (`Transfer`): the frames that are left are a function
of the operation, and one iteration of the reader task is one round.

## Main definitions

* `TellerOBC.TelemetryFrame`: a frame as the telemetry module gets it.
* `TellerOBC.Directory`, `TellerOBC.Medium`, `TellerOBC.Medium.State`, `TellerOBC.Medium.io`.
* `TellerOBC.fragments`: the binary data frames of a list of pieces.
* `TellerOBC.IsDownloadOf`: frames that carry given bytes as consecutively numbered fragments.

## Main results

* `TellerOBC.Medium.transferOf_iterate`: when the reader task performs a transfer.
* `TellerOBC.isDownloadOf_fragments`: at most 256 pieces make a download.
* `TellerOBC.not_isDownloadOf_of_length`: more than 256 frames never do.
-/

namespace TellerOBC

/-- A telemetry frame: the targets it is sent to, its type and its payload. -/
structure TelemetryFrame where
  targets : UInt8
  frameType : UInt8
  payload : List UInt8
  deriving DecidableEq

/-- The binary data frame in the payload of a telemetry frame. -/
def TelemetryFrame.binaryData (frame : TelemetryFrame) : BinaryDataFrame :=
  .ofPayload frame.payload

/-- The entries of a directory. Their names are distinct, not empty, and have no slashes. -/
structure Directory where
  entries : List DirInfo
  nodup : (entries.map DirInfo.name).Nodup
  name_ne : ∀ entry ∈ entries, entry.name ≠ .empty
  noSlash : ∀ entry ∈ entries, 0x2F ∉ entry.name.bytes

/-- The directory without entries. -/
def Directory.empty : Directory := ⟨[], List.nodup_nil, by simp, by simp⟩

/-- The contents of a storage device, of a file on it and of a directory on it. The size of a
littlefs file is below `2 ^ 31`. -/
structure Medium where
  device : UInt64 → UInt8
  content : List UInt8
  content_length_lt : content.length < 2 ^ 31
  directory : Directory

namespace Medium

/-- An erased device without files. -/
def blank : Medium := ⟨fun _ => 0xFF, [], by decide, .empty⟩

/-- What changes during a download: the positions in the file and in the directory, the frames
that were accepted and the outcomes of the sends to come. -/
structure State where
  filePos : ℕ := 0
  dirPos : ℕ := 0
  sent : List TelemetryFrame := []
  outcomes : ℕ → Bool

/-- The transfer that has the given frames left. -/
def State.transfer (w : State) (rest : List TelemetryFrame) : Transfer TelemetryFrame :=
  ⟨rest, w.sent, w.outcomes⟩

variable (m : Medium)

/-- The bytes of the device from an address on. -/
def deviceBytes (address : UInt64) (length : ℕ) : List UInt8 :=
  (List.range length).map fun i => m.device (address + UInt64.ofNat i)

/-- Offer a frame to the telemetry module. -/
def send (targets frameType : UInt8) (payload : List UInt8) (w : State) : Bool × State :=
  if w.outcomes 0 then
    (true, { w with
      sent := w.sent ++ [⟨targets, frameType, payload⟩]
      outcomes := Transfer.later w.outcomes })
  else (false, { w with outcomes := Transfer.later w.outcomes })

/-- The calls of the storage operations on the medium. -/
def io : StorageIO State where
  mount _ w := (none, w)
  unmount _ w := (none, w)
  format _ w := (none, w)
  open_ _ _ _ w := (.ok 0, { w with filePos := 0 })
  opencfg _ _ _ w := (.ok 0, { w with filePos := 0 })
  sync _ _ w := (none, w)
  close _ _ w := (none, w)
  read _ _ n w :=
    let bytes := (m.content.drop w.filePos).take n
    (.ok bytes, { w with filePos := w.filePos + bytes.length })
  write _ _ _ w := (.error .badf, w)
  tell _ _ w := (.ok w.filePos, w)
  size _ _ w := (.ok m.content.length, w)
  seek _ _ offset w :=
    if offset < 0 then (.error .inval, w)
    else (.ok offset.toNat, { w with filePos := offset.toNat })
  stat _ _ w := (.ok .reg, w)
  dirOpen _ _ w := (.ok 0, { w with dirPos := 0 })
  dirClose _ _ w := (none, w)
  dirRead _ _ w :=
    match m.directory.entries[w.dirPos]? with
    | none => (.error .noent, w)
    | some info => (.ok info, { w with dirPos := w.dirPos + 1 })
  dirRewind _ _ w := (none, { w with dirPos := 0 })
  readData _ address length w := (some (m.deviceBytes address length), w)
  sendTo := send

/-! ### The accesses -/

@[simp] theorem length_deviceBytes (address : UInt64) (length : ℕ) :
    (m.deviceBytes address length).length = length := by
  rw [deviceBytes, List.length_map, List.length_range]

theorem take_deviceBytes (address : UInt64) (length k : ℕ) :
    (m.deviceBytes address length).take k = m.deviceBytes address (min k length) := by
  rw [deviceBytes, ← List.map_take, List.take_range, deviceBytes]

theorem drop_deviceBytes (address : UInt64) (length k : ℕ) :
    (m.deviceBytes address length).drop k =
      m.deviceBytes (address + UInt64.ofNat k) (length - k) := by
  refine List.ext_getElem (by simp) fun i _ _ => ?_
  simp only [deviceBytes, List.getElem_drop, List.getElem_map, List.getElem_range,
    UInt64.add_assoc, ← UInt64.ofNat_add]

theorem sendTo_accepted (targets frameType : UInt8) (payload : List UInt8) {w : State}
    (h : w.outcomes 0 = true) :
    m.io.sendTo targets frameType payload w =
      (true, { w with
        sent := w.sent ++ [⟨targets, frameType, payload⟩]
        outcomes := Transfer.later w.outcomes }) :=
  if_pos h

theorem sendTo_refused (targets frameType : UInt8) (payload : List UInt8) {w : State}
    (h : w.outcomes 0 = false) :
    m.io.sendTo targets frameType payload w =
      (false, { w with outcomes := Transfer.later w.outcomes }) :=
  if_neg (by simp [h])

/-- The storage module on a medium after a boot, when nothing was requested yet. -/
def booted (outcomes : ℕ → Bool) : Storage State :=
  ⟨Filesystems.mountedAtBoot, {}, { outcomes := outcomes }⟩

theorem acceptances_booted (n : ℕ) :
    Transfer.acceptances (booted fun _ => true).world.outcomes n = n :=
  Transfer.acceptances_eq_of_forall fun _ _ => rfl

/-- Dropping an operation does not change the medium. -/
theorem cancel_world (op : StorageAccessOperation) (w : State) : (op.cancel m.io w).2 = w := by
  cases op with
  | rawStorageRead op => rfl
  | directoryListing op =>
    simp only [StorageAccessOperation.cancel, DirectoryListingOperation.cancel,
      DirectoryListingOperation.resetDir]
    cases op.dir <;> rfl
  | fileDownload op =>
    simp only [StorageAccessOperation.cancel, FileDownloadOperation.cancel,
      FileDownloadOperation.resetFile]
    cases op.file <;> rfl

theorem setOperation_world (s : Storage State) (op : Option StorageAccessOperation) :
    (s.setOperation m.io op).world = s.world := by
  simp only [Storage.setOperation]
  cases s.access.operation with
  | none => rfl
  | some old => exact cancel_world m old s.world

/-- Only the iteration of the operation changes the medium in an iteration of the reader. -/
theorem world_readerIteration {s : Storage State} {op : StorageAccessOperation}
    (hop : s.access.operation = some op) :
    (s.readerIteration m.io).world = (op.iterate m.io s.filesystems s.world).2.2 := by
  rcases h : op.iterate m.io s.filesystems s.world with ⟨_ | e, op', w⟩
  · rw [s.readerIteration_of_iterate m.io hop h]
    cases hrun : op'.running with
    | true => rfl
    | false => exact setOperation_world m _ none
  · simp only [Storage.readerIteration, Storage.iterate, Storage.iterateOperation, hop, h,
      Storage.cancel, setOperation_world]

/-- The frames accepted in the iterations of the reader task after those in `before`. -/
def framesAfter (before : List TelemetryFrame) (s : Storage State) (n : ℕ) :
    List TelemetryFrame :=
  ((Storage.readerIteration m.io)^[n] s).world.sent.drop before.length

/-! ### The reader task as a transfer -/

section Refinement

variable {m} (pending : StorageAccessOperation → State → List TelemetryFrame)
  (I : Filesystems → StorageAccessOperation → State → Prop)

/-- The transfer that the installed operation performs; without an operation nothing is left. -/
def transferOf (s : Storage State) : Transfer TelemetryFrame :=
  s.world.transfer (s.access.operation.elim [] fun op => pending op s.world)

/-- The invariant of the installed operation, if there is one. -/
def Keeps (s : Storage State) : Prop :=
  ∀ op, s.access.operation = some op → I s.filesystems op s.world

variable {pending I}
  (hiterate : ∀ fs op w, I fs op w → ∃ op' w', op.iterate m.io fs w = (none, op', w') ∧
    I fs op' w' ∧ w'.transfer (pending op' w') = (w.transfer (pending op w)).round)
  (hstop : ∀ fs op w, I fs op w → op.running = false → pending op w = [])

include hiterate hstop in
/-- If the iterations of an operation are rounds, then so are those of the reader task. -/
theorem transferOf_readerIteration {s : Storage State} (h : Keeps I s) :
    Keeps I (s.readerIteration m.io) ∧
      transferOf pending (s.readerIteration m.io) = (transferOf pending s).round := by
  cases hop : s.access.operation with
  | none =>
    rw [s.readerIteration_of_none m.io hop]
    exact ⟨h, by rw [transferOf, hop]; rfl⟩
  | some op =>
    obtain ⟨op', w', hit, hI, hround⟩ := hiterate _ op _ (h op hop)
    rw [s.readerIteration_of_iterate m.io hop hit]
    cases hrun : op'.running with
    | true =>
      refine ⟨fun o ho => Option.some.inj ho ▸ hI, ?_⟩
      simp only [transferOf, hop, ↓reduceIte, Option.elim_some]
      exact hround
    | false =>
      refine ⟨fun o ho => by simp [Storage.setOperation] at ho, ?_⟩
      simp only [transferOf, hop, Bool.false_eq_true, ↓reduceIte, Option.elim_some,
        setOperation_world]
      rw [← hround, hstop _ _ _ hI hrun]
      rfl

include hiterate hstop in
/-- **The reader task performs a transfer.** -/
theorem transferOf_iterate {s : Storage State} (h : Keeps I s) (n : ℕ) :
    Keeps I ((Storage.readerIteration m.io)^[n] s) ∧
      transferOf pending ((Storage.readerIteration m.io)^[n] s) =
        Transfer.round^[n] (transferOf pending s) := by
  induction n with
  | zero => exact ⟨h, rfl⟩
  | succ n ih =>
    rw [Function.iterate_succ_apply', Function.iterate_succ_apply', ← ih.2]
    exact transferOf_readerIteration hiterate hstop ih.1

include hiterate hstop in
/-- The frames sent by the reader task are always the first ones of the installed operation. -/
theorem exists_sent_iterate {s : Storage State} (h : Keeps I s) (n : ℕ) :
    ∃ k, ((Storage.readerIteration m.io)^[n] s).world.sent =
      s.world.sent ++ (transferOf pending s).rest.take k := by
  obtain ⟨k, hk⟩ := (transferOf pending s).exists_sent_iterate_eq n
  rw [← (transferOf_iterate hiterate hstop h n).2] at hk
  exact ⟨k, hk⟩

include hiterate hstop in
/-- With enough accepted sends all frames of the installed operation are sent. -/
theorem sent_iterate {s : Storage State} (h : Keeps I s) {n : ℕ}
    (hn : (transferOf pending s).rest.length ≤ Transfer.acceptances s.world.outcomes n) :
    ((Storage.readerIteration m.io)^[n] s).world.sent =
      s.world.sent ++ (transferOf pending s).rest := by
  have hsent := (transferOf pending s).sent_iterate_eq hn
  rw [← (transferOf_iterate hiterate hstop h n).2] at hsent
  exact hsent

end Refinement

end Medium

/-! ### Fragments -/

/-- The binary data frames that carry pieces of data, with consecutive indices in a byte. -/
def fragments (targets frameType seqNo maxFragmentIndex : UInt8) :
    UInt8 → List (List UInt8) → List TelemetryFrame
  | _, [] => []
  | index, bytes :: rest =>
    ⟨targets, FrameType.binaryData, [frameType, seqNo, maxFragmentIndex, index] ++ bytes⟩ ::
      fragments targets frameType seqNo maxFragmentIndex (index + 1) rest

/-- The frames carry the given bytes as fragments `0, 1, 2, …`, and only the last frame has
the index announced as the largest one. -/
structure IsDownloadOf (bytes : List UInt8) (frames : List TelemetryFrame) : Prop where
  frameType : ∀ frame ∈ frames, frame.frameType = FrameType.binaryData
  data : (frames.map fun frame => frame.binaryData.data).flatten = bytes
  index : frames.map (fun frame => frame.binaryData.fragmentIndex.toNat) =
    List.range frames.length
  last : ∀ i frame, frames[i]? = some frame →
    (frame.binaryData.fragmentIndex = frame.binaryData.maxFragmentIndex ↔
      i + 1 = frames.length)

section Fragments

variable (targets frameType seqNo maxFragmentIndex : UInt8)

@[simp] theorem length_fragments (index : UInt8) (pieces : List (List UInt8)) :
    (fragments targets frameType seqNo maxFragmentIndex index pieces).length =
      pieces.length := by
  induction pieces generalizing index with
  | nil => rfl
  | cons bytes pieces ih => rw [fragments, List.length_cons, ih, List.length_cons]

/-- The fields of the fragments. -/
theorem getElem?_fragments (index : UInt8) (pieces : List (List UInt8)) (i : ℕ) :
    (fragments targets frameType seqNo maxFragmentIndex index pieces)[i]? =
      pieces[i]?.map fun bytes =>
        ⟨targets, FrameType.binaryData,
          [frameType, seqNo, maxFragmentIndex, index + UInt8.ofNat i] ++ bytes⟩ := by
  induction pieces generalizing index i with
  | nil => rfl
  | cons bytes pieces ih =>
    cases i with
    | zero => simp [fragments]
    | succ i =>
      rw [fragments, List.getElem?_cons_succ, ih, List.getElem?_cons_succ, UInt8.ofNat_add,
        UInt8.add_assoc, UInt8.add_comm (UInt8.ofNat i)]
      rfl

theorem data_fragments (index : UInt8) (pieces : List (List UInt8)) :
    (fragments targets frameType seqNo maxFragmentIndex index pieces).map
      (fun frame => frame.binaryData.data) = pieces := by
  induction pieces generalizing index with
  | nil => rfl
  | cons bytes pieces ih => rw [fragments, List.map_cons, ih]; rfl

variable {targets frameType seqNo maxFragmentIndex} in
theorem maxFragmentIndex_of_mem_fragments {index : UInt8} {pieces : List (List UInt8)}
    {frame : TelemetryFrame}
    (h : frame ∈ fragments targets frameType seqNo maxFragmentIndex index pieces) :
    frame.binaryData.maxFragmentIndex = maxFragmentIndex := by
  obtain ⟨i, hi⟩ := List.mem_iff_getElem?.mp h
  rw [getElem?_fragments, Option.map_eq_some_iff] at hi
  obtain ⟨bytes, -, rfl⟩ := hi
  rfl

/-- **At most 256 pieces make a download** when the largest index is announced. -/
theorem isDownloadOf_fragments {pieces : List (List UInt8)} (hlen : pieces.length ≤ 256)
    (hmax : maxFragmentIndex = UInt8.ofNat (pieces.length - 1)) :
    IsDownloadOf pieces.flatten
      (fragments targets frameType seqNo maxFragmentIndex 0 pieces) := by
  have hfield {i : ℕ} {frame : TelemetryFrame}
      (h : (fragments targets frameType seqNo maxFragmentIndex 0 pieces)[i]? = some frame) :
      i < pieces.length ∧ frame.frameType = FrameType.binaryData ∧
        frame.binaryData.fragmentIndex = UInt8.ofNat i ∧
        frame.binaryData.maxFragmentIndex = maxFragmentIndex := by
    rw [getElem?_fragments, Option.map_eq_some_iff] at h
    obtain ⟨bytes, hbytes, rfl⟩ := h
    exact ⟨(List.getElem?_eq_some_iff.mp hbytes).1, rfl, UInt8.zero_add _, rfl⟩
  refine ⟨fun frame hframe => ?_, ?_, ?_, fun i frame h => ?_⟩
  · obtain ⟨i, hi⟩ := List.mem_iff_getElem?.mp hframe
    exact (hfield hi).2.1
  · rw [data_fragments]
  · refine List.ext_getElem (by simp) fun i hi _ => ?_
    obtain ⟨hlt, -, hindex, -⟩ :=
      hfield (List.getElem?_eq_getElem (by simpa using hi))
    have hi256 : i < UInt8.size := lt_of_lt_of_le hlt hlen
    rw [List.getElem_map, hindex, List.getElem_range, UInt8.toNat_ofNat_of_lt' hi256]
  · obtain ⟨hlt, -, hindex, hm⟩ := hfield h
    have hi256 : i < UInt8.size := lt_of_lt_of_le hlt hlen
    have hmax256 : pieces.length - 1 < UInt8.size := lt_of_lt_of_le (by omega) hlen
    rw [hindex, hm, hmax, length_fragments, ← UInt8.toNat_inj, UInt8.toNat_ofNat_of_lt' hi256,
      UInt8.toNat_ofNat_of_lt' hmax256]
    omega

/-- **More than 256 frames are never a download**, since the index has eight bits. -/
theorem not_isDownloadOf_of_length {bytes : List UInt8} {frames : List TelemetryFrame}
    (hlen : 256 < frames.length) : ¬ IsDownloadOf bytes frames := by
  intro h
  have hmem : 256 ∈ frames.map fun frame => frame.binaryData.fragmentIndex.toNat := by
    rw [h.index]
    exact List.mem_range.mpr hlen
  obtain ⟨frame, -, hframe⟩ := List.mem_map.mp hmem
  have := frame.binaryData.fragmentIndex.toNat_lt
  omega

end Fragments

end TellerOBC
