import TellerOBC.Storage.Medium

/-!
# File downloads

The file download operation on a medium (`TellerOBC.Medium`). A refused fragment was already
read from the file, so the operation rewinds the file to the position before it; the position
of the file, the bytes left and the fragment index then describe the same rest of the file
again, and the download performs the transfer of its fragments.

## Main definitions

* `TellerOBC.FileDownloadOperation.pending`: the frames that an operation still has to send.
* `TellerOBC.FileDownloadOperation.InFile`: what is left lies within the file.

## Main results

* `TellerOBC.FileDownloadOperation.exists_iterate`: an iteration is a round of the transfer.
* `TellerOBC.exists_isDownloadOf_fileDownload`: a started download delivers the requested range.
-/

namespace TellerOBC

open Medium

namespace FileDownloadOperation

variable (m : Medium) (op : FileDownloadOperation) (w : State)

/-- What the operation has to send lies within the file, which is open. -/
structure InFile : Prop where
  file : op.file.isSome
  bytesLeft : op.bytesLeft.toNat ≤ m.content.length - w.filePos

/-- The frames that the operation still has to send. -/
def pending : List TelemetryFrame :=
  fragments op.targets op.binaryData.frameType op.binaryData.seqNo
    op.binaryData.maxFragmentIndex op.binaryData.fragmentIndex
    (Transfer.pieces 58 ((m.content.drop w.filePos).take op.bytesLeft.toNat))

/-- The next bytes of the file. -/
def nextBytes : List UInt8 := (m.content.drop w.filePos).take (fragmentLimit op.bytesLeft).toNat

/-- The first fragment of the operation. -/
def firstFragment : TelemetryFrame :=
  ⟨op.targets, FrameType.binaryData,
    [op.binaryData.frameType, op.binaryData.seqNo, op.binaryData.maxFragmentIndex,
      op.binaryData.fragmentIndex] ++ op.nextBytes m w⟩

/-- The operation with its first fragment put into the buffer. -/
def load : FileDownloadOperation :=
  { op with
    binaryData :=
      { op.binaryData with
        dataLength := fragmentLimit op.bytesLeft
        data := overwrite op.binaryData.data (op.nextBytes m w) } }

/-- The operation after its first fragment. -/
def advance : FileDownloadOperation :=
  { op.load m w with
    bytesLeft := op.bytesLeft - (fragmentLimit op.bytesLeft).toUInt16
    binaryData :=
      { (op.load m w).binaryData with fragmentIndex := op.binaryData.fragmentIndex + 1 } }

variable {m op w}

theorem pending_of_not_running (h : op.running = false) : op.pending m w = [] := by
  have hzero : op.bytesLeft.toNat = 0 := by
    simpa [running, UInt16.lt_iff_toNat_lt] using h
  rw [pending, hzero, List.take_zero, Transfer.pieces_nil, fragments]

theorem toNat_bytesLeft_pos (hrun : op.running = true) : 0 < op.bytesLeft.toNat := by
  simpa [running, UInt16.lt_iff_toNat_lt] using hrun

theorem length_nextBytes (h : op.InFile m w) :
    (op.nextBytes m w).length = (fragmentLimit op.bytesLeft).toNat := by
  have := h.bytesLeft
  rw [nextBytes, List.length_take, List.length_drop, toNat_fragmentLimit]
  omega

theorem inFile_advance (h : op.InFile m w) {v : State}
    (hv : v.filePos = w.filePos + (fragmentLimit op.bytesLeft).toNat) :
    (op.advance m w).InFile m v where
  file := h.file
  bytesLeft := by
    have := h.bytesLeft
    show (op.bytesLeft - (fragmentLimit op.bytesLeft).toUInt16).toNat ≤ _
    rw [toNat_sub_fragmentLimit, hv, toNat_fragmentLimit]
    omega

theorem pending_of_running (h : op.InFile m w) (hrun : op.running = true) {v : State}
    (hv : v.filePos = w.filePos + (fragmentLimit op.bytesLeft).toNat) :
    op.pending m w = op.firstFragment m w :: (op.advance m w).pending m v := by
  have hpos := toNat_bytesLeft_pos hrun
  have hne : (m.content.drop w.filePos).take op.bytesLeft.toNat ≠ [] := by
    have := h.bytesLeft
    rw [← List.length_pos_iff, List.length_take, List.length_drop]
    omega
  have htake : ((m.content.drop w.filePos).take op.bytesLeft.toNat).take (58 + 1) =
      op.nextBytes m w := by
    rw [List.take_take, nextBytes, toNat_fragmentLimit]
  have hdrop : ((m.content.drop w.filePos).take op.bytesLeft.toNat).drop (58 + 1) =
      (m.content.drop v.filePos).take
        (op.bytesLeft - (fragmentLimit op.bytesLeft).toUInt16).toNat := by
    rw [List.drop_take, List.drop_drop, toNat_sub_fragmentLimit, hv, toNat_fragmentLimit]
    rcases Nat.le_total 59 op.bytesLeft.toNat with hle | hge
    · rw [Nat.min_eq_left hle]
    · rw [Nat.sub_eq_zero_of_le hge, List.take_zero, List.take_zero]
  rw [pending, Transfer.pieces_of_ne_nil 58 hne, htake, hdrop]
  rfl

/-- Seeking within the size of a littlefs file sets the position. -/
theorem seek_io (m : Medium) (file : SmartFileHandle) {pos : ℕ} (h : pos < 2 ^ 31) (w : State) :
    file.seek m.io.toLittleFS w pos = (.ok pos, { w with filePos := pos }) := by
  rw [SmartFileHandle.seek, SmartFileHandle.toIntOffset_of_lt h]
  rfl

theorem fragmentLimit_ne_zero (hrun : op.running = true) : fragmentLimit op.bytesLeft ≠ 0 := by
  have hpos := toNat_bytesLeft_pos hrun
  rw [ne_eq, ← UInt8.toNat_inj, toNat_fragmentLimit, UInt8.toNat_zero]
  omega

theorem loadFragment_nextBytes (h : op.InFile m w) (hrun : op.running = true) :
    op.loadFragment (op.nextBytes m w) = op.load m w := by
  have hdata : UInt8.ofNat (op.nextBytes m w).length = fragmentLimit op.bytesLeft := by
    rw [length_nextBytes h, UInt8.ofNat_toNat]
  simp only [loadFragment, hdata, fragmentLimit_ne_zero hrun, ↓reduceIte]
  rfl

theorem encode_load (h : op.InFile m w) :
    encodeBinaryDataFrame (op.load m w).binaryData = (op.firstFragment m w).payload :=
  encodeBinaryDataFrame_overwrite _ (length_nextBytes h).symm _ rfl

/-- Reading the next bytes moves the position of the file behind them. -/
theorem read_io (file : SmartFileHandle) (h : op.InFile m w) :
    file.read m.io.toLittleFS w (fragmentLimit op.bytesLeft).toNat =
      (.ok (op.nextBytes m w),
        { w with filePos := w.filePos + (fragmentLimit op.bytesLeft).toNat }) := by
  have hread : file.read m.io.toLittleFS w (fragmentLimit op.bytesLeft).toNat =
      (.ok (op.nextBytes m w),
        { w with filePos := w.filePos + (op.nextBytes m w).length }) := rfl
  rw [hread, length_nextBytes h]

/-- One pass of the loop offers the first fragment, and rewinds the file if it is refused. -/
theorem pass_eq (file : SmartFileHandle) (h : op.InFile m w) (hrun : op.running = true) :
    pass m.io file (op, w.filePos, w) =
      match send op.targets FrameType.binaryData (op.firstFragment m w).payload w with
      | (false, w') => ((op.load m w, w.filePos, w'), some none)
      | (true, w') =>
        let pos := w.filePos + (fragmentLimit op.bytesLeft).toNat
        ((op.advance m w, pos, { w' with filePos := pos }), none) := by
  have hpos : w.filePos < 2 ^ 31 := by
    have := toNat_bytesLeft_pos hrun
    have := h.bytesLeft
    have := m.content_length_lt
    omega
  have hsend : pass m.io file (op, w.filePos, w) =
      sendFragment m.io file (op.load m w, w.filePos,
        { w with filePos := w.filePos + (fragmentLimit op.bytesLeft).toNat }) := by
    rw [pass, read_io file h, ← loadFragment_nextBytes h hrun]
  rw [hsend]
  cases hσ : w.outcomes 0 with
  | true =>
    simp only [send, hσ, ↓reduceIte]
    refine sendFragment_accepted (fragmentLimit_ne_zero hrun) ?_
    rw [encode_load h]
    exact sendTo_accepted m _ _ _ hσ
  | false =>
    simp only [send, hσ, Bool.false_eq_true, ↓reduceIte]
    refine sendFragment_refused ?_ (seek_io m file hpos
      { w with
        filePos := w.filePos + (fragmentLimit op.bytesLeft).toNat
        outcomes := Transfer.later w.outcomes })
    rw [encode_load h]
    exact sendTo_refused m _ _ _ hσ

/-- **An iteration is a round of the transfer** of the frames that the operation has to send. -/
theorem exists_iterate (h : op.InFile m w) :
    ∃ op' w', op.iterate m.io w = (none, op', w') ∧ op'.InFile m w' ∧
      w'.transfer (op'.pending m w') = (w.transfer (op.pending m w)).round := by
  obtain ⟨file, hfile⟩ := Option.isSome_iff_exists.mp h.file
  have hloop := @EarlyReturnLoop.rule _ _
    (fun s : FileDownloadOperation × ℕ × State => s.1.running) (pass m.io file) none
    (fun ⟨o, pos, v⟩ => pos = v.filePos ∧ o.InFile m v ∧
      (v.transfer (o.pending m v)).round = (w.transfer (op.pending m w)).round)
    (fun r ⟨o, _, v⟩ => r = none ∧ o.InFile m v ∧
      v.transfer (o.pending m v) = (w.transfer (op.pending m w)).round)
    (fun s => s.1.bytesLeft.toNat) ?_ ?_ ?_ (op.bytesLeft.toNat + 1) (op, w.filePos, w)
    ⟨rfl, h, rfl⟩ (Nat.lt_succ_self _)
  · obtain ⟨hnone, hin, hround⟩ := hloop
    refine ⟨_, _, ?_, hin, hround⟩
    rw [iterate, hfile]
    exact Prod.ext hnone rfl
  · -- a refused fragment stays the first one to send, since the file was rewound
    rintro ⟨o, pos, v⟩ ⟨o', pos', v'⟩ r ⟨rfl, hin, hround⟩ hrun hpass
    rw [pass_eq file hin hrun] at hpass
    cases hσ : v.outcomes 0 with
    | true => simp [send, hσ] at hpass
    | false =>
      simp only [send, hσ, Bool.false_eq_true, ↓reduceIte, Prod.mk.injEq, Option.some.injEq]
        at hpass
      obtain ⟨⟨rfl, rfl, rfl⟩, rfl⟩ := hpass
      refine ⟨rfl, ⟨hin.file, hin.bytesLeft⟩, ?_⟩
      rw [← hround, pending_of_running hin hrun
        (v := { v with filePos := v.filePos + (fragmentLimit o.bytesLeft).toNat }) rfl]
      refine Eq.trans ?_ (Transfer.round_refused _ _ _ hσ).symm
      rw [← pending_of_running hin hrun rfl]
      rfl
  · rintro ⟨o, pos, v⟩ ⟨o', pos', v'⟩ ⟨rfl, hin, hround⟩ hrun hpass
    rw [pass_eq file hin hrun] at hpass
    cases hσ : v.outcomes 0 with
    | false => simp [send, hσ] at hpass
    | true =>
      simp only [send, hσ, ↓reduceIte, Prod.mk.injEq, and_true] at hpass
      obtain ⟨rfl, rfl, rfl⟩ := hpass
      refine ⟨⟨rfl, inFile_advance hin rfl, ?_⟩, ?_⟩
      · rw [← hround, pending_of_running hin hrun
          (v := { v with filePos := v.filePos + (fragmentLimit o.bytesLeft).toNat }) rfl]
        exact (Transfer.round_accepted _ _ _ hσ).symm
      · have hpos : 0 < o.bytesLeft.toNat := toNat_bytesLeft_pos hrun
        show (o.bytesLeft - (fragmentLimit o.bytesLeft).toUInt16).toNat < o.bytesLeft.toNat
        rw [toNat_sub_fragmentLimit]
        omega
  · rintro ⟨o, pos, v⟩ ⟨rfl, hin, hround⟩ hrun
    refine ⟨rfl, hin, ?_⟩
    rw [← hround, pending_of_not_running hrun]
    rfl

/-! ### Starting a download -/

/-- The operation of a started download. -/
def started (targets : UInt8) (area : StorageArea) (length : UInt16) (seqNo : UInt8) :
    FileDownloadOperation where
  targets := targets
  bytesLeft := length
  binaryData :=
    { BinaryData.zero with
      frameType := FrameType.fileDownload
      seqNo := seqNo
      maxFragmentIndex := maxFragmentIndexFor length }
  file := some { fs := area, fd := 0 }

/-- The clamped length is the number of requested bytes that the file has. -/
theorem toNat_clampLength {n : ℕ} (h : n < 2 ^ 31) (offset : ℕ) (length : UInt16) :
    (clampLength (UInt32.ofNat n) offset length).toNat = min length.toNat (n - offset) := by
  have hsize : (UInt32.ofNat n).toNat = n := UInt32.toNat_ofNat_of_lt' (lt_trans h (by decide))
  have hlen := length.toNat_lt
  rw [clampLength, hsize]
  split
  · simp; omega
  · split
    · next hshort =>
      rw [UInt16.toNat_ofNat_of_lt' (lt_trans hshort hlen)]
      omega
    · omega

/-- Seeking to an offset that a littlefs file cannot have fails. -/
theorem seek_io_of_le (file : SmartFileHandle) {offset : ℕ} (h : 2 ^ 31 ≤ offset)
    (h32 : offset < 2 ^ 32) (w : State) :
    file.seek m.io.toLittleFS w offset = (.error .inval, w) := by
  simp only [SmartFileHandle.seek, Medium.io, SmartFileHandle.toIntOffset_neg h h32, ↓reduceIte]

/-- A download that was started on a medium is positioned at the offset, and has the part of
the requested range left that lies in the file. -/
theorem start_io_eq_ok {fs : Filesystems} {area : StorageArea} {name : List UInt8}
    {offset : UInt32} {length : UInt16} {seqNo : UInt8} {size : UInt32} {w' : State}
    (h : start m.io {} fs area name offset length seqNo w = (.ok size, op, w')) :
    w' = { w with filePos := offset.toNat } ∧ op.file.isSome ∧
      op.bytesLeft = clampLength (UInt32.ofNat m.content.length) offset.toNat length ∧
      op.binaryData =
        { BinaryData.zero with
          frameType := FrameType.fileDownload
          seqNo := seqNo
          maxFragmentIndex := maxFragmentIndexFor op.bytesLeft } := by
  obtain ⟨_, fd, w₁, w₂, n, -, -, hopen, hseek, hsize, rfl, rfl⟩ := start_eq_ok h
  obtain ⟨rfl, rfl⟩ : 0 = fd ∧ { w with filePos := 0 } = w₁ := by simpa [Medium.io] using hopen
  rcases Nat.lt_or_ge offset.toNat (2 ^ 31) with hlt | hge
  · rw [seek_io m _ hlt, Prod.mk.injEq] at hseek
    obtain ⟨rfl, rfl⟩ : m.content.length = n ∧ w₂ = w' := by
      simpa [Medium.io, SmartFileHandle.size] using hsize
    exact ⟨hseek.2.symm, rfl, rfl, rfl⟩
  · rw [seek_io_of_le _ hge offset.toNat_lt] at hseek
    simp at hseek

end FileDownloadOperation

/-! ### Downloads started by a command -/

section FileDownload

variable (m : Medium) (s : Storage State) (area : StorageArea) (path : List UInt8)
  (offset : UInt32) (length : UInt16) (targets seqNo : UInt8)

/-- The frames that an installed file download still has to send. -/
def StorageAccessOperation.pendingFile : StorageAccessOperation → State → List TelemetryFrame
  | fileDownload op, w => op.pending m w
  | _, _ => []

/-- The operation is a file download with what it has to send within the file. -/
def StorageAccessOperation.ReadsFile (_ : Filesystems) (op : StorageAccessOperation)
    (w : State) : Prop :=
  ∃ o, op = fileDownload o ∧ o.InFile m w

/-- The part of a requested range that lies in the file. -/
def Medium.fileRange : List UInt8 :=
  (m.content.drop offset.toNat).take (min length.toNat (m.content.length - offset.toNat))

/-- The frames of a download of a range. -/
def Medium.fileFragments : List TelemetryFrame :=
  let left := FileDownloadOperation.clampLength (UInt32.ofNat m.content.length) offset.toNat length
  fragments targets FrameType.fileDownload seqNo (maxFragmentIndexFor left) 0
    (Transfer.pieces 58 (m.fileRange offset length))

theorem length_pieces_fileRange :
    (Transfer.pieces 58 (m.fileRange offset length)).length =
      ((FileDownloadOperation.clampLength (UInt32.ofNat m.content.length) offset.toNat
        length).toNat + 58) / 59 := by
  rw [Transfer.length_pieces, FileDownloadOperation.toNat_clampLength m.content_length_lt,
    Medium.fileRange, List.length_take, List.length_drop]
  congr 2
  omega

/-- From an offset at or behind the end of the file there is nothing to send. -/
theorem fileFragments_eq_nil (h : m.content.length ≤ offset.toNat) :
    m.fileFragments offset length targets seqNo = [] := by
  rw [Medium.fileFragments, Medium.fileRange, List.drop_of_length_le h, List.take_nil,
    Transfer.pieces_nil, fragments]

variable {length} (hlen : length.toNat ≤ 8192)

include hlen in
theorem length_pieces_fileRange_le :
    (Transfer.pieces 58 (m.fileRange offset length)).length ≤ 139 := by
  rw [length_pieces_fileRange, FileDownloadOperation.toNat_clampLength m.content_length_lt]
  omega

include hlen in
theorem isDownloadOf_fileFragments :
    IsDownloadOf (m.fileRange offset length)
      (m.fileFragments offset length targets seqNo) := by
  have hle : (Transfer.pieces 58 (m.fileRange offset length)).length ≤ 256 :=
    (length_pieces_fileRange_le m offset hlen).trans (by decide)
  have hmax := maxFragmentIndexFor_eq
    (FileDownloadOperation.clampLength (UInt32.ofNat m.content.length) offset.toNat length)
  rw [← length_pieces_fileRange] at hmax
  have h := isDownloadOf_fragments targets FrameType.fileDownload seqNo _ hle hmax
  rwa [Transfer.flatten_pieces] at h

include hlen in
theorem maxFragmentIndex_fileFragments {frame : TelemetryFrame}
    (h : frame ∈ m.fileFragments offset length targets seqNo) :
    frame.binaryData.maxFragmentIndex.toNat + 1 =
      (m.fileFragments offset length targets seqNo).length := by
  have hle := length_pieces_fileRange_le m offset hlen
  have hpos := List.length_pos_of_mem h
  have hlt : (Transfer.pieces 58 (m.fileRange offset length)).length - 1 < UInt8.size :=
    lt_of_le_of_lt (by omega) (by decide : 139 < UInt8.size)
  rw [Medium.fileFragments, length_fragments] at hpos ⊢
  rw [maxFragmentIndex_of_mem_fragments h, maxFragmentIndexFor_eq,
    ← length_pieces_fileRange m offset length, UInt8.toNat_ofNat_of_lt' hlt]
  omega

variable {m s area path offset targets seqNo}

/-- The transfer of a started download. -/
theorem transferOf_startFileDownload {size : UInt32}
    (hstart : (s.startFileDownload m.io area path offset length targets seqNo).1 = .ok size) :
    Keeps (StorageAccessOperation.ReadsFile m)
        (s.startFileDownload m.io area path offset length targets seqNo).2 ∧
      transferOf (StorageAccessOperation.pendingFile m)
          (s.startFileDownload m.io area path offset length targets seqNo).2 =
        s.world.transfer (m.fileFragments offset length targets seqNo) := by
  obtain ⟨op, w, hop, heq⟩ := Storage.startFileDownload_eq_ok hstart
  obtain ⟨rfl, hfile, hleft, hdata⟩ := FileDownloadOperation.start_io_eq_ok hop
  have hbytes := FileDownloadOperation.toNat_clampLength m.content_length_lt offset.toNat length
  rw [heq]
  constructor
  · intro o ho
    refine ⟨_, (Option.some.inj ho).symm, hfile, ?_⟩
    rw [setOperation_world]
    show op.bytesLeft.toNat ≤ m.content.length - offset.toNat
    rw [hleft, hbytes]
    exact min_le_right ..
  · have hpending : FileDownloadOperation.pending m { op with targets := targets }
        { s.world with filePos := offset.toNat } = m.fileFragments offset length targets seqNo := by
      simp only [FileDownloadOperation.pending, hdata, hleft, hbytes]
      rfl
    rw [← hpending]
    simp only [transferOf, setOperation_world]
    rfl

variable (m s area path offset length targets seqNo) in
/-- **File downloads.** A started download of at most 8192 bytes has frames that carry the part
of the requested range that lies in the file, as fragments up to the announced largest index, and
no frames if the offset is not below the size of the file. Whatever sends are refused, the
frames sent so far are the first of them, and all of them are sent once enough sends were
accepted. -/
theorem exists_isDownloadOf_fileDownload {size : UInt32} (hlen : length.toNat ≤ 8192)
    (hstart : (s.startFileDownload m.io area path offset length targets seqNo).1 = .ok size) :
    ∃ frames, IsDownloadOf (m.fileRange offset length) frames ∧
      (m.content.length ≤ offset.toNat → frames = []) ∧
      (∀ frame ∈ frames, frame.binaryData.maxFragmentIndex.toNat + 1 = frames.length) ∧
      (∀ n, ∃ k, m.framesAfter s.world.sent
        (s.startFileDownload m.io area path offset length targets seqNo).2 n = frames.take k) ∧
      ∀ n, frames.length ≤ Transfer.acceptances s.world.outcomes n →
        m.framesAfter s.world.sent
          (s.startFileDownload m.io area path offset length targets seqNo).2 n = frames := by
  obtain ⟨hkeeps, htransfer⟩ := transferOf_startFileDownload hstart
  have hworld : (s.startFileDownload m.io area path offset length targets seqNo).2.world.sent =
        s.world.sent ∧
      (s.startFileDownload m.io area path offset length targets seqNo).2.world.outcomes =
        s.world.outcomes :=
    ⟨congrArg Transfer.sent htransfer, congrArg Transfer.outcomes htransfer⟩
  have hrest := congrArg Transfer.rest htransfer
  have hiterate (fs op w) (h : StorageAccessOperation.ReadsFile m fs op w) :
      ∃ op' w', op.iterate m.io fs w = (none, op', w') ∧
        StorageAccessOperation.ReadsFile m fs op' w' ∧
        w'.transfer (op'.pendingFile m w') = (w.transfer (op.pendingFile m w)).round := by
    obtain ⟨o, rfl, ho⟩ := h
    obtain ⟨o', w', hit, hin, hround⟩ := FileDownloadOperation.exists_iterate ho
    exact ⟨.fileDownload o', w', by rw [StorageAccessOperation.iterate, hit], ⟨o', rfl, hin⟩,
      hround⟩
  have hstop (fs op w) (h : StorageAccessOperation.ReadsFile m fs op w)
      (hrun : op.running = false) : op.pendingFile m w = [] := by
    obtain ⟨o, rfl, -⟩ := h
    exact FileDownloadOperation.pending_of_not_running hrun
  refine ⟨m.fileFragments offset length targets seqNo, ?_, ?_, ?_, fun n => ?_, fun n hn => ?_⟩
  · exact isDownloadOf_fileFragments m offset targets seqNo hlen
  · exact fileFragments_eq_nil m offset length targets seqNo
  · exact fun frame h => maxFragmentIndex_fileFragments m offset targets seqNo hlen h
  · obtain ⟨k, hk⟩ := exists_sent_iterate hiterate hstop hkeeps n
    refine ⟨k, ?_⟩
    rw [Medium.framesAfter, hk, hworld.1, List.drop_left, hrest]
    rfl
  · have hsent := sent_iterate hiterate hstop hkeeps (n := n) (by rwa [hrest, hworld.2])
    rw [Medium.framesAfter, hsent, hworld.1, List.drop_left, hrest]
    rfl

/-- The download from offset 1 of a file of three bytes. -/
theorem exists_isDownloadOf_fileDownload_three :
    let m : Medium := ⟨fun _ => 0, [1, 2, 3], by decide, .empty⟩
    let s := booted fun n => n % 2 = 1
    let t := (s.startFileDownload m.io .sdCard [0x61] 1 5 1 0).2
    ∃ frames, IsDownloadOf (m.fileRange 1 5) frames ∧
      (m.content.length ≤ (1 : UInt32).toNat → frames = []) ∧
      (∀ frame ∈ frames, frame.binaryData.maxFragmentIndex.toNat + 1 = frames.length) ∧
      (∀ n, ∃ k, m.framesAfter [] t n = frames.take k) ∧
      ∀ n, frames.length ≤ Transfer.acceptances s.world.outcomes n →
        m.framesAfter [] t n = frames := by
  intro m s t
  have hstart : (s.startFileDownload m.io .sdCard [0x61] 1 5 1 0).1 = .ok 3 := rfl
  exact exists_isDownloadOf_fileDownload m s .sdCard [0x61] 1 5 1 0 (by decide) hstart

end FileDownload

end TellerOBC
