import Mathlib.Order.MinMax
import TellerOBC.Foundations.EarlyReturnLoop
import TellerOBC.Core.SmartHandles
import TellerOBC.Storage.Filesystems

/-!
# The storage access operations

The raw read, directory listing and file download operations of `modules/storage.cpp`, which
run over many calls of `iterate` and suspend whenever a telemetry frame cannot be sent. Each
`iterate` is the loop `while (running()) { ... }` of the source; one pass of its body is a
definition of its own, and the fuel of the loop is above the number of passes it can make.

Uninitialised members are zero because the objects are made with `std::make_unique`. A handle
that is reset is closed by its destructor.

## Main definitions

* `TellerOBC.StorageIO`: what the operations call outside of the storage module.
* `TellerOBC.RawStorageReadOperation`, `TellerOBC.DirectoryListingOperation`,
  `TellerOBC.FileDownloadOperation`, each with `start`, `running`, `iterate`, `cancel`.
* `TellerOBC.StorageAccessOperation`: the common base class.
-/

namespace TellerOBC

/-- The calls of the storage operations: littlefs, the raw reads of the drivers, and the
telemetry module. A raw read returns the bytes read or fails; `sendTelemetry` gets the
telemetry targets, the frame type and the payload. -/
structure StorageIO (W : Type) extends LittleFS W where
  readData : StorageArea → UInt64 → ℕ → W → Option (List UInt8) × W
  sendTo : UInt8 → UInt8 → List UInt8 → W → Bool × W

variable {W : Type} (io : StorageIO W)

/-- `FilesystemState::readRawData`: only the two real areas have a driver. -/
def StorageIO.readRawData (area : StorageArea) (address : UInt64) (length : ℕ) (w : W) :
    Option (List UInt8) × W :=
  match area with
  | .flashMemory | .sdCard => io.readData area address length w
  | .unknown => (none, w)

/-- `bytesLeft > limit ? limit : bytesLeft` for the largest fragment of a binary data frame. -/
def fragmentLimit (bytesLeft : UInt16) : UInt8 :=
  if 59 < bytesLeft then 59 else bytesLeft.toUInt8

/-- The largest fragment index of a transfer, computed in the byte that stores it. -/
def maxFragmentIndexFor (length : UInt16) : UInt8 :=
  let n := UInt8.ofNat (length.toNat / maxBinaryDataFragmentLength)
  if 0 < length ∧ length.toNat % maxBinaryDataFragmentLength = 0 then n - 1 else n

/-- The fragment limit is the smaller one of the bytes left and the size of a fragment. -/
theorem toNat_fragmentLimit (bytesLeft : UInt16) :
    (fragmentLimit bytesLeft).toNat = min 59 bytesLeft.toNat := by
  rw [fragmentLimit]
  split
  · next h =>
    rw [UInt16.lt_iff_toNat_lt] at h
    exact (min_eq_left h.le).symm
  · next h =>
    rw [UInt16.lt_iff_toNat_lt, not_lt] at h
    have h59 : bytesLeft.toNat ≤ 59 := h
    rw [UInt16.toNat_toUInt8, Nat.mod_eq_of_lt (by omega), min_eq_right h59]

/-- A full fragment or all bytes left are taken off without wrapping around. -/
theorem toNat_sub_fragmentLimit (bytesLeft : UInt16) :
    (bytesLeft - (fragmentLimit bytesLeft).toUInt16).toNat = bytesLeft.toNat - 59 := by
  have hle : (fragmentLimit bytesLeft).toUInt16 ≤ bytesLeft := by
    rw [UInt16.le_iff_toNat_le, UInt8.toNat_toUInt16, toNat_fragmentLimit]
    exact min_le_right ..
  rw [UInt16.toNat_sub_of_le _ _ hle, UInt8.toNat_toUInt16, toNat_fragmentLimit]
  omega

/-- The largest fragment index is one less than the number of fragments. -/
theorem maxFragmentIndexFor_eq (length : UInt16) :
    maxFragmentIndexFor length = UInt8.ofNat ((length.toNat + 58) / 59 - 1) := by
  have h59 : maxBinaryDataFragmentLength = 59 := rfl
  have hpos : 0 < length ↔ 0 < length.toNat := UInt16.lt_iff_toNat_lt
  rw [maxFragmentIndexFor, h59]
  by_cases hmod : 0 < length.toNat ∧ length.toNat % 59 = 0
  · rw [if_pos ⟨hpos.mpr hmod.1, hmod.2⟩]
    obtain ⟨k, hk⟩ : ∃ k, length.toNat / 59 = k + 1 :=
      Nat.exists_eq_add_one.mpr (by omega)
    rw [show (length.toNat + 58) / 59 = length.toNat / 59 by omega, hk, Nat.add_sub_cancel,
      UInt8.ofNat_add]
    exact UInt8.add_sub_cancel _ _
  · rw [if_neg fun h => hmod ⟨hpos.mp h.1, h.2⟩]
    congr 1
    omega

/-- An encoded frame carries exactly the bytes that were put into its data array. -/
theorem encodeBinaryDataFrame_overwrite (data : BinaryData) {bytes : List UInt8}
    (h : data.dataLength.toNat = bytes.length) (array : List UInt8)
    (harray : data.data = overwrite array bytes) :
    encodeBinaryDataFrame data =
      [data.frameType, data.seqNo, data.maxFragmentIndex, data.fragmentIndex] ++ bytes := by
  rw [encodeBinaryDataFrame, harray, h, take_overwrite]

/-! ### Raw reads -/

/-- State of a raw image read operation from a storage area. -/
structure RawStorageReadOperation where
  targets : UInt8 := 0
  area : StorageArea := .unknown
  address : UInt64 := 0
  bytesLeft : UInt16 := 0
  binaryData : BinaryData := .zero

namespace RawStorageReadOperation

variable (op : RawStorageReadOperation)

/-- Whether the operation is still running. -/
def running : Bool := 0 < op.bytesLeft

/-- Start reading `length` bytes from an address. -/
def start (area : StorageArea) (address : UInt64) (length : UInt16) (seqNo : UInt8) :
    Option Errno × RawStorageReadOperation :=
  if op.running then (some .busy, op)
  else if length = 0 then (some .inval, op)
  else (none,
    { op with
      area := area
      address := address
      bytesLeft := length
      binaryData :=
        { BinaryData.zero with
          frameType := FrameType.storage
          seqNo := seqNo
          fragmentIndex := 0
          maxFragmentIndex := maxFragmentIndexFor length } })

/-- One pass of the loop of `iterate`. -/
def pass (s : RawStorageReadOperation × W) :
    (RawStorageReadOperation × W) × Option (Option Errno) :=
  let op := s.1
  let dataLength := fragmentLimit op.bytesLeft
  match io.readRawData op.area op.address dataLength.toNat s.2 with
  | (none, w) =>
    -- `break`: the read failed, the operation keeps running
    (({ op with binaryData := { op.binaryData with dataLength := dataLength } }, w), some none)
  | (some bytes, w) =>
    let binaryData :=
      { op.binaryData with
        dataLength := dataLength
        data := overwrite op.binaryData.data bytes }
    let op := { op with binaryData := binaryData }
    match io.sendTo op.targets FrameType.binaryData (encodeBinaryDataFrame binaryData) w with
    | (false, w) => ((op, w), some none)
    | (true, w) =>
      (({ op with
          address := op.address + dataLength.toUInt64
          bytesLeft := op.bytesLeft - dataLength.toUInt16
          binaryData := { binaryData with fragmentIndex := binaryData.fragmentIndex + 1 } }, w),
        none)

/-- Run a single iteration of the operation. -/
def iterate (fs : Filesystems) (w : W) : Option Errno × RawStorageReadOperation × W :=
  match fs.getState op.area with
  | none => (some .io, op, w)
  | some _ =>
    EarlyReturnLoop.loop (fun s => s.1.running) (pass io) none (op.bytesLeft.toNat + 1) (op, w)

/-- Cancel the operation. -/
def cancel : RawStorageReadOperation := { op with bytesLeft := 0 }

end RawStorageReadOperation

/-! ### Directory listings -/

/-- State of an operation that reads the list of files from a directory. -/
structure DirectoryListingOperation where
  targets : UInt8 := 0
  start_ : UInt16 := 0
  count : UInt16 := 0
  entryData : DirectoryEntryData := .zero
  dir : Option SmartDirHandle := none

namespace DirectoryListingOperation

variable (op : DirectoryListingOperation)

/-- Whether the operation is still running. -/
def running : Bool := decide (0 < op.count) && op.dir.any SmartDirHandle.hasMoreEntries

/-- Reset the directory handle, which closes it. -/
def resetDir (w : W) : DirectoryListingOperation × W :=
  match op.dir with
  | none => (op, w)
  | some dir => ({ op with dir := none }, dir.destroy io.toLittleFS w)

/-- Cancel the operation. -/
def cancel (w : W) : DirectoryListingOperation × W :=
  let r := op.resetDir io w
  ({ r.1 with count := 0 }, r.2)

/-- Start listing a directory from an entry index. -/
def start (fs : Filesystems) (area : StorageArea) (name : List UInt8) (start_ count : UInt16)
    (seqNo : UInt8) (w : W) : Option Errno × DirectoryListingOperation × W :=
  if op.running then (some .busy, op, w)
  else if count = 0 then (some .inval, op, w)
  else match fs.getState area with
  | none => (some .io, op, w)
  | some s =>
    if !(s.mounted && s.fs) then (some .io, op, w)
    else match io.dirOpen area name w with
    | (.error e, w) => (some (convertLittleFSErrorCode e), op, w)
    | (.ok dd, w) =>
      match SmartDirHandle.seek io.toLittleFS { fs := area, dd := dd } w start_.toNat with
      | (maybeError, dir, w) =>
        let op := { op with dir := some dir }
        match maybeError, dir.hasMoreEntries with
        | some e, true => (some (convertLittleFSErrorCode e), op, w)
        -- a start index that is too large still starts the listing
        | _, _ => (none,
          { op with
            start_ := start_
            count := count
            entryData :=
              { DirectoryEntryData.zero with
                frameType := FrameType.directoryListing
                seqNo := seqNo
                entryIndex := 0
                maxEntryIndex := (count - 1).toUInt8 } }, w)

/-- What a successful start did: the area was mounted, and its directory is open. -/
theorem start_eq_none {io} {op : DirectoryListingOperation} {fs : Filesystems}
    {area : StorageArea} {name : List UInt8} {start_ count : UInt16} {seqNo : UInt8} {w w' : W}
    {op' : DirectoryListingOperation}
    (h : op.start io fs area name start_ count seqNo w = (none, op', w')) :
    ∃ s dd w₁ maybeError dir,
      fs.getState area = some s ∧ s.mounted = true ∧ count ≠ 0 ∧
      io.dirOpen area name w = (.ok dd, w₁) ∧
      SmartDirHandle.seek io.toLittleFS { fs := area, dd := dd } w₁ start_.toNat =
        (maybeError, dir, w') ∧
      op' =
        { op with
          dir := some dir
          start_ := start_
          count := count
          entryData :=
            { DirectoryEntryData.zero with
              frameType := FrameType.directoryListing
              seqNo := seqNo
              maxEntryIndex := (count - 1).toUInt8 } } := by
  rw [start] at h
  split at h
  · simp at h
  split at h
  · simp at h
  next hcount =>
  split at h
  · simp at h
  next s hs =>
  split at h
  · simp at h
  next hmounted =>
  split at h
  · simp at h
  next dd w₁ hopen =>
  dsimp only at h
  split at h
  · simp at h
  simp only [Prod.mk.injEq, true_and] at h
  obtain ⟨rfl, rfl⟩ := h
  have hmount := FilesystemState.mounted_of_not hmounted
  exact ⟨s, dd, w₁, _, _, hs, hmount, hcount, hopen, rfl, rfl⟩

/-- Send the current entry; the second half of a pass of the loop of `iterate`. -/
def sendEntry (s : DirectoryListingOperation × W) :
    (DirectoryListingOperation × W) × Option (Option Errno) :=
  let op := s.1
  match io.sendTo op.targets FrameType.directoryEntry (encodeDirectoryEntryFrame op.entryData)
      s.2 with
  | (false, w) => ((op, w), some none)
  | (true, w) =>
    if op.dir.any SmartDirHandle.hasMoreEntries then
      (({ op with
          entryData := { op.entryData with entryIndex := op.entryData.entryIndex + 1 }
          count := op.count - 1 }, w), none)
    else (op.cancel io w, none)

section SendEntry

variable {io} {op : DirectoryListingOperation} {w w' : W}

theorem sendEntry_accepted (hdir : op.dir.any SmartDirHandle.hasMoreEntries = true)
    (hsend : io.sendTo op.targets FrameType.directoryEntry
      (encodeDirectoryEntryFrame op.entryData) w = (true, w')) :
    sendEntry io (op, w) =
      (({ op with
          entryData := { op.entryData with entryIndex := op.entryData.entryIndex + 1 }
          count := op.count - 1 }, w'), none) := by
  simp only [sendEntry, hsend, hdir, ↓reduceIte]

theorem sendEntry_last (hdir : op.dir.any SmartDirHandle.hasMoreEntries = false)
    (hsend : io.sendTo op.targets FrameType.directoryEntry
      (encodeDirectoryEntryFrame op.entryData) w = (true, w')) :
    sendEntry io (op, w) = (op.cancel io w', none) := by
  simp only [sendEntry, hsend, hdir, Bool.false_eq_true, ↓reduceIte]

theorem sendEntry_refused
    (hsend : io.sendTo op.targets FrameType.directoryEntry
      (encodeDirectoryEntryFrame op.entryData) w = (false, w')) :
    sendEntry io (op, w) = ((op, w'), some none) := by
  simp only [sendEntry, hsend]

end SendEntry

/-- The name of an entry as it is put into the frame, directories with a slash. -/
def entryName (info : DirInfo) : CString :=
  .snprintf maxDirectoryEntryNameLength info.name
    (if info.type = .dir then .slash else .empty)

/-- One pass of the loop of `iterate`. The loop condition excludes a missing handle. -/
def pass (s : DirectoryListingOperation × W) :
    (DirectoryListingOperation × W) × Option (Option Errno) :=
  match s.1.dir with
  | none => (s, some none)
  | some dir =>
    match dir.read io.toLittleFS s.2 with
    | (.error e, dir, w) =>
      let op := { s.1 with dir := some dir }
      if dir.hasMoreEntries then ((op, w), some (some (convertLittleFSErrorCode e)))
      else
        -- the end of the directory is sent as an entry without a name
        sendEntry io ({ op with
          entryData :=
            { op.entryData with
              name := .empty
              maxEntryIndex := op.entryData.entryIndex } }, w)
    | (.ok info, dir, w) =>
      sendEntry io ({ s.1 with
        dir := some dir
        entryData := { s.1.entryData with name := entryName info } }, w)

/-- The operation with the name of an entry put into the buffer. -/
def loadEntry (dir : SmartDirHandle) (info : DirInfo) : DirectoryListingOperation :=
  { op with
    dir := some dir
    entryData := { op.entryData with name := entryName info } }

/-- The operation with the end of the directory put into the buffer. -/
def loadEnd (dir : SmartDirHandle) : DirectoryListingOperation :=
  { op with
    dir := some { dir with ended := true }
    entryData :=
      { op.entryData with
        name := .empty
        maxEntryIndex := op.entryData.entryIndex } }

section Pass

variable {io op} {dir : SmartDirHandle} {w w' : W}

theorem pass_of_dirRead {info : DirInfo} (hdir : op.dir = some dir)
    (hread : io.dirRead dir.fs dir.dd w = (.ok info, w')) :
    pass io (op, w) = sendEntry io (op.loadEntry dir info, w') := by
  simp only [pass, hdir, SmartDirHandle.read, hread]
  rfl

theorem pass_of_noent (hdir : op.dir = some dir)
    (hread : io.dirRead dir.fs dir.dd w = (.error .noent, w')) :
    pass io (op, w) = sendEntry io (op.loadEnd dir, w') := by
  simp only [pass, hdir, SmartDirHandle.read, hread, ↓reduceIte, SmartDirHandle.hasMoreEntries,
    Bool.not_true, Bool.false_eq_true]
  rfl

end Pass

/-- Run a single iteration of the operation. -/
def iterate (w : W) : Option Errno × DirectoryListingOperation × W :=
  EarlyReturnLoop.loop (fun s => s.1.running) (pass io) none (op.count.toNat + 1) (op, w)

end DirectoryListingOperation

/-! ### File downloads -/

/-- State of an operation that downloads a part of a file. -/
structure FileDownloadOperation where
  targets : UInt8 := 0
  bytesLeft : UInt16 := 0
  binaryData : BinaryData := .zero
  file : Option SmartFileHandle := none

namespace FileDownloadOperation

variable (op : FileDownloadOperation)

/-- Whether the operation is still running. -/
def running : Bool := 0 < op.bytesLeft

/-- Reset the file handle, which closes it. -/
def resetFile (w : W) : FileDownloadOperation × W :=
  match op.file with
  | none => (op, w)
  | some file => ({ op with file := none }, file.destroy io.toLittleFS w)

/-- Cancel the operation. -/
def cancel (w : W) : FileDownloadOperation × W :=
  let r := op.resetFile io w
  ({ r.1 with bytesLeft := 0 }, r.2)

/-- The number of bytes that are left to send, given the size of the file, the offset and the
requested length. -/
def clampLength (size : UInt32) (offset : ℕ) (length : UInt16) : UInt16 :=
  if size.toNat ≤ offset then 0
  else if size.toNat - offset < length.toNat then UInt16.ofNat (size.toNat - offset)
  else length

/-- Start downloading from an offset of a file; the size of the file is returned on success. -/
def start (fs : Filesystems) (area : StorageArea) (name : List UInt8) (offset : UInt32)
    (length : UInt16) (seqNo : UInt8) (w : W) :
    Except Errno UInt32 × FileDownloadOperation × W :=
  if op.running then (.error .busy, op, w)
  else if length = 0 then (.error .inval, op, w)
  else match fs.getState area with
  | none => (.error .io, op, w)
  | some s =>
    if !(s.mounted && s.fs) then (.error .io, op, w)
    else match io.open_ area name { rdonly := true } w with
    | (.error e, w) => (.error (convertLittleFSErrorCode e), op, w)
    | (.ok fd, w) =>
      let file : SmartFileHandle := { fs := area, fd := fd }
      let op := { op with file := some file }
      match file.seek io.toLittleFS w offset.toNat with
      | (.error e, w) => (.error (convertLittleFSErrorCode e), op, w)
      | (.ok realOffset, w) =>
        if realOffset ≠ offset.toNat then (.error .io, op, w)
        else match file.size io.toLittleFS w with
        | (.error e, w) => (.error (convertLittleFSErrorCode e), op, w)
        | (.ok n, w) =>
          let size := UInt32.ofNat n
          let length := clampLength size realOffset length
          (.ok size,
            { op with
              bytesLeft := length
              binaryData :=
                { BinaryData.zero with
                  frameType := FrameType.fileDownload
                  seqNo := seqNo
                  fragmentIndex := 0
                  maxFragmentIndex := maxFragmentIndexFor length } }, w)

/-- What a successful start did: the area was mounted, and the opened file is at the offset. -/
theorem start_eq_ok {io} {op : FileDownloadOperation} {fs : Filesystems} {area : StorageArea}
    {name : List UInt8} {offset : UInt32} {length : UInt16} {seqNo : UInt8} {w w' : W}
    {size : UInt32} {op' : FileDownloadOperation}
    (h : op.start io fs area name offset length seqNo w = (.ok size, op', w')) :
    ∃ s fd w₁ w₂ n,
      fs.getState area = some s ∧ s.mounted = true ∧
      io.open_ area name { rdonly := true } w = (.ok fd, w₁) ∧
      SmartFileHandle.seek io.toLittleFS ⟨area, fd⟩ w₁ offset.toNat = (.ok offset.toNat, w₂) ∧
      SmartFileHandle.size io.toLittleFS ⟨area, fd⟩ w₂ = (.ok n, w') ∧
      size = UInt32.ofNat n ∧
      op' =
        { op with
          file := some ⟨area, fd⟩
          bytesLeft := clampLength size offset.toNat length
          binaryData :=
            { BinaryData.zero with
              frameType := FrameType.fileDownload
              seqNo := seqNo
              maxFragmentIndex :=
                maxFragmentIndexFor (clampLength size offset.toNat length) } } := by
  rw [start] at h
  split at h
  · simp at h
  split at h
  · simp at h
  split at h
  · simp at h
  next s hs =>
  split at h
  · simp at h
  next hmounted =>
  split at h
  · simp at h
  next fd w₁ hopen =>
  dsimp only at h
  split at h
  · simp at h
  next realOffset w₂ hseek =>
  split at h
  · simp at h
  next hoffset =>
  split at h
  · simp at h
  next n w₃ hsize =>
  obtain rfl : realOffset = offset.toNat := not_not.mp hoffset
  simp only [Prod.mk.injEq, Except.ok.injEq] at h
  obtain ⟨rfl, rfl, rfl⟩ := h
  have hmount := FilesystemState.mounted_of_not hmounted
  exact ⟨s, fd, w₁, w₂, n, hs, hmount, hopen, hseek, hsize, rfl, rfl⟩

/-- Put the bytes that were read into the buffer of the operation. -/
def loadFragment (bytes : List UInt8) : FileDownloadOperation :=
  let dataLength := UInt8.ofNat bytes.length
  { op with
    binaryData :=
      { op.binaryData with
        dataLength := dataLength
        data := overwrite op.binaryData.data bytes
        -- at the end of the file the last fragment index is shortened
        maxFragmentIndex :=
          if dataLength = 0 then op.binaryData.fragmentIndex else op.binaryData.maxFragmentIndex } }

/-- Send the fragment in the buffer; the second half of a pass of the loop of `iterate`. -/
def sendFragment (file : SmartFileHandle) (s : FileDownloadOperation × ℕ × W) :
    (FileDownloadOperation × ℕ × W) × Option (Option Errno) :=
  let op := s.1
  let pos := s.2.1
  let dataLength := op.binaryData.dataLength
  match io.sendTo op.targets FrameType.binaryData (encodeBinaryDataFrame op.binaryData) s.2.2 with
  | (false, w) =>
    -- rewind the file so that the fragment is read again
    match file.seek io.toLittleFS w pos with
    | (.error _, w) =>
      let r := op.cancel io w
      ((r.1, pos, r.2), some none)
    | (.ok _, w) => ((op, pos, w), some none)
  | (true, w) =>
    if dataLength = 0 then
      let r := op.cancel io w
      ((r.1, pos, r.2), some none)
    else
      (({ op with
          bytesLeft := op.bytesLeft - dataLength.toUInt16
          binaryData :=
            { op.binaryData with fragmentIndex := op.binaryData.fragmentIndex + 1 } },
        pos + dataLength.toNat, w), none)

section SendFragment

variable {io} {op : FileDownloadOperation} {file : SmartFileHandle} {pos : ℕ} {w w' : W}

theorem sendFragment_accepted (hne : op.binaryData.dataLength ≠ 0)
    (hsend : io.sendTo op.targets FrameType.binaryData (encodeBinaryDataFrame op.binaryData) w =
      (true, w')) :
    sendFragment io file (op, pos, w) =
      (({ op with
          bytesLeft := op.bytesLeft - op.binaryData.dataLength.toUInt16
          binaryData :=
            { op.binaryData with fragmentIndex := op.binaryData.fragmentIndex + 1 } },
        pos + op.binaryData.dataLength.toNat, w'), none) := by
  simp only [sendFragment, hsend, hne, ↓reduceIte]

theorem sendFragment_refused {n : ℕ} {w'' : W}
    (hsend : io.sendTo op.targets FrameType.binaryData (encodeBinaryDataFrame op.binaryData) w =
      (false, w'))
    (hseek : file.seek io.toLittleFS w' pos = (.ok n, w'')) :
    sendFragment io file (op, pos, w) = ((op, pos, w''), some none) := by
  simp only [sendFragment, hsend, hseek]

end SendFragment

/-- One pass of the loop of `iterate` on the open file, with the position of the source. -/
def pass (file : SmartFileHandle) (s : FileDownloadOperation × ℕ × W) :
    (FileDownloadOperation × ℕ × W) × Option (Option Errno) :=
  match file.read io.toLittleFS s.2.2 (fragmentLimit s.1.bytesLeft).toNat with
  | (.error _, w) =>
    let r := s.1.cancel io w
    ((r.1, s.2.1, r.2), some none)
  | (.ok bytes, w) => sendFragment io file (s.1.loadFragment bytes, s.2.1, w)

/-- Run a single iteration of the operation. The manager drops an operation that lost its file,
so the file is there whenever this is called. -/
def iterate (w : W) : Option Errno × FileDownloadOperation × W :=
  match op.file with
  | none => (none, op, w)
  | some file =>
    match file.tell io.toLittleFS w with
    | (.error e, w) =>
      let r := op.cancel io w
      (some (convertLittleFSErrorCode e), r.1, r.2)
    | (.ok pos, w) =>
      let r := EarlyReturnLoop.loop (fun s => s.1.running) (pass io file) none
        (op.bytesLeft.toNat + 1) (op, pos, w)
      (r.1, r.2.1, r.2.2.2)

end FileDownloadOperation

/-! ### The common base class -/

/-- A storage access operation of any kind. -/
inductive StorageAccessOperation where
  | rawStorageRead (op : RawStorageReadOperation)
  | directoryListing (op : DirectoryListingOperation)
  | fileDownload (op : FileDownloadOperation)

namespace StorageAccessOperation

/-- Whether the operation is still running. -/
def running : StorageAccessOperation → Bool
  | rawStorageRead op => op.running
  | directoryListing op => op.running
  | fileDownload op => op.running

/-- Run a single iteration of the operation. -/
def iterate (fs : Filesystems) (w : W) :
    StorageAccessOperation → Option Errno × StorageAccessOperation × W
  | rawStorageRead op => let r := op.iterate io fs w; (r.1, rawStorageRead r.2.1, r.2.2)
  | directoryListing op => let r := op.iterate io w; (r.1, directoryListing r.2.1, r.2.2)
  | fileDownload op => let r := op.iterate io w; (r.1, fileDownload r.2.1, r.2.2)

/-- Cancel the operation, which closes its handle. -/
def cancel (w : W) : StorageAccessOperation → StorageAccessOperation × W
  | rawStorageRead op => (rawStorageRead op.cancel, w)
  | directoryListing op => let r := op.cancel io w; (directoryListing r.1, r.2)
  | fileDownload op => let r := op.cancel io w; (fileDownload r.1, r.2)

/-- Set the telemetry targets of the operation. -/
def setTelemetryTargets (targets : UInt8) : StorageAccessOperation → StorageAccessOperation
  | rawStorageRead op => rawStorageRead { op with targets := targets }
  | directoryListing op => directoryListing { op with targets := targets }
  | fileDownload op => fileDownload { op with targets := targets }

/-- The file system that the handle of the operation was opened on, if it has one. -/
def handleArea : StorageAccessOperation → Option StorageArea
  | rawStorageRead _ => none
  | directoryListing op => op.dir.map SmartDirHandle.fs
  | fileDownload op => op.file.map SmartFileHandle.fs

end StorageAccessOperation

end TellerOBC
