import TellerOBC.Storage.Operations

/-!
# The storage operation manager

`StorageOperationManager` of `modules/storage.cpp`, which runs at most one storage access
operation, the functions that start operations, and one pass of the endless loop of the storage
reader task. The atomic parts of `iterate` and of the start functions are definitions of their
own, because the two tasks interleave at that granularity.

## Main definitions

* `TellerOBC.StorageOperationManager`, `TellerOBC.Storage`: the manager; the state of the
  storage module and of the world below it.
* `TellerOBC.Storage.iterate`, `TellerOBC.Storage.readerIteration`: the reader task.
* `TellerOBC.Storage.startRawStorageDownload`, `TellerOBC.Storage.startDirectoryListing`,
  `TellerOBC.Storage.startFileDownload`: the requests of the command task.
-/

namespace TellerOBC

/-- Object containing the state of storage access operations. -/
structure StorageOperationManager where
  operation : Option StorageAccessOperation := none
  seqNo : UInt8 := 0
  targets : UInt8 := 0

/-- Whether an operation is installed and running. -/
def StorageOperationManager.running (m : StorageOperationManager) : Bool :=
  m.operation.any StorageAccessOperation.running

/-- The state of the storage module, over a world `W` below littlefs and the telemetry. -/
structure Storage (W : Type) where
  filesystems : Filesystems
  access : StorageOperationManager
  world : W

namespace Storage

variable {W : Type} (io : StorageIO W) (s : Storage W)

/-- `_setOperation`: cancel the current operation and install another one, or none. -/
def setOperation (op : Option StorageAccessOperation) : Storage W :=
  let w := match s.access.operation with
    | none => s.world
    | some old => (old.cancel io s.world).2
  { s with
    access :=
      { s.access with operation := op.map fun op => op.setTelemetryTargets s.access.targets }
    world := w }

/-- `cancel`: drop the current operation. -/
def cancel : Storage W := s.setOperation io none

/-! ### The reader task -/

/-- Run one iteration of the current operation; nothing happens if there is none. -/
def iterateOperation : Option Errno × Storage W :=
  match s.access.operation with
  | none => (none, s)
  | some op =>
    let r := op.iterate io s.filesystems s.world
    (r.1, { s with access := { s.access with operation := some r.2.1 }, world := r.2.2 })

/-- `StorageOperationManager::iterate`: run the current operation and drop it when it failed or
is not running any more. -/
def iterate : Option Errno × Storage W :=
  match s.access.operation with
  | none => (none, s)
  | some _ =>
    match s.iterateOperation io with
    | (some e, s) => (some e, s.setOperation io none)
    | (none, s) => (none, if s.access.running then s else s.setOperation io none)

/-- One pass of the endless loop of `runStorageReader`. -/
def readerIteration : Storage W :=
  match s.iterate io with
  | (some _, s) => s.cancel io
  | (none, s) => s

theorem readerIteration_of_none (h : s.access.operation = none) : s.readerIteration io = s := by
  simp only [readerIteration, iterate, h]

/-- An iteration without error: the operation stays installed as long as it is running. -/
theorem readerIteration_of_iterate {op op' : StorageAccessOperation} {w : W}
    (hop : s.access.operation = some op)
    (h : op.iterate io s.filesystems s.world = (none, op', w)) :
    s.readerIteration io =
      let t := { s with access := { s.access with operation := some op' }, world := w }
      if op'.running then t else t.setOperation io none := by
  simp only [readerIteration, iterate, iterateOperation, hop, h,
    StorageOperationManager.running, Option.any_some]
  rfl

/-! ### Starting operations -/

/-- The first steps of a request that found no running operation: remember where the answers
go and the sequence number of the request. -/
def prepare (targets seqNo : UInt8) : Storage W :=
  { s with access := { s.access with targets := targets, seqNo := seqNo } }

/-- Construct and start a raw read for the manager, without installing it. -/
def makeRawStorageRead (area : StorageArea) (address : UInt64) (length : UInt16) :
    Option Errno × StorageAccessOperation × Storage W :=
  let r := RawStorageReadOperation.start {} area address length s.access.seqNo
  (r.1, .rawStorageRead r.2, s)

/-- Construct and start a directory listing for the manager, without installing it. A listing
that does not start is destroyed, which closes its handle. -/
def makeDirectoryListing (area : StorageArea) (name : List UInt8) (start_ count : UInt16) :
    Option Errno × StorageAccessOperation × Storage W :=
  let r := DirectoryListingOperation.start io {} s.filesystems area name start_ count
    s.access.seqNo s.world
  match r with
  | (none, op, w) => (none, .directoryListing op, { s with world := w })
  | (some e, op, w) =>
    (some e, .directoryListing op, { s with world := (op.resetDir io w).2 })

/-- Construct and start a file download for the manager, without installing it. A download
that does not start is destroyed, which closes its handle. -/
def makeFileDownload (area : StorageArea) (path : List UInt8) (offset : UInt32)
    (length : UInt16) : Except Errno UInt32 × StorageAccessOperation × Storage W :=
  let r := FileDownloadOperation.start io {} s.filesystems area path offset length
    s.access.seqNo s.world
  match r with
  | (.ok size, op, w) => (.ok size, .fileDownload op, { s with world := w })
  | (.error e, op, w) =>
    (.error e, .fileDownload op, { s with world := (op.resetFile io w).2 })

/-- `startRawStorageDownload`. -/
def startRawStorageDownload (area : StorageArea) (address : UInt64) (length : UInt16)
    (targets seqNo : UInt8) : Option Errno × Storage W :=
  if s.access.running then (some .busy, s)
  else match (s.prepare targets seqNo).makeRawStorageRead area address length with
    | (some e, _, s) => (some e, s)
    | (none, op, s) => (none, s.setOperation io (some op))

/-- `startDirectoryListing`. -/
def startDirectoryListing (area : StorageArea) (name : List UInt8) (start_ count : UInt16)
    (targets seqNo : UInt8) : Option Errno × Storage W :=
  if s.access.running then (some .busy, s)
  else match (s.prepare targets seqNo).makeDirectoryListing io area name start_ count with
    | (some e, _, s) => (some e, s)
    | (none, op, s) => (none, s.setOperation io (some op))

/-- `startFileDownload`. -/
def startFileDownload (area : StorageArea) (path : List UInt8) (offset : UInt32)
    (length : UInt16) (targets seqNo : UInt8) : Except Errno UInt32 × Storage W :=
  if s.access.running then (.error .busy, s)
  else match (s.prepare targets seqNo).makeFileDownload io area path offset length with
    | (.error e, _, s) => (.error e, s)
    | (.ok size, op, s) => (.ok size, s.setOperation io (some op))

/-! ### Accepted requests -/

variable {io s} {area : StorageArea} {length : UInt16} {targets seqNo : UInt8}

/-- An accepted request of a raw download installs the operation that it describes. -/
theorem startRawStorageDownload_eq_none {address : UInt64}
    (h : (s.startRawStorageDownload io area address length targets seqNo).1 = none) :
    (s.startRawStorageDownload io area address length targets seqNo).2 =
      (s.prepare targets seqNo).setOperation io (some (.rawStorageRead
        { area := area
          address := address
          bytesLeft := length
          binaryData :=
            { BinaryData.zero with
              frameType := FrameType.storage
              seqNo := seqNo
              maxFragmentIndex := maxFragmentIndexFor length } })) := by
  rw [startRawStorageDownload] at h ⊢
  split at h
  · simp at h
  next hbusy =>
  rw [if_neg hbusy]
  have hidle : RawStorageReadOperation.running {} = false := rfl
  simp only [makeRawStorageRead, RawStorageReadOperation.start, hidle, Bool.false_eq_true,
    ↓reduceIte] at h ⊢
  by_cases hlen : length = 0
  · simp [hlen] at h
  · simp only [hlen, ↓reduceIte]
    rfl

/-- An accepted request of a directory listing installs a listing that was started. -/
theorem startDirectoryListing_eq_none {name : List UInt8} {start_ count : UInt16}
    (h : (s.startDirectoryListing io area name start_ count targets seqNo).1 = none) :
    ∃ op w, DirectoryListingOperation.start io {} s.filesystems area name start_ count seqNo
        s.world = (none, op, w) ∧
      (s.startDirectoryListing io area name start_ count targets seqNo).2 =
        ({ s.prepare targets seqNo with world := w } : Storage W).setOperation io
          (some (.directoryListing op)) := by
  rw [startDirectoryListing] at h ⊢
  split at h
  · simp at h
  next hbusy =>
  rw [if_neg hbusy]
  simp only [makeDirectoryListing, prepare] at h ⊢
  rcases hstart : DirectoryListingOperation.start io {} s.filesystems area name start_ count
    seqNo s.world with ⟨_ | e, op, w⟩
  · exact ⟨op, w, rfl, rfl⟩
  · simp [hstart] at h

/-- An accepted request of a file download installs a download that was started. -/
theorem startFileDownload_eq_ok {path : List UInt8} {offset size : UInt32}
    (h : (s.startFileDownload io area path offset length targets seqNo).1 = .ok size) :
    ∃ op w, FileDownloadOperation.start io {} s.filesystems area path offset length seqNo
        s.world = (.ok size, op, w) ∧
      (s.startFileDownload io area path offset length targets seqNo).2 =
        ({ s.prepare targets seqNo with world := w } : Storage W).setOperation io
          (some (.fileDownload op)) := by
  rw [startFileDownload] at h ⊢
  split at h
  · simp at h
  next hbusy =>
  rw [if_neg hbusy]
  simp only [makeFileDownload, prepare] at h ⊢
  rcases hstart : FileDownloadOperation.start io {} s.filesystems area path offset length
    seqNo s.world with ⟨e | n, op, w⟩
  · simp [hstart] at h
  · simp only [hstart, Except.ok.injEq] at h
    subst h
    exact ⟨op, w, rfl, rfl⟩

end Storage

end TellerOBC
