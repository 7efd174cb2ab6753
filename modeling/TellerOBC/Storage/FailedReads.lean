import TellerOBC.Storage.Medium

/-!
# Downloads whose storage cannot be read

A raw download and a file download read one fragment in each pass of their loop. Where the read
fails, both leave the loop by `break`, so `iterate` returns no error. The raw download is still
running then and is tried again; while its storage cannot be read it stays installed, and every
request of another operation is refused. The file download was cancelled, so the manager drops it
like one that has sent its last fragment. Neither way the caller learns of the error, which a
directory listing reports.

## Main definitions

* `TellerOBC.StorageAccessOperation.ReadFails`: a read fails in a call of `iterate`.
* `TellerOBC.ReportsFailure`: what the call should do then.

## Main results

* `TellerOBC.RawStorageReadOperation.iterate_of_readFails`,
  `TellerOBC.FileDownloadOperation.iterate_of_readFails`: what the two operations do.
* `TellerOBC.Storage.not_reportsFailure`: neither reports the failure.
* `TellerOBC.Storage.busy_of_unreadable`: a raw download of an area that cannot be read refuses
  all other requests for ever.
-/

namespace TellerOBC

open EarlyReturnLoop Relation

variable {W : Type} (io : StorageIO W)

/-! ### Raw reads -/

namespace RawStorageReadOperation

variable (op : RawStorageReadOperation)

/-- In a call of `iterate`, the read of some fragment fails. -/
def ReadFails (fs : Filesystems) (w : W) : Prop :=
  ∃ s t w', fs.getState op.area = some s ∧
    ReflTransGen (Pass (fun s => s.1.running) (pass io)) (op, w) t ∧ t.1.running = true ∧
    io.readRawData t.1.area t.1.address (fragmentLimit t.1.bytesLeft).toNat t.2 = (none, w')

variable {io} {op}

/-- A pass that goes on takes a fragment off the bytes that are left. -/
theorem bytesLeft_of_pass {op' : RawStorageReadOperation} {w w' : W}
    (h : pass io (op, w) = ((op', w'), none)) :
    op'.bytesLeft = op.bytesLeft - (fragmentLimit op.bytesLeft).toUInt16 := by
  rw [pass] at h
  split at h
  · simp at h
  · dsimp only at h
    split at h
    · simp at h
    · simp only [Prod.mk.injEq, and_true] at h
      rw [← h.1]

theorem toNat_bytesLeft_lt {s t : RawStorageReadOperation × W}
    (h : Pass (fun s => s.1.running) (pass io) s t) :
    t.1.bytesLeft.toNat < s.1.bytesLeft.toNat := by
  obtain ⟨op, w⟩ := s
  have hpos : 0 < op.bytesLeft.toNat := by
    simpa [running, UInt16.lt_iff_toNat_lt] using h.1
  rw [bytesLeft_of_pass h.2, toNat_sub_fragmentLimit]
  exact Nat.sub_lt hpos (by decide)

/-- The loop ends where a read fails, and the download stays where it was. -/
theorem iterate_of_passes {fs : Filesystems} {s : FilesystemState} {o : RawStorageReadOperation}
    {w v w' : W} (hs : fs.getState op.area = some s)
    (hpasses : ReflTransGen (Pass (fun s => s.1.running) (pass io)) (op, w) (o, v))
    (hrun : o.running = true)
    (hread : io.readRawData o.area o.address (fragmentLimit o.bytesLeft).toNat v = (none, w')) :
    op.iterate io fs w =
      (none,
        { o with binaryData := { o.binaryData with dataLength := fragmentLimit o.bytesLeft } },
        w') := by
  have hpass : pass io (o, v) =
      (({ o with binaryData := { o.binaryData with dataLength := fragmentLimit o.bytesLeft } },
        w'), some none) := by
    simp only [pass, hread]
  rw [iterate, hs]
  exact loop_of_passes (fun s => s.1.bytesLeft.toNat) (fun _ _ => toNat_bytesLeft_lt) hpasses hrun
    hpass (Nat.lt_succ_self _)

/-- **A raw download whose read fails** returns no error and is still running. -/
theorem iterate_of_readFails {fs : Filesystems} {w : W} (h : op.ReadFails io fs w) :
    (op.iterate io fs w).1 = none ∧ (op.iterate io fs w).2.1.running = true := by
  obtain ⟨s, ⟨o, v⟩, w', hs, hpasses, hrun, hread⟩ := h
  rw [iterate_of_passes hs hpasses hrun hread]
  exact ⟨rfl, hrun⟩

end RawStorageReadOperation

/-! ### File downloads -/

namespace FileDownloadOperation

variable (op : FileDownloadOperation)

/-- In a call of `iterate`, the read of some fragment fails. -/
def ReadFails (w : W) : Prop :=
  ∃ file pos w₁ t e w', op.file = some file ∧ file.tell io.toLittleFS w = (.ok pos, w₁) ∧
    ReflTransGen (Pass (fun s => s.1.running) (pass io file)) (op, pos, w₁) t ∧
    t.1.running = true ∧
    file.read io.toLittleFS t.2.2 (fragmentLimit t.1.bytesLeft).toNat = (.error e, w')

/-- littlefs reads at most the number of bytes that it is asked for. -/
def ReadsAtMost : Prop :=
  ∀ fs fd n w bytes w', io.read fs fd n w = (.ok bytes, w') → bytes.length ≤ n

variable {io} {op}

/-- A cancelled download is not running. -/
@[simp] theorem running_cancel (w : W) : (op.cancel io w).1.running = false := rfl

/-- A pass that goes on takes the bytes that were read off the bytes that are left. -/
theorem exists_of_pass {file : SmartFileHandle} {op' : FileDownloadOperation} {pos pos' : ℕ}
    {w w' : W} (h : pass io file (op, pos, w) = ((op', pos', w'), none)) :
    ∃ bytes w₁, file.read io.toLittleFS w (fragmentLimit op.bytesLeft).toNat = (.ok bytes, w₁) ∧
      UInt8.ofNat bytes.length ≠ 0 ∧
      op'.bytesLeft = op.bytesLeft - (UInt8.ofNat bytes.length).toUInt16 := by
  rw [pass] at h
  split at h
  · simp at h
  next bytes w₁ hread =>
  refine ⟨bytes, w₁, hread, ?_⟩
  rw [sendFragment] at h
  dsimp only at h
  split at h
  · split at h <;> simp at h
  split at h
  · simp at h
  next hne =>
  simp only [Prod.mk.injEq, and_true] at h
  exact ⟨hne, by rw [← h.1]; rfl⟩

theorem toNat_bytesLeft_lt (hio : ReadsAtMost io) {file : SmartFileHandle}
    {s t : FileDownloadOperation × ℕ × W}
    (h : Pass (fun s => s.1.running) (pass io file) s t) :
    t.1.bytesLeft.toNat < s.1.bytesLeft.toNat := by
  obtain ⟨op, pos, w⟩ := s
  obtain ⟨op', pos', w'⟩ := t
  obtain ⟨bytes, w₁, hread, hne, hleft⟩ := exists_of_pass h.2
  have hlen : bytes.length ≤ min 59 op.bytesLeft.toNat := by
    rw [← toNat_fragmentLimit]
    exact hio _ _ _ _ _ _ hread
  have hbyte : (UInt8.ofNat bytes.length).toUInt16.toNat = bytes.length := by
    rw [UInt8.toNat_toUInt16, UInt8.toNat_ofNat']
    omega
  have hpos : bytes.length ≠ 0 := fun hzero => hne (by rw [hzero]; rfl)
  have hle : (UInt8.ofNat bytes.length).toUInt16 ≤ op.bytesLeft := by
    rw [UInt16.le_iff_toNat_le, hbyte]
    omega
  dsimp only
  rw [hleft, UInt16.toNat_sub_of_le _ _ hle, hbyte]
  omega

/-- The loop is only left without an error. -/
theorem eq_none_of_pass {file : SmartFileHandle} {s t : FileDownloadOperation × ℕ × W}
    {r : Option Errno} (h : pass io file s = (t, some r)) : r = none := by
  rw [pass] at h
  split at h
  · exact (Option.some.inj (Prod.mk.inj h).2).symm
  rw [sendFragment] at h
  dsimp only at h
  split at h
  · split at h <;> exact (Option.some.inj (Prod.mk.inj h).2).symm
  split at h
  · exact (Option.some.inj (Prod.mk.inj h).2).symm
  · exact absurd (Prod.mk.inj h).2 (by simp)

theorem fst_iterate_of_readFails {w : W} (h : op.ReadFails io w) : (op.iterate io w).1 = none := by
  obtain ⟨file, pos, w₁, -, -, -, hfile, htell, -⟩ := h
  rw [iterate, hfile]
  dsimp only
  rw [htell]
  exact loop_fst (fun _ _ _ => eq_none_of_pass) _ _

/-- **A file download whose read fails** returns no error, and it is not running any more. -/
theorem iterate_of_readFails (hio : ReadsAtMost io) {w : W} (h : op.ReadFails io w) :
    (op.iterate io w).1 = none ∧ (op.iterate io w).2.1.running = false := by
  refine ⟨fst_iterate_of_readFails h, ?_⟩
  obtain ⟨file, pos, w₁, ⟨o, pos', v⟩, e, w', hfile, htell, hpasses, hrun, hread⟩ := h
  have hpass : pass io file (o, pos', v) =
      (((o.cancel io w').1, pos', (o.cancel io w').2), some none) := by
    simp only [pass, hread]
  have hloop : loop (fun s => s.1.running) (pass io file) none (op.bytesLeft.toNat + 1)
      (op, pos, w₁) = _ :=
    loop_of_passes (fun s => s.1.bytesLeft.toNat) (fun _ _ => toNat_bytesLeft_lt hio) hpasses
      hrun hpass (Nat.lt_succ_self _)
  rw [iterate, hfile]
  dsimp only
  rw [htell]
  dsimp only
  rw [hloop]
  rfl

end FileDownloadOperation

/-! ### Both operations and the manager -/

/-- In a call of `iterate` of a download, the read of some fragment fails. -/
def StorageAccessOperation.ReadFails (fs : Filesystems) (w : W) : StorageAccessOperation → Prop
  | rawStorageRead op => op.ReadFails io fs w
  | directoryListing _ => False
  | fileDownload op => op.ReadFails io w

/-- The call reports an error, and the operation is not running any more. -/
def ReportsFailure (r : Option Errno × StorageAccessOperation × W) : Prop :=
  r.1 ≠ none ∧ r.2.1.running = false

theorem StorageAccessOperation.fst_iterate_of_readFails {io} {op : StorageAccessOperation}
    {fs : Filesystems} {w : W} (h : op.ReadFails io fs w) : (op.iterate io fs w).1 = none := by
  cases op with
  | rawStorageRead op => exact (RawStorageReadOperation.iterate_of_readFails h).1
  | directoryListing op => exact h.elim
  | fileDownload op => exact FileDownloadOperation.fst_iterate_of_readFails h

namespace Storage

variable {io} {s : Storage W} {op : StorageAccessOperation}

/-- **No failed read is reported.** A call of `iterate` in which a read fails does not report an
error, neither the one of the download nor the one of the manager. -/
theorem not_reportsFailure (hop : s.access.operation = some op)
    (h : op.ReadFails io s.filesystems s.world) :
    ¬ ReportsFailure (op.iterate io s.filesystems s.world) ∧ (s.iterate io).1 = none := by
  have hnone := op.fst_iterate_of_readFails h
  refine ⟨fun hreports => hreports.1 hnone, ?_⟩
  simp only [iterate, iterateOperation, hop]
  rw [hnone]

end Storage

namespace Medium

/-- The medium with a defect: nothing can be read from the given position on. -/
def damagedFrom (m : Medium) (n : ℕ) : StorageIO State :=
  { m.io with
    readData := fun _ address length w =>
      (if n ≤ address.toNat then none else some (m.deviceBytes address length), w)
    read := fun area fd length w =>
      if n ≤ w.filePos then (.error .io, w) else m.io.read area fd length w }

/-- A raw download of two fragments from the SD card. -/
def twoFragments : RawStorageReadOperation := { area := .sdCard, bytesLeft := 118 }

/-- A download of two fragments from a file on the SD card. -/
def twoFileFragments : FileDownloadOperation := { bytesLeft := 118, file := some ⟨.sdCard, 0⟩ }

/-- A medium with a file of two fragments. -/
def withFile : Medium :=
  { blank with content := List.replicate 118 0, content_length_lt := by decide }

theorem readFails_twoFragments :
    (StorageAccessOperation.rawStorageRead twoFragments).ReadFails (withFile.damagedFrom 59)
      .mountedAtBoot { outcomes := fun _ => true } :=
  ⟨_, _, _, rfl, .single ⟨rfl, rfl⟩, rfl, rfl⟩

theorem readFails_twoFileFragments :
    (StorageAccessOperation.fileDownload twoFileFragments).ReadFails (withFile.damagedFrom 59)
      .mountedAtBoot { outcomes := fun _ => true } :=
  ⟨_, _, _, _, _, _, rfl, rfl, .single ⟨rfl, rfl⟩, rfl, rfl⟩

end Medium

namespace Storage

open Medium

theorem not_reportsFailure_twoFragments :
    ¬ ReportsFailure ((StorageAccessOperation.rawStorageRead twoFragments).iterate
        (withFile.damagedFrom 59) .mountedAtBoot { outcomes := fun _ => true }) ∧
      (Storage.iterate (withFile.damagedFrom 59)
        { filesystems := .mountedAtBoot
          access := { operation := some (.rawStorageRead twoFragments) }
          world := { outcomes := fun _ => true } }).1 = none :=
  not_reportsFailure (s := { access := { operation := some (.rawStorageRead twoFragments) }, .. })
    rfl readFails_twoFragments

/-- Of neither kind of download every failed read is reported: here the first fragment was sent,
and the second one cannot be read. -/
theorem not_forall_reportsFailure :
    (¬ ∀ (op : RawStorageReadOperation) (fs : Filesystems) (w : State),
      (StorageAccessOperation.rawStorageRead op).ReadFails (withFile.damagedFrom 59) fs w →
        ReportsFailure
          ((StorageAccessOperation.rawStorageRead op).iterate (withFile.damagedFrom 59) fs w)) ∧
    (¬ ∀ (op : FileDownloadOperation) (fs : Filesystems) (w : State),
      (StorageAccessOperation.fileDownload op).ReadFails (withFile.damagedFrom 59) fs w →
        ReportsFailure
          ((StorageAccessOperation.fileDownload op).iterate (withFile.damagedFrom 59) fs w)) :=
  ⟨fun h => (h _ _ _ readFails_twoFragments).1 rfl,
    fun h => (h _ _ _ readFails_twoFileFragments).1 rfl⟩

/-! ### Areas that cannot be read -/

variable {io} {s : Storage W} {op : StorageAccessOperation}

/-- A raw download is installed whose next fragment cannot be read. -/
def UnreadableDownload (io : StorageIO W) (s : Storage W) : Prop :=
  ∃ op st, s.access.operation = some (.rawStorageRead op) ∧ op.running = true ∧
    s.filesystems.getState op.area = some st ∧
    ∀ w, (io.readRawData op.area op.address (fragmentLimit op.bytesLeft).toNat w).1 = none

theorem running_of_unreadableDownload (h : s.UnreadableDownload io) :
    s.access.running = true := by
  obtain ⟨op, -, hop, hrun, -, -⟩ := h
  rw [StorageOperationManager.running, hop]
  exact hrun

/-- **The step lemma.** An iteration of the reader task leaves the download as it is. -/
theorem unreadableDownload_readerIteration (h : s.UnreadableDownload io) :
    (s.readerIteration io).UnreadableDownload io := by
  obtain ⟨op, st, hop, hrun, hst, hread⟩ := h
  have hiterate := RawStorageReadOperation.iterate_of_passes hst .refl hrun
    (Prod.ext (hread s.world) rfl)
  rw [readerIteration_of_iterate io s hop (by rw [StorageAccessOperation.iterate, hiterate])]
  dsimp only
  split
  · exact ⟨_, st, rfl, hrun, hst, hread⟩
  · next hstop => exact absurd hrun hstop

/-- **A raw download that cannot be read refuses everything.** After any number of iterations of
the reader task every request of an operation fails with `EBUSY` and changes nothing. -/
theorem busy_of_unreadable (h : s.UnreadableDownload io) (n : ℕ) :
    let t := (fun s => s.readerIteration io)^[n] s
    (∀ area address length targets seqNo,
      t.startRawStorageDownload io area address length targets seqNo = (some .busy, t)) ∧
    (∀ area name start_ count targets seqNo,
      t.startDirectoryListing io area name start_ count targets seqNo = (some .busy, t)) ∧
    (∀ area path offset length targets seqNo,
      t.startFileDownload io area path offset length targets seqNo = (.error .busy, t)) := by
  have hinv : ((fun s => s.readerIteration io)^[n] s).UnreadableDownload io := by
    induction n generalizing s with
    | zero => exact h
    | succ n ih => exact ih (unreadableDownload_readerIteration h)
  have hrun := running_of_unreadableDownload hinv
  exact ⟨fun _ _ _ _ _ => if_pos hrun, fun _ _ _ _ _ _ => if_pos hrun,
    fun _ _ _ _ _ _ => if_pos hrun⟩

end Storage

end TellerOBC
