import TellerOBC.Storage.Manager

/-!
# What operations do to the world

A storage access operation touches the world below it only through calls on its open handle,
raw reads and sends. A reflexive and transitive relation between worlds that all these calls
respect (`TellerOBC.HandleCalls`) is therefore respected by whole iterations and by dropping an
operation, and the handle of an operation stays on its file system. The reader task and the start
functions inherit this from the operations.

## Main definitions

* `TellerOBC.HandleCalls`: a relation that the calls on handles of some areas respect.
* `TellerOBC.StorageAccessOperation.HandleOn`: its handle, if any, is on such an area.

## Main results

* `TellerOBC.StorageAccessOperation.iterate_respects`,
  `TellerOBC.StorageAccessOperation.cancel_respects`.
* `TellerOBC.Storage.readerIteration_respects`, `TellerOBC.Storage.startDirectoryListing_respects`,
  `TellerOBC.Storage.startFileDownload_respects`: the steps of the two tasks on the manager.
-/

namespace TellerOBC

variable {W : Type} {io : StorageIO W} {R : W → W → Prop} {P : StorageArea → Prop}

/-- The calls that an operation with a handle on one of the areas makes respect a relation. -/
structure HandleCalls (io : StorageIO W) (R : W → W → Prop) (P : StorageArea → Prop) : Prop where
  refl : ∀ w, R w w
  trans : ∀ {u v w}, R u v → R v w → R u w
  open_ : ∀ {a name flags w r w'}, P a → io.open_ a name flags w = (r, w') → R w w'
  dirOpen : ∀ {a name w r w'}, P a → io.dirOpen a name w = (r, w') → R w w'
  close : ∀ {a fd w r w'}, P a → io.close a fd w = (r, w') → R w w'
  read : ∀ {a fd n w r w'}, P a → io.read a fd n w = (r, w') → R w w'
  tell : ∀ {a fd w r w'}, P a → io.tell a fd w = (r, w') → R w w'
  size : ∀ {a fd w r w'}, P a → io.size a fd w = (r, w') → R w w'
  seek : ∀ {a fd offset w r w'}, P a → io.seek a fd offset w = (r, w') → R w w'
  dirClose : ∀ {a dd w r w'}, P a → io.dirClose a dd w = (r, w') → R w w'
  dirRead : ∀ {a dd w r w'}, P a → io.dirRead a dd w = (r, w') → R w w'
  dirRewind : ∀ {a dd w r w'}, P a → io.dirRewind a dd w = (r, w') → R w w'
  readData : ∀ {a address n w r w'}, io.readData a address n w = (r, w') → R w w'
  sendTo : ∀ {targets frameType payload w r w'},
    io.sendTo targets frameType payload w = (r, w') → R w w'

theorem isMounted_of_getState {fs : Filesystems} {area : StorageArea} {s : FilesystemState}
    (hs : fs.getState area = some s) (hmounted : ¬(!(s.mounted && s.fs)) = true) :
    fs.isMounted area = true := by
  rw [Filesystems.isMounted, hs, Option.any_some, FilesystemState.mounted_of_not hmounted]

/-! ### Raw reads -/

namespace RawStorageReadOperation

theorem pass_respects (h : HandleCalls io R P) (op : RawStorageReadOperation) (w : W) :
    R w (pass io (op, w)).1.2 := by
  have hread {r w'} (heq : io.readRawData op.area op.address
      (fragmentLimit op.bytesLeft).toNat w = (r, w')) : R w w' := by
    unfold StorageIO.readRawData at heq
    split at heq
    · exact h.readData heq
    · exact h.readData heq
    · rw [← (Prod.mk.inj heq).2]
      exact h.refl w
  rw [pass]
  dsimp only
  split
  · next heq => exact hread heq
  · next heq =>
    split
    · next hsend => exact h.trans (hread heq) (h.sendTo hsend)
    · next hsend => exact h.trans (hread heq) (h.sendTo hsend)

theorem iterate_respects (h : HandleCalls io R P) (op : RawStorageReadOperation)
    (fs : Filesystems) (w : W) : R w (op.iterate io fs w).2.2 := by
  rw [iterate]
  split
  · exact h.refl w
  · exact EarlyReturnLoop.invariant (I := fun s : RawStorageReadOperation × W => R w s.2)
      (fun s hs _ => h.trans hs (pass_respects h s.1 s.2)) _ _ (h.refl w)

end RawStorageReadOperation

/-! ### Directory listings -/

namespace SmartDirHandle

theorem read_respects (h : HandleCalls io R P) {dir dir' : SmartDirHandle}
    (hdir : P dir.fs) {w w' : W} {r : Except LfsError DirInfo}
    (heq : dir.read io.toLittleFS w = (r, dir', w')) : P dir'.fs ∧ R w w' := by
  rw [read] at heq
  split at heq
  · next hread =>
    simp only [Prod.mk.injEq] at heq
    obtain ⟨-, rfl, rfl⟩ := heq
    refine ⟨?_, h.dirRead hdir hread⟩
    split
    · exact hdir
    · exact hdir
  · next hread =>
    simp only [Prod.mk.injEq] at heq
    obtain ⟨-, rfl, rfl⟩ := heq
    exact ⟨hdir, h.dirRead hdir hread⟩

theorem rewind_respects (h : HandleCalls io R P) {dir dir' : SmartDirHandle}
    (hdir : P dir.fs) {w w' : W} {r : Option LfsError}
    (heq : dir.rewind io.toLittleFS w = (r, dir', w')) : P dir'.fs ∧ R w w' := by
  rw [rewind] at heq
  split at heq
  · next hrewind =>
    simp only [Prod.mk.injEq] at heq
    obtain ⟨-, rfl, rfl⟩ := heq
    exact ⟨hdir, h.dirRewind hdir hrewind⟩
  · next hrewind =>
    simp only [Prod.mk.injEq] at heq
    obtain ⟨-, rfl, rfl⟩ := heq
    exact ⟨hdir, h.dirRewind hdir hrewind⟩

theorem seekLoop_respects (h : HandleCalls io R P) (index fuel : ℕ) {dir : SmartDirHandle}
    (hdir : P dir.fs) (w : W) :
    P (seekLoop io.toLittleFS index fuel dir w).2.1.fs ∧
      R w (seekLoop io.toLittleFS index fuel dir w).2.2 := by
  induction fuel generalizing dir w with
  | zero => exact ⟨hdir, h.refl w⟩
  | succ fuel ih =>
    rw [seekLoop]
    split
    · split
      · next hread => exact read_respects h hdir hread
      · next dir' w' hread =>
        obtain ⟨hdir', hR⟩ := read_respects h hdir hread
        have hfs : P ({ dir' with index := (dir'.index + 1) % 2 ^ 32 } : SmartDirHandle).fs :=
          hdir'
        exact And.imp_right (h.trans hR) (ih hfs w')
    · exact ⟨hdir, h.refl w⟩

theorem seek_respects (h : HandleCalls io R P) (index : ℕ) {dir : SmartDirHandle}
    (hdir : P dir.fs) (w : W) :
    P (dir.seek io.toLittleFS w index).2.1.fs ∧
      R w (dir.seek io.toLittleFS w index).2.2 := by
  rw [seek]
  split
  · split
    · next hrewind => exact rewind_respects h hdir hrewind
    · next hrewind =>
      obtain ⟨hdir', hR⟩ := rewind_respects h hdir hrewind
      exact And.imp_right (h.trans hR) (seekLoop_respects h index (2 ^ 32) hdir' _)
  · exact seekLoop_respects h index (2 ^ 32) hdir w

end SmartDirHandle

namespace DirectoryListingOperation

/-- The directory handle of the operation, if any, is on one of the areas. -/
def HandleOn (P : StorageArea → Prop) (op : DirectoryListingOperation) : Prop :=
  ∀ dir, op.dir = some dir → P dir.fs

theorem handleOn_of_dir {op : DirectoryListingOperation} {dir : SmartDirHandle}
    (hdir : op.dir = some dir) (hfs : P dir.fs) : op.HandleOn P := by
  intro dir' hdir'
  rw [hdir, Option.some.injEq] at hdir'
  exact hdir' ▸ hfs

theorem resetDir_respects (h : HandleCalls io R P) {op : DirectoryListingOperation}
    (hop : op.HandleOn P) (w : W) : R w (op.resetDir io w).2 := by
  rw [resetDir]
  split
  · exact h.refl w
  · next dir hdir => exact h.dirClose (hop dir hdir) rfl

theorem cancel_respects (h : HandleCalls io R P) {op : DirectoryListingOperation}
    (hop : op.HandleOn P) (w : W) :
    (op.cancel io w).1.HandleOn P ∧ R w (op.cancel io w).2 := by
  refine ⟨?_, resetDir_respects h hop w⟩
  rw [cancel, resetDir]
  split
  · exact hop
  · exact fun dir hdir => by simp at hdir

theorem sendEntry_respects (h : HandleCalls io R P) {op : DirectoryListingOperation}
    (hop : op.HandleOn P) (w : W) :
    (sendEntry io (op, w)).1.1.HandleOn P ∧ R w (sendEntry io (op, w)).1.2 := by
  rw [sendEntry]
  dsimp only
  split
  · next hsend => exact ⟨hop, h.sendTo hsend⟩
  · next hsend =>
    split
    · exact ⟨hop, h.sendTo hsend⟩
    · exact And.imp_right (h.trans (h.sendTo hsend)) (cancel_respects h hop _)

theorem pass_respects (h : HandleCalls io R P) {op : DirectoryListingOperation}
    (hop : op.HandleOn P) (w : W) :
    (pass io (op, w)).1.1.HandleOn P ∧ R w (pass io (op, w)).1.2 := by
  rw [pass]
  dsimp only
  split
  · exact ⟨hop, h.refl w⟩
  next dir hdir =>
  split
  · next hread =>
    obtain ⟨hfs, hR⟩ := SmartDirHandle.read_respects h (hop dir hdir) hread
    split
    · exact ⟨handleOn_of_dir rfl hfs, hR⟩
    · exact And.imp_right (h.trans hR) (sendEntry_respects h (handleOn_of_dir rfl hfs) _)
  · next hread =>
    obtain ⟨hfs, hR⟩ := SmartDirHandle.read_respects h (hop dir hdir) hread
    exact And.imp_right (h.trans hR) (sendEntry_respects h (handleOn_of_dir rfl hfs) _)

theorem iterate_respects (h : HandleCalls io R P) {op : DirectoryListingOperation}
    (hop : op.HandleOn P) (w : W) :
    (op.iterate io w).2.1.HandleOn P ∧ R w (op.iterate io w).2.2 :=
  EarlyReturnLoop.invariant
    (I := fun s : DirectoryListingOperation × W => s.1.HandleOn P ∧ R w s.2)
    (fun s hs _ =>
      have hpass := pass_respects h hs.1 s.2
      ⟨hpass.1, h.trans hs.2 hpass.2⟩) _ _ ⟨hop, h.refl w⟩

theorem start_respects (h : HandleCalls io R P) {fs : Filesystems} {area : StorageArea}
    (harea : fs.isMounted area = true → P area) (name : List UInt8) (start_ count : UInt16)
    (seqNo : UInt8) (w : W) :
    (start io {} fs area name start_ count seqNo w).2.1.HandleOn P ∧
      R w (start io {} fs area name start_ count seqNo w).2.2 := by
  have hnone : HandleOn P {} := fun dir hdir => by simp at hdir
  rw [start]
  split
  · exact ⟨hnone, h.refl w⟩
  split
  · exact ⟨hnone, h.refl w⟩
  split
  · exact ⟨hnone, h.refl w⟩
  next s hs =>
  split
  · exact ⟨hnone, h.refl w⟩
  next hmounted =>
  have hP : P area := harea (isMounted_of_getState hs hmounted)
  split
  · next hopen => exact ⟨hnone, h.dirOpen hP hopen⟩
  next dd w₁ hopen =>
  obtain ⟨hfs, hR⟩ := SmartDirHandle.seek_respects h start_.toNat
    (show P ({ fs := area, dd := dd } : SmartDirHandle).fs from hP) w₁
  dsimp only
  split
  · exact ⟨handleOn_of_dir rfl hfs, h.trans (h.dirOpen hP hopen) hR⟩
  · exact ⟨handleOn_of_dir rfl hfs, h.trans (h.dirOpen hP hopen) hR⟩

end DirectoryListingOperation

/-! ### File downloads -/

namespace FileDownloadOperation

/-- The file handle of the operation, if any, is on one of the areas. -/
def HandleOn (P : StorageArea → Prop) (op : FileDownloadOperation) : Prop :=
  ∀ file, op.file = some file → P file.fs

theorem resetFile_respects (h : HandleCalls io R P) {op : FileDownloadOperation}
    (hop : op.HandleOn P) (w : W) : R w (op.resetFile io w).2 := by
  rw [resetFile]
  split
  · exact h.refl w
  · next file hfile => exact h.close (hop file hfile) rfl

theorem cancel_respects (h : HandleCalls io R P) {op : FileDownloadOperation}
    (hop : op.HandleOn P) (w : W) :
    (op.cancel io w).1.HandleOn P ∧ R w (op.cancel io w).2 := by
  refine ⟨?_, resetFile_respects h hop w⟩
  rw [cancel, resetFile]
  split
  · exact hop
  · exact fun file hfile => by simp at hfile

theorem sendFragment_respects (h : HandleCalls io R P) {op : FileDownloadOperation}
    (hop : op.HandleOn P) {file : SmartFileHandle} (hfile : P file.fs) (pos : ℕ) (w : W) :
    (sendFragment io file (op, pos, w)).1.1.HandleOn P ∧
      R w (sendFragment io file (op, pos, w)).1.2.2 := by
  rw [sendFragment]
  dsimp only
  split
  · next hsend =>
    split
    · next hseek =>
      exact And.imp_right (h.trans (h.trans (h.sendTo hsend) (h.seek hfile hseek)))
        (cancel_respects h hop _)
    · next hseek => exact ⟨hop, h.trans (h.sendTo hsend) (h.seek hfile hseek)⟩
  · next hsend =>
    split
    · exact And.imp_right (h.trans (h.sendTo hsend)) (cancel_respects h hop _)
    · exact ⟨hop, h.sendTo hsend⟩

theorem pass_respects (h : HandleCalls io R P) {op : FileDownloadOperation}
    (hop : op.HandleOn P) {file : SmartFileHandle} (hfile : P file.fs) (pos : ℕ) (w : W) :
    (pass io file (op, pos, w)).1.1.HandleOn P ∧
      R w (pass io file (op, pos, w)).1.2.2 := by
  rw [pass]
  dsimp only
  split
  · next hread =>
    exact And.imp_right (h.trans (h.read hfile hread)) (cancel_respects h hop _)
  · next bytes w' hread =>
    have hload : (op.loadFragment bytes).HandleOn P := hop
    exact And.imp_right (h.trans (h.read hfile hread))
      (sendFragment_respects h hload hfile pos w')

theorem iterate_respects (h : HandleCalls io R P) {op : FileDownloadOperation}
    (hop : op.HandleOn P) (w : W) :
    (op.iterate io w).2.1.HandleOn P ∧ R w (op.iterate io w).2.2 := by
  rw [iterate]
  split
  · exact ⟨hop, h.refl w⟩
  next file hfile =>
  have hfs : P file.fs := hop file hfile
  split
  · next htell => exact And.imp_right (h.trans (h.tell hfs htell)) (cancel_respects h hop _)
  · next htell =>
    refine EarlyReturnLoop.invariant
      (I := fun s : FileDownloadOperation × ℕ × W => s.1.HandleOn P ∧ R w s.2.2)
      ?_ _ _ ⟨hop, h.tell hfs htell⟩
    rintro ⟨o, pos, v⟩ ⟨ho, hR⟩ -
    exact And.imp_right (h.trans hR) (pass_respects h ho hfs pos v)

theorem handleOn_of_file {op : FileDownloadOperation} {file : SmartFileHandle}
    (hfile : op.file = some file) (hfs : P file.fs) : op.HandleOn P := by
  intro file' hfile'
  rw [hfile, Option.some.injEq] at hfile'
  exact hfile' ▸ hfs

theorem start_respects (h : HandleCalls io R P) {fs : Filesystems} {area : StorageArea}
    (harea : fs.isMounted area = true → P area) (name : List UInt8) (offset : UInt32)
    (length : UInt16) (seqNo : UInt8) (w : W) :
    (start io {} fs area name offset length seqNo w).2.1.HandleOn P ∧
      R w (start io {} fs area name offset length seqNo w).2.2 := by
  have hnone : HandleOn P {} := fun file hfile => by simp at hfile
  rw [start]
  split
  · exact ⟨hnone, h.refl w⟩
  split
  · exact ⟨hnone, h.refl w⟩
  split
  · exact ⟨hnone, h.refl w⟩
  next s hs =>
  split
  · exact ⟨hnone, h.refl w⟩
  next hmounted =>
  have hP : P area := harea (isMounted_of_getState hs hmounted)
  split
  · next hopen => exact ⟨hnone, h.open_ hP hopen⟩
  next fd w₁ hopen =>
  dsimp only
  split
  · next hseek =>
    exact ⟨handleOn_of_file rfl hP, h.trans (h.open_ hP hopen) (h.seek hP hseek)⟩
  next hseek =>
  have hpos := h.trans (h.open_ hP hopen) (h.seek hP hseek)
  split
  · exact ⟨handleOn_of_file rfl hP, hpos⟩
  split
  · next hsize => exact ⟨handleOn_of_file rfl hP, h.trans hpos (h.size hP hsize)⟩
  · next hsize => exact ⟨handleOn_of_file rfl hP, h.trans hpos (h.size hP hsize)⟩

end FileDownloadOperation

/-! ### Operations of any kind -/

namespace StorageAccessOperation

/-- The handle of the operation, if any, is on one of the areas. -/
def HandleOn (P : StorageArea → Prop) (op : StorageAccessOperation) : Prop :=
  ∀ a, op.handleArea = some a → P a

theorem handleOn_rawStorageRead (op : RawStorageReadOperation) :
    (rawStorageRead op).HandleOn P := fun a ha => by simp [handleArea] at ha

theorem handleOn_fileDownload {op : FileDownloadOperation} :
    (fileDownload op).HandleOn P ↔ op.HandleOn P := by
  simp only [HandleOn, handleArea, Option.map_eq_some_iff, forall_exists_index, and_imp,
    FileDownloadOperation.HandleOn]
  exact ⟨fun h file hfile => h _ file hfile rfl,
    fun h _ file hfile heq => heq ▸ h file hfile⟩

theorem handleOn_directoryListing {op : DirectoryListingOperation} :
    (directoryListing op).HandleOn P ↔ op.HandleOn P := by
  simp only [HandleOn, handleArea, Option.map_eq_some_iff, forall_exists_index, and_imp,
    DirectoryListingOperation.HandleOn]
  exact ⟨fun h dir hdir => h _ dir hdir rfl, fun h _ dir hdir heq => heq ▸ h dir hdir⟩

/-- **Iterating an operation** keeps its handle on the areas and respects what the calls on
handles of these areas respect. -/
theorem iterate_respects (h : HandleCalls io R P) {op : StorageAccessOperation}
    (hop : op.HandleOn P) (fs : Filesystems) (w : W) :
    (op.iterate io fs w).2.1.HandleOn P ∧ R w (op.iterate io fs w).2.2 := by
  cases op with
  | rawStorageRead op =>
    exact ⟨handleOn_rawStorageRead _, RawStorageReadOperation.iterate_respects h op fs w⟩
  | directoryListing op =>
    obtain ⟨hon, hR⟩ :=
      DirectoryListingOperation.iterate_respects h (handleOn_directoryListing.mp hop) w
    exact ⟨handleOn_directoryListing.mpr hon, hR⟩
  | fileDownload op =>
    obtain ⟨hon, hR⟩ := FileDownloadOperation.iterate_respects h (handleOn_fileDownload.mp hop) w
    exact ⟨handleOn_fileDownload.mpr hon, hR⟩

/-- Dropping an operation respects what the calls on handles of its areas respect. -/
theorem cancel_respects (h : HandleCalls io R P) {op : StorageAccessOperation}
    (hop : op.HandleOn P) (w : W) : R w (op.cancel io w).2 := by
  cases op with
  | rawStorageRead op => exact h.refl w
  | directoryListing op =>
    exact (DirectoryListingOperation.cancel_respects h (handleOn_directoryListing.mp hop) w).2
  | fileDownload op =>
    exact (FileDownloadOperation.cancel_respects h (handleOn_fileDownload.mp hop) w).2

theorem handleArea_setTelemetryTargets (op : StorageAccessOperation) (targets : UInt8) :
    (op.setTelemetryTargets targets).handleArea = op.handleArea := by
  cases op <;> rfl

end StorageAccessOperation

/-! ### The manager -/

namespace Storage

/-- The handle of the installed operation, if any, is on one of the areas. -/
def HandleOn (P : StorageArea → Prop) (s : Storage W) : Prop :=
  ∀ op, s.access.operation = some op → op.HandleOn P

/-- A step of the manager that leaves the file systems alone, keeps the handle of the installed
operation on some areas and changes the world below as the calls on their handles may. -/
structure Respects (R : W → W → Prop) (P : StorageArea → Prop) (s t : Storage W) : Prop where
  filesystems : t.filesystems = s.filesystems
  handleOn : t.HandleOn P
  world : R s.world t.world

theorem Respects.trans (h : HandleCalls io R P) {s t u : Storage W} (hst : Respects R P s t)
    (htu : Respects R P t u) : Respects R P s u where
  filesystems := htu.filesystems.trans hst.filesystems
  handleOn := htu.handleOn
  world := h.trans hst.world htu.world

variable {s : Storage W}

theorem respects_refl (h : HandleCalls io R P) (hs : s.HandleOn P) : Respects R P s s :=
  ⟨rfl, hs, h.refl s.world⟩

theorem setOperation_respects (h : HandleCalls io R P) (hs : s.HandleOn P)
    {op : Option StorageAccessOperation} (hop : ∀ o, op = some o → o.HandleOn P) :
    Respects R P s (s.setOperation io op) where
  filesystems := rfl
  handleOn o ho := by
    obtain ⟨o', ho', rfl⟩ := Option.map_eq_some_iff.mp ho
    intro a ha
    rw [StorageAccessOperation.handleArea_setTelemetryTargets] at ha
    exact hop o' ho' a ha
  world := by
    rw [setOperation]
    dsimp only
    split
    · exact h.refl s.world
    · next old hold => exact StorageAccessOperation.cancel_respects h (hs old hold) s.world

theorem iterateOperation_respects (h : HandleCalls io R P) (hs : s.HandleOn P) :
    Respects R P s (s.iterateOperation io).2 := by
  rw [iterateOperation]
  split
  · exact respects_refl h hs
  · next op hop =>
    obtain ⟨hon, hR⟩ :=
      StorageAccessOperation.iterate_respects h (hs op hop) s.filesystems s.world
    exact ⟨rfl, fun o ho => Option.some.inj ho ▸ hon, hR⟩

/-- **One pass of the reader task** keeps the handle on the areas. -/
theorem readerIteration_respects (h : HandleCalls io R P) (hs : s.HandleOn P) :
    Respects R P s (s.readerIteration io) := by
  have hdrop {t : Storage W} (ht : Respects R P s t) : Respects R P s (t.setOperation io none) :=
    ht.trans h (setOperation_respects h ht.handleOn (by simp))
  have hiterate := iterateOperation_respects h hs
  rw [readerIteration, iterate]
  cases hop : s.access.operation with
  | none => exact respects_refl h hs
  | some op =>
    rcases hr : s.iterateOperation io with ⟨_ | e, t⟩
    · rw [hr] at hiterate
      dsimp only
      split
      · exact hiterate
      · exact hdrop hiterate
    · rw [hr] at hiterate
      exact hdrop (hdrop hiterate)

/-- Installing a new operation after the preparation of its request. -/
theorem install_respects (h : HandleCalls io R P) (hs : s.HandleOn P) (targets seqNo : UInt8)
    {op : StorageAccessOperation} (hop : op.HandleOn P) {w : W} (hw : R s.world w) :
    Respects R P s
      (({ s.prepare targets seqNo with world := w } : Storage W).setOperation io (some op)) :=
  have hprepare : Respects R P s { s.prepare targets seqNo with world := w } := ⟨rfl, hs, hw⟩
  hprepare.trans h
    (setOperation_respects h hprepare.handleOn fun _ ho => Option.some.inj ho ▸ hop)

variable (area : StorageArea) (length : UInt16) (targets seqNo : UInt8)

/-- Starting a raw read never opens a handle. -/
theorem startRawStorageDownload_respects (h : HandleCalls io R P) (hs : s.HandleOn P)
    (address : UInt64) :
    Respects R P s (s.startRawStorageDownload io area address length targets seqNo).2 := by
  rw [startRawStorageDownload, makeRawStorageRead]
  split
  · exact respects_refl h hs
  rcases RawStorageReadOperation.start {} area address length
    (s.prepare targets seqNo).access.seqNo with ⟨_ | e, op⟩
  · exact install_respects h hs targets seqNo
      (StorageAccessOperation.handleOn_rawStorageRead op) (h.refl s.world)
  · exact ⟨rfl, hs, h.refl s.world⟩

/-- **Starting a directory listing** opens a handle only on a mounted area. -/
theorem startDirectoryListing_respects (h : HandleCalls io R P) (hs : s.HandleOn P)
    (harea : s.filesystems.isMounted area = true → P area) (name : List UInt8)
    (start_ count : UInt16) :
    Respects R P s (s.startDirectoryListing io area name start_ count targets seqNo).2 := by
  rw [startDirectoryListing, makeDirectoryListing]
  split
  · exact respects_refl h hs
  have hstart := DirectoryListingOperation.start_respects h harea name start_ count seqNo s.world
  simp only [prepare]
  rcases hr : DirectoryListingOperation.start io {} s.filesystems area name start_ count seqNo
    s.world with ⟨_ | e, op, w⟩
  · rw [hr] at hstart
    exact install_respects h hs targets seqNo
      (StorageAccessOperation.handleOn_directoryListing.mpr hstart.1) hstart.2
  · rw [hr] at hstart
    exact ⟨rfl, hs, h.trans hstart.2 (DirectoryListingOperation.resetDir_respects h hstart.1 w)⟩

/-- **Starting a file download** opens a handle only on a mounted area. -/
theorem startFileDownload_respects (h : HandleCalls io R P) (hs : s.HandleOn P)
    (harea : s.filesystems.isMounted area = true → P area) (path : List UInt8)
    (offset : UInt32) :
    Respects R P s (s.startFileDownload io area path offset length targets seqNo).2 := by
  rw [startFileDownload, makeFileDownload]
  split
  · exact respects_refl h hs
  have hstart := FileDownloadOperation.start_respects h harea path offset length seqNo s.world
  simp only [prepare]
  rcases hr : FileDownloadOperation.start io {} s.filesystems area path offset length seqNo
    s.world with ⟨e | size, op, w⟩
  · rw [hr] at hstart
    exact ⟨rfl, hs, h.trans hstart.2 (FileDownloadOperation.resetFile_respects h hstart.1 w)⟩
  · rw [hr] at hstart
    exact install_respects h hs targets seqNo
      (StorageAccessOperation.handleOn_fileDownload.mpr hstart.1) hstart.2

end Storage

end TellerOBC
