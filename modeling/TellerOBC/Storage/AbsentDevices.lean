import TellerOBC.Cmd.Process
import TellerOBC.Drivers.Detection
import TellerOBC.Storage.OnDevices
import TellerOBC.Storage.Sessions

/-!
# Storage commands without a device

The commands of the ground station reach the drivers of the storage devices whether a device was
found at boot or not. The file systems of an absent device are never mounted, so that neither
littlefs nor open files get there. Two paths go around this: the size of an area and raw reads come
from the drivers without any check, and the driver of the flash memory then reads its
configuration through a null pointer.

The world below the storage module records whether this has happened. The calls of littlefs for an
absent device count as well, because littlefs reads the configuration of the device.

## Main definitions

* `TellerOBC.Devices`: the hardware that is found at boot, with the calls that reach it.
* `TellerOBC.Devices.booted`: the storage module after `setup`.
* `TellerOBC.StorageTaskAction`, `TellerOBC.Devices.step`: inbound packets, iterations of the reader
  and the mounts and unmounts of the recorders.
* `TellerOBC.Devices.AvoidsAbsentFlash`: the steps that need no flash memory, or find one.

## Main results

* `TellerOBC.Devices.Sound.step`, `TellerOBC.Devices.nullAccessed_of_step`: what one step does.
* `TellerOBC.Devices.not_nullAccessed_iff`: which runs never read through the null pointer.
-/

namespace TellerOBC

variable {W : Type} {α : Type}

/-! ### Worlds with a null pointer -/

/-- A world, and whether a null pointer to a configuration was read through. -/
structure Guarded (W : Type) where
  world : W
  nullAccessed : Bool := false

/-- A call that uses the configuration of a device, which was found or not. -/
def Guarded.access (found : Bool) (f : W → α × W) (w : Guarded W) : α × Guarded W :=
  ((f w.world).1, ⟨(f w.world).2, w.nullAccessed || !found⟩)

/-- The storage devices as they are found at boot, and what the calls to them answer. -/
structure Devices (W : Type) where
  /-- What `readJEDECId` returns. -/
  jedecId : UInt32
  /-- Whether `setFourByteAddressingMode` succeeds. -/
  fourByteAddressing : Bool
  /-- What `tryInitialization` returns, zero without an SD card. -/
  blockCount : UInt32
  io : StorageIO W

namespace Devices

variable (d : Devices W)

/-- `cfg` of the flash memory driver after its `init`. -/
def cfg : Option FlashMem.Config := FlashMem.identify d.jedecId d.fourByteAddressing

/-- Whether the driver of an area has a configuration for littlefs. -/
def found : StorageArea → Bool
  | .unknown => false
  | .flashMemory => FlashMem.setup d.cfg
  | .sdCard => (SdCard.setup d.blockCount).isSome

/-- Whether a raw read of an area can be made without reading through the null pointer. -/
def readable (area : StorageArea) (address : UInt64) : Bool :=
  match area with
  | .flashMemory => (FlashMem.readDataHeader d.cfg address).isSome
  | .unknown | .sdCard => true

/-- The calls of the storage operations, with a record of null pointers. -/
def calls : StorageIO (Guarded W) where
  mount area := Guarded.access (d.found area) (d.io.mount area)
  unmount area := Guarded.access (d.found area) (d.io.unmount area)
  format area := Guarded.access (d.found area) (d.io.format area)
  open_ area name flags := Guarded.access (d.found area) (d.io.open_ area name flags)
  opencfg area name flags := Guarded.access (d.found area) (d.io.opencfg area name flags)
  sync area fd := Guarded.access (d.found area) (d.io.sync area fd)
  close area fd := Guarded.access (d.found area) (d.io.close area fd)
  read area fd n := Guarded.access (d.found area) (d.io.read area fd n)
  write area fd bytes := Guarded.access (d.found area) (d.io.write area fd bytes)
  tell area fd := Guarded.access (d.found area) (d.io.tell area fd)
  size area fd := Guarded.access (d.found area) (d.io.size area fd)
  seek area fd offset := Guarded.access (d.found area) (d.io.seek area fd offset)
  stat area name := Guarded.access (d.found area) (d.io.stat area name)
  dirOpen area name := Guarded.access (d.found area) (d.io.dirOpen area name)
  dirClose area dd := Guarded.access (d.found area) (d.io.dirClose area dd)
  dirRead area dd := Guarded.access (d.found area) (d.io.dirRead area dd)
  dirRewind area dd := Guarded.access (d.found area) (d.io.dirRewind area dd)
  readData area address n := Guarded.access (d.readable area address) (d.io.readData area address n)
  sendTo targets frameType payload := Guarded.access true (d.io.sendTo targets frameType payload)

/-! ### The storage module -/

/-- `FilesystemState::getSize`. Nothing is known of the value read through a null pointer. -/
def getSize (area : StorageArea) (w : Guarded W) : UInt64 × Guarded W :=
  match area with
  | .unknown => (0, w)
  | .flashMemory =>
    match FlashMem.getTotalSize d.cfg with
    | some size => (size, w)
    | none => (0, { w with nullAccessed := true })
  | .sdCard => (SdCard.getTotalSize (SdCard.setup d.blockCount), w)

/-- `getStorageSize`. -/
def getStorageSize (area : StorageArea) (s : Storage (Guarded W)) :
    UInt32 × Storage (Guarded W) :=
  match s.filesystems.getState area with
  | none => (0, s)
  | some _ => ((d.getSize area s.world).1.toUInt32, { s with world := (d.getSize area s.world).2 })

/-- The calls of the command module into the storage module. All other calls are answered by the
other modules, which do not touch the storage devices. -/
def system (others : Program.Environment SystemAnswer W) :
    Program.Environment SystemAnswer (Storage (Guarded W))
  | .mountStorage area force, s =>
    let r := mountStorage d.calls.toLittleFS area s.filesystems s.world force
    (r.1, s.setFilesystems r)
  | .eraseStorage area, s =>
    let r := eraseStorage d.calls.toLittleFS area s.filesystems s.world
    (r.1, s.setFilesystems r)
  | .getStorageSize area, s => d.getStorageSize area s
  | .isStorageConfigured area, s => ((s.filesystems.getState area).any (·.configured), s)
  | .isStorageMounted area, s => (s.filesystems.isMounted area, s)
  | .isStorageErrored area, s => ((s.filesystems.getState area).any (·.errored), s)
  | .startRawStorageDownload area address length targets seqNo, s =>
    s.startRawStorageDownload d.calls area address length targets seqNo
  | .startDirectoryListing area name start_ count targets seqNo, s =>
    s.startDirectoryListing d.calls area name start_ count targets seqNo
  | .startFileDownload area path offset length targets seqNo, s =>
    s.startFileDownload d.calls area path offset length targets seqNo
  | c, s => ((others c s.world.world).1,
    { s with world := { s.world with world := (others c s.world.world).2 } })

/-- The storage module after `init` and `setup`. -/
def booted (mode : Lifecycle.InitMode) (w : W) : Storage (Guarded W) :=
  let r := (Lifecycle.setup (Lifecycle.start w).fs (d.found .flashMemory) (d.found .sdCard)
    mode).exec (Lifecycle.environment d.calls.toLittleFS) { world := w }
  ⟨r.1.2, {}, r.2⟩

end Devices

/-- The steps on the storage module: the inbound packets that the command task hands on to it,
the iterations of the reader task, and the mounts and unmounts of the recorder tasks. -/
inductive StorageTaskAction where
  | storagePacket (message : InboundMessage)
  | directoryListingPacket (message : InboundMessage)
  | fileDownloadPacket (message : InboundMessage)
  | iterate
  | recorderMount (area : StorageArea)
  | recorderUnmount (area : StorageArea)

/-- The message is a valid request for the size of the flash memory. -/
def AsksFlashSize (message : InboundMessage) : Prop :=
  validateEncodedStorageCommandFrame message.payload = true ∧
    (decodeStorageCommandFrame message.payload).area = .flashMemory ∧
    (decodeStorageCommandFrame message.payload).command = .getSize

/-- The installed operation is a raw read of the flash memory, and running. -/
def Storage.ReadsFlash (s : Storage W) : Prop :=
  ∃ op, s.access.operation = some (.rawStorageRead op) ∧ op.running = true ∧
    op.area = .flashMemory

namespace Devices

variable (d : Devices W) (others : Program.Environment SystemAnswer W)

/-- The storage module after a step; every step is enabled in every state. -/
def step (s : Storage (Guarded W)) : StorageTaskAction → Option (Storage (Guarded W))
  | .storagePacket message => some ((processStoragePacket message).exec (d.system others) s).2
  | .directoryListingPacket message =>
    some ((processDirectoryListingPacket message).exec (d.system others) s).2
  | .fileDownloadPacket message =>
    some ((processFileDownloadPacket message).exec (d.system others) s).2
  | .iterate => some (s.readerIteration d.calls)
  | .recorderMount area =>
    some (s.setFilesystems (mountStorage d.calls.toLittleFS area s.filesystems s.world false))
  | .recorderUnmount area =>
    some (s.setFilesystems (unmountStorage d.calls.toLittleFS area s.filesystems s.world))

/-- The flash memory was identified, or the step neither asks for its size nor continues a raw read
of it. -/
def AvoidsAbsentFlash (s : Storage (Guarded W)) : StorageTaskAction → Prop
  | .storagePacket message => AsksFlashSize message → d.cfg.isSome = true
  | .iterate => s.ReadsFlash → d.cfg.isSome = true
  | _ => True

end Devices

/-! ### Raw reads of the flash memory -/

/-- The calls of the storage operations where raw reads of the flash memory fail at once. -/
def StorageIO.withoutFlashReads (io : StorageIO W) : StorageIO W :=
  { io with
    readData := fun area address n w =>
      if area = .flashMemory then (none, w) else io.readData area address n w }

section

variable {io : StorageIO W} {s : Storage W}

theorem RawStorageReadOperation.area_pass (op : RawStorageReadOperation) (w : W) :
    (pass io (op, w)).1.1.area = op.area := by
  rw [pass]
  dsimp only
  split
  · rfl
  · split <;> rfl

/-- A raw read of another area makes no raw reads of the flash memory. -/
theorem RawStorageReadOperation.iterate_withoutFlashReads {op : RawStorageReadOperation}
    (h : op.running = true → op.area ≠ .flashMemory) (fs : Filesystems) (w : W) :
    op.iterate io.withoutFlashReads fs w = op.iterate io fs w := by
  rw [iterate, iterate]
  split
  · rfl
  cases hrunning : op.running with
  | false => simp only [EarlyReturnLoop.loop, hrunning, Bool.false_eq_true, ↓reduceIte]
  | true =>
    refine EarlyReturnLoop.loop_congr
      (I := fun s : RawStorageReadOperation × W => s.1.area ≠ .flashMemory) (fun s hs _ => ?_) _ _
      (h hrunning)
    have hread (n : ℕ) (w : W) : io.withoutFlashReads.readRawData s.1.area s.1.address n w =
        io.readRawData s.1.area s.1.address n w := by
      cases harea : s.1.area with
      | flashMemory => exact absurd harea hs
      | sdCard | unknown => rfl
    refine ⟨?_, ?_⟩
    · simp only [pass, hread]
      rfl
    · rw [area_pass]
      exact hs

/-- An iteration of a raw read changes the world as the read does. -/
theorem Storage.world_readerIteration {op : RawStorageReadOperation}
    (hop : s.access.operation = some (.rawStorageRead op)) :
    (s.readerIteration io).world = (op.iterate io s.filesystems s.world).2.2 := by
  rcases heq : op.iterate io s.filesystems s.world with ⟨_ | e, op', w⟩
  · have hiterate : StorageAccessOperation.iterate io s.filesystems s.world (.rawStorageRead op) =
        (none, .rawStorageRead op', w) := by
      rw [StorageAccessOperation.iterate, heq]
    rw [readerIteration_of_iterate io s hop hiterate]
    dsimp only
    split <;> rfl
  · simp only [readerIteration, iterate, iterateOperation, hop, StorageAccessOperation.iterate, heq]
    rfl

/-- While no raw read of the flash memory is running, the reader makes none. -/
theorem Storage.readerIteration_withoutFlashReads (h : ¬s.ReadsFlash) :
    s.readerIteration io.withoutFlashReads = s.readerIteration io := by
  have hiterate : s.iterateOperation io.withoutFlashReads = s.iterateOperation io := by
    rw [iterateOperation, iterateOperation]
    cases hop : s.access.operation with
    | none => rfl
    | some op =>
      cases op with
      | rawStorageRead op =>
        have harea : op.running = true → op.area ≠ .flashMemory := fun hrunning harea =>
          h ⟨op, hop, hrunning, harea⟩
        simp only [StorageAccessOperation.iterate,
          RawStorageReadOperation.iterate_withoutFlashReads harea]
      | directoryListing op => rfl
      | fileDownload op => rfl
  rw [readerIteration, readerIteration, iterate, iterate, hiterate]
  rfl

end

namespace Devices

variable {d : Devices W} {others : Program.Environment SystemAnswer W} {s t : Storage (Guarded W)}

/-! ### Calls for devices that were found -/

theorem access_of_found {found : Bool} (hfound : found = true) {f : W → α × W} {w w' : Guarded W}
    {r : α} (h : Guarded.access found f w = (r, w')) : w'.nullAccessed = w.nullAccessed := by
  have hnull : (w.nullAccessed || !found) = w'.nullAccessed :=
    congrArg (fun r : α × Guarded W => r.2.nullAccessed) h
  rw [← hnull, hfound, Bool.not_true, Bool.or_false]

/-- Operations with handles on devices that were found read through no null pointer, if raw reads
do not. -/
theorem handleCalls_of_readData
    {readData : StorageArea → UInt64 → ℕ → Guarded W → Option (List UInt8) × Guarded W}
    (hread : ∀ {a address n w r w'}, readData a address n w = (r, w') →
      w'.nullAccessed = w.nullAccessed) :
    HandleCalls { d.calls with readData := readData }
      (fun w w' => w'.nullAccessed = w.nullAccessed) fun area => d.found area = true where
  refl _ := rfl
  trans h h' := h'.trans h
  open_ harea h := access_of_found harea h
  dirOpen harea h := access_of_found harea h
  close harea h := access_of_found harea h
  read harea h := access_of_found harea h
  tell harea h := access_of_found harea h
  size harea h := access_of_found harea h
  seek harea h := access_of_found harea h
  dirClose harea h := access_of_found harea h
  dirRead harea h := access_of_found harea h
  dirRewind harea h := access_of_found harea h
  readData := hread
  sendTo h := access_of_found rfl h

theorem handleCalls_withoutFlashReads : HandleCalls d.calls.withoutFlashReads
    (fun w w' => w'.nullAccessed = w.nullAccessed) fun area => d.found area = true := by
  refine handleCalls_of_readData fun {a address n w r w'} h => ?_
  cases a with
  | flashMemory => exact congrArg Guarded.nullAccessed (Prod.mk.inj h).2.symm
  | sdCard | unknown => exact access_of_found rfl h

theorem handleCalls_of_cfg (hcfg : d.cfg.isSome = true) : HandleCalls d.calls
    (fun w w' => w'.nullAccessed = w.nullAccessed) fun area => d.found area = true := by
  refine handleCalls_of_readData fun {a address n w r w'} h => ?_
  cases a with
  | flashMemory => exact access_of_found ((FlashMem.isSome_readDataHeader address).trans hcfg) h
  | sdCard | unknown => exact access_of_found rfl h

/-! ### The invariant -/

variable (d) in
/-- All file systems and the handle of the installed operation are on devices that were found, and
no null pointer was read through. -/
structure Sound (s : Storage (Guarded W)) : Prop where
  filesystems : s.filesystems.OnDevices d.found
  handleOn : s.HandleOn fun area => d.found area = true
  nullAccessed : s.world.nullAccessed = false

/-- littlefs called for an area with a device. -/
theorem nullAccessed_environment (c : Lifecycle.LfsCall) (w : Guarded W)
    (h : Lifecycle.CallsDevice d.found
      ⟨c, (Lifecycle.environment d.calls.toLittleFS c w).1⟩) :
    (Lifecycle.environment d.calls.toLittleFS c w).2.nullAccessed = w.nullAccessed := by
  obtain ⟨method, area, flags⟩ := c
  cases method with
  | create => rfl
  | mount | unmount | format =>
    exact access_of_found (h.resolve_left (by simp)) rfl

/-- The programs that stay on devices read through no null pointer. -/
theorem exec_of_stayOnDevices {p : Lifecycle.LfsProgram (α × Filesystems)}
    (hp : Lifecycle.StayOnDevices d.found p) (w : Guarded W) :
    (p.exec (Lifecycle.environment d.calls.toLittleFS) w).1.2.OnDevices d.found ∧
      (p.exec (Lifecycle.environment d.calls.toLittleFS) w).2.nullAccessed = w.nullAccessed :=
  hp.exec (R := fun w w' : Guarded W => w'.nullAccessed = w.nullAccessed) (fun _ => rfl)
    (fun h h' => h'.trans h) nullAccessed_environment w

namespace Sound

theorem booted (mode : Lifecycle.InitMode) (w : W) : Sound d (d.booted mode w) := by
  have hstart : (Lifecycle.start w).fs.OnDevices d.found := Lifecycle.onDevices_start w
  obtain ⟨hfs, hnull⟩ :=
    exec_of_stayOnDevices (Lifecycle.stayOnDevices_setup mode hstart) { world := w }
  exact ⟨hfs, fun _ hop => absurd hop (by simp [Devices.booted]), hnull⟩

theorem setFilesystems (h : Sound d s) {p : Lifecycle.LfsProgram (Option Errno × Filesystems)}
    (hp : Lifecycle.StayOnDevices d.found p) :
    Sound d (s.setFilesystems (Lifecycle.result d.calls.toLittleFS p s.world)) := by
  obtain ⟨hfs, hnull⟩ := exec_of_stayOnDevices hp s.world
  exact ⟨hfs, h.handleOn, hnull.trans h.nullAccessed⟩

theorem mountStorage (h : Sound d s) (area : StorageArea) (force : Bool) :
    Sound d (s.setFilesystems
      (TellerOBC.mountStorage d.calls.toLittleFS area s.filesystems s.world force)) := by
  rw [← Lifecycle.result_mountStorage]
  exact h.setFilesystems (Lifecycle.stayOnDevices_mountStorage h.filesystems force)

theorem unmountStorage (h : Sound d s) (area : StorageArea) :
    Sound d (s.setFilesystems
      (TellerOBC.unmountStorage d.calls.toLittleFS area s.filesystems s.world)) := by
  rw [← Lifecycle.result_unmountStorage]
  exact h.setFilesystems (Lifecycle.stayOnDevices_unmountStorage h.filesystems)

theorem eraseStorage (h : Sound d s) (area : StorageArea) :
    Sound d (s.setFilesystems
      (TellerOBC.eraseStorage d.calls.toLittleFS area s.filesystems s.world)) := by
  rw [← Lifecycle.result_eraseStorage]
  exact h.setFilesystems (Lifecycle.stayOnDevices_eraseStorage h.filesystems)

/-- The steps of the manager keep the invariant. -/
theorem of_respects (h : Sound d s)
    (hstep : Storage.Respects (fun w w' => w'.nullAccessed = w.nullAccessed)
      (fun area => d.found area = true) s t) : Sound d t where
  filesystems := hstep.filesystems ▸ h.filesystems
  handleOn := hstep.handleOn
  nullAccessed := hstep.world.trans h.nullAccessed

/-- The sizes of all areas can be looked up if the flash memory was identified. -/
theorem getStorageSize (h : Sound d s) {area : StorageArea}
    (harea : area = .flashMemory → d.cfg.isSome = true) :
    Sound d (d.getStorageSize area s).2 := by
  rw [Devices.getStorageSize]
  split
  · exact h
  cases area with
  | flashMemory =>
    obtain ⟨cfg, hcfg⟩ := Option.isSome_iff_exists.mp (harea rfl)
    simp only [getSize, hcfg, FlashMem.getTotalSize, Option.map_some]
    exact h
  | sdCard | unknown => exact h

/-- The calls of the command module keep the invariant. -/
theorem system (h : Sound d s) (c : SystemCall)
    (hc : c = .getStorageSize .flashMemory → d.cfg.isSome = true) :
    Sound d (d.system others c s).2 := by
  have hcalls := handleCalls_withoutFlashReads (d := d)
  have hmounted {area : StorageArea} (harea : s.filesystems.isMounted area = true) :
      d.found area = true := h.filesystems.found_of_isMounted harea
  cases c with
  | mountStorage area force => exact h.mountStorage area force
  | eraseStorage area => exact h.eraseStorage area
  | getStorageSize area => exact h.getStorageSize fun harea => hc (harea ▸ rfl)
  | startRawStorageDownload area address length targets seqNo =>
    exact h.of_respects (Storage.startRawStorageDownload_respects area length targets seqNo hcalls
      h.handleOn address)
  | startDirectoryListing area name start_ count targets seqNo =>
    exact h.of_respects (Storage.startDirectoryListing_respects area targets seqNo hcalls
      h.handleOn hmounted name start_ count)
  | startFileDownload area path offset length targets seqNo =>
    exact h.of_respects (Storage.startFileDownload_respects area length targets seqNo hcalls
      h.handleOn hmounted path offset)
  | _ => exact ⟨h.filesystems, h.handleOn, h.nullAccessed⟩

end Sound

/-! ### Inbound packets -/

/-- A packet asks for the size of the flash memory only if `AsksFlashSize` says so. -/
theorem always_processStoragePacket (message : InboundMessage) :
    (processStoragePacket message).Always
      (fun e => e.1 = .getStorageSize .flashMemory → AsksFlashSize message) fun _ => True := by
  rw [processStoragePacket]
  split
  · trivial
  next hvalid =>
  rw [Bool.not_eq_true', Bool.not_eq_false] at hvalid
  refine Program.Always.bind (Q := fun _ => True) ?_ fun _ _ => trivial
  rw [performStorageCommand]
  cases hcommand : (decodeStorageCommandFrame message.payload).command with
  | getSize =>
    exact fun _ => ⟨fun harea => ⟨hvalid, SystemCall.getStorageSize.inj harea, hcommand⟩, trivial⟩
  | getStatus => exact fun _ => ⟨nofun, fun _ => ⟨nofun, fun _ => ⟨nofun, trivial⟩⟩⟩
  | nop => trivial
  | mount | unmount | erase | read => exact fun _ => ⟨nofun, trivial⟩

theorem always_processDirectoryListingPacket (message : InboundMessage) :
    (processDirectoryListingPacket message).Always
      (fun e => e.1 ≠ .getStorageSize .flashMemory) fun _ => True := by
  rw [processDirectoryListingPacket]
  split
  · trivial
  · exact fun _ => ⟨nofun, trivial⟩

theorem always_processFileDownloadPacket (message : InboundMessage) :
    (processFileDownloadPacket message).Always
      (fun e => e.1 ≠ .getStorageSize .flashMemory) fun _ => True := by
  rw [processFileDownloadPacket]
  split
  · trivial
  · refine fun answer => ⟨nofun, ?_⟩
    cases answer <;> trivial

/-- The handlers of packets keep the invariant if no absent flash memory is asked for its size. -/
theorem Sound.exec (h : Sound d s) {P : Program.Event SystemAnswer → Prop} {Q : α → Prop}
    {p : Program SystemAnswer α} (hp : p.Always P Q)
    (hP : ∀ e, P e → e.1 = .getStorageSize .flashMemory → d.cfg.isSome = true) :
    Sound d (p.exec (d.system others) s).2 :=
  (hp.exec (R := fun s t => Sound d s → Sound d t) (fun _ => id) (fun h h' => h' ∘ h)
    (fun c _ he hs => hs.system c (hP _ he)) s).2 h

/-! ### Steps -/

/-- **The step lemma.** A step that avoids an absent flash memory keeps the invariant. -/
theorem Sound.step {action : StorageTaskAction} (h : Sound d s)
    (hok : d.AvoidsAbsentFlash s action) (hstep : d.step others s action = some t) :
    Sound d t := by
  cases action with
  | storagePacket message =>
    exact Option.some.inj hstep ▸ h.exec (always_processStoragePacket message)
      fun e he hcall => hok (he hcall)
  | directoryListingPacket message =>
    exact Option.some.inj hstep ▸ h.exec (always_processDirectoryListingPacket message)
      fun e he hcall => absurd hcall he
  | fileDownloadPacket message =>
    exact Option.some.inj hstep ▸ h.exec (always_processFileDownloadPacket message)
      fun e he hcall => absurd hcall he
  | iterate =>
    obtain rfl := Option.some.inj hstep
    by_cases hreads : s.ReadsFlash
    · exact h.of_respects
        (Storage.readerIteration_respects (handleCalls_of_cfg (hok hreads)) h.handleOn)
    · rw [← Storage.readerIteration_withoutFlashReads hreads]
      exact h.of_respects
        (Storage.readerIteration_respects handleCalls_withoutFlashReads h.handleOn)
  | recorderMount area => exact Option.some.inj hstep ▸ h.mountStorage area false
  | recorderUnmount area => exact Option.some.inj hstep ▸ h.unmountStorage area

/-- Without a flash memory, every pass of a raw read of it reads through the null pointer. -/
theorem nullAccessed_pass (hcfg : d.cfg.isSome = false) {op : RawStorageReadOperation}
    (harea : op.area = .flashMemory) (w : Guarded W) :
    (RawStorageReadOperation.pass d.calls (op, w)).1.2.nullAccessed = true := by
  have hread (address : UInt64) (n : ℕ) :
      (d.calls.readRawData .flashMemory address n w).2.nullAccessed = true := by
    change (w.nullAccessed || !d.readable .flashMemory address) = true
    rw [readable, FlashMem.isSome_readDataHeader, hcfg, Bool.not_false, Bool.or_true]
  rw [RawStorageReadOperation.pass]
  dsimp only
  rw [harea]
  have hnull := hread op.address (fragmentLimit op.bytesLeft).toNat
  split
  · next heq =>
    rw [heq] at hnull
    exact hnull
  · next heq =>
    rw [heq] at hnull
    split
    · next hsend => exact (access_of_found rfl hsend).trans hnull
    · next hsend => exact (access_of_found rfl hsend).trans hnull

/-- **The null pointer is read through** by every step that does not avoid an absent flash
memory. -/
theorem nullAccessed_of_step {action : StorageTaskAction} (h : Sound d s)
    (hnot : ¬d.AvoidsAbsentFlash s action) (hstep : d.step others s action = some t) :
    t.world.nullAccessed = true := by
  obtain ⟨state, hstate⟩ := Option.isSome_iff_exists.mp h.filesystems.flashMemory
  cases action with
  | storagePacket message =>
    obtain ⟨⟨hvalid, harea, hcommand⟩, hcfg⟩ := Classical.not_imp.mp hnot
    rw [Bool.not_eq_true, Option.isSome_eq_false_iff, Option.isNone_iff_eq_none] at hcfg
    obtain rfl := Option.some.inj hstep
    simp only [processStoragePacket, hvalid, Bool.not_true, Bool.false_eq_true, ↓reduceIte,
      performStorageCommand, hcommand, harea, Program.perform_bind, Program.call_bind,
      Program.exec, system, getStorageSize, hstate, getSize, hcfg, FlashMem.getTotalSize,
      Option.map_none]
    rfl
  | iterate =>
    obtain ⟨⟨op, hop, hrunning, harea⟩, hcfg⟩ := Classical.not_imp.mp hnot
    rw [Bool.not_eq_true] at hcfg
    obtain rfl := Option.some.inj hstep
    rw [Storage.world_readerIteration hop, RawStorageReadOperation.iterate, harea, hstate]
    exact EarlyReturnLoop.established
      (I := fun s : RawStorageReadOperation × Guarded W => s.1.area = .flashMemory)
      (Q := fun s => s.2.nullAccessed = true)
      (fun s hs _ => ⟨(RawStorageReadOperation.area_pass s.1 s.2).trans hs,
        nullAccessed_pass hcfg hs s.2⟩) _ harea hrunning
  | _ => exact absurd trivial hnot

/-! ### Runs -/

/-- **Runs without null pointers.** Whatever hardware is found at boot and whatever the other
modules answer, a run of the storage module never reads through the null pointer of the flash
memory driver exactly if the flash memory was identified, or the run neither asks for its size nor
iterates a running raw read of it. -/
theorem not_nullAccessed_iff (d : Devices W) (others : Program.Environment SystemAnswer W)
    (mode : Lifecycle.InitMode) (w : W) (actions : List StorageTaskAction) :
    (∀ t, StepSystem.Visits (d.step others) (d.booted mode w) actions t →
      t.world.nullAccessed = false) ↔
    StepSystem.Meets (d.step others) d.AvoidsAbsentFlash (d.booted mode w) actions := by
  have hsome (s : Storage (Guarded W)) (action : StorageTaskAction) :
      (d.step others s action).isSome = true := by
    cases action <;> rfl
  have hallowed : StepSystem.Meets (d.step others) (fun s action =>
        (d.step others s action).isSome = true → d.AvoidsAbsentFlash s action)
        (d.booted mode w) actions ↔
      StepSystem.Meets (d.step others) d.AvoidsAbsentFlash (d.booted mode w) actions :=
    StepSystem.meets_congr (I := fun _ => True) (fun _ _ _ _ _ => trivial)
      (fun s action _ => imp_iff_right (hsome s action)) trivial
  rw [← hallowed]
  refine StepSystem.forall_visits_iff_meets (I := Sound d) (fun s hs => hs.nullAccessed)
    (fun s action t hs hok hstep => hs.step hok hstep) (fun s action t hs hnot hstep => ?_)
    (Sound.booted mode w)
  rw [nullAccessed_of_step hs hnot hstep]
  exact Bool.false_ne_true.symm

/-- **Requests without a flash memory.** Nothing drives the bus of the flash memory at boot, and
only an SD card is found. The ground station asks for the size of the flash memory, or for 16 bytes
of it, which the reader then tries to read. -/
theorem nullAccessed_without_flash :
    let d : Devices Medium.State := ⟨0xFFFFFF, false, 0x10000, Medium.blank.io⟩
    let others : Program.Environment SystemAnswer Medium.State :=
      fun c w => ((permissive c ()).1, w)
    let boot := d.booted .normal { outcomes := fun _ => true }
    let request (areaAndCommand : UInt8) : StorageTaskAction := .storagePacket
      ⟨0, ⟨7, FrameType.storage, Component.groundStation, Component.onboardComputer⟩,
        [areaAndCommand, 0, 0, 0, 0, 16, 0]⟩
    (∃ t, StepSystem.Visits (d.step others) boot [request 0x15] t ∧
      t.world.nullAccessed = true) ∧
    ∃ t, StepSystem.Visits (d.step others) boot [request 0x14, .iterate] t ∧
      t.world.nullAccessed = true := by
  intro d others boot request
  exact ⟨⟨_, StepSystem.visits_of_run rfl, by decide +kernel⟩,
    ⟨_, StepSystem.visits_of_run rfl, by decide +kernel⟩⟩

end Devices

end TellerOBC
