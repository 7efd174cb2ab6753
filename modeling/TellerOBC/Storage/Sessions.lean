import TellerOBC.Foundations.StepSystem
import TellerOBC.Storage.Effects
import TellerOBC.Storage.Medium

/-!
# Open handles and mounted file systems

A download or a listing holds an open handle over many iterations of the reader task. Between
any two of them the command task mounts, erases and starts operations, and the recorder task
of an area mounts and unmounts it in its manage loop. The command `STORAGE_COMMAND_UNMOUNT` does
not unmount anything by itself: it asks the recorder to stop, and the recorder unmounts.

The calls on open handles are recorded by a monitor below the storage module, together with
whether the file system of the handle was mounted at that time. The operations that start
handles check the mount flag, but `unmountStorage` does not look at the installed operation:
after the recorder unmounted the area of a handle, the next iteration uses the handle.

## Main definitions

* `TellerOBC.Monitor`, `TellerOBC.monitor`: the calls on handles are recorded.
* `TellerOBC.SessionAction`, `TellerOBC.sessionStep`: the interleaved steps of the three tasks.
* `TellerOBC.HandlesMounted`: the invariant.

## Main results

* `TellerOBC.HandlesMounted.step`: the invariant is kept by steps that unmount no open handle.
* `TellerOBC.handles_used_while_mounted`: every call on a handle is made while its file system is
  mounted, in every run where no recorder unmounts the file system of an open handle.
-/

namespace TellerOBC

/-! ### The monitor -/

/-- The calls of operations on open handles. -/
inductive HandleCall where
  | tell
  | read
  | seek
  | dirRead
  deriving DecidableEq, Repr

/-- A call on an open handle, its area, and whether the area was mounted. -/
structure CallRecord where
  area : StorageArea
  call : HandleCall
  mounted : Bool
  deriving DecidableEq, Repr

/-- A world with the areas that are mounted in littlefs and the calls on handles so far. -/
structure Monitor (W : Type) where
  world : W
  mounted : StorageArea → Bool
  calls : List CallRecord := []

namespace Monitor

variable {W : Type} {α : Type}

/-- A call that is not recorded. -/
def lift (f : W → α × W) (w : Monitor W) : α × Monitor W :=
  ((f w.world).1, { w with world := (f w.world).2 })

/-- A call on a handle of an area. -/
def record (area : StorageArea) (call : HandleCall) (f : W → α × W) (w : Monitor W) :
    α × Monitor W :=
  ((f w.world).1,
    { w with
      world := (f w.world).2
      calls := w.calls ++ [⟨area, call, w.mounted area⟩] })

/-- A call that mounts or unmounts an area when it succeeds. -/
def setMounted (area : StorageArea) (b : Bool) (f : W → Option LfsError × W) (w : Monitor W) :
    Option LfsError × Monitor W :=
  ((f w.world).1,
    { w with
      world := (f w.world).2
      mounted := if (f w.world).1 = none then Function.update w.mounted area b else w.mounted })

/-- All recorded calls were made while the area of the handle was mounted. -/
def AllMounted (w : Monitor W) : Prop := ∀ call ∈ w.calls, call.mounted = true

/-- What calls on handles of some areas can do: nothing is mounted or unmounted, and if these
areas are mounted, so they were for all new calls. -/
structure Uses (P : StorageArea → Prop) (w w' : Monitor W) : Prop where
  mounted : w'.mounted = w.mounted
  calls : (∀ area, P area → w.mounted area = true) → w.AllMounted → w'.AllMounted

end Monitor

open Monitor in
/-- The calls of the storage operations with the monitor in between. -/
def monitor {W : Type} (io : StorageIO W) : StorageIO (Monitor W) where
  mount area := setMounted area true (io.mount area)
  unmount area := setMounted area false (io.unmount area)
  format area := lift (io.format area)
  open_ area name flags := lift (io.open_ area name flags)
  opencfg area name flags := lift (io.opencfg area name flags)
  sync area fd := lift (io.sync area fd)
  close area fd := lift (io.close area fd)
  read area fd n := record area .read (io.read area fd n)
  write area fd bytes := lift (io.write area fd bytes)
  tell area fd := record area .tell (io.tell area fd)
  size area fd := lift (io.size area fd)
  seek area fd offset := record area .seek (io.seek area fd offset)
  stat area name := lift (io.stat area name)
  dirOpen area name := lift (io.dirOpen area name)
  dirClose area dd := lift (io.dirClose area dd)
  dirRead area dd := record area .dirRead (io.dirRead area dd)
  dirRewind area dd := lift (io.dirRewind area dd)
  readData area address n := lift (io.readData area address n)
  sendTo targets frameType payload := lift (io.sendTo targets frameType payload)

/-! ### The interleaved steps -/

/-- The steps of the command task, of the storage reader task, and of the recorder tasks. -/
inductive SessionAction where
  /-- `STORAGE_COMMAND_MOUNT`. -/
  | mount (area : StorageArea)
  /-- `STORAGE_COMMAND_UNMOUNT`, which posts a stop request to the recorder. -/
  | unmount (area : StorageArea)
  /-- `STORAGE_COMMAND_ERASE`. -/
  | erase (area : StorageArea)
  /-- `STORAGE_COMMAND_READ`. -/
  | startRawStorageDownload (area : StorageArea) (address : UInt64) (length : UInt16)
      (targets seqNo : UInt8)
  /-- A directory listing request. -/
  | startDirectoryListing (area : StorageArea) (name : List UInt8) (start_ count : UInt16)
      (targets seqNo : UInt8)
  /-- A file download request. -/
  | startFileDownload (area : StorageArea) (path : List UInt8) (offset : UInt32)
      (length : UInt16) (targets seqNo : UInt8)
  /-- One iteration of `runStorageReader`. -/
  | iterate
  /-- The call of `mountStorage` in `manage`. -/
  | recorderMount (area : StorageArea)
  /-- The call of `unmountStorage` in `manage`. -/
  | recorderUnmount (area : StorageArea)

variable {W : Type} (io : StorageIO W)

namespace Storage

/-- The storage module when the monitor starts; littlefs has mounted what the flags say. -/
def monitored (s : Storage W) : Storage (Monitor W) :=
  { s with world := { world := s.world, mounted := s.filesystems.isMounted } }

/-- The storage module after a command on its file systems. -/
def setFilesystems {V : Type} (s : Storage V) (r : Option Errno × Filesystems × V) : Storage V :=
  { s with filesystems := r.2.1, world := r.2.2 }

end Storage

/-- The storage module after a step; every step is enabled in every state. -/
def sessionStep (s : Storage (Monitor W)) : SessionAction → Option (Storage (Monitor W))
  | .mount area =>
    some (s.setFilesystems
      (mountStorage (monitor io).toLittleFS area s.filesystems s.world true))
  | .unmount _ => some s
  | .erase area =>
    some (s.setFilesystems (eraseStorage (monitor io).toLittleFS area s.filesystems s.world))
  | .startRawStorageDownload area address length targets seqNo =>
    some (s.startRawStorageDownload (monitor io) area address length targets seqNo).2
  | .startDirectoryListing area name start_ count targets seqNo =>
    some (s.startDirectoryListing (monitor io) area name start_ count targets seqNo).2
  | .startFileDownload area path offset length targets seqNo =>
    some (s.startFileDownload (monitor io) area path offset length targets seqNo).2
  | .iterate => some (s.readerIteration (monitor io))
  | .recorderMount area =>
    some (s.setFilesystems
      (mountStorage (monitor io).toLittleFS area s.filesystems s.world false))
  | .recorderUnmount area =>
    some (s.setFilesystems (unmountStorage (monitor io).toLittleFS area s.filesystems s.world))

/-- No recorder unmounts the file system of the handle of the installed operation: where it
calls `unmountStorage`, the handle is on another area or littlefs refuses to unmount. -/
def UnmountsNoHandle (s : Storage (Monitor W)) : SessionAction → Prop
  | .recorderUnmount area =>
    ∀ op, s.access.operation = some op → op.handleArea = some area →
      (io.unmount area s.world.world).1 ≠ none
  | _ => True

/-! ### The invariant -/

/-- The mount flags tell what is mounted in littlefs, the installed operation has its handle
on a mounted file system, and all calls on handles were made on mounted file systems. -/
structure HandlesMounted (s : Storage (Monitor W)) : Prop where
  flags : s.world.mounted = s.filesystems.isMounted
  handle : s.HandleOn fun area => s.filesystems.isMounted area = true
  calls : s.world.AllMounted

/-- Without an operation nothing is wrong when the monitor starts. -/
theorem handlesMounted_monitored {s : Storage W} (hop : s.access.operation = none) :
    HandlesMounted s.monitored where
  flags := rfl
  handle op h := by simp [Storage.monitored, hop] at h
  calls call h := by simp [Storage.monitored] at h

open Monitor in
theorem handleCalls_monitor (P : StorageArea → Prop) : HandleCalls (monitor io) (Uses P) P := by
  have hlift {α : Type} {f : W → α × W} {w w' : Monitor W} {r : α} (h : lift f w = (r, w')) :
      Uses P w w' := by
    rw [← (Prod.mk.inj h).2]
    exact ⟨rfl, fun _ hcalls => hcalls⟩
  have hrecord {α : Type} {area : StorageArea} (harea : P area) {call : HandleCall}
      {f : W → α × W} {w w' : Monitor W} {r : α} (h : record area call f w = (r, w')) :
      Uses P w w' := by
    rw [← (Prod.mk.inj h).2]
    refine ⟨rfl, fun hmounted hcalls c hc => ?_⟩
    rcases List.mem_append.mp hc with hc | hc
    · exact hcalls c hc
    · rw [List.mem_singleton.mp hc]
      exact hmounted area harea
  exact {
    refl := fun w => ⟨rfl, fun _ hcalls => hcalls⟩
    trans := fun h₁ h₂ => ⟨h₂.mounted.trans h₁.mounted, fun hmounted hcalls =>
      h₂.calls (h₁.mounted ▸ hmounted) (h₁.calls hmounted hcalls)⟩
    open_ := fun _ => hlift
    dirOpen := fun _ => hlift
    close := fun _ => hlift
    read := fun harea heq => hrecord harea heq
    tell := fun harea heq => hrecord harea heq
    size := fun _ => hlift
    seek := fun harea heq => hrecord harea heq
    dirClose := fun _ => hlift
    dirRead := fun harea heq => hrecord harea heq
    dirRewind := fun _ => hlift
    readData := hlift
    sendTo := hlift }

namespace HandlesMounted

variable {io} {s t : Storage (Monitor W)}

/-- The steps of the manager keep the invariant. -/
theorem of_respects (h : HandlesMounted s)
    (hstep : Storage.Respects (Monitor.Uses fun area => s.filesystems.isMounted area = true)
      (fun area => s.filesystems.isMounted area = true) s t) : HandlesMounted t where
  flags := by rw [hstep.world.mounted, hstep.filesystems, h.flags]
  handle := by
    rw [hstep.filesystems]
    exact hstep.handleOn
  calls := hstep.world.calls (fun area harea => by rwa [h.flags]) h.calls

/-- A command on the file systems keeps the invariant if it makes no call on a handle, the flags
follow littlefs, and the areas of handles stay mounted. -/
theorem setFilesystems (h : HandlesMounted s) {r : Option Errno × Filesystems × Monitor W}
    (hcalls : r.2.2.calls = s.world.calls) (hflags : r.2.2.mounted = r.2.1.isMounted)
    (hhandle : s.HandleOn fun area => r.2.1.isMounted area = true) :
    HandlesMounted (s.setFilesystems r) where
  flags := hflags
  handle := hhandle
  calls := by
    intro call hcall
    rw [Storage.setFilesystems, hcalls] at hcall
    exact h.calls call hcall

/-- A command that mounts and unmounts nothing keeps the invariant. -/
theorem setFilesystems_of_isMounted (h : HandlesMounted s)
    {r : Option Errno × Filesystems × Monitor W}
    (hcalls : r.2.2.calls = s.world.calls) (hmounted : r.2.2.mounted = s.world.mounted)
    (hsame : r.2.1.isMounted = s.filesystems.isMounted) : HandlesMounted (s.setFilesystems r) := by
  refine h.setFilesystems hcalls (by rw [hmounted, hsame, h.flags]) ?_
  rw [hsame]
  exact h.handle

theorem mountStorage (h : HandlesMounted s) (area : StorageArea) (force : Bool) :
    HandlesMounted (s.setFilesystems
      (TellerOBC.mountStorage (monitor io).toLittleFS area s.filesystems s.world force)) := by
  rcases mountStorage_cases (monitor io).toLittleFS area s.filesystems s.world force with
    ⟨hw, hm⟩ | ⟨hw, hm⟩
  · exact h.setFilesystems_of_isMounted (by rw [hw]) (by rw [hw]) hm
  · refine h.setFilesystems (by rw [hw]; rfl) ?_ fun op hop a ha => ?_
    · rw [hw, hm, ← h.flags]
      rfl
    · rw [hm]
      split
      · rw [Function.update_apply]
        split
        · rfl
        · exact h.handle op hop a ha
      · exact h.handle op hop a ha

theorem eraseStorage (h : HandlesMounted s) (area : StorageArea) :
    HandlesMounted (s.setFilesystems
      (TellerOBC.eraseStorage (monitor io).toLittleFS area s.filesystems s.world)) := by
  obtain ⟨hm, hw | hw⟩ := eraseStorage_cases (monitor io).toLittleFS area s.filesystems s.world
  · exact h.setFilesystems_of_isMounted (by rw [hw]) (by rw [hw]) hm
  · exact h.setFilesystems_of_isMounted (by rw [hw]; rfl) (by rw [hw]; rfl) hm

theorem unmountStorage (h : HandlesMounted s) {area : StorageArea}
    (hok : UnmountsNoHandle io s (.recorderUnmount area)) :
    HandlesMounted (s.setFilesystems
      (TellerOBC.unmountStorage (monitor io).toLittleFS area s.filesystems s.world)) := by
  rcases unmountStorage_cases (monitor io).toLittleFS area s.filesystems s.world with
    ⟨hw, hm⟩ | ⟨hw, hm⟩
  · exact h.setFilesystems_of_isMounted (by rw [hw]) (by rw [hw]) hm
  · refine h.setFilesystems (by rw [hw]; rfl) ?_ fun op hop a ha => ?_
    · rw [hw, hm, ← h.flags]
      rfl
    · rw [hm]
      split
      · next hsuccess =>
        -- littlefs unmounts, so the handle is on another area
        have hne : a ≠ area := by
          rintro rfl
          exact hok op hop ha hsuccess
        rw [Function.update_of_ne hne]
        exact h.handle op hop a ha
      · exact h.handle op hop a ha

/-- **The step lemma.** A step that unmounts no open handle keeps the invariant. -/
theorem step {action : SessionAction} (h : HandlesMounted s) (hok : UnmountsNoHandle io s action)
    (hstep : sessionStep io s action = some t) : HandlesMounted t := by
  have hcalls := handleCalls_monitor io fun area => s.filesystems.isMounted area = true
  cases action with
  | mount area => exact Option.some.inj hstep ▸ h.mountStorage area true
  | unmount area => exact Option.some.inj hstep ▸ h
  | erase area => exact Option.some.inj hstep ▸ h.eraseStorage area
  | startRawStorageDownload area address length targets seqNo =>
    exact Option.some.inj hstep ▸ h.of_respects
      (Storage.startRawStorageDownload_respects area length targets seqNo hcalls h.handle address)
  | startDirectoryListing area name start_ count targets seqNo =>
    exact Option.some.inj hstep ▸ h.of_respects
      (Storage.startDirectoryListing_respects area targets seqNo hcalls h.handle id name start_
        count)
  | startFileDownload area path offset length targets seqNo =>
    exact Option.some.inj hstep ▸ h.of_respects
      (Storage.startFileDownload_respects area length targets seqNo hcalls h.handle id path offset)
  | iterate =>
    exact Option.some.inj hstep ▸ h.of_respects (Storage.readerIteration_respects hcalls h.handle)
  | recorderMount area => exact Option.some.inj hstep ▸ h.mountStorage area false
  | recorderUnmount area => exact Option.some.inj hstep ▸ h.unmountStorage hok

end HandlesMounted

/-! ### Runs -/

/-- **Handles are used while mounted.** From a state without an operation, along every run of the
three tasks in which no recorder unmounts the file system of the handle of the installed
operation, every call on a handle is made while the file system of the handle is mounted. -/
theorem handles_used_while_mounted {s : Storage W} {t : Storage (Monitor W)}
    {actions : List SessionAction} (hop : s.access.operation = none)
    (hok : StepSystem.Meets (sessionStep io) (UnmountsNoHandle io) s.monitored actions)
    (ht : StepSystem.Visits (sessionStep io) s.monitored actions t) : t.world.AllMounted :=
  (StepSystem.invariant_visits (fun _ _ _ h hmeets hstep => h.step hmeets hstep)
    (handlesMounted_monitored hop) hok ht).calls

open Medium in
/-- A download from the SD card while the recorder of the flash memory unmounts it. -/
theorem handles_used_while_mounted_flashMemory :
    let m : Medium := ⟨fun _ => 0, [1, 2, 3], by decide, .empty⟩
    let s := booted fun _ => true
    let actions : List SessionAction :=
      [.startFileDownload .sdCard [0x61] 0 3 1 0, .unmount .flashMemory,
        .recorderUnmount .flashMemory, .iterate]
    ∀ t, StepSystem.Visits (sessionStep m.io) s.monitored actions t → t.world.AllMounted := by
  intro m s actions t
  refine handles_used_while_mounted m.io rfl ⟨trivial, fun u hu => ⟨trivial, fun v hv => ⟨?_,
    fun _ _ => ⟨trivial, fun _ _ => trivial⟩⟩⟩⟩
  -- the operation that the recorder finds has its handle on the SD card
  cases hu
  cases hv
  intro op hop harea
  cases hop
  cases harea

open Medium in
/-- **A recorder unmounts below an operation.** The recorder of the SD card stops on a command
and unmounts it, and the next iteration of a download asks its handle for the position. -/
theorem not_handles_used_while_mounted :
    let m : Medium := ⟨fun _ => 0, [1, 2, 3], by decide, .empty⟩
    let s := booted fun _ => true
    let actions : List SessionAction :=
      [.startFileDownload .sdCard [0x61] 0 3 1 0, .unmount .sdCard, .recorderUnmount .sdCard,
        .iterate]
    ∃ t, StepSystem.Visits (sessionStep m.io) s.monitored actions t ∧
      ⟨.sdCard, .tell, false⟩ ∈ t.world.calls := by
  intro m s actions
  refine ⟨_, StepSystem.visits_of_run rfl, ?_⟩
  decide

end TellerOBC
