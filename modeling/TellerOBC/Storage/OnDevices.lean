import TellerOBC.Storage.Lifecycle

/-!
# File systems on the devices that were found

The storage module keeps a state object for the flash memory and for the SD card even if the device
was not found at boot. `setup` configures an area only if its driver has a configuration, and only
a configured area has a littlefs object. The functions that mount, unmount and format areas test
the pointer to that object, so that they never call littlefs for an area without a device.

## Main definitions

* `TellerOBC.FilesystemState.OnDevice`, `TellerOBC.Filesystems.OnDevices`: what the flags of areas
  say about their devices.
* `TellerOBC.Lifecycle.StayOnDevices`: programs that keep this and call littlefs only for areas with
  a device.

## Main results

* `TellerOBC.Lifecycle.stayOnDevices_setup`, `TellerOBC.Lifecycle.stayOnDevices_mountStorage`,
  `TellerOBC.Lifecycle.stayOnDevices_unmountStorage`,
  `TellerOBC.Lifecycle.stayOnDevices_eraseStorage`.
-/

namespace TellerOBC

/-! ### Areas with a device -/

/-- A file system is mounted only if it has a littlefs object; it has one exactly if it is
configured, and only if the device was found. -/
structure FilesystemState.OnDevice (found : Bool) (s : FilesystemState) : Prop where
  configured_eq : s.configured = s.fs
  fs_of_mounted : s.mounted = true → s.fs = true
  found_of_fs : s.fs = true → found = true

/-- The error flag does not matter. -/
theorem FilesystemState.OnDevice.errored {found : Bool} {s : FilesystemState}
    (h : s.OnDevice found) (b : Bool) :
    ({ s with errored := b } : FilesystemState).OnDevice found :=
  ⟨h.configured_eq, h.fs_of_mounted, h.found_of_fs⟩

/-- All file systems are on devices that were found, and the flash memory has a state object
whether it was found or not. -/
structure Filesystems.OnDevices (found : StorageArea → Bool) (fs : Filesystems) : Prop where
  onDevice : ∀ area s, fs.getState area = some s → s.OnDevice (found area)
  flashMemory : (fs.getState .flashMemory).isSome = true

namespace Filesystems.OnDevices

variable {found : StorageArea → Bool} {fs : Filesystems} {area : StorageArea} {s : FilesystemState}

theorem set (h : fs.OnDevices found) (hs : s.OnDevice (found area)) :
    (fs.set area s).OnDevices found where
  onDevice := forall_getState_set hs fun area' t _ ht => h.onDevice area' t ht
  flashMemory := by
    by_cases heq : .flashMemory = area
    · subst heq
      rw [getState_set_self, Option.isSome_some]
    · rw [getState_set_of_ne fs s heq]
      exact h.flashMemory

/-- A mounted area has a device. -/
theorem found_of_isMounted (h : fs.OnDevices found) (hmounted : fs.isMounted area = true) :
    found area = true := by
  obtain ⟨s, hs, hs'⟩ := (Option.any_eq_true _ _).mp hmounted
  have hdevice := h.onDevice area s hs
  exact hdevice.found_of_fs (hdevice.fs_of_mounted hs')

end Filesystems.OnDevices

/-! ### Calls of littlefs -/

namespace Lifecycle

variable {α : Type}

/-- A call of littlefs for an area with a device; creating the object calls nothing. -/
def CallsDevice (found : StorageArea → Bool) (e : LfsEvent) : Prop :=
  e.1.method = .create ∨ found e.1.area = true

variable {found : StorageArea → Bool} {area : StorageArea} {s : FilesystemState}

theorem always_call {method : LfsMethod} {f : Option LfsError → LfsProgram α} {Q : α → Prop}
    (hfound : found area = true) (hf : ∀ error, (f error).Always (CallsDevice found) Q) :
    (call method area s >>= f).Always (CallsDevice found) Q :=
  fun error => ⟨Or.inr hfound, hf error⟩

/-- The functions on state objects that call littlefs only for areas with a device, and keep the
file system on it. -/
abbrev StaysOnDevice (found : StorageArea → Bool) (area : StorageArea)
    (p : LfsProgram (α × FilesystemState)) : Prop :=
  p.Always (CallsDevice found) fun r => r.2.OnDevice (found area)

theorem staysOnDevice_configure (hfound : found area = true) (h : s.OnDevice (found area)) :
    StaysOnDevice found area (configure area s) := by
  rw [configure]
  split_ifs with hconfigured
  · exact h
  · have hfs : s.fs ≠ true := h.configured_eq ▸ hconfigured
    refine always_call hfound fun error => ?_
    cases error with
    | none => exact ⟨rfl, fun _ => rfl, fun _ => hfound⟩
    | some e =>
      exact ⟨Bool.eq_false_iff.mpr hconfigured,
        fun hmounted => absurd (h.fs_of_mounted hmounted) hfs, fun _ => hfound⟩

theorem staysOnDevice_ensureMounted (h : s.OnDevice (found area)) :
    StaysOnDevice found area (ensureMounted area s) := by
  rw [ensureMounted]
  split_ifs with hmounted hfs herrored
  · exact h
  · exact h
  · exact h
  · rw [Bool.not_eq_true', Bool.not_eq_false] at hfs
    refine always_call (h.found_of_fs hfs) fun error => ?_
    cases error with
    | none => exact ⟨h.configured_eq, fun _ => hfs, h.found_of_fs⟩
    | some e => exact h

theorem staysOnDevice_ensureUnmounted (h : s.OnDevice (found area)) :
    StaysOnDevice found area (ensureUnmounted area s) := by
  rw [ensureUnmounted]
  split_ifs with hmounted hfs
  · exact h
  · exact h
  · rw [Bool.not_eq_true', Bool.not_eq_false] at hfs
    refine always_call (h.found_of_fs hfs) fun error => ?_
    cases error with
    | none =>
      exact ⟨h.configured_eq, fun hmounted => absurd hmounted Bool.false_ne_true, h.found_of_fs⟩
    | some e => exact h

theorem staysOnDevice_format (h : s.OnDevice (found area)) :
    StaysOnDevice found area (format area s) := by
  rw [format]
  split_ifs with hfs
  · exact always_call (h.found_of_fs hfs) fun _ => h
  · exact h

theorem staysOnDevice_formatUnmounted (h : s.OnDevice (found area)) :
    StaysOnDevice found area (formatUnmounted area s) := by
  refine (staysOnDevice_ensureUnmounted h).bind fun r hr => ?_
  split_ifs with hunmounted hfs
  · exact hr
  · exact hr
  · rw [Bool.not_eq_true', Bool.not_eq_false] at hfs
    exact always_call (hr.found_of_fs hfs) fun _ => hr

theorem staysOnDevice_formatIfNeeded (h : s.OnDevice (found area)) :
    StaysOnDevice found area (formatIfNeeded area s) := by
  rw [formatIfNeeded]
  split_ifs with hneeded
  · exact always_call (h.found_of_fs (Bool.and_eq_true_iff.mp hneeded).2) fun _ => h
  · exact h

theorem staysOnDevice_mountIfNeeded (h : s.OnDevice (found area)) :
    StaysOnDevice found area (mountIfNeeded area s) := by
  rw [mountIfNeeded]
  split_ifs
  · exact staysOnDevice_ensureMounted h
  · exact h

/-! ### All file systems -/

/-- The functions on all file systems that call littlefs only for areas with a device, and keep
the file systems on their devices. -/
abbrev StayOnDevices (found : StorageArea → Bool) (p : LfsProgram (α × Filesystems)) : Prop :=
  p.Always (CallsDevice found) fun r => r.2.OnDevices found

variable {fs : Filesystems}

theorem stayOnDevices_withState {default : α}
    {f : FilesystemState → LfsProgram (α × FilesystemState)} (h : fs.OnDevices found)
    (hf : ∀ s, s.OnDevice (found area) → StaysOnDevice found area (f s)) :
    StayOnDevices found (withState area fs default f) := by
  rw [withState]
  split
  · exact h
  · next s hs => exact (hf s (h.onDevice area s hs)).bind fun r hr => h.set hr

theorem stayOnDevices_forEachState
    {f : StorageArea → FilesystemState → LfsProgram (Bool × FilesystemState)}
    (hf : ∀ area s, s.OnDevice (found area) → StaysOnDevice found area (f area s))
    (areas : List StorageArea) (h : fs.OnDevices found) :
    StayOnDevices found (forEachState f areas fs) := by
  induction areas generalizing fs with
  | nil => exact h
  | cons area areas ih =>
    refine (stayOnDevices_withState h (hf area)).bind fun r hr => ?_
    exact (ih hr).bind fun _ hrest => hrest

theorem stayOnDevices_mountStorage (h : fs.OnDevices found) (force : Bool) :
    StayOnDevices found (mountStorage area fs force) := by
  refine stayOnDevices_withState h fun s hs => ?_
  have hcleared : (if force then s.clearErrors else s).OnDevice (found area) := by
    split
    · exact hs.errored false
    · exact hs
  refine (staysOnDevice_ensureMounted hcleared).bind fun r hr => ?_
  split
  · exact hr
  · exact hr.errored true

theorem stayOnDevices_unmountStorage (h : fs.OnDevices found) :
    StayOnDevices found (unmountStorage area fs) := by
  refine stayOnDevices_withState h fun s hs => ?_
  refine (staysOnDevice_ensureUnmounted hs).bind fun r hr => ?_
  split
  · exact hr
  · exact hr.errored true

theorem stayOnDevices_eraseStorage (h : fs.OnDevices found) :
    StayOnDevices found (eraseStorage area fs) := by
  refine stayOnDevices_withState h fun s hs => ?_
  split
  · exact hs
  · refine (staysOnDevice_format hs).bind fun r hr => ?_
    split
    · exact hr.errored true
    · exact hr

theorem stayOnDevices_setupMounted (mode : InitMode) (h : fs.OnDevices found) :
    StayOnDevices found (setupMounted fs mode) := by
  have hmount {fs : Filesystems} (h : fs.OnDevices found) : StayOnDevices found (mountAtBoot fs) :=
    stayOnDevices_forEachState (fun _ _ => staysOnDevice_mountIfNeeded) storageAreas h
  refine (hmount h).bind fun mounted hmounted => ?_
  split
  · refine (stayOnDevices_forEachState (fun _ _ => staysOnDevice_formatIfNeeded) storageAreas
      hmounted).bind fun formatted hformatted => ?_
    exact (hmount hformatted).bind fun _ hr => hr
  · exact hmounted

/-- **Setup** gives littlefs objects only to areas with a device. -/
theorem stayOnDevices_setup (mode : InitMode) (h : fs.OnDevices found) :
    StayOnDevices found (setup fs (found .flashMemory) (found .sdCard) mode) := by
  have hconfigure (area : StorageArea) {fs : Filesystems} (h : fs.OnDevices found) :
      StayOnDevices found (configureIfFound area fs (found area)) := by
    rw [configureIfFound]
    split_ifs with hfound
    · refine stayOnDevices_withState h fun s hs => ?_
      split
      · exact hs
      · exact staysOnDevice_configure hfound hs
    · exact h
  refine (hconfigure .flashMemory h).bind fun flash hflash => ?_
  refine (hconfigure .sdCard hflash).bind fun sd hsd => ?_
  split
  · refine (stayOnDevices_forEachState (fun _ _ => staysOnDevice_formatUnmounted) storageAreas
      hsd).bind fun formatted hformatted => ?_
    split
    · exact hformatted
    · exact stayOnDevices_setupMounted mode hformatted
  · exact stayOnDevices_setupMounted mode hsd

theorem onDevices_start {W : Type} (w : W) : (start w).fs.OnDevices found where
  onDevice area s hs := by
    obtain rfl := eq_of_getState_start hs
    exact ⟨rfl, nofun, nofun⟩
  flashMemory := rfl

end Lifecycle

end TellerOBC
