import TellerOBC.Foundations.StepSystem
import TellerOBC.Storage.DirectoryListing

/-!
# Seeking in a directory

The index of a directory handle is meant to be the number of the entry that is read next, but
`read` does not count it up, so it stays zero. `seek` to a positive index takes that for seeking
forwards, rewinds the directory and reads nothing; `seek` to zero does nothing at all. The entry
that is read next depends on the entries that were read since the directory was last rewound.

littlefs is given by what its calls do to the position of the open directory when they succeed.

## Main definitions

* `TellerOBC.ReadsDirectory`: the calls of littlefs on an open directory.
* `TellerOBC.DirCall`, `TellerOBC.DirCall.perform`: the calls of the users of a handle.
* `TellerOBC.entriesRead`: the entries read since the directory was last rewound.

## Main results

* `TellerOBC.ReadsDirectory.atPosition_run`: the position after any calls.
* `TellerOBC.ReadsDirectory.read_seek_iff`: the entry that is read after seeking.
* `TellerOBC.directorySeek_iff`: that, and the entries of a listing with a start index.
-/

namespace TellerOBC

open StepSystem

/-- The entry at an index, or the mark at the end of the directory, as it is read. -/
def Directory.entryAt (d : Directory) (i : ℕ) : Except LfsError DirInfo :=
  match d.entries[i]? with
  | some info => .ok info
  | none => .error .noent

/-- Different indices up to the end of a list without repetitions have different elements. -/
theorem eq_of_getElem?_eq {α : Type} {l : List α} (hl : l.Nodup) {i j : ℕ} (hi : i ≤ l.length)
    (hj : j ≤ l.length) (h : l[i]? = l[j]?) : i = j := by
  rcases Nat.lt_or_eq_of_le hi with hlt | rfl
  · exact (List.getElem?_inj hlt hl).mp h
  · rw [List.getElem?_eq_none le_rfl] at h
    exact le_antisymm (List.getElem?_eq_none_iff.mp h.symm) hj

theorem Directory.entryAt_inj {d : Directory} {i j : ℕ} (hi : i ≤ d.entries.length)
    (hj : j ≤ d.entries.length) (h : d.entryAt i = d.entryAt j) : i = j := by
  refine eq_of_getElem?_eq (List.Nodup.of_map _ d.nodup) hi hj ?_
  simp only [Directory.entryAt] at h
  cases hentry : d.entries[i]? <;> cases hentry' : d.entries[j]? <;> simp_all

/-- The calls of littlefs on an open directory that succeed go by its position: `dir_read` gives
the entry there and moves on, or finds the end, and `dir_rewind` goes back to the first entry. -/
structure ReadsDirectory {W : Type} (lfs : LittleFS W) (fs : StorageArea) (dd : ℕ)
    (d : Directory) (pos : W → ℕ) : Prop where
  read_entry : ∀ {w info w'}, lfs.dirRead fs dd w = (.ok info, w') →
    d.entries[pos w]? = some info ∧ pos w' = pos w + 1
  read_end : ∀ {w w'}, lfs.dirRead fs dd w = (.error .noent, w') →
    d.entries[pos w]? = none ∧ pos w' = pos w
  rewind : ∀ {w w'}, lfs.dirRewind fs dd w = (none, w') → pos w' = 0

/-! ### Calls -/

/-- The calls of the users of a directory handle. -/
inductive DirCall where
  | read
  | rewind
  | seek (index : ℕ)
  deriving DecidableEq, Repr

variable {W : Type} {lfs : LittleFS W} {fs : StorageArea} {dd : ℕ} {d : Directory} {pos : W → ℕ}

variable (lfs) in
/-- The handle and littlefs after a call that succeeds; reading at the end of the directory does,
too. -/
def DirCall.perform (s : SmartDirHandle × W) : DirCall → Option (SmartDirHandle × W)
  | .read =>
    match s.1.read lfs s.2 with
    | (.ok _, s) => some s
    | (.error e, s) => if e = .noent then some s else none
  | .rewind =>
    match s.1.rewind lfs s.2 with
    | (none, s) => some s
    | (some _, _) => none
  | .seek index =>
    match s.1.seek lfs s.2 index with
    | (none, s) => some s
    | (some _, _) => none

/-- The number of entries of a directory with `n` entries that the calls have read since the
directory was opened, rewound or sought to a positive index. -/
def entriesRead (n : ℕ) (calls : List DirCall) : ℕ :=
  calls.foldl (fun k call =>
    match call with
    | .read => min (k + 1) n
    | .rewind => 0
    | .seek index => if index = 0 then k else 0) 0

/-- The handle of the directory and the position of it after `k` entries. -/
structure AtPosition (fs : StorageArea) (dd : ℕ) (pos : W → ℕ) (k : ℕ)
    (s : SmartDirHandle × W) : Prop where
  fs_eq : s.1.fs = fs
  dd_eq : s.1.dd = dd
  index_eq : s.1.index = 0
  pos_eq : pos s.2 = k

namespace ReadsDirectory

variable {k : ℕ} {s t : SmartDirHandle × W}

/-- A read that succeeds gives the entry at the position, or the end, and moves behind it. -/
theorem read (h : ReadsDirectory lfs fs dd d pos) (hs : AtPosition fs dd pos k s)
    (hk : k ≤ d.entries.length) {answer : Except LfsError DirInfo}
    (hread : s.1.read lfs s.2 = (answer, t)) (hanswer : ∀ e, answer = .error e → e = .noent) :
    answer = d.entryAt k ∧ AtPosition fs dd pos (min (k + 1) d.entries.length) t := by
  obtain ⟨dir, w⟩ := s
  obtain ⟨rfl, rfl, hindex, rfl⟩ := hs
  dsimp only at hindex hk ⊢
  rcases hdir : lfs.dirRead dir.fs dir.dd w with ⟨e | info, w'⟩
  · simp only [SmartDirHandle.read, hdir, Prod.mk.injEq] at hread
    obtain ⟨rfl, rfl⟩ := hread
    obtain rfl := hanswer e rfl
    obtain ⟨hend, hpos⟩ := h.read_end hdir
    have hlen := List.getElem?_eq_none_iff.mp hend
    rw [Directory.entryAt, hend, min_eq_right (by omega)]
    exact ⟨rfl, rfl, rfl, hindex, hpos.trans (by omega)⟩
  · simp only [SmartDirHandle.read, hdir, Prod.mk.injEq] at hread
    obtain ⟨rfl, rfl⟩ := hread
    obtain ⟨hentry, hpos⟩ := h.read_entry hdir
    have hlt := (List.getElem?_eq_some_iff.mp hentry).1
    rw [Directory.entryAt, hentry, min_eq_left (by omega)]
    exact ⟨rfl, rfl, rfl, hindex, hpos⟩

theorem rewind_eq (h : ReadsDirectory lfs fs dd d pos) (hs : AtPosition fs dd pos k s)
    (hrewind : s.1.rewind lfs s.2 = (none, t)) : AtPosition fs dd pos 0 t := by
  obtain ⟨dir, w⟩ := s
  obtain ⟨rfl, rfl, hindex, rfl⟩ := hs
  rcases hdir : lfs.dirRewind dir.fs dir.dd w with ⟨_ | e, w'⟩
  · simp only [SmartDirHandle.rewind, hdir, Prod.mk.injEq, true_and] at hrewind
    rw [← hrewind]
    exact ⟨rfl, rfl, rfl, h.rewind hdir⟩
  · simp [SmartDirHandle.rewind, hdir] at hrewind

/-- Seeking to a positive index rewinds the directory, seeking to zero does nothing. -/
theorem seek_eq (h : ReadsDirectory lfs fs dd d pos) (hs : AtPosition fs dd pos k s) {index : ℕ}
    (hseek : s.1.seek lfs s.2 index = (none, t)) :
    AtPosition fs dd pos (if index = 0 then k else 0) t := by
  by_cases hzero : index = 0
  · rw [hzero, SmartDirHandle.seek_zero lfs _ _ hs.index_eq, Prod.mk.injEq] at hseek
    rw [if_pos hzero, ← hseek.2]
    exact hs
  · rw [SmartDirHandle.seek_of_pos lfs _ _ hs.index_eq (Nat.pos_of_ne_zero hzero)] at hseek
    rw [if_neg hzero]
    exact h.rewind_eq hs hseek

theorem entriesRead_concat (n : ℕ) (calls : List DirCall) (call : DirCall) :
    entriesRead n (calls ++ [call]) =
      match call with
      | .read => min (entriesRead n calls + 1) n
      | .rewind => 0
      | .seek index => if index = 0 then entriesRead n calls else 0 := by
  rw [entriesRead, List.foldl_append]
  rfl

theorem entriesRead_le (n : ℕ) (calls : List DirCall) : entriesRead n calls ≤ n := by
  induction calls using List.reverseRecOn with
  | nil => exact Nat.zero_le n
  | append_singleton calls call ih =>
    rw [entriesRead_concat]
    cases call with
    | read => exact min_le_right _ _
    | rewind => exact Nat.zero_le n
    | seek index =>
      dsimp only
      split_ifs
      · exact ih
      · exact Nat.zero_le n

/-- One call of a user that succeeds. -/
theorem atPosition_perform (h : ReadsDirectory lfs fs dd d pos) {calls : List DirCall}
    (hs : AtPosition fs dd pos (entriesRead d.entries.length calls) s) {call : DirCall}
    (hcall : DirCall.perform lfs s call = some t) :
    AtPosition fs dd pos (entriesRead d.entries.length (calls ++ [call])) t := by
  rw [entriesRead_concat]
  cases call with
  | read =>
    rcases hread : s.1.read lfs s.2 with ⟨e | info, u⟩
    · simp only [DirCall.perform, hread, Option.ite_none_right_eq_some, Option.some.injEq] at hcall
      obtain ⟨rfl, rfl⟩ := hcall
      exact (h.read hs (entriesRead_le _ _) hread fun e he => by simpa using he.symm).2
    · simp only [DirCall.perform, hread, Option.some.injEq] at hcall
      rw [← hcall]
      exact (h.read hs (entriesRead_le _ _) hread fun e he => by simp at he).2
  | rewind =>
    rcases hrewind : s.1.rewind lfs s.2 with ⟨_ | e, u⟩
    · simp only [DirCall.perform, hrewind, Option.some.injEq] at hcall
      rw [← hcall]
      exact h.rewind_eq hs hrewind
    · simp [DirCall.perform, hrewind] at hcall
  | seek index =>
    rcases hseek : s.1.seek lfs s.2 index with ⟨_ | e, u⟩
    · simp only [DirCall.perform, hseek, Option.some.injEq] at hcall
      rw [← hcall]
      exact h.seek_eq hs hseek
    · simp [DirCall.perform, hseek] at hcall

/-- **The position after any calls** that succeed, from the opening of the directory on. -/
theorem atPosition_run (h : ReadsDirectory lfs fs dd d pos) {w : W} (hpos : pos w = 0)
    {calls : List DirCall}
    (hrun : run (DirCall.perform lfs) ({ fs := fs, dd := dd }, w) calls = some s) :
    AtPosition fs dd pos (entriesRead d.entries.length calls) s := by
  have hopen : AtPosition fs dd pos (entriesRead d.entries.length [])
      (({ fs := fs, dd := dd } : SmartDirHandle), w) := ⟨rfl, rfl, rfl, hpos⟩
  refine invariant_history
    (J := fun calls s => AtPosition fs dd pos (entriesRead d.entries.length calls) s)
    (fun past s call t hs _ hcall => ?_) hopen (meets_true _ calls) hrun
  exact h.atPosition_perform hs hcall

/-- **Reading after seeking.** Let calls on a handle succeed from its opening on, seek to the index
of an entry or of the end with success, and read with success. The read gives what is at the index
exactly if the index is zero and no entry was read since the directory was last rewound. -/
theorem read_seek_iff (h : ReadsDirectory lfs fs dd d pos) {w : W} (hpos : pos w = 0)
    {calls : List DirCall} {i : ℕ} {u : SmartDirHandle × W}
    (hrun : run (DirCall.perform lfs) ({ fs := fs, dd := dd }, w) calls = some s)
    (hi : i ≤ d.entries.length) (hseek : s.1.seek lfs s.2 i = (none, t))
    {answer : Except LfsError DirInfo} (hread : t.1.read lfs t.2 = (answer, u))
    (hanswer : ∀ e, answer = .error e → e = .noent) :
    answer = d.entryAt i ↔ i = 0 ∧ entriesRead d.entries.length calls = 0 := by
  have hle := entriesRead_le d.entries.length calls
  have hsought := h.seek_eq (h.atPosition_run hpos hrun) hseek
  by_cases hzero : i = 0
  · subst hzero
    rw [if_pos rfl] at hsought
    rw [(h.read hsought hle hread hanswer).1, and_iff_right rfl]
    exact ⟨Directory.entryAt_inj hle hi, fun heq => by rw [heq]⟩
  · rw [if_neg hzero] at hsought
    rw [(h.read hsought (Nat.zero_le _) hread hanswer).1]
    exact iff_of_false (fun heq => hzero (Directory.entryAt_inj (Nat.zero_le _) hi heq).symm)
      fun heq => hzero heq.1

end ReadsDirectory

/-! ### Listings with a start index -/

/-- The directory without its first entries. -/
def Directory.drop (d : Directory) (k : ℕ) : Directory where
  entries := d.entries.drop k
  nodup := by
    rw [List.map_drop]
    exact d.nodup.sublist (List.drop_sublist _ _)
  name_ne entry h := d.name_ne entry (List.mem_of_mem_drop h)
  noSlash entry h := d.noSlash entry (List.mem_of_mem_drop h)

/-- The name in the frame of an entry; the end of the directory has an empty one. -/
def Directory.nameAt (d : Directory) (i : ℕ) : List UInt8 :=
  (d.entries[i]?.map DirInfo.displayName).getD []

theorem Directory.nameAt_inj {d : Directory} {i j : ℕ} (hi : i ≤ d.entries.length)
    (hj : j ≤ d.entries.length) (h : d.nameAt i = d.nameAt j) : i = j := by
  have hne {k : ℕ} {entry : DirInfo} (hentry : d.entries[k]? = some entry) :
      entry.displayName ≠ [] := Directory.displayName_ne_nil (List.mem_of_getElem? hentry)
  refine eq_of_getElem?_eq (Directory.nodup_displayName d) (by simpa using hi)
    (by simpa using hj) ?_
  rw [List.getElem?_map, List.getElem?_map]
  simp only [Directory.nameAt] at h
  cases hentry : d.entries[i]? with
  | none =>
    cases hentry' : d.entries[j]? with
    | none => rfl
    | some entry' =>
      rw [hentry, hentry'] at h
      exact absurd h.symm (hne hentry')
  | some entry =>
    cases hentry' : d.entries[j]? with
    | none =>
      rw [hentry, hentry'] at h
      exact absurd h (hne hentry)
    | some entry' =>
      rw [hentry, hentry'] at h
      exact congrArg some h

/-- The first frame of a listing. -/
theorem IsListingOf.name_zero {count : ℕ} {frames : List TelemetryFrame}
    (h : IsListingOf d count frames) (hcount : 0 < count) :
    (frames.map fun frame => frame.directoryEntry.name)[0]? = some (d.nameAt 0) := by
  have hentries := congrArg (fun l => l[0]?.map Prod.snd) h.entries
  have hnames : (frames.map fun frame => frame.directoryEntry.name)[0]? =
      (frames.map fun frame => (frame.directoryEntry.entryIndex.toNat,
        frame.directoryEntry.name))[0]?.map Prod.snd := by
    simp [Function.comp_def]
  rw [hnames, hentries, Directory.nameAt]
  cases hd : d.entries with
  | nil => simp [hcount]
  | cons entry rest =>
    obtain ⟨k, hk⟩ := Nat.exists_eq_add_of_lt hcount
    simp [hk]

section Listing

variable (m : Medium) (s : Storage Medium.State) (area : StorageArea) (name : List UInt8)
  (start_ count : UInt16) (targets seqNo : UInt8)

/-- **Listings with a start index.** -/
theorem isListingOf_drop_iff (hcount : count.toNat ≤ 256)
    (hshort : ∀ entry ∈ m.directory.entries, entry.displayName.length < 58)
    (hindex : start_.toNat ≤ m.directory.entries.length)
    (hstart : (s.startDirectoryListing m.io area name start_ count targets seqNo).1 = none)
    (haccepted : ∀ i, s.world.outcomes i = true) {n : ℕ} (hn : 1 ≤ n) :
    IsListingOf (m.directory.drop start_.toNat) count.toNat (m.framesAfter s.world.sent
      (s.startDirectoryListing m.io area name start_ count targets seqNo).2 n) ↔ start_ = 0 := by
  have hlisting := isListingOf_of_accepted hcount hshort hstart haccepted hn
  obtain ⟨op, w, hop, -⟩ := Storage.startDirectoryListing_eq_none hstart
  obtain ⟨-, -, -, -, -, -, -, hne, -⟩ := DirectoryListingOperation.start_eq_none hop
  have hpos : 0 < count.toNat := Nat.pos_of_ne_zero fun h0 => hne (UInt16.toNat_inj.mp h0)
  constructor
  · intro hdrop
    have hname := (hlisting.name_zero hpos).symm.trans (hdrop.name_zero hpos)
    have hskip : (m.directory.drop start_.toNat).nameAt 0 = m.directory.nameAt start_.toNat := by
      simp [Directory.nameAt, Directory.drop]
    rw [hskip, Option.some_inj] at hname
    have hzero := Directory.nameAt_inj (Nat.zero_le _) hindex hname
    exact UInt16.toNat_inj.mp hzero.symm
  · rintro rfl
    exact hlisting

end Listing

/-- **Seeking in a directory.** After calls on a directory handle that succeed, seek to an index up
to the end with success: a read that succeeds then gives what is at the index exactly if the index
is zero and no entry was read since the directory was last rewound. On a medium where everything
succeeds, a listing with a start index up to the end has the entries from that index on exactly if
the start index is zero. -/
theorem directorySeek_iff {W : Type} {lfs : LittleFS W} {fs : StorageArea} {dd : ℕ} {d : Directory}
    {pos : W → ℕ} (h : ReadsDirectory lfs fs dd d pos) :
    (∀ {w : W}, pos w = 0 → ∀ {calls : List DirCall} {i : ℕ} {s t u : SmartDirHandle × W},
      run (DirCall.perform lfs) ({ fs := fs, dd := dd }, w) calls = some s →
      i ≤ d.entries.length → s.1.seek lfs s.2 i = (none, t) →
      ∀ {answer : Except LfsError DirInfo}, t.1.read lfs t.2 = (answer, u) →
      (∀ e, answer = .error e → e = .noent) →
      (answer = d.entryAt i ↔ i = 0 ∧ entriesRead d.entries.length calls = 0)) ∧
    ∀ (m : Medium) (s : Storage Medium.State) (area : StorageArea) (name : List UInt8)
      (start_ count : UInt16) (targets seqNo : UInt8), count.toNat ≤ 256 →
      (∀ entry ∈ m.directory.entries, entry.displayName.length < 58) →
      start_.toNat ≤ m.directory.entries.length →
      (s.startDirectoryListing m.io area name start_ count targets seqNo).1 = none →
      (∀ i, s.world.outcomes i = true) → ∀ {n : ℕ}, 1 ≤ n →
      (IsListingOf (m.directory.drop start_.toNat) count.toNat (m.framesAfter s.world.sent
        (s.startDirectoryListing m.io area name start_ count targets seqNo).2 n) ↔
          start_ = 0) :=
  ⟨fun hpos _ _ _ _ _ hrun hi hseek _ hread hanswer =>
      h.read_seek_iff hpos hrun hi hseek hread hanswer,
    fun m s area name start_ count targets seqNo hcount hshort hindex hstart haccepted _ hn =>
      isListingOf_drop_iff m s area name start_ count targets seqNo hcount hshort hindex hstart
        haccepted hn⟩

/-- The calls on a medium go by the position in its directory. -/
theorem readsDirectory_io (m : Medium) (fs : StorageArea) (dd : ℕ) :
    ReadsDirectory m.io.toLittleFS fs dd m.directory Medium.State.dirPos := by
  constructor
  · intro w info w' hread
    cases hentry : m.directory.entries[w.dirPos]? with
    | none => simp [Medium.io, hentry] at hread
    | some entry =>
      simp only [Medium.io, hentry, Prod.mk.injEq, Except.ok.injEq] at hread
      obtain ⟨rfl, rfl⟩ := hread
      exact ⟨rfl, rfl⟩
  · intro w w' hread
    cases hentry : m.directory.entries[w.dirPos]? with
    | none =>
      simp only [Medium.io, hentry, Prod.mk.injEq, true_and] at hread
      exact ⟨rfl, congrArg Medium.State.dirPos hread.symm⟩
    | some entry => simp [Medium.io, hentry] at hread
  · intro w w' hrewind
    exact congrArg Medium.State.dirPos (Prod.mk.inj hrewind).2.symm

/-- Reading an entry, rewinding and seeking to zero, and a listing from the start. -/
theorem directorySeek_iff_twoFiles :
    (∃ s t u answer,
      run (DirCall.perform Medium.twoFiles.io.toLittleFS)
        ({ fs := .sdCard, dd := 0 }, ({ outcomes := fun _ => true } : Medium.State))
        [.read, .rewind] = some s ∧
      s.1.seek Medium.twoFiles.io.toLittleFS s.2 0 = (none, t) ∧
      t.1.read Medium.twoFiles.io.toLittleFS t.2 = (answer, u) ∧ answer = twoFiles.entryAt 0) ∧
    IsListingOf (twoFiles.drop 0) 3 (Medium.twoFiles.framesAfter []
      ((Medium.booted fun _ => true).startDirectoryListing Medium.twoFiles.io .sdCard [0x2F] 0 3
        1 0).2 1) := by
  obtain ⟨hafter, hlisting⟩ :=
    directorySeek_iff (readsDirectory_io Medium.twoFiles .sdCard 0)
  have hrun : run (DirCall.perform Medium.twoFiles.io.toLittleFS)
      ({ fs := .sdCard, dd := 0 }, ({ outcomes := fun _ => true } : Medium.State))
      [.read, .rewind] = some ({ fs := .sdCard, dd := 0 }, { outcomes := fun _ => true }) := rfl
  have hseek : SmartDirHandle.seek Medium.twoFiles.io.toLittleFS { fs := .sdCard, dd := 0 }
      { outcomes := fun _ => true } 0 =
        (none, { fs := .sdCard, dd := 0 }, { outcomes := fun _ => true }) := rfl
  have hread : SmartDirHandle.read Medium.twoFiles.io.toLittleFS { fs := .sdCard, dd := 0 }
      { outcomes := fun _ => true } = (.ok ⟨⟨[0x61], by decide⟩, .reg, 1⟩,
        { fs := .sdCard, dd := 0 }, { dirPos := 1, outcomes := fun _ => true }) := rfl
  refine ⟨⟨_, _, _, _, hrun, hseek, hread, ?_⟩, ?_⟩
  · exact (hafter rfl hrun (Nat.zero_le _) hseek hread (fun e he => nomatch he)).mpr ⟨rfl, rfl⟩
  · exact (hlisting Medium.twoFiles (Medium.booted fun _ => true) .sdCard [0x2F] 0 3 1 0
      (by decide) (by decide) (Nat.zero_le _) rfl (fun _ => rfl) le_rfl).mpr rfl

/-- **Seeking forwards and backwards.** Of two files, the first one is read after seeking to the
second one, and the second one after reading the first one and seeking to it. A listing from the
second one on does not consist of the second one. -/
theorem not_directorySeek_twoFiles :
    (∃ t u, SmartDirHandle.seek Medium.twoFiles.io.toLittleFS { fs := .sdCard, dd := 0 }
        { outcomes := fun _ => true } 1 = (none, t) ∧
      t.1.read Medium.twoFiles.io.toLittleFS t.2 = (twoFiles.entryAt 0, u)) ∧
    (∃ s t u,
      run (DirCall.perform Medium.twoFiles.io.toLittleFS)
        ({ fs := .sdCard, dd := 0 }, ({ outcomes := fun _ => true } : Medium.State))
        [.read] = some s ∧
      s.1.seek Medium.twoFiles.io.toLittleFS s.2 0 = (none, t) ∧
      t.1.read Medium.twoFiles.io.toLittleFS t.2 = (twoFiles.entryAt 1, u)) ∧
    twoFiles.entryAt 0 ≠ twoFiles.entryAt 1 ∧
    ¬IsListingOf (twoFiles.drop 1) 3 (Medium.twoFiles.framesAfter []
      ((Medium.booted fun _ => true).startDirectoryListing Medium.twoFiles.io .sdCard [0x2F] 1 3
        1 0).2 1) := by
  refine ⟨⟨_, _, rfl, rfl⟩, ⟨_, _, _, rfl, rfl, rfl⟩, ?_, ?_⟩
  · intro heq
    exact absurd (Directory.entryAt_inj (by decide) (by decide) heq) (by decide)
  · intro hlisting
    have hzero := (isListingOf_drop_iff Medium.twoFiles (Medium.booted fun _ => true) .sdCard
      [0x2F] 1 3 1 0 (by decide) (by decide) (by decide) rfl (fun _ => rfl) le_rfl).mp hlisting
    exact absurd hzero (by decide)

end TellerOBC
