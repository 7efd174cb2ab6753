import Mathlib.Data.List.Nodup
import Mathlib.Data.Nat.Find
import TellerOBC.Storage.Medium

/-!
# Directory listings

The directory listing operation on a medium (`TellerOBC.Medium`). An iteration reads an entry
and offers it to the telemetry module. When the frame is refused the operation suspends, but
the directory handle stays behind the entry: the next iteration reads the next one, and the
refused entry is never sent. A refused terminator is lost as well, because the end of the
directory was remembered and the operation is not running any more.

So every entry is offered once, the entry with index `i` in the send with number `i`, and what a
listing delivers is a function of the outcomes (`TellerOBC.Directory.delivered`). The buffer of the
operation moreover keeps only 57 bytes of a name, although a frame has room for more.

## Main definitions

* `TellerOBC.DirInfo.displayName`, `TellerOBC.DirInfo.reportedName`: the name of an entry, and what
  its frame has of it.
* `TellerOBC.IsListingOf`: frames that list the entries of a directory.
* `TellerOBC.Directory.delivered`: the frames that a listing delivers.
* `TellerOBC.Directory.Replaced`: refused entries whose names later entries happen to report.

## Main results

* `TellerOBC.Directory.isListingOf_delivered_iff`: when what is delivered is a listing.
* `TellerOBC.framesAfter_eq_delivered`: the frames of a started listing.
* `TellerOBC.isListingOf_directoryListing_iff`: the frames of a started listing list the directory
  exactly when its names are not cut and none of the sends it needs is refused.
-/

namespace TellerOBC

open Medium

/-! ### Names and frames -/

/-- The name of an entry: directories have a slash at the end. -/
def DirInfo.displayName (entry : DirInfo) : List UInt8 :=
  entry.name.bytes ++ if entry.type = .dir then [0x2F] else []

/-- The name of an entry in its frame: the buffer of the operation keeps 57 bytes. -/
def DirInfo.reportedName (entry : DirInfo) : List UInt8 := entry.displayName.take 57

/-- The directory entry frame in the payload of a telemetry frame. -/
def TelemetryFrame.directoryEntry (frame : TelemetryFrame) : DirectoryEntryFrame :=
  .ofPayload frame.payload

/-- A telemetry frame with a directory entry. -/
def entryFrame (targets seqNo maxEntryIndex entryIndex : UInt8) (name : List UInt8) :
    TelemetryFrame :=
  ⟨targets, FrameType.directoryEntry,
    [FrameType.directoryListing, seqNo, maxEntryIndex, entryIndex] ++ name⟩

/-- The frames of a list of entries, with the indices `0, 1, 2, …`. -/
def entryFrames (targets seqNo : UInt8) (count : ℕ) (entries : List DirInfo) :
    List TelemetryFrame :=
  entries.mapIdx fun i entry =>
    entryFrame targets seqNo (UInt8.ofNat (count - 1)) (UInt8.ofNat i) entry.reportedName

/-- The frames list the first entries of a directory in order, with the indices `0, 1, 2, …`,
and then, if fewer entries were there than requested, the end of the directory. -/
structure IsListingOf (d : Directory) (count : ℕ) (frames : List TelemetryFrame) : Prop where
  frameType : ∀ frame ∈ frames, frame.frameType = FrameType.directoryEntry
  entries :
    frames.map (fun frame =>
      (frame.directoryEntry.entryIndex.toNat, frame.directoryEntry.name)) =
    ((d.entries.take count).mapIdx fun i entry => (i, entry.displayName)) ++
      if d.entries.length < count then [(d.entries.length, [])] else []

namespace DirInfo

variable {entry : DirInfo}

theorem reportedName_of_length_lt (h : entry.displayName.length < 58) :
    entry.reportedName = entry.displayName :=
  List.take_of_length_le (Nat.le_of_lt_succ h)

theorem length_reportedName_lt (entry : DirInfo) : entry.reportedName.length < 58 :=
  Nat.lt_succ_of_le (List.length_take_le 57 _)

theorem bytes_entryName (entry : DirInfo) :
    (DirectoryListingOperation.entryName entry).bytes = entry.reportedName := by
  rw [DirectoryListingOperation.entryName, CString.bytes_snprintf, reportedName, displayName]
  split <;> rfl

theorem filter_displayName (h : 0x2F ∉ entry.name.bytes) :
    entry.displayName.filter (· ≠ 0x2F) = entry.name.bytes := by
  have hname : entry.name.bytes.filter (· ≠ 0x2F) = entry.name.bytes :=
    List.filter_eq_self.mpr fun c hc => decide_eq_true fun heq : c = 0x2F => h (heq ▸ hc)
  rw [displayName, List.filter_append, hname]
  split <;> simp

end DirInfo

@[simp] theorem length_entryFrames (targets seqNo : UInt8) (count : ℕ) (entries : List DirInfo) :
    (entryFrames targets seqNo count entries).length = entries.length :=
  List.length_mapIdx

theorem entryFrames_concat (targets seqNo : UInt8) (count : ℕ) (entries : List DirInfo)
    (entry : DirInfo) :
    entryFrames targets seqNo count (entries ++ [entry]) =
      entryFrames targets seqNo count entries ++
        [entryFrame targets seqNo (UInt8.ofNat (count - 1)) (UInt8.ofNat entries.length)
          entry.reportedName] :=
  List.mapIdx_concat

/-- The indices and names of the frames of at most 256 entries. -/
theorem map_entryFrames (targets seqNo : UInt8) (count : ℕ) {entries : List DirInfo}
    (h : entries.length ≤ 256) :
    (entryFrames targets seqNo count entries).map (fun frame =>
      (frame.directoryEntry.entryIndex.toNat, frame.directoryEntry.name)) =
    (entries.map DirInfo.reportedName).mapIdx Prod.mk := by
  refine List.ext_getElem (by simp) fun i hi _ => ?_
  have hlt : i < UInt8.size :=
    lt_of_lt_of_le (by simpa only [List.length_map, length_entryFrames] using hi) h
  simp only [entryFrames, List.getElem_map, List.getElem_mapIdx]
  exact Prod.ext (UInt8.toNat_ofNat_of_lt' hlt) rfl

namespace Directory

variable (d : Directory) (targets seqNo : UInt8) (count : ℕ) (σ : ℕ → Bool)

/-- The frames that a listing delivers when the send of the entry with index `i` has the outcome
`σ i`: those of the accepted entries, as many as were requested, and then the end of the directory
if it is reached and accepted. -/
def delivered : List TelemetryFrame :=
  let accepted := Transfer.accepted d.entries σ
  entryFrames targets seqNo count (accepted.take count) ++
    if accepted.length < count ∧ σ d.entries.length then
      [entryFrame targets seqNo (UInt8.ofNat accepted.length) (UInt8.ofNat accepted.length) []]
    else []

/-- Later entries stand in for refused ones: from one of the requested entries on all of those
are refused, and the entries that are accepted after them have names that are cut down to the
names of the refused ones. -/
def Replaced : Prop :=
  count ≤ d.entries.length ∧ ∃ i < count, (∀ j < i, σ j = true) ∧
    (∀ j < count, i ≤ j → σ j = false) ∧
    ((Transfer.accepted (d.entries.drop count) fun j => σ (j + count)).take (count - i)).map
        DirInfo.reportedName =
      ((d.entries.take count).drop i).map DirInfo.displayName

/-- The names in the frames of a complete listing; the end of the directory has an empty one. -/
def listedNames : List (List UInt8) :=
  (d.entries.take count).map DirInfo.displayName ++ if d.entries.length < count then [[]] else []

/-- The names in the frames that are delivered. -/
def deliveredNames : List (List UInt8) :=
  ((Transfer.accepted d.entries σ).take count).map DirInfo.reportedName ++
    if (Transfer.accepted d.entries σ).length < count ∧ σ d.entries.length then [[]] else []

/-! ### Names of a directory -/

/-- The reported names of a directory are distinct, too. -/
theorem nodup_displayName (d : Directory) : (d.entries.map DirInfo.displayName).Nodup := by
  refine List.Nodup.map_on ?_ (List.Nodup.of_map _ d.nodup)
  intro x hx y hy hxy
  refine List.inj_on_of_nodup_map d.nodup hx hy ?_
  have hname := congrArg (List.filter (· ≠ 0x2F)) hxy
  rw [DirInfo.filter_displayName (d.noSlash x hx), DirInfo.filter_displayName (d.noSlash y hy)]
    at hname
  exact CString.ext hname

variable {d count σ}

theorem displayName_ne_nil {entry : DirInfo} (h : entry ∈ d.entries) :
    entry.displayName ≠ [] := by
  intro hnil
  refine d.name_ne entry h (CString.ext ?_)
  exact (List.append_eq_nil_iff.mp hnil).1

/-! ### What is delivered -/

theorem map_delivered (hcount : count ≤ 256) :
    (d.delivered targets seqNo count σ).map (fun frame =>
      (frame.directoryEntry.entryIndex.toNat, frame.directoryEntry.name)) =
    (d.deliveredNames count σ).mapIdx Prod.mk := by
  have hlen : ((Transfer.accepted d.entries σ).take count).length ≤ 256 :=
    (List.length_take_le _ _).trans hcount
  rw [delivered, deliveredNames, List.map_append, map_entryFrames targets seqNo count hlen,
    List.mapIdx_append]
  congr 1
  split
  · next h =>
    have hlt : (Transfer.accepted d.entries σ).length < UInt8.size := lt_of_lt_of_le h.1 hcount
    have hindex : ((Transfer.accepted d.entries σ).take count).length =
        (Transfer.accepted d.entries σ).length := by
      rw [List.length_take, min_eq_right h.1.le]
    simp only [List.map_singleton, List.mapIdx_singleton, List.length_map, hindex, Nat.zero_add,
      List.cons.injEq, and_true]
    exact Prod.ext (UInt8.toNat_ofNat_of_lt' hlt) rfl
  · rfl

theorem mapIdx_listedNames (d : Directory) (count : ℕ) :
    (d.listedNames count).mapIdx Prod.mk =
      ((d.entries.take count).mapIdx fun i entry => (i, entry.displayName)) ++
        if d.entries.length < count then [(d.entries.length, [])] else [] := by
  rw [listedNames, List.mapIdx_append]
  congr 1
  · exact List.ext_getElem (by simp) fun i _ _ => by simp
  · split
    · next h => simp [min_eq_right h.le]
    · rfl

theorem frameType_of_mem_delivered {frame : TelemetryFrame}
    (h : frame ∈ d.delivered targets seqNo count σ) :
    frame.frameType = FrameType.directoryEntry := by
  rcases List.mem_append.mp h with h | h
  · obtain ⟨i, hi, rfl⟩ := List.mem_mapIdx.mp h
    rfl
  · split at h
    · rw [List.mem_singleton.mp h]
      rfl
    · simp at h

/-- What is delivered is a listing if it has the names of one. -/
theorem isListingOf_delivered_iff_names (hcount : count ≤ 256) :
    IsListingOf d count (d.delivered targets seqNo count σ) ↔
      d.deliveredNames count σ = d.listedNames count := by
  have hsnd (names : List (List UInt8)) : (names.mapIdx Prod.mk).map Prod.snd = names :=
    List.ext_getElem (by simp) fun i _ _ => by simp
  constructor
  · intro h
    rw [← hsnd (d.deliveredNames count σ), ← map_delivered targets seqNo hcount, h.entries,
      ← mapIdx_listedNames, hsnd]
  · intro h
    refine ⟨fun frame => frameType_of_mem_delivered targets seqNo, ?_⟩
    rw [map_delivered targets seqNo hcount, h, mapIdx_listedNames]

/-! ### Directories with fewer entries than requested -/

/-- No name is cut. -/
theorem map_reportedName {entries : List DirInfo}
    (h : ∀ entry ∈ entries, entry.displayName.length < 58) :
    entries.map DirInfo.reportedName = entries.map DirInfo.displayName :=
  List.map_congr_left fun entry hentry => DirInfo.reportedName_of_length_lt (h entry hentry)

/-- Names that are reported as they are have at most 57 bytes. -/
theorem length_displayName_lt {entries reported : List DirInfo}
    (h : reported.map DirInfo.reportedName = entries.map DirInfo.displayName) :
    ∀ entry ∈ entries, entry.displayName.length < 58 := by
  intro entry hentry
  have hmem : entry.displayName ∈ reported.map DirInfo.reportedName :=
    h ▸ List.mem_map_of_mem hentry
  obtain ⟨other, -, heq⟩ := List.mem_map.mp hmem
  exact heq ▸ other.length_reportedName_lt

theorem deliveredNames_eq_iff_of_lt (h : d.entries.length < count) :
    d.deliveredNames count σ = d.listedNames count ↔
      (∀ entry ∈ d.entries, entry.displayName.length < 58) ∧
        ∀ i < d.entries.length + 1, σ i = true := by
  have hle := Transfer.length_accepted_le d.entries σ
  rw [deliveredNames, listedNames, if_pos h, List.take_of_length_le h.le,
    List.take_of_length_le (by omega)]
  constructor
  · intro heq
    have hlen := congrArg List.length heq
    simp only [List.length_append, List.length_map, List.length_singleton] at hlen
    split at hlen
    · next hend =>
      have hall := Transfer.length_accepted_eq_iff.mp (Nat.succ_injective hlen)
      rw [if_pos hend] at heq
      refine ⟨length_displayName_lt (List.append_cancel_right heq), fun i hi => ?_⟩
      rcases Nat.lt_succ_iff_lt_or_eq.mp hi with hlt | rfl
      exacts [hall i hlt, hend.2]
    · rw [List.length_nil] at hlen
      omega
  · rintro ⟨hshort, hall⟩
    rw [Transfer.accepted_eq_self fun i hi => hall i (Nat.lt_succ_of_lt hi),
      if_pos ⟨h, hall _ (Nat.lt_succ_self _)⟩, map_reportedName hshort]

/-! ### Directories with enough entries -/

/-- The first accepted entries if the requested ones are refused from some place on. -/
theorem take_accepted_of_refused {i : ℕ} (h : count ≤ d.entries.length) (hi : i < count)
    (haccepted : ∀ j < i, σ j = true) (hrefused : ∀ j < count, i ≤ j → σ j = false) :
    (Transfer.accepted d.entries σ).take count =
      (d.entries.take count).take i ++
        (Transfer.accepted (d.entries.drop count) fun j => σ (j + count)).take (count - i) := by
  have hlen : (d.entries.take count).length = count := by
    rw [List.length_take, min_eq_left h]
  have hleni : ((d.entries.take count).take i).length = i := by
    rw [List.length_take, hlen, min_eq_left hi.le]
  have hfirst : Transfer.accepted ((d.entries.take count).take i) σ =
      (d.entries.take count).take i :=
    Transfer.accepted_eq_self fun j hj => haccepted j (hleni ▸ hj)
  have hlost : Transfer.accepted ((d.entries.take count).drop i) (fun j => σ (j + i)) = [] := by
    refine Transfer.accepted_eq_nil fun j hj => hrefused _ ?_ (Nat.le_add_left i j)
    rw [List.length_drop, hlen] at hj
    omega
  have hsplit : Transfer.accepted (d.entries.take count) σ = (d.entries.take count).take i := by
    nth_rewrite 1 [← List.take_append_drop i (d.entries.take count)]
    rw [Transfer.accepted_append, hfirst, hleni, hlost, List.append_nil]
  nth_rewrite 1 [← List.take_append_drop count d.entries]
  rw [Transfer.accepted_append, hsplit, hlen, List.take_append, hleni,
    List.take_of_length_le (hleni.le.trans hi.le)]

/-- The end of a directory with enough entries is not listed. -/
theorem deliveredNames_eq_iff_of_le (h : count ≤ d.entries.length) :
    d.deliveredNames count σ = d.listedNames count ↔
      ((Transfer.accepted d.entries σ).take count).map DirInfo.reportedName =
        (d.entries.take count).map DirInfo.displayName := by
  rw [deliveredNames, listedNames, if_neg (not_lt.mpr h), List.append_nil]
  split
  · next hend =>
    constructor
    · intro heq
      have hmem : [] ∈ (d.entries.take count).map DirInfo.displayName :=
        heq ▸ List.mem_append_right _ (List.mem_singleton_self _)
      obtain ⟨entry, hentry, hnil⟩ := List.mem_map.mp hmem
      exact absurd hnil (displayName_ne_nil (List.mem_of_mem_take hentry))
    · intro heq
      have hlen := congrArg List.length heq
      simp only [List.length_map, List.length_take] at hlen
      omega
  · rw [List.append_nil]

/-- If the accepted entries have the names of the requested ones although one of those was
refused, then all requested entries from that one on were refused. -/
theorem refused_of_names {i j : ℕ}
    (hnames : ((Transfer.accepted d.entries σ).take count).map DirInfo.reportedName =
      (d.entries.take count).map DirInfo.displayName) (h : count ≤ d.entries.length)
    (hi : σ i = false) (hj : j < count) (hij : i ≤ j) : σ j = false := by
  rcases Nat.eq_or_lt_of_le hij with rfl | hlt
  · exact hi
  by_contra haccepted
  obtain ⟨entry, hentry⟩ : ∃ entry, d.entries[j]? = some entry :=
    ⟨_, List.getElem?_eq_getElem (hj.trans_le h)⟩
  have hshort : entry.displayName.length < 58 := by
    refine length_displayName_lt hnames entry (List.mem_of_getElem? (i := j) ?_)
    rw [List.getElem?_take_of_lt hj, hentry]
  -- the entry is delivered at an earlier place, where its name stands a second time
  obtain ⟨k, hkj, hk⟩ :=
    Transfer.exists_getElem?_accepted hlt hi (Bool.not_eq_false _ ▸ haccepted) hentry
  have hplace := congrArg (fun names => names[k]?) hnames
  simp only [List.getElem?_map, List.getElem?_take_of_lt (hkj.trans hj), hk, Option.map_some,
    DirInfo.reportedName_of_length_lt hshort] at hplace
  refine hkj.ne ((List.getElem?_inj (by rw [List.length_map]; omega) d.nodup_displayName).mp ?_)
  rw [List.getElem?_map, List.getElem?_map, ← hplace, hentry, Option.map_some]

theorem deliveredNames_eq_iff (h : count ≤ d.entries.length) :
    d.deliveredNames count σ = d.listedNames count ↔
      (∀ entry ∈ d.entries.take count, entry.displayName.length < 58) ∧
        ((∀ i < count, σ i = true) ∨ d.Replaced count σ) := by
  have hlen : (d.entries.take count).length = count := by
    rw [List.length_take, min_eq_left h]
  -- after the accepted entries the names of the refused ones are to be compared
  have hreplace {i : ℕ} (hi : i < count) (haccepted : ∀ j < i, σ j = true)
      (hrefused : ∀ j < count, i ≤ j → σ j = false)
      (hshort : ∀ entry ∈ d.entries.take count, entry.displayName.length < 58) :
      ((Transfer.accepted d.entries σ).take count).map DirInfo.reportedName =
          (d.entries.take count).map DirInfo.displayName ↔
        ((Transfer.accepted (d.entries.drop count) fun j => σ (j + count)).take (count - i)).map
            DirInfo.reportedName =
          ((d.entries.take count).drop i).map DirInfo.displayName := by
    have hright : (d.entries.take count).map DirInfo.displayName =
        ((d.entries.take count).take i).map DirInfo.displayName ++
          ((d.entries.take count).drop i).map DirInfo.displayName := by
      rw [← List.map_append, List.take_append_drop]
    rw [take_accepted_of_refused h hi haccepted hrefused, List.map_append,
      map_reportedName fun entry hentry => hshort entry (List.mem_of_mem_take hentry), hright,
      List.append_cancel_left_eq]
  rw [deliveredNames_eq_iff_of_le h]
  constructor
  · intro hnames
    have hshort := length_displayName_lt hnames
    refine ⟨hshort, ?_⟩
    by_cases hall : ∀ i < count, σ i = true
    · exact Or.inl hall
    · have hex : ∃ i, i < count ∧ σ i = false := by
        simpa only [not_forall, exists_prop, Bool.not_eq_true] using hall
      obtain ⟨hi, hfirst⟩ := Nat.find_spec hex
      have haccepted : ∀ j < Nat.find hex, σ j = true := fun j hj =>
        Bool.not_eq_false _ ▸ fun hfalse => Nat.find_min hex hj ⟨hj.trans hi, hfalse⟩
      have hrefused : ∀ j < count, Nat.find hex ≤ j → σ j = false := fun j hj hij =>
        refused_of_names hnames h hfirst hj hij
      exact Or.inr ⟨h, _, hi, haccepted, hrefused,
        (hreplace hi haccepted hrefused hshort).mp hnames⟩
  · rintro ⟨hshort, hall | ⟨-, i, hi, haccepted, hrefused, hnames⟩⟩
    · have hfirst : Transfer.accepted (d.entries.take count) σ = d.entries.take count :=
        Transfer.accepted_eq_self fun i hi => hall i (hlen ▸ hi)
      nth_rewrite 1 [← List.take_append_drop count d.entries]
      rw [Transfer.accepted_append, hfirst, List.take_left' hlen, map_reportedName hshort]
    · exact (hreplace hi haccepted hrefused hshort).mpr hnames

/-- **When what is delivered is a listing**: no requested name is cut, and every send that is
needed is accepted, or later entries stand in for all of the entries that are missing. -/
theorem isListingOf_delivered_iff (hcount : count ≤ 256) :
    IsListingOf d count (d.delivered targets seqNo count σ) ↔
      (∀ entry ∈ d.entries.take count, entry.displayName.length < 58) ∧
        ((∀ i < min count d.entries.length + (if d.entries.length < count then 1 else 0),
          σ i = true) ∨ d.Replaced count σ) := by
  rw [isListingOf_delivered_iff_names targets seqNo hcount]
  rcases Nat.lt_or_ge d.entries.length count with h | h
  · rw [deliveredNames_eq_iff_of_lt h, if_pos h, min_eq_right h.le, List.take_of_length_le h.le]
    refine and_congr_right fun _ => (or_iff_left ?_).symm
    exact fun hreplaced => absurd hreplaced.1 (not_le.mpr h)
  · rw [deliveredNames_eq_iff h, if_neg (not_lt.mpr h), min_eq_left h, Nat.add_zero]

/-- Only names of more than 57 bytes can stand in for those of refused entries. -/
theorem Replaced.exists_long (h : d.Replaced count σ) :
    ∃ entry ∈ d.entries.drop count, 57 < entry.displayName.length := by
  obtain ⟨hle, i, hi, -, -, hnames⟩ := h
  by_contra hlong
  have hshort : ∀ entry ∈ d.entries.drop count, entry.displayName.length < 58 :=
    fun entry hentry => Nat.lt_succ_of_le (not_lt.mp fun hlt => hlong ⟨entry, hentry, hlt⟩)
  have hmem {entry : DirInfo} (h : entry ∈ (Transfer.accepted (d.entries.drop count)
      fun j => σ (j + count)).take (count - i)) : entry ∈ d.entries.drop count :=
    (Transfer.accepted_sublist _ _).subset (List.mem_of_mem_take h)
  rw [map_reportedName fun entry hentry => hshort entry (hmem hentry)] at hnames
  -- the name of the first refused entry would be one of a later entry, too
  have hlost : d.entries[i] ∈ (d.entries.take count).drop i := by
    rw [List.mem_iff_getElem?]
    exact ⟨0, by rw [List.getElem?_drop, Nat.add_zero, List.getElem?_take_of_lt hi,
      List.getElem?_eq_getElem (hi.trans_le hle)]⟩
  obtain ⟨entry, hentry, heq⟩ := List.mem_map.mp (hnames ▸ List.mem_map_of_mem hlost)
  have hnodup := d.nodup_displayName
  rw [← List.take_append_drop count d.entries, List.map_append] at hnodup
  refine List.disjoint_of_nodup_append hnodup (List.mem_map_of_mem (List.mem_of_mem_drop hlost)) ?_
  exact heq ▸ List.mem_map_of_mem (hmem hentry)

/-- A file whose name is the name of the one before it and one more byte, of 58. -/
example :
    Directory.Replaced
      { entries := [⟨⟨List.replicate 57 0x61, by decide⟩, .reg, 1⟩,
          ⟨⟨List.replicate 58 0x61, by decide⟩, .reg, 1⟩]
        nodup := by decide
        name_ne := by decide
        noSlash := by decide } 1 (decide <| · ≠ 0) :=
  ⟨by decide, 0, by decide, by decide, by decide, by decide⟩

end Directory

/-! ### One iteration -/

namespace DirectoryListingOperation

variable (m : Medium) (w₀ : State) (targets seqNo : UInt8) (count : ℕ)

/-- The operation has offered the first entries of the directory, from the state `w₀` on, and is
to offer the next one. -/
structure Listed (p : ℕ) (op : DirectoryListingOperation) (w : State) : Prop where
  op_targets : op.targets = targets
  dir : ∃ dir, op.dir = some dir ∧ dir.ended = false
  op_count : op.count.toNat +
    (Transfer.accepted (m.directory.entries.take p) w₀.outcomes).length = count
  frameType : op.entryData.frameType = FrameType.directoryListing
  op_seqNo : op.entryData.seqNo = seqNo
  index : op.entryData.entryIndex =
    UInt8.ofNat (Transfer.accepted (m.directory.entries.take p) w₀.outcomes).length
  maxIndex : op.entryData.maxEntryIndex = UInt8.ofNat (count - 1)
  dirPos : w.dirPos = p
  le : p ≤ m.directory.entries.length
  sent : w.sent = w₀.sent ++
    entryFrames targets seqNo count (Transfer.accepted (m.directory.entries.take p) w₀.outcomes)
  outcomes : w.outcomes = fun i => w₀.outcomes (i + p)

/-- The operation has delivered its frames and is not running any more. -/
structure Finished (op : DirectoryListingOperation) (w : State) : Prop where
  running : op.running = false
  sent : w.sent = w₀.sent ++ m.directory.delivered targets seqNo count w₀.outcomes

variable {m w₀ targets seqNo count} {p : ℕ} {op : DirectoryListingOperation} {w : State}

theorem Listed.outcomes_zero (h : Listed m w₀ targets seqNo count p op w) :
    w.outcomes 0 = w₀.outcomes p := by
  simp only [h.outcomes, Nat.zero_add]

theorem Listed.later_outcomes (h : Listed m w₀ targets seqNo count p op w) :
    Transfer.later w.outcomes = fun i => w₀.outcomes (i + (p + 1)) := by
  rw [h.outcomes, Transfer.later_shift]

/-- The frame of the next entry. -/
theorem Listed.entryFrame_eq (h : Listed m w₀ targets seqNo count p op w) (dir : SmartDirHandle)
    (info : DirInfo) :
    (⟨op.targets, FrameType.directoryEntry,
        encodeDirectoryEntryFrame (op.loadEntry dir info).entryData⟩ : TelemetryFrame) =
      entryFrame targets seqNo (UInt8.ofNat (count - 1))
        (UInt8.ofNat (Transfer.accepted (m.directory.entries.take p) w₀.outcomes).length)
        info.reportedName := by
  simp only [entryFrame, encodeDirectoryEntryFrame, loadEntry, h.op_targets, h.frameType,
    h.op_seqNo, h.index, h.maxIndex, DirInfo.bytes_entryName]

/-- The frame of the end of the directory. -/
theorem Listed.entryFrame_loadEnd (h : Listed m w₀ targets seqNo count p op w)
    (dir : SmartDirHandle) :
    (⟨op.targets, FrameType.directoryEntry,
        encodeDirectoryEntryFrame (op.loadEnd dir).entryData⟩ : TelemetryFrame) =
      let index := UInt8.ofNat
        (Transfer.accepted (m.directory.entries.take p) w₀.outcomes).length
      entryFrame targets seqNo index index [] := by
  simp only [entryFrame, encodeDirectoryEntryFrame, loadEnd, h.op_targets, h.frameType,
    h.op_seqNo, h.index, CString.bytes_empty]

/-- A pass that reads an entry and has it accepted. -/
theorem Listed.pass_accepted (h : Listed m w₀ targets seqNo count p op w)
    (hpos : 0 < op.count.toNat) {info : DirInfo} (hinfo : m.directory.entries[p]? = some info)
    (hσ : w₀.outcomes p = true) :
    ∃ op' w', pass m.io (op, w) = ((op', w'), none) ∧ op'.count.toNat < op.count.toNat ∧
      Listed m w₀ targets seqNo count (p + 1) op' w' := by
  obtain ⟨dir, hdir, hended⟩ := h.dir
  have hread : m.io.dirRead dir.fs dir.dd w = (.ok info, { w with dirPos := w.dirPos + 1 }) := by
    simp only [Medium.io, h.dirPos, hinfo]
  have hsub : (op.count - 1).toNat = op.count.toNat - 1 :=
    UInt16.toNat_sub_of_le _ _ (UInt16.le_iff_toNat_le.mpr hpos)
  have hσ' : ({ w with dirPos := w.dirPos + 1 } : State).outcomes 0 = true :=
    h.outcomes_zero.trans hσ
  have haccepted : Transfer.accepted (m.directory.entries.take (p + 1)) w₀.outcomes =
      Transfer.accepted (m.directory.entries.take p) w₀.outcomes ++ [info] := by
    rw [Transfer.accepted_take_succ hinfo, if_pos hσ]
  rw [pass_of_dirRead hdir hread, sendEntry_accepted (by simp [loadEntry, hended,
    SmartDirHandle.hasMoreEntries]) (sendTo_accepted m _ _ _ hσ')]
  refine ⟨_, _, rfl, ?_, ?_⟩
  · show (op.count - 1).toNat < op.count.toNat
    omega
  · constructor
    · exact h.op_targets
    · exact ⟨dir, rfl, hended⟩
    · show (op.count - 1).toNat + _ = count
      have := h.op_count
      rw [haccepted, List.length_append, List.length_singleton]
      omega
    · exact h.frameType
    · exact h.op_seqNo
    · show op.entryData.entryIndex + 1 = _
      rw [h.index, haccepted, List.length_append, UInt8.ofNat_add]
      rfl
    · exact h.maxIndex
    · show w.dirPos + 1 = p + 1
      rw [h.dirPos]
    · exact (List.getElem?_eq_some_iff.mp hinfo).1
    · rw [haccepted, entryFrames_concat, ← h.entryFrame_eq dir info, ← List.append_assoc,
        ← h.sent]
      rfl
    · exact h.later_outcomes

/-- A pass that reads an entry and has it refused: the directory is behind the entry. -/
theorem Listed.pass_refused (h : Listed m w₀ targets seqNo count p op w) {info : DirInfo}
    (hinfo : m.directory.entries[p]? = some info) (hσ : w₀.outcomes p = false) :
    ∃ op' w', pass m.io (op, w) = ((op', w'), some none) ∧
      Listed m w₀ targets seqNo count (p + 1) op' w' := by
  obtain ⟨dir, hdir, hended⟩ := h.dir
  have hread : m.io.dirRead dir.fs dir.dd w = (.ok info, { w with dirPos := w.dirPos + 1 }) := by
    simp only [Medium.io, h.dirPos, hinfo]
  have hσ' : ({ w with dirPos := w.dirPos + 1 } : State).outcomes 0 = false :=
    h.outcomes_zero.trans hσ
  have haccepted : Transfer.accepted (m.directory.entries.take (p + 1)) w₀.outcomes =
      Transfer.accepted (m.directory.entries.take p) w₀.outcomes := by
    rw [Transfer.accepted_take_succ hinfo, hσ, if_neg Bool.false_ne_true, List.append_nil]
  rw [pass_of_dirRead hdir hread, sendEntry_refused (sendTo_refused m _ _ _ hσ')]
  refine ⟨_, _, rfl, h.op_targets, ⟨dir, rfl, hended⟩, haccepted ▸ h.op_count, h.frameType,
    h.op_seqNo, haccepted ▸ h.index, h.maxIndex, ?_, (List.getElem?_eq_some_iff.mp hinfo).1,
    haccepted ▸ h.sent, h.later_outcomes⟩
  show w.dirPos + 1 = p + 1
  rw [h.dirPos]

theorem hasMoreEntries_loadEnd (op : DirectoryListingOperation) (dir : SmartDirHandle) :
    (op.loadEnd dir).dir.any SmartDirHandle.hasMoreEntries = false := rfl

theorem running_loadEnd (op : DirectoryListingOperation) (dir : SmartDirHandle) :
    (op.loadEnd dir).running = false := by
  rw [running, hasMoreEntries_loadEnd, Bool.and_false]

/-- At the end of the directory a pass offers the terminator, and the operation is not running
any more. -/
theorem Listed.pass_end (h : Listed m w₀ targets seqNo count p op w) (hpos : 0 < op.count.toNat)
    (hend : p = m.directory.entries.length) :
    ∃ op' w', Finished m w₀ targets seqNo count op' w' ∧
      (pass m.io (op, w) = ((op', w'), none) ∧ op'.count.toNat < op.count.toNat ∨
        pass m.io (op, w) = ((op', w'), some none)) := by
  obtain ⟨dir, hdir, -⟩ := h.dir
  have hnone : m.directory.entries[w.dirPos]? = none :=
    List.getElem?_eq_none (by rw [h.dirPos, hend])
  have hread : m.io.dirRead dir.fs dir.dd w = (.error .noent, w) := by
    simp only [Medium.io, hnone]
  have hall : m.directory.entries.take p = m.directory.entries :=
    List.take_of_length_le hend.ge
  have hlt : (Transfer.accepted m.directory.entries w₀.outcomes).length < count := by
    have := hall ▸ h.op_count
    omega
  have hsent := hall ▸ h.sent
  have hframe := hall ▸ h.entryFrame_loadEnd dir
  have hdelivered := Directory.delivered.eq_1 m.directory targets seqNo count w₀.outcomes
  rw [List.take_of_length_le hlt.le] at hdelivered
  rw [pass_of_noent hdir hread]
  cases hσ : w₀.outcomes p with
  | true =>
    have hσ' := h.outcomes_zero.trans hσ
    rw [sendEntry_last (hasMoreEntries_loadEnd op dir) (sendTo_accepted m _ _ _ hσ')]
    refine ⟨_, _, ⟨rfl, ?_⟩, Or.inl ⟨rfl, hpos⟩⟩
    rw [hdelivered, if_pos ⟨hlt, hend ▸ hσ⟩, ← List.append_assoc, ← hsent, ← hframe]
    rfl
  | false =>
    have hσ' := h.outcomes_zero.trans hσ
    rw [sendEntry_refused (sendTo_refused m _ _ _ hσ')]
    refine ⟨_, _, ⟨running_loadEnd op dir, ?_⟩, Or.inr rfl⟩
    rw [hdelivered, if_neg fun hif => Bool.false_ne_true (hσ.symm.trans (hend ▸ hif.2)),
      List.append_nil]
    exact hsent

theorem Listed.count_pos_of_running (hrun : op.running = true) : 0 < op.count.toNat := by
  simp only [running, Bool.and_eq_true, decide_eq_true_eq, UInt16.lt_iff_toNat_lt] at hrun
  exact hrun.1

/-- A listing that is not running any more has sent as many entries as were requested. -/
theorem Listed.finished_of_not_running (h : Listed m w₀ targets seqNo count p op w)
    (hrun : op.running = false) : Finished m w₀ targets seqNo count op w := by
  obtain ⟨dir, hdir, hended⟩ := h.dir
  have hzero : op.count.toNat = 0 := by
    simp only [running, hdir, Option.any_some, SmartDirHandle.hasMoreEntries, hended,
      Bool.not_false, Bool.and_true, decide_eq_false_iff_not, UInt16.lt_iff_toNat_lt] at hrun
    exact Nat.eq_zero_of_not_pos hrun
  have hlen : (Transfer.accepted (m.directory.entries.take p) w₀.outcomes).length = count := by
    have := h.op_count
    omega
  obtain ⟨later, hlater⟩ := Transfer.accepted_take_prefix m.directory.entries w₀.outcomes p
  have hge : ¬(Transfer.accepted m.directory.entries w₀.outcomes).length < count := by
    rw [← hlater, List.length_append]
    omega
  refine ⟨hrun, ?_⟩
  rw [h.sent, Directory.delivered, if_neg fun hif => hge hif.1, List.append_nil, ← hlater,
    List.take_left' hlen]

/-- One pass of a running listing: the next entry is offered, and the pass goes on if it is
accepted; at the end of the directory the listing is finished. -/
theorem Listed.pass_cases (h : Listed m w₀ targets seqNo count p op w)
    (hrun : op.running = true) :
    ∃ op' w',
      (pass m.io (op, w) = ((op', w'), none) ∧ op'.count.toNat < op.count.toNat ∧
        (Listed m w₀ targets seqNo count (p + 1) op' w' ∨
          Finished m w₀ targets seqNo count op' w')) ∨
      (pass m.io (op, w) = ((op', w'), some none) ∧
        (w₀.outcomes p = false ∧ Listed m w₀ targets seqNo count (p + 1) op' w' ∨
          Finished m w₀ targets seqNo count op' w')) := by
  have hpos := Listed.count_pos_of_running hrun
  cases hinfo : m.directory.entries[p]? with
  | some info =>
    cases hσ : w₀.outcomes p with
    | true =>
      obtain ⟨op', w', hpass, hlt, hlisted⟩ := h.pass_accepted hpos hinfo hσ
      exact ⟨op', w', Or.inl ⟨hpass, hlt, Or.inl hlisted⟩⟩
    | false =>
      obtain ⟨op', w', hpass, hlisted⟩ := h.pass_refused hinfo hσ
      exact ⟨op', w', Or.inr ⟨hpass, Or.inl ⟨rfl, hlisted⟩⟩⟩
  | none =>
    have hend : p = m.directory.entries.length :=
      le_antisymm h.le (List.getElem?_eq_none_iff.mp hinfo)
    obtain ⟨op', w', hfinished, ⟨hpass, hlt⟩ | hpass⟩ := h.pass_end hpos hend
    · exact ⟨op', w', Or.inl ⟨hpass, hlt, Or.inr hfinished⟩⟩
    · exact ⟨op', w', Or.inr ⟨hpass, Or.inr hfinished⟩⟩

/-- **One iteration of a listing** finishes it, or offers entries up to a refused one. -/
theorem Listed.exists_iterate (h : Listed m w₀ targets seqNo count p op w) :
    ∃ op' w', op.iterate m.io w = (none, op', w') ∧
      (Finished m w₀ targets seqNo count op' w' ∨
        ∃ q ≥ p, w₀.outcomes q = false ∧ Listed m w₀ targets seqNo count (q + 1) op' w') := by
  have hloop := @EarlyReturnLoop.rule _ _
    (fun s : DirectoryListingOperation × State => s.1.running) (pass m.io) none
    (fun ⟨o, v⟩ => Finished m w₀ targets seqNo count o v ∨
      ∃ q ≥ p, Listed m w₀ targets seqNo count q o v)
    (fun r ⟨o, v⟩ => r = none ∧ (Finished m w₀ targets seqNo count o v ∨
      ∃ q ≥ p, w₀.outcomes q = false ∧ Listed m w₀ targets seqNo count (q + 1) o v))
    (fun s => s.1.count.toNat) ?_ ?_ ?_ (op.count.toNat + 1) (op, w)
    (Or.inr ⟨p, le_rfl, h⟩) (Nat.lt_succ_self _)
  · exact ⟨_, _, Prod.ext hloop.1 rfl, hloop.2⟩
  · rintro ⟨o, v⟩ ⟨o', v'⟩ r (hfinished | ⟨q, hpq, hlisted⟩) hrun hpass
    · exact absurd (hfinished.running.symm.trans hrun) Bool.false_ne_true
    · obtain ⟨o₁, v₁, ⟨heq, -⟩ | ⟨heq, hnext⟩⟩ := hlisted.pass_cases hrun
      · simp [heq] at hpass
      · simp only [heq, Prod.mk.injEq, Option.some.injEq] at hpass
        obtain ⟨⟨rfl, rfl⟩, rfl⟩ := hpass
        rcases hnext with ⟨hσ, hlisted'⟩ | hfinished
        exacts [⟨rfl, Or.inr ⟨q, hpq, hσ, hlisted'⟩⟩, ⟨rfl, Or.inl hfinished⟩]
  · rintro ⟨o, v⟩ ⟨o', v'⟩ (hfinished | ⟨q, hpq, hlisted⟩) hrun hpass
    · exact absurd (hfinished.running.symm.trans hrun) Bool.false_ne_true
    · obtain ⟨o₁, v₁, ⟨heq, hlt, hnext⟩ | ⟨heq, -⟩⟩ := hlisted.pass_cases hrun
      · simp only [heq, Prod.mk.injEq, and_true] at hpass
        obtain ⟨rfl, rfl⟩ := hpass
        refine ⟨?_, hlt⟩
        rcases hnext with hlisted' | hfinished
        exacts [Or.inr ⟨q + 1, hpq.trans (Nat.le_succ q), hlisted'⟩, Or.inl hfinished]
      · simp [heq] at hpass
  · rintro ⟨o, v⟩ (hfinished | ⟨q, -, hlisted⟩) hrun
    · exact ⟨rfl, Or.inl hfinished⟩
    · exact ⟨rfl, Or.inl (hlisted.finished_of_not_running hrun)⟩

/-! ### The reader task -/

/-- The listing is finished, or it has offered the given number of entries or more. -/
def Progress (m : Medium) (w₀ : State) (targets seqNo : UInt8) (count p : ℕ)
    (s : Storage State) : Prop :=
  (s.access.operation = none ∧
      s.world.sent = w₀.sent ++ m.directory.delivered targets seqNo count w₀.outcomes) ∨
    ∃ op q, p ≤ q ∧ s.access.operation = some (.directoryListing op) ∧
      Listed m w₀ targets seqNo count q op s.world

/-- An iteration of the reader task: the listing is finished, or one of the next entries was
refused. -/
theorem progress_readerIteration {s : Storage State}
    (hop : s.access.operation = some (.directoryListing op))
    (h : Listed m w₀ targets seqNo count p op s.world) :
    ((s.readerIteration m.io).access.operation = none ∧
        (s.readerIteration m.io).world.sent =
          w₀.sent ++ m.directory.delivered targets seqNo count w₀.outcomes) ∨
      ∃ q ≥ p, w₀.outcomes q = false ∧
        Progress m w₀ targets seqNo count (q + 1) (s.readerIteration m.io) := by
  obtain ⟨op', w', hit, hnext⟩ := h.exists_iterate
  have hiterate : (StorageAccessOperation.directoryListing op).iterate m.io s.filesystems
      s.world = (none, .directoryListing op', w') := by
    rw [StorageAccessOperation.iterate, hit]
  have hworld : (s.readerIteration m.io).world = w' := by
    rw [world_readerIteration m hop, hiterate]
  have hfirst := s.readerIteration_of_iterate m.io hop hiterate
  have hstop (hrun : op'.running = false) :
      (s.readerIteration m.io).access.operation = none := by
    rw [hfirst]
    simp [StorageAccessOperation.running, hrun, Storage.setOperation]
  rcases hnext with hfinished | ⟨q, hpq, hσ, hlisted⟩
  · exact Or.inl ⟨hstop hfinished.running, hworld ▸ hfinished.sent⟩
  · refine Or.inr ⟨q, hpq, hσ, ?_⟩
    cases hrun : op'.running with
    | false =>
      exact Or.inl ⟨hstop hrun, hworld ▸ (hlisted.finished_of_not_running hrun).sent⟩
    | true =>
      refine Or.inr ⟨op', q + 1, le_rfl, ?_, hworld ▸ hlisted⟩
      rw [hfirst]
      simp [StorageAccessOperation.running, hrun]

theorem Progress.readerIteration {s : Storage State}
    (h : Progress m w₀ targets seqNo count p s) :
    Progress m w₀ targets seqNo count (p + 1) (s.readerIteration m.io) := by
  rcases h with ⟨hnone, hsent⟩ | ⟨op, q, hpq, hop, hlisted⟩
  · rw [s.readerIteration_of_none m.io hnone]
    exact Or.inl ⟨hnone, hsent⟩
  · rcases progress_readerIteration hop hlisted with hfinished | ⟨r, hqr, -, hprogress⟩
    · exact Or.inl hfinished
    · rcases hprogress with hfinished | ⟨op', r', hr, hop', hlisted'⟩
      · exact Or.inl hfinished
      · exact Or.inr ⟨op', r', by omega, hop', hlisted'⟩

theorem Progress.iterate {s : Storage State} (h : Progress m w₀ targets seqNo count p s)
    (n : ℕ) : Progress m w₀ targets seqNo count (p + n) ((Storage.readerIteration m.io)^[n] s) := by
  induction n with
  | zero => exact h
  | succ n ih =>
    rw [Function.iterate_succ_apply']
    exact ih.readerIteration

/-- There are not more entries to be offered than the directory has. -/
theorem Progress.sent {s : Storage State} (h : Progress m w₀ targets seqNo count p s)
    (hp : m.directory.entries.length < p) :
    s.world.sent = w₀.sent ++ m.directory.delivered targets seqNo count w₀.outcomes := by
  rcases h with ⟨-, hsent⟩ | ⟨op, q, hpq, -, hlisted⟩
  · exact hsent
  · have := hlisted.le
    omega

end DirectoryListingOperation

/-! ### Listings started by a command -/

section DirectoryListing

open DirectoryListingOperation

variable {m : Medium} {s : Storage State} {area : StorageArea} {name : List UInt8}
  {start_ count : UInt16} {targets seqNo : UInt8}

/-- The medium with the directory at its first entry. -/
def Medium.State.atFirstEntry (w : State) : State := { w with dirPos := 0 }

theorem listed_zero (w : State) {op : DirectoryListingOperation} {dir : SmartDirHandle}
    (htargets : op.targets = targets) (hdir : op.dir = some dir) (hended : dir.ended = false)
    (hcount : op.count = count)
    (hdata : op.entryData =
      { DirectoryEntryData.zero with
        frameType := FrameType.directoryListing
        seqNo := seqNo
        maxEntryIndex := (count - 1).toUInt8 }) (hpos : 0 < count) :
    Listed m w.atFirstEntry targets seqNo count.toNat 0 op w.atFirstEntry := by
  have hsub : (count - 1).toNat = count.toNat - 1 :=
    UInt16.toNat_sub_of_le _ _ (UInt16.le_iff_toNat_le.mpr (UInt16.lt_iff_toNat_lt.mp hpos))
  constructor
  · exact htargets
  · exact ⟨dir, hdir, hended⟩
  · rw [hcount]
    rfl
  · rw [hdata]
  · rw [hdata]
  · rw [hdata]
    rfl
  · rw [hdata, ← hsub]
    exact UInt8.toNat_inj.mp (by rw [UInt16.toNat_toUInt8, UInt8.toNat_ofNat'])
  · rfl
  · exact Nat.zero_le _
  · exact (List.append_nil _).symm
  · rfl

/-- A handle that was just opened is at the first entry of the directory after seeking, whatever
the index is. -/
theorem seek_atFirstEntry (w : State) (area : StorageArea) (index : ℕ) :
    SmartDirHandle.seek m.io.toLittleFS { fs := area, dd := 0 } w.atFirstEntry index =
      (none, { fs := area, dd := 0 }, w.atFirstEntry) := by
  rcases Nat.eq_zero_or_pos index with rfl | hpos
  · exact SmartDirHandle.seek_zero _ _ _ rfl
  · exact SmartDirHandle.seek_of_pos _ _ _ rfl hpos

/-- An accepted request for a listing. -/
theorem exists_listed_startDirectoryListing
    (hstart : (s.startDirectoryListing m.io area name start_ count targets seqNo).1 = none) :
    ∃ op, (s.startDirectoryListing m.io area name start_ count targets
          seqNo).2.access.operation = some (.directoryListing op) ∧
      (s.startDirectoryListing m.io area name start_ count targets seqNo).2.world =
        s.world.atFirstEntry ∧
      Listed m s.world.atFirstEntry targets seqNo count.toNat 0 op s.world.atFirstEntry := by
  obtain ⟨op, w, hop, heq⟩ := Storage.startDirectoryListing_eq_none hstart
  obtain ⟨_, dd, w₁, e, dir, -, -, hcount, hopen, hseek, rfl⟩ := start_eq_none hop
  obtain ⟨rfl, rfl⟩ : 0 = dd ∧ s.world.atFirstEntry = w₁ := by
    simpa [Medium.io, Medium.State.atFirstEntry] using hopen
  rw [seek_atFirstEntry] at hseek
  simp only [Prod.mk.injEq] at hseek
  obtain ⟨-, rfl, rfl⟩ := hseek
  rw [heq]
  exact ⟨_, rfl, setOperation_world m _ _,
    listed_zero _ rfl rfl rfl rfl rfl (UInt16.pos_iff_ne_zero.mpr hcount)⟩

/-- The frames sent since the request when the listing is finished. -/
theorem framesAfter_of_sent {t : Storage State} {n : ℕ}
    (h : ((Storage.readerIteration m.io)^[n] t).world.sent = s.world.sent ++
      m.directory.delivered targets seqNo count.toNat s.world.outcomes) :
    m.framesAfter s.world.sent t n =
      m.directory.delivered targets seqNo count.toNat s.world.outcomes := by
  rw [Medium.framesAfter, h, List.drop_left]

/-- **The frames of a started listing** are those that it delivers, after as many iterations as
the directory has entries and one more. -/
theorem framesAfter_eq_delivered
    (hstart : (s.startDirectoryListing m.io area name start_ count targets seqNo).1 = none)
    {n : ℕ} (hn : m.directory.entries.length < n) :
    m.framesAfter s.world.sent
        (s.startDirectoryListing m.io area name start_ count targets seqNo).2 n =
      m.directory.delivered targets seqNo count.toNat s.world.outcomes := by
  obtain ⟨op, hop, hworld, hlisted⟩ := exists_listed_startDirectoryListing hstart
  have hprogress : Progress m s.world.atFirstEntry targets seqNo count.toNat 0
      (s.startDirectoryListing m.io area name start_ count targets seqNo).2 :=
    Or.inr ⟨op, 0, le_rfl, hop, hworld ▸ hlisted⟩
  exact framesAfter_of_sent ((hprogress.iterate n).sent (by omega))

/-- Without refused sends the first iteration finishes the listing. -/
theorem framesAfter_eq_delivered_of_accepted
    (hstart : (s.startDirectoryListing m.io area name start_ count targets seqNo).1 = none)
    (haccepted : ∀ i, s.world.outcomes i = true) {n : ℕ} (hn : 1 ≤ n) :
    m.framesAfter s.world.sent
        (s.startDirectoryListing m.io area name start_ count targets seqNo).2 n =
      m.directory.delivered targets seqNo count.toNat s.world.outcomes := by
  obtain ⟨op, hop, hworld, hlisted⟩ := exists_listed_startDirectoryListing hstart
  have hat : Listed m s.world.atFirstEntry targets seqNo count.toNat 0 op
      (s.startDirectoryListing m.io area name start_ count targets seqNo).2.world := by
    rw [hworld]
    exact hlisted
  refine framesAfter_of_sent ?_
  rcases progress_readerIteration hop hat with ⟨hnone, hsent⟩ | ⟨q, -, hσ, -⟩
  · obtain ⟨k, rfl⟩ := Nat.exists_eq_add_of_le' hn
    rw [Function.iterate_succ_apply,
      Function.iterate_fixed (Storage.readerIteration_of_none m.io _ hnone)]
    exact hsent
  · exact absurd (hσ.symm.trans (haccepted q)) Bool.false_ne_true

theorem isListingOf_of_accepted (hcount : count.toNat ≤ 256)
    (hshort : ∀ entry ∈ m.directory.entries, entry.displayName.length < 58)
    (hstart : (s.startDirectoryListing m.io area name start_ count targets seqNo).1 = none)
    (haccepted : ∀ i, s.world.outcomes i = true) {n : ℕ} (hn : 1 ≤ n) :
    IsListingOf m.directory count.toNat (m.framesAfter s.world.sent
      (s.startDirectoryListing m.io area name start_ count targets seqNo).2 n) := by
  rw [framesAfter_eq_delivered_of_accepted hstart haccepted hn]
  exact (Directory.isListingOf_delivered_iff targets seqNo hcount).mpr
    ⟨fun entry hentry => hshort entry (List.mem_of_mem_take hentry),
      Or.inl fun i _ => haccepted i⟩

/-- The number of frames of a listing. -/
theorem IsListingOf.length {d : Directory} {count : ℕ} {frames : List TelemetryFrame}
    (h : IsListingOf d count frames) :
    frames.length = min count d.entries.length + if d.entries.length < count then 1 else 0 := by
  have hlen := congrArg List.length h.entries
  rw [List.length_map, List.length_append, List.length_mapIdx, List.length_take] at hlen
  rw [hlen]
  split <;> rfl

variable (m s area name count targets seqNo) in
/-- **Directory listings.** The frames of a started listing become and stay a listing of the
directory exactly when the requested names have at most 57 bytes, slash included, and the first
sends, as many as the listing has frames, are all accepted: a longer name is cut even if its frame
has room for it, and a refused frame is lost, and no later success makes up for it. The exception
are later entries whose cut names happen to be those of all the entries that are missing. -/
theorem isListingOf_directoryListing_iff (hcount : count.toNat ≤ 256)
    (hstart : (s.startDirectoryListing m.io area name 0 count targets seqNo).1 = none) :
    (∃ M, ∀ n ≥ M, IsListingOf m.directory count.toNat (m.framesAfter s.world.sent
        (s.startDirectoryListing m.io area name 0 count targets seqNo).2 n)) ↔
      (∀ entry ∈ m.directory.entries.take count.toNat, entry.displayName.length < 58) ∧
        ((∀ i < min count.toNat m.directory.entries.length +
            (if m.directory.entries.length < count.toNat then 1 else 0),
          s.world.outcomes i = true) ∨
        m.directory.Replaced count.toNat s.world.outcomes) := by
  rw [← Directory.isListingOf_delivered_iff targets seqNo hcount]
  constructor
  · rintro ⟨M, hM⟩
    have hlisting := hM (M + (m.directory.entries.length + 1)) (Nat.le_add_right _ _)
    rwa [framesAfter_eq_delivered hstart (by omega)] at hlisting
  · intro hdelivered
    refine ⟨m.directory.entries.length + 1, fun n hn => ?_⟩
    rwa [framesAfter_eq_delivered hstart hn]

/-- A directory with two files. -/
def twoFiles : Directory where
  entries := [⟨⟨[0x61], by decide⟩, .reg, 1⟩, ⟨⟨[0x62], by decide⟩, .reg, 1⟩]
  nodup := by decide
  name_ne := by decide
  noSlash := by decide

/-- A device with the directory of two files. -/
def Medium.twoFiles : Medium := { blank with directory := TellerOBC.twoFiles }

/-- The listing of two files by a request for three entries. -/
theorem isListingOf_directoryListing_twoFiles :
    (∃ M, ∀ n ≥ M, IsListingOf twoFiles 3 (Medium.twoFiles.framesAfter []
        ((booted fun _ => true).startDirectoryListing Medium.twoFiles.io .sdCard [0x2F] 0 3 1
          0).2 n)) ↔
      (∀ entry ∈ twoFiles.entries.take 3, entry.displayName.length < 58) ∧
        ((∀ i < 3, (fun _ => true) i = true) ∨ twoFiles.Replaced 3 fun _ => true) :=
  isListingOf_directoryListing_iff Medium.twoFiles (booted fun _ => true) .sdCard [0x2F] 3 1 0
    (by decide) rfl

/-- **A refused entry is lost.** The first frame is refused and all later ones are accepted; the
listing of the two files is never complete. -/
theorem not_isListingOf_directoryListing_twoFiles :
    ((booted (decide <| · ≠ 0)).startDirectoryListing Medium.twoFiles.io .sdCard [0x2F] 0 3 1
        0).1 = none ∧
      ¬ ∃ M, ∀ n ≥ M, IsListingOf twoFiles 3 (Medium.twoFiles.framesAfter []
        ((booted (decide <| · ≠ 0)).startDirectoryListing Medium.twoFiles.io .sdCard [0x2F] 0 3 1
          0).2 n) := by
  refine ⟨rfl, ?_⟩
  rintro ⟨M, hM⟩
  have hlisting := hM (M + 3) (Nat.le_add_right M 3)
  rw [show [] = (booted (decide <| · ≠ 0)).world.sent from rfl, @framesAfter_eq_delivered
    Medium.twoFiles (booted (decide <| · ≠ 0)) .sdCard [0x2F] 0 3 1 0 rfl (M + 3)
    (Nat.le_add_left 3 M)] at hlisting
  obtain ⟨-, haccepted | ⟨hle, -⟩⟩ :=
    (Directory.isListingOf_delivered_iff 1 0 (by decide)).mp hlisting
  · exact absurd (haccepted 0 (by decide)) (by decide)
  · exact absurd hle (by decide)

end DirectoryListing

end TellerOBC
