import TellerOBC.Scm.Relay

/-!
# The stamps of histograms

A histogram is put out when the next scintillator marker arrives, with the variable that holds the
time of the last start of a packet. That start may have come after the marker of the histogram: it
is then the start of the packet of the next histogram. Moreover the empty histogram that `init`
starts has no marker at all.

The starts and the markers in the stream are recorded as *marks*, the last one first. They are read
off the numbers that the decoder completes.

## Main definitions

* `TellerOBC.Scm.Mark`, `TellerOBC.Scm.readMark`: the marks in the stream.
* `TellerOBC.Scm.Tracked`, `TellerOBC.Scm.Tracked.after`: the module with the marks so far.
* `TellerOBC.Scm.source`: the marker that introduced the current histogram.
* `TellerOBC.Scm.RightlyStamped`, `TellerOBC.Scm.OnTime`.

## Main results

* `TellerOBC.Scm.rightlyStamped_iff_onTime`: when the outputs are stamped with the start of their
  own packet.
-/

namespace TellerOBC.Scm

/-! ### Marks -/

/-- The start of a packet with the time when it was received, or the marker of a scintillator. -/
inductive Mark where
  | start (startedAt : UInt32)
  | scintillator (index : UInt8)
  deriving DecidableEq, Repr

/-- The mark that a number is. -/
def mark? (value : UInt32) (overlong : UInt8) (now : UInt32) : Option Mark :=
  if overlong = 2 ∧ value < numScintillators then some (.scintillator value.toUInt8)
  else if overlong = 1 ∧ value = 0 then some (.start now)
  else none

/-- The mark that an update reads, if its byte completes one. -/
def readMark (d : VaruintDecoder) (input : Input) : Option Mark :=
  input.ch.bind fun ch =>
    let fed := d.feed ch
    if fed.1 then mark? fed.2.getValue fed.2.getOverlong input.startedAt else none

/-- The time of the last start of a packet. -/
def lastStart : List Mark → Option UInt32
  | [] => none
  | .start startedAt :: _ => some startedAt
  | .scintillator _ :: marks => lastStart marks

/-- The last scintillator marker, with the time of the last start of a packet before it. -/
def source : List Mark → Option (UInt8 × Option UInt32)
  | [] => none
  | .start _ :: marks => source marks
  | .scintillator index :: marks => some (index, lastStart marks)

/-! ### Runs -/

/-- What the task of the SCM calls. -/
inductive Step where
  | setup (isConnected : Bool)
  | update (input : Input)
  deriving DecidableEq, Repr

/-- The module and the marks that it has read. -/
structure Tracked where
  state : State
  marks : List Mark

/-- The module after `init`. -/
def Tracked.init (s : State) : Tracked := ⟨Scm.init s, []⟩

/-- A call with the marks that it reads. -/
def track (r : Tracked) : Step → Tracked
  | .setup isConnected => { r with state := (setup r.state isConnected).2 }
  | .update input => {
      state := (update r.state input).state
      marks := (readMark r.state.varuintDecoder input).toList ++ r.marks }

/-- The module after `init` and some calls. -/
def Tracked.after (s : State) (steps : List Step) : Tracked := steps.foldl track (Tracked.init s)

/-! ### Stamps -/

/-- The scintillator index and the timestamp of a log record or of the frame of a message. -/
def Output.stamp : Output → UInt8 × UInt32
  | log record => (record.i, record.timeMS)
  | send payload =>
    ((decodeSCMFrame payload).scintillatorIndex, (decodeSCMFrame payload).timestampInMsec)

/-- The outputs belong to a histogram that was introduced by a marker, and carry the time of the
last start of a packet before that marker. -/
def RightlyStamped (marks : List Mark) (outputs : List Output) : Prop :=
  ∃ index startedAt, source marks = some (index, some startedAt) ∧
    ∀ output ∈ outputs, output.stamp = (index, startedAt)

/-- There is a marker, and no start of a packet was received since the last one, or only starts of
which the last one was received at the same time as the last one before the marker. -/
def OnTime (marks : List Mark) : Prop :=
  ∃ index startedAt, source marks = some (index, some startedAt) ∧ lastStart marks = some startedAt

/-- The measurement has the index of the last marker, and the time of the last start unless a setup
has cleared it. -/
structure FollowsMarks (marks : List Mark) (m : Measurement) : Prop where
  index_eq : ∀ index startedAt, source marks = some (index, startedAt) →
    m.scintillatorIndex = index
  lastStart_eq : m.lastMessageStartedAt ≠ 0 → lastStart marks = some m.lastMessageStartedAt

section

variable {marks : List Mark} {m : Measurement}

theorem FollowsMarks.of_eq {m' : Measurement} (h : FollowsMarks marks m)
    (hindex : m'.scintillatorIndex = m.scintillatorIndex)
    (hstart : m'.lastMessageStartedAt = m.lastMessageStartedAt) : FollowsMarks marks m' :=
  ⟨fun index startedAt hsource => hindex.trans (h.index_eq index startedAt hsource),
    by rw [hstart]; exact h.lastStart_eq⟩

theorem storeBin_stamp (m : Measurement) (value : UInt16) :
    (storeBin m value).scintillatorIndex = m.scintillatorIndex ∧
      (storeBin m value).lastMessageStartedAt = m.lastMessageStartedAt := by
  rw [storeBin]
  split_ifs <;> exact ⟨rfl, rfl⟩

theorem addZerosToHistogram_stamp (m : Measurement) (count : ℕ) :
    (addZerosToHistogram m count).scintillatorIndex = m.scintillatorIndex ∧
      (addZerosToHistogram m count).lastMessageStartedAt = m.lastMessageStartedAt := by
  induction count generalizing m with
  | zero => exact ⟨rfl, rfl⟩
  | succ count ih =>
    rw [addZerosToHistogram]
    split_ifs
    · obtain ⟨hindex, hstart⟩ := ih (storeBin m 0)
      exact ⟨hindex.trans (storeBin_stamp m 0).1, hstart.trans (storeBin_stamp m 0).2⟩
    · exact ⟨rfl, rfl⟩

/-- The handling of a number follows its mark. -/
theorem FollowsMarks.handleNumber (h : FollowsMarks marks m) (value : UInt32) (overlong : UInt8)
    (now : UInt32) :
    FollowsMarks ((mark? value overlong now).toList ++ marks)
      (handleNumber m value overlong now).2.2 := by
  rw [Scm.handleNumber, mark?]
  split_ifs with hmarker hstart hzeros hnonzero
  · refine ⟨fun index startedAt hsource => ?_, fun hne => ?_⟩
    · exact congrArg Prod.fst (Option.some.inj hsource)
    · have hkeep := lastMessageStartedAt_finishHistogram m
      change (finishHistogram m).2.lastMessageStartedAt ≠ 0 at hne
      change lastStart marks = some (finishHistogram m).2.lastMessageStartedAt
      rw [hkeep] at hne ⊢
      exact h.lastStart_eq hne
  · exact ⟨h.index_eq, fun _ => rfl⟩
  · exact h.of_eq (addZerosToHistogram_stamp m _).1 (addZerosToHistogram_stamp m _).2
  · exact h.of_eq (storeBin_stamp m _).1 (storeBin_stamp m _).2
  · exact h

end

/-- A call follows its mark. -/
theorem followsMarks_track {r : Tracked} (h : FollowsMarks r.marks r.state.measurement)
    (step : Step) : FollowsMarks (track r step).marks (track r step).state.measurement := by
  cases step with
  | setup isConnected => exact ⟨h.index_eq, fun hne => absurd rfl hne⟩
  | update input =>
    cases hch : input.ch with
    | none =>
      rw [track, readMark, hch, (update_of_none hch).2.2]
      exact h
    | some ch =>
      rcases hfeed : r.state.varuintDecoder.feed ch with ⟨complete, d⟩
      rw [track, readMark, hch, Option.bind_some, hfeed]
      cases complete with
      | false =>
        rw [(update_of_incomplete hch hfeed).2.2]
        exact h
      | true =>
        rw [(update_of_complete hch hfeed).2]
        exact h.handleNumber _ _ _

theorem followsMarks_init (s : State) :
    FollowsMarks (Tracked.init s).marks (Tracked.init s).state.measurement where
  index_eq := fun _ _ hsource => nomatch hsource
  lastStart_eq := fun hne => absurd rfl hne

/-- Any calls follow their marks. -/
theorem followsMarks_foldl {r : Tracked} (h : FollowsMarks r.marks r.state.measurement)
    (steps : List Step) :
    FollowsMarks (steps.foldl track r).marks (steps.foldl track r).state.measurement := by
  induction steps generalizing r with
  | nil => exact h
  | cons step steps ih => exact ih (followsMarks_track h step)

/-! ### Outputs -/

theorem stamp_of_mem_sendFragments {scmFrame : ScmData} {n i : ℕ} {bytes : List UInt8}
    {output : Output} (h : output ∈ sendFragments scmFrame n i bytes) :
    output.stamp = (scmFrame.scintillatorIndex, scmFrame.timestampInMsec) := by
  induction n generalizing i bytes with
  | zero => exact absurd h List.not_mem_nil
  | succ n ih =>
    rcases List.mem_cons.mp h with rfl | h
    · rw [Output.stamp, decode_encodeSCMFrame]
    · exact ih h

/-- What is put out when a marker arrives is stamped with the variables of the module. -/
theorem stamp_of_mem_finishHistogram {m : Measurement} {output : Output}
    (h : output ∈ (finishHistogram m).1) :
    m.lastMessageStartedAt ≠ 0 ∧
      output.stamp = (m.scintillatorIndex, m.lastMessageStartedAt) := by
  rw [finishHistogram] at h
  split_ifs at h with hpos
  · have hkeep : (packHistogram m).2.scintillatorIndex = m.scintillatorIndex ∧
        (packHistogram m).2.lastMessageStartedAt = m.lastMessageStartedAt := by
      rw [packHistogram]
      split_ifs <;> exact ⟨rfl, rfl⟩
    refine ⟨fun hzero => absurd hpos (by rw [hzero]; decide), ?_⟩
    dsimp only at h
    split_ifs at h
    swap
    · exact absurd h List.not_mem_nil
    rcases List.mem_append.mp h with hlog | hsend
    · obtain ⟨i, -, rfl⟩ := List.mem_map.mp hlog
      exact Prod.ext hkeep.1 hkeep.2
    · rw [sendSCMMeasurement] at hsend
      split_ifs at hsend
      · exact absurd hsend List.not_mem_nil
      · exact (stamp_of_mem_sendFragments hsend).trans (Prod.ext hkeep.1 hkeep.2)
  · exact absurd h List.not_mem_nil

theorem stamp_of_mem_update {s : State} {input : Input} {output : Output}
    (h : output ∈ (update s input).outputs) :
    s.measurement.lastMessageStartedAt ≠ 0 ∧
      output.stamp = (s.measurement.scintillatorIndex, s.measurement.lastMessageStartedAt) := by
  cases hch : input.ch with
  | none =>
    rw [(update_of_none hch).1] at h
    exact absurd h List.not_mem_nil
  | some ch =>
    rcases hfeed : s.varuintDecoder.feed ch with ⟨complete, d⟩
    cases complete with
    | false =>
      rw [(update_of_incomplete hch hfeed).1] at h
      exact absurd h List.not_mem_nil
    | true =>
      rw [(update_of_complete hch hfeed).1, handleNumber] at h
      split_ifs at h
      · exact stamp_of_mem_finishHistogram h
      all_goals exact absurd h List.not_mem_nil

/-- **When a histogram has the time of its own packet.** After any calls, let an update put
something out. It is introduced by a marker, and stamped with the last start of a packet before that
marker, exactly when there is a marker and the last start of a packet before it has the same time as
the last one of all. -/
theorem rightlyStamped_iff_onTime (s : State) (steps : List Step) (input : Input)
    (houtputs : (update (Tracked.after s steps).state input).outputs ≠ []) :
    RightlyStamped (Tracked.after s steps).marks
        (update (Tracked.after s steps).state input).outputs ↔
      OnTime (Tracked.after s steps).marks := by
  have hfollows : FollowsMarks (Tracked.after s steps).marks
      (Tracked.after s steps).state.measurement := followsMarks_foldl (followsMarks_init s) steps
  obtain ⟨output, hmem⟩ := List.exists_mem_of_ne_nil _ houtputs
  have hstart := hfollows.lastStart_eq (stamp_of_mem_update hmem).1
  constructor
  · rintro ⟨index, startedAt, hsource, hstamps⟩
    have hstamp := (hstamps output hmem).symm.trans (stamp_of_mem_update hmem).2
    rw [Prod.mk.injEq] at hstamp
    exact ⟨index, startedAt, hsource, by rw [hstart, hstamp.2]⟩
  · rintro ⟨index, startedAt, hsource, hlast⟩
    refine ⟨index, startedAt, hsource, fun output hmem => ?_⟩
    rw [(stamp_of_mem_update hmem).2, hfollows.index_eq index _ hsource,
      Option.some.inj (hstart.symm.trans hlast)]

/-- Updates that read some bytes at a reading of the clock. -/
def updatesAt (now : UInt32) (bytes : List UInt8) : List Step :=
  bytes.map fun ch => .update ⟨some ch, now, now⟩

/-- Two histograms in one packet: the first one has the time of the packet. -/
theorem rightlyStamped_in_packet :
    RightlyStamped [.scintillator 0, .start 1000]
      (update (Tracked.after State.zero
        (updatesAt 1000 [0x40, 0x80, 0x60, 0x80, 0x80, 0x60, 0x80])).state
        ⟨some 0x81, 1010, 1010⟩).outputs := by
  have hmarks : (Tracked.after State.zero
      (updatesAt 1000 [0x40, 0x80, 0x60, 0x80, 0x80, 0x60, 0x80])).marks =
        [.scintillator 0, .start 1000] := by decide +kernel
  have hstamped := rightlyStamped_iff_onTime State.zero
    (updatesAt 1000 [0x40, 0x80, 0x60, 0x80, 0x80, 0x60, 0x80]) ⟨some 0x81, 1010, 1010⟩
    (by decide +kernel)
  rw [hmarks] at hstamped
  exact hstamped.mpr ⟨0, 1000, rfl, rfl⟩

/-- The last histogram of a packet has the time of the next packet. -/
theorem not_rightlyStamped_across_packets :
    ∃ (steps : List Step) (input : Input),
      (update (Tracked.after State.zero steps).state input).outputs ≠ [] ∧
      (Tracked.after State.zero steps).marks = [.start 2000, .scintillator 0, .start 1000] ∧
      ¬ RightlyStamped (Tracked.after State.zero steps).marks
        (update (Tracked.after State.zero steps).state input).outputs := by
  refine ⟨updatesAt 1000 [0x40, 0x80, 0x60, 0x80, 0x80] ++ updatesAt 2000 [0x40, 0x80, 0x60, 0x80],
    ⟨some 0x81, 2010, 2010⟩, by decide +kernel, by decide +kernel, ?_⟩
  rintro ⟨index, startedAt, hsource, hstamps⟩
  have hstart := hsource.symm.trans (show source _ = some (0, some 1000) by decide +kernel)
  obtain ⟨rfl, rfl⟩ : index = 0 ∧ startedAt = 1000 := by simpa using hstart
  exact absurd hstamps (by decide +kernel)

end TellerOBC.Scm
