import TellerOBC.Core.VaruintStream
import TellerOBC.Scm.Update

/-!
# Histograms on their way through the SCM module

The bytes of a scintillator marker and of a packed histogram leave the histogram in the module. The
next marker makes it send the packed histogram in fragments, provided that it fits into the buffer.

While a histogram comes in, the measurement holds the bins of the tokens that are complete; a token
arrives as a number, and a number is handled when its last byte arrives.

## Main definitions

* `TellerOBC.Scm.Filling`: the bins that a measurement holds.
* `TellerOBC.Scm.Carries`: the frames that carry the bytes of a packed histogram.

## Main results

* `TellerOBC.Scm.run_of_isVaruint`: the bytes of a number amount to its handling.
* `TellerOBC.Scm.filling_run_tokens`: the tokens of a histogram fill the measurement.
* `TellerOBC.Scm.carries_sendSCMMeasurement`: the fragments of a packed histogram.
* `TellerOBC.Scm.relay_histogram`: a histogram between two markers.
-/

namespace TellerOBC.Scm

/-! ### Numbers -/

section

variable {s : State} {input : Input} {inputs : List Input}

theorem update_of_none (hch : input.ch = none) :
    (update s input).outputs = [] ∧
      (update s input).state.varuintDecoder = s.varuintDecoder ∧
      (update s input).state.measurement = s.measurement := by
  simp only [update, receive, hch, and_self]

theorem update_of_incomplete {ch : UInt8} {d : VaruintDecoder} (hch : input.ch = some ch)
    (hfeed : s.varuintDecoder.feed ch = (false, d)) :
    (update s input).outputs = [] ∧ (update s input).state.varuintDecoder = d ∧
      (update s input).state.measurement = s.measurement := by
  simp [update, receive, hch, hfeed]

theorem update_of_complete {ch : UInt8} {d : VaruintDecoder} (hch : input.ch = some ch)
    (hfeed : s.varuintDecoder.feed ch = (true, d)) :
    (update s input).outputs =
        (handleNumber s.measurement d.getValue d.getOverlong input.startedAt).2.1 ∧
      (update s input).state.measurement =
        (handleNumber s.measurement d.getValue d.getOverlong input.startedAt).2.2 := by
  simp [update, receive, hch, hfeed]

/-- Bytes that complete no number change only the decoder. -/
theorem run_of_feeds {bytes : List UInt8} {d : VaruintDecoder}
    (hfeeds : s.varuintDecoder.Feeds bytes d) (hbytes : receivedBytes inputs = bytes) :
    (run s inputs).1 = [] ∧ (run s inputs).2.varuintDecoder = d ∧
      (run s inputs).2.measurement = s.measurement := by
  induction inputs generalizing s bytes with
  | nil =>
    subst hbytes
    cases hfeeds
    exact ⟨rfl, rfl, rfl⟩
  | cons input inputs ih =>
    cases hch : input.ch with
    | none =>
      rw [receivedBytes, List.filterMap_cons_none hch] at hbytes
      obtain ⟨houtputs, hdecoder, hmeasurement⟩ := update_of_none (s := s) hch
      obtain ⟨hrest, hdecoder', hmeasurement'⟩ :=
        ih (s := (update s input).state) (hdecoder ▸ hfeeds) hbytes
      rw [run, houtputs, hrest]
      exact ⟨rfl, hdecoder', hmeasurement'.trans hmeasurement⟩
    | some ch =>
      rw [receivedBytes, List.filterMap_cons_some hch] at hbytes
      subst hbytes
      cases hfeeds with
      | cons hfeed hfeeds =>
        obtain ⟨houtputs, hdecoder, hmeasurement⟩ := update_of_incomplete hch hfeed
        obtain ⟨hrest, hdecoder', hmeasurement'⟩ :=
          ih (s := (update s input).state) (hdecoder ▸ hfeeds) rfl
        rw [run, houtputs, hrest]
        exact ⟨rfl, hdecoder', hmeasurement'.trans hmeasurement⟩

/-- Updates that read nothing change nothing. -/
theorem run_of_idle (hbytes : receivedBytes inputs = []) :
    (run s inputs).1 = [] ∧ (run s inputs).2.varuintDecoder = s.varuintDecoder ∧
      (run s inputs).2.measurement = s.measurement :=
  run_of_feeds (.nil _) hbytes

/-- The bytes of a number amount to its handling. -/
theorem run_of_isVaruint {bytes : List UInt8} {value : UInt32} {overlong : UInt8}
    (hnumber : IsVaruint bytes value overlong) (hbytes : receivedBytes inputs = bytes) :
    ∃ now, (run s inputs).1 = (handleNumber s.measurement value overlong now).2.1 ∧
      (run s inputs).2.measurement = (handleNumber s.measurement value overlong now).2.2 := by
  obtain ⟨init, last, rfl, hany⟩ := hnumber
  obtain ⟨d, d', hfeeds, hfeed, rfl, rfl⟩ := hany s.varuintDecoder
  obtain ⟨xs, ys, rfl, hxs, hys⟩ := List.filterMap_eq_append_iff.mp hbytes
  obtain ⟨idle, input, rest, rfl, hidle, hch, hrest⟩ := List.filterMap_eq_cons_iff.mp hys
  obtain ⟨houtputs, hdecoder, hmeasurement⟩ := run_of_feeds hfeeds hxs
  obtain ⟨houtputs', hdecoder', hmeasurement'⟩ :=
    run_of_idle (s := (run s xs).2) (List.filterMap_eq_nil_iff.mpr hidle)
  have hfeed' : (run (run s xs).2 idle).2.varuintDecoder.feed last = (true, d') := by
    rw [hdecoder', hdecoder, hfeed]
  obtain ⟨hlast, hlastm⟩ := update_of_complete hch hfeed'
  obtain ⟨houtputs'', -, hmeasurement''⟩ :=
    run_of_idle (s := (update (run (run s xs).2 idle).2 input).state) hrest
  rw [hmeasurement', hmeasurement] at hlast hlastm
  refine ⟨input.startedAt, ?_, ?_⟩
  · rw [run_append, run_append, run, houtputs, houtputs', houtputs'', hlast]
    simp only [List.nil_append, List.append_nil]
  · rw [run_append, run_append, run, hmeasurement'', hlastm]

end

/-! ### Bins -/

/-- The measurement holds these bins of the histogram of a scintillator. -/
structure Filling (startedAt : UInt32) (index : UInt8) (bins : List UInt16) (m : Measurement) :
    Prop where
  startedAt_eq : m.lastMessageStartedAt = startedAt
  index_eq : m.scintillatorIndex = index
  histogramIndex_eq : m.histogramIndex = bins.length
  take_eq : m.histogram.toList.take bins.length = bins

section

variable {startedAt : UInt32} {index : UInt8} {bins : List UInt16} {m : Measurement}

theorem lastMessageStartedAt_finishHistogram (m : Measurement) :
    (finishHistogram m).2.lastMessageStartedAt = m.lastMessageStartedAt := by
  simp only [finishHistogram, packHistogram]
  split_ifs <;> rfl

theorem filling_start (m : Measurement) (index : UInt8) :
    Filling m.lastMessageStartedAt index [] (startHistogramForScintillator m index) :=
  ⟨rfl, rfl, rfl, rfl⟩

theorem Filling.storeBin (h : Filling startedAt index bins m) (hlt : bins.length < histogramSize)
    (value : UInt16) : Filling startedAt index (bins ++ [value]) (storeBin m value) := by
  have hindex : m.histogramIndex < histogramSize := h.histogramIndex_eq ▸ hlt
  rw [Scm.storeBin, dif_pos hindex]
  refine ⟨h.startedAt_eq, h.index_eq, ?_, ?_⟩
  · rw [List.length_append, List.length_singleton]
    exact congrArg (· + 1) h.histogramIndex_eq
  · have hlength : bins.length < m.histogram.toList.length := by
      rwa [Vector.length_toList]
    simp only [h.histogramIndex_eq, Vector.toList_set]
    rw [List.length_append, List.length_singleton, List.take_succ_eq_append_getElem
      (by rwa [List.length_set]), List.getElem_set_self, List.take_set_of_le (Nat.le_refl _),
      h.take_eq]

theorem Filling.addZeros (h : Filling startedAt index bins m) {count : ℕ}
    (hle : bins.length + count ≤ histogramSize) :
    Filling startedAt index (bins ++ List.replicate count 0) (addZerosToHistogram m count) := by
  induction count generalizing bins m with
  | zero => rwa [List.replicate_zero, List.append_nil]
  | succ count ih =>
    have hlt : bins.length < histogramSize := by omega
    have hrest := ih (h.storeBin hlt 0) (by
      rw [List.length_append, List.length_singleton]
      omega)
    rw [addZerosToHistogram, if_pos (h.histogramIndex_eq ▸ hlt), List.replicate_succ,
      List.append_cons]
    exact hrest

/-- A count of 16 bits is not clamped. -/
theorem addNonzeroToHistogram_toUInt32 (m : Measurement) (value : UInt16) :
    addNonzeroToHistogram m value.toUInt32 = Scm.storeBin m value := by
  rw [addNonzeroToHistogram]
  congr 1
  split_ifs with hge
  · have hlt := value.toNat_lt
    rw [ge_iff_le, UInt32.le_iff_toNat_le, UInt16.toNat_toUInt32] at hge
    apply UInt16.toNat.inj
    change 65535 = value.toNat
    change 65535 ≤ value.toNat at hge
    omega
  · exact UInt16.toUInt16_toUInt32 value

end

/-! ### Tokens -/

section

variable {startedAt : UInt32} {index : UInt8} {bins : List UInt16}

/-- A token arrives as a number whose handling stores its bins. -/
theorem exists_isVaruint_token (t : HistogramToken) (hlong : t.IsLong) :
    ∃ value overlong, IsVaruint t.encode value overlong ∧
      ∀ m now, Filling startedAt index bins m →
        bins.length + t.expand.length ≤ histogramSize →
          (handleNumber m value overlong now).2.1 = [] ∧
            Filling startedAt index (bins ++ t.expand) (handleNumber m value overlong now).2.2 := by
  cases t with
  | count value =>
    have hle := thresholdIndex_le value.toUInt32
    refine ⟨value.toUInt32, 0, isVaruint_encodeOverlong _ _ ?_, fun m now hm hfits => ?_⟩
    · change thresholdIndex value.toUInt32 + 0 + 1 ≤ 8
      omega
    · have hhandle : handleNumber m value.toUInt32 0 now = (false, [], storeBin m value) := by
        rw [← addNonzeroToHistogram_toUInt32]
        rfl
      rw [hhandle]
      exact ⟨rfl, hm.storeBin hfits value⟩
  | zeros runLength =>
    have hle := thresholdIndex_le runLength
    refine ⟨runLength, 1, isVaruint_encodeOverlong _ _ ?_, fun m now hm hfits => ?_⟩
    · change thresholdIndex runLength + 1 + 1 ≤ 8
      omega
    · have hpos : runLength ≠ 0 := by
        rintro rfl
        exact absurd (show (1 : UInt32) < 0 from hlong) (by decide)
      have hhandle : handleNumber m runLength 1 now =
          (false, [], addZerosToHistogram m runLength.toNat) := by
        rw [handleNumber, if_neg (fun h => absurd h.1 (by decide)), if_neg (fun h => hpos h.2),
          if_pos rfl]
      rw [HistogramToken.expand, List.length_replicate] at hfits
      rw [hhandle]
      exact ⟨rfl, hm.addZeros hfits⟩

/-- The tokens of a histogram fill the measurement. -/
theorem filling_run_tokens {s : State} {inputs : List Input} (ts : List HistogramToken)
    (hlong : ∀ t ∈ ts, t.IsLong) (hbytes : receivedBytes inputs = ts.flatMap HistogramToken.encode)
    (hm : Filling startedAt index bins s.measurement)
    (hfits : bins.length + (ts.flatMap HistogramToken.expand).length ≤ histogramSize) :
    Filling startedAt index (bins ++ ts.flatMap HistogramToken.expand)
      (run s inputs).2.measurement := by
  induction ts generalizing s inputs bins with
  | nil =>
    rw [(run_of_idle hbytes).2.2, List.flatMap_nil, List.append_nil]
    exact hm
  | cons t ts ih =>
    rw [List.flatMap_cons] at hbytes
    rw [List.flatMap_cons, List.length_append] at hfits
    obtain ⟨xs, ys, rfl, hxs, hys⟩ := List.filterMap_eq_append_iff.mp hbytes
    obtain ⟨value, overlong, hnumber, hhandle⟩ :=
      exists_isVaruint_token t (hlong t List.mem_cons_self)
    obtain ⟨now, -, hmeasurement⟩ := run_of_isVaruint (s := s) hnumber hxs
    have hstored : Filling startedAt index (bins ++ t.expand) (run s xs).2.measurement := by
      rw [hmeasurement]
      exact (hhandle _ now hm (by omega)).2
    have hrest := ih (fun t ht => hlong t (List.mem_cons_of_mem _ ht)) hys hstored (by
      rw [List.length_append]
      omega)
    rw [run_append, List.flatMap_cons, ← List.append_assoc]
    exact hrest

end

/-! ### Fragments -/

/-- The SCM frames among the outputs. -/
def sentFrames (outputs : List Output) : List ScmData :=
  (outputs.filterMap Output.payload?).map decodeSCMFrame

/-- The frames carry the bytes of the packed histogram of a scintillator in fragments. -/
structure Carries (frames : List ScmData) (index : UInt8) (bytes : List UInt8) : Prop where
  scintillatorIndex_eq : ∀ f ∈ frames, f.scintillatorIndex = index
  length_le : ∀ f ∈ frames, f.data.length ≤ 56
  maxFragmentIndex_eq : ∀ f ∈ frames, f.maxFragmentIndex.toNat + 1 = frames.length
  fragmentIndex_eq : frames.map (fun f => f.fragmentIndex.toNat) = List.range frames.length
  data_eq : frames.flatMap ScmData.data = bytes

theorem sentFrames_append (xs ys : List Output) :
    sentFrames (xs ++ ys) = sentFrames xs ++ sentFrames ys := by
  rw [sentFrames, List.filterMap_append, List.map_append]
  rfl

theorem sentFrames_logSCMMeasurement (m : Measurement) :
    sentFrames (logSCMMeasurement m) = [] := by
  rw [sentFrames, logSCMMeasurement, List.filterMap_map, List.map_eq_nil_iff,
    List.filterMap_eq_nil_iff]
  exact fun _ _ => rfl

theorem sentFrames_sendFragments_succ (scmFrame : ScmData) (n i : ℕ) (bytes : List UInt8) :
    sentFrames (sendFragments scmFrame (n + 1) i bytes) =
      { scmFrame with
        fragmentIndex := UInt8.ofNat i
        data := bytes.take (min bytes.length fragmentSize) } ::
          sentFrames (sendFragments scmFrame n (i + 1)
            (bytes.drop (min bytes.length fragmentSize))) := by
  rw [sendFragments]
  exact congrArg (· :: _) (decode_encodeSCMFrame _)

/-- The frames that the loop sends. -/
theorem sentFrames_sendFragments (scmFrame : ScmData) {n i : ℕ} {bytes : List UInt8}
    (hn : bytes.length ≤ fragmentSize * n) (hi : i + n ≤ 256) :
    (∀ f ∈ sentFrames (sendFragments scmFrame n i bytes),
      f.scintillatorIndex = scmFrame.scintillatorIndex ∧
        f.maxFragmentIndex = scmFrame.maxFragmentIndex ∧ f.data.length ≤ 56) ∧
    (sentFrames (sendFragments scmFrame n i bytes)).map (fun f => f.fragmentIndex.toNat) =
      List.range' i n ∧
    (sentFrames (sendFragments scmFrame n i bytes)).flatMap ScmData.data = bytes := by
  induction n generalizing i bytes with
  | zero =>
    obtain rfl : bytes = [] := List.length_eq_zero_iff.mp (by omega)
    exact ⟨fun f hf => absurd hf List.not_mem_nil, rfl, rfl⟩
  | succ n ih =>
    have hsize : fragmentSize = 56 := rfl
    have hrest : (bytes.drop (min bytes.length fragmentSize)).length ≤ fragmentSize * n := by
      rw [List.length_drop]
      rw [hsize] at hn ⊢
      omega
    obtain ⟨hframes, hindices, hdata⟩ := ih (i := i + 1) hrest (by omega)
    rw [sentFrames_sendFragments_succ]
    refine ⟨fun f hf => ?_, ?_, ?_⟩
    · rcases List.mem_cons.mp hf with rfl | hf
      · refine ⟨rfl, rfl, ?_⟩
        rw [List.length_take]
        omega
      · exact hframes f hf
    · have hfirst : (UInt8.ofNat i).toNat = i := by
        rw [UInt8.toNat_ofNat']
        exact Nat.mod_eq_of_lt (by omega)
      rw [List.map_cons, hindices, hfirst, List.range'_succ]
    · rw [List.flatMap_cons, hdata, List.take_append_drop]

/-- The fragments of a packed histogram that is in the buffer. -/
theorem carries_sendSCMMeasurement (m : Measurement) (hfits : packedLength m ≤ 512)
    (hlength : packedLength m ≤ m.packedHistogram.length) :
    Carries (sentFrames (sendSCMMeasurement m)) m.scintillatorIndex
      (m.packedHistogram.take (packedLength m)) := by
  have hsize : fragmentSize = 56 := rfl
  have htake : (m.packedHistogram.take (packedLength m)).length = packedLength m := by
    rw [List.length_take, Nat.min_eq_left hlength]
  have hcover : packedLength m ≤ fragmentSize * numFragments m := by
    rw [numFragments, hsize]
    split_ifs <;> omega
  have hfew : numFragments m ≤ 10 := by
    rw [numFragments, hsize]
    split_ifs <;> omega
  rw [sendSCMMeasurement]
  split_ifs with hzero
  · have hnil : m.packedHistogram.take (packedLength m) = [] :=
      List.length_eq_zero_iff.mp (by rw [htake]; rw [hzero] at hcover; omega)
    rw [hnil]
    exact ⟨fun f hf => absurd hf List.not_mem_nil, fun f hf => absurd hf List.not_mem_nil,
      fun f hf => absurd hf List.not_mem_nil, rfl, rfl⟩
  · obtain ⟨hframes, hindices, hdata⟩ := sentFrames_sendFragments
      ⟨m.lastMessageStartedAt, UInt8.ofNat (numFragments m - 1), 0, m.scintillatorIndex, []⟩
      (n := numFragments m) (i := 0) (htake.trans_le hcover) (by omega)
    have hcount := congrArg List.length hindices
    rw [List.length_map, List.length_range'] at hcount
    refine ⟨fun f hf => (hframes f hf).1, fun f hf => (hframes f hf).2.2, fun f hf => ?_, ?_, hdata⟩
    · rw [hcount, (hframes f hf).2.1, UInt8.toNat_ofNat']
      change (numFragments m - 1) % 256 + 1 = numFragments m
      omega
    · rw [hindices, hcount, List.range_eq_range']

/-- The measurement after its histogram is packed. -/
theorem packHistogram_of_le {m : Measurement}
    (h : (histogramPack m.histogram.toList).length ≤ 512) :
    packHistogram m = (true, { m with
      packedHistogram := overwrite m.packedHistogram (histogramPack m.histogram.toList)
      packedHistogramEnd := some (histogramPack m.histogram.toList).length }) := by
  rw [packHistogram, histogramGetPackedSize_eq]
  exact if_neg (Nat.not_lt.mpr h)

theorem packHistogram_of_lt {m : Measurement}
    (h : 512 < (histogramPack m.histogram.toList).length) :
    packHistogram m = (false, { m with packedHistogramEnd := none }) := by
  rw [packHistogram, histogramGetPackedSize_eq]
  exact if_pos h

/-- What is sent when a marker arrives. -/
theorem sentFrames_finishHistogram (m : Measurement) (hstarted : 0 < m.lastMessageStartedAt) :
    ((histogramPack m.histogram.toList).length ≤ 512 →
      Carries (sentFrames (finishHistogram m).1) m.scintillatorIndex
        (histogramPack m.histogram.toList)) ∧
    (512 < (histogramPack m.histogram.toList).length → sentFrames (finishHistogram m).1 = []) := by
  rw [finishHistogram, if_pos hstarted]
  refine ⟨fun hfits => ?_, fun hlarge => ?_⟩
  · simp only [packHistogram_of_le hfits, if_true]
    rw [sentFrames_append, sentFrames_logSCMMeasurement, List.nil_append]
    have hcarries := carries_sendSCMMeasurement
      { m with
        packedHistogram := overwrite m.packedHistogram (histogramPack m.histogram.toList)
        packedHistogramEnd := some (histogramPack m.histogram.toList).length }
      hfits (by
        rw [overwrite, List.length_append]
        exact Nat.le_add_right _ _)
    have htake := take_overwrite m.packedHistogram (histogramPack m.histogram.toList)
    change Carries _ _ ((overwrite m.packedHistogram (histogramPack m.histogram.toList)).take
      (histogramPack m.histogram.toList).length) at hcarries
    rwa [htake] at hcarries
  · simp only [packHistogram_of_lt hlarge]
    rfl

/-! ### A histogram between two markers -/

/-- The marker of a scintillator. -/
def scintillatorMarker (index : UInt32) : List UInt8 := varuintEncodeOverlong index 2

theorem isVaruint_marker (index : UInt32) : IsVaruint (scintillatorMarker index) index 2 := by
  have hle := thresholdIndex_le index
  refine isVaruint_encodeOverlong index 2 ?_
  change thresholdIndex index + 2 + 1 ≤ 8
  omega

theorem handleNumber_marker (m : Measurement) {index : UInt32} (hindex : index < numScintillators)
    (now : UInt32) :
    handleNumber m index 2 now =
      (false, (finishHistogram m).1,
        startHistogramForScintillator (finishHistogram m).2 index.toUInt8) := by
  rw [handleNumber, if_pos ⟨rfl, hindex⟩]

/-- A marker and a packed histogram leave the histogram in the measurement. -/
theorem filling_run_histogram {s : State} {index : UInt32} (hindex : index < numScintillators)
    (h : List UInt16) (hlength : h.length ≤ histogramSize) {inputs : List Input}
    (hbytes : receivedBytes inputs = scintillatorMarker index ++ histogramPack h) :
    Filling s.measurement.lastMessageStartedAt index.toUInt8 h (run s inputs).2.measurement := by
  rw [histogramPack_eq] at hbytes
  obtain ⟨xs, ys, rfl, hxs, hys⟩ := List.filterMap_eq_append_iff.mp hbytes
  obtain ⟨now, -, hmeasurement⟩ := run_of_isVaruint (s := s) (isVaruint_marker index) hxs
  have hstart : Filling s.measurement.lastMessageStartedAt index.toUInt8 []
      (run s xs).2.measurement := by
    rw [hmeasurement, handleNumber_marker _ hindex, ← lastMessageStartedAt_finishHistogram]
    exact filling_start _ _
  have hfilled := filling_run_tokens (histogramTokens h)
    (fun t ht => isLong_of_mem_histogramTokens ht) hys hstart (by
      rw [expand_histogramTokens, List.length_nil, Nat.zero_add]
      exact hlength)
  rw [expand_histogramTokens, List.nil_append] at hfilled
  rw [run_append]
  exact hfilled

/-- **Histograms are relayed.** Let a start of a packet be seen, and let the bytes of a marker, a
packed histogram and another marker arrive, the last one in the closing update. Before that update
the module has the histogram. In it the frames that are sent carry the packed histogram if it fits
into the buffer; otherwise nothing is sent. -/
theorem relay_histogram (s : State) (hstarted : 0 < s.measurement.lastMessageStartedAt)
    (h : Vector UInt16 histogramSize) (index next : UInt32) (hindex : index < numScintillators)
    (hnext : next < numScintillators) (inputs : List Input) (closing : Input)
    (hclosing : closing.ch ≠ none)
    (hbytes : receivedBytes (inputs ++ [closing]) =
      scintillatorMarker index ++ histogramPack h.toList ++ scintillatorMarker next) :
    (run s inputs).2.measurement.histogram = h ∧
      ((histogramPack h.toList).length ≤ 512 →
        Carries (sentFrames (update (run s inputs).2 closing).outputs) index.toUInt8
          (histogramPack h.toList)) ∧
      (512 < (histogramPack h.toList).length →
        sentFrames (update (run s inputs).2 closing).outputs = []) := by
  obtain ⟨ch, hch⟩ := Option.ne_none_iff_exists'.mp hclosing
  obtain ⟨init, last, hmarker, hany⟩ := isVaruint_marker next
  rw [hmarker, ← List.append_assoc, receivedBytes, List.filterMap_append,
    List.filterMap_cons_some hch, List.filterMap_nil] at hbytes
  obtain ⟨hbefore, hlast⟩ := List.append_inj' hbytes rfl
  obtain rfl : ch = last := List.head_eq_of_cons_eq hlast
  obtain ⟨xs, ys, rfl, hxs, hys⟩ := List.filterMap_eq_append_iff.mp hbefore
  have hfilled := filling_run_histogram (s := s) hindex h.toList
    (Vector.length_toList.trans_le (Nat.le_refl _)) hxs
  obtain ⟨d, d', hfeeds, hfeed, hvalue, hoverlong⟩ := hany (run s xs).2.varuintDecoder
  obtain ⟨-, hdecoder, hmeasurement⟩ := run_of_feeds hfeeds hys
  have hrun : (run s (xs ++ ys)).2 = (run (run s xs).2 ys).2 := by rw [run_append]
  rw [← hrun] at hdecoder hmeasurement
  rw [← hmeasurement] at hfilled
  have hhistogram : (run s (xs ++ ys)).2.measurement.histogram = h := by
    have htake := hfilled.take_eq
    rw [List.take_of_length_le (by rw [Vector.length_toList, Vector.length_toList])] at htake
    exact Vector.toList_inj.mp htake
  have houtputs : (update (run s (xs ++ ys)).2 closing).outputs =
      (finishHistogram (run s (xs ++ ys)).2.measurement).1 := by
    rw [(update_of_complete hch (hdecoder ▸ hfeed)).1, hvalue, hoverlong,
      handleNumber_marker _ hnext]
  have hsent := sentFrames_finishHistogram (run s (xs ++ ys)).2.measurement (by
    rwa [hfilled.startedAt_eq])
  rw [hhistogram, hfilled.index_eq] at hsent
  rw [houtputs]
  exact ⟨hhistogram, hsent⟩

/-- Runs of two and of 253 empty bins around a count of two bytes. -/
theorem relay_histogram_of_runs :
    let h := (Vector.replicate histogramSize (0 : UInt16)).set 2 300
    let s := (update (init State.zero) ⟨some 0x40, 1, 1⟩).state
    let s := (update s ⟨some 0x80, 1, 1⟩).state
    let inputs := [0x60, 0x80, 0x81, 0x40, 0x82, 0x42, 0xAC, 0x60, 0x81, 0xFD, 0x60, 0x80].map
      fun ch => (⟨some ch, 1, 1⟩ : Input)
    (run s inputs).2.measurement.histogram = h ∧
      Carries (sentFrames (update (run s inputs).2 ⟨some 0x82, 1, 1⟩).outputs) 1
        [0x40, 0x82, 0x42, 0xAC, 0x60, 0x81, 0xFD] := by
  intro h s s' inputs
  have hrelay := relay_histogram s' (by decide +kernel) h 1 2 (by decide) (by decide) inputs
    ⟨some 0x82, 1, 1⟩ (by decide) (by decide +kernel)
  have hpack : histogramPack h.toList = [0x40, 0x82, 0x42, 0xAC, 0x60, 0x81, 0xFD] := by
    decide +kernel
  rw [hpack] at hrelay
  exact ⟨hrelay.1, hrelay.2.1 (by decide)⟩

end TellerOBC.Scm
