import TellerOBC.Foundations.CircularBuffer
import TellerOBC.Foundations.StepSystem

/-!
# Receiving over USB

The receive buffer of the USB interface in `lib/usb-cdc/usbd_cdc_if.c` and `read` of
`hal/stm32/usb.cpp`. The USB interrupt copies each packet into the buffer and then makes the
endpoint ready for the next one. A packet that does not fit is dropped, and the endpoint is not made
ready, since the interrupt handler returns before that. Only `USBD_CDC_Init` makes it ready again,
when the host enumerates the device once more; this is left out.

The interrupt can come between any two steps of the task that reads: between its loads of the
positions, between the load of a byte and the store of the position behind it, and so on. The
handler is not interrupted by the task.

## Main definitions

* `TellerOBC.CdcRxBuffer`: the buffer, with the functions of the USB interface.
* `TellerOBC.UsbReceive`, `TellerOBC.UsbReceive.step`: the endpoint, the buffer and the task.

## Main results

* `TellerOBC.UsbReceive.received_run`: the task reads the packets up to the first one that does not
  fit, and nothing after that.
-/

namespace TellerOBC

open CircularBuffer StepSystem

/-- `HL_RX_BUFFER_SIZE`. -/
abbrev hlRxBufferSize : ℕ := 256

/-- The receive buffer with its positions. -/
structure CdcRxBuffer where
  rxBuffer : Vector UInt8 hlRxBufferSize
  headPos : Fin hlRxBufferSize
  tailPos : Fin hlRxBufferSize

namespace CdcRxBuffer

/-- The next position. -/
def nextPos (pos : Fin hlRxBufferSize) : Fin hlRxBufferSize :=
  ⟨(pos + 1) % hlRxBufferSize, Nat.mod_lt _ (by decide)⟩

variable (b : CdcRxBuffer)

/-- `CDC_GetRxBufferBytesAvailable_FS`: the difference is one of `uint16_t`. -/
def bytesAvailable : ℕ := (b.headPos + 65536 - b.tailPos) % 65536 % hlRxBufferSize

/-- The loop of `CDC_Receive_FS`: the position behind the packet, unless the loop is left because
the packet does not fit, and the buffer. -/
def copyPacket (tailPos : Fin hlRxBufferSize) :
    List UInt8 → Vector UInt8 hlRxBufferSize → Fin hlRxBufferSize →
      Option (Fin hlRxBufferSize) × Vector UInt8 hlRxBufferSize
  | [], rxBuffer, tempHeadPos => (some tempHeadPos, rxBuffer)
  | x :: packet, rxBuffer, tempHeadPos =>
    let rxBuffer := rxBuffer.set tempHeadPos x tempHeadPos.2
    let tempHeadPos := nextPos tempHeadPos
    if tempHeadPos = tailPos then (none, rxBuffer)
    else copyPacket tailPos packet rxBuffer tempHeadPos

/-- `CDC_Receive_FS`, without making the endpoint ready: whether the packet was taken. -/
def receive (packet : List UInt8) : Bool × CdcRxBuffer :=
  let len := packet.length % 256
  match copyPacket b.tailPos (packet.take len) b.rxBuffer b.headPos with
  | (some tempHeadPos, rxBuffer) => (true, { b with rxBuffer := rxBuffer, headPos := tempHeadPos })
  | (none, rxBuffer) => (false, { b with rxBuffer := rxBuffer })

/-- The bytes in the buffer. -/
def contents : List UInt8 := (viewFrom b.rxBuffer b.tailPos).take b.bytesAvailable

/-! ### Positions -/

theorem bytesAvailable_lt : b.bytesAvailable < hlRxBufferSize := Nat.mod_lt _ (by decide)

theorem headPos_eq : (b.headPos : ℕ) = next hlRxBufferSize b.tailPos b.bytesAvailable := by
  have hhead := b.headPos.2
  have htail := b.tailPos.2
  rw [next, bytesAvailable]
  simp only [hlRxBufferSize] at *
  split_ifs <;> omega

theorem bytesAvailable_of_headPos {k : ℕ} (hk : k < hlRxBufferSize)
    (h : (b.headPos : ℕ) = next hlRxBufferSize b.tailPos k) : b.bytesAvailable = k :=
  (next_injective hk b.bytesAvailable_lt (h.symm.trans b.headPos_eq)).symm

@[simp] theorem length_contents : b.contents.length = b.bytesAvailable := by
  rw [contents, List.length_take, length_viewFrom]
  exact min_eq_left b.bytesAvailable_lt.le

theorem nextPos_eq {pos tailPos : Fin hlRxBufferSize} {k : ℕ} (hk : k < hlRxBufferSize)
    (h : (pos : ℕ) = next hlRxBufferSize tailPos k) :
    (nextPos pos : ℕ) = next hlRxBufferSize tailPos (k + 1) := by
  have hnext : (nextPos pos : ℕ) = next hlRxBufferSize pos 1 :=
    (next_eq_mod pos.2 (by decide)).symm
  rw [hnext, h, next_next tailPos.2 hk]

/-! ### Packets -/

/-- A byte that is copied behind the first bytes seen from the tail. -/
theorem take_viewFrom_set (rxBuffer : Vector UInt8 hlRxBufferSize)
    {tailPos tempHeadPos : Fin hlRxBufferSize} {k : ℕ} (hk : k < hlRxBufferSize)
    (hpos : (tempHeadPos : ℕ) = next hlRxBufferSize tailPos k) (x : UInt8) :
    (viewFrom (rxBuffer.set tempHeadPos x tempHeadPos.2) tailPos).take (k + 1) =
      (viewFrom rxBuffer tailPos).take k ++ [x] := by
  have hview : viewFrom (rxBuffer.set tempHeadPos x tempHeadPos.2) tailPos =
      (viewFrom rxBuffer tailPos).set k x := by
    rw [← viewFrom_set rxBuffer tailPos.2 hk]
    simp only [hpos]
  have hlt : k < ((viewFrom rxBuffer tailPos).set k x).length := by
    rwa [List.length_set, length_viewFrom]
  rw [hview, List.take_succ_eq_append_getElem hlt, List.getElem_set_self,
    List.take_set_of_le (le_refl k)]

/-- The position behind a byte is the tail again if the buffer is full. -/
theorem nextPos_eq_tailPos_iff {tailPos tempHeadPos : Fin hlRxBufferSize} {k : ℕ}
    (hk : k < hlRxBufferSize) (hpos : (tempHeadPos : ℕ) = next hlRxBufferSize tailPos k) :
    nextPos tempHeadPos = tailPos ↔ k + 1 = hlRxBufferSize := by
  have hpos' := nextPos_eq hk hpos
  have htail := tailPos.2
  rw [Fin.ext_iff, hpos', next]
  simp only [hlRxBufferSize] at *
  split_ifs <;> omega

/-- A packet that fits is copied behind the bytes in the buffer. -/
theorem copyPacket_of_lt {tailPos tempHeadPos : Fin hlRxBufferSize} {packet : List UInt8}
    (rxBuffer : Vector UInt8 hlRxBufferSize) {k : ℕ}
    (hpos : (tempHeadPos : ℕ) = next hlRxBufferSize tailPos k)
    (hfits : k + packet.length < hlRxBufferSize) :
    ∃ pos rxBuffer', copyPacket tailPos packet rxBuffer tempHeadPos = (some pos, rxBuffer') ∧
      (pos : ℕ) = next hlRxBufferSize tailPos (k + packet.length) ∧
      (viewFrom rxBuffer' tailPos).take (k + packet.length) =
        (viewFrom rxBuffer tailPos).take k ++ packet := by
  induction packet generalizing tempHeadPos rxBuffer k with
  | nil => exact ⟨tempHeadPos, rxBuffer, rfl, hpos, (List.append_nil _).symm⟩
  | cons x packet ih =>
    rw [List.length_cons] at hfits
    have hk : k < hlRxBufferSize := by omega
    have hne : nextPos tempHeadPos ≠ tailPos := by
      rw [Ne, nextPos_eq_tailPos_iff hk hpos]
      omega
    obtain ⟨pos, rxBuffer', hcopy, hend, hview⟩ :=
      ih (rxBuffer.set tempHeadPos x tempHeadPos.2) (nextPos_eq hk hpos) (by omega)
    have hlength : k + (x :: packet).length = k + 1 + packet.length := by
      rw [List.length_cons, Nat.add_right_comm, Nat.add_assoc]
    rw [hlength]
    refine ⟨pos, rxBuffer', ?_, hend, ?_⟩
    · simp only [copyPacket, if_neg hne, hcopy]
    · rw [hview, take_viewFrom_set rxBuffer hk hpos, List.append_assoc, List.singleton_append]

/-- A packet that does not fit leaves the bytes in the buffer as they are. -/
theorem copyPacket_of_le {tailPos tempHeadPos : Fin hlRxBufferSize} {packet : List UInt8}
    (rxBuffer : Vector UInt8 hlRxBufferSize) {k : ℕ} (hk : k < hlRxBufferSize)
    (hpos : (tempHeadPos : ℕ) = next hlRxBufferSize tailPos k)
    (hfull : hlRxBufferSize ≤ k + packet.length) :
    ∃ rxBuffer', copyPacket tailPos packet rxBuffer tempHeadPos = (none, rxBuffer') ∧
      (viewFrom rxBuffer' tailPos).take k = (viewFrom rxBuffer tailPos).take k := by
  induction packet generalizing tempHeadPos rxBuffer k with
  | nil =>
    rw [List.length_nil, Nat.add_zero] at hfull
    exact absurd hk (Nat.not_lt.mpr hfull)
  | cons x packet ih =>
    have hcopied := take_viewFrom_set rxBuffer hk hpos x
    have htake := congrArg (List.take k) hcopied
    have hlength : ((viewFrom rxBuffer tailPos).take k).length = k := by
      rw [List.length_take, length_viewFrom]
      exact min_eq_left hk.le
    rw [List.take_take, min_eq_left (Nat.le_succ k), List.take_append_of_le_length hlength.ge,
      List.take_take, min_self] at htake
    by_cases hend : nextPos tempHeadPos = tailPos
    · refine ⟨_, ?_, htake⟩
      simp only [copyPacket, if_pos hend]
    · have hlt : k + 1 < hlRxBufferSize := by
        have hne := (nextPos_eq_tailPos_iff hk hpos).not.mp hend
        omega
      obtain ⟨rxBuffer', hcopy, hview⟩ :=
        ih (rxBuffer.set tempHeadPos x tempHeadPos.2) hlt (nextPos_eq hk hpos)
          (by rw [List.length_cons] at hfull; omega)
      refine ⟨rxBuffer', by simp only [copyPacket, if_neg hend, hcopy], ?_⟩
      have hview' := congrArg (List.take k) hview
      rw [List.take_take, List.take_take, min_eq_left (Nat.le_succ k)] at hview'
      rw [hview', htake]

/-- **What the interrupt does with a packet.** It appends the packet to the bytes in the buffer if
there is room for it, and otherwise leaves them as they are. -/
theorem receive_cases {packet : List UInt8} (hlength : packet.length ≤ 64) :
    (b.bytesAvailable + packet.length < hlRxBufferSize ∧ (b.receive packet).1 = true ∧
      (b.receive packet).2.contents = b.contents ++ packet) ∨
    (hlRxBufferSize ≤ b.bytesAvailable + packet.length ∧ (b.receive packet).1 = false ∧
      (b.receive packet).2.contents = b.contents) := by
  have hlen : packet.take (packet.length % 256) = packet := by
    rw [Nat.mod_eq_of_lt (by omega), List.take_length]
  rcases Nat.lt_or_ge (b.bytesAvailable + packet.length) hlRxBufferSize with hfits | hfull
  · obtain ⟨pos, rxBuffer, hcopy, hpos, hview⟩ :=
      copyPacket_of_lt b.rxBuffer b.headPos_eq hfits
    have hreceive : b.receive packet = (true, { b with rxBuffer := rxBuffer, headPos := pos }) := by
      simp only [receive, hlen, hcopy]
    refine Or.inl ⟨hfits, by rw [hreceive], ?_⟩
    rw [hreceive, contents, bytesAvailable_of_headPos _ hfits hpos]
    exact hview
  · obtain ⟨rxBuffer, hcopy, hview⟩ :=
      copyPacket_of_le b.rxBuffer b.bytesAvailable_lt b.headPos_eq hfull
    have hreceive : b.receive packet = (false, { b with rxBuffer := rxBuffer }) := by
      simp only [receive, hlen, hcopy]
    exact Or.inr ⟨hfull, by rw [hreceive], by rw [hreceive]; exact hview⟩

/-- The byte at the tail is the first one in the buffer, and moving the tail on removes it. -/
theorem contents_of_tail {x : UInt8} {rest : List UInt8} (h : b.contents = x :: rest) :
    b.rxBuffer.get b.tailPos = x ∧
      CdcRxBuffer.contents { b with tailPos := nextPos b.tailPos } = rest := by
  have hlength : b.bytesAvailable = rest.length + 1 := by
    rw [← b.length_contents, h, List.length_cons]
  have hlt := b.bytesAvailable_lt
  have htail : (nextPos b.tailPos : ℕ) = next hlRxBufferSize b.tailPos 1 :=
    nextPos_eq (by decide) (next_zero b.tailPos.2).symm
  rw [contents, hlength] at h
  refine ⟨?_, ?_⟩
  · have hhead : (viewFrom b.rxBuffer b.tailPos)[0]? = some (b.rxBuffer.get b.tailPos) :=
      getElem?_viewFrom _ b.tailPos.2 (by decide) (next_zero b.tailPos.2).symm
    rw [← List.getElem?_take_of_lt (Nat.succ_pos rest.length), h] at hhead
    exact (Option.some.inj hhead).symm
  · have hhead : (b.headPos : ℕ) = next hlRxBufferSize (nextPos b.tailPos) rest.length := by
      rw [htail, next_next b.tailPos.2 (by omega), Nat.add_comm, ← hlength]
      exact b.headPos_eq
    have havailable : CdcRxBuffer.bytesAvailable { b with tailPos := nextPos b.tailPos } =
        rest.length := bytesAvailable_of_headPos _ (by omega) hhead
    rw [contents, havailable]
    simp only [htail, viewFrom_next b.rxBuffer b.tailPos.2 (show 1 ≤ hlRxBufferSize by decide)]
    rw [List.take_append_of_le_length, List.take_drop, Nat.add_comm 1, h, List.drop_one,
      List.tail_cons]
    rw [List.length_drop, length_viewFrom]
    omega

end CdcRxBuffer

/-! ### The endpoint and the task -/

/-- Where the task is in `usb::read` with a given size. -/
inductive UsbReader where
  | idle
  /-- Before it loads the positions, at first or after its delay. -/
  | waiting (size : ℕ)
  /-- The number of bytes to read is known. -/
  | sized (size read : ℕ)
  /-- In the loop of `CDC_ReadRxBuffer_FS`, with the bytes copied so far. -/
  | copying (size : ℕ) (data : List UInt8) (todo : ℕ)
  /-- A byte is copied and the tail is not moved yet. -/
  | copied (size : ℕ) (data : List UInt8) (x : UInt8) (todo : ℕ)
  deriving DecidableEq, Repr

/-- The bytes that the call has read so far. -/
def UsbReader.data : UsbReader → List UInt8
  | .copying _ data _ | .copied _ data _ _ => data
  | _ => []

/-- The endpoint, the buffer and the task, with what they did. -/
structure UsbReceive where
  buffer : CdcRxBuffer
  /-- The endpoint takes a packet. -/
  ready : Bool := true
  reader : UsbReader := .idle
  /-- The packets that the interrupt copied into the buffer. -/
  accepted : List (List UInt8) := []
  /-- The packets that did not fit. -/
  dropped : List (List UInt8) := []
  /-- The finished calls of `read` with a nonzero size, with the bytes in the buffer of the caller,
  unless it was not filled. -/
  reads : List (ℕ × Option (List UInt8)) := []

/-- The steps of the endpoint and the task. -/
inductive UsbAction where
  | packet (data : List UInt8)
  | read (size : ℕ)
  | readerStep
  deriving DecidableEq, Repr

namespace UsbReceive

/-- The start, after `USBD_CDC_Init` has made the endpoint ready. -/
def start (buffer : CdcRxBuffer) : UsbReceive where
  buffer := buffer

variable (s : UsbReceive)

/-- `read` returns. -/
def finish (size : ℕ) (data : Option (List UInt8)) : UsbReceive :=
  { s with reader := .idle, reads := s.reads ++ [(size, data)] }

/-- The next step of `read`. -/
def readerStep : Option UsbReceive :=
  match s.reader with
  | .idle => none
  | .waiting size =>
    let read := min s.buffer.bytesAvailable size
    some (if 0 < read then { s with reader := .sized size read } else s)
  | .sized size read =>
    -- the result of `CDC_ReadRxBuffer_FS` is not used
    some (if s.buffer.bytesAvailable < read then s.finish size none
      else { s with reader := .copying size [] read })
  | .copying size data (todo + 1) =>
    some { s with reader := .copied size data (s.buffer.rxBuffer.get s.buffer.tailPos) todo }
  | .copied size data x todo =>
    some { s with
      buffer := { s.buffer with tailPos := CdcRxBuffer.nextPos s.buffer.tailPos }
      reader := .copying size (data ++ [x]) todo }
  | .copying size data 0 => some (s.finish size (some data))

/-- The interrupt of a packet. The endpoint is made ready again if the packet was taken. -/
def receivePacket (data : List UInt8) : UsbReceive :=
  let (taken, buffer) := s.buffer.receive data
  if taken then { s with buffer := buffer, accepted := s.accepted ++ [data] }
  else { s with buffer := buffer, ready := false, dropped := s.dropped ++ [data] }

/-- The steps. Packets of the endpoint have at most 64 bytes. -/
def step (s : UsbReceive) : UsbAction → Option UsbReceive
  | .packet data => if s.ready ∧ data.length ≤ 64 then some (s.receivePacket data) else none
  | .read size =>
    if s.reader = .idle ∧ 0 < size then some { s with reader := .waiting size } else none
  | .readerStep => s.readerStep

/-- The bytes that the finished calls have read. -/
def delivered : List UInt8 := s.reads.flatMap fun r => r.2.getD []

/-- What the task knows of the bytes in the buffer. -/
def ReaderInv (contents : List UInt8) : UsbReader → Prop
  | .idle => True
  | .waiting size => 0 < size
  | .sized size read => 0 < read ∧ read ≤ size ∧ read ≤ contents.length
  | .copying size data todo =>
    0 < data.length + todo ∧ data.length + todo ≤ size ∧ todo ≤ contents.length
  | .copied size data x todo =>
    data.length + 1 + todo ≤ size ∧ ∃ rest, contents = x :: rest ∧ todo ≤ rest.length

/-- What a call of `read` may return. -/
def MayReturn (size : ℕ) (data : Option (List UInt8)) : Prop :=
  ∃ bytes, data = some bytes ∧ bytes ≠ [] ∧ bytes.length ≤ size

/-- The invariant of all runs. -/
structure Inv (s : UsbReceive) : Prop where
  conserved : s.delivered ++ s.reader.data ++ s.buffer.contents = s.accepted.flatten
  reader : ReaderInv s.buffer.contents s.reader
  reads : ∀ r ∈ s.reads, MayReturn r.1 r.2
  ready_iff : s.ready = true ↔ s.dropped = []
  dropped_le : s.dropped.length ≤ 1

variable {s} {t : UsbReceive}

theorem inv_start (buffer : CdcRxBuffer) (hempty : buffer.contents = []) :
    Inv (start buffer) where
  conserved := hempty
  reader := trivial
  reads _ h := absurd h List.not_mem_nil
  ready_iff := ⟨fun _ => rfl, fun _ => rfl⟩
  dropped_le := Nat.zero_le 1

/-- The interrupt takes a packet or drops it. -/
theorem receivePacket_cases {data : List UInt8} (hlength : data.length ≤ 64) :
    ∃ buffer,
      (s.buffer.contents.length + data.length < hlRxBufferSize ∧
        buffer.contents = s.buffer.contents ++ data ∧
        s.receivePacket data = { s with buffer := buffer, accepted := s.accepted ++ [data] }) ∨
      (hlRxBufferSize ≤ s.buffer.contents.length + data.length ∧
        buffer.contents = s.buffer.contents ∧
        s.receivePacket data =
          { s with buffer := buffer, ready := false, dropped := s.dropped ++ [data] }) := by
  rw [CdcRxBuffer.length_contents]
  refine ⟨(s.buffer.receive data).2, ?_⟩
  obtain ⟨hfits, htaken, hcontents⟩ | ⟨hfull, hnot, hcontents⟩ := s.buffer.receive_cases hlength
  · refine Or.inl ⟨hfits, hcontents, ?_⟩
    simp only [receivePacket, htaken, if_true]
  · refine Or.inr ⟨hfull, hcontents, ?_⟩
    simp only [receivePacket, hnot, Bool.false_eq_true, if_false]

/-- The task does not change which packets were accepted. -/
theorem packets_of_readerStep (hstep : s.readerStep = some t) :
    t.accepted = s.accepted ∧ t.dropped = s.dropped := by
  rw [readerStep] at hstep
  split at hstep
  · cases hstep
  · obtain rfl := Option.some.inj hstep
    split_ifs <;> exact ⟨rfl, rfl⟩
  · obtain rfl := Option.some.inj hstep
    split_ifs <;> exact ⟨rfl, rfl⟩
  all_goals
    obtain rfl := Option.some.inj hstep
    exact ⟨rfl, rfl⟩

/-- The task does not mind more bytes in the buffer. -/
theorem ReaderInv.append {contents : List UInt8} {reader : UsbReader}
    (h : ReaderInv contents reader) (more : List UInt8) : ReaderInv (contents ++ more) reader := by
  cases reader with
  | idle | waiting => exact h
  | sized size read =>
    refine ⟨h.1, h.2.1, h.2.2.trans ?_⟩
    rw [List.length_append]
    exact Nat.le_add_right ..
  | copying size data todo =>
    refine ⟨h.1, h.2.1, h.2.2.trans ?_⟩
    rw [List.length_append]
    exact Nat.le_add_right ..
  | copied size data x todo =>
    obtain ⟨hsize, rest, rfl, htodo⟩ := h
    refine ⟨hsize, rest ++ more, rfl, htodo.trans ?_⟩
    rw [List.length_append]
    exact Nat.le_add_right ..

namespace Inv

/-- The interrupt takes a packet or drops it. -/
theorem receivePacket (h : s.Inv) {data : List UInt8} (hready : s.ready = true)
    (hlength : data.length ≤ 64) : (s.receivePacket data).Inv := by
  obtain ⟨buffer, ⟨-, hcontents, heq⟩ | ⟨-, hcontents, heq⟩⟩ :=
    receivePacket_cases (s := s) hlength
  · rw [heq]
    refine ⟨?_, hcontents ▸ h.reader.append data, h.reads, h.ready_iff, h.dropped_le⟩
    rw [hcontents, List.flatten_append, List.flatten_singleton, ← h.conserved, ← List.append_assoc]
    rfl
  · rw [heq, h.ready_iff.mp hready, List.nil_append]
    exact ⟨hcontents ▸ h.conserved, hcontents ▸ h.reader, h.reads,
      iff_of_false Bool.false_ne_true (List.cons_ne_nil _ _), Nat.le_refl 1⟩

/-- A call of `read` returns. -/
theorem finish (h : s.Inv) {size : ℕ} {data : List UInt8} (hdata : s.reader.data = data)
    (hmay : MayReturn size (some data)) : (s.finish size (some data)).Inv where
  conserved := by
    have hconserved := h.conserved
    rw [hdata] at hconserved
    simp only [UsbReceive.finish, delivered, List.flatMap_append, List.flatMap_singleton,
      Option.getD_some, UsbReader.data, List.append_nil]
    exact hconserved
  reader := trivial
  reads := List.forall_mem_append.mpr ⟨h.reads, List.forall_mem_singleton.mpr hmay⟩
  ready_iff := h.ready_iff
  dropped_le := h.dropped_le

theorem readerStep (h : s.Inv) (hstep : s.readerStep = some t) : t.Inv := by
  have hreader := h.reader
  have hconserved := h.conserved
  rw [UsbReceive.readerStep] at hstep
  split at hstep
  · cases hstep
  · rename_i size hwaiting
    rw [hwaiting] at hreader hconserved
    obtain rfl := Option.some.inj hstep
    split_ifs with hread
    · refine ⟨hconserved, ⟨hread, min_le_right _ _, ?_⟩, h.reads, h.ready_iff, h.dropped_le⟩
      rw [CdcRxBuffer.length_contents]
      exact min_le_left _ _
    · exact h
  · rename_i size read hsized
    rw [hsized] at hreader hconserved
    obtain rfl := Option.some.inj hstep
    obtain ⟨hpos, hsize, hle⟩ := hreader
    rw [if_neg (by rw [← CdcRxBuffer.length_contents]; exact Nat.not_lt.mpr hle)]
    exact ⟨hconserved, ⟨by rwa [List.length_nil, Nat.zero_add], by
      rwa [List.length_nil, Nat.zero_add], hle⟩, h.reads, h.ready_iff, h.dropped_le⟩
  · rename_i size data todo hcopying
    rw [hcopying] at hreader hconserved
    obtain rfl := Option.some.inj hstep
    obtain ⟨-, hsize, htodo⟩ := hreader
    obtain ⟨x, rest, hcontents⟩ := List.exists_cons_of_length_pos (Nat.zero_lt_of_lt htodo)
    obtain ⟨hx, -⟩ := s.buffer.contents_of_tail hcontents
    refine ⟨hconserved, ⟨?_, rest, by rw [hx]; exact hcontents, ?_⟩, h.reads, h.ready_iff,
      h.dropped_le⟩
    · omega
    · rw [hcontents, List.length_cons] at htodo
      exact Nat.le_of_succ_le_succ htodo
  · rename_i size data x todo hcopied
    rw [hcopied] at hreader hconserved
    obtain rfl := Option.some.inj hstep
    obtain ⟨hsize, rest, hcontents, htodo⟩ := hreader
    obtain ⟨-, hrest⟩ := s.buffer.contents_of_tail hcontents
    refine ⟨?_, ?_, h.reads, h.ready_iff, h.dropped_le⟩
    · rw [hcontents] at hconserved
      rw [← hconserved, hrest]
      simp only [UsbReader.data, delivered, List.append_assoc, List.singleton_append]
    · rw [hrest]
      refine ⟨?_, ?_, htodo⟩
      · rw [List.length_append, List.length_singleton]
        omega
      · rwa [List.length_append, List.length_singleton]
  · rename_i size data hdone
    rw [hdone] at hreader
    obtain rfl := Option.some.inj hstep
    obtain ⟨hpos, hsize, -⟩ := hreader
    exact h.finish (by rw [hdone]; rfl)
      ⟨data, rfl, List.ne_nil_of_length_pos hpos, hsize⟩

/-- **Every step keeps the invariant.** -/
theorem step (h : s.Inv) (a : UsbAction) (hstep : s.step a = some t) : t.Inv := by
  cases a with
  | packet data =>
    rw [UsbReceive.step, Option.ite_none_right_eq_some, Option.some.injEq] at hstep
    obtain ⟨⟨hready, hlength⟩, rfl⟩ := hstep
    exact h.receivePacket hready hlength
  | read size =>
    rw [UsbReceive.step, Option.ite_none_right_eq_some, Option.some.injEq] at hstep
    obtain ⟨⟨hidle, hsize⟩, rfl⟩ := hstep
    have hconserved := h.conserved
    rw [hidle] at hconserved
    exact ⟨hconserved, hsize, h.reads, h.ready_iff, h.dropped_le⟩
  | readerStep => exact h.readerStep hstep

end Inv

/-! ### Runs -/

/-- The packet of an interrupt. -/
def packetOf : UsbAction → Option (List UInt8)
  | .packet data => some data
  | _ => none

/-- The packets that arrive are accepted, and the last one may be dropped. -/
theorem packets_step (h : s.Inv) {a : UsbAction} (hstep : s.step a = some t) :
    t.accepted ++ t.dropped = s.accepted ++ s.dropped ++ (packetOf a).toList := by
  cases a with
  | packet data =>
    rw [step, Option.ite_none_right_eq_some, Option.some.injEq] at hstep
    obtain ⟨⟨hready, hlength⟩, rfl⟩ := hstep
    obtain ⟨buffer, ⟨-, -, heq⟩ | ⟨-, -, heq⟩⟩ := receivePacket_cases (s := s) hlength
    · rw [heq, h.ready_iff.mp hready, List.append_nil, List.append_nil]
      rfl
    · rw [heq, List.append_assoc]
      rfl
  | read size =>
    rw [step, Option.ite_none_right_eq_some, Option.some.injEq] at hstep
    obtain ⟨-, rfl⟩ := hstep
    exact (List.append_nil _).symm
  | readerStep =>
    obtain ⟨haccepted, hdropped⟩ := packets_of_readerStep hstep
    rw [haccepted, hdropped]
    exact (List.append_nil _).symm

theorem inv_run {buffer : CdcRxBuffer} (hempty : buffer.contents = []) {actions : List UsbAction}
    (hrun : run step (start buffer) actions = some s) :
    s.Inv ∧ actions.filterMap packetOf = s.accepted ++ s.dropped := by
  refine invariant_history (J := fun past (s : UsbReceive) =>
    s.Inv ∧ past.filterMap packetOf = s.accepted ++ s.dropped)
    (fun past s a t hJ _ hstep => ?_)
    ⟨inv_start buffer hempty, (rfl : List.filterMap packetOf [] = _)⟩ (meets_true _ actions) hrun
  obtain ⟨h, hpast⟩ := hJ
  refine ⟨h.step a hstep, ?_⟩
  rw [packets_step h hstep, List.filterMap_append, hpast]
  cases a <;> rfl

/-- **What is received over USB.** However the interrupt and the task interleave, the bytes that the
task has read, followed by those in the buffer, are the packets that arrived up to the first one
that did not fit into the buffer. Each `read` fills the buffer of the caller with at least one byte.
A packet that does not fit is dropped as a whole, and the endpoint takes no packet after it. -/
theorem received_run {buffer : CdcRxBuffer} (hempty : buffer.contents = [])
    {actions : List UsbAction} (hrun : run step (start buffer) actions = some s) :
    s.delivered ++ s.reader.data ++ s.buffer.contents = s.accepted.flatten ∧
      (∀ r ∈ s.reads, MayReturn r.1 r.2) ∧
      actions.filterMap packetOf = s.accepted ++ s.dropped ∧ s.dropped.length ≤ 1 ∧
      (∀ packet, (s.step (.packet packet)).isSome = true → s.dropped = []) ∧
      ∀ packet t, s.step (.packet packet) = some t →
        (t.dropped = [] ↔ s.buffer.contents.length + packet.length < hlRxBufferSize) := by
  obtain ⟨h, hpackets⟩ := inv_run hempty hrun
  refine ⟨h.conserved, h.reads, hpackets, h.dropped_le, fun packet hsome => ?_,
    fun packet t hstep => ?_⟩
  · obtain ⟨t, hstep⟩ := Option.isSome_iff_exists.mp hsome
    rw [step, Option.ite_none_right_eq_some] at hstep
    exact h.ready_iff.mp hstep.1.1
  · rw [step, Option.ite_none_right_eq_some, Option.some.injEq] at hstep
    obtain ⟨⟨hready, hlength⟩, rfl⟩ := hstep
    obtain ⟨buffer, ⟨hfits, -, heq⟩ | ⟨hfull, -, heq⟩⟩ := receivePacket_cases (s := s) hlength
    · rw [heq]
      exact iff_of_true (h.ready_iff.mp hready) hfits
    · rw [heq]
      exact iff_of_false (List.append_ne_nil_of_right_ne_nil _ (List.cons_ne_nil _ _))
        (Nat.not_lt.mpr hfull)

/-- An empty buffer whose positions are close to the end of the array. -/
def emptyBuffer : CdcRxBuffer := ⟨Vector.replicate hlRxBufferSize 0, 254, 254⟩

/-- A packet arrives while the task copies the bytes of the one before it. -/
theorem received_of_two_packets :
    ∃ s, run step (start emptyBuffer) [.packet [1, 2, 3], .read 2, .readerStep, .readerStep,
        .readerStep, .packet [4], .readerStep, .readerStep, .readerStep, .readerStep] = some s ∧
      s.reads = [(2, some [1, 2])] ∧
      s.delivered ++ s.reader.data ++ s.buffer.contents = [1, 2, 3, 4] := by
  obtain ⟨s, hrun, hreads, haccepted⟩ : ∃ s, run step (start emptyBuffer) [.packet [1, 2, 3],
      .read 2, .readerStep, .readerStep, .readerStep, .packet [4], .readerStep, .readerStep,
      .readerStep, .readerStep] = some s ∧ s.reads = [(2, some [1, 2])] ∧
      s.accepted = [[1, 2, 3], [4]] := ⟨_, rfl, by decide +kernel, by decide +kernel⟩
  obtain ⟨hconserved, -⟩ := received_run (by decide +kernel) hrun
  rw [haccepted] at hconserved
  exact ⟨s, hrun, hreads, hconserved⟩

end UsbReceive

end TellerOBC
