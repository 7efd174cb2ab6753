import TellerOBC.Foundations.CircularBuffer

/-!
# The ring buffer

The ring buffer of `lib/lwrb`: an array with a position to read from and a position to write to.
The buffer is empty if the positions are equal, so that one byte of the array always stays unused.

The accesses to the array are checked. No sequence of calls leaves the array, and what it returns
is what a first-in first-out queue for one byte less than the array returns.

The sums of positions and lengths below stay under twice the size of the array, which is to fit in
`lwrb_sz_t`; the array of a UART has 256 bytes, far from where `lwrb_sz_t` would wrap around.

## Main definitions

* `TellerOBC.Lwrb`: a ring buffer, with its functions under the names of the source.
* `TellerOBC.Lwrb.bytes`: the bytes in a ring buffer.
* `TellerOBC.LwrbCall`, `TellerOBC.Lwrb.exec`: sequences of calls.
* `TellerOBC.Fifo.exec`: the same calls to a queue.

## Main results

* `TellerOBC.Lwrb.exec_refines`: the ring buffer is a queue.
-/

namespace TellerOBC

open CheckedMemory CircularBuffer

/-- A ring buffer of `lwrb` over an array of the given size. -/
structure Lwrb (size : ℕ) where
  buff : Vector UInt8 size
  rPtr : ℕ
  wPtr : ℕ
  rPtr_lt : rPtr < size
  wPtr_lt : wPtr < size

namespace Lwrb

variable {size : ℕ}

/-- `lwrb_init`. -/
def init (buffdata : Vector UInt8 size) (hsize : 0 < size) : Lwrb size where
  buff := buffdata
  rPtr := 0
  wPtr := 0
  rPtr_lt := hsize
  wPtr_lt := hsize

theorem size_pos (b : Lwrb size) : 0 < size := (Nat.zero_le _).trans_lt b.rPtr_lt

variable (b : Lwrb size)

/-- What `lwrb_get_free` computes from the positions that it has loaded. -/
def freeBetween (size wPtr rPtr : ℕ) : ℕ :=
  (if rPtr ≤ wPtr then size - (wPtr - rPtr) else rPtr - wPtr) - 1

/-- What `lwrb_get_full` computes from the positions that it has loaded. -/
def fullBetween (size wPtr rPtr : ℕ) : ℕ :=
  if rPtr ≤ wPtr then wPtr - rPtr else size - (rPtr - wPtr)

/-- `lwrb_get_free`. -/
def getFree : ℕ := freeBetween size b.wPtr b.rPtr

/-- `lwrb_get_full`. -/
def getFull : ℕ := fullBetween size b.wPtr b.rPtr

/-- Where the two copies of `lwrb_write_ex` and `lwrb_read_ex` leave a position. -/
def copiedPtr (size ptr count : ℕ) : ℕ :=
  let tocopy := min (size - ptr) count
  let ptr := if 0 < count - tocopy then count - tocopy else ptr + tocopy
  -- Step 3: Check end of buffer
  if size ≤ ptr then 0 else ptr

theorem copiedPtr_lt {size : ℕ} (ptr count : ℕ) (hsize : 0 < size) :
    copiedPtr size ptr count < size := by
  simp only [copiedPtr]
  split_ifs <;> omega

/-- `lwrb_write_ex`: the number of bytes written, unless the call is refused. -/
def writeEx (data : List UInt8) (writeAll : Bool) : Except Fault (Option ℕ × Lwrb size) :=
  if data.length = 0 then .ok (none, b)
  else
    let free := b.getFree
    if free = 0 ∨ free < data.length ∧ writeAll = true then .ok (none, b)
    else do
      let btw := min free data.length
      let buff ← copyIn b.buff b.wPtr data btw
      return (some btw, { b with
        buff := buff
        wPtr := copiedPtr size b.wPtr btw
        wPtr_lt := copiedPtr_lt _ _ b.size_pos })

/-- `lwrb_write`. -/
def write (data : List UInt8) : Except Fault (ℕ × Lwrb size) := do
  let (written, b) ← b.writeEx data false
  return (written.getD 0, b)

/-- `lwrb_read_ex`: the bytes read, unless the call is refused. -/
def readEx (btr : ℕ) (readAll : Bool) : Except Fault (Option (List UInt8) × Lwrb size) :=
  if btr = 0 then .ok (none, b)
  else
    let full := b.getFull
    if full = 0 ∨ full < btr ∧ readAll = true then .ok (none, b)
    else do
      let btr := min full btr
      let data ← copyOut b.buff b.rPtr btr
      return (some data, { b with
        rPtr := copiedPtr size b.rPtr btr
        rPtr_lt := copiedPtr_lt _ _ b.size_pos })

/-- `lwrb_read`. -/
def read (btr : ℕ) : Except Fault (List UInt8 × Lwrb size) := do
  let (data, b) ← b.readEx btr false
  return (data.getD [], b)

/-- `lwrb_peek`. -/
def peek (skipCount btp : ℕ) : Except Fault (List UInt8) :=
  if btp = 0 then .ok []
  else
    let full := b.getFull
    if full ≤ skipCount then .ok []
    else
      let rPtr := next size b.rPtr skipCount
      let btp := min (full - skipCount) btp
      if btp = 0 then .ok [] else copyOut b.buff rPtr btp

/-- `lwrb_reset`. -/
def reset : Lwrb size := init b.buff b.size_pos

theorem getFree_le : b.getFree ≤ size := by
  have := b.rPtr_lt
  rw [getFree, freeBetween]
  split_ifs <;> omega

theorem getFull_lt : b.getFull < size := by
  have := b.rPtr_lt
  have := b.wPtr_lt
  rw [getFull, fullBetween]
  split_ifs <;> omega

/-- `lwrb_skip`. -/
def skip (len : ℕ) : ℕ × Lwrb size :=
  if len = 0 then (0, b)
  else
    (min len b.getFull, { b with
      rPtr := next size b.rPtr (min len b.getFull)
      rPtr_lt := next_lt b.rPtr_lt ((min_le_right ..).trans b.getFull_lt.le) })

/-- `lwrb_advance`. -/
def advance (len : ℕ) : ℕ × Lwrb size :=
  if len = 0 then (0, b)
  else
    (min len b.getFree, { b with
      wPtr := next size b.wPtr (min len b.getFree)
      wPtr_lt := next_lt b.wPtr_lt ((min_le_right ..).trans b.getFree_le) })

/-- `lwrb_get_linear_block_read_length`. The block starts at the position to read from. -/
def getLinearBlockReadLength : ℕ :=
  if b.rPtr < b.wPtr then b.wPtr - b.rPtr
  else if b.wPtr < b.rPtr then size - b.rPtr
  else 0

/-- `lwrb_get_linear_block_write_length`. The block starts at the position to write to. -/
def getLinearBlockWriteLength : ℕ :=
  if b.rPtr ≤ b.wPtr then
    -- a full last block would leave the positions equal
    if b.rPtr = 0 then size - b.wPtr - 1 else size - b.wPtr
  else b.rPtr - b.wPtr - 1

/-- A transfer by hardware to the linear block, of at most its length, after which the application
advances the position. -/
def writeBlock (data : List UInt8) : Except Fault (ℕ × Lwrb size) := do
  verify (data.length ≤ b.getLinearBlockWriteLength)
  let buff ← writeRange b.buff b.wPtr data
  return advance { b with buff := buff } data.length

/-- A transfer by hardware from the linear block, of at most its length, after which the application
skips the bytes. -/
def readBlock (len : ℕ) : Except Fault (List UInt8 × Lwrb size) := do
  verify (len ≤ b.getLinearBlockReadLength)
  let data ← readRange b.buff.toList b.rPtr len
  return (data, (b.skip len).2)

/-! ### The bytes in the buffer -/

/-- The bytes in the buffer, the next one to read first. -/
def bytes : List UInt8 := (viewFrom b.buff b.rPtr).take b.getFull

/-- The rest of the array, from the position to write to. -/
def unused : List UInt8 := (viewFrom b.buff b.rPtr).drop b.getFull

theorem viewFrom_rPtr : viewFrom b.buff b.rPtr = b.bytes ++ b.unused :=
  (List.take_append_drop ..).symm

@[simp] theorem length_bytes : b.bytes.length = b.getFull := by
  rw [bytes, List.length_take, length_viewFrom, min_eq_left b.getFull_lt.le]

theorem next_getFull : next size b.rPtr b.getFull = b.wPtr := by
  have := b.rPtr_lt
  have := b.wPtr_lt
  rw [next, getFull, fullBetween]
  split_ifs <;> omega

theorem getFree_eq : b.getFree = size - 1 - b.getFull := by
  have := b.rPtr_lt
  have := b.wPtr_lt
  rw [getFree, getFull, freeBetween, fullBetween]
  split_ifs <;> omega

theorem viewFrom_wPtr : viewFrom b.buff b.wPtr = b.unused ++ b.bytes := by
  rw [← b.next_getFull, ← b.length_bytes]
  exact viewFrom_next_of_eq_append b.buff b.rPtr_lt b.viewFrom_rPtr

/-- What the bytes are is seen from the start of the view and the position to write to. -/
theorem bytes_eq {l m : List UInt8} (hview : viewFrom b.buff b.rPtr = l ++ m)
    (hlt : l.length < size) (hnext : next size b.rPtr l.length = b.wPtr) : b.bytes = l := by
  have hfull : b.getFull = l.length :=
    next_injective b.getFull_lt hlt (b.next_getFull.trans hnext.symm)
  rw [bytes, hview, hfull, List.take_left]

/-- The two copies move a position like one step around the array. -/
theorem copiedPtr_eq {ptr count : ℕ} (hptr : ptr < size) (hcount : count ≤ size) :
    copiedPtr size ptr count = next size ptr count := by
  simp only [copiedPtr, next]
  split_ifs <;> omega

/-! ### What the calls do to the bytes -/

/-- Bytes that arrive behind those in the buffer. -/
theorem bytes_of_written {b' : Lwrb size} {data : List UInt8} (hfits : data.length ≤ b.getFree)
    (hrPtr : b'.rPtr = b.rPtr) (hwPtr : b'.wPtr = next size b.wPtr data.length)
    (hview : viewFrom b'.buff b.wPtr = data ++ (viewFrom b.buff b.wPtr).drop data.length) :
    b'.bytes = b.bytes ++ data := by
  have hfull := b.getFull_lt
  have hfree := b.getFree_eq
  have hunused : b.unused.length = size - b.getFull := by
    rw [unused, List.length_drop, length_viewFrom]
  have hmoved : next size b.rPtr (b.bytes ++ data).length = b'.wPtr := by
    rw [hwPtr, ← b.next_getFull, next_next b.rPtr_lt (by omega), List.length_append, length_bytes]
  rw [viewFrom_wPtr, List.drop_append_of_le_length (by omega), ← List.append_assoc,
    ← b.next_getFull, ← b.length_bytes] at hview
  have hview' := viewFrom_of_next_eq_append b'.buff b.rPtr_lt (by
    rw [List.length_append, List.length_drop, length_bytes, hunused]
    omega) hview
  rw [← List.append_assoc, ← hrPtr] at hview'
  refine bytes_eq b' hview' ?_ (by rw [hrPtr, hmoved])
  rw [List.length_append, length_bytes]
  omega

/-- Bytes that leave the front of the buffer. -/
theorem bytes_of_read {b' : Lwrb size} {count : ℕ} (hcount : count ≤ b.getFull)
    (hbuff : b'.buff = b.buff) (hwPtr : b'.wPtr = b.wPtr)
    (hrPtr : b'.rPtr = next size b.rPtr count) : b'.bytes = b.bytes.drop count := by
  have hfull := b.getFull_lt
  have hlength : (b.bytes.drop count).length = b.getFull - count := by
    rw [List.length_drop, length_bytes]
  have hview : viewFrom b'.buff b'.rPtr =
      b.bytes.drop count ++ (b.unused ++ b.bytes.take count) := by
    rw [hbuff, hrPtr, viewFrom_next _ b.rPtr_lt (by omega), viewFrom_rPtr,
      List.drop_append_of_le_length (by rwa [length_bytes]),
      List.take_append_of_le_length (by rwa [length_bytes]), List.append_assoc]
  refine bytes_eq b' hview (by omega) ?_
  rw [hlength, hrPtr, next_next b.rPtr_lt (by omega), hwPtr, Nat.add_sub_cancel' hcount,
    next_getFull]

theorem writeEx_of_refused {data : List UInt8} {writeAll : Bool}
    (h : data.length = 0 ∨ b.getFree = 0 ∨ b.getFree < data.length ∧ writeAll = true) :
    b.writeEx data writeAll = .ok (none, b) := by
  rw [writeEx]
  rcases h with hdata | hfull
  · rw [if_pos hdata]
  · simp only [if_pos hfull, ite_self]

theorem readEx_of_refused {btr : ℕ} {readAll : Bool}
    (h : btr = 0 ∨ b.getFull = 0 ∨ b.getFull < btr ∧ readAll = true) :
    b.readEx btr readAll = .ok (none, b) := by
  rw [readEx]
  rcases h with hbtr | hempty
  · rw [if_pos hbtr]
  · simp only [if_pos hempty, ite_self]

/-- `lwrb_write_ex` appends what fits. -/
theorem writeEx_spec {data : List UInt8} {writeAll : Bool} (hdata : data.length ≠ 0)
    (hfree : ¬(b.getFree = 0 ∨ b.getFree < data.length ∧ writeAll = true)) :
    ∃ b', b.writeEx data writeAll = .ok (some (min b.getFree data.length), b') ∧
      b'.bytes = b.bytes ++ data.take b.getFree := by
  have hsize := b.getFree_le
  obtain ⟨buff, hcopy, hview⟩ := exists_copyIn b.buff b.wPtr_lt
    (min_le_right b.getFree data.length) (by omega)
  have htake : data.take (min b.getFree data.length) = data.take b.getFree := by
    rw [← List.take_take, List.take_of_length_le le_rfl]
  have hlength : (data.take b.getFree).length = min b.getFree data.length := List.length_take
  rw [writeEx, if_neg hdata]
  simp only [if_neg hfree, hcopy, bind, Except.bind]
  refine ⟨_, rfl, bytes_of_written b (hlength ▸ min_le_left ..) rfl ?_ ?_⟩
  · rw [hlength]
    exact copiedPtr_eq b.wPtr_lt (by omega)
  · rw [hlength, ← htake]
    exact hview

theorem take_viewFrom_rPtr (count : ℕ) :
    (viewFrom b.buff b.rPtr).take (min b.getFull count) = b.bytes.take count := by
  rw [bytes, List.take_take, min_comm]

theorem drop_bytes (count : ℕ) : b.bytes.drop (min b.getFull count) = b.bytes.drop count := by
  rcases Nat.le_total b.getFull count with hle | hle
  · rw [min_eq_left hle, List.drop_eq_nil_of_le (b.length_bytes.le.trans hle),
      List.drop_eq_nil_of_le b.length_bytes.le]
  · rw [min_eq_right hle]

/-- `lwrb_read_ex` takes what is there. -/
theorem readEx_spec {btr : ℕ} {readAll : Bool} (hbtr : btr ≠ 0)
    (hfull : ¬(b.getFull = 0 ∨ b.getFull < btr ∧ readAll = true)) :
    ∃ b', b.readEx btr readAll = .ok (some (b.bytes.take btr), b') ∧
      b'.bytes = b.bytes.drop btr := by
  have hsize := b.getFull_lt
  have hcopy := copyOut_eq b.buff b.rPtr_lt (min b.getFull btr) (by omega)
  rw [take_viewFrom_rPtr] at hcopy
  rw [readEx, if_neg hbtr]
  simp only [if_neg hfull, hcopy, bind, Except.bind]
  refine ⟨_, rfl, ?_⟩
  rw [← drop_bytes]
  exact bytes_of_read b (min_le_left ..) rfl rfl (copiedPtr_eq b.rPtr_lt (by omega))

/-- `lwrb_peek` shows what `lwrb_read` would return after a skip. -/
theorem peek_eq (skipCount btp : ℕ) :
    b.peek skipCount btp = .ok ((b.bytes.drop skipCount).take btp) := by
  have hfull := b.getFull_lt
  rw [peek]
  split_ifs with hbtp
  · rw [hbtp, List.take_zero]
  dsimp only
  split_ifs with hle hzero
  · rw [List.drop_eq_nil_of_le (b.length_bytes.le.trans hle), List.take_nil]
  · omega
  · have hview : (viewFrom b.buff (next size b.rPtr skipCount)).take (b.getFull - skipCount) =
        b.bytes.drop skipCount := by
      rw [viewFrom_next _ b.rPtr_lt (by omega), viewFrom_rPtr,
        List.drop_append_of_le_length (by rw [length_bytes]; omega), List.append_assoc]
      exact List.take_left' (by rw [List.length_drop, length_bytes])
    rw [copyOut_eq _ (next_lt b.rPtr_lt (by omega)) _ (by omega), ← hview, List.take_take, min_comm]

theorem skip_fields (len : ℕ) : (b.skip len).1 = min len b.getFull ∧
    (b.skip len).2.buff = b.buff ∧ (b.skip len).2.wPtr = b.wPtr ∧
    (b.skip len).2.rPtr = next size b.rPtr (min len b.getFull) := by
  rw [skip]
  split_ifs with hlen
  · rw [hlen, Nat.zero_min, next_zero b.rPtr_lt]
    exact ⟨rfl, rfl, rfl, rfl⟩
  · exact ⟨rfl, rfl, rfl, rfl⟩

theorem advance_fields (len : ℕ) : (b.advance len).1 = min len b.getFree ∧
    (b.advance len).2.buff = b.buff ∧ (b.advance len).2.rPtr = b.rPtr ∧
    (b.advance len).2.wPtr = next size b.wPtr (min len b.getFree) := by
  rw [advance]
  split_ifs with hlen
  · rw [hlen, Nat.zero_min, next_zero b.wPtr_lt]
    exact ⟨rfl, rfl, rfl, rfl⟩
  · exact ⟨rfl, rfl, rfl, rfl⟩

/-- `lwrb_skip` drops bytes. -/
theorem bytes_skip (len : ℕ) : (b.skip len).2.bytes = b.bytes.drop len := by
  obtain ⟨-, hbuff, hwPtr, hrPtr⟩ := b.skip_fields len
  rw [← drop_bytes, min_comm]
  exact bytes_of_read b (min_le_right ..) hbuff hwPtr hrPtr

theorem bytes_reset : b.reset.bytes = [] :=
  bytes_eq b.reset (m := viewFrom b.buff 0) rfl b.size_pos (next_zero b.size_pos)

/-- The linear block to write to is unused memory within the array. -/
theorem getLinearBlockWriteLength_le : b.getLinearBlockWriteLength ≤ b.getFree ∧
    b.wPtr + b.getLinearBlockWriteLength ≤ size := by
  have := b.rPtr_lt
  have := b.wPtr_lt
  rw [getLinearBlockWriteLength, getFree, freeBetween]
  split_ifs <;> omega

/-- The linear block to read from has bytes of the buffer. -/
theorem getLinearBlockReadLength_le : b.getLinearBlockReadLength ≤ b.getFull ∧
    b.rPtr + b.getLinearBlockReadLength ≤ size := by
  have := b.rPtr_lt
  have := b.wPtr_lt
  rw [getLinearBlockReadLength, getFull, fullBetween]
  split_ifs <;> omega

/-- A transfer to the linear block appends its bytes. -/
theorem writeBlock_spec {data : List UInt8} (h : data.length ≤ b.getLinearBlockWriteLength) :
    ∃ b', b.writeBlock data = .ok (data.length, b') ∧ b'.bytes = b.bytes ++ data := by
  obtain ⟨hfree, hlinear⟩ := b.getLinearBlockWriteLength_le
  obtain ⟨buff, hwrite, hview⟩ :=
    exists_writeRange_viewFrom b.buff b.wPtr_lt data (by omega)
  obtain ⟨hcount, hbuff, hrPtr, hwPtr⟩ := advance_fields { b with buff := buff } data.length
  have hmin : min data.length (getFree { b with buff := buff }) = data.length :=
    min_eq_left (h.trans hfree)
  rw [hmin] at hcount hwPtr
  refine ⟨(advance { b with buff := buff } data.length).2, ?_, ?_⟩
  · simp only [writeBlock, verify, if_pos h, hwrite, bind, Except.bind]
    exact congrArg Except.ok (Prod.ext hcount rfl)
  · exact bytes_of_written b (h.trans hfree) hrPtr hwPtr (by rwa [hbuff])

/-- A transfer from the linear block takes its bytes off the buffer. -/
theorem readBlock_spec {len : ℕ} (h : len ≤ b.getLinearBlockReadLength) :
    ∃ b', b.readBlock len = .ok (b.bytes.take len, b') ∧ b'.bytes = b.bytes.drop len := by
  obtain ⟨hfull, hlinear⟩ := b.getLinearBlockReadLength_le
  have hrange : (b.buff.toList.drop b.rPtr).take len = b.bytes.take len := by
    rw [← take_viewFrom_rPtr, min_eq_right (h.trans hfull), viewFrom_of_lt _ b.rPtr_lt,
      List.take_append_of_le_length]
    rw [List.length_drop, Vector.length_toList]
    omega
  simp only [readBlock, verify, if_pos h, bind, Except.bind,
    readRange_of_le (show b.rPtr + len ≤ b.buff.toList.length by rw [Vector.length_toList]; omega),
    hrange]
  exact ⟨_, rfl, b.bytes_skip len⟩

end Lwrb

/-! ### Sequences of calls -/

/-- A call to a ring buffer, or a transfer by hardware. -/
inductive LwrbCall where
  | writeEx (data : List UInt8) (writeAll : Bool)
  | readEx (btr : ℕ) (readAll : Bool)
  | peek (skipCount btp : ℕ)
  | skip (len : ℕ)
  | writeBlock (data : List UInt8)
  | readBlock (len : ℕ)
  | reset
  | getFree
  | getFull
  deriving DecidableEq, Repr

/-- What a call returns: whether it was accepted, a number of bytes, and bytes. -/
structure LwrbReply where
  accepted : Bool := true
  count : ℕ := 0
  data : List UInt8 := []
  deriving DecidableEq, Repr

namespace Lwrb

variable {size : ℕ} (b : Lwrb size)

/-- One call. -/
def call : LwrbCall → Except Fault (LwrbReply × Lwrb size)
  | .writeEx data writeAll => do
    let (written, b) ← b.writeEx data writeAll
    return (match written with
      | some count => { count := count }
      | none => { accepted := false }, b)
  | .readEx btr readAll => do
    let (data, b) ← b.readEx btr readAll
    return (match data with
      | some data => { count := data.length, data := data }
      | none => { accepted := false }, b)
  | .peek skipCount btp => do
    let data ← b.peek skipCount btp
    return ({ count := data.length, data := data }, b)
  | .skip len => .ok ({ count := (b.skip len).1 }, (b.skip len).2)
  | .writeBlock data => do
    let (count, b) ← b.writeBlock data
    return ({ count := count }, b)
  | .readBlock len => do
    let (data, b) ← b.readBlock len
    return ({ count := data.length, data := data }, b)
  | .reset => .ok ({}, b.reset)
  | .getFree => .ok ({ count := b.getFree }, b)
  | .getFull => .ok ({ count := b.getFull }, b)

/-- Calls one after the other. -/
def exec (b : Lwrb size) : List LwrbCall → Except Fault (List LwrbReply × Lwrb size)
  | [] => .ok ([], b)
  | c :: calls => do
    let (reply, b) ← b.call c
    let (replies, b) ← b.exec calls
    return (reply :: replies, b)

end Lwrb

namespace Fifo

/-- A call to a first-in first-out queue with room for the given number of bytes. -/
def call (capacity : ℕ) (bytes : List UInt8) : LwrbCall → LwrbReply × List UInt8
  | .writeEx data writeAll =>
    let free := capacity - bytes.length
    if data = [] ∨ free = 0 ∨ free < data.length ∧ writeAll = true then
      ({ accepted := false }, bytes)
    else ({ count := min free data.length }, bytes ++ data.take free)
  | .readEx btr readAll =>
    if btr = 0 ∨ bytes = [] ∨ bytes.length < btr ∧ readAll = true then
      ({ accepted := false }, bytes)
    else ({ count := min btr bytes.length, data := bytes.take btr }, bytes.drop btr)
  | .peek skipCount btp =>
    ({ count := min btp (bytes.length - skipCount)
       data := (bytes.drop skipCount).take btp }, bytes)
  | .skip len => ({ count := min len bytes.length }, bytes.drop len)
  | .writeBlock data => ({ count := data.length }, bytes ++ data)
  | .readBlock len => ({ count := min len bytes.length, data := bytes.take len }, bytes.drop len)
  | .reset => ({}, [])
  | .getFree => ({ count := capacity - bytes.length }, bytes)
  | .getFull => ({ count := bytes.length }, bytes)

/-- Calls one after the other. -/
def exec (capacity : ℕ) (bytes : List UInt8) : List LwrbCall → List LwrbReply × List UInt8
  | [] => ([], bytes)
  | c :: calls =>
    let r := call capacity bytes c
    let rest := exec capacity r.2 calls
    (r.1 :: rest.1, rest.2)

end Fifo

namespace Lwrb

variable {size : ℕ} (b : Lwrb size)

/-- A hardware transfer fits in the linear block that it is given. -/
def TransferFits (b : Lwrb size) : LwrbCall → Prop
  | .writeBlock data => data.length ≤ b.getLinearBlockWriteLength
  | .readBlock len => len ≤ b.getLinearBlockReadLength
  | _ => True

/-- A call does to the ring buffer what it does to a queue. -/
theorem call_refines {c : LwrbCall} (h : b.TransferFits c) :
    ∃ b', b.call c = .ok ((Fifo.call (size - 1) b.bytes c).1, b') ∧
      b'.bytes = (Fifo.call (size - 1) b.bytes c).2 := by
  have hfree : size - 1 - b.bytes.length = b.getFree := by rw [length_bytes, getFree_eq]
  cases c with
  | writeEx data writeAll =>
    simp only [Fifo.call, hfree, ← List.length_eq_zero_iff]
    by_cases hrefused : data.length = 0 ∨ b.getFree = 0 ∨ b.getFree < data.length ∧ writeAll = true
    · rw [if_pos hrefused]
      refine ⟨b, ?_, rfl⟩
      rw [call, b.writeEx_of_refused hrefused]
      rfl
    · rw [if_neg hrefused]
      obtain ⟨hdata, hfits⟩ := not_or.mp hrefused
      obtain ⟨b', hwrite, hbytes⟩ := b.writeEx_spec hdata hfits
      refine ⟨b', ?_, hbytes⟩
      rw [call, hwrite]
      rfl
  | readEx btr readAll =>
    simp only [Fifo.call, ← List.length_eq_zero_iff, length_bytes]
    by_cases hrefused : btr = 0 ∨ b.getFull = 0 ∨ b.getFull < btr ∧ readAll = true
    · rw [if_pos hrefused]
      refine ⟨b, ?_, rfl⟩
      rw [call, b.readEx_of_refused hrefused]
      rfl
    · rw [if_neg hrefused]
      obtain ⟨hbtr, hthere⟩ := not_or.mp hrefused
      obtain ⟨b', hread, hbytes⟩ := b.readEx_spec hbtr hthere
      refine ⟨b', ?_, hbytes⟩
      rw [call, hread, ← b.length_bytes, ← List.length_take]
      rfl
  | peek skipCount btp =>
    refine ⟨b, ?_, rfl⟩
    rw [call, peek_eq, Fifo.call, ← List.length_drop, ← List.length_take]
    rfl
  | skip len =>
    refine ⟨(b.skip len).2, ?_, b.bytes_skip len⟩
    rw [call, (b.skip_fields len).1, Fifo.call, length_bytes]
  | writeBlock data =>
    obtain ⟨b', hwrite, hbytes⟩ := b.writeBlock_spec h
    refine ⟨b', ?_, hbytes⟩
    rw [call, hwrite]
    rfl
  | readBlock len =>
    obtain ⟨b', hread, hbytes⟩ := b.readBlock_spec h
    refine ⟨b', ?_, hbytes⟩
    rw [call, hread, Fifo.call, ← List.length_take]
    rfl
  | reset => exact ⟨b.reset, rfl, b.bytes_reset⟩
  | getFree => exact ⟨b, by rw [call, Fifo.call, hfree], rfl⟩
  | getFull => exact ⟨b, by rw [call, Fifo.call, length_bytes], rfl⟩

/-- A hardware transfer that does not fit in its block is the fault of the application. -/
theorem call_of_not_transferFits {c : LwrbCall} (h : ¬b.TransferFits c) :
    b.call c = .error .assertion := by
  cases c with
  | writeBlock data =>
    rw [TransferFits] at h
    rw [call, writeBlock, verify, if_neg h]
    rfl
  | readBlock len =>
    rw [TransferFits] at h
    rw [call, readBlock, verify, if_neg h]
    rfl
  | _ => exact absurd trivial h

/-- **The ring buffer is a queue.** Any sequence of calls to a ring buffer over an array, whose size
is any whose double fits in `lwrb_sz_t`, returns what a first-in first-out queue for one byte less
returns, and leaves the bytes of the queue in the buffer, without an access outside of the array.
The one exception is an application that starts a hardware transfer longer than the linear block
that it was given. -/
theorem exec_refines (calls : List LwrbCall) :
    (∃ replies b', b.exec calls = .ok (replies, b') ∧
        Fifo.exec (size - 1) b.bytes calls = (replies, b'.bytes)) ∨
      ∃ earlier c later replies b', calls = earlier ++ c :: later ∧
        b.exec earlier = .ok (replies, b') ∧ ¬b'.TransferFits c ∧
        b.exec calls = .error .assertion := by
  induction calls generalizing b with
  | nil => exact Or.inl ⟨[], b, rfl, rfl⟩
  | cons c calls ih =>
    by_cases hfits : b.TransferFits c
    · obtain ⟨b', hcall, hbytes⟩ := b.call_refines hfits
      rcases ih b' with ⟨replies, b'', hexec, hfifo⟩ |
        ⟨earlier, c', later, replies, b'', rfl, hearlier, hnot, hexec⟩
      · refine Or.inl ⟨(Fifo.call (size - 1) b.bytes c).1 :: replies, b'', ?_, ?_⟩
        · simp only [exec, hcall, hexec, bind, Except.bind]
          rfl
        · rw [Fifo.exec, ← hbytes, hfifo]
      · refine Or.inr ⟨c :: earlier, c', later, (Fifo.call (size - 1) b.bytes c).1 :: replies, b'',
          rfl, ?_, hnot, ?_⟩
        · simp only [exec, hcall, hearlier, bind, Except.bind]
          rfl
        · simp only [exec, hcall, hexec, bind, Except.bind]
    · refine Or.inr ⟨[], c, calls, [], b, rfl, rfl, hfits, ?_⟩
      simp only [exec, b.call_of_not_transferFits hfits, bind, Except.bind]

end Lwrb

end TellerOBC
