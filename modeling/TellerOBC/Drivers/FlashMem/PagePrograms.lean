import TellerOBC.Drivers.Detection
import TellerOBC.Foundations.Placement

/-!
# The page programs of a write

`flashmem_write` programs the bytes of littlefs page by page. A chip takes everything that it is
sent between two moves of the chip select line as one command. The command to program a page has an
address of three bytes or, in the mode for large chips, of four bytes, and the bytes for the page
after it; an address beyond the end of the page would go on at its beginning.

## Main definitions

* `TellerOBC.FlashMem.flashmemWrite`.
* `TellerOBC.FlashMem.pagePrograms`: the page programs that a chip gets, as it understands them.

## Main results

* `TellerOBC.FlashMem.pagePrograms_flashmemWrite`: they are in one page each, and have each byte of
  the caller once, at its address.
-/

namespace TellerOBC.FlashMem

open CutOff Observation Placement

/-- `PAGE_SIZE`. -/
def pageSize : ℕ := 256

/-- The page programs that a write should make: the bytes page by page, from an address on. -/
def planned (address : ℕ) (buffer : List UInt8) : List (Piece UInt8) :=
  placed address (Transfer.pieces (pageSize - 1) buffer)

section

variable (passes : ℕ) (cfg : Config)

/-- The loop of `flashmem_write`, from an address on. -/
def writePages (dummyRxBuf : List UInt8) (address : UInt32) (buffer : List UInt8) : Driver Bool :=
  if _h : buffer = [] then pure true
  else do
    let toWrite := if buffer.length > pageSize then pageSize else buffer.length
    let r ← programFromBuffer passes cfg address (buffer.take toWrite) dummyRxBuf
    if !r.1 then pure false
    else writePages dummyRxBuf (address + UInt32.ofNat toWrite) (buffer.drop toWrite)
termination_by buffer.length
decreasing_by
  have hpos := List.length_pos_of_ne_nil _h
  rw [List.length_drop, pageSize]
  split <;> omega

/-- `flashmem_write`: whether it returns that there was no error. -/
def flashmemWrite (sector off : UInt32) (buffer dummyRxBuf : List UInt8) : Driver Bool :=
  writePages passes cfg dummyRxBuf (sectorToAddress sector off) buffer

end

/-! ### What the chip gets -/

/-- The bytes that are sent during each selection, where some were sent in this one already. -/
def selections : List UInt8 → List SpiEvent → List (List UInt8)
  | _, [] => []
  | _, ⟨.chipSelect true, _⟩ :: es => selections [] es
  | sent, ⟨.chipSelect false, _⟩ :: es => sent :: selections [] es
  | sent, ⟨.exchange txBuf, _⟩ :: es => selections (sent ++ txBuf) es
  | sent, ⟨.getTimeSinceBootMsec, _⟩ :: es => selections sent es
  | sent, ⟨.delayMsec _, _⟩ :: es => selections sent es

/-- The number of bytes of an address for the chip. -/
def Config.addressSize (cfg : Config) : ℕ := if cfg.blockCount ≥ 512 then 4 else 3

/-- The address that bytes in big endian order spell. -/
def addressOf (bytes : List UInt8) : ℕ :=
  bytes.foldl (fun address byte => address * 256 + byte.toNat) 0

/-- The page program that the chip sees in the bytes of a selection, if it is one. -/
def Config.decodePageProgram (cfg : Config) : List UInt8 → Option (Piece UInt8)
  | [] => none
  | cmd :: bytes =>
    if cmd = cmdPageProgram then
      some ⟨addressOf (bytes.take cfg.addressSize), bytes.drop cfg.addressSize⟩
    else none

/-- The page programs that the chip gets. -/
def pagePrograms (cfg : Config) (es : List SpiEvent) : List (Piece UInt8) :=
  (selections [] es).filterMap cfg.decodePageProgram

/-- A page program that is in one page. -/
def InPage (p : Piece UInt8) : Prop := p.address % pageSize + p.elements.length ≤ pageSize

/-- The bytes that page programs write, with their addresses, in their order. -/
def programmed (ps : List (Piece UInt8)) : List (UInt8 × ℕ) :=
  ps.flatMap fun p => p.elements.zipIdx p.address

/-- The planned page programs write each byte once, at its address. -/
theorem programmed_planned (address : ℕ) (buffer : List UInt8) :
    programmed (planned address buffer) = buffer.zipIdx address := by
  rw [programmed, planned, flatMap_zipIdx_placed, Transfer.flatten_pieces]

/-- The chip does not enable writing: it has got the command to do so, but its status register,
which is read next, says that writing is not enabled. -/
def RefusesWriting (es : List SpiEvent) : Prop :=
  ∃ enable status, [⟨.exchange [cmdWriteEnable], enable⟩, ⟨.chipSelect false, ()⟩,
      ⟨.chipSelect true, ()⟩, ⟨.exchange [cmdReadStatusRegister1, 0], status⟩] <:+: es ∧
    status.received.getD 1 0 &&& 0x02 = 0

/-! ### Selections -/

variable {cfg : Config} {es es' : List SpiEvent} {passes : ℕ}

theorem RefusesWriting.append (h : RefusesWriting es) (before after : List SpiEvent) :
    RefusesWriting (before ++ es ++ after) := by
  obtain ⟨enable, status, hinfix, hreg⟩ := h
  exact ⟨enable, status, hinfix.trans (List.infix_append before es after), hreg⟩

/-- A selection with these transfers. -/
theorem shows_selection (cfg : Config) (txBuf : List UInt8) (reply : SpiReply txBuf.length) :
    Shows (pagePrograms cfg) [⟨.chipSelect true, ()⟩, ⟨.exchange txBuf, reply⟩,
      ⟨.chipSelect false, ()⟩] (cfg.decodePageProgram txBuf).toList := by
  intro rest
  change (txBuf :: selections [] rest).filterMap cfg.decodePageProgram = _
  rw [List.filterMap_cons]
  cases cfg.decodePageProgram txBuf <;> rfl

theorem shows_two_transfers (cfg : Config) (header data : List UInt8)
    (reply : SpiReply header.length) (reply' : SpiReply data.length) :
    Shows (pagePrograms cfg) [⟨.chipSelect true, ()⟩, ⟨.exchange header, reply⟩,
      ⟨.exchange data, reply'⟩, ⟨.chipSelect false, ()⟩]
      (cfg.decodePageProgram (header ++ data)).toList := by
  intro rest
  change ((header ++ data) :: selections [] rest).filterMap cfg.decodePageProgram = _
  rw [List.filterMap_cons]
  cases cfg.decodePageProgram (header ++ data) <;> rfl

theorem hidden_transferSelected {txBuf : List UInt8} (h : cfg.decodePageProgram txBuf = none) :
    Hidden (pagePrograms cfg) (transferSelected txBuf) := by
  intro es r hruns
  obtain ⟨reply, -, rfl⟩ := runs_transferSelected hruns
  have hshows := shows_selection cfg txBuf reply
  rwa [h] at hshows

theorem hidden_readStatusRegister : Hidden (pagePrograms cfg) readStatusRegister :=
  .bind (hidden_transferSelected rfl) fun _ => .pure _

theorem hidden_waitWhileBusy : Hidden (pagePrograms cfg) (waitWhileBusy passes) := by
  induction passes with
  | zero =>
    rintro es r ⟨rfl, -⟩
    exact .nil
  | succ passes ih =>
    refine .bind hidden_readStatusRegister fun reg => ?_
    cases reg with
    | none => exact .pure _
    | some reg =>
      refine .ite (.pure _) fun es r h => ?_
      obtain ⟨_, es', rfl, h'⟩ := runs_perform_bind.mp h
      exact ih es' r h'

theorem hidden_enableWriting : Hidden (pagePrograms cfg) enableWriting :=
  .bind (hidden_transferSelected rfl) fun _ =>
    .ite (.bind hidden_readStatusRegister fun _ => .pure _) (.pure _)

theorem hidden_disableWriting (enabled : Bool) :
    Hidden (pagePrograms cfg) (disableWriting enabled) :=
  .ite (.bind (hidden_transferSelected rfl) fun _ => .pure _) (.pure _)

/-! ### Addresses -/

/-- What the chip reads in the bytes of an address. -/
theorem addressOf_fillBufferWithAddress (cfg : Config) (address : UInt32) :
    addressOf (fillBufferWithAddress cfg address) =
      if cfg.blockCount ≥ 512 then address.toNat else address.toNat % 2 ^ 24 := by
  have hlt := address.toNat_lt
  have hbyte : ∀ k : UInt32, k.toNat < 32 →
      (address >>> k).toUInt8.toNat = address.toNat / 2 ^ k.toNat % 256 := by
    intro k hk
    rw [UInt32.toNat_toUInt8, UInt32.toNat_shiftRight, Nat.mod_eq_of_lt hk,
      Nat.shiftRight_eq_div_pow]
  have h₀ : address.toUInt8.toNat = address.toNat % 256 := UInt32.toNat_toUInt8 address
  have h₁ : (address >>> 8).toUInt8.toNat = address.toNat / 256 % 256 := hbyte 8 (by decide)
  have h₂ : (address >>> 16).toUInt8.toNat = address.toNat / 65536 % 256 := hbyte 16 (by decide)
  have h₃ : (address >>> 24).toUInt8.toNat = address.toNat / 16777216 % 256 :=
    hbyte 24 (by decide)
  rw [addressOf, fillBufferWithAddress]
  split_ifs
  · simp only [List.cons_append, List.nil_append, List.foldl_cons, List.foldl_nil, h₀, h₁, h₂, h₃]
    omega
  · simp only [List.nil_append, List.foldl_cons, List.foldl_nil, h₀, h₁, h₂]
    omega

theorem length_fillBufferWithAddress (cfg : Config) (address : UInt32) :
    (fillBufferWithAddress cfg address).length = cfg.addressSize := by
  rw [fillBufferWithAddress, Config.addressSize]
  split_ifs <;> rfl

/-- The chip sees the page program that the driver means. -/
theorem decodePageProgram_header {address : UInt32} (data : List UInt8)
    (h : cfg.blockCount ≥ 512 ∨ address.toNat < 2 ^ 24) :
    cfg.decodePageProgram (header cfg cmdPageProgram address ++ data) =
      some ⟨address.toNat, data⟩ := by
  have haddress : addressOf (fillBufferWithAddress cfg address) = address.toNat := by
    rw [addressOf_fillBufferWithAddress]
    split_ifs with hlarge
    · rfl
    · exact Nat.mod_eq_of_lt (h.resolve_left hlarge)
  rw [header, List.cons_append, Config.decodePageProgram, if_pos rfl,
    ← length_fillBufferWithAddress cfg address, List.take_left, List.drop_left, haddress]

/-! ### Transfers that succeed -/

/-- All transfers succeed. -/
def Succeeds (es : List SpiEvent) : Prop := ∀ e ∈ es, ¬TransferFailed e

theorem Succeeds.left (h : Succeeds (es ++ es')) : Succeeds es :=
  fun e he => h e (List.mem_append_left _ he)

theorem Succeeds.right (h : Succeeds (es ++ es')) : Succeeds es' :=
  fun e he => h e (List.mem_append_right _ he)

theorem Succeeds.ok {txBuf : List UInt8} {reply : SpiReply txBuf.length} (h : Succeeds es)
    (hmem : (⟨.exchange txBuf, reply⟩ : SpiEvent) ∈ es) : reply.ok = true := by
  by_contra hfailed
  exact h _ hmem (Bool.eq_false_iff.mpr hfailed)

/-- The status register can be read. -/
theorem runs_readStatusRegister {r : Option (Option UInt8)} (h : Runs readStatusRegister es r)
    (hok : Succeeds es) :
    ∃ reply, r = some (some (reply.received.getD 1 0)) ∧ es = [⟨.chipSelect true, ()⟩,
      ⟨.exchange [cmdReadStatusRegister1, 0], reply⟩, ⟨.chipSelect false, ()⟩] := by
  obtain ⟨reply, rest, rfl, hend⟩ := runs_transferSelected_bind h
  obtain ⟨rfl, rfl⟩ := runs_pure.mp hend
  have hlength : 1 < reply.received.length := by
    rw [reply.length_received]
    decide
  refine ⟨reply, ?_, rfl⟩
  rw [if_pos (hok.ok (.tail _ (.head _))), List.getD_eq_getElem?_getD,
    List.getElem?_eq_getElem hlength, Option.getD_some]

/-- Waiting ends only when the chip is ready. -/
theorem runs_waitWhileBusy {r : Option Bool} (h : Runs (waitWhileBusy passes) es r)
    (hok : Succeeds es) : ∀ ready ∈ r, ready = true := by
  induction passes generalizing es r with
  | zero =>
    obtain ⟨-, rfl⟩ := h
    exact nofun
  | succ passes ih =>
    rcases runs_bind.mp h with ⟨-, rfl⟩ | ⟨es₁, es₂, reg, rfl, hread, hrest⟩
    · exact nofun
    obtain ⟨reply, hsome, -⟩ := runs_readStatusRegister hread hok.left
    obtain rfl := Option.some.inj hsome
    dsimp only at hrest
    split_ifs at hrest
    · obtain ⟨-, rfl⟩ := runs_pure.mp hrest
      exact fun _ hready => (Option.some.inj hready).symm
    · obtain ⟨_, es₃, rfl, hnext⟩ := runs_perform_bind.mp hrest
      exact ih hnext fun e he => hok.right e (.tail _ he)

/-- Writing is enabled, or the chip refuses it. -/
theorem runs_enableWriting {r : Option Bool} (h : Runs enableWriting es r) (hok : Succeeds es) :
    ∀ enabled ∈ r, enabled = false → RefusesWriting es := by
  obtain ⟨enable, rest, rfl, hrest⟩ := runs_transferSelected_bind h
  have hok' : Succeeds rest := fun e he => hok e (.tail _ (.tail _ (.tail _ he)))
  rw [if_pos (hok.ok (.tail _ (.head _)))] at hrest
  rcases runs_bind.mp hrest with ⟨-, rfl⟩ | ⟨es₁, es₂, reg, rfl, hread, hend⟩
  · exact nofun
  obtain ⟨status, hsome, rfl⟩ := runs_readStatusRegister hread hok'.left
  obtain rfl := Option.some.inj hsome
  obtain ⟨rfl, rfl⟩ := runs_pure.mp hend
  rintro enabled henabled rfl
  refine ⟨enable, status, ⟨[⟨.chipSelect true, ()⟩], [⟨.chipSelect false, ()⟩], rfl⟩, ?_⟩
  have hreg := Option.some.inj henabled
  simpa using hreg

/-! ### Attempts -/

/-- The transfers of `programFromBuffer`. -/
abbrev programTransfers (header data dummyRxBuf : List UInt8) : List SpiTransfer :=
  [⟨some header, none⟩, ⟨some data, some dummyRxBuf⟩, noMoreTransfers]

variable {header data dummyRxBuf : List UInt8} {transfers : List SpiTransfer}
  {r : Option (Bool × List SpiTransfer)}

/-- An entry of the array is transferred, and then the rest of the array. -/
theorem runs_transferEntries_cons {t : SpiTransfer} {count : ℕ}
    (ht : t.txBuf.isSome) (h : Runs (transferEntries (t :: transfers) (count + 1)) es r)
    (hok : Succeeds es) :
    ∃ reply rest r', es = ⟨.exchange t.source, reply⟩ :: rest ∧
      Runs (transferEntries transfers count) rest r' ∧
      r = r'.map fun a => (a.1, t.store reply.received :: a.2) := by
  have hguard : t ≠ noMoreTransfers := by
    rintro rfl
    cases ht
  rw [transferEntries, if_neg hguard] at h
  obtain ⟨reply, rest, rfl, hrest⟩ := runs_transfer_bind.mp h
  rw [if_pos (hok.ok (.head _))] at hrest
  rcases runs_bind.mp hrest with ⟨hcut, rfl⟩ | ⟨es₁, es₂, a, rfl, hentries, hend⟩
  · exact ⟨reply, rest, none, rfl, hcut, rfl⟩
  · obtain ⟨rfl, rfl⟩ := runs_pure.mp hend
    exact ⟨reply, _, some a, rfl, by rwa [List.append_nil], rfl⟩

/-- Both transfers are made, in one selection. -/
theorem runs_programTransfers
    (h : Runs (sendTransfers (programTransfers header data dummyRxBuf)) es r) (hok : Succeeds es) :
    ∃ reply reply' transfers, r = some (true, transfers) ∧
      es = [⟨.chipSelect true, ()⟩, ⟨.exchange header, reply⟩, ⟨.exchange data, reply'⟩,
        ⟨.chipSelect false, ()⟩] := by
  obtain ⟨_, es₁, rfl, h₁⟩ := runs_perform_bind.mp h
  have hentries : ∀ es r, Runs (transferEntries (programTransfers header data dummyRxBuf)
      (65532 + 3)) es r → Succeeds es → ∃ reply reply' transfers, r = some (true, transfers) ∧
        es = [⟨.exchange header, reply⟩, ⟨.exchange data, reply'⟩] := by
    intro es r h hok
    obtain ⟨reply, rest, r₁, rfl, hrest, rfl⟩ :=
      runs_transferEntries_cons (t := ⟨some header, none⟩) rfl h hok
    obtain ⟨reply', rest', r₂, rfl, hguard, rfl⟩ :=
      runs_transferEntries_cons (t := ⟨some data, some dummyRxBuf⟩) rfl hrest
        fun e he => hok e (.tail _ he)
    rw [transferEntries, if_pos rfl] at hguard
    obtain ⟨rfl, rfl⟩ := runs_pure.mp hguard
    exact ⟨reply, reply', _, rfl, rfl⟩
  have hok₁ : Succeeds es₁ := fun e he => hok e (.tail _ he)
  rcases runs_bind.mp h₁ with ⟨hcut, -⟩ | ⟨es₂, es₃, a, rfl, h₂, hend⟩
  · obtain ⟨_, _, _, hsome, -⟩ := hentries _ _ hcut hok₁
    cases hsome
  · obtain ⟨reply, reply', transfers, hsome, rfl⟩ := hentries _ _ h₂ hok₁.left
    obtain rfl := Option.some.inj hsome
    obtain ⟨_, es₄, rfl, hpure⟩ := runs_perform_bind.mp hend
    obtain ⟨rfl, rfl⟩ := runs_pure.mp hpure
    exact ⟨reply, reply', transfers, rfl, rfl⟩

/-- The end of an attempt after its transfers. -/
theorem runs_finishWriting {enabled : Bool}
    (h : Runs (finishWriting passes enabled (true, transfers)) es r) (hok : Succeeds es) :
    Shows (pagePrograms cfg) es [] ∧ (r = none ∨ r = some (true, transfers)) := by
  rcases runs_bind.mp h with ⟨hcut, rfl⟩ | ⟨es₁, es₂, done, rfl, hwait, h₂⟩
  · exact ⟨hidden_waitWhileBusy es none hcut, .inl rfl⟩
  have hwaited : Shows (pagePrograms cfg) es₁ [] := hidden_waitWhileBusy es₁ _ hwait
  obtain rfl := runs_waitWhileBusy hwait hok.left done rfl
  rcases runs_bind.mp h₂ with ⟨hcut, rfl⟩ | ⟨es₃, es₄, _, rfl, hdisable, hend⟩
  · exact ⟨hwaited.append (hidden_disableWriting enabled es₂ none hcut), .inl rfl⟩
  · obtain ⟨rfl, rfl⟩ := runs_pure.mp hend
    rw [List.append_nil]
    exact ⟨hwaited.append (hidden_disableWriting enabled es₃ _ hdisable), .inr rfl⟩

/-- What a part of a write leads to, if all its transfers succeed: it sends the page program, or it
is cut off before or after that, or the chip refuses writing. -/
inductive Attempted (cfg : Config) (p : Piece UInt8) (transfers : List SpiTransfer) :
    List SpiEvent → Option (Bool × List SpiTransfer) → Prop
  | cut {es : List SpiEvent} {ps : List (Piece UInt8)} :
      Shows (pagePrograms cfg) es ps → ps <+: [p] → Attempted cfg p transfers es none
  | done {es : List SpiEvent} {transfers' : List SpiTransfer} :
      Shows (pagePrograms cfg) es [p] → Attempted cfg p transfers es (some (true, transfers'))
  | refused {es : List SpiEvent} : Shows (pagePrograms cfg) es [] → RefusesWriting es →
      Attempted cfg p transfers es (some (false, transfers))

variable {p : Piece UInt8}

theorem Attempted.cut_hidden (hes : Shows (pagePrograms cfg) es []) :
    Attempted cfg p transfers es none := .cut hes List.nil_prefix

/-- Events without a page program before it do not matter. -/
theorem Attempted.prepend (hes : Shows (pagePrograms cfg) es [])
    (h : Attempted cfg p transfers es' r) : Attempted cfg p transfers (es ++ es') r := by
  cases h with
  | cut hshows hfirst => exact .cut (hes.append hshows) hfirst
  | done hshows => exact .done (hes.append hshows)
  | refused hshows hrefuses =>
    have hrefuses := hrefuses.append es []
    rw [List.append_nil] at hrefuses
    exact .refused (hes.append hshows) hrefuses

/-- An attempt of `programFromBuffer`. -/
theorem attempted_programAttempt (hp : cfg.decodePageProgram (header ++ data) = some p)
    (h : Runs (programAttempt passes sendTransfers (programTransfers header data dummyRxBuf)) es r)
    (hok : Succeeds es) : Attempted cfg p (programTransfers header data dummyRxBuf) es r := by
  rcases runs_bind.mp h with ⟨hcut, rfl⟩ | ⟨es₁, es₂, ready, rfl, hwait, h₂⟩
  · exact .cut_hidden (hidden_waitWhileBusy es none hcut)
  refine .prepend (hidden_waitWhileBusy es₁ _ hwait) ?_
  obtain rfl := runs_waitWhileBusy hwait hok.left ready rfl
  rcases runs_bind.mp h₂ with ⟨hcut, rfl⟩ | ⟨es₃, es₄, enabled, rfl, henable, h₄⟩
  · exact .cut_hidden (hidden_enableWriting es₂ none hcut)
  have hhidden : Shows (pagePrograms cfg) es₃ [] := hidden_enableWriting es₃ _ henable
  cases enabled with
  | false =>
    obtain ⟨rfl, rfl⟩ := runs_pure.mp h₄
    rw [List.append_nil]
    exact .refused hhidden (runs_enableWriting henable (hok.right.left) false rfl rfl)
  | true =>
    refine .prepend hhidden ?_
    rcases runs_bind.mp h₄ with ⟨hcut, -⟩ | ⟨es₅, es₆, sent, rfl, hsend, hfinish⟩
    · obtain ⟨_, _, _, hsome, -⟩ := runs_programTransfers hcut hok.right.right
      cases hsome
    obtain ⟨reply, reply', transfers, hsome, rfl⟩ :=
      runs_programTransfers hsend hok.right.right.left
    obtain rfl := Option.some.inj hsome
    have hshows := shows_two_transfers cfg header data reply reply'
    rw [hp] at hshows
    obtain ⟨hhidden, hresult⟩ := runs_finishWriting hfinish hok.right.right.right
    rcases hresult with rfl | rfl
    · exact .cut (hshows.append hhidden) (List.append_nil [p] ▸ List.prefix_refl _)
    · exact .done (hshows.append hhidden)

/-- All attempts, if there is at least one. -/
theorem attempted_retrying (hp : cfg.decodePageProgram (header ++ data) = some p) (retries : ℕ)
    (h : Runs (retrying (programAttempt passes sendTransfers) retries
      (programTransfers header data dummyRxBuf)) es r) (hok : Succeeds es) :
    Attempted cfg p (programTransfers header data dummyRxBuf) es r ∨
      retries = 0 ∧ es = [] ∧ r = some (false, programTransfers header data dummyRxBuf) := by
  induction retries generalizing es with
  | zero => exact .inr ⟨rfl, runs_pure.mp h⟩
  | succ retries ih =>
    left
    rcases runs_bind.mp h with ⟨hcut, rfl⟩ | ⟨es₁, es₂, a, rfl, hattempt, hrest⟩
    · exact attempted_programAttempt hp hcut hok
    cases attempted_programAttempt hp hattempt hok.left with
    | done hshows =>
      obtain ⟨rfl, rfl⟩ := runs_pure.mp hrest
      rw [List.append_nil]
      exact .done hshows
    | refused hshows hrefuses =>
      rcases ih hrest hok.right with hnext | ⟨-, rfl, rfl⟩
      · exact hnext.prepend hshows
      · rw [List.append_nil]
        exact .refused hshows hrefuses

/-- `programFromBuffer` on an address that the chip has. -/
theorem attempted_programFromBuffer {address : UInt32}
    (haddress : cfg.blockCount ≥ 512 ∨ address.toNat < 2 ^ 24)
    (h : Runs (programFromBuffer passes cfg address data dummyRxBuf) es r) (hok : Succeeds es) :
    ∃ transfers, Attempted cfg ⟨address.toNat, data⟩ transfers es r := by
  have hp := decodePageProgram_header data haddress
  exact ⟨_, (attempted_retrying hp maxRetries h hok).resolve_right fun hzero => nomatch hzero.1⟩

/-! ### Whole writes -/

/-- What a write leads to, if all its transfers succeed: the chip gets the planned page programs, or
some first ones of them if it refuses writing or the write is cut off. -/
structure Written (cfg : Config) (plan : List (Piece UInt8)) (es : List SpiEvent)
    (r : Option Bool) : Prop where
  shows : ∃ ps, Shows (pagePrograms cfg) es ps ∧ ps <+: plan ∧ (r = some true → ps = plan)
  refused : r = some false → RefusesWriting es

/-- A page program that succeeds, before the others. -/
theorem Written.cons {p : Piece UInt8} {plan : List (Piece UInt8)} {r : Option Bool}
    (hes : Shows (pagePrograms cfg) es [p]) (h : Written cfg plan es' r) :
    Written cfg (p :: plan) (es ++ es') r := by
  obtain ⟨⟨ps, hshows, hfirst, hall⟩, hrefused⟩ := h
  refine ⟨⟨p :: ps, hes.append hshows, List.cons_prefix_cons.mpr ⟨rfl, hfirst⟩, fun hr => ?_⟩,
    fun hr => ?_⟩
  · rw [hall hr]
  · have hrefuses := (hrefused hr).append es []
    rwa [List.append_nil] at hrefuses

/-- The bytes that a pass of the loop writes are the first piece. -/
theorem planned_toWrite {buffer : List UInt8} (hne : buffer ≠ []) {toWrite : ℕ}
    (h : toWrite = if buffer.length > pageSize then pageSize else buffer.length) (start : ℕ) :
    planned start buffer = ⟨start, buffer.take toWrite⟩ ::
      planned (start + toWrite) (buffer.drop toWrite) := by
  have hlength : (buffer.take toWrite).length = toWrite := by
    refine List.length_take_of_le ?_
    rw [h]
    split_ifs <;> omega
  have hpieces : Transfer.pieces (pageSize - 1) buffer =
      buffer.take toWrite :: Transfer.pieces (pageSize - 1) (buffer.drop toWrite) := by
    split_ifs at h with hlong
    · rw [h]
      exact Transfer.pieces_of_ne_nil (pageSize - 1) hne
    · rw [h, List.take_of_length_le (Nat.le_refl _), List.drop_of_length_le (Nat.le_refl _),
        Transfer.pieces_nil]
      exact Transfer.pieces_of_length_le hne (Nat.le_of_not_lt hlong)
  rw [planned, hpieces, placed, hlength]
  rfl

/-- The loop writes the pieces of the buffer, if the chip has their addresses. -/
theorem written_writePages {address : UInt32} {buffer : List UInt8} {r : Option Bool}
    (hend : address.toNat + buffer.length < 2 ^ 32)
    (hchip : cfg.blockCount ≥ 512 ∨ address.toNat + buffer.length ≤ 2 ^ 24)
    (h : Runs (writePages passes cfg dummyRxBuf address buffer) es r) (hok : Succeeds es) :
    Written cfg (planned address.toNat buffer) es r := by
  induction hn : buffer.length using Nat.strongRecOn generalizing address buffer es with
  | ind n ih =>
    rw [writePages] at h
    by_cases hnil : buffer = []
    · rw [dif_pos hnil] at h
      obtain ⟨rfl, rfl⟩ := runs_pure.mp h
      rw [hnil, planned, Transfer.pieces_nil]
      exact ⟨⟨[], .nil, List.prefix_refl _, fun _ => rfl⟩, nofun⟩
    rw [dif_neg hnil] at h
    dsimp only at h
    obtain ⟨toWrite, hm⟩ :
        ∃ m, m = if buffer.length > pageSize then pageSize else buffer.length := ⟨_, rfl⟩
    rw [← hm] at h
    have hpos := List.length_pos_of_ne_nil hnil
    have hbounds : 0 < toWrite ∧ toWrite ≤ buffer.length := by
      rw [hm, pageSize]
      split_ifs <;> omega
    have hnext : (address + UInt32.ofNat toWrite).toNat = address.toNat + toWrite := by
      rw [UInt32.toNat_add, UInt32.toNat_ofNat', Nat.mod_eq_of_lt (by omega : toWrite < 2 ^ 32)]
      exact Nat.mod_eq_of_lt (by omega)
    have haddress : cfg.blockCount ≥ 512 ∨ address.toNat < 2 ^ 24 := hchip.imp_right (by omega)
    rw [planned_toWrite hnil hm, ← hnext]
    rcases runs_bind.mp h with ⟨hcut, rfl⟩ | ⟨es₁, es₂, a, rfl, hprogram, hrest⟩
    · obtain ⟨_, hattempted⟩ := attempted_programFromBuffer haddress hcut hok
      cases hattempted with
      | cut hshows hfirst =>
        exact ⟨⟨_, hshows, hfirst.trans (List.prefix_append [_] _), nofun⟩, nofun⟩
    obtain ⟨_, hattempted⟩ := attempted_programFromBuffer haddress hprogram hok.left
    cases hattempted with
    | done hshows =>
      refine .cons hshows (ih (buffer.length - toWrite) (by omega) ?_ ?_ hrest hok.right
        List.length_drop)
      · rw [hnext, List.length_drop]
        omega
      · rw [hnext, List.length_drop]
        exact hchip.imp_right (by omega)
    | refused hshows hrefuses =>
      obtain ⟨rfl, rfl⟩ := runs_pure.mp hrest
      rw [List.append_nil]
      exact ⟨⟨[], hshows, List.nil_prefix, nofun⟩, fun _ => hrefuses⟩

/-- No known chip has more than 128 MB, and the small ones have addresses of three bytes. -/
theorem knownDevices_size {jedecId : UInt16} (h : (jedecId, cfg) ∈ knownDevices) :
    65536 * cfg.blockCount.toNat < 2 ^ 32 ∧
      (cfg.blockCount ≥ 512 ∨ 65536 * cfg.blockCount.toNat ≤ 2 ^ 24) := by
  have hall : ∀ device ∈ knownDevices, 65536 * device.2.blockCount.toNat < 2 ^ 32 ∧
      (device.2.blockCount ≥ 512 ∨ 65536 * device.2.blockCount.toNat ≤ 2 ^ 24) := by
    decide +kernel
  have hdevice := hall (jedecId, cfg) h
  dsimp only at hdevice
  exact hdevice

/-- The address of an offset in a sector. -/
theorem toNat_sectorToAddress {sector off : UInt32}
    (h : 4096 * sector.toNat + off.toNat < 2 ^ 32) :
    (sectorToAddress sector off).toNat = 4096 * sector.toNat + off.toNat := by
  have hsector : sectorSize.toNat = 4096 := rfl
  have hmul : (sector * sectorSize).toNat = 4096 * sector.toNat := by
    rw [UInt32.toNat_mul, hsector, Nat.mul_comm]
    exact Nat.mod_eq_of_lt (by omega)
  rw [sectorToAddress, UInt32.toNat_add, hmul]
  exact Nat.mod_eq_of_lt h

/-- A bus with a chip that is ready and has writing enabled when its status is read, and sends ones
while it receives other commands. -/
def enabledChip : Program.Environment SpiCall.Answer Unit
  | .chipSelect _, _ => ((), ())
  | .exchange [_, _], _ => (⟨true, [0, 0x02], rfl⟩, ())
  | .exchange txBuf, _ => (.ones true txBuf.length, ())
  | .getTimeSinceBootMsec, _ => (0, ())
  | .delayMsec _, _ => ((), ())

theorem succeeds_trace {W α : Type} {env : Program.Environment SpiCall.Answer W}
    (henv : ∀ c w, ¬TransferFailed ⟨c, (env c w).1⟩) (program : Program SpiCall.Answer α) (w : W) :
    Succeeds (program.trace env w) := by
  induction program generalizing w with
  | done a => exact fun _ he => absurd he List.not_mem_nil
  | call c next ih => exact List.forall_mem_cons.mpr ⟨henv c w, ih _ _⟩

theorem not_transferFailed_enabledChip (c : SpiCall) (w : Unit) :
    ¬TransferFailed ⟨c, (enabledChip c w).1⟩ := by
  match c with
  | .chipSelect _ | .getTimeSinceBootMsec | .delayMsec _ => exact id
  | .exchange [_, _] | .exchange [] | .exchange [_] | .exchange (_ :: _ :: _ :: _) =>
    exact fun hfailed => Bool.false_ne_true (Eq.symm hfailed)

/-- A write of 300 bytes to the second page of the second sector of a large chip. -/
def write300 : Driver Bool := flashmemWrite 1 ⟨512⟩ 1 256 (List.replicate 300 0x55) []

/-- The run of that write. -/
def write300Events : List SpiEvent := write300.run.trace enabledChip ()

/-- It sends two page programs and succeeds. -/
example : (write300.run.exec enabledChip ()).1 = some true ∧
    pagePrograms ⟨512⟩ write300Events =
      [⟨4352, List.replicate 256 0x55⟩, ⟨4608, List.replicate 44 0x55⟩] := by
  decide +kernel

end TellerOBC.FlashMem
