import Mathlib.Logic.Function.Basic
import TellerOBC.Core.Telem.Generic
import TellerOBC.Foundations.SharedBuffer
import TellerOBC.Foundations.StepSystem

/-!
# The loggers

`modules/log.cpp` and `modules/log.h`: there is a logger for each module, with a mutex and a buffer
of its own in which a call formats its text. All loggers then encode their text messages into the
same payload buffer, from which `telem::send` copies the frame.

A step is one of the four parts of a log call: acquiring the mutex of the logger, formatting,
encoding, and handing the payload over. Calls on one logger exclude each other, but calls on
different loggers do not, and one may encode its message before another has handed over its own.

What the calls do after the frame is handed over, and what `telem::send` does with it, is left out.

## Main definitions

* `TellerOBC.encodeTextMessageFrame`.
* `TellerOBC.Loggers`, `TellerOBC.Loggers.step`.
* `TellerOBC.Loggers.Faithful`: the frames are those of the calls that sent them.
* `TellerOBC.Loggers.Spares`: a call leaves the encoded messages of other calls as they are.

## Main results

* `TellerOBC.Loggers.Sound.step`: the invariant.
* `TellerOBC.Loggers.faithful_iff_spares`: when the frames are those of the calls that sent them.
-/

namespace TellerOBC

/-! ### Text messages -/

/-- `module_id_t`. -/
inductive ModuleId where
  | generic
  | obc
  | gmm
  | scm
  | ads
  | imu
  | mag
  | edr
  deriving DecidableEq, Repr

/-- The number of a module. -/
def ModuleId.code : ModuleId → UInt8
  | .generic => 0
  | .obc => 1
  | .gmm => 2
  | .scm => 3
  | .ads => 4
  | .imu => 5
  | .mag => 6
  | .edr => 7

/-- `log_level_t`. -/
inductive LogLevel where
  | emergency
  | alert
  | critical
  | error
  | warning
  | notice
  | info
  | debug
  deriving DecidableEq, Repr

/-- The number of a level. -/
def LogLevel.code : LogLevel → UInt8
  | .emergency => 0
  | .alert => 1
  | .critical => 2
  | .error => 3
  | .warning => 4
  | .notice => 5
  | .info => 6
  | .debug => 7

/-- `MAX_TEXT_MESSAGE_LENGTH`. -/
def maxTextMessageLength : ℕ := maxPayloadLength - 1

/-- `encodeTextMessageFrame`: the bytes that it writes. Their number is its result. -/
def encodeTextMessageFrame (moduleId : ModuleId) (level : LogLevel) (message : List UInt8) :
    List UInt8 :=
  ((level.code &&& (0x07 : UInt8)) ||| (moduleId.code <<< (3 : UInt8))) :: message

/-- A log call: the logger, the level and the text that results from its format and arguments. -/
structure LogCall where
  moduleId : ModuleId
  level : LogLevel
  text : List UInt8
  deriving DecidableEq, Repr

namespace LogCall

variable (call : LogCall)

/-- The string in `_buf` after `vsnprintf`: the text without what does not fit. -/
def formatted : List UInt8 := (call.text.take maxTextMessageLength).takeWhile (· ≠ 0)

/-- The encoding of the module, level and text of the call. -/
def frame : List UInt8 := encodeTextMessageFrame call.moduleId call.level call.formatted

theorem length_formatted_le : call.formatted.length ≤ maxTextMessageLength :=
  (List.takeWhile_sublist _).length_le.trans (List.length_take_le _ _)

end LogCall

/-! ### Log calls -/

/-- How far a log call is that holds the mutex of its logger. -/
inductive LogPhase where
  | acquired
  | formatted
  /-- The message is in the payload buffer, with this length. -/
  | encoded (length : ℕ)
  deriving DecidableEq, Repr

/-- The module with the calls in progress. -/
structure Loggers where
  payload : Vector UInt8 maxPayloadLength
  /-- The string in `_buf` of each logger. -/
  buf : ModuleId → List UInt8
  /-- The call that holds the mutex of each logger. -/
  holder : ModuleId → Option (LogCall × LogPhase)
  /-- The frames handed to `telem::send`, with the calls that sent them. -/
  sent : List (LogCall × List UInt8)

/-- The steps of the calls. -/
inductive LogAction where
  | acquire (call : LogCall)
  | format (moduleId : ModuleId)
  | encode (moduleId : ModuleId)
  | send (moduleId : ModuleId)
  deriving DecidableEq, Repr

namespace Loggers

open SharedBuffer StepSystem

/-- Before the first call. -/
def start (payload : Vector UInt8 maxPayloadLength) (buf : ModuleId → List UInt8) : Loggers :=
  ⟨payload, buf, fun _ => none, []⟩

variable (s : Loggers)

/-- Change the call that holds the mutex of a logger. -/
def hold (moduleId : ModuleId) (call : Option (LogCall × LogPhase)) : Loggers :=
  { s with holder := Function.update s.holder moduleId call }

/-- What a call encodes: the string in the buffer of its logger. -/
def encoding (moduleId : ModuleId) (call : LogCall) : List UInt8 :=
  encodeTextMessageFrame moduleId call.level ((s.buf moduleId).take maxTextMessageLength)

/-- `vsnprintf` into the buffer of the logger. -/
def format (moduleId : ModuleId) (call : LogCall) : Loggers :=
  hold { s with buf := Function.update s.buf moduleId call.formatted } moduleId
    (some (call, .formatted))

/-- `encodeTextMessageFrame` into the payload. -/
def encode (moduleId : ModuleId) (call : LogCall) : Loggers :=
  hold { s with payload := writeFront s.payload (s.encoding moduleId call) } moduleId
    (some (call, .encoded (s.encoding moduleId call).length))

/-- `telem::send` of the payload, and the release of the mutex. -/
def send (moduleId : ModuleId) (call : LogCall) (length : ℕ) : Loggers :=
  hold { s with sent := s.sent ++ [(call, window s.payload 0 length)] } moduleId none

/-- The steps. -/
def step (s : Loggers) : LogAction → Option Loggers
  | .acquire call =>
    match s.holder call.moduleId with
    | none => some (s.hold call.moduleId (some (call, .acquired)))
    | some _ => none
  | .format moduleId =>
    match s.holder moduleId with
    | some (call, .acquired) => some (s.format moduleId call)
    | _ => none
  | .encode moduleId =>
    match s.holder moduleId with
    | some (call, .formatted) => some (s.encode moduleId call)
    | _ => none
  | .send moduleId =>
    match s.holder moduleId with
    | some (call, .encoded length) => some (s.send moduleId call length)
    | _ => none

/-- The frames are those of the calls that sent them. -/
def Faithful : Prop := ∀ call frame, (call, frame) ∈ s.sent → frame = call.frame

/-- The frames are those of the calls that sent them, however the calls go on that have encoded
their messages. -/
def FaithfulAfter : Prop :=
  ∀ (moduleIds : List ModuleId) (t : Loggers),
    run step s (moduleIds.map LogAction.send) = some t → Faithful t

/-- A call that encodes its message leaves the messages that other calls have encoded and not sent
yet as they are. -/
def Spares : LogAction → Prop
  | .encode moduleId => ∀ call, s.holder moduleId = some (call, .formatted) →
    ∀ other ≠ moduleId, ∀ call' length, s.holder other = some (call', .encoded length) →
      window (writeFront s.payload (s.encoding moduleId call)) 0 length =
        window s.payload 0 length
  | _ => True

/-! ### The invariant -/

variable {s} {t : Loggers} {moduleId : ModuleId}

/-- What is true of the logger while a call holds its mutex: the call is one on this logger, its
text is in the buffer of the logger, or its message in the payload. -/
def HolderSound (s : Loggers) (moduleId : ModuleId) : Option (LogCall × LogPhase) → Prop
  | none => True
  | some (call, .acquired) => call.moduleId = moduleId
  | some (call, .formatted) => call.moduleId = moduleId ∧ s.buf moduleId = call.formatted
  | some (call, .encoded length) => window s.payload 0 length = call.frame

/-- The calls in progress have done what they should, and those before sent their frames. -/
structure Sound (s : Loggers) : Prop where
  holder : ∀ moduleId, HolderSound s moduleId (s.holder moduleId)
  faithful : Faithful s

theorem sound_start (payload : Vector UInt8 maxPayloadLength) (buf : ModuleId → List UInt8) :
    Sound (start payload buf) :=
  ⟨fun _ => trivial, nofun⟩

@[simp] theorem holder_hold_self (s : Loggers) (moduleId : ModuleId)
    (call : Option (LogCall × LogPhase)) : (s.hold moduleId call).holder moduleId = call :=
  Function.update_self ..

@[simp] theorem holder_hold_of_ne (s : Loggers) {moduleId other : ModuleId}
    (call : Option (LogCall × LogPhase)) (h : other ≠ moduleId) :
    (s.hold moduleId call).holder other = s.holder other :=
  Function.update_of_ne h ..

/-- A step of a call on one logger that leaves the buffers of the other loggers as they are, and
the messages that calls on them have encoded. -/
theorem Sound.of_other (h : Sound s) (moduleId : ModuleId)
    (hholder : ∀ other ≠ moduleId, t.holder other = s.holder other)
    (hbuf : ∀ other ≠ moduleId, t.buf other = s.buf other)
    (hwindow : ∀ other ≠ moduleId, ∀ call length, s.holder other = some (call, .encoded length) →
      window t.payload 0 length = window s.payload 0 length)
    (hself : HolderSound t moduleId (t.holder moduleId)) (hfaithful : Faithful t) : Sound t := by
  refine ⟨fun other => ?_, hfaithful⟩
  by_cases hother : other = moduleId
  · exact hother ▸ hself
  · have hsound := h.holder other
    rw [hholder other hother]
    rcases hcall : s.holder other with _ | ⟨call, phase⟩
    · trivial
    · rw [hcall] at hsound
      cases phase with
      | acquired => exact hsound
      | formatted => exact ⟨hsound.1, (hbuf other hother).trans hsound.2⟩
      | encoded length => exact (hwindow other hother call length hcall).trans hsound

theorem Sound.acquire (h : Sound s) {call : LogCall} (hstep : s.step (.acquire call) = some t) :
    Sound t := by
  rw [step] at hstep
  split at hstep
  · obtain rfl := Option.some.inj hstep
    refine h.of_other call.moduleId (fun _ => holder_hold_of_ne s _)
      (fun _ _ => rfl) (fun _ _ _ _ _ => rfl) ?_ h.faithful
    rw [holder_hold_self]
    rfl
  · cases hstep

theorem Sound.format (h : Sound s) (hstep : s.step (.format moduleId) = some t) : Sound t := by
  have hself := h.holder moduleId
  rw [step] at hstep
  split at hstep
  · rename_i call hcall
    obtain rfl := Option.some.inj hstep
    rw [hcall] at hself
    refine h.of_other moduleId (fun _ => holder_hold_of_ne _ _)
      (fun _ hother => Function.update_of_ne hother ..) (fun _ _ _ _ _ => rfl) ?_ h.faithful
    rw [format, holder_hold_self]
    exact ⟨hself, Function.update_self ..⟩
  · cases hstep

/-- What a call encodes is its frame. -/
theorem Sound.encoding_eq (h : Sound s) {call : LogCall}
    (hcall : s.holder moduleId = some (call, .formatted)) :
    s.encoding moduleId call = call.frame := by
  have hself := h.holder moduleId
  rw [hcall] at hself
  obtain ⟨hmodule, hbuf⟩ := hself
  rw [encoding, hbuf, List.take_of_length_le call.length_formatted_le, LogCall.frame, hmodule]

theorem length_frame_le (call : LogCall) : call.frame.length ≤ maxPayloadLength :=
  Nat.succ_le_succ call.length_formatted_le

theorem Sound.encode (h : Sound s) (hspares : s.Spares (.encode moduleId))
    (hstep : s.step (.encode moduleId) = some t) : Sound t := by
  rw [step] at hstep
  split at hstep
  · rename_i call hcall
    obtain rfl := Option.some.inj hstep
    refine h.of_other moduleId (fun _ hother => Function.update_of_ne hother ..)
      (fun _ _ => rfl) (hspares call hcall) ?_ h.faithful
    rw [encode, holder_hold_self, h.encoding_eq hcall]
    exact window_writeFront _ (length_frame_le call)
  · cases hstep

theorem Sound.send (h : Sound s) (hstep : s.step (.send moduleId) = some t) : Sound t := by
  have hself := h.holder moduleId
  rw [step] at hstep
  split at hstep
  · rename_i call length hcall
    obtain rfl := Option.some.inj hstep
    rw [hcall] at hself
    refine h.of_other moduleId (fun _ => holder_hold_of_ne _ _) (fun _ _ => rfl)
      (fun _ _ _ _ _ => rfl) ?_ ?_
    · rw [send, holder_hold_self]
      trivial
    · intro call' frame hmem
      rcases List.mem_append.mp hmem with hmem | hmem
      · exact h.faithful call' frame hmem
      · obtain ⟨rfl, rfl⟩ := Prod.mk.inj (List.mem_singleton.mp hmem)
        exact hself
  · cases hstep

/-- **The invariant** is kept by all steps that spare the messages of other calls. -/
theorem Sound.step (h : Sound s) (a : LogAction) (hspares : s.Spares a)
    (hstep : s.step a = some t) : Sound t := by
  cases a with
  | acquire call => exact h.acquire hstep
  | format moduleId => exact h.format hstep
  | encode moduleId => exact h.encode hspares hstep
  | send moduleId => exact h.send hstep

theorem Sound.faithfulAfter (h : Sound s) : s.FaithfulAfter := by
  intro moduleIds t hrun
  induction moduleIds generalizing s with
  | nil => exact Option.some.inj hrun ▸ h.faithful
  | cons moduleId moduleIds ih =>
    obtain ⟨u, hsend, hrest⟩ := run_cons_eq_some.mp hrun
    exact ih (h.send hsend) hrest

/-! ### Messages that are overwritten -/

/-- A call whose message is overwritten sends another frame. -/
theorem not_faithfulAfter (h : Sound s) {a : LogAction} (hspares : ¬s.Spares a)
    (hstep : s.step a = some t) : ¬t.FaithfulAfter := by
  cases a with
  | acquire | format | send => exact absurd trivial hspares
  | encode moduleId =>
    intro hafter
    simp only [Spares, not_forall] at hspares
    obtain ⟨call, hcall, other, hother, call', length, hencoded, hchanged⟩ := hspares
    simp only [Loggers.step, hcall, Option.some.injEq] at hstep
    have hholder : t.holder other = some (call', .encoded length) := by
      rw [← hstep, encode, holder_hold_of_ne _ _ hother]
      exact hencoded
    have hpayload : t.payload = writeFront s.payload (s.encoding moduleId call) := by
      rw [← hstep]
      rfl
    have hsend : t.step (.send other) = some (t.send other call' length) := by
      rw [Loggers.step, hholder]
    have hframe := hafter [other] _ (run_cons_eq_some.mpr ⟨_, hsend, rfl⟩) call'
      (window t.payload 0 length) (List.mem_append_right _ List.mem_cons_self)
    have hsound := h.holder other
    rw [hencoded] at hsound
    exact hchanged (hpayload ▸ hframe.trans hsound.symm)

/-! ### Runs -/

/-- **When the frames are those of the calls.** In every state of a run, the frames are those of the
calls that sent them however the calls go on that have encoded their messages, exactly if every call
of the run that encodes its message spares those that other calls have encoded and not sent yet. -/
theorem faithful_iff_spares (payload : Vector UInt8 maxPayloadLength) (buf : ModuleId → List UInt8)
    (actions : List LogAction) :
    (∀ t, Visits step (start payload buf) actions t → t.FaithfulAfter) ↔
      Meets step (fun s a => (s.step a).isSome → s.Spares a) (start payload buf) actions :=
  forall_visits_iff_meets (fun _ h => h.faithfulAfter) (fun _ a _ h hspares => h.step a hspares)
    (fun _ _ _ h hspares hstep => not_faithfulAfter h hspares hstep) (sound_start payload buf)

/-- The inertial measurement unit logs an error while the logger of the storage sends an
information: the frame of the information is that of the error. -/
theorem not_faithful_of_two_loggers :
    ¬∀ actions t, Visits step (start (.replicate maxPayloadLength 0) fun _ => []) actions t →
      t.Faithful := by
  intro h
  have hrun : (run step (start (.replicate maxPayloadLength 0) fun _ => [])
      [.acquire ⟨.edr, .info, [0x6F, 0x6B]⟩, .format .edr, .encode .edr,
        .acquire ⟨.imu, .error, [0x6E, 0x6F]⟩, .format .imu, .encode .imu,
        .send .edr]).map (fun t => t.sent) =
      some [(⟨.edr, .info, [0x6F, 0x6B]⟩, [0x2B, 0x6E, 0x6F])] := by
    decide +kernel
  obtain ⟨t, ht, hsent⟩ := Option.map_eq_some_iff.mp hrun
  have hframe := h _ t (visits_of_run ht) _ _ (hsent ▸ List.mem_cons_self)
  exact absurd hframe (by decide)

end Loggers

end TellerOBC
