import Mathlib.Data.List.GetD
import Mathlib.Data.List.TakeWhile
import TellerOBC.Foundations.Program

/-!
# Programs with checked memory accesses

A program that reads buffers, writes arrays, casts numbers to enumerations and asserts conditions
can go wrong at each of these places. Here such an operation gives a fault instead of a value where
it would leave its buffer or array. A program that does not fault on an input therefore accesses
memory only within bounds.

Accesses without calls are in `Except Fault`. A program over calls of other parts of the system has
the faults on top (`CheckedProgram`), and is *safe* if it is the lift of a program without faults,
which it then refines.

## Main definitions

* `CheckedMemory.readAt`, `CheckedMemory.readRange`, `CheckedMemory.readCString`: reading.
* `CheckedMemory.writeRange`: writing to an array.
* `CheckedMemory.enumerator`, `CheckedMemory.verify`: casts and assertions.
* `CheckedMemory.withChecks`: a program whose calls have preconditions.

## Main results

* `CheckedMemory.exists_writeRange`, `CheckedMemory.WritesBehind.bind`: writing behind what was
  written before.
* `CheckedMemory.runs_lift`: the runs of a safe program.
* `CheckedMemory.withChecks_eq_lift`: calls whose preconditions hold.
-/

namespace CheckedMemory

/-- What goes wrong. -/
inductive Fault where
  | read
  | write
  /-- A number is cast to an enumeration that has no such enumerator. -/
  | cast
  | assertion
  deriving DecidableEq, Repr

variable {α β : Type} {n : ℕ}

/-! ### Accesses -/

/-- The element of a buffer at a position. -/
def readAt (buffer : List β) (i : ℕ) : Except Fault β :=
  match buffer[i]? with
  | some b => .ok b
  | none => .error .read

/-- The elements of a buffer from a position on. -/
def readRange (buffer : List β) (first count : ℕ) : Except Fault (List β) :=
  if first + count ≤ buffer.length then .ok ((buffer.drop first).take count)
  else .error .read

/-- The elements of an array before the first one equal to `terminator`, which has to be there. -/
def readCString [DecidableEq β] (array : Vector β n) (terminator : β) : Except Fault (List β) :=
  if terminator ∈ array.toList then .ok (array.toList.takeWhile (· ≠ terminator))
  else .error .read

/-- Write elements to an array from a position on. -/
def writeRange (array : Vector β n) (first : ℕ) (written : List β) : Except Fault (Vector β n) :=
  if h : first + written.length ≤ n then
    .ok ⟨(array.toList.take first ++ written ++ array.toList.drop (first + written.length)).toArray,
      by simp only [List.size_toArray, List.length_append, List.length_take, List.length_drop,
        Vector.length_toList]; omega⟩
  else .error .write

/-- The enumerator with a number, given the enumerators in the order of their numbers. -/
def enumerator (enumerators : List α) (code : ℕ) : Except Fault α :=
  match enumerators[code]? with
  | some a => .ok a
  | none => .error .cast

/-- `assert`. -/
def verify (p : Prop) [Decidable p] : Except Fault Unit :=
  if p then .ok () else .error .assertion

theorem readAt_of_lt {buffer : List β} {i : ℕ} (h : i < buffer.length) (default : β) :
    readAt buffer i = .ok (buffer.getD i default) := by
  rw [readAt, List.getElem?_eq_getElem h, List.getD_eq_getElem _ _ h]

theorem readRange_of_le {buffer : List β} {first count : ℕ} (h : first + count ≤ buffer.length) :
    readRange buffer first count = .ok ((buffer.drop first).take count) := if_pos h

/-- Reading what is at the start of a buffer. -/
theorem readRange_append (l m : List β) : readRange (l ++ m) 0 l.length = .ok l := by
  rw [readRange_of_le (by rw [Nat.zero_add, List.length_append]; exact Nat.le_add_right ..),
    List.drop_zero, List.take_left]

/-- Writing behind what was written before. -/
theorem exists_writeRange {array : Vector β n} {l m : List β} (harray : array.toList = l ++ m)
    (written : List β) (hfits : written.length ≤ m.length) :
    ∃ array', writeRange array l.length written = .ok array' ∧
      array'.toList = l ++ written ++ m.drop written.length := by
  have hlength : l.length + m.length = n := by
    rw [← List.length_append, ← harray, Vector.length_toList]
  refine ⟨_, dif_pos (by omega), ?_⟩
  rw [Vector.toList_mk, harray, List.take_left, ← List.drop_drop, List.drop_left]

/-- Writing to the start of an array. -/
theorem exists_writeRange_zero (array : Vector β n) (written : List β)
    (hfits : written.length ≤ n) :
    ∃ array', writeRange array 0 written = .ok array' ∧
      array'.toList = written ++ array.toList.drop written.length :=
  exists_writeRange (l := []) (m := array.toList) rfl written (by rwa [Vector.length_toList])

/-- Writing one element. -/
theorem writeRange_singleton (array : Vector β n) {i : ℕ} (hi : i < n) (b : β) :
    writeRange array i [b] = .ok (array.set i b hi) := by
  rw [writeRange, dif_pos (show i + [b].length ≤ n from hi)]
  refine congrArg Except.ok (Vector.toList_inj.mp ?_)
  rw [Vector.toList_set, List.set_eq_take_append_cons_drop,
    if_pos (by rwa [Vector.length_toList]), Vector.toList_mk, List.append_assoc]
  rfl

/-- Elements are written behind `l` over the first ones of `m`, and the pointer is moved behind
them. -/
def WritesBehind (l m written : List β) (r : Except Fault (Vector β n × ℕ)) : Prop :=
  ∃ array, r = .ok (array, l.length + written.length) ∧
    array.toList = l ++ written ++ m.drop written.length

/-- Writing nothing. -/
theorem writesBehind_nil {array : Vector β n} {l m : List β} (harray : array.toList = l ++ m) :
    WritesBehind l m [] (.ok (array, l.length)) :=
  ⟨array, rfl, by rw [List.append_nil, harray]; rfl⟩

/-- Writing one thing behind another. -/
theorem WritesBehind.bind {l m written written' : List β} {r : Except Fault (Vector β n × ℕ)}
    {f : Vector β n × ℕ → Except Fault (Vector β n × ℕ)} (hr : WritesBehind l m written r)
    (hf : ∀ array : Vector β n, array.toList = l ++ written ++ m.drop written.length →
      WritesBehind (l ++ written) (m.drop written.length) written'
        (f (array, (l ++ written).length))) :
    WritesBehind l m (written ++ written') (r >>= f) := by
  obtain ⟨array, rfl, harray⟩ := hr
  obtain ⟨array', hrest, harray'⟩ := hf array harray
  rw [List.length_append] at hrest
  refine ⟨array', ?_, ?_⟩
  · rw [List.length_append, ← Nat.add_assoc]
    exact hrest
  · rw [harray', List.length_append, ← List.drop_drop, List.append_assoc l]

/-- What a terminator ends. -/
theorem readCString_of_toList [DecidableEq β] {array : Vector β n} {terminator : β} {l m : List β}
    (harray : array.toList = l ++ terminator :: m) :
    readCString array terminator = .ok (l.takeWhile (· ≠ terminator)) := by
  have hmem : terminator ∈ array.toList := by
    rw [harray]
    exact List.mem_append_right _ List.mem_cons_self
  rw [readCString, if_pos hmem, harray, List.takeWhile_append]
  split_ifs with h
  · rw [List.takeWhile_cons_of_neg (by simp only [ne_eq, not_true_eq_false, decide_false,
      Bool.false_eq_true, not_false_eq_true]), List.append_nil]
    exact congrArg Except.ok ((List.takeWhile_sublist _).eq_of_length h).symm
  · rfl

theorem enumerator_of_lt {enumerators : List α} {code : ℕ} (h : code < enumerators.length)
    (default : α) : enumerator enumerators code = .ok (enumerators.getD code default) := by
  rw [enumerator, List.getElem?_eq_getElem h, List.getD_eq_getElem _ _ h]

/-! ### Programs -/

variable {Call : Type} {Answer : Call → Type}

/-- Programs that can fault. -/
abbrev CheckedProgram (Answer : Call → Type) (α : Type) : Type := ExceptT Fault (Program Answer) α

/-- A step without a fault. -/
@[simp] theorem ok_bind (a : α) (f : α → CheckedProgram Answer β) :
    ((liftM (Except.ok a : Except Fault α) : CheckedProgram Answer α) >>= f) = f a := rfl

/-- A program without faults, as one that can fault. -/
def lift (p : Program Answer α) : CheckedProgram Answer α := ExceptT.lift p

theorem ite_eq_lift {c : Prop} [Decidable c] {p q : CheckedProgram Answer α}
    {p' q' : Program Answer α} (hp : p = lift p') (hq : q = lift q') :
    (if c then p else q) = lift (if c then p' else q') := by
  split
  · exact hp
  · exact hq

theorem lift_bind (p : Program Answer α) (f : α → Program Answer β) :
    lift (p >>= f) = lift p >>= fun a => lift (f a) := by
  induction p with
  | done a => rfl
  | call c next ih => exact congrArg (Program.call c) (funext fun answer => ih answer)

/-- A safe program has the runs of the program without faults. -/
theorem runs_lift {p : Program Answer α} {es : List (Program.Event Answer)} {r : Except Fault α} :
    Program.Runs (lift p) es r ↔ ∃ a, r = .ok a ∧ p.Runs es a := by
  induction p generalizing es with
  | done a =>
    constructor
    · rintro ⟨rfl, rfl⟩
      exact ⟨a, rfl, rfl, rfl⟩
    · rintro ⟨_, rfl, rfl, rfl⟩
      exact ⟨rfl, rfl⟩
  | call c next ih =>
    constructor
    · rintro ⟨answer, rest, rfl, h⟩
      obtain ⟨a, rfl, hruns⟩ := (ih answer).mp h
      exact ⟨a, rfl, answer, rest, rfl, hruns⟩
    · rintro ⟨a, rfl, answer, rest, rfl, hruns⟩
      exact ⟨answer, rest, rfl, (ih answer).mpr ⟨a, rfl, hruns⟩⟩

/-- A program with a check before each call. -/
def withChecks (check : Call → Except Fault Unit) : Program Answer α → CheckedProgram Answer α
  | .done a => pure a
  | .call c next =>
    match check c with
    | .ok () => Program.call c fun answer => withChecks check (next answer)
    | .error fault => throw fault

/-- All calls that a program can make pass their checks. -/
def Passes (check : Call → Except Fault Unit) : Program Answer α → Prop
  | .done _ => True
  | .call c next => check c = .ok () ∧ ∀ answer, Passes check (next answer)

theorem Passes.bind {check : Call → Except Fault Unit} {p : Program Answer α}
    {f : α → Program Answer β} (hp : Passes check p) (hf : ∀ a, Passes check (f a)) :
    Passes check (p >>= f) := by
  induction p with
  | done a => exact hf a
  | call c next ih => exact ⟨hp.1, fun answer => ih answer (hp.2 answer)⟩

theorem Passes.perform {check : Call → Except Fault Unit} {c : Call}
    {f : Answer c → Program Answer α} (hc : check c = .ok ())
    (hf : ∀ answer, Passes check (f answer)) : Passes check (Program.perform c >>= f) := ⟨hc, hf⟩

theorem Passes.ite {check : Call → Except Fault Unit} {p q : Program Answer α} {cond : Prop}
    [Decidable cond] (hp : Passes check p) (hq : Passes check q) :
    Passes check (if cond then p else q) := by
  split
  · exact hp
  · exact hq

/-- A program whose calls pass their checks is safe. -/
theorem withChecks_eq_lift {check : Call → Except Fault Unit} {p : Program Answer α}
    (h : Passes check p) : withChecks check p = lift p := by
  induction p with
  | done a => rfl
  | call c next ih =>
    rw [withChecks, h.1]
    exact congrArg (Program.call c) (funext fun answer => ih answer (h.2 answer))

end CheckedMemory
