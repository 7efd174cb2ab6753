import Mathlib.Data.List.Basic
import Mathlib.Data.List.Flatten
import Mathlib.Data.List.Infix
import Mathlib.Logic.Function.Iterate
import Mathlib.Order.Monotone.Basic

/-!
# Transfers over an unreliable sender

A transfer has to deliver a list of frames in order through a sender that may refuse any frame.
It works in rounds: a round offers the frames that are left, in order, until one is refused; the
refused frame is the first one of the next round. Which offers are accepted is given by a
sequence of outcomes, of which every offer takes the next one.

Whatever the outcomes are, the accepted frames followed by those left are the frames of the
transfer (`Transfer.sent_append_rest_iterate`), and nothing is left after a number of rounds
in which the sequence has as many acceptances as there are frames (`Transfer.rest_iterate_eq_nil`).

A sender that offers every frame only once delivers the accepted ones (`Transfer.accepted`).
The last section cuts a list into pieces of bounded length, the frames of a bulk transfer.

## Main definitions

* `Transfer`, `Transfer.round`: the state of a transfer; one round.
* `Transfer.acceptances`: how many of the first outcomes are acceptances.
* `Transfer.accepted`: the accepted frames when every frame is offered once.
* `Transfer.pieces`: a list cut into pieces.

## Main results

* `Transfer.sent_append_rest_iterate`, `Transfer.sent_prefix_iterate`.
* `Transfer.rest_iterate_eq_nil`, `Transfer.sent_iterate_eq`: when a transfer is complete.
* `Transfer.length_accepted_eq_iff`: every frame is accepted if none is refused.
* `Transfer.flatten_pieces`, `Transfer.length_pieces`.
-/

variable {F : Type*}

/-- The state of a transfer: the frames that are left, those that were accepted, and the
outcomes of the offers to come. -/
structure Transfer (F : Type*) where
  rest : List F
  sent : List F
  outcomes : ℕ → Bool

namespace Transfer

/-- The outcomes that remain after the first one. -/
def later (σ : ℕ → Bool) : ℕ → Bool := fun i => σ (i + 1)

theorem later_shift (σ : ℕ → Bool) (n : ℕ) :
    later (fun i => σ (i + n)) = fun i => σ (i + (n + 1)) := by
  funext i
  rw [later, Nat.add_assoc, Nat.add_comm 1]

/-- Offer the frames of a list in order until one is refused. -/
def offer : List F → List F → (ℕ → Bool) → Transfer F
  | [], sent, σ => ⟨[], sent, σ⟩
  | f :: rest, sent, σ =>
    if σ 0 then offer rest (sent ++ [f]) (later σ) else ⟨f :: rest, sent, later σ⟩

/-- One round of a transfer. -/
def round (t : Transfer F) : Transfer F := offer t.rest t.sent t.outcomes

/-- The number of acceptances among the first outcomes. -/
def acceptances (σ : ℕ → Bool) (n : ℕ) : ℕ := (List.range n).countP σ

/-! ### One round -/

theorem round_accepted (f : F) (rest sent : List F) {σ : ℕ → Bool} (h : σ 0 = true) :
    round ⟨f :: rest, sent, σ⟩ = round ⟨rest, sent ++ [f], later σ⟩ := by
  simp only [round, offer, h, ↓reduceIte]

theorem round_refused (f : F) (rest sent : List F) {σ : ℕ → Bool} (h : σ 0 = false) :
    round ⟨f :: rest, sent, σ⟩ = ⟨f :: rest, sent, later σ⟩ := by
  simp only [round, offer, h, Bool.false_eq_true, ↓reduceIte]

/-! ### Acceptances -/

@[simp] theorem acceptances_zero (σ : ℕ → Bool) : acceptances σ 0 = 0 := rfl

theorem acceptances_succ (σ : ℕ → Bool) (n : ℕ) :
    acceptances σ (n + 1) = acceptances σ n + if σ n then 1 else 0 := by
  simp only [acceptances, List.range_succ, List.countP_append, List.countP_singleton]

theorem acceptances_mono (σ : ℕ → Bool) : Monotone (acceptances σ) :=
  monotone_nat_of_le_succ fun n => by rw [acceptances_succ]; exact Nat.le_add_right _ _

theorem acceptances_eq_of_forall {σ : ℕ → Bool} {n : ℕ} (h : ∀ i < n, σ i = true) :
    acceptances σ n = n := by
  rw [acceptances, List.countP_eq_length.mpr fun i hi => h i (List.mem_range.mp hi),
    List.length_range]

/-! ### Runs -/

/-- The state of a transfer that took the first outcomes of a sequence: as many frames were
accepted as there are acceptances among them. -/
structure Took (t : Transfer F) (k : ℕ) (u : Transfer F) : Prop where
  append : u.sent ++ u.rest = t.sent ++ t.rest
  length : u.sent.length = t.sent.length + acceptances t.outcomes k
  outcomes : u.outcomes = fun i => t.outcomes (i + k)

theorem took_zero (t : Transfer F) : Took t 0 t :=
  ⟨rfl, rfl, rfl⟩

private theorem took_accepted {t u : Transfer F} {k : ℕ} {f : F} {rest : List F}
    (h : Took t k u) (hrest : u.rest = f :: rest) (hσ : u.outcomes 0 = true) :
    Took t (k + 1) ⟨rest, u.sent ++ [f], later u.outcomes⟩ where
  append := by rw [← h.append, hrest, List.append_assoc, List.singleton_append]
  length := by
    have hk : t.outcomes k = true := by simpa [h.outcomes] using hσ
    rw [List.length_append, h.length, acceptances_succ, if_pos hk, List.length_singleton,
      Nat.add_assoc]
  outcomes := by rw [h.outcomes, later_shift]

private theorem took_refused {t u : Transfer F} {k : ℕ} (h : Took t k u)
    (hσ : u.outcomes 0 = false) : Took t (k + 1) ⟨u.rest, u.sent, later u.outcomes⟩ where
  append := h.append
  length := by
    have hk : t.outcomes k = false := by simpa [h.outcomes] using hσ
    simp only [acceptances_succ, hk, Bool.false_eq_true, ↓reduceIte, Nat.add_zero, h.length]
  outcomes := by rw [h.outcomes, later_shift]

/-- A round takes outcomes, and it takes at least one unless it completes the transfer. -/
theorem exists_took_round {t u : Transfer F} {k : ℕ} (h : Took t k u) :
    ∃ j, k ≤ j ∧ Took t j u.round ∧ (u.round.rest = [] ∨ k < j) := by
  obtain ⟨rest, sent, σ⟩ := u
  induction rest generalizing sent σ k with
  | nil => exact ⟨k, le_rfl, h, Or.inl rfl⟩
  | cons f rest ih =>
    cases hσ : σ 0 with
    | true =>
      obtain ⟨j, hkj, htook, -⟩ := ih _ _ (took_accepted h rfl hσ)
      rw [round_accepted f rest sent hσ]
      exact ⟨j, Nat.le_of_succ_le hkj, htook, Or.inr hkj⟩
    | false =>
      rw [round_refused f rest sent hσ]
      exact ⟨k + 1, Nat.le_succ k, took_refused h hσ, Or.inr (Nat.lt_succ_self k)⟩

/-- After a number of rounds the transfer is complete or has taken that many outcomes. -/
theorem exists_took_iterate (t : Transfer F) (n : ℕ) :
    ∃ k, Took t k (round^[n] t) ∧ ((round^[n] t).rest = [] ∨ n ≤ k) := by
  induction n with
  | zero => exact ⟨0, took_zero t, Or.inr le_rfl⟩
  | succ n ih =>
    obtain ⟨k, htook, hk⟩ := ih
    rw [Function.iterate_succ_apply']
    obtain ⟨j, hkj, hj, hlt⟩ := exists_took_round htook
    refine ⟨j, hj, ?_⟩
    rcases hlt with hnil | hlt
    · exact Or.inl hnil
    · rcases hk with hnil | hk
      · refine Or.inl ?_
        rw [round, hnil]
        rfl
      · exact Or.inr (by omega)

/-- **Nothing is lost, repeated or reordered.** After any number of rounds the accepted frames
followed by those left are the frames of the transfer. -/
theorem sent_append_rest_iterate (t : Transfer F) (n : ℕ) :
    (round^[n] t).sent ++ (round^[n] t).rest = t.sent ++ t.rest := by
  obtain ⟨k, htook, -⟩ := exists_took_iterate t n
  exact htook.append

/-- The frames accepted so far only grow. -/
theorem sent_prefix_round (t : Transfer F) : t.sent <+: t.round.sent := by
  obtain ⟨rest, sent, σ⟩ := t
  induction rest generalizing sent σ with
  | nil => exact List.prefix_rfl
  | cons f rest ih =>
    cases hσ : σ 0 with
    | true =>
      rw [round_accepted f rest sent hσ]
      exact (List.prefix_append sent [f]).trans (ih _ _)
    | false => rw [round_refused f rest sent hσ]

theorem sent_prefix_iterate (t : Transfer F) (n : ℕ) : t.sent <+: (round^[n] t).sent := by
  induction n with
  | zero => exact List.prefix_rfl
  | succ n ih =>
    rw [Function.iterate_succ_apply']
    exact ih.trans (sent_prefix_round _)

/-- After any number of rounds the accepted frames are the first frames of the transfer. -/
theorem exists_sent_iterate_eq (t : Transfer F) (n : ℕ) :
    ∃ k, (round^[n] t).sent = t.sent ++ t.rest.take k := by
  obtain ⟨sent, hsent⟩ := sent_prefix_iterate t n
  have happend := sent_append_rest_iterate t n
  rw [← hsent, List.append_assoc] at happend
  have hrest : sent ++ (round^[n] t).rest = t.rest := List.append_cancel_left happend
  exact ⟨sent.length, by rw [← hsent, ← hrest, List.take_left]⟩

/-- **A transfer completes.** After a number of rounds among whose outcomes there are as many
acceptances as frames, nothing is left. -/
theorem rest_iterate_eq_nil (t : Transfer F) {n : ℕ}
    (h : t.rest.length ≤ acceptances t.outcomes n) : (round^[n] t).rest = [] := by
  obtain ⟨k, htook, hnil | hk⟩ := exists_took_iterate t n
  · exact hnil
  · have hlen := congrArg List.length htook.append
    have hle := acceptances_mono t.outcomes hk
    have := htook.length
    simp only [List.length_append] at hlen
    exact List.length_eq_zero_iff.mp (by omega)

/-- A complete transfer has delivered its frames. -/
theorem sent_iterate_eq (t : Transfer F) {n : ℕ}
    (h : t.rest.length ≤ acceptances t.outcomes n) :
    (round^[n] t).sent = t.sent ++ t.rest := by
  rw [← sent_append_rest_iterate t n, rest_iterate_eq_nil t h, List.append_nil]

/-! ### Frames that are offered once -/

/-- The accepted frames when every frame of a list is offered once, in order. -/
def accepted : List F → (ℕ → Bool) → List F
  | [], _ => []
  | f :: rest, σ => if σ 0 then f :: accepted rest (later σ) else accepted rest (later σ)

@[simp] theorem accepted_nil (σ : ℕ → Bool) : accepted ([] : List F) σ = [] := rfl

theorem accepted_append (xs ys : List F) (σ : ℕ → Bool) :
    accepted (xs ++ ys) σ = accepted xs σ ++ accepted ys (fun i => σ (i + xs.length)) := by
  induction xs generalizing σ with
  | nil => rfl
  | cons f xs ih =>
    have hlater : (fun i => later σ (i + xs.length)) = fun i => σ (i + (f :: xs).length) := by
      funext i
      rw [later, List.length_cons, Nat.add_assoc]
    rw [List.cons_append, accepted, accepted, ih, hlater]
    split <;> rfl

/-- The frames accepted up to the next one. -/
theorem accepted_take_succ {xs : List F} {p : ℕ} {f : F} (h : xs[p]? = some f) (σ : ℕ → Bool) :
    accepted (xs.take (p + 1)) σ = accepted (xs.take p) σ ++ if σ p then [f] else [] := by
  have hlen : (xs.take p).length = p := by
    rw [List.length_take, min_eq_left (List.getElem?_eq_some_iff.mp h).1.le]
  rw [List.take_add_one, h, Option.toList_some, accepted_append, hlen]
  simp [accepted]

theorem accepted_sublist (xs : List F) (σ : ℕ → Bool) : (accepted xs σ).Sublist xs := by
  induction xs generalizing σ with
  | nil => exact List.Sublist.refl _
  | cons f xs ih =>
    rw [accepted]
    split
    · exact (ih _).cons_cons f
    · exact (ih _).cons f

theorem length_accepted_le (xs : List F) (σ : ℕ → Bool) :
    (accepted xs σ).length ≤ xs.length := (accepted_sublist xs σ).length_le

theorem accepted_take_prefix (xs : List F) (σ : ℕ → Bool) (p : ℕ) :
    accepted (xs.take p) σ <+: accepted xs σ := by
  nth_rewrite 2 [← List.take_append_drop p xs]
  rw [accepted_append]
  exact List.prefix_append _ _

theorem accepted_eq_self {xs : List F} {σ : ℕ → Bool} (h : ∀ i < xs.length, σ i = true) :
    accepted xs σ = xs := by
  induction xs generalizing σ with
  | nil => rfl
  | cons f xs ih =>
    have hlater : accepted xs (later σ) = xs := ih fun i hi => h (i + 1) (Nat.succ_lt_succ hi)
    rw [accepted, if_pos (h 0 (Nat.succ_pos _)), hlater]

theorem accepted_eq_nil {xs : List F} {σ : ℕ → Bool} (h : ∀ i < xs.length, σ i = false) :
    accepted xs σ = [] := by
  induction xs generalizing σ with
  | nil => rfl
  | cons f xs ih =>
    have hlater : accepted xs (later σ) = [] := ih fun i hi => h (i + 1) (Nat.succ_lt_succ hi)
    rw [accepted, if_neg (Bool.eq_false_iff.mp (h 0 (Nat.succ_pos _))), hlater]

/-- A refused frame is missing. -/
theorem length_accepted_lt {xs : List F} {σ : ℕ → Bool} {i : ℕ} (hi : i < xs.length)
    (h : σ i = false) : (accepted xs σ).length < xs.length := by
  induction xs generalizing σ i with
  | nil => exact absurd hi (Nat.not_lt_zero i)
  | cons f xs ih =>
    have hle := length_accepted_le xs (later σ)
    rw [accepted, List.length_cons]
    cases i with
    | zero =>
      rw [if_neg (Bool.eq_false_iff.mp h)]
      exact Nat.lt_succ_of_le hle
    | succ i =>
      have hlt := ih (Nat.lt_of_succ_lt_succ hi) (σ := later σ) h
      split
      · exact Nat.succ_lt_succ hlt
      · exact Nat.lt_succ_of_le hle

/-- **Nothing is missing exactly if nothing is refused.** -/
theorem length_accepted_eq_iff {xs : List F} {σ : ℕ → Bool} :
    (accepted xs σ).length = xs.length ↔ ∀ i < xs.length, σ i = true := by
  refine ⟨fun hlen i hi => ?_, fun h => by rw [accepted_eq_self h]⟩
  by_contra hrefused
  exact absurd hlen (length_accepted_lt hi (Bool.eq_false_iff.mpr hrefused)).ne

/-- An accepted frame after a refused one is delivered at an earlier place than its own. -/
theorem exists_getElem?_accepted {xs : List F} {σ : ℕ → Bool} {i j : ℕ} {f : F} (hij : i < j)
    (hi : σ i = false) (hj : σ j = true) (hf : xs[j]? = some f) :
    ∃ k < j, (accepted xs σ)[k]? = some f := by
  have hlen : (xs.take j).length = j := by
    rw [List.length_take, min_eq_left (List.getElem?_eq_some_iff.mp hf).1.le]
  have hlt : (accepted (xs.take j) σ).length < j := by
    have := length_accepted_lt (hlen ▸ hij) hi
    omega
  refine ⟨_, hlt, ?_⟩
  obtain ⟨rest, hrest⟩ := accepted_take_prefix xs σ (j + 1)
  rw [← hrest, accepted_take_succ hf, if_pos hj, List.append_assoc,
    List.getElem?_append_right le_rfl, Nat.sub_self]
  rfl

/-! ### Pieces of a list -/

/-- A list cut into pieces of at most `size + 1` elements. -/
def pieces (size : ℕ) : List F → List (List F)
  | [] => []
  | x :: xs => (x :: xs.take size) :: pieces size (xs.drop size)
termination_by xs => xs.length
decreasing_by
  simp only [List.length_drop, List.length_cons]
  omega

@[simp] theorem pieces_nil (size : ℕ) : pieces size ([] : List F) = [] := by
  rw [pieces]

theorem pieces_of_ne_nil (size : ℕ) {xs : List F} (h : xs ≠ []) :
    pieces size xs = xs.take (size + 1) :: pieces size (xs.drop (size + 1)) := by
  cases xs with
  | nil => exact absurd rfl h
  | cons x xs => rw [pieces, List.take_succ_cons, List.drop_succ_cons]

theorem flatten_pieces (size : ℕ) (xs : List F) : (pieces size xs).flatten = xs := by
  fun_induction pieces size xs with
  | case1 => rfl
  | case2 x xs ih => rw [List.flatten_cons, ih, List.cons_append, List.take_append_drop]

theorem length_pieces (size : ℕ) (xs : List F) :
    (pieces size xs).length = (xs.length + size) / (size + 1) := by
  fun_induction pieces size xs with
  | case1 => exact (Nat.div_eq_of_lt (by rw [List.length_nil]; omega)).symm
  | case2 x xs ih =>
    rw [List.length_cons, ih, List.length_drop, List.length_cons]
    rcases Nat.lt_or_ge xs.length size with h | h
    · rw [Nat.sub_eq_zero_of_le h.le, Nat.zero_add, Nat.div_eq_of_lt (by omega),
        show xs.length + 1 + size = xs.length + (size + 1) by omega,
        Nat.add_div_right _ (by omega), Nat.div_eq_of_lt (by omega)]
    · rw [Nat.sub_add_cancel h, Nat.add_assoc, Nat.add_comm 1 size,
        Nat.add_div_right _ (by omega)]

/-- A nonempty list of at most the size of a piece is one piece. -/
theorem pieces_of_length_le {size : ℕ} {xs : List F} (hne : xs ≠ []) (hle : xs.length ≤ size + 1) :
    pieces size xs = [xs] := by
  rw [pieces_of_ne_nil size hne, List.take_of_length_le hle, List.drop_eq_nil_of_le hle,
    pieces_nil]

/-- The pieces of a repeated full piece. -/
theorem pieces_flatten_replicate {size : ℕ} {xs : List F} (hlength : xs.length = size + 1)
    (n : ℕ) : pieces size (List.replicate n xs).flatten = List.replicate n xs := by
  induction n with
  | zero => exact pieces_nil size
  | succ n ih =>
    have hne : xs ≠ [] := List.ne_nil_of_length_eq_add_one hlength
    rw [List.replicate_succ, List.flatten_cons, pieces_of_ne_nil size
      (List.append_ne_nil_of_left_ne_nil hne _), List.take_left' hlength, List.drop_left' hlength,
      ih]

end Transfer
