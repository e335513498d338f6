import Mathlib.Data.List.Basic
import Mathlib.Order.Nat
import Mathlib.Tactic.Common

/-!
# Foundations/InOrder — a byte stream over channels that keep order and lose nothing

The sender and the receiver of `Foundations/CumulativeAck`, joined by two queues.  What matters is
not what the receiver has but what it *will* have: `drain` is what it holds once the slices on their
way have arrived, `settle` what the sender takes for acknowledged once the acknowledgements have.
`Balanced` says that both come out right, and every step of either party keeps it, repeated slices
included: a slice that the receiver has already is skipped.
-/

namespace InOrder

variable {α : Type*}

/-- What the receiver holds after a slice: it takes one that starts where it stands. -/
def accept (got : List α) (slice : ℕ × List α) : List α :=
  if slice.1 = got.length then got ++ slice.2 else got

/-- What the receiver holds after all the slices on their way. -/
def drain (got : List α) (data : List (ℕ × List α)) : List α := data.foldl accept got

/-- What the sender takes for acknowledged after all the acknowledgements on their way. -/
def settle (base : ℕ) (acks : List ℕ) : ℕ := acks.foldl (fun _ n => n) base

@[simp] theorem drain_nil (got : List α) : drain got [] = got := rfl

@[simp] theorem drain_cons (got : List α) (slice : ℕ × List α) (data : List (ℕ × List α)) :
    drain got (slice :: data) = drain (accept got slice) data := rfl

theorem drain_append (got : List α) (data data' : List (ℕ × List α)) :
    drain got (data ++ data') = drain (drain got data) data' := List.foldl_append

@[simp] theorem settle_nil (base : ℕ) : settle base [] = base := rfl

@[simp] theorem settle_cons (base n : ℕ) (acks : List ℕ) :
    settle base (n :: acks) = settle n acks :=
  rfl

/-- Only the last acknowledgement counts. -/
@[simp] theorem settle_concat (base n : ℕ) (acks : List ℕ) : settle base (acks ++ [n]) = n := by
  rw [settle, List.foldl_append]
  rfl

theorem accept_here (got b : List α) : accept got (got.length, b) = got ++ b := if_pos rfl

theorem accept_elsewhere {got : List α} {slice : ℕ × List α} (h : slice.1 ≠ got.length) :
    accept got slice = got := if_neg h

/-- A receiver that has the whole stream skips every slice of it. -/
theorem accept_slice {stream b : List α} {n : ℕ} (h : b <+: stream.drop n) :
    accept stream (n, b) = stream := by
  by_cases hn : n = stream.length
  · subst hn
    rw [List.drop_length, List.prefix_nil] at h
    rw [h, accept_here, List.append_nil]
  · exact accept_elsewhere hn

theorem prefix_accept (got : List α) (slice : ℕ × List α) : got <+: accept got slice := by
  rw [accept]
  split_ifs
  · exact List.prefix_append _ _
  · exact List.prefix_rfl

/-- What the receiver holds it keeps. -/
theorem prefix_drain (got : List α) (data : List (ℕ × List α)) : got <+: drain got data := by
  induction data generalizing got with
  | nil => exact List.prefix_rfl
  | cons slice data ih => exact (prefix_accept got slice).trans (ih _)

/-! ## One direction of a connection -/

/-- Both parties' data, and what is on its way between them, the oldest first. -/
structure Direction (α : Type*) where
  /-- What the sender has put in its window so far. -/
  stream : List α
  /-- The acknowledgement the sender took last. -/
  base : ℕ
  /-- What the receiver has accepted so far. -/
  got : List α
  /-- The slices on their way, with their offsets. -/
  data : List (ℕ × List α)
  /-- The acknowledgements on their way. -/
  acks : List ℕ

/-- **What is on its way is enough**: it will bring the receiver the whole stream, and the sender
the acknowledgement of all the receiver has by now. -/
structure Balanced (d : Direction α) : Prop where
  drains : drain d.got d.data = d.stream
  settles : settle d.base d.acks = d.got.length
  base_le : d.base ≤ d.got.length
  acks_le : ∀ n ∈ d.acks, n ≤ d.got.length

namespace Balanced

variable {stream got b : List α} {base n : ℕ} {data : List (ℕ × List α)} {acks : List ℕ}

/-- A direction on which nothing has happened. -/
theorem initial : Balanced (⟨[], 0, [], [], []⟩ : Direction α) :=
  ⟨rfl, rfl, le_rfl, fun _ h => nomatch h⟩

/-- The sender extends the stream, and sends the extension. -/
theorem extend (h : Balanced ⟨stream, base, got, data, acks⟩) (b : List α) :
    Balanced ⟨stream ++ b, base, got, data ++ [(stream.length, b)], acks⟩ where
  drains := by
    have hdrain : drain got data = stream := h.drains
    rw [drain_append, hdrain]
    exact accept_here stream b
  settles := h.settles
  base_le := h.base_le
  acks_le := h.acks_le

/-- **The sender repeats itself**: what it repeats will be skipped. -/
theorem again (h : Balanced ⟨stream, base, got, data, acks⟩) (hb : b <+: stream.drop n) :
    Balanced ⟨stream, base, got, data ++ [(n, b)], acks⟩ where
  drains := by
    have hdrain : drain got data = stream := h.drains
    rw [drain_append, hdrain]
    exact accept_slice hb
  settles := h.settles
  base_le := h.base_le
  acks_le := h.acks_le

/-- The receiver takes a slice or skips it, and acknowledges where it stands. -/
theorem receive (h : Balanced ⟨stream, base, got, (n, b) :: data, acks⟩) :
    Balanced ⟨stream, base, accept got (n, b), data, acks ++ [(accept got (n, b)).length]⟩ where
  drains := h.drains
  settles := settle_concat _ _ _
  base_le := h.base_le.trans (prefix_accept got (n, b)).length_le
  acks_le m hm := by
    rcases List.mem_append.mp hm with hm | hm
    · exact (h.acks_le m hm).trans (prefix_accept got (n, b)).length_le
    · exact (List.mem_singleton.mp hm).le

/-- The receiver skips a slice without a word. -/
theorem skip (h : Balanced ⟨stream, base, got, (n, b) :: data, acks⟩) (hn : n ≠ got.length) :
    Balanced ⟨stream, base, got, data, acks⟩ where
  drains := by
    have hdrain : drain (accept got (n, b)) data = stream := h.drains
    rwa [accept_elsewhere hn] at hdrain
  settles := h.settles
  base_le := h.base_le
  acks_le := h.acks_le

/-- The sender takes an acknowledgement. -/
theorem advance (h : Balanced ⟨stream, base, got, data, n :: acks⟩) :
    Balanced ⟨stream, n, got, data, acks⟩ where
  drains := h.drains
  settles := h.settles
  base_le := h.acks_le n List.mem_cons_self
  acks_le m hm := h.acks_le m (List.mem_cons_of_mem _ hm)

/-- What the receiver will hold is all there is. -/
theorem accept_prefix (h : Balanced ⟨stream, base, got, (n, b) :: data, acks⟩) :
    accept got (n, b) <+: stream := by
  have hdrain : drain (accept got (n, b)) data = stream := h.drains
  exact hdrain ▸ prefix_drain _ _

/-- The sender takes no more for acknowledged than there is. -/
theorem base_le_length (h : Balanced ⟨stream, base, got, data, acks⟩) : base ≤ stream.length := by
  have hdrain : drain got data = stream := h.drains
  exact h.base_le.trans (hdrain ▸ prefix_drain _ _).length_le

/-- **When nothing is on its way any more, everything has arrived.** -/
theorem quiescent (h : Balanced ⟨stream, base, got, [], []⟩) :
    got = stream ∧ base = stream.length := by
  have hgot : got = stream := h.drains
  have hbase : base = got.length := h.settles
  exact ⟨hgot, hgot ▸ hbase⟩

end Balanced

end InOrder
