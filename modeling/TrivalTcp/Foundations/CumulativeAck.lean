import Mathlib.Data.List.Basic
import Mathlib.Data.Set.Insert
import Mathlib.Logic.Relation
import Mathlib.Tactic.Common

/-!
# Foundations/CumulativeAck — a byte stream over a network that loses, repeats and reorders

One direction of a sliding-window protocol with cumulative acknowledgements.  The sender extends a
`stream`, puts slices of it on the network at their offsets, and takes any acknowledgement it is
shown for the new `base`.  The receiver appends a slice it is shown if the slice starts where it
stands, and acknowledges where it stands.

Nothing put on the network is ever taken off: `data` and `acks` are the *sets* of all that was sent,
so a step may use any element of them, any number of times or never.  That is loss, duplication and
reordering without limit, and `Safe` survives it: what the receiver has is a prefix of the stream,
and no acknowledgement, sent or taken, is ahead of it.

`Delivers` is what is left of `Safe` when acknowledgements may also be made up (`ForgeStep`): the
bytes need them for nothing.
-/

namespace CumulativeAck

variable {α : Type*}

/-- One direction of a connection: both parties' data and everything in flight between them. -/
structure Flow (α : Type*) where
  /-- What the sender has put in its window so far. -/
  stream : List α
  /-- The acknowledgement the sender took last. -/
  base : ℕ
  /-- What the receiver has accepted so far. -/
  got : List α
  /-- Every slice sent so far, with its offset. -/
  data : Set (ℕ × List α)
  /-- Every acknowledgement sent so far. -/
  acks : Set ℕ

/-- The sender's steps. -/
inductive SendStep : Flow α → Flow α → Prop where
  | extend (f : Flow α) (c : List α) : SendStep f { f with stream := f.stream ++ c }
  | transmit (f : Flow α) {n : ℕ} {b : List α} (h : b <+: f.stream.drop n) :
      SendStep f { f with data := insert (n, b) f.data }
  | advance (f : Flow α) {n : ℕ} (h : n ∈ f.acks) : SendStep f { f with base := n }

/-- The receiver's steps. -/
inductive RecvStep : Flow α → Flow α → Prop where
  | accept (f : Flow α) {b : List α} (h : (f.got.length, b) ∈ f.data) :
      RecvStep f { f with got := f.got ++ b }
  | acknowledge (f : Flow α) : RecvStep f { f with acks := insert f.got.length f.acks }

/-- Any number of sender's steps. -/
abbrev Sends : Flow α → Flow α → Prop := Relation.ReflTransGen SendStep

/-- Any number of receiver's steps. -/
abbrev Recvs : Flow α → Flow α → Prop := Relation.ReflTransGen RecvStep

/-! ## The invariant -/

/-- **Delivery safety**: the receiver holds a prefix of the stream, everything in flight is a slice
of the stream, and no acknowledgement is ahead of the receiver. -/
structure Safe (f : Flow α) : Prop where
  delivered : f.got <+: f.stream
  slice : ∀ n b, (n, b) ∈ f.data → b <+: f.stream.drop n
  acks_le : ∀ n ∈ f.acks, n ≤ f.got.length
  base_le : f.base ≤ f.got.length

/-- **The half of `Safe` that speaks of no acknowledgement.** -/
structure Delivers (f : Flow α) : Prop where
  delivered : f.got <+: f.stream
  slice : ∀ n b, (n, b) ∈ f.data → b <+: f.stream.drop n

theorem Safe.delivers {f : Flow α} (h : Safe f) : Delivers f := ⟨h.delivered, h.slice⟩

/-- A slice of a stream stays one when the stream is extended. -/
theorem prefix_drop_append {s b : List α} {n : ℕ} (h : b <+: s.drop n) (c : List α) :
    b <+: (s ++ c).drop n := by
  rw [List.drop_append]
  exact h.trans (List.prefix_append _ _)

/-- A slice that starts where a prefix ends continues the prefix. -/
theorem prefix_append_slice {s g b : List α} (hg : g <+: s) (hb : b <+: s.drop g.length) :
    g ++ b <+: s := by
  obtain ⟨t, rfl⟩ := hg
  rw [List.drop_left] at hb
  exact (List.prefix_append_right_inj g).mpr hb

theorem SendStep.delivers {f g : Flow α} (h : SendStep f g) (hf : Delivers f) : Delivers g := by
  obtain ⟨hgot, hslice⟩ := hf
  cases h with
  | extend c =>
    refine ⟨hgot.trans (List.prefix_append _ _), fun n b hb => ?_⟩
    exact prefix_drop_append (hslice n b hb) c
  | transmit h =>
    refine ⟨hgot, fun n b hb => ?_⟩
    rcases hb with hb | hb
    · obtain ⟨rfl, rfl⟩ := Prod.mk.inj hb
      exact h
    · exact hslice n b hb
  | advance h => exact ⟨hgot, hslice⟩

theorem SendStep.safe {f g : Flow α} (h : SendStep f g) (hf : Safe f) : Safe g := by
  obtain ⟨hgot, hslice⟩ := h.delivers hf.delivers
  cases h with
  | extend c => exact ⟨hgot, hslice, hf.acks_le, hf.base_le⟩
  | transmit h => exact ⟨hgot, hslice, hf.acks_le, hf.base_le⟩
  | advance h => exact ⟨hgot, hslice, hf.acks_le, hf.acks_le _ h⟩

theorem RecvStep.delivers {f g : Flow α} (h : RecvStep f g) (hf : Delivers f) : Delivers g := by
  obtain ⟨hgot, hslice⟩ := hf
  cases h with
  | accept h => exact ⟨prefix_append_slice hgot (hslice _ _ h), hslice⟩
  | acknowledge => exact ⟨hgot, hslice⟩

theorem RecvStep.safe {f g : Flow α} (h : RecvStep f g) (hf : Safe f) : Safe g := by
  obtain ⟨hgot, hslice⟩ := h.delivers hf.delivers
  cases h with
  | accept h =>
    have hle : ∀ b : List α, f.got.length ≤ (f.got ++ b).length := fun b => by simp
    exact ⟨hgot, hslice, fun n hn => (hf.acks_le n hn).trans (hle _), hf.base_le.trans (hle _)⟩
  | acknowledge =>
    refine ⟨hgot, hslice, fun n hn => ?_, hf.base_le⟩
    rcases hn with rfl | hn
    · exact le_rfl
    · exact hf.acks_le n hn

/-- A flow on which nothing has happened. -/
def Flow.initial : Flow α := ⟨[], 0, [], ∅, ∅⟩

theorem safe_initial : Safe (Flow.initial : Flow α) :=
  ⟨List.prefix_rfl, fun _ _ h => h.elim, fun _ h => h.elim, le_rfl⟩

/-- Any number of steps of either party, in any order. -/
abbrev Steps : Flow α → Flow α → Prop := Relation.ReflTransGen fun f g => SendStep f g ∨ RecvStep f g

theorem Sends.steps {f g : Flow α} (h : Sends f g) : Steps f g :=
  Relation.ReflTransGen.mono (fun _ _ => .inl) _ _ h

theorem Recvs.steps {f g : Flow α} (h : Recvs f g) : Steps f g :=
  Relation.ReflTransGen.mono (fun _ _ => .inr) _ _ h

/-- **Safety survives every interleaving.** -/
theorem Steps.safe {f g : Flow α} (h : Steps f g) (hf : Safe f) : Safe g := by
  induction h with
  | refl => exact hf
  | tail _ hs ih => exact hs.elim (fun hs => hs.safe ih) fun hs => hs.safe ih

theorem Steps.delivers {f g : Flow α} (h : Steps f g) (hf : Delivers f) : Delivers g := by
  induction h with
  | refl => exact hf
  | tail _ hs ih => exact hs.elim (fun hs => hs.delivers ih) fun hs => hs.delivers ih

/-- The network makes an acknowledgement up. -/
inductive ForgeStep : Flow α → Flow α → Prop where
  | forge (f : Flow α) (n : ℕ) : ForgeStep f { f with acks := insert n f.acks }

/-- **An acknowledgement that is made up harms no byte.** -/
theorem ForgeStep.delivers {f g : Flow α} (h : ForgeStep f g) (hf : Delivers f) : Delivers g := by
  cases h with
  | forge n => exact ⟨hf.delivered, hf.slice⟩

theorem ForgeStep.got_eq {f g : Flow α} (h : ForgeStep f g) : g.got = f.got := by
  cases h with
  | forge n => rfl

/-- **What has been accepted stays accepted.** -/
theorem Steps.got_grows {f g : Flow α} (h : Steps f g) : f.got <+: g.got := by
  induction h with
  | refl => exact List.prefix_rfl
  | tail _ hs ih =>
    rcases hs with hs | hs
    · cases hs <;> exact ih
    · cases hs with
      | accept h => exact ih.trans (List.prefix_append _ _)
      | acknowledge => exact ih

/-! ## What one party's steps leave alone

Each party sees the other only through what is in flight, and that only grows. -/

theorem Sends.frame {f g : Flow α} (h : Sends f g) :
    g.got = f.got ∧ g.acks = f.acks ∧ f.data ⊆ g.data := by
  induction h with
  | refl => exact ⟨rfl, rfl, subset_rfl⟩
  | tail _ hs ih =>
    obtain ⟨hgot, hacks, hdata⟩ := ih
    cases hs with
    | extend c => exact ⟨hgot, hacks, hdata⟩
    | transmit h => exact ⟨hgot, hacks, hdata.trans (Set.subset_insert _ _)⟩
    | advance h => exact ⟨hgot, hacks, hdata⟩

theorem Recvs.frame {f g : Flow α} (h : Recvs f g) :
    g.stream = f.stream ∧ g.base = f.base ∧ g.data = f.data ∧ f.acks ⊆ g.acks := by
  induction h with
  | refl => exact ⟨rfl, rfl, rfl, subset_rfl⟩
  | tail _ hs ih =>
    obtain ⟨hstream, hbase, hdata, hacks⟩ := ih
    cases hs with
    | accept h => exact ⟨hstream, hbase, hdata, hacks⟩
    | acknowledge => exact ⟨hstream, hbase, hdata, hacks.trans (Set.subset_insert _ _)⟩

/-! ## Reading the invariant off -/

/-- **What has been accepted is the first so many elements of the stream.** -/
theorem Delivers.got_eq_take {f : Flow α} (h : Delivers f) : f.got = f.stream.take f.got.length :=
  List.prefix_iff_eq_take.mp h.delivered

theorem Delivers.got_le {f : Flow α} (h : Delivers f) : f.got.length ≤ f.stream.length :=
  h.delivered.length_le

/-- A slice that starts where the receiver stands fits into the stream. -/
theorem Delivers.accept_le {f : Flow α} (h : Delivers f) {b : List α}
    (hb : (f.got.length, b) ∈ f.data) : f.got.length + b.length ≤ f.stream.length := by
  have := (prefix_append_slice h.delivered (h.slice _ _ hb)).length_le
  rwa [List.length_append] at this

theorem Safe.got_eq_take {f : Flow α} (h : Safe f) : f.got = f.stream.take f.got.length :=
  h.delivers.got_eq_take

theorem Safe.got_le {f : Flow α} (h : Safe f) : f.got.length ≤ f.stream.length :=
  h.delivers.got_le

end CumulativeAck
