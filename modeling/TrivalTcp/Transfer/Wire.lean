import Mathlib.Algebra.BigOperators.Group.List.Basic
import TrivalTcp.Transfer.Link

/-!
# Transfer/Wire — two ends and what is on its way between them

Where `Transfer/Link` keeps every packet for ever, a `Wire` keeps for each end the packets that are
on their way to it, in the order they were sent.  A packet is taken off when it is delivered, and
what `sendToLayer3` refuses is never on its way.
-/

namespace TrivalTcp

/-- Two ends, and the packets on their way to each. -/
structure Wire (α : Type) where
  ends : Side → α
  channel : Side → List Buf

namespace Wire

variable {α : Type} (w : Wire α) (x : Side)

/-- The end at `x` has become `a` and has handed on `packets`. -/
def put (a : α) (packets : List Buf) : Wire α where
  ends := Function.update w.ends x a
  channel := Function.update w.channel x.other
    (w.channel x.other ++ packets.filterMap sendToLayer3)

/-- The packets on their way to `x` are `packets` now. -/
def setChannel (packets : List Buf) : Wire α :=
  { w with channel := Function.update w.channel x packets }

@[simp] theorem put_ends_self (a : α) (packets : List Buf) : (w.put x a packets).ends x = a :=
  Function.update_self _ _ _

@[simp] theorem put_ends_other (a : α) (packets : List Buf) :
    (w.put x a packets).ends x.other = w.ends x.other := Function.update_of_ne x.other_ne _ _

@[simp] theorem put_channel_self (a : α) (packets : List Buf) :
    (w.put x a packets).channel x = w.channel x := Function.update_of_ne x.other_ne.symm _ _

@[simp] theorem put_channel_other (a : α) (packets : List Buf) :
    (w.put x a packets).channel x.other = w.channel x.other ++ packets.filterMap sendToLayer3 :=
  Function.update_self _ _ _

@[simp] theorem setChannel_ends (packets : List Buf) : (w.setChannel x packets).ends = w.ends := rfl

@[simp] theorem setChannel_channel_self (packets : List Buf) :
    (w.setChannel x packets).channel x = packets := Function.update_self _ _ _

@[simp] theorem setChannel_channel_other (packets : List Buf) :
    (w.setChannel x packets).channel x.other = w.channel x.other :=
  Function.update_of_ne x.other_ne _ _

@[simp] theorem setChannel_self : w.setChannel x (w.channel x) = w := by
  rw [setChannel, Function.update_eq_self]

/-! The same, seen from the end that has not moved. -/

@[simp] theorem put_other_ends (a : α) (packets : List Buf) :
    (w.put x.other a packets).ends x = w.ends x := Function.update_of_ne x.other_ne.symm _ _

@[simp] theorem put_other_channel (a : α) (packets : List Buf) :
    (w.put x.other a packets).channel x = w.channel x ++ packets.filterMap sendToLayer3 := by
  have hother := w.put_channel_other x.other a packets
  rwa [Side.other_other] at hother

@[simp] theorem setChannel_other_channel (packets : List Buf) :
    (w.setChannel x.other packets).channel x = w.channel x :=
  Function.update_of_ne x.other_ne.symm _ _

/-- The `n`-th packet on its way to `x` is taken off. -/
def takeOff (n : ℕ) : Wire α := w.setChannel x ((w.channel x).eraseIdx n)

/-- What the packets on their way weigh together. -/
def weigh (f : Buf → ℕ) : ℕ := ((w.channel .client).map f).sum + ((w.channel .server).map f).sum

/-- How many packets are on their way. -/
def inFlight : ℕ := (w.channel .client).length + (w.channel .server).length

variable {w x}

/-- The sum seen from one end. -/
theorem weigh_eq (f : Buf → ℕ) (w : Wire α) (x : Side) :
    w.weigh f = ((w.channel x).map f).sum + ((w.channel x.other).map f).sum := by
  cases x with
  | client => rfl
  | server => exact Nat.add_comm _ _

/-- A packet that is taken off weighs no more. -/
theorem weigh_takeOff (f : Buf → ℕ) {n : ℕ} {pkt : Buf} (h : (w.channel x)[n]? = some pkt) :
    (w.takeOff x n).weigh f + f pkt = w.weigh f := by
  obtain ⟨hn, rfl⟩ := List.getElem?_eq_some_iff.mp h
  have hperm := ((List.getElem_cons_eraseIdx_perm hn).map f).sum_eq
  rw [List.map_cons, List.sum_cons] at hperm
  rw [weigh_eq f _ x, weigh_eq f w x, takeOff, setChannel_channel_self, setChannel_channel_other]
  omega

/-- Packets that are handed on weigh what `sendToLayer3` lets out of them. -/
theorem weigh_put (f : Buf → ℕ) (w : Wire α) (x : Side) (a : α) (packets : List Buf) :
    (w.put x a packets).weigh f = w.weigh f + ((packets.filterMap sendToLayer3).map f).sum := by
  rw [weigh_eq f _ x, weigh_eq f w x, put_channel_self, put_channel_other, List.map_append,
    List.sum_append, Nat.add_assoc]

end Wire

/-- A control packet is never refused. -/
theorem filterMap_sendToLayer3_control (s : TjuTcp) (seq ack : UInt32) (flags : UInt8)
    (adv : UInt16) : [controlPkt s seq ack flags adv].filterMap sendToLayer3 =
      [controlPkt s seq ack flags adv] := by
  rw [List.filterMap_cons, (controlPkt_built s seq ack flags adv).sendToLayer3 (by decide)]
  rfl

end TrivalTcp
