import TrivalTcp.Chan.Wakes

/-!
# Chan/Closing — a channel that is closed, and who has not noticed

`chan_send` looks whether the channel is closed, and lets go of the lock before it takes it again to
send.  Whoever has looked in time may send after the close, and nobody looks again.

* `chan_close_sends_le` — once the channel is closed no receiver sleeps, and no more values go in
  than there were senders that had already looked.
-/

namespace TrivalTcp

variable {ι α : Type} [Fintype ι] {capacity : ℕ}

/-- The thread has found the channel open, and has a value to send. -/
def ChanPc.Looked : ChanPc α → Bool
  | sends _ | sendSleeps _ | sendWoken _ => true
  | _ => false

namespace Chan

/-- How many values may still go in, whatever happens. -/
def looked (s : Chan ι α) : ℕ := tally (ChanPc.Looked · = true) s.thread

/-- A closed channel into which no more than `n` values go. -/
structure Closing (n : ℕ) (s : Chan ι α) : Prop where
  closed : s.closed = true
  le : s.sent.length + s.looked ≤ n

namespace Closing

variable [DecidableEq ι] {n : ℕ} {s t : Chan ι α} {items : List α} {i : ι}

/-- A thread goes on, and either counts as it did or has sent its value. -/
theorem goto (h : Closing n s) {old pc : ChanPc α} (hi : s.thread i = old) {u : Chan ι α}
    (hclosed : u.closed = s.closed) (hthread : u.thread = s.thread)
    (hle : u.sent.length + pc.Looked.toNat ≤ s.sent.length + old.Looked.toNat) :
    Closing n (u.goto i pc) where
  closed := hclosed.trans h.closed
  le := by
    have hupdate := tally_update (p := (ChanPc.Looked · = true)) s.thread i pc
    have hite : ∀ b : Bool, (if b = true then 1 else 0) = b.toNat := Bool.rec rfl rfl
    have hbefore := h.le
    rw [hi, hite, hite] at hupdate
    change u.sent.length + tally (ChanPc.Looked · = true) (Function.update u.thread i pc) ≤ n
    rw [hthread]
    rw [looked] at hbefore
    omega

theorem signalled (h : Closing n s) {cv : CondVar (ChanPc α)}
    (hcv : ∀ l, cv.Asleep l → (cv.up l).Looked = l.Looked) (woken : Finset ι) :
    Closing n (s.signalled cv woken) where
  closed := h.closed
  le := by
    have hsame := CondVar.tally_wake (p := (ChanPc.Looked · = true))
      (fun l hl => by rw [hcv l hl]) woken s.thread
    have hbefore := h.le
    rw [looked, ← hsame] at hbefore
    exact hbefore

theorem looked_wCond (l : ChanPc α) (h : (wCond α).Asleep l) :
    ((wCond α).up l).Looked = l.Looked := by
  obtain ⟨data, rfl⟩ := asleep_wCond h
  rfl

theorem looked_rCond (l : ChanPc α) (h : (rCond α).Asleep l) :
    ((rCond α).up l).Looked = l.Looked := by
  rw [asleep_rCond h]
  rfl

theorem resumed (h : Closing n s) (i : ι) : Closing n (s.resumed i) := by
  rw [Chan.resumed]
  split
  next data hi => exact h.goto hi rfl rfl le_rfl
  next hi => exact h.goto hi rfl rfl le_rfl
  next => exact h

theorem sentBy (h : Closing n s) {data : α} (hi : s.thread i = .sends data) (queue : Queue α) :
    Closing n (s.sentBy i data queue) := by
  refine h.goto hi rfl rfl ?_
  rw [List.length_append]
  exact le_rfl

theorem receivedBy (h : Closing n s) (hi : s.thread i = .recvs) (data : α) (queue : Queue α) :
    Closing n (s.receivedBy i data queue) :=
  h.goto hi rfl rfl le_rfl

/-- **One step of a thread.** -/
theorem threadStep (h : Closing n s) (hs : s.ThreadStep items i t) : Closing n t := by
  cases hs with
  | refused hi => exact h.goto hi rfl rfl le_rfl
  | opened hi hopen => exact absurd (h.closed.symm.trans hopen) Bool.false_ne_true.symm
  | full hi => exact h.goto hi rfl rfl le_rfl
  | sends hi => exact h.sentBy hi _
  | sendsSignals hi => exact (h.sentBy hi _).signalled looked_rCond _
  | ended hi => exact h.goto hi rfl rfl le_rfl
  | empty hi => exact h.goto hi rfl rfl le_rfl
  | receives hi => exact h.receivedBy hi _ _
  | receivesSignals hi => exact (h.receivedBy hi _ _).signalled looked_wCond _

/-- A thread that is outside calls something. -/
theorem call (h : Closing n s) {pc : ChanPc α} (hs : s.call i pc = .ret t)
    (hpc : pc.Looked = false) : Closing n t := by
  rw [Chan.call] at hs
  split at hs
  case h_4 => contradiction
  all_goals
    rename_i hi
    obtain rfl := Outcome.ret.inj hs
    exact h.goto hi rfl rfl (by rw [hpc]; exact Nat.le_add_right _ _)

/-- **One step of the channel.** -/
theorem step (h : Closing n s) (hqueue : s.queue.Holds items) {e : ChanEvent ι α}
    (hs : chanStep s e = .ret t) : Closing n t := by
  cases e with
  | callSend i data => exact h.call hs rfl
  | callRecv i => exact h.call hs rfl
  | thread i woken => exact (h.resumed i).threadStep (Chan.threadStep_cases hqueue hs)
  | close =>
    obtain rfl := Outcome.ret.inj hs
    rw [Chan.chanClose, if_pos h.closed]
    exact h
  | spurious writers readers =>
    obtain rfl := Outcome.ret.inj hs
    exact (h.signalled looked_rCond readers).signalled looked_wCond writers

end Closing

end Chan

variable [DecidableEq ι] {s t : Chan ι α}

/-- **What closing a channel does.**  From then on, whatever happens, it stays closed, no receiver
sleeps, and no more values go in than there were senders that had already found it open. -/
theorem chan_close_sends_le (hs : ChanReachable capacity s) (hclosed : s.closed = true)
    {es : List (ChanEvent ι α)} (hr : run chanStep s es = .ret t) :
    t.closed = true ∧ (∀ i, t.thread i ≠ .recvSleeps) ∧
      t.sent.length ≤ s.sent.length + s.looked := by
  have hend := run_invariant (I := fun t => (∃ items, ChanLive capacity t items) ∧
      Chan.Closing (s.sent.length + s.looked) t)
    (fun e _ u u' hu hstep => ⟨hu.1.choose_spec.step hstep, hu.2.step hu.1.choose_spec.ok.holds hstep⟩)
    ⟨ChanLive.of_reachable hs, hclosed, le_rfl⟩ hr
  obtain ⟨⟨items, h⟩, hclosing⟩ := hend
  refine ⟨hclosing.closed, fun i hi => ?_, (Nat.le_add_right _ _).trans hclosing.le⟩
  refine CondVar.not_asleep_of_served (fun n => h.readers n (.inl hclosing.closed)) i ?_
  rw [hi]
  rfl

/-- A sender looks, the channel is closed, and its value goes in all the same. -/
theorem chan_close_sends_le_one : ∃ s t : Chan Unit ℕ, ChanReachable 1 s ∧ s.closed = true ∧
    run chanStep s [.thread () ∅] = .ret t ∧ t.sent = [7] ∧ t.sent.length ≤ s.sent.length + s.looked := by
  have hrun : (run chanStep ((chanInit 1 : Option (Chan Unit ℕ)).get rfl)
      [.callSend () 7, .thread () ∅, .close] >>= fun s =>
      run chanStep s [.thread () ∅] >>= fun t => .ret (s.closed, t.sent)) = .ret (true, [7]) := by
    decide
  obtain ⟨s, hs, hrun⟩ := Outcome.bind_eq_ret.mp hrun
  obtain ⟨t, ht, hrun⟩ := Outcome.bind_eq_ret.mp hrun
  obtain ⟨hclosed, hsent⟩ := Prod.mk.inj (Outcome.ret.inj hrun)
  have hreach : ChanReachable 1 s := .after (.init ⟨Nat.one_pos, rfl⟩) hs
  exact ⟨s, t, hreach, hclosed, ht, hsent, (chan_close_sends_le hreach hclosed ht).2.2⟩

end TrivalTcp
