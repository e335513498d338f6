import Mathlib.Data.Fintype.Option
import TrivalTcp.Chan.Rendezvous

/-!
# Chan/Meeting — a sender and a receiver meet

Every step of a thread leads towards the end of its call, or to sleep (`SyncChan.measure`).  Where no
thread can go on, whoever holds a mutex is asleep, and a sender that sleeps has left its value for
the receiver that does: so not both of them are there.

* `sync_meets` — left alone, the threads go on for a bounded number of steps only, and then no sender
  waits while a receiver does, and nobody waits on a closed channel.
-/

namespace TrivalTcp

variable {ι α : Type} [Fintype ι]

namespace SyncPc

/-- The thread is in no call. -/
def Outside : SyncPc α → Bool
  | out | sent _ | received .. => true
  | _ => false

/-- The thread is in `chan_send`. -/
def InSend : SyncPc α → Bool
  | checks _ | sends _ | sendHolds _ | sendSleeps _ | sendWoken _ => true
  | _ => false

/-- The thread is in `chan_recv`. -/
def InRecv : SyncPc α → Bool
  | recvs | recvHolds | recvSleeps | recvWoken => true
  | _ => false

/-- How far a thread of `n` is from the end of its call: whoever offers or takes a value may wake all
others.  A sender that sleeps has nothing left to do but to return. -/
def weight (n : ℕ) : SyncPc α → ℕ
  | checks _ | recvs => n + 3
  | sends _ | recvHolds | recvWoken => n + 2
  | sendHolds _ | recvSleeps => n + 1
  | sendWoken _ => 1
  | out | sendSleeps _ | sent _ | received .. => 0

omit [Fintype ι] in
theorem weight_up_le {cv : CondVar (SyncPc α)} (hcv : cv = wCond α ∨ cv = rCond α) (n : ℕ)
    (l : SyncPc α) (hl : cv.Asleep l) : (cv.up l).weight n ≤ l.weight n + 1 := by
  rcases hcv with rfl | rfl
  · obtain ⟨data, rfl⟩ := asleep_wCond hl
    exact le_rfl
  · rw [asleep_rCond hl]
    exact le_rfl

end SyncPc

/-- A step of a thread that is in a call: nothing is called, and nobody wakes for no reason. -/
def SyncEvent.isThread : SyncEvent ι α → Bool
  | .thread .. => true
  | _ => false

namespace SyncChan

/-- How far the threads are from the ends of their calls. -/
def measure (s : SyncChan ι α) : ℕ := total (SyncPc.weight (Fintype.card ι)) s.thread

variable [DecidableEq ι] {s t : SyncChan ι α} {i : ι}

theorem measure_goto (s : SyncChan ι α) {old : SyncPc α} (hi : s.thread i = old) (pc : SyncPc α) :
    (s.goto i pc).measure + old.weight (Fintype.card ι) =
      s.measure + pc.weight (Fintype.card ι) :=
  hi ▸ total_update (SyncPc.weight (Fintype.card ι)) s.thread i pc

theorem measure_resumed (s : SyncChan ι α) (i : ι) : (s.resumed i).measure = s.measure := by
  rw [resumed]
  split
  next hi => exact Nat.add_right_cancel (measure_goto _ hi _)
  next => rfl

theorem measure_goto_le (s : SyncChan ι α) {old pc : SyncPc α} (hi : s.thread i = old) {k : ℕ}
    (h : pc.weight (Fintype.card ι) + k ≤ old.weight (Fintype.card ι)) :
    (s.goto i pc).measure + k ≤ s.measure := by
  have heq := measure_goto s hi pc
  omega

/-- **What a signal costs**: one for each thread it wakes. -/
theorem measure_signalled_le (s : SyncChan ι α) {cv : CondVar (SyncPc α)}
    (hcv : cv = SyncPc.wCond α ∨ cv = SyncPc.rCond α) (woken : Finset ι) :
    (s.signalled cv woken).measure ≤ s.measure + Fintype.card ι := by
  have hle := cv.total_wake_le (SyncPc.weight_up_le hcv (Fintype.card ι)) woken s.thread
  rwa [mul_one] at hle

/-- **Every step of a thread leads towards the ends.** -/
theorem ThreadStep.measure_lt (h : s.ThreadStep i t) : t.measure + 1 ≤ s.measure := by
  cases h with
  | refused hi | opened hi | ended hi => exact measure_goto_le _ hi (by simp [SyncPc.weight])
  | locksW hi => exact measure_goto_le { s with wMu := true } hi le_rfl
  | refusedLate hi => exact measure_goto_le { s with wMu := false } hi (by simp [SyncPc.weight])
  | @offers data hi _ woken _ =>
    have hoffered : (s.offeredBy i data).measure + (Fintype.card ι + 1) ≤ s.measure :=
      measure_goto_le { s with data := _, wWaiting := _, offered := _ } hi (by simp [SyncPc.weight])
    have hsignal := measure_signalled_le (s.offeredBy i data) (.inr rfl) woken
    omega
  | returns hi => exact measure_goto_le { s with wMu := false, returned := _ } hi le_rfl
  | locksR hi => exact measure_goto_le { s with rMu := true } hi le_rfl
  | empty hi => exact measure_goto_le { s with rWaiting := s.rWaiting + 1 } hi le_rfl
  | @takes hi _ _ woken _ =>
    have htaken : (s.takenBy i).measure + (Fintype.card ι + 2) ≤ s.measure :=
      measure_goto_le { s with wWaiting := _, rMu := _, taken := _ } hi (by simp [SyncPc.weight])
    have hsignal := measure_signalled_le (s.takenBy i) (.inl rfl) woken
    omega

omit [DecidableEq ι] in
/-- No thread is further than this from the end of its call. -/
theorem measure_le (s : SyncChan ι α) : s.measure ≤ Fintype.card ι * (Fintype.card ι + 3) := by
  have hle : ∀ l : SyncPc α, l.weight (Fintype.card ι) ≤ Fintype.card ι + 3 := fun l => by
    cases l <;> simp [SyncPc.weight]
  have hsum := Finset.sum_le_card_nsmul Finset.univ
    (fun i => (s.thread i).weight (Fintype.card ι)) (Fintype.card ι + 3) fun i _ => hle _
  rwa [Finset.card_univ, Nat.nsmul_eq_mul] at hsum

/-! ## Where nobody can go on -/

/-- No thread can go on. -/
def AtRest (s : SyncChan ι α) : Prop := ∀ i woken t, syncStep s (.thread i woken) ≠ .ret t

/-- Where a thread can be when it cannot go on. -/
inductive Rests (s : SyncChan ι α) : SyncPc α → Prop where
  | outside {pc : SyncPc α} (h : pc.Outside = true) : Rests s pc
  | locksW (data : α) (hheld : s.wMu = true) : Rests s (.sends data)
  | sendSleeps (data : α) : Rests s (.sendSleeps data)
  | locksR (hheld : s.rMu = true) : Rests s .recvs
  | recvSleeps : Rests s .recvSleeps

/-- A signal can always be given. -/
theorem exists_signal (s : SyncChan ι α) (cv : CondVar (SyncPc α)) :
    ∃ woken t, s.signal cv woken = .ret t := by
  obtain ⟨woken, hwoken⟩ := cv.exists_signals s.thread
  exact ⟨woken, _, signal_eq_ret.mpr ⟨hwoken, rfl⟩⟩

theorem exists_send (s : SyncChan ι α) (i : ι) (data : α) :
    ∃ woken t, s.unbufferedChanSend i data woken = .ret t := by
  simp only [unbufferedChanSend]
  by_cases hclosed : s.closed = true
  · exact ⟨∅, _, if_pos hclosed⟩
  · by_cases hsome : 0 < s.rWaiting
    · simp only [if_neg hclosed]
      obtain ⟨woken, t, hsignal⟩ := exists_signal (s.offeredBy i data) (SyncPc.rCond α)
      exact ⟨woken, t, (if_pos hsome).trans hsignal⟩
    · simp only [if_neg hclosed]
      exact ⟨∅, _, if_neg hsome⟩

theorem exists_recv (s : SyncChan ι α) (i : ι) :
    ∃ woken t, s.unbufferedChanRecv i woken = .ret t := by
  simp only [unbufferedChanRecv]
  split_ifs
  · exact ⟨∅, _, rfl⟩
  · exact ⟨∅, _, rfl⟩
  · exact exists_signal _ _

theorem AtRest.rests (hrest : AtRest s) (i : ι) : s.Rests (s.thread i) := by
  have hno : ∀ woken t, s.threadStep i woken ≠ .ret t := hrest i
  simp only [threadStep] at hno
  cases hi : s.thread i with
  | out | sent | received => exact .outside rfl
  | sendSleeps data => exact .sendSleeps data
  | recvSleeps => exact .recvSleeps
  | checks data | sendWoken data =>
    simp only [hi] at hno
    exact absurd rfl (hno ∅ _)
  | sends data =>
    cases hheld : s.wMu with
    | true => exact .locksW data hheld
    | false =>
      simp only [hi, hheld, Bool.false_eq_true, if_false] at hno
      exact absurd rfl (hno ∅ _)
  | recvs =>
    cases hheld : s.rMu with
    | true => exact .locksR hheld
    | false =>
      simp only [hi, hheld, Bool.false_eq_true, if_false] at hno
      exact absurd rfl (hno ∅ _)
  | sendHolds data =>
    simp only [hi] at hno
    obtain ⟨woken, t, hstep⟩ := exists_send s i data
    exact absurd hstep (hno woken t)
  | recvHolds =>
    simp only [hi] at hno
    obtain ⟨woken, t, hstep⟩ := exists_recv s i
    exact absurd hstep (hno woken t)
  | recvWoken =>
    simp only [hi] at hno
    obtain ⟨woken, t, hstep⟩ := exists_recv { s with rWaiting := s.rWaiting - 1 } i
    exact absurd hstep (hno woken t)

end SyncChan

variable [DecidableEq ι] {s t : SyncChan ι α} {i : ι}

omit [DecidableEq ι] in
/-- A mutex that is held, somebody holds. -/
theorem exists_of_mu (p : SyncPc α → Bool) {thread : ι → SyncPc α} {mu : Bool}
    (h : mu.toNat = tally (p · = true) thread) (hmu : mu = true) : ∃ i, p (thread i) = true := by
  by_contra hno
  have hzero : tally (p · = true) thread = 0 := tally_eq_zero.mpr fun i hi => hno ⟨i, hi⟩
  rw [hzero, hmu] at h
  contradiction

omit [Fintype ι] [DecidableEq ι] in
theorem SyncPc.outside_or (l : SyncPc α) :
    l.Outside = true ∨ l.InSend = true ∨ l.InRecv = true := by
  cases l with
  | out | sent | received => exact .inl rfl
  | checks | sends | sendHolds | sendSleeps | sendWoken => exact .inr (.inl rfl)
  | recvs | recvHolds | recvSleeps | recvWoken => exact .inr (.inr rfl)

namespace SyncOk

/-- **Where a sender waits**, one sleeps, and its value is there for a receiver. -/
theorem of_inSend (h : SyncOk s) (hrest : s.AtRest) (hi : (s.thread i).InSend = true) :
    s.closed = false ∧ s.wWaiting = 1 := by
  have hholds : ∃ j, (s.thread j).HoldsW = true := by
    have hrests := hrest.rests i
    cases hpc : s.thread i with
    | sends data =>
      rw [hpc] at hrests
      cases hrests with
      | outside hout => contradiction
      | locksW _ hheld => exact exists_of_mu SyncPc.HoldsW h.counts.wMu hheld
    | sendHolds | sendSleeps | sendWoken => exact ⟨i, congrArg SyncPc.HoldsW hpc⟩
    | checks data =>
      rw [hpc] at hrests
      cases hrests
      contradiction
    | _ =>
      rw [hpc] at hi
      contradiction
  obtain ⟨j, hj⟩ := hholds
  have hrests := hrest.rests j
  cases hpc : s.thread j with
  | sendSleeps d =>
    obtain ⟨hopen, hone, -⟩ := h.lies_of_sendSleeps hpc
    exact ⟨hopen, hone⟩
  | sendHolds | sendWoken =>
    rw [hpc] at hrests
    cases hrests
    contradiction
  | _ =>
    rw [hpc] at hj
    contradiction

/-- **Where a receiver waits**, one sleeps. -/
theorem of_inRecv (h : SyncOk s) (hrest : s.AtRest) (hi : (s.thread i).InRecv = true) :
    ∃ j, (SyncPc.rCond α).Asleep (s.thread j) := by
  have hholds : ∃ j, (s.thread j).HoldsR = true := by
    have hrests := hrest.rests i
    cases hpc : s.thread i with
    | recvs =>
      rw [hpc] at hrests
      cases hrests with
      | outside hout => contradiction
      | locksR hheld => exact exists_of_mu SyncPc.HoldsR h.counts.rMu hheld
    | recvHolds | recvSleeps | recvWoken => exact ⟨i, congrArg SyncPc.HoldsR hpc⟩
    | _ =>
      rw [hpc] at hi
      contradiction
  obtain ⟨j, hj⟩ := hholds
  have hrests := hrest.rests j
  cases hpc : s.thread j with
  | recvSleeps => exact ⟨j, hpc ▸ rfl⟩
  | recvHolds | recvWoken =>
    rw [hpc] at hrests
    cases hrests
    contradiction
  | _ =>
    rw [hpc] at hj
    contradiction

/-- Where nobody can go on, no receiver is about to look. -/
theorem not_looking (hrest : s.AtRest) (i : ι) : ¬ (SyncPc.rCond α).looking (s.thread i) := by
  have hrests := hrest.rests i
  cases hpc : s.thread i with
  | recvHolds | recvWoken =>
    rw [hpc] at hrests
    cases hrests
    contradiction
  | _ => exact Bool.false_ne_true

end SyncOk

/-- **A sender and a receiver meet.**  Wherever a run has led in which no sender woke without a
signal, the threads that are in a call go on for a bounded number of steps only, in whatever order;
and when none can go on, each has returned, or the channel is open, and not both a sender and a
receiver are waiting. -/
theorem sync_meets {es fs : List (SyncEvent ι α)} (hes : ∀ e ∈ es, e.isCalm = true)
    (hr : run syncStep unbufferedChanInit es = .ret s) (hfs : ∀ e ∈ fs, e.isThread = true)
    (hafter : run syncStep s fs = .ret t) :
    fs.length ≤ Fintype.card ι * (Fintype.card ι + 3) ∧ (t.AtRest →
      (∀ i, (t.thread i).Outside = true) ∨ t.closed = false ∧
        ((∀ i, (t.thread i).InSend = false) ∨ ∀ i, (t.thread i).InRecv = false)) := by
  have hs := SyncOk.of_run hes hr
  have hstep : ∀ e ∈ fs, ∀ u v, SyncOk u → syncStep u e = .ret v →
      SyncOk v ∧ v.measure < u.measure := fun e he u v hu hv => by
    cases e with
    | thread i woken =>
      have hresumed := hu.resumed i
      have hcase := SyncChan.threadStep_cases hresumed.counts.rWaiting hv
      exact ⟨hresumed.threadStep hcase, u.measure_resumed i ▸ hcase.measure_lt⟩
    | _ => exact absurd (hfs _ he) Bool.false_ne_true
  have hlen := run_length_le_of hstep hs hafter
  have h := run_invariant (fun e he u v hu hv => (hstep e he u v hu hv).1) hs hafter
  refine ⟨(Nat.le_of_add_right_le hlen).trans s.measure_le, fun hrest => ?_⟩
  by_cases hsend : ∃ i, (t.thread i).InSend = true
  · obtain ⟨i, hi⟩ := hsend
    obtain ⟨hopen, hone⟩ := h.of_inSend hrest hi
    refine .inr ⟨hopen, .inr fun j => ?_⟩
    by_contra hrecv
    -- the value that is there would have a receiver look
    obtain ⟨k, hk⟩ := h.of_inRecv hrest (Bool.eq_true_of_not_eq_false hrecv)
    obtain ⟨l, hl⟩ := (h.readers 1 (.inr hone.ge)).exists_looking Nat.one_pos hk
    exact SyncOk.not_looking hrest l hl
  · have hnone : ∀ i, (t.thread i).InSend = false := fun i =>
      Bool.eq_false_of_not_eq_true fun hi => hsend ⟨i, hi⟩
    by_cases hrecv : ∃ i, (t.thread i).InRecv = true
    · obtain ⟨i, hi⟩ := hrecv
      obtain ⟨k, hk⟩ := h.of_inRecv hrest hi
      refine .inr ⟨Bool.eq_false_of_not_eq_true fun hclosed => ?_, .inl hnone⟩
      exact CondVar.not_asleep_of_served (fun n => h.readers n (.inl hclosed)) k hk
    · exact .inl fun i => (SyncPc.outside_or _).resolve_right
        (not_or.mpr ⟨fun hi => hsend ⟨i, hi⟩, fun hi => hrecv ⟨i, hi⟩⟩)

/-- Two senders come and one receiver: a value passes, and the other sender waits. -/
theorem sync_meets_two : ∃ s t : SyncChan (Option Bool) ℕ,
    run syncStep unbufferedChanInit [.callRecv none, .callSend true 7, .callSend false 8] = .ret s ∧
    run syncStep s [.thread false ∅, .thread true ∅, .thread true ∅, .thread true ∅,
      .thread none ∅, .thread none {some true}, .thread true ∅, .thread false ∅,
      .thread false ∅] = .ret t ∧
    t.taken = [7] ∧ t.thread false = .sendSleeps 8 ∧
    9 ≤ 3 * (3 + 3) ∧ ((∀ i, (t.thread i).Outside = true) ∨ t.closed = false ∧
        ((∀ i, (t.thread i).InSend = false) ∨ ∀ i, (t.thread i).InRecv = false)) := by
  have hrun : (run syncStep (unbufferedChanInit : SyncChan (Option Bool) ℕ)
      [.callRecv none, .callSend true 7, .callSend false 8] >>= fun s =>
      run syncStep s [.thread false ∅, .thread true ∅, .thread true ∅, .thread true ∅,
        .thread none ∅, .thread none {some true}, .thread true ∅, .thread false ∅,
        .thread false ∅] >>= fun t =>
          .ret (t.taken, t.thread none, t.thread true, t.thread false)) =
      .ret ([7], .received 0 (some 7), .sent 0, .sendSleeps 8) := by decide
  obtain ⟨s, hs, hrun⟩ := Outcome.bind_eq_ret.mp hrun
  obtain ⟨t, ht, hlast⟩ := Outcome.bind_eq_ret.mp hrun
  obtain ⟨htaken, hlast⟩ := Prod.mk.inj (Outcome.ret.inj hlast)
  obtain ⟨hreceiver, hlast⟩ := Prod.mk.inj hlast
  obtain ⟨htrue, hfalse⟩ := Prod.mk.inj hlast
  have hrest : t.AtRest := fun i woken t' hstep => by
    rw [syncStep, SyncChan.threadStep] at hstep
    cases i with
    | none => rw [hreceiver] at hstep; contradiction
    | some b =>
      cases b with
      | true => rw [htrue] at hstep; contradiction
      | false => rw [hfalse] at hstep; contradiction
  have hmeets := sync_meets (by simp [SyncEvent.isCalm]) hs (by simp [SyncEvent.isThread]) ht
  exact ⟨s, t, hs, ht, htaken, hfalse, hmeets.1, hmeets.2 hrest⟩

end TrivalTcp
