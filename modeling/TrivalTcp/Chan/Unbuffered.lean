import TrivalTcp.Foundations.CondVar
import TrivalTcp.Foundations.Run

/-!
# Chan/Unbuffered — the unbuffered channel (`chan.c`)

A value passes from hand to hand through `chan->data`.  A sender holds `w_mu` from before it offers
its value until it returns, and a receiver holds `r_mu`; between the two, everything happens under
`m_mu`, and one step takes a thread through one critical section of it.

The channel keeps a log of the values offered, of those whose `chan_send` has returned 0, and of
those a `chan_recv` has taken.  Every `chan_recv` is given a place for the value.
-/

namespace TrivalTcp

/-- Where a thread is. -/
inductive SyncPc (α : Type) where
  /-- It has called nothing yet. -/
  | out
  /-- In `chan_send`, at `chan_is_closed`. -/
  | checks (data : α)
  /-- In `unbuffered_chan_send`, about to lock `w_mu`. -/
  | sends (data : α)
  /-- Holding `w_mu`, about to lock `m_mu`. -/
  | sendHolds (data : α)
  /-- Asleep on `w_cond`, holding `w_mu`. -/
  | sendSleeps (data : α)
  /-- Woken, and about to lock `m_mu` again. -/
  | sendWoken (data : α)
  /-- `chan_send` has returned. -/
  | sent (status : ℤ)
  /-- In `unbuffered_chan_recv`, about to lock `r_mu`. -/
  | recvs
  /-- Holding `r_mu`, about to lock `m_mu`. -/
  | recvHolds
  /-- Asleep on `r_cond`, holding `r_mu`. -/
  | recvSleeps
  /-- Woken, and about to lock `m_mu` again. -/
  | recvWoken
  /-- `chan_recv` has returned, with `msg` in `*data`. -/
  | received (status : ℤ) (msg : Option α)
  deriving DecidableEq, Repr

namespace SyncPc

variable {α : Type}

/-- The thread holds `w_mu`. -/
def HoldsW : SyncPc α → Bool
  | sendHolds _ | sendSleeps _ | sendWoken _ => true
  | _ => false

/-- The thread holds `r_mu`. -/
def HoldsR : SyncPc α → Bool
  | recvHolds | recvSleeps | recvWoken => true
  | _ => false

/-- The thread is one of `r_waiting`. -/
def RWaits : SyncPc α → Bool
  | recvSleeps | recvWoken => true
  | _ => false

/-- The thread has offered its value. -/
def Offers : SyncPc α → Bool
  | sendSleeps _ | sendWoken _ => true
  | _ => false

/-- `w_cond`. -/
def wCond (α : Type) : CondVar (SyncPc α) := .ofLooks
  (fun
    | .sendSleeps data => some (.sendWoken data)
    | _ => none)
  (fun
    | .sendWoken _ => true
    | _ => false)
  (fun l => by cases l <;> rfl)

/-- `r_cond`. -/
def rCond (α : Type) : CondVar (SyncPc α) := .ofLooks
  (fun
    | .recvSleeps => some .recvWoken
    | _ => none)
  (fun
    | .recvHolds | .recvWoken => true
    | _ => false)
  (fun l => by cases l <;> rfl)

theorem asleep_wCond {l : SyncPc α} (h : (wCond α).Asleep l) : ∃ data, l = .sendSleeps data := by
  cases l with
  | sendSleeps data => exact ⟨data, rfl⟩
  | _ => exact absurd h Bool.false_ne_true

theorem asleep_rCond {l : SyncPc α} (h : (rCond α).Asleep l) : l = .recvSleeps := by
  cases l with
  | recvSleeps => rfl
  | _ => exact absurd h Bool.false_ne_true

end SyncPc

/-- `chan_t` of an unbuffered channel, with the log. -/
structure SyncChan (ι α : Type) where
  /-- `NULL` until a value is offered. -/
  data : Option α
  closed : Bool
  rWaiting : ℤ
  wWaiting : ℤ
  /-- `w_mu` is held. -/
  wMu : Bool
  /-- `r_mu` is held. -/
  rMu : Bool
  thread : ι → SyncPc α
  offered : List α
  taken : List α
  returned : List α

/-- What can happen to a channel.  `woken` are the threads the system wakes if the step signals
`r_cond` or `w_cond`. -/
inductive SyncEvent (ι α : Type) where
  | callSend (i : ι) (data : α)
  | callRecv (i : ι)
  | thread (i : ι) (woken : Finset ι)
  /-- `chan_close` is called. -/
  | close
  /-- Threads wake without a signal. -/
  | spurious (writers readers : Finset ι)

variable {ι α : Type} [Fintype ι] [DecidableEq ι]

omit [Fintype ι] [DecidableEq ι] in
/-- `chan_init` of an unbuffered channel, as long as there is memory. -/
def unbufferedChanInit : SyncChan ι α where
  data := none
  closed := false
  rWaiting := 0
  wWaiting := 0
  wMu := false
  rMu := false
  thread _ := .out
  offered := []
  taken := []
  returned := []

namespace SyncChan

variable (s : SyncChan ι α)

/-- Thread `i` goes on at `pc`. -/
def goto (i : ι) (pc : SyncPc α) : SyncChan ι α :=
  { s with thread := Function.update s.thread i pc }

/-- `pthread_cond_signal`. -/
def signal (cv : CondVar (SyncPc α)) (woken : Finset ι) : Outcome (SyncChan ι α) :=
  if cv.Signals woken s.thread then .ret { s with thread := cv.wake woken s.thread } else .blocked

/-- `chan_close`: the channel, and the returned status. -/
def chanClose : SyncChan ι α × ℤ :=
  if s.closed then
    (s, -1)
  else
    ({ s with
      closed := true
      thread := (SyncPc.wCond α).wakeAll ((SyncPc.rCond α).wakeAll s.thread) }, 0)

/-- `unbuffered_chan_send` of thread `i`, from where it holds both mutexes to where it sleeps. -/
def unbufferedChanSend (i : ι) (data : α) (woken : Finset ι) : Outcome (SyncChan ι α) :=
  if s.closed then
    .ret ({ s with wMu := false }.goto i (.sent (-1)))
  else
    let s := { s with
      data := some data
      wWaiting := s.wWaiting + 1
      offered := s.offered ++ [data] }.goto i (.sendSleeps data)
    if 0 < s.rWaiting then s.signal (SyncPc.rCond α) woken else .ret s

/-- `unbuffered_chan_recv` of thread `i`, from where it holds both mutexes. -/
def unbufferedChanRecv (i : ι) (woken : Finset ι) : Outcome (SyncChan ι α) :=
  if s.closed = false ∧ s.wWaiting = 0 then
    .ret ({ s with rWaiting := s.rWaiting + 1 }.goto i .recvSleeps)
  else if s.closed then
    .ret ({ s with rMu := false }.goto i (.received (-1) none))
  else
    let s := { s with
      wWaiting := s.wWaiting - 1
      rMu := false
      taken := s.taken ++ s.data.toList }.goto i (.received 0 s.data)
    s.signal (SyncPc.wCond α) woken

/-- The next step of thread `i`. -/
def threadStep (i : ι) (woken : Finset ι) : Outcome (SyncChan ι α) :=
  match s.thread i with
  | .checks data => .ret (s.goto i (if s.closed then .sent (-1) else .sends data))
  | .sends data =>
    if s.wMu then .blocked else .ret ({ s with wMu := true }.goto i (.sendHolds data))
  | .sendHolds data => s.unbufferedChanSend i data woken
  -- whatever has woken it, the sender does not look again
  | .sendWoken data =>
    .ret ({ s with wMu := false, returned := s.returned ++ [data] }.goto i (.sent 0))
  | .recvs => if s.rMu then .blocked else .ret ({ s with rMu := true }.goto i .recvHolds)
  | .recvHolds => s.unbufferedChanRecv i woken
  | .recvWoken => { s with rWaiting := s.rWaiting - 1 }.unbufferedChanRecv i woken
  | .out | .sendSleeps _ | .sent _ | .recvSleeps | .received .. => .blocked

/-- Thread `i` is outside and calls something. -/
def call (i : ι) (pc : SyncPc α) : Outcome (SyncChan ι α) :=
  match s.thread i with
  | .out | .sent _ | .received .. => .ret (s.goto i pc)
  | _ => .blocked

end SyncChan

/-- One step of the threads that share an unbuffered channel. -/
def syncStep (s : SyncChan ι α) : SyncEvent ι α → Outcome (SyncChan ι α)
  | .callSend i data => s.call i (.checks data)
  | .callRecv i => s.call i .recvs
  | .thread i woken => s.threadStep i woken
  | .close => .ret s.chanClose.1
  | .spurious writers readers =>
    .ret { s with
      thread := (SyncPc.wCond α).wake writers ((SyncPc.rCond α).wake readers s.thread) }

/-! ## What a thread can do -/

namespace SyncChan

variable (s : SyncChan ι α)

/-- A receiver that has been woken is no longer counted as waiting, and tests the condition of its
loop again. -/
def resumed (i : ι) : SyncChan ι α :=
  match s.thread i with
  | .recvWoken => { s with rWaiting := s.rWaiting - 1 }.goto i .recvHolds
  | _ => s

/-- What a signal leaves. -/
def signalled (cv : CondVar (SyncPc α)) (woken : Finset ι) : SyncChan ι α :=
  { s with thread := cv.wake woken s.thread }

/-- Thread `i` has offered a value, and sleeps. -/
def offeredBy (i : ι) (data : α) : SyncChan ι α :=
  { s with
    data := some data
    wWaiting := s.wWaiting + 1
    offered := s.offered ++ [data] }.goto i (.sendSleeps data)

/-- Thread `i` has taken the value that was offered. -/
def takenBy (i : ι) : SyncChan ι α :=
  { s with
    wWaiting := s.wWaiting - 1
    rMu := false
    taken := s.taken ++ s.data.toList }.goto i (.received 0 s.data)

/-- **What thread `i` can do**, with the channel it leaves. -/
inductive ThreadStep (i : ι) : SyncChan ι α → Prop where
  | refused {data : α} (hi : s.thread i = .checks data) (hclosed : s.closed = true) :
      ThreadStep i (s.goto i (.sent (-1)))
  | opened {data : α} (hi : s.thread i = .checks data) (hopen : s.closed = false) :
      ThreadStep i (s.goto i (.sends data))
  | locksW {data : α} (hi : s.thread i = .sends data) (hfree : s.wMu = false) :
      ThreadStep i ({ s with wMu := true }.goto i (.sendHolds data))
  | refusedLate {data : α} (hi : s.thread i = .sendHolds data) (hclosed : s.closed = true) :
      ThreadStep i ({ s with wMu := false }.goto i (.sent (-1)))
  | offers {data : α} (hi : s.thread i = .sendHolds data) (hopen : s.closed = false)
      {woken : Finset ι} (hwoken : (SyncPc.rCond α).Signals woken (s.offeredBy i data).thread) :
      ThreadStep i ((s.offeredBy i data).signalled (SyncPc.rCond α) woken)
  | returns {data : α} (hi : s.thread i = .sendWoken data) :
      ThreadStep i ({ s with wMu := false, returned := s.returned ++ [data] }.goto i (.sent 0))
  | locksR (hi : s.thread i = .recvs) (hfree : s.rMu = false) :
      ThreadStep i ({ s with rMu := true }.goto i .recvHolds)
  | empty (hi : s.thread i = .recvHolds) (hopen : s.closed = false) (hnone : s.wWaiting = 0) :
      ThreadStep i ({ s with rWaiting := s.rWaiting + 1 }.goto i .recvSleeps)
  | ended (hi : s.thread i = .recvHolds) (hclosed : s.closed = true) :
      ThreadStep i ({ s with rMu := false }.goto i (.received (-1) none))
  | takes (hi : s.thread i = .recvHolds) (hopen : s.closed = false) (hsome : s.wWaiting ≠ 0)
      {woken : Finset ι} (hwoken : (SyncPc.wCond α).Signals woken (s.takenBy i).thread) :
      ThreadStep i ((s.takenBy i).signalled (SyncPc.wCond α) woken)

variable {s} {t : SyncChan ι α} {i : ι} {woken : Finset ι}

omit [Fintype ι] in
theorem goto_thread_self (s : SyncChan ι α) (i : ι) (pc : SyncPc α) : (s.goto i pc).thread i = pc :=
  Function.update_self _ _ _

omit [Fintype ι] in
theorem goto_thread_of_ne (s : SyncChan ι α) {i j : ι} (hj : j ≠ i) (pc : SyncPc α) :
    (s.goto i pc).thread j = s.thread j := Function.update_of_ne hj _ _

omit [Fintype ι] in
theorem signalled_empty (s : SyncChan ι α) (cv : CondVar (SyncPc α)) : s.signalled cv ∅ = s := by
  rw [signalled, CondVar.wake_empty]

theorem signal_eq_ret {cv : CondVar (SyncPc α)} : s.signal cv woken = .ret t ↔
    cv.Signals woken s.thread ∧ t = s.signalled cv woken := by
  rw [signal]
  split_ifs with h
  · exact ⟨fun hs => ⟨h, (Outcome.ret.inj hs).symm⟩, fun hs => congrArg Outcome.ret hs.2.symm⟩
  · exact ⟨fun hs => by contradiction, fun hs => absurd hs.1 h⟩

/-- Where a thread is when it holds `m_mu` makes no difference. -/
theorem unbufferedChanRecv_goto (s : SyncChan ι α) (pc : SyncPc α) (woken : Finset ι) :
    (s.goto i pc).unbufferedChanRecv i woken = s.unbufferedChanRecv i woken := by
  simp only [unbufferedChanRecv, goto, Function.update_idem]

/-- **A woken receiver** does what it would have done without having slept. -/
theorem threadStep_resumed (s : SyncChan ι α) (i : ι) (woken : Finset ι) :
    (s.resumed i).threadStep i woken = s.threadStep i woken := by
  cases hi : s.thread i with
  | recvWoken => simp only [resumed, hi, threadStep, goto_thread_self, unbufferedChanRecv_goto]
  | _ => simp only [resumed, hi]

omit [Fintype ι] in
/-- Who has resumed is no longer woken. -/
theorem resumed_thread (s : SyncChan ι α) (i : ι) : (s.resumed i).thread i ≠ .recvWoken := by
  cases hi : s.thread i <;> simp [resumed, hi, goto_thread_self]

omit [DecidableEq ι] in
/-- Where nobody waits, nobody sleeps. -/
theorem not_asleep_rCond {waiting : ℤ} {thread : ι → SyncPc α}
    (h : waiting = tally (SyncPc.RWaits · = true) thread) (hnone : ¬ 0 < waiting) (i : ι) :
    ¬ (SyncPc.rCond α).Asleep (thread i) := by
  intro hi
  have hzero : tally (SyncPc.RWaits · = true) thread = 0 := by omega
  exact tally_eq_zero.mp hzero i (by rw [SyncPc.asleep_rCond hi]; rfl)

theorem unbufferedChanSend_cases
    (hcount : s.rWaiting = tally (SyncPc.RWaits · = true) s.thread) {data : α}
    (hi : s.thread i = .sendHolds data) (hs : s.unbufferedChanSend i data woken = .ret t) :
    s.ThreadStep i t := by
  rw [unbufferedChanSend] at hs
  split_ifs at hs with hclosed
  · obtain rfl := Outcome.ret.inj hs
    exact .refusedLate hi hclosed
  · have hopen := Bool.eq_false_of_not_eq_true hclosed
    dsimp only at hs
    split_ifs at hs with hsome
    · obtain ⟨hwoken, rfl⟩ := signal_eq_ret.mp hs
      exact .offers hi hopen hwoken
    · obtain rfl := Outcome.ret.inj hs
      have hcount' : s.rWaiting = tally (SyncPc.RWaits · = true) (s.offeredBy i data).thread := by
        rw [hcount]
        exact congrArg Nat.cast (tally_update_same (by rw [hi]; simp [SyncPc.RWaits])).symm
      have hwoken := CondVar.signals_empty (not_asleep_rCond hcount' hsome)
      have hstep := ThreadStep.offers hi hopen hwoken
      rwa [signalled_empty] at hstep

theorem unbufferedChanRecv_cases (hi : s.thread i = .recvHolds)
    (hs : s.unbufferedChanRecv i woken = .ret t) : s.ThreadStep i t := by
  rw [unbufferedChanRecv] at hs
  split_ifs at hs with hnone hclosed
  · obtain rfl := Outcome.ret.inj hs
    exact .empty hi hnone.1 hnone.2
  · obtain rfl := Outcome.ret.inj hs
    exact .ended hi hclosed
  · have hopen := Bool.eq_false_of_not_eq_true hclosed
    obtain ⟨hwoken, rfl⟩ := signal_eq_ret.mp hs
    exact .takes hi hopen (fun hzero => hnone ⟨hopen, hzero⟩) hwoken

/-- **A step of a thread is one of these**, from where it is once it has resumed. -/
theorem threadStep_cases
    (hcount : (s.resumed i).rWaiting = tally (SyncPc.RWaits · = true) (s.resumed i).thread)
    (hs : s.threadStep i woken = .ret t) : (s.resumed i).ThreadStep i t := by
  rw [← threadStep_resumed, threadStep] at hs
  split at hs
  next data hi =>
    obtain rfl := Outcome.ret.inj hs
    cases hclosed : (s.resumed i).closed with
    | true => exact .refused hi hclosed
    | false => exact .opened hi hclosed
  next data hi =>
    split_ifs at hs with hfree
    obtain rfl := Outcome.ret.inj hs
    exact .locksW hi (Bool.eq_false_of_not_eq_true hfree)
  next data hi => exact unbufferedChanSend_cases hcount hi hs
  next data hi =>
    obtain rfl := Outcome.ret.inj hs
    exact .returns hi
  next hi =>
    split_ifs at hs with hfree
    obtain rfl := Outcome.ret.inj hs
    exact .locksR hi (Bool.eq_false_of_not_eq_true hfree)
  next hi => exact unbufferedChanRecv_cases hi hs
  next hi => exact absurd hi (resumed_thread s i)
  all_goals contradiction

end SyncChan

end TrivalTcp
