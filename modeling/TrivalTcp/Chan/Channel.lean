import TrivalTcp.Chan.Queue
import TrivalTcp.Foundations.CondVar

/-!
# Chan/Channel — the buffered channel (`chan.c`)

`ι` are the threads that share a channel.  One step takes a thread through one critical section of
`m_mu`, up to the unlock or to a `pthread_cond_wait`; a thread that has been woken locks again, and
tests the condition of its loop again.

The channel keeps a log of the values whose `chan_send` has returned 0, and of those a `chan_recv`
has returned, in the order in which that happened.  Every `chan_recv` is given a place for the value.
-/

namespace TrivalTcp

/-- Where a thread is. -/
inductive ChanPc (α : Type) where
  /-- It has called nothing yet. -/
  | out
  /-- In `chan_send`, at `chan_is_closed`. -/
  | checks (data : α)
  /-- In `buffered_chan_send`, about to lock `m_mu`. -/
  | sends (data : α)
  /-- Asleep on `w_cond`. -/
  | sendSleeps (data : α)
  /-- Woken, and about to lock `m_mu` again. -/
  | sendWoken (data : α)
  /-- `chan_send` has returned. -/
  | sent (status : ℤ)
  /-- In `buffered_chan_recv`, about to lock `m_mu`. -/
  | recvs
  /-- Asleep on `r_cond`. -/
  | recvSleeps
  /-- Woken, and about to lock `m_mu` again. -/
  | recvWoken
  /-- `chan_recv` has returned, with `msg` in `*data`. -/
  | received (status : ℤ) (msg : Option α)
  deriving DecidableEq, Repr

namespace ChanPc

variable {α : Type}

/-- The thread is one of `w_waiting`. -/
def WWaits : ChanPc α → Bool
  | sendSleeps _ | sendWoken _ => true
  | _ => false

/-- The thread is one of `r_waiting`. -/
def RWaits : ChanPc α → Bool
  | recvSleeps | recvWoken => true
  | _ => false

end ChanPc

/-- `w_cond`. -/
def wCond (α : Type) : CondVar (ChanPc α) := .ofLooks
  (fun
    | .sendSleeps data => some (.sendWoken data)
    | _ => none)
  (fun
    | .sends _ | .sendWoken _ => true
    | _ => false)
  (fun l => by cases l <;> rfl)

/-- `r_cond`. -/
def rCond (α : Type) : CondVar (ChanPc α) := .ofLooks
  (fun
    | .recvSleeps => some .recvWoken
    | _ => none)
  (fun
    | .recvs | .recvWoken => true
    | _ => false)
  (fun l => by cases l <;> rfl)

/-- `chan_t` of a buffered channel, with the log. -/
structure Chan (ι α : Type) where
  queue : Queue α
  closed : Bool
  rWaiting : ℤ
  wWaiting : ℤ
  thread : ι → ChanPc α
  sent : List α
  received : List α

/-- What can happen to a channel.  `woken` are the threads the system wakes if the step signals
`r_cond` or `w_cond`. -/
inductive ChanEvent (ι α : Type) where
  | callSend (i : ι) (data : α)
  | callRecv (i : ι)
  | thread (i : ι) (woken : Finset ι)
  /-- `chan_close` is called. -/
  | close
  /-- Threads wake without a signal. -/
  | spurious (writers readers : Finset ι)

variable {ι α : Type} [Fintype ι] [DecidableEq ι]

omit [Fintype ι] [DecidableEq ι] in
/-- `chan_init`, of a buffered channel, as long as there is memory. -/
def chanInit (capacity : ℕ) : Option (Chan ι α) :=
  (queueInit capacity).map fun queue =>
    { queue, closed := false, rWaiting := 0, wWaiting := 0, thread _ := .out,
      sent := [], received := [] }

namespace Chan

variable (s : Chan ι α)

/-- Thread `i` goes on at `pc`. -/
def goto (i : ι) (pc : ChanPc α) : Chan ι α :=
  { s with thread := Function.update s.thread i pc }

/-- `pthread_cond_signal`. -/
def signal (cv : CondVar (ChanPc α)) (woken : Finset ι) : Outcome (Chan ι α) :=
  if cv.Signals woken s.thread then .ret { s with thread := cv.wake woken s.thread } else .blocked

/-- `chan_close`: the channel, and the returned status. -/
def chanClose : Chan ι α × ℤ :=
  if s.closed then
    (s, -1)
  else
    ({ s with closed := true, thread := (wCond α).wakeAll ((rCond α).wakeAll s.thread) }, 0)

/-- `buffered_chan_send` of thread `i`, from where it holds `m_mu`. -/
def bufferedChanSend (i : ι) (data : α) (woken : Finset ι) : Outcome (Chan ι α) :=
  if s.queue.size = s.queue.capacity then
    .ret ({ s with wWaiting := s.wWaiting + 1 }.goto i (.sendSleeps data))
  else
    queueAdd s.queue data >>= fun (queue, success) =>
      let sent := if success = 0 then s.sent ++ [data] else s.sent
      let s := { s with queue, sent }.goto i (.sent success)
      if 0 < s.rWaiting then s.signal (rCond α) woken else .ret s

/-- `buffered_chan_recv` of thread `i`, from where it holds `m_mu`. -/
def bufferedChanRecv (i : ι) (woken : Finset ι) : Outcome (Chan ι α) :=
  if s.queue.size = 0 then
    if s.closed then
      .ret (s.goto i (.received (-1) none))
    else
      .ret ({ s with rWaiting := s.rWaiting + 1 }.goto i .recvSleeps)
  else
    queueRemove s.queue >>= fun (queue, msg) =>
      let s := { s with queue, received := s.received ++ msg.toList }.goto i (.received 0 msg)
      if 0 < s.wWaiting then s.signal (wCond α) woken else .ret s

/-- The next step of thread `i`. -/
def threadStep (i : ι) (woken : Finset ι) : Outcome (Chan ι α) :=
  match s.thread i with
  | .checks data => .ret (s.goto i (if s.closed then .sent (-1) else .sends data))
  | .sends data => s.bufferedChanSend i data woken
  | .sendWoken data => { s with wWaiting := s.wWaiting - 1 }.bufferedChanSend i data woken
  | .recvs => s.bufferedChanRecv i woken
  | .recvWoken => { s with rWaiting := s.rWaiting - 1 }.bufferedChanRecv i woken
  | .out | .sendSleeps _ | .sent _ | .recvSleeps | .received .. => .blocked

/-- Thread `i` is outside and calls something. -/
def call (i : ι) (pc : ChanPc α) : Outcome (Chan ι α) :=
  match s.thread i with
  | .out | .sent _ | .received .. => .ret (s.goto i pc)
  | _ => .blocked

end Chan

/-- One step of the threads that share a channel. -/
def chanStep (s : Chan ι α) : ChanEvent ι α → Outcome (Chan ι α)
  | .callSend i data => s.call i (.checks data)
  | .callRecv i => s.call i .recvs
  | .thread i woken => s.threadStep i woken
  | .close => .ret s.chanClose.1
  | .spurious writers readers =>
    .ret { s with thread := (wCond α).wake writers ((rCond α).wake readers s.thread) }

/-! ## What a thread can do -/

namespace Chan

variable (s : Chan ι α)

omit [Fintype ι] in
theorem goto_thread_self (i : ι) (pc : ChanPc α) : (s.goto i pc).thread i = pc :=
  Function.update_self _ _ _

/-- A thread that has been woken is no longer counted as waiting, and is where it was before it
fell asleep. -/
def resumed (i : ι) : Chan ι α :=
  match s.thread i with
  | .sendWoken data => { s with wWaiting := s.wWaiting - 1 }.goto i (.sends data)
  | .recvWoken => { s with rWaiting := s.rWaiting - 1 }.goto i .recvs
  | _ => s

/-- What a signal leaves. -/
def signalled (cv : CondVar (ChanPc α)) (woken : Finset ι) : Chan ι α :=
  { s with thread := cv.wake woken s.thread }

/-- Thread `i` has sent a value. -/
def sentBy (i : ι) (data : α) (queue : Queue α) : Chan ι α :=
  { s with queue, sent := s.sent ++ [data] }.goto i (.sent 0)

/-- Thread `i` has received a value. -/
def receivedBy (i : ι) (data : α) (queue : Queue α) : Chan ι α :=
  { s with queue, received := s.received ++ [data] }.goto i (.received 0 (some data))

/-- **What thread `i` can do**, with the channel it leaves, where the queue holds `items`. -/
inductive ThreadStep (items : List α) (i : ι) : Chan ι α → Prop where
  | refused {data : α} (hi : s.thread i = .checks data) (hclosed : s.closed = true) :
      ThreadStep items i (s.goto i (.sent (-1)))
  | opened {data : α} (hi : s.thread i = .checks data) (hopen : s.closed = false) :
      ThreadStep items i (s.goto i (.sends data))
  | full {data : α} (hi : s.thread i = .sends data) (hfull : items.length = s.queue.capacity) :
      ThreadStep items i ({ s with wWaiting := s.wWaiting + 1 }.goto i (.sendSleeps data))
  | sends {data : α} {queue : Queue α} (hi : s.thread i = .sends data)
      (hroom : items.length < s.queue.capacity) (hqueue : queue.Holds (items ++ [data]))
      (hcap : queue.capacity = s.queue.capacity) (hnone : ¬ 0 < s.rWaiting) :
      ThreadStep items i (s.sentBy i data queue)
  | sendsSignals {data : α} {queue : Queue α} (hi : s.thread i = .sends data)
      (hroom : items.length < s.queue.capacity) (hqueue : queue.Holds (items ++ [data]))
      (hcap : queue.capacity = s.queue.capacity) {woken : Finset ι}
      (hwoken : (rCond α).Signals woken (s.sentBy i data queue).thread) :
      ThreadStep items i ((s.sentBy i data queue).signalled (rCond α) woken)
  | ended (hi : s.thread i = .recvs) (hnil : items = []) (hclosed : s.closed = true) :
      ThreadStep items i (s.goto i (.received (-1) none))
  | empty (hi : s.thread i = .recvs) (hnil : items = []) (hopen : s.closed = false) :
      ThreadStep items i ({ s with rWaiting := s.rWaiting + 1 }.goto i .recvSleeps)
  | receives {data : α} {rest : List α} {queue : Queue α} (hi : s.thread i = .recvs)
      (hcons : items = data :: rest) (hqueue : queue.Holds rest)
      (hcap : queue.capacity = s.queue.capacity) (hnone : ¬ 0 < s.wWaiting) :
      ThreadStep items i (s.receivedBy i data queue)
  | receivesSignals {data : α} {rest : List α} {queue : Queue α} (hi : s.thread i = .recvs)
      (hcons : items = data :: rest) (hqueue : queue.Holds rest)
      (hcap : queue.capacity = s.queue.capacity) {woken : Finset ι}
      (hwoken : (wCond α).Signals woken (s.receivedBy i data queue).thread) :
      ThreadStep items i ((s.receivedBy i data queue).signalled (wCond α) woken)

variable {s} {t : Chan ι α} {items : List α} {i : ι} {woken : Finset ι}

theorem signal_eq_ret {cv : CondVar (ChanPc α)} : s.signal cv woken = .ret t ↔
    cv.Signals woken s.thread ∧ t = s.signalled cv woken := by
  rw [signal]
  split_ifs with h
  · exact ⟨fun hs => ⟨h, (Outcome.ret.inj hs).symm⟩, fun hs => congrArg Outcome.ret hs.2.symm⟩
  · exact ⟨fun hs => by contradiction, fun hs => absurd hs.1 h⟩

/-- Where a thread is when it holds `m_mu` makes no difference. -/
theorem bufferedChanSend_goto (s : Chan ι α) (pc : ChanPc α) (data : α) (woken : Finset ι) :
    (s.goto i pc).bufferedChanSend i data woken = s.bufferedChanSend i data woken := by
  simp only [bufferedChanSend, goto, Function.update_idem]
  rfl

theorem bufferedChanRecv_goto (s : Chan ι α) (pc : ChanPc α) (woken : Finset ι) :
    (s.goto i pc).bufferedChanRecv i woken = s.bufferedChanRecv i woken := by
  simp only [bufferedChanRecv, goto, Function.update_idem]
  rfl

/-- **A woken thread** does what it would have done without having slept. -/
theorem threadStep_resumed (s : Chan ι α) (i : ι) (woken : Finset ι) :
    (s.resumed i).threadStep i woken = s.threadStep i woken := by
  cases hi : s.thread i with
  | sendWoken data =>
    simp only [resumed, hi, threadStep, goto_thread_self, bufferedChanSend_goto]
  | recvWoken =>
    simp only [resumed, hi, threadStep, goto_thread_self, bufferedChanRecv_goto]
  | _ => simp only [resumed, hi]

/-- A signal that is given only if somebody waits. -/
theorem signal_cases {cv : CondVar (ChanPc α)} {waiting : ℤ}
    (h : (if 0 < waiting then s.signal cv woken else .ret s) = .ret t) :
    (¬ 0 < waiting ∧ t = s) ∨ cv.Signals woken s.thread ∧ t = s.signalled cv woken := by
  split_ifs at h with hpos
  · exact .inr (signal_eq_ret.mp h)
  · exact .inl ⟨hpos, (Outcome.ret.inj h).symm⟩

theorem bufferedChanSend_cases (h : s.queue.Holds items) {data : α} (hi : s.thread i = .sends data)
    (hs : s.bufferedChanSend i data woken = .ret t) : s.ThreadStep items i t := by
  rw [bufferedChanSend] at hs
  split_ifs at hs with hfull
  · obtain rfl := Outcome.ret.inj hs
    exact .full hi (h.size.symm.trans hfull)
  · have hroom : items.length < s.queue.capacity :=
      h.length_le.lt_of_ne fun heq => hfull (h.size.trans heq)
    obtain ⟨queue, hadd, hqueue, hcap⟩ := h.queueAdd_of_lt hroom data
    rw [hadd] at hs
    rcases signal_cases hs with ⟨hnone, rfl⟩ | ⟨hwoken, rfl⟩
    · exact .sends hi hroom hqueue hcap hnone
    · exact .sendsSignals hi hroom hqueue hcap hwoken

theorem bufferedChanRecv_cases (h : s.queue.Holds items) (hi : s.thread i = .recvs)
    (hs : s.bufferedChanRecv i woken = .ret t) : s.ThreadStep items i t := by
  rw [bufferedChanRecv, h.size] at hs
  cases items with
  | nil =>
    rw [if_pos List.length_nil] at hs
    split_ifs at hs with hclosed
    · obtain rfl := Outcome.ret.inj hs
      exact .ended hi rfl hclosed
    · obtain rfl := Outcome.ret.inj hs
      exact .empty hi rfl (Bool.not_eq_true _ ▸ hclosed)
  | cons data rest =>
    rw [if_neg (by simp)] at hs
    obtain ⟨queue, hremove, hqueue, hcap⟩ := h.queueRemove_of_cons
    rw [hremove] at hs
    rcases signal_cases hs with ⟨hnone, rfl⟩ | ⟨hwoken, rfl⟩
    · exact .receives hi rfl hqueue hcap hnone
    · exact .receivesSignals hi rfl hqueue hcap hwoken

omit [Fintype ι] in
@[simp] theorem resumed_queue (s : Chan ι α) (i : ι) : (s.resumed i).queue = s.queue := by
  rw [resumed]
  split <;> rfl

omit [Fintype ι] in
/-- Who has resumed is no longer woken. -/
theorem resumed_thread (s : Chan ι α) (i : ι) :
    (∀ data, (s.resumed i).thread i ≠ .sendWoken data) ∧ (s.resumed i).thread i ≠ .recvWoken := by
  cases hi : s.thread i <;> simp [resumed, hi, goto_thread_self]

/-- **A step of a thread is one of these**, from where it is once it has resumed. -/
theorem threadStep_cases (h : s.queue.Holds items) (hs : s.threadStep i woken = .ret t) :
    (s.resumed i).ThreadStep items i t := by
  have hqueue : (s.resumed i).queue.Holds items := (resumed_queue s i).symm ▸ h
  rw [← threadStep_resumed, threadStep] at hs
  split at hs
  next data hi =>
    obtain rfl := Outcome.ret.inj hs
    cases hclosed : (s.resumed i).closed with
    | true => exact .refused hi hclosed
    | false => exact .opened hi hclosed
  next data hi => exact bufferedChanSend_cases hqueue hi hs
  next data hi => exact absurd hi ((resumed_thread s i).1 data)
  next hi => exact bufferedChanRecv_cases hqueue hi hs
  next hi => exact absurd hi (resumed_thread s i).2
  all_goals contradiction

end Chan

end TrivalTcp
