import TrivalTcp.Chan.Buffered

/-!
# Chan/Wakes — nobody sleeps on a channel without a reason

`ChanLive` says of both condition variables that nothing lies in the channel for which all its
threads are asleep.  A sender wakes a receiver for each value, and a receiver a sender for each free
place, so that a thread that comes first and takes what another was woken for does no harm.

* `chan_wakes` — left alone, the threads go on for a bounded number of steps only, and then only
  receivers of an empty open channel and senders into a full one are asleep.
-/

namespace TrivalTcp

variable {ι α : Type} [Fintype ι] {capacity : ℕ}

/-! ## The two condition variables -/

section Wake

variable {n : ℕ} {pc : ι → ChanPc α}

/-- Where `w_waiting` is 0, no sender sleeps. -/
theorem not_asleep_wCond {waiting : ℤ} (h : waiting = tally (ChanPc.WWaits · = true) pc)
    (hnone : ¬ 0 < waiting) (i : ι) : ¬ (wCond α).Asleep (pc i) := by
  have hzero : tally (ChanPc.WWaits · = true) pc = 0 := by omega
  intro hi
  obtain ⟨data, hsleep⟩ := asleep_wCond hi
  exact tally_eq_zero.mp hzero i (congrArg ChanPc.WWaits hsleep)

/-- Where `r_waiting` is 0, no receiver sleeps. -/
theorem not_asleep_rCond {waiting : ℤ} (h : waiting = tally (ChanPc.RWaits · = true) pc)
    (hnone : ¬ 0 < waiting) (i : ι) : ¬ (rCond α).Asleep (pc i) := by
  have hzero : tally (ChanPc.RWaits · = true) pc = 0 := by omega
  exact fun hi => tally_eq_zero.mp hzero i (congrArg ChanPc.RWaits (asleep_rCond hi))

variable [DecidableEq ι]

/-- Waking a receiver makes no difference to the senders. -/
theorem served_wCond_wake (h : (wCond α).Served n pc) (woken : Finset ι) :
    (wCond α).Served n ((rCond α).wake woken pc) :=
  h.wake_other (fun l hl => by rw [asleep_rCond hl]; exact id)
    (fun l hl => by rw [asleep_rCond hl]; exact Bool.false_ne_true.elim) woken

/-- Waking a sender makes no difference to the receivers. -/
theorem served_rCond_wake (h : (rCond α).Served n pc) (woken : Finset ι) :
    (rCond α).Served n ((wCond α).wake woken pc) :=
  h.wake_other (fun l hl => by obtain ⟨data, rfl⟩ := asleep_wCond hl; exact id)
    (fun l hl => by obtain ⟨data, rfl⟩ := asleep_wCond hl; exact Bool.false_ne_true.elim) woken

end Wake

/-! ## The invariant -/

/-- **No wake-up is lost.**  The values are seen to by the receivers, and the free places by the
senders; on a closed channel the receivers see to anything. -/
structure ChanLive (capacity : ℕ) (s : Chan ι α) (items : List α) : Prop where
  ok : ChanOk capacity s items
  readers : ∀ n, s.closed = true ∨ n ≤ items.length → (rCond α).Served n s.thread
  writers : (wCond α).Served (capacity - items.length) s.thread

theorem chanLive_init {s : Chan ι α} (hpos : 0 < capacity) (h : chanInit capacity = some s) :
    ChanLive capacity s [] := by
  have hok := chanOk_init hpos h
  obtain ⟨queue, -, rfl⟩ := Option.map_eq_some_iff.mp h
  exact ⟨hok, fun _ _ => .inl fun _ => Bool.false_ne_true, .inl fun _ => Bool.false_ne_true⟩

namespace ChanLive

variable [DecidableEq ι] {s t : Chan ι α} {items : List α} {i : ι}

/-- A thread goes on, and neither falls asleep nor stops looking. -/
theorem goto (h : ChanLive capacity s items) {old pc : ChanPc α} (hi : s.thread i = old)
    (hok : ChanOk capacity (t.goto i pc) items) (hclosed : t.closed = s.closed)
    (hthread : t.thread = s.thread)
    (hr : ((rCond α).Asleep pc → (rCond α).Asleep old) ∧
      ((rCond α).looking old → (rCond α).looking pc))
    (hw : ((wCond α).Asleep pc → (wCond α).Asleep old) ∧
      ((wCond α).looking old → (wCond α).looking pc)) : ChanLive capacity (t.goto i pc) items where
  ok := hok
  readers n hn := by
    change (rCond α).Served n (Function.update t.thread i pc)
    rw [hthread]
    subst hi
    exact (h.readers n (hclosed ▸ hn)).update hr.1 hr.2
  writers := by
    change (wCond α).Served _ (Function.update t.thread i pc)
    rw [hthread]
    subst hi
    exact h.writers.update hw.1 hw.2

theorem resumed (h : ChanLive capacity s items) (i : ι) : ChanLive capacity (s.resumed i) items := by
  have hok := h.ok.resumed i
  rw [Chan.resumed] at hok ⊢
  split
  next data hi =>
    simp only [hi] at hok
    exact h.goto hi hok rfl rfl ⟨id, id⟩ ⟨id, fun _ => rfl⟩
  next hi =>
    simp only [hi] at hok
    exact h.goto hi hok rfl rfl ⟨id, fun _ => rfl⟩ ⟨id, id⟩
  next => exact h

/-- **A value has been sent**, and a receiver is woken unless none sleeps. -/
theorem sentBy (h : ChanLive capacity s items) {data : α} (hi : s.thread i = .sends data)
    (hroom : items.length < capacity) {queue : Queue α} {woken : Finset ι}
    (hok : ChanOk capacity ((s.sentBy i data queue).signalled (rCond α) woken) (items ++ [data]))
    (hwoken : (rCond α).Signals woken (s.sentBy i data queue).thread) :
    ChanLive capacity ((s.sentBy i data queue).signalled (rCond α) woken) (items ++ [data]) where
  ok := hok
  readers n hn := by
    rw [List.length_append, List.length_singleton] at hn
    cases n with
    | zero => exact CondVar.served_zero _
    | succ n =>
      have hbefore : (rCond α).Served n (s.sentBy i data queue).thread :=
        (h.readers n (hn.imp id Nat.le_of_succ_le_succ)).update (absurd · Bool.false_ne_true)
          (by rw [hi]; exact Bool.false_ne_true.elim)
      exact hbefore.signal hwoken
  writers := by
    have hone : capacity - items.length = capacity - (items ++ [data]).length + 1 := by
      rw [List.length_append, List.length_singleton]
      omega
    have hbefore := h.writers
    rw [hone] at hbefore
    have hafter : (wCond α).Served _ (s.sentBy i data queue).thread :=
      hbefore.take Bool.false_ne_true
    exact served_wCond_wake hafter woken

/-- **A value has been received**, and a sender is woken unless none sleeps. -/
theorem receivedBy {data : α} {rest : List α} (h : ChanLive capacity s (data :: rest))
    (hi : s.thread i = .recvs) {queue : Queue α} {woken : Finset ι}
    (hok : ChanOk capacity ((s.receivedBy i data queue).signalled (wCond α) woken) rest)
    (hwoken : (wCond α).Signals woken (s.receivedBy i data queue).thread) :
    ChanLive capacity ((s.receivedBy i data queue).signalled (wCond α) woken) rest where
  ok := hok
  readers n hn := by
    have hafter : (rCond α).Served n (s.receivedBy i data queue).thread :=
      (h.readers (n + 1) (hn.imp id Nat.succ_le_succ)).take Bool.false_ne_true
    exact served_rCond_wake hafter woken
  writers := by
    have hle : (data :: rest).length ≤ capacity := h.ok.capacity_eq ▸ h.ok.holds.length_le
    have hone : capacity - rest.length = capacity - (data :: rest).length + 1 := by
      rw [List.length_cons] at hle ⊢
      omega
    have hbefore : (wCond α).Served (capacity - (data :: rest).length)
        (s.receivedBy i data queue).thread :=
      h.writers.update (absurd · Bool.false_ne_true) (by rw [hi]; exact Bool.false_ne_true.elim)
    rw [hone]
    exact hbefore.signal hwoken

omit [Fintype ι] in
/-- Not to signal is to wake nobody. -/
theorem signalled_empty (s : Chan ι α) (cv : CondVar (ChanPc α)) : s.signalled cv ∅ = s :=
  congrArg (fun thread : ι → ChanPc α => { s with thread }) (CondVar.wake_empty cv s.thread)

/-- **One step of a thread.** -/
theorem threadStep (h : ChanLive capacity s items) (hs : s.ThreadStep items i t) :
    ∃ items', ChanLive capacity t items' := by
  cases hs with
  | refused hi hclosed =>
    exact ⟨items, h.goto hi (h.ok.goto_same hi rfl rfl (.inr ⟨rfl, hclosed⟩)) rfl rfl ⟨id, id⟩
      ⟨id, id⟩⟩
  | opened hi =>
    exact ⟨items, h.goto hi (h.ok.goto_same hi rfl rfl trivial) rfl rfl ⟨id, id⟩
      ⟨id, Bool.false_ne_true.elim⟩⟩
  | full hi hfull =>
    -- there is no free place, so that no sender is missed
    refine ⟨items, h.ok.sendSleeps hi, fun n hn => ?_, ?_⟩
    · exact (h.readers n hn).update (absurd · Bool.false_ne_true) (by rw [hi]; exact id)
    · rw [hfull, h.ok.capacity_eq, Nat.sub_self]
      exact CondVar.served_zero _
  | sends hi hroom hqueue hcap hnone =>
    have hok := h.ok.sentBy hi hqueue hcap
    have hsignals := CondVar.signals_empty (not_asleep_rCond hok.rWaiting hnone)
    rw [h.ok.capacity_eq] at hroom
    rw [← signalled_empty (s.sentBy _ _ _) (rCond α)] at hok ⊢
    exact ⟨_, h.sentBy hi hroom hok hsignals⟩
  | sendsSignals hi hroom hqueue hcap hwoken =>
    rw [h.ok.capacity_eq] at hroom
    exact ⟨_, h.sentBy hi hroom ((h.ok.sentBy hi hqueue hcap).signalled harmless_rCond _) hwoken⟩
  | ended hi _ hclosed =>
    refine ⟨items, h.ok.goto_same hi rfl rfl (.inr ⟨rfl, rfl, hclosed⟩), fun n _ => ?_, ?_⟩
    · have hmore := h.readers (n + 1) (.inl hclosed)
      exact hmore.take Bool.false_ne_true
    · exact h.writers.update (absurd · Bool.false_ne_true) (by rw [hi]; exact id)
  | empty hi hnil hopen =>
    -- there is no value, so that no receiver is missed
    refine ⟨items, h.ok.recvSleeps hi, fun n hn => ?_, ?_⟩
    · rw [hnil] at hn
      obtain rfl := Nat.le_zero.mp (hn.resolve_left (by rw [hopen]; exact Bool.false_ne_true))
      exact CondVar.served_zero _
    · exact h.writers.update (absurd · Bool.false_ne_true) (by rw [hi]; exact id)
  | receives hi hcons hqueue hcap hnone =>
    subst hcons
    have hok := h.ok.receivedBy hi hqueue hcap
    have hsignals := CondVar.signals_empty (not_asleep_wCond hok.wWaiting hnone)
    rw [← signalled_empty (s.receivedBy _ _ _) (wCond α)] at hok ⊢
    exact ⟨_, h.receivedBy hi hok hsignals⟩
  | receivesSignals hi hcons hqueue hcap hwoken =>
    subst hcons
    exact ⟨_, h.receivedBy hi ((h.ok.receivedBy hi hqueue hcap).signalled harmless_wCond _) hwoken⟩

/-- A thread that is outside calls something. -/
theorem call (h : ChanLive capacity s items) {pc : ChanPc α} (hs : s.call i pc = .ret t)
    (hok : ChanOk capacity t items) (hr : ¬ (rCond α).Asleep pc) (hw : ¬ (wCond α).Asleep pc) :
    ChanLive capacity t items := by
  rw [Chan.call] at hs
  split at hs
  case h_4 => contradiction
  all_goals
    rename_i hi
    obtain rfl := Outcome.ret.inj hs
    exact h.goto hi hok rfl rfl ⟨(absurd · hr), Bool.false_ne_true.elim⟩
      ⟨(absurd · hw), Bool.false_ne_true.elim⟩

/-- **The channel is closed**, and all are woken. -/
theorem close (h : ChanLive capacity s items) : ChanLive capacity s.chanClose.1 items := by
  have hok := h.ok.close
  rw [Chan.chanClose] at hok ⊢
  split_ifs at hok ⊢ with hclosed
  · exact h
  · refine ⟨hok, fun n _ => ?_, CondVar.served_wakeAll _ _⟩
    rw [CondVar.wakeAll_eq (wCond α)]
    exact served_rCond_wake (CondVar.served_wakeAll n s.thread) Finset.univ

/-- **One step of the channel.** -/
theorem step (h : ChanLive capacity s items) {e : ChanEvent ι α} (hs : chanStep s e = .ret t) :
    ∃ items', ChanLive capacity t items' := by
  cases e with
  | callSend i data =>
    exact ⟨items, h.call hs (h.ok.call hs rfl rfl fun _ _ => trivial) Bool.false_ne_true
      Bool.false_ne_true⟩
  | callRecv i =>
    exact ⟨items, h.call hs (h.ok.call hs rfl rfl fun _ _ => trivial) Bool.false_ne_true
      Bool.false_ne_true⟩
  | thread i woken => exact (h.resumed i).threadStep (Chan.threadStep_cases h.ok.holds hs)
  | close =>
    obtain rfl := Outcome.ret.inj hs
    exact ⟨items, h.close⟩
  | spurious writers readers =>
    obtain rfl := Outcome.ret.inj hs
    exact ⟨items, (h.ok.signalled harmless_rCond readers).signalled harmless_wCond writers,
      fun n hn => served_rCond_wake ((h.readers n hn).wake readers) writers,
      (served_wCond_wake h.writers readers).wake writers⟩

theorem of_reachable (hs : ChanReachable capacity s) : ∃ items, ChanLive capacity s items :=
  hs.invariant (I := fun s => ∃ items, ChanLive capacity s items)
    (fun _ h0 => ⟨[], chanLive_init h0.1 h0.2⟩) fun _ _ _ h hstep => h.choose_spec.step hstep

end ChanLive

/-! ## Left alone -/

section Rest

/-- The thread is in no call. -/
def ChanPc.Outside : ChanPc α → Bool
  | out | sent _ | received .. => true
  | _ => false

/-- Who is outside or asleep does not look. -/
theorem ChanPc.not_looking {l : ChanPc α}
    (h : l.Outside = true ∨ (rCond α).Asleep l ∨ (wCond α).Asleep l) :
    ¬ (rCond α).looking l ∧ ¬ (wCond α).looking l := by
  cases l with
  | out | sent | received | recvSleeps | sendSleeps =>
    exact ⟨Bool.false_ne_true, Bool.false_ne_true⟩
  | _ => rcases h with h | h | h <;> exact absurd h Bool.false_ne_true

/-- A step of a thread that is in a call: nothing is called, and nobody wakes for no reason. -/
def ChanEvent.isThread : ChanEvent ι α → Bool
  | .thread .. => true
  | _ => false

/-- How far a thread of `n` is from the end of its call: whoever completes one may wake all others. -/
def ChanPc.weight (n : ℕ) : ChanPc α → ℕ
  | checks _ => n + 3
  | sends _ | sendWoken _ | recvs | recvWoken => n + 2
  | sendSleeps _ | recvSleeps => n + 1
  | out | sent _ | received .. => 0

namespace Chan

/-- How far the threads are from the ends of their calls. -/
def measure (s : Chan ι α) : ℕ := total (ChanPc.weight (Fintype.card ι)) s.thread

variable [DecidableEq ι] {s t : Chan ι α} {items : List α} {i : ι}

theorem measure_goto (s : Chan ι α) {old : ChanPc α} (hi : s.thread i = old) (pc : ChanPc α) :
    (s.goto i pc).measure + old.weight (Fintype.card ι) =
      s.measure + pc.weight (Fintype.card ι) :=
  hi ▸ total_update (ChanPc.weight (Fintype.card ι)) s.thread i pc

theorem measure_resumed (s : Chan ι α) (i : ι) : (s.resumed i).measure = s.measure := by
  rw [resumed]
  split
  next data hi => exact Nat.add_right_cancel (measure_goto _ hi _)
  next hi => exact Nat.add_right_cancel (measure_goto _ hi _)
  next => rfl

/-- **What a signal costs**: one for each thread it wakes. -/
theorem measure_signalled_le (s : Chan ι α) (cv : CondVar (ChanPc α)) (woken : Finset ι)
    (hcv : ∀ l, cv.Asleep l →
      (cv.up l).weight (Fintype.card ι) ≤ l.weight (Fintype.card ι) + 1) :
    (s.signalled cv woken).measure ≤ s.measure + Fintype.card ι := by
  have hle := cv.total_wake_le hcv woken s.thread
  rwa [mul_one] at hle

theorem measure_goto_le (s : Chan ι α) {old pc : ChanPc α} (hi : s.thread i = old) {k : ℕ}
    (h : pc.weight (Fintype.card ι) + k ≤ old.weight (Fintype.card ι)) :
    (s.goto i pc).measure + k ≤ s.measure := by
  have heq := measure_goto s hi pc
  omega

/-- **Every step of a thread leads towards the ends.** -/
theorem ThreadStep.measure_lt (h : s.ThreadStep items i t) : t.measure + 1 ≤ s.measure := by
  cases h with
  | refused hi => exact measure_goto_le s hi (by simp [ChanPc.weight])
  | opened hi => exact measure_goto_le s hi (by simp [ChanPc.weight])
  | full hi => exact measure_goto_le { s with wWaiting := s.wWaiting + 1 } hi le_rfl
  | sends hi => exact measure_goto_le { s with queue := _, sent := _ } hi (by simp [ChanPc.weight])
  | @sendsSignals data queue hi _ _ _ woken =>
    have hsent : (s.sentBy i data queue).measure + (Fintype.card ι + 2) ≤ s.measure :=
      measure_goto_le { s with queue, sent := s.sent ++ [data] } hi (by simp [ChanPc.weight])
    have hsignal := measure_signalled_le (s.sentBy i data queue) (rCond α) woken fun l hl => by
      rw [asleep_rCond hl]
      exact le_rfl
    omega
  | ended hi => exact measure_goto_le s hi (by simp [ChanPc.weight])
  | empty hi => exact measure_goto_le { s with rWaiting := s.rWaiting + 1 } hi le_rfl
  | receives hi =>
    exact measure_goto_le { s with queue := _, received := _ } hi (by simp [ChanPc.weight])
  | @receivesSignals data rest queue hi _ _ _ woken =>
    have hreceived : (s.receivedBy i data queue).measure + (Fintype.card ι + 2) ≤ s.measure :=
      measure_goto_le { s with queue, received := s.received ++ [data] } hi
        (by simp [ChanPc.weight])
    have hsignal := measure_signalled_le (s.receivedBy i data queue) (wCond α) woken
      fun l hl => by
        obtain ⟨_, rfl⟩ := asleep_wCond hl
        exact le_rfl
    omega

omit [DecidableEq ι] in
/-- No thread is further than this from the end of its call. -/
theorem measure_le (s : Chan ι α) : s.measure ≤ Fintype.card ι * (Fintype.card ι + 3) := by
  have hle : ∀ l : ChanPc α, l.weight (Fintype.card ι) ≤ Fintype.card ι + 3 := fun l => by
    cases l <;> simp [ChanPc.weight]
  have hsum := Finset.sum_le_card_nsmul Finset.univ
    (fun i => (s.thread i).weight (Fintype.card ι)) (Fintype.card ι + 3) fun i _ => hle _
  rwa [Finset.card_univ, Nat.nsmul_eq_mul] at hsum

/-- No thread can go on. -/
def AtRest (s : Chan ι α) : Prop := ∀ i woken t, chanStep s (.thread i woken) ≠ .ret t

/-- A signal can always be given. -/
theorem exists_signal (s : Chan ι α) (cv : CondVar (ChanPc α)) (waiting : ℤ) :
    ∃ woken t, (if 0 < waiting then s.signal cv woken else .ret s) = .ret t := by
  obtain ⟨woken, hwoken⟩ := cv.exists_signals s.thread
  refine ⟨woken, ?_⟩
  split_ifs
  · exact ⟨_, signal_eq_ret.mpr ⟨hwoken, rfl⟩⟩
  · exact ⟨_, rfl⟩

theorem exists_send (h : s.queue.Holds items) (i : ι) (data : α) :
    ∃ woken t, s.bufferedChanSend i data woken = .ret t := by
  by_cases hfull : s.queue.size = s.queue.capacity
  · exact ⟨∅, _, if_pos hfull⟩
  · have hroom := h.length_le.lt_of_ne fun heq => hfull (h.size.trans heq)
    obtain ⟨queue, hadd, -⟩ := h.queueAdd_of_lt hroom data
    simp only [bufferedChanSend, if_neg hfull, hadd]
    exact exists_signal _ _ _

theorem exists_recv (h : s.queue.Holds items) (i : ι) :
    ∃ woken t, s.bufferedChanRecv i woken = .ret t := by
  simp only [bufferedChanRecv, h.size]
  cases items with
  | nil =>
    refine ⟨∅, ?_⟩
    rw [if_pos List.length_nil]
    split_ifs
    · exact ⟨_, rfl⟩
    · exact ⟨_, rfl⟩
  | cons data rest =>
    obtain ⟨queue, hremove, -⟩ := h.queueRemove_of_cons
    simp only [if_neg (List.length_pos_of_mem List.mem_cons_self).ne', hremove]
    exact exists_signal _ _ _

/-- **Where nobody can go on**, whoever is in a call sleeps. -/
theorem AtRest.asleep (hrest : AtRest s) (h : s.queue.Holds items) (i : ι) :
    (s.thread i).Outside = true ∨ (rCond α).Asleep (s.thread i) ∨
      (wCond α).Asleep (s.thread i) := by
  have hno : ∀ woken t, s.threadStep i woken ≠ .ret t := hrest i
  simp only [threadStep] at hno
  cases hi : s.thread i with
  | out | sent | received => exact .inl rfl
  | recvSleeps => exact .inr (.inl rfl)
  | sendSleeps => exact .inr (.inr rfl)
  | checks data =>
    simp only [hi] at hno
    exact absurd rfl (hno ∅ _)
  | sends data =>
    simp only [hi] at hno
    obtain ⟨woken, t, hstep⟩ := exists_send h i data
    exact absurd hstep (hno woken t)
  | sendWoken data =>
    simp only [hi] at hno
    obtain ⟨woken, t, hstep⟩ :=
      exists_send (s := { s with wWaiting := s.wWaiting - 1 }) h i data
    exact absurd hstep (hno woken t)
  | recvs =>
    simp only [hi] at hno
    obtain ⟨woken, t, hstep⟩ := exists_recv h i
    exact absurd hstep (hno woken t)
  | recvWoken =>
    simp only [hi] at hno
    obtain ⟨woken, t, hstep⟩ := exists_recv (s := { s with rWaiting := s.rWaiting - 1 }) h i
    exact absurd hstep (hno woken t)

end Chan

variable [DecidableEq ι] {s t : Chan ι α}

/-- **One step of a thread**, with what it costs. -/
theorem ChanLive.move {items : List α} (h : ChanLive capacity s items) {e : ChanEvent ι α}
    (he : e.isThread = true) (hs : chanStep s e = .ret t) : t.measure < s.measure := by
  cases e with
  | thread i woken =>
    have hlt := (Chan.threadStep_cases h.ok.holds hs).measure_lt
    rwa [Chan.measure_resumed] at hlt
  | _ => contradiction

/-- **Nobody waits for what is there.**  From any state a channel can get into, the threads that are
in a call go on for a bounded number of steps only, in whatever order and however many values lie in
the queue; and when none can go on, each has returned, or sleeps in a receive from an empty channel
that is open, or in a send into a full one. -/
theorem chan_wakes (hs : ChanReachable capacity s) {es : List (ChanEvent ι α)}
    (hes : ∀ e ∈ es, e.isThread = true) (hr : run chanStep s es = .ret t) :
    es.length ≤ Fintype.card ι * (Fintype.card ι + 3) ∧ (t.AtRest → ∀ i,
      (t.thread i).Outside = true ∨
      (t.thread i = .recvSleeps ∧ t.queue.size = 0 ∧ t.closed = false) ∨
      ∃ data, t.thread i = .sendSleeps data ∧ t.queue.size = capacity) := by
  have hlen := run_length_le_of (I := fun s => ∃ items, ChanLive capacity s items)
    (fun e he s s' h hstep => ⟨h.choose_spec.step hstep, h.choose_spec.move (hes e he) hstep⟩)
    (ChanLive.of_reachable hs) hr
  refine ⟨(Nat.le_of_add_right_le hlen).trans s.measure_le, fun hrest i => ?_⟩
  obtain ⟨items, h⟩ := ChanLive.of_reachable (hs.after hr)
  have hall := hrest.asleep h.ok.holds
  refine (hall i).imp_right (Or.imp (fun hsleep => ⟨asleep_rCond hsleep, ?_, ?_⟩) fun hsleep => ?_)
  · -- otherwise one of those the values are for would be looking
    by_contra hsome
    obtain ⟨j, hj⟩ := (h.readers items.length (.inr le_rfl)).exists_looking
      (Nat.pos_of_ne_zero (h.ok.holds.size ▸ hsome)) hsleep
    exact (ChanPc.not_looking (hall j)).1 hj
  · cases hclosed : t.closed with
    | false => rfl
    | true =>
      exact absurd hsleep (CondVar.not_asleep_of_served (fun n => h.readers n (.inl hclosed)) i)
  · obtain ⟨data, hdata⟩ := asleep_wCond hsleep
    refine ⟨data, hdata, ?_⟩
    by_contra hroom
    have hle := h.ok.capacity_eq ▸ h.ok.holds.length_le
    rw [h.ok.holds.size] at hroom
    obtain ⟨j, hj⟩ := h.writers.exists_looking (by omega) hsleep
    exact (ChanPc.not_looking (hall j)).2 hj

/-- Two senders come to a channel of one place, and the second sleeps. -/
theorem chan_wakes_two : ∃ s t : Chan Bool ℕ, ChanReachable 1 s ∧
    run chanStep s [.thread true ∅, .thread true ∅, .thread false ∅, .thread false ∅] = .ret t ∧
    t.thread false = .sendSleeps 8 ∧ 4 ≤ 2 * (2 + 3) ∧ (t.AtRest → ∀ i,
      (t.thread i).Outside = true ∨
      (t.thread i = .recvSleeps ∧ t.queue.size = 0 ∧ t.closed = false) ∨
      ∃ data, t.thread i = .sendSleeps data ∧ t.queue.size = 1) := by
  have hrun : (run chanStep ((chanInit 1 : Option (Chan Bool ℕ)).get rfl)
      [.callSend true 7, .callSend false 8] >>= fun s =>
      run chanStep s [.thread true ∅, .thread true ∅, .thread false ∅, .thread false ∅] >>=
        fun t => .ret (t.thread false)) = .ret (.sendSleeps 8) := by decide
  obtain ⟨s, hs, hrun⟩ := Outcome.bind_eq_ret.mp hrun
  obtain ⟨t, ht, hrun⟩ := Outcome.bind_eq_ret.mp hrun
  have hreach : ChanReachable 1 s := .after (.init ⟨Nat.one_pos, rfl⟩) hs
  exact ⟨s, t, hreach, ht, Outcome.ret.inj hrun, chan_wakes hreach (by simp [ChanEvent.isThread]) ht⟩

end Rest

end TrivalTcp
