import TrivalTcp.Chan.Channel

/-!
# Chan/Buffered — what is sent into a buffered channel comes out of it

`ChanOk` says what the counters count and where each value is, in every state the threads can bring
the channel into.

* `chan_fifo` — values come out in the order in which they went in, each once; a call fails only once
  the channel is closed, and never for want of room.
-/

namespace TrivalTcp

variable {ι α : Type} {capacity : ℕ}

/-! ## Waking changes no count -/

section Wake

theorem asleep_wCond {l : ChanPc α} (h : (wCond α).Asleep l) : ∃ data, l = .sendSleeps data := by
  cases l with
  | sendSleeps data => exact ⟨data, rfl⟩
  | _ => exact absurd h Bool.false_ne_true

theorem asleep_rCond {l : ChanPc α} (h : (rCond α).Asleep l) : l = .recvSleeps := by
  cases l with
  | recvSleeps => rfl
  | _ => exact absurd h Bool.false_ne_true

/-- **What a call has been told** when it has returned: it fails only if the channel is closed, and
what it has received is in the log. -/
def ChanPc.Told (closed : Bool) (received : List α) : ChanPc α → Prop
  | .sent status => status = 0 ∨ status = -1 ∧ closed = true
  | .received status msg =>
    (status = 0 ∧ ∃ data ∈ received, msg = some data) ∨ status = -1 ∧ msg = none ∧ closed = true
  | _ => True

/-- Who is woken counts as before, and has not returned. -/
structure Harmless (cv : CondVar (ChanPc α)) : Prop where
  rWaits : ∀ l, cv.Asleep l → (cv.up l).RWaits = l.RWaits
  wWaits : ∀ l, cv.Asleep l → (cv.up l).WWaits = l.WWaits
  told : ∀ l, cv.Asleep l → ∀ closed received, (cv.up l).Told closed received

theorem harmless_wCond : Harmless (wCond α) where
  rWaits l h := by
    obtain ⟨data, rfl⟩ := asleep_wCond h
    rfl
  wWaits l h := by
    obtain ⟨data, rfl⟩ := asleep_wCond h
    rfl
  told l h _ _ := by
    obtain ⟨data, rfl⟩ := asleep_wCond h
    trivial

theorem harmless_rCond : Harmless (rCond α) where
  rWaits l h := by
    obtain rfl := asleep_rCond h
    rfl
  wWaits l h := by
    obtain rfl := asleep_rCond h
    rfl
  told l h _ _ := by
    obtain rfl := asleep_rCond h
    trivial

end Wake

theorem ChanPc.Told.mono {l : ChanPc α} {closed closed' : Bool} {received received' : List α}
    (h : l.Told closed received) (hclosed : closed = true → closed' = true)
    (hreceived : received ⊆ received') : l.Told closed' received' := by
  cases l with
  | sent status => exact h.imp_right fun hfail => ⟨hfail.1, hclosed hfail.2⟩
  | received status msg =>
    refine h.imp (fun hgot => ⟨hgot.1, ?_⟩) fun hfail => ⟨hfail.1, hfail.2.1, hclosed hfail.2.2⟩
    obtain ⟨data, hmem, hmsg⟩ := hgot.2
    exact ⟨data, hreceived hmem, hmsg⟩
  | _ => trivial

/-! ## The invariant -/

variable [Fintype ι]

/-- **What a channel of that capacity keeps track of**, where `items` lie in its queue. -/
structure ChanOk (capacity : ℕ) (s : Chan ι α) (items : List α) : Prop where
  holds : s.queue.Holds items
  capacity_eq : s.queue.capacity = capacity
  pos : 0 < capacity
  fifo : s.sent = s.received ++ items
  rWaiting : s.rWaiting = tally (ChanPc.RWaits · = true) s.thread
  wWaiting : s.wWaiting = tally (ChanPc.WWaits · = true) s.thread
  told : ∀ i, (s.thread i).Told s.closed s.received

theorem chanOk_init {s : Chan ι α} (hpos : 0 < capacity) (h : chanInit capacity = some s) :
    ChanOk capacity s [] := by
  obtain ⟨queue, hqueue, rfl⟩ := Option.map_eq_some_iff.mp h
  obtain ⟨hholds, hcap⟩ := holds_queueInit hqueue
  have hnone : ∀ p : ChanPc α → Bool, p .out = false →
      ((0 : ℕ) : ℤ) = tally (p · = true) (fun _ : ι => (.out : ChanPc α)) := fun p hp =>
    congrArg Nat.cast (tally_eq_zero.mpr fun _ => by rw [hp]; exact Bool.false_ne_true).symm
  exact ⟨hholds, hcap, hpos, rfl, hnone _ rfl, hnone _ rfl, fun _ => trivial⟩

namespace ChanOk

variable [DecidableEq ι] {s t : Chan ι α} {items items' : List α} {i : ι}

/-- What the counter of a kind of threads becomes when one of them goes on. -/
theorem count_goto {waiting waiting' : ℤ} {p : ChanPc α → Bool} {thread : ι → ChanPc α}
    {old pc : ChanPc α} (h : waiting = tally (p · = true) thread) (hi : thread i = old)
    (hw : waiting' = waiting + ((p pc).toNat - (p old).toNat)) :
    waiting' = tally (p · = true) (Function.update thread i pc) := by
  have hupdate := tally_update_toNat p thread i pc
  rw [hi] at hupdate
  omega

/-- **A thread goes on**, with what it has changed while it held `m_mu`. -/
theorem goto (h : ChanOk capacity s items) {old pc : ChanPc α} (hi : s.thread i = old)
    {queue : Queue α} {rWaiting wWaiting : ℤ} {sent received : List α}
    (hqueue : queue.Holds items') (hcap : queue.capacity = s.queue.capacity)
    (hfifo : sent = received ++ items') (hsub : s.received ⊆ received)
    (hr : rWaiting = s.rWaiting + (pc.RWaits.toNat - old.RWaits.toNat))
    (hw : wWaiting = s.wWaiting + (pc.WWaits.toNat - old.WWaits.toNat))
    (htold : pc.Told s.closed received) :
    ChanOk capacity ({ s with queue, rWaiting, wWaiting, sent, received }.goto i pc) items' where
  holds := hqueue
  capacity_eq := hcap.trans h.capacity_eq
  pos := h.pos
  fifo := hfifo
  rWaiting := count_goto h.rWaiting hi hr
  wWaiting := count_goto h.wWaiting hi hw
  told j := by
    change (Function.update s.thread i pc j).Told s.closed received
    by_cases hj : j = i
    · rw [hj, Function.update_self]
      exact htold
    · rw [Function.update_of_ne hj]
      exact (h.told j).mono id hsub

/-- A thread goes on, and nothing else has changed. -/
theorem goto_only (h : ChanOk capacity s items) {old pc : ChanPc α} (hi : s.thread i = old)
    {rWaiting wWaiting : ℤ} (hr : rWaiting = s.rWaiting + (pc.RWaits.toNat - old.RWaits.toNat))
    (hw : wWaiting = s.wWaiting + (pc.WWaits.toNat - old.WWaits.toNat))
    (htold : pc.Told s.closed s.received) :
    ChanOk capacity ({ s with rWaiting, wWaiting }.goto i pc) items :=
  h.goto hi h.holds rfl h.fifo (List.Subset.refl _) hr hw htold

/-- A thread goes on, and counts as it did. -/
theorem goto_same (h : ChanOk capacity s items) {old pc : ChanPc α} (hi : s.thread i = old)
    (hr : pc.RWaits = old.RWaits) (hw : pc.WWaits = old.WWaits)
    (htold : pc.Told s.closed s.received) : ChanOk capacity (s.goto i pc) items :=
  h.goto_only hi (by rw [hr, sub_self, add_zero]) (by rw [hw, sub_self, add_zero]) htold

/-- A sender falls asleep. -/
theorem sendSleeps (h : ChanOk capacity s items) {data : α} (hi : s.thread i = .sends data) :
    ChanOk capacity ({ s with wWaiting := s.wWaiting + 1 }.goto i (.sendSleeps data)) items :=
  h.goto_only hi (by simp [ChanPc.RWaits]) (by simp [ChanPc.WWaits]) trivial

/-- A receiver falls asleep. -/
theorem recvSleeps (h : ChanOk capacity s items) (hi : s.thread i = .recvs) :
    ChanOk capacity ({ s with rWaiting := s.rWaiting + 1 }.goto i .recvSleeps) items :=
  h.goto_only hi (by simp [ChanPc.RWaits]) (by simp [ChanPc.WWaits]) trivial

theorem signalled (h : ChanOk capacity s items) {cv : CondVar (ChanPc α)} (hcv : Harmless cv)
    (woken : Finset ι) : ChanOk capacity (s.signalled cv woken) items where
  holds := h.holds
  capacity_eq := h.capacity_eq
  pos := h.pos
  fifo := h.fifo
  rWaiting := h.rWaiting.trans (congrArg Nat.cast
    (CondVar.tally_wake (fun l hl => by rw [hcv.rWaits l hl]) woken s.thread).symm)
  wWaiting := h.wWaiting.trans (congrArg Nat.cast
    (CondVar.tally_wake (fun l hl => by rw [hcv.wWaits l hl]) woken s.thread).symm)
  told i := by
    change (cv.wake woken s.thread i).Told s.closed s.received
    rcases cv.wake_cases woken s.thread i with heq | ⟨hsleep, heq⟩
    · rw [heq]
      exact h.told i
    · rw [heq]
      exact hcv.told _ hsleep _ _

theorem resumed (h : ChanOk capacity s items) (i : ι) : ChanOk capacity (s.resumed i) items := by
  rw [Chan.resumed]
  split
  next data hi =>
    exact h.goto_only hi (by simp [ChanPc.RWaits]) (by simp [ChanPc.WWaits]; omega) trivial
  next hi => exact h.goto_only hi (by simp [ChanPc.RWaits]; omega) (by simp [ChanPc.WWaits]) trivial
  next => exact h

/-- A value goes in at the end. -/
theorem sentBy (h : ChanOk capacity s items) {data : α} (hi : s.thread i = .sends data)
    {queue : Queue α} (hqueue : queue.Holds (items ++ [data]))
    (hcap : queue.capacity = s.queue.capacity) :
    ChanOk capacity (s.sentBy i data queue) (items ++ [data]) := by
  have hfifo : s.sent ++ [data] = s.received ++ (items ++ [data]) := by
    rw [h.fifo, List.append_assoc]
  exact h.goto hi hqueue hcap hfifo (List.Subset.refl _) (by simp [ChanPc.RWaits])
    (by simp [ChanPc.WWaits]) (.inl rfl)

/-- The first value comes out. -/
theorem receivedBy {data : α} {rest : List α} (h : ChanOk capacity s (data :: rest))
    (hi : s.thread i = .recvs) {queue : Queue α} (hqueue : queue.Holds rest)
    (hcap : queue.capacity = s.queue.capacity) :
    ChanOk capacity (s.receivedBy i data queue) rest := by
  have hfifo : s.sent = s.received ++ [data] ++ rest := by
    rw [h.fifo, List.append_assoc, List.singleton_append]
  exact h.goto hi hqueue hcap hfifo (List.subset_append_left _ _) (by simp [ChanPc.RWaits])
    (by simp [ChanPc.WWaits])
    (.inl ⟨rfl, data, List.mem_append_right _ List.mem_cons_self, rfl⟩)

/-- **One step of a thread.** -/
theorem threadStep (h : ChanOk capacity s items) (hs : s.ThreadStep items i t) :
    ∃ items', ChanOk capacity t items' := by
  cases hs with
  | refused hi hclosed => exact ⟨items, h.goto_same hi rfl rfl (.inr ⟨rfl, hclosed⟩)⟩
  | opened hi => exact ⟨items, h.goto_same hi rfl rfl trivial⟩
  | full hi => exact ⟨items, h.sendSleeps hi⟩
  | sends hi _ hqueue hcap => exact ⟨_, h.sentBy hi hqueue hcap⟩
  | sendsSignals hi _ hqueue hcap =>
    exact ⟨_, (h.sentBy hi hqueue hcap).signalled harmless_rCond _⟩
  | ended hi _ hclosed => exact ⟨items, h.goto_same hi rfl rfl (.inr ⟨rfl, rfl, hclosed⟩)⟩
  | empty hi => exact ⟨items, h.recvSleeps hi⟩
  | receives hi hcons hqueue hcap => exact ⟨_, (hcons ▸ h).receivedBy hi hqueue hcap⟩
  | receivesSignals hi hcons hqueue hcap =>
    exact ⟨_, ((hcons ▸ h).receivedBy hi hqueue hcap).signalled harmless_wCond _⟩

/-- A thread that is outside calls something. -/
theorem call (h : ChanOk capacity s items) {pc : ChanPc α} (hs : s.call i pc = .ret t)
    (hr : pc.RWaits = false) (hw : pc.WWaits = false)
    (htold : ∀ closed received, pc.Told closed received) : ChanOk capacity t items := by
  rw [Chan.call] at hs
  split at hs
  case h_4 => contradiction
  all_goals
    rename_i hi
    obtain rfl := Outcome.ret.inj hs
    exact h.goto_same hi hr hw (htold _ _)

theorem close (h : ChanOk capacity s items) : ChanOk capacity s.chanClose.1 items := by
  rw [Chan.chanClose]
  split_ifs with hclosed
  · exact h
  · have hmarked : ChanOk capacity { s with closed := true } items :=
      ⟨h.holds, h.capacity_eq, h.pos, h.fifo, h.rWaiting, h.wWaiting,
        fun i => (h.told i).mono (fun _ => rfl) (List.Subset.refl _)⟩
    rw [CondVar.wakeAll_eq, CondVar.wakeAll_eq]
    exact (hmarked.signalled harmless_rCond Finset.univ).signalled harmless_wCond Finset.univ

/-- **One step of the channel.** -/
theorem step (h : ChanOk capacity s items) {e : ChanEvent ι α} (hs : chanStep s e = .ret t) :
    ∃ items', ChanOk capacity t items' := by
  cases e with
  | callSend i data => exact ⟨items, h.call hs rfl rfl fun _ _ => trivial⟩
  | callRecv i => exact ⟨items, h.call hs rfl rfl fun _ _ => trivial⟩
  | thread i woken => exact (h.resumed i).threadStep (Chan.threadStep_cases h.holds hs)
  | close =>
    obtain rfl := Outcome.ret.inj hs
    exact ⟨items, h.close⟩
  | spurious writers readers =>
    obtain rfl := Outcome.ret.inj hs
    exact ⟨items, (h.signalled harmless_rCond readers).signalled harmless_wCond writers⟩

end ChanOk

/-! ## Where every value is -/

variable [DecidableEq ι]

/-- The states a new channel of that capacity can get into. -/
abbrev ChanReachable (capacity : ℕ) : Chan ι α → Prop :=
  Reachable chanStep fun s => 0 < capacity ∧ chanInit capacity = some s

theorem ChanOk.of_reachable {s : Chan ι α} (hs : ChanReachable capacity s) :
    ∃ items, ChanOk capacity s items :=
  hs.invariant (I := fun s => ∃ items, ChanOk capacity s items)
    (fun _ h0 => ⟨[], chanOk_init h0.1 h0.2⟩) fun _ _ _ h hstep => h.choose_spec.step hstep

/-- No call on the queue goes wrong. -/
theorem ChanOk.chanStep_ne_undef {s : Chan ι α} {items : List α} (h : ChanOk capacity s items)
    (e : ChanEvent ι α) : chanStep s e ≠ .undef := by
  have hsignal : ∀ (s : Chan ι α) cv (waiting : ℤ) woken,
      (if 0 < waiting then s.signal cv woken else .ret s) ≠ .undef := fun s cv waiting woken => by
    rw [Chan.signal]
    split_ifs <;> simp
  have hcall : ∀ i pc, s.call i pc ≠ .undef := fun i pc => by
    rw [Chan.call]
    split <;> simp
  cases e with
  | callSend i data => exact hcall i _
  | callRecv i => exact hcall i _
  | thread i woken =>
    rw [chanStep, ← Chan.threadStep_resumed, Chan.threadStep]
    have hqueue := (h.resumed i).holds
    have hsend : ∀ data, (s.resumed i).bufferedChanSend i data woken ≠ .undef := fun data => by
      rw [Chan.bufferedChanSend]
      split_ifs with hfull
      · simp
      · have hroom := hqueue.length_le.lt_of_ne fun heq => hfull (hqueue.size.trans heq)
        obtain ⟨queue, hadd, -⟩ := hqueue.queueAdd_of_lt hroom data
        rw [hadd]
        exact hsignal _ _ _ _
    have hrecv : (s.resumed i).bufferedChanRecv i woken ≠ .undef := by
      rw [Chan.bufferedChanRecv, hqueue.size]
      cases items with
      | nil =>
        rw [if_pos List.length_nil]
        split_ifs <;> simp
      | cons data rest =>
        obtain ⟨queue, hremove, -⟩ := hqueue.queueRemove_of_cons
        rw [if_neg (by simp), hremove]
        exact hsignal _ _ _ _
    split
    next => simp
    next data hi => exact hsend data
    next data hi => exact absurd hi ((Chan.resumed_thread s i).1 data)
    next => exact hrecv
    next hi => exact absurd hi (Chan.resumed_thread s i).2
    all_goals simp
  | close => simp [chanStep]
  | spurious writers readers => simp [chanStep]

/-- **What goes into a channel comes out of it.**  Whatever the threads do in whatever order, and
whichever of them wake: the values received, followed by those that lie in the queue, are the values
sent, in the order in which they were sent; `r_waiting` and `w_waiting` count the threads that wait;
a call that has returned has succeeded, or has failed on a closed channel; and no access leaves the
array or reads a cell that was never written. -/
theorem chan_fifo {s : Chan ι α} (hs : ChanReachable capacity s) :
    (∃ items, s.sent = s.received ++ items ∧ items.length = s.queue.size ∧
      items.length ≤ capacity ∧ queuePeek s.queue = .ret items.head?) ∧
    s.rWaiting = tally (ChanPc.RWaits · = true) s.thread ∧
    s.wWaiting = tally (ChanPc.WWaits · = true) s.thread ∧
    (∀ i, (s.thread i).Told s.closed s.received) ∧ ∀ e, chanStep s e ≠ .undef := by
  obtain ⟨items, h⟩ := ChanOk.of_reachable hs
  exact ⟨⟨items, h.fifo, h.holds.size.symm, h.capacity_eq ▸ h.holds.length_le,
    h.holds.queuePeek_eq⟩, h.rWaiting, h.wWaiting, h.told, h.chanStep_ne_undef⟩

/-- A receiver sleeps, and a sender wakes it; meanwhile a second value finds the queue full. -/
theorem chan_fifo_two : ∃ s s' : Chan (Fin 3) ℕ, chanInit 1 = some s ∧
    run chanStep s [.callRecv 0, .thread 0 ∅, .callSend 1 7, .thread 1 ∅, .thread 1 {0},
      .callSend 2 8, .thread 2 ∅, .thread 2 ∅, .thread 0 {2}] = .ret s' ∧
    (∃ items, s'.sent = s'.received ++ items ∧ items.length = s'.queue.size ∧
      items.length ≤ 1 ∧ queuePeek s'.queue = .ret items.head?) ∧
    s'.received = [7] ∧ s'.thread 2 = .sendWoken 8 := by
  have hrun : ((run chanStep ((chanInit 1 : Option (Chan (Fin 3) ℕ)).get rfl) [.callRecv 0,
      .thread 0 ∅, .callSend 1 7, .thread 1 ∅, .thread 1 {0}, .callSend 2 8, .thread 2 ∅,
      .thread 2 ∅, .thread 0 {2}]) >>= fun s' => .ret (s'.received, s'.thread 2)) =
      .ret ([7], .sendWoken 8) := by decide
  obtain ⟨s', hs', hrun⟩ := Outcome.bind_eq_ret.mp hrun
  obtain ⟨hreceived, hthread⟩ := Prod.mk.inj (Outcome.ret.inj hrun)
  exact ⟨_, s', rfl, hs', (chan_fifo (.after (.init ⟨Nat.one_pos, rfl⟩) hs')).1, hreceived, hthread⟩

end TrivalTcp
