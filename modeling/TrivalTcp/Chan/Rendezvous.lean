import TrivalTcp.Chan.Unbuffered

/-!
# Chan/Rendezvous — a value passes from hand to hand

In an unbuffered channel at most one value is on its way, from its sender to whoever takes it next
(`Handover`).  This rests on the sender sleeping until its value has been taken, and the sender does
not look when it is woken: so all of it is said of runs in which no sender wakes without a signal.

* `sync_rendezvous` — values are taken in the order in which they are offered, each at most once, and
  a `chan_send` on an open channel returns only after its value has been taken.
* `sync_close_loses` — a value that is on its way when the channel is closed is never taken, and its
  `chan_send` returns 0 all the same.
-/

namespace TrivalTcp

variable {ι α : Type}

/-! ## What is kept -/

/-- **What a call has been told** when it has returned. -/
def SyncPc.Told (closed : Bool) (taken : List α) : SyncPc α → Prop
  | .sent status => status = 0 ∨ status = -1 ∧ closed = true
  | .received status msg =>
    (status = 0 ∧ ∃ data ∈ taken, msg = some data) ∨ status = -1 ∧ msg = none ∧ closed = true
  | _ => True

theorem SyncPc.Told.mono {l : SyncPc α} {closed closed' : Bool} {taken taken' : List α}
    (h : l.Told closed taken) (hclosed : closed = true → closed' = true)
    (htaken : taken ⊆ taken') : l.Told closed' taken' := by
  cases l with
  | sent status => exact h.imp_right fun hfail => ⟨hfail.1, hclosed hfail.2⟩
  | received status msg =>
    refine h.imp (fun hgot => ⟨hgot.1, ?_⟩) fun hfail => ⟨hfail.1, hfail.2.1, hclosed hfail.2.2⟩
    obtain ⟨data, hmem, hmsg⟩ := hgot.2
    exact ⟨data, htaken hmem, hmsg⟩
  | _ => trivial

/-- **Where the value on its way is**: nowhere, with its sender who sleeps until it is taken, or
taken already, its sender about to return. -/
inductive Handover (s : SyncChan ι α) : Prop where
  | idle (hnone : ∀ i, (s.thread i).Offers = false) (hreturned : s.offered = s.returned)
      (hopen : s.closed = false → s.wWaiting = 0 ∧ s.offered = s.taken)
  | lies (i : ι) (d : α) (hi : s.thread i = .sendSleeps d)
      (hothers : ∀ j, j ≠ i → (s.thread j).Offers = false) (hreturned : s.offered = s.returned ++ [d])
      (hopen : s.closed = false) (hdata : s.data = some d) (hwaiting : s.wWaiting = 1)
      (htaken : s.offered = s.taken ++ [d])
  | done (i : ι) (d : α) (hi : s.thread i = .sendWoken d)
      (hothers : ∀ j, j ≠ i → (s.thread j).Offers = false) (hreturned : s.offered = s.returned ++ [d])
      (hopen : s.closed = false → s.wWaiting = 0 ∧ s.offered = s.taken)

variable [Fintype ι]

/-- What the mutexes and the counter say about the threads. -/
structure SyncCounts (s : SyncChan ι α) : Prop where
  wMu : s.wMu.toNat = tally (SyncPc.HoldsW · = true) s.thread
  rMu : s.rMu.toNat = tally (SyncPc.HoldsR · = true) s.thread
  rWaiting : s.rWaiting = tally (SyncPc.RWaits · = true) s.thread

/-- **The invariant.**  A value that is not taken is the last one that has been offered. -/
structure SyncOk (s : SyncChan ι α) : Prop where
  counts : SyncCounts s
  handover : Handover s
  lost : ∃ l, s.offered = s.taken ++ l ∧ l.length ≤ 1
  told : ∀ i, (s.thread i).Told s.closed s.taken
  readers : ∀ n : ℕ, s.closed = true ∨ (n : ℤ) ≤ s.wWaiting → (SyncPc.rCond α).Served n s.thread

theorem syncOk_init : SyncOk (unbufferedChanInit : SyncChan ι α) where
  counts :=
    ⟨(tally_eq_zero.mpr fun _ => Bool.false_ne_true).symm,
      (tally_eq_zero.mpr fun _ => Bool.false_ne_true).symm,
      congrArg Nat.cast (tally_eq_zero.mpr fun _ => Bool.false_ne_true).symm⟩
  handover := .idle (fun _ => rfl) rfl fun _ => ⟨rfl, rfl⟩
  lost := ⟨[], rfl, Nat.zero_le _⟩
  told _ := trivial
  readers _ _ := .inl fun _ => Bool.false_ne_true

/-! ## The counts -/

/-- Waking this variable's sleepers changes no count, and returns no call. -/
structure SyncPc.Harmless (cv : CondVar (SyncPc α)) : Prop where
  counts : ∀ l, cv.Asleep l →
    (cv.up l).HoldsW = l.HoldsW ∧ (cv.up l).HoldsR = l.HoldsR ∧ (cv.up l).RWaits = l.RWaits
  told : ∀ l, cv.Asleep l → ∀ closed taken, (cv.up l).Told closed taken

omit [Fintype ι] in
theorem SyncPc.harmless_wCond : Harmless (wCond α) where
  counts l hl := by
    obtain ⟨data, rfl⟩ := asleep_wCond hl
    exact ⟨rfl, rfl, rfl⟩
  told l hl _ _ := by
    obtain ⟨data, rfl⟩ := asleep_wCond hl
    trivial

omit [Fintype ι] in
theorem SyncPc.harmless_rCond : Harmless (rCond α) where
  counts l hl := by
    obtain rfl := asleep_rCond hl
    exact ⟨rfl, rfl, rfl⟩
  told l hl _ _ := by
    obtain rfl := asleep_rCond hl
    trivial

theorem SyncPc.offers_holdsW {l : SyncPc α} (h : l.Offers = true) : l.HoldsW = true := by
  cases l with
  | sendSleeps | sendWoken => rfl
  | _ => contradiction

namespace SyncCounts

variable {s t : SyncChan ι α} {i j : ι}

/-- **`w_mu` excludes other senders.** -/
theorem writer_unique (h : SyncCounts s) (hi : (s.thread i).HoldsW = true)
    (hj : (s.thread j).HoldsW = true) : i = j :=
  tally_le_one (p := (SyncPc.HoldsW · = true)) (f := s.thread) (h.wMu ▸ Bool.toNat_le _) hi hj

/-- Beside the holder of `w_mu` nobody has offered a value. -/
theorem others_not_offers (h : SyncCounts s) (hi : (s.thread i).HoldsW = true) (hj : j ≠ i) :
    (s.thread j).Offers = false := by
  cases hoffers : (s.thread j).Offers with
  | false => rfl
  | true => exact absurd (h.writer_unique (SyncPc.offers_holdsW hoffers) hi) hj

omit [Fintype ι] in
/-- A mutex that is counted is held. -/
theorem eq_true_of_pos {mu : Bool} {n : ℕ} (h : mu.toNat = n) (hpos : 0 < n) : mu = true := by
  cases mu with
  | true => rfl
  | false => exact absurd hpos (h ▸ lt_irrefl 0)

theorem wMu_eq_true (h : SyncCounts s) (hi : (s.thread i).HoldsW = true) : s.wMu = true :=
  eq_true_of_pos h.wMu (tally_pos (p := (SyncPc.HoldsW · = true)) (f := s.thread) hi)

theorem rMu_eq_true (h : SyncCounts s) (hi : (s.thread i).HoldsR = true) : s.rMu = true :=
  eq_true_of_pos h.rMu (tally_pos (p := (SyncPc.HoldsR · = true)) (f := s.thread) hi)

variable [DecidableEq ι]

/-- **A thread goes on**, and the channel counts it where it is. -/
theorem goto (h : SyncCounts s) {old pc : SyncPc α} (hi : s.thread i = old)
    (hthread : t.thread = s.thread)
    (hw : t.wMu.toNat + old.HoldsW.toNat = s.wMu.toNat + pc.HoldsW.toNat)
    (hr : t.rMu.toNat + old.HoldsR.toNat = s.rMu.toNat + pc.HoldsR.toNat)
    (hwaiting : t.rWaiting + old.RWaits.toNat = s.rWaiting + pc.RWaits.toNat) :
    SyncCounts (t.goto i pc) := by
  have hgoto : (t.goto i pc).thread = Function.update s.thread i pc := by rw [← hthread]; rfl
  have hcountW := tally_update_toNat SyncPc.HoldsW s.thread i pc
  have hcountR := tally_update_toNat SyncPc.HoldsR s.thread i pc
  have hcount := tally_update_toNat SyncPc.RWaits s.thread i pc
  rw [hi, ← h.wMu, ← hw] at hcountW
  rw [hi, ← h.rMu, ← hr] at hcountR
  rw [hi] at hcount
  refine ⟨?_, ?_, ?_⟩
  · rw [hgoto]
    exact (Nat.add_right_cancel hcountW).symm
  · rw [hgoto]
    exact (Nat.add_right_cancel hcountR).symm
  · have hbefore := h.rWaiting
    rw [hgoto]
    change t.rWaiting = _
    omega

theorem signalled (h : SyncCounts s) {cv : CondVar (SyncPc α)} (hcv : SyncPc.Harmless cv)
    (woken : Finset ι) : SyncCounts (s.signalled cv woken) where
  wMu := h.wMu.trans
    (CondVar.tally_wake (fun l hl => by rw [(hcv.counts l hl).1]) woken s.thread).symm
  rMu := h.rMu.trans
    (CondVar.tally_wake (fun l hl => by rw [(hcv.counts l hl).2.1]) woken s.thread).symm
  rWaiting := h.rWaiting.trans (congrArg Nat.cast
    (CondVar.tally_wake (fun l hl => by rw [(hcv.counts l hl).2.2]) woken s.thread).symm)

end SyncCounts

/-! ## Threads that offer nothing -/

section Quiet

variable {s t : SyncChan ι α} {i : ι}

omit [Fintype ι] in
/-- **The value on its way sees only the threads that offer one.** -/
theorem Handover.congr (h : Handover s) {thread : ι → SyncPc α} {rWaiting : ℤ} {wMu rMu : Bool}
    (hsame : ∀ i, (s.thread i).Offers = true ∨ (thread i).Offers = true → thread i = s.thread i) :
    Handover { s with thread, rWaiting, wMu, rMu } := by
  have hnone : ∀ i, (s.thread i).Offers = false → (thread i).Offers = false := fun i hi => by
    cases hoffers : (thread i).Offers with
    | false => rfl
    | true => rwa [← hsame i (.inr hoffers), hoffers] at hi
  cases h with
  | idle hidle hreturned hopen => exact .idle (fun i => hnone i (hidle i)) hreturned hopen
  | lies i d hi hothers hreturned hopen hdata hwaiting htaken =>
    have hi' : thread i = .sendSleeps d := (hsame i (.inl (by rw [hi]; rfl))).trans hi
    exact .lies i d hi' (fun j hj => hnone j (hothers j hj)) hreturned hopen hdata hwaiting htaken
  | done i d hi hothers hreturned hopen =>
    have hi' : thread i = .sendWoken d := (hsame i (.inl (by rw [hi]; rfl))).trans hi
    exact .done i d hi' (fun j hj => hnone j (hothers j hj)) hreturned hopen

variable [DecidableEq ι]

omit [Fintype ι] in
/-- Waking receivers makes no difference to it. -/
theorem Handover.signalled (h : Handover s) (woken : Finset ι) :
    Handover (s.signalled (SyncPc.rCond α) woken) := by
  refine h.congr fun i hi => ?_
  rcases (SyncPc.rCond α).wake_cases woken s.thread i with heq | ⟨hsleep, heq⟩
  · exact heq
  · rw [heq, SyncPc.asleep_rCond hsleep] at hi
    exact absurd hi (not_or.mpr ⟨Bool.false_ne_true, Bool.false_ne_true⟩)

omit [Fintype ι] in
/-- What the threads have been told, when one has gone on. -/
theorem told_goto (h : ∀ j, (s.thread j).Told s.closed s.taken) {pc : SyncPc α} {taken : List α}
    (htold : pc.Told s.closed taken) (htaken : s.taken ⊆ taken) (j : ι) :
    (Function.update s.thread i pc j).Told s.closed taken := by
  by_cases hj : j = i
  · rw [hj, Function.update_self]
    exact htold
  · rw [Function.update_of_ne hj]
    exact (h j).mono id htaken

omit [Fintype ι] in
theorem told_wake {cv : CondVar (SyncPc α)} (hcv : SyncPc.Harmless cv) {thread : ι → SyncPc α}
    {closed : Bool} {taken : List α} (h : ∀ i, (thread i).Told closed taken) (woken : Finset ι)
    (i : ι) : (cv.wake woken thread i).Told closed taken := by
  rcases cv.wake_cases woken thread i with heq | ⟨hsleep, heq⟩
  · rw [heq]
    exact h i
  · rw [heq]
    exact hcv.told _ hsleep _ _

/-- Waking a sender makes no difference to the receivers. -/
theorem SyncPc.served_wake {n : ℕ} {thread : ι → SyncPc α} (h : (rCond α).Served n thread)
    (woken : Finset ι) : (rCond α).Served n ((wCond α).wake woken thread) :=
  h.wake_other (fun l hl => by obtain ⟨data, rfl⟩ := asleep_wCond hl; exact id)
    (fun l hl => by obtain ⟨data, rfl⟩ := asleep_wCond hl; exact Bool.false_ne_true.elim) woken

namespace SyncOk

/-- **A thread that has offered nothing goes on**, and offers nothing. -/
theorem goto (h : SyncOk s) {old pc : SyncPc α} (hi : s.thread i = old) {rWaiting : ℤ}
    {wMu rMu : Bool} (hoffers : old.Offers = false ∧ pc.Offers = false)
    (hw : wMu.toNat + old.HoldsW.toNat = s.wMu.toNat + pc.HoldsW.toNat)
    (hr : rMu.toNat + old.HoldsR.toNat = s.rMu.toNat + pc.HoldsR.toNat)
    (hwaiting : rWaiting + old.RWaits.toNat = s.rWaiting + pc.RWaits.toNat)
    (htold : pc.Told s.closed s.taken)
    (hreaders : ∀ n : ℕ, s.closed = true ∨ (n : ℤ) ≤ s.wWaiting →
      (SyncPc.rCond α).Served n (Function.update s.thread i pc)) :
    SyncOk ({ s with rWaiting, wMu, rMu }.goto i pc) where
  counts := h.counts.goto hi rfl hw hr hwaiting
  handover := by
    refine h.handover.congr fun j hj => Function.update_of_ne (fun hji => ?_) _ _
    rw [hji, hi, Function.update_self, hoffers.1, hoffers.2] at hj
    exact absurd hj (not_or.mpr ⟨Bool.false_ne_true, Bool.false_ne_true⟩)
  lost := h.lost
  told := told_goto h.told htold (List.Subset.refl _)
  readers := hreaders

/-- The same of one that neither falls asleep nor stops looking. -/
theorem goto_awake (h : SyncOk s) {old pc : SyncPc α} (hi : s.thread i = old) {rWaiting : ℤ}
    {wMu rMu : Bool} (hoffers : old.Offers = false ∧ pc.Offers = false)
    (hw : wMu.toNat + old.HoldsW.toNat = s.wMu.toNat + pc.HoldsW.toNat)
    (hr : rMu.toNat + old.HoldsR.toNat = s.rMu.toNat + pc.HoldsR.toNat)
    (hwaiting : rWaiting + old.RWaits.toNat = s.rWaiting + pc.RWaits.toNat)
    (htold : pc.Told s.closed s.taken) (hsleep : ¬ (SyncPc.rCond α).Asleep pc)
    (hlook : (SyncPc.rCond α).looking old → (SyncPc.rCond α).looking pc) :
    SyncOk ({ s with rWaiting, wMu, rMu }.goto i pc) :=
  h.goto hi hoffers hw hr hwaiting htold fun n hn =>
    (h.readers n hn).update (absurd · hsleep) (hi ▸ hlook)

theorem resumed (h : SyncOk s) (i : ι) : SyncOk (s.resumed i) := by
  rw [SyncChan.resumed]
  split
  next hi =>
    exact h.goto_awake hi ⟨rfl, rfl⟩ rfl rfl (by simp [SyncPc.RWaits]) trivial Bool.false_ne_true
      fun _ => rfl
  next => exact h

end SyncOk

end Quiet

/-! ## The value on its way -/

section Steps

variable [DecidableEq ι] {s t : SyncChan ι α} {i : ι}

namespace SyncOk

omit [DecidableEq ι] in
/-- **Who is about to offer a value** finds none on its way. -/
theorem idle_of_holdsW (h : SyncOk s) (hi : (s.thread i).HoldsW = true)
    (hoffers : (s.thread i).Offers = false) :
    (∀ j, (s.thread j).Offers = false) ∧ s.offered = s.returned ∧
      (s.closed = false → s.wWaiting = 0 ∧ s.offered = s.taken) := by
  have hnone : ∀ j, (s.thread j).Offers = false := fun j => by
    by_cases hj : j = i
    · rwa [hj]
    · exact h.counts.others_not_offers hi hj
  cases h.handover with
  | idle _ hreturned hopen => exact ⟨hnone, hreturned, hopen⟩
  | lies j d hj => exact absurd (hnone j) (by rw [hj]; exact Bool.noConfusion)
  | done j d hj => exact absurd (hnone j) (by rw [hj]; exact Bool.noConfusion)

omit [DecidableEq ι] in
/-- **Who finds a value** finds its sender asleep. -/
theorem lies_of_waiting (h : SyncOk s) (hopen : s.closed = false) (hsome : s.wWaiting ≠ 0) :
    ∃ j d, s.thread j = .sendSleeps d ∧ (∀ k, k ≠ j → (s.thread k).Offers = false) ∧
      s.offered = s.returned ++ [d] ∧ s.data = some d ∧ s.wWaiting = 1 ∧
      s.offered = s.taken ++ [d] := by
  cases h.handover with
  | idle _ _ hidle => exact absurd (hidle hopen).1 hsome
  | lies j d hj hothers hreturned _ hdata hwaiting htaken =>
    exact ⟨j, d, hj, hothers, hreturned, hdata, hwaiting, htaken⟩
  | done _ _ _ _ _ hdone => exact absurd (hdone hopen).1 hsome

omit [DecidableEq ι] in
/-- **Where a sender sleeps**, its value lies there, in a channel that is open. -/
theorem lies_of_sendSleeps (h : SyncOk s) {d : α} (hi : s.thread i = .sendSleeps d) :
    s.closed = false ∧ s.wWaiting = 1 ∧ s.offered = s.taken ++ [d] := by
  cases h.handover with
  | idle hidle => exact absurd (hidle i) (by rw [hi]; exact Bool.noConfusion)
  | lies j c hj hothers _ hopen _ hwaiting htaken =>
    obtain rfl : i = j := by
      by_contra hij
      exact absurd (hothers i hij) (by rw [hi]; exact Bool.noConfusion)
    obtain rfl := SyncPc.sendSleeps.inj (hi.symm.trans hj)
    exact ⟨hopen, hwaiting, htaken⟩
  | done j c hj hothers =>
    obtain rfl : i = j := by
      by_contra hij
      exact absurd (hothers i hij) (by rw [hi]; exact Bool.noConfusion)
    rw [hi] at hj
    contradiction

/-- **A value is offered.** -/
theorem offers (h : SyncOk s) {data : α} (hi : s.thread i = .sendHolds data)
    (hopen : s.closed = false) {woken : Finset ι}
    (hwoken : (SyncPc.rCond α).Signals woken (s.offeredBy i data).thread) :
    SyncOk ((s.offeredBy i data).signalled (SyncPc.rCond α) woken) := by
  obtain ⟨hnone, hreturned, hidle⟩ := h.idle_of_holdsW (by rw [hi]; rfl) (by rw [hi]; rfl)
  obtain ⟨hzero, htaken⟩ := hidle hopen
  have hhand : Handover (s.offeredBy i data) := by
    refine .lies i data (Function.update_self _ _ _) (fun j hj => ?_) ?_ hopen rfl ?_ ?_
    · exact (congrArg SyncPc.Offers (Function.update_of_ne hj _ _)).trans (hnone j)
    · exact congrArg (· ++ [data]) hreturned
    · change s.wWaiting + 1 = 1
      rw [hzero, zero_add]
    · exact congrArg (· ++ [data]) htaken
  refine ⟨?_, hhand.signalled woken, ⟨[data], congrArg (· ++ [data]) htaken, le_rfl⟩, ?_, ?_⟩
  · have hcounts : SyncCounts (s.offeredBy i data) := h.counts.goto hi rfl rfl rfl rfl
    exact hcounts.signalled SyncPc.harmless_rCond woken
  · have htold : (SyncPc.sendSleeps data).Told s.closed s.taken := trivial
    exact told_wake SyncPc.harmless_rCond (told_goto h.told htold (List.Subset.refl _)) woken
  · intro n hn
    cases n with
    | zero => exact CondVar.served_zero _
    | succ n =>
      have hbefore : (SyncPc.rCond α).Served n (s.offeredBy i data).thread := by
        refine (h.readers n (hn.imp id fun hle => ?_)).update (absurd · Bool.false_ne_true)
          (by rw [hi]; exact Bool.false_ne_true.elim)
        change ((n + 1 : ℕ) : ℤ) ≤ s.wWaiting + 1 at hle
        omega
      exact hbefore.signal hwoken

/-- **A value is taken**, and its sender is the one who is woken. -/
theorem takes (h : SyncOk s) (hi : s.thread i = .recvHolds) (hopen : s.closed = false)
    (hsome : s.wWaiting ≠ 0) {woken : Finset ι}
    (hwoken : (SyncPc.wCond α).Signals woken (s.takenBy i).thread) :
    SyncOk ((s.takenBy i).signalled (SyncPc.wCond α) woken) := by
  obtain ⟨j, d, hj, hothers, hreturned, hdata, hone, htaken⟩ := h.lies_of_waiting hopen hsome
  have hji : j ≠ i := fun heq => by
    rw [heq, hi] at hj
    contradiction
  have hj' : (s.takenBy i).thread j = .sendSleeps d := (Function.update_of_ne hji _ _).trans hj
  have hothers' : ∀ k, k ≠ j → ((s.takenBy i).thread k).Offers = false := fun k hk => by
    by_cases hki : k = i
    · rw [hki, SyncChan.takenBy, SyncChan.goto_thread_self]
      rfl
    · exact (congrArg SyncPc.Offers (Function.update_of_ne hki _ _)).trans (hothers k hk)
  obtain rfl : woken = {j} := by
    refine Finset.eq_singleton_iff_nonempty_unique_mem.mpr ⟨hwoken.2 ⟨j, by rw [hj']; rfl⟩, ?_⟩
    intro k hk
    obtain ⟨data, hsleep⟩ := SyncPc.asleep_wCond (hwoken.1 k hk)
    by_contra hkj
    exact absurd (hothers' k hkj) (by rw [hsleep]; exact Bool.noConfusion)
  have hwake : (SyncPc.wCond α).wake {j} (s.takenBy i).thread j = .sendWoken d := by
    rw [CondVar.wake_of_mem (Finset.mem_singleton_self j), hj']
    rfl
  have hlog : (s.takenBy i).taken = s.taken ++ [d] := by
    change s.taken ++ s.data.toList = _
    rw [hdata]
    rfl
  have htold : (SyncPc.received 0 s.data).Told s.closed (s.takenBy i).taken := by
    rw [hlog]
    exact .inl ⟨rfl, d, List.mem_append_right _ (List.mem_singleton_self d), hdata⟩
  refine ⟨?_, .done j d hwake (fun k hk => ?_) hreturned fun _ => ⟨?_, htaken.trans hlog.symm⟩,
    ⟨[], (htaken.trans hlog.symm).trans (List.append_nil _).symm, Nat.zero_le _⟩, ?_, ?_⟩
  · have hheld := h.counts.rMu_eq_true (i := i) (by rw [hi]; rfl)
    have hcounts : SyncCounts (s.takenBy i) :=
      h.counts.goto hi rfl rfl (by rw [hheld]; rfl) rfl
    exact hcounts.signalled SyncPc.harmless_wCond _
  · change ((SyncPc.wCond α).wake {j} (s.takenBy i).thread k).Offers = false
    rw [CondVar.wake_of_notMem (fun hmem => hk (Finset.mem_singleton.mp hmem))]
    exact hothers' k hk
  · change s.wWaiting - 1 = 0
    rw [hone, sub_self]
  · exact told_wake SyncPc.harmless_wCond
      (told_goto h.told htold (List.subset_append_left _ _)) {j}
  · intro n hn
    have hmore := h.readers (n + 1) (hn.imp id fun hle => by
      change (n : ℤ) ≤ s.wWaiting - 1 at hle
      push_cast
      omega)
    have hafter : (SyncPc.rCond α).Served n (s.takenBy i).thread := hmore.take Bool.false_ne_true
    exact SyncPc.served_wake hafter {j}

/-- **A sender returns** whose value has been taken, or whose channel has been closed. -/
theorem returns (h : SyncOk s) {data : α} (hi : s.thread i = .sendWoken data) :
    SyncOk ({ s with wMu := false, returned := s.returned ++ [data] }.goto i (.sent 0)) := by
  have hheld := h.counts.wMu_eq_true (i := i) (by rw [hi]; rfl)
  refine ⟨h.counts.goto hi rfl (by rw [hheld]; rfl) rfl rfl, ?_, h.lost,
    told_goto h.told (.inl rfl) (List.Subset.refl _), fun n hn => ?_⟩
  · have hnone : ∀ j, j ≠ i → (s.thread j).Offers = false := fun j hj =>
      h.counts.others_not_offers (by rw [hi]; rfl) hj
    have hoffers : (s.thread i).Offers = true := by rw [hi]; rfl
    cases h.handover with
    | idle hidle => exact absurd (hidle i) (by rw [hoffers]; exact Bool.noConfusion)
    | lies j d hj hothers =>
      obtain rfl : i = j := by
        by_contra hij
        exact absurd (hothers i hij) (by rw [hoffers]; exact Bool.noConfusion)
      rw [hi] at hj
      contradiction
    | done j d hj hothers hreturned hopen =>
      obtain rfl : i = j := by
        by_contra hij
        exact absurd (hothers i hij) (by rw [hoffers]; exact Bool.noConfusion)
      obtain rfl := SyncPc.sendWoken.inj (hi.symm.trans hj)
      refine .idle (fun j => ?_) hreturned hopen
      change (Function.update s.thread i (.sent 0) j).Offers = false
      by_cases hji : j = i
      · rw [hji, Function.update_self]
        rfl
      · rw [Function.update_of_ne hji]
        exact hnone j hji
  · exact (h.readers n hn).update (absurd · Bool.false_ne_true) (by rw [hi]; exact Bool.false_ne_true.elim)

/-- **The channel is closed**, and all are woken. -/
theorem close (h : SyncOk s) : SyncOk s.chanClose.1 := by
  rw [SyncChan.chanClose]
  split_ifs with hclosed
  · exact h
  have hopen := Bool.eq_false_of_not_eq_true hclosed
  rw [CondVar.wakeAll_eq, CondVar.wakeAll_eq]
  have hr : SyncOk (s.signalled (SyncPc.rCond α) Finset.univ) :=
    ⟨h.counts.signalled SyncPc.harmless_rCond _, h.handover.signalled _, h.lost,
      told_wake SyncPc.harmless_rCond h.told _, fun n hn => (h.readers n hn).wake _⟩
  have hcounts := hr.counts.signalled SyncPc.harmless_wCond Finset.univ
  refine ⟨⟨hcounts.wMu, hcounts.rMu, hcounts.rWaiting⟩, ?_, h.lost, ?_, ?_⟩
  · have hwake : ∀ l : SyncPc α, l.Offers = false → ((SyncPc.wCond α).up l).Offers = false :=
      fun l hl => by
        rw [CondVar.up_of_not_asleep fun hsleep => by
          obtain ⟨data, rfl⟩ := SyncPc.asleep_wCond hsleep
          exact Bool.noConfusion hl]
        exact hl
    cases hr.handover with
    | idle hidle hreturned =>
      refine .idle (fun j => ?_) hreturned fun htrue => Bool.noConfusion htrue
      exact (congrArg SyncPc.Offers (CondVar.wake_of_mem (Finset.mem_univ j))).trans
        (hwake _ (hidle j))
    | lies j d hj hothers hreturned =>
      refine .done j d ?_ (fun k hk => ?_) hreturned fun htrue => Bool.noConfusion htrue
      · exact (CondVar.wake_of_mem (Finset.mem_univ j)).trans
          (congrArg (SyncPc.wCond α).up hj)
      · exact (congrArg SyncPc.Offers (CondVar.wake_of_mem (Finset.mem_univ k))).trans
          (hwake _ (hothers k hk))
    | done j d hj hothers hreturned =>
      refine .done j d ?_ (fun k hk => ?_) hreturned fun htrue => Bool.noConfusion htrue
      · exact (CondVar.wake_of_mem (Finset.mem_univ j)).trans
          (congrArg (SyncPc.wCond α).up hj)
      · exact (congrArg SyncPc.Offers (CondVar.wake_of_mem (Finset.mem_univ k))).trans
          (hwake _ (hothers k hk))
  · refine told_wake SyncPc.harmless_wCond (fun i => ?_) Finset.univ
    exact (hr.told i).mono (fun _ => rfl) (List.Subset.refl _)
  · intro n _
    have hall : (SyncPc.rCond α).Served n _ := CondVar.served_wakeAll n s.thread
    rw [CondVar.wakeAll_eq] at hall
    exact SyncPc.served_wake hall Finset.univ

/-- **One step of a thread.** -/
theorem threadStep (h : SyncOk s) (hs : s.ThreadStep i t) : SyncOk t := by
  cases hs with
  | refused hi hclosed =>
    exact h.goto_awake hi ⟨rfl, rfl⟩ rfl rfl rfl (.inr ⟨rfl, hclosed⟩) Bool.false_ne_true id
  | opened hi => exact h.goto_awake hi ⟨rfl, rfl⟩ rfl rfl rfl trivial Bool.false_ne_true id
  | locksW hi hfree =>
    exact h.goto_awake hi ⟨rfl, rfl⟩ (by rw [hfree]; rfl) rfl rfl trivial Bool.false_ne_true id
  | refusedLate hi hclosed =>
    have hheld := h.counts.wMu_eq_true (i := i) (by rw [hi]; rfl)
    exact h.goto_awake hi ⟨rfl, rfl⟩ (by rw [hheld]; rfl) rfl rfl (.inr ⟨rfl, hclosed⟩)
      Bool.false_ne_true id
  | offers hi hopen hwoken => exact h.offers hi hopen hwoken
  | returns hi => exact h.returns hi
  | locksR hi hfree =>
    exact h.goto_awake hi ⟨rfl, rfl⟩ rfl (by rw [hfree]; rfl) rfl trivial Bool.false_ne_true
      Bool.false_ne_true.elim
  | empty hi hopen hnone =>
    -- there is no value, so that no receiver is missed
    refine h.goto hi ⟨rfl, rfl⟩ rfl rfl (by simp [SyncPc.RWaits]) trivial fun n hn => ?_
    have hle := hn.resolve_left (by rw [hopen]; exact Bool.false_ne_true)
    obtain rfl : n = 0 := by omega
    exact CondVar.served_zero _
  | ended hi hclosed =>
    have hheld := h.counts.rMu_eq_true (i := i) (by rw [hi]; rfl)
    refine h.goto hi ⟨rfl, rfl⟩ rfl (by rw [hheld]; rfl) rfl (.inr ⟨rfl, rfl, hclosed⟩)
      fun n _ => ?_
    have hmore := h.readers (n + 1) (.inl hclosed)
    exact hmore.take Bool.false_ne_true
  | takes hi hopen hsome hwoken => exact h.takes hi hopen hsome hwoken

/-- A thread that is outside calls something. -/
theorem call (h : SyncOk s) {pc : SyncPc α} (hs : s.call i pc = .ret t)
    (hpc : pc.HoldsW = false ∧ pc.HoldsR = false ∧ pc.RWaits = false ∧ pc.Offers = false)
    (htold : pc.Told s.closed s.taken) (hsleep : ¬ (SyncPc.rCond α).Asleep pc) : SyncOk t := by
  obtain ⟨hw, hr, hwaits, hoffers⟩ := hpc
  rw [SyncChan.call] at hs
  split at hs
  case h_4 => contradiction
  all_goals
    rename_i hi
    obtain rfl := Outcome.ret.inj hs
    exact h.goto_awake hi ⟨rfl, hoffers⟩ (by rw [hw]; rfl) (by rw [hr]; rfl) (by rw [hwaits]; rfl)
      htold hsleep Bool.false_ne_true.elim

end SyncOk

end Steps

/-! ## Runs -/

section Runs

variable [DecidableEq ι] {s t u : SyncChan ι α}

/-- No sender wakes without a signal. -/
def SyncEvent.isCalm : SyncEvent ι α → Bool
  | .spurious writers _ => writers = ∅
  | _ => true

/-- **One step of the channel.** -/
theorem SyncOk.step (h : SyncOk s) {e : SyncEvent ι α} (he : e.isCalm = true)
    (hs : syncStep s e = .ret t) : SyncOk t := by
  cases e with
  | callSend i data => exact h.call hs ⟨rfl, rfl, rfl, rfl⟩ trivial Bool.false_ne_true
  | callRecv i => exact h.call hs ⟨rfl, rfl, rfl, rfl⟩ trivial Bool.false_ne_true
  | thread i woken =>
    have hresumed := h.resumed i
    exact hresumed.threadStep (SyncChan.threadStep_cases hresumed.counts.rWaiting hs)
  | close =>
    obtain rfl := Outcome.ret.inj hs
    exact h.close
  | spurious writers readers =>
    obtain rfl := of_decide_eq_true he
    obtain rfl := Outcome.ret.inj hs
    rw [CondVar.wake_empty]
    exact ⟨h.counts.signalled SyncPc.harmless_rCond readers, h.handover.signalled readers, h.lost,
      told_wake SyncPc.harmless_rCond h.told readers, fun n hn => (h.readers n hn).wake readers⟩

theorem SyncOk.of_run {es : List (SyncEvent ι α)} (hes : ∀ e ∈ es, e.isCalm = true)
    (hr : run syncStep unbufferedChanInit es = .ret s) : SyncOk s :=
  run_invariant (fun e he _ _ h hs => h.step (hes e he) hs) syncOk_init hr

/-- **A value passes from hand to hand.**  As long as no sender wakes without a signal, in every run
of an unbuffered channel the values are taken in the order in which they are offered, and all but the
last have been taken, and each `chan_send` returns in that order too; while the channel is open, what
has been sent has been taken; calls fail on closed channels only, and a `chan_recv` that does not gets
a value; and one sender and one receiver at a time hold the channel. -/
theorem sync_rendezvous {es : List (SyncEvent ι α)} (hes : ∀ e ∈ es, e.isCalm = true)
    (hr : run syncStep unbufferedChanInit es = .ret s) :
    (∃ l, s.offered = s.taken ++ l ∧ l.length ≤ 1) ∧
      (∃ l, s.offered = s.returned ++ l ∧ l.length ≤ 1) ∧
      (s.closed = false → s.returned <+: s.taken) ∧
      (∀ i, (s.thread i).Told s.closed s.taken) ∧
      (∀ i j, (s.thread i).HoldsW = true → (s.thread j).HoldsW = true → i = j) ∧
      ∀ i j, (s.thread i).HoldsR = true → (s.thread j).HoldsR = true → i = j := by
  have h := SyncOk.of_run hes hr
  refine ⟨h.lost, ?_, fun hopen => ?_, h.told, fun i j => h.counts.writer_unique, fun i j =>
    tally_le_one (p := (SyncPc.HoldsR · = true)) (f := s.thread)
      (h.counts.rMu ▸ Bool.toNat_le _)⟩
  · cases h.handover with
    | idle _ hreturned => exact ⟨[], hreturned.trans (List.append_nil _).symm, Nat.zero_le _⟩
    | lies _ d _ _ hreturned => exact ⟨[d], hreturned, le_rfl⟩
    | done _ d _ _ hreturned => exact ⟨[d], hreturned, le_rfl⟩
  · cases h.handover with
    | idle _ hreturned hidle => exact (hreturned.symm.trans (hidle hopen).2) ▸ List.prefix_rfl
    | lies _ d _ _ hreturned _ _ _ htaken =>
      exact (List.append_cancel_right (hreturned.symm.trans htaken)) ▸ List.prefix_rfl
    | done _ d _ _ hreturned hdone => exact ⟨[d], hreturned.symm.trans (hdone hopen).2⟩

/-- A receiver sleeps, a sender comes, and the value is taken. -/
def exchange (d : ℕ) : List (SyncEvent Bool ℕ) :=
  [.callRecv true, .callSend false d, .thread true ∅, .thread true ∅, .thread false ∅,
    .thread false ∅, .thread false {true}, .thread true {false}, .thread false ∅]

/-- Two values pass, one after the other. -/
theorem sync_rendezvous_two : ∃ s : SyncChan Bool ℕ,
    run syncStep unbufferedChanInit (exchange 7 ++ exchange 8) = .ret s ∧
    s.taken = [7, 8] ∧ s.thread false = .sent 0 ∧
    (∃ l, s.offered = s.taken ++ l ∧ l.length ≤ 1) ∧
      (∃ l, s.offered = s.returned ++ l ∧ l.length ≤ 1) ∧
      (s.closed = false → s.returned <+: s.taken) ∧
      (∀ i, (s.thread i).Told s.closed s.taken) ∧
      (∀ i j, (s.thread i).HoldsW = true → (s.thread j).HoldsW = true → i = j) ∧
      ∀ i j, (s.thread i).HoldsR = true → (s.thread j).HoldsR = true → i = j := by
  have hrun : (run syncStep unbufferedChanInit (exchange 7 ++ exchange 8) >>= fun s =>
      .ret (s.taken, s.thread false)) = .ret ([7, 8], .sent 0) := by decide
  obtain ⟨s, hs, hlast⟩ := Outcome.bind_eq_ret.mp hrun
  obtain ⟨htaken, hsent⟩ := Prod.mk.inj (Outcome.ret.inj hlast)
  exact ⟨s, hs, htaken, hsent, sync_rendezvous (by simp [exchange, SyncEvent.isCalm]) hs⟩

/-! ## A value on its way when the channel is closed -/

/-- Who calls, if it is a call. -/
def SyncEvent.caller : SyncEvent ι α → Option ι
  | .callSend i _ | .callRecv i => some i
  | _ => none

/-- **A thread in a closed channel**: whoever sends or receives is turned away, and whoever was
asleep in a send returns 0. -/
theorem SyncChan.threadStep_closed {i : ι} {woken : Finset ι} (hclosed : s.closed = true)
    (hs : s.threadStep i woken = .ret t) :
    ∃ pc, t.thread = Function.update s.thread i pc ∧ t.closed = true ∧ t.offered = s.offered ∧
      t.taken = s.taken ∧ s.thread i ≠ .sent 0 ∧ (∀ d, s.thread i = .sendWoken d → pc = .sent 0) ∧
        ¬ (SyncPc.wCond α).Asleep pc := by
  rw [threadStep] at hs
  split at hs
  next data hi =>
    obtain rfl := Outcome.ret.inj hs
    refine ⟨_, rfl, hclosed, rfl, rfl, by simp [hi], by simp [hi], ?_⟩
    rw [hclosed]
    exact Bool.false_ne_true
  next data hi =>
    split_ifs at hs
    obtain rfl := Outcome.ret.inj hs
    exact ⟨_, rfl, hclosed, rfl, rfl, by simp [hi], by simp [hi], Bool.false_ne_true⟩
  next data hi =>
    rw [unbufferedChanSend, if_pos hclosed] at hs
    obtain rfl := Outcome.ret.inj hs
    exact ⟨_, rfl, hclosed, rfl, rfl, by simp [hi], by simp [hi], Bool.false_ne_true⟩
  next data hi =>
    obtain rfl := Outcome.ret.inj hs
    exact ⟨_, rfl, hclosed, rfl, rfl, by simp [hi], fun _ _ => rfl, Bool.false_ne_true⟩
  next hi =>
    split_ifs at hs
    obtain rfl := Outcome.ret.inj hs
    exact ⟨_, rfl, hclosed, rfl, rfl, by simp [hi], by simp [hi], Bool.false_ne_true⟩
  next hi =>
    rw [unbufferedChanRecv, if_neg (by rw [hclosed]; simp), if_pos hclosed] at hs
    obtain rfl := Outcome.ret.inj hs
    exact ⟨_, rfl, hclosed, rfl, rfl, by simp [hi], by simp [hi], Bool.false_ne_true⟩
  next hi =>
    rw [unbufferedChanRecv, if_neg (by simp [hclosed]), if_pos hclosed] at hs
    obtain rfl := Outcome.ret.inj hs
    exact ⟨_, rfl, hclosed, rfl, rfl, by simp [hi], by simp [hi], Bool.false_ne_true⟩
  all_goals contradiction

/-- A channel that is closed stays as it is. -/
theorem syncStep_closed {e : SyncEvent ι α} (hclosed : s.closed = true)
    (hs : syncStep s e = .ret t) :
    t.closed = true ∧ t.offered = s.offered ∧ t.taken = s.taken := by
  cases e with
  | thread i woken =>
    obtain ⟨pc, -, hclosed, hoffered, htaken, -, -, -⟩ := SyncChan.threadStep_closed hclosed hs
    exact ⟨hclosed, hoffered, htaken⟩
  | close =>
    obtain rfl := Outcome.ret.inj hs
    rw [SyncChan.chanClose, if_pos hclosed]
    exact ⟨hclosed, rfl, rfl⟩
  | spurious writers readers =>
    obtain rfl := Outcome.ret.inj hs
    exact ⟨hclosed, rfl, rfl⟩
  | callSend i | callRecv i =>
    rw [syncStep, SyncChan.call] at hs
    split at hs
    case h_4 => contradiction
    all_goals
      obtain rfl := Outcome.ret.inj hs
      exact ⟨hclosed, rfl, rfl⟩

/-- In a closed channel, who has been woken in a send returns 0, and has done so until it calls
again. -/
theorem syncStep_returning {e : SyncEvent ι α} {i : ι} {d : α} (hclosed : s.closed = true)
    (hi : s.thread i = .sendWoken d ∨ s.thread i = .sent 0) (he : e.caller ≠ some i)
    (hs : syncStep s e = .ret t) : t.thread i = .sendWoken d ∨ t.thread i = .sent 0 := by
  have hsame : ∀ {thread : ι → SyncPc α}, thread i = s.thread i →
      thread i = .sendWoken d ∨ thread i = .sent 0 := fun heq => by rwa [heq]
  have hawake : ¬ (SyncPc.wCond α).Asleep (s.thread i) ∧ ¬ (SyncPc.rCond α).Asleep (s.thread i) := by
    rcases hi with hi | hi <;> rw [hi] <;> exact ⟨Bool.false_ne_true, Bool.false_ne_true⟩
  cases e with
  | thread j woken =>
    obtain ⟨pc, hthread, -, -, -, hsent, hwoken, -⟩ := SyncChan.threadStep_closed hclosed hs
    rw [hthread]
    by_cases hji : i = j
    · subst hji
      rw [Function.update_self]
      exact .inr (hwoken d (hi.resolve_right hsent))
    · exact hsame (Function.update_of_ne hji _ _)
  | close =>
    obtain rfl := Outcome.ret.inj hs
    rw [SyncChan.chanClose, if_pos hclosed]
    exact hi
  | spurious writers readers =>
    obtain rfl := Outcome.ret.inj hs
    have hr : (SyncPc.rCond α).wake readers s.thread i = s.thread i :=
      CondVar.wake_of_not_asleep hawake.2
    exact hsame ((CondVar.wake_of_not_asleep (hr ▸ hawake.1)).trans hr)
  | callSend j | callRecv j =>
    have hji : i ≠ j := fun heq => he (congrArg some heq.symm)
    rw [syncStep, SyncChan.call] at hs
    split at hs
    case h_4 => contradiction
    all_goals
      obtain rfl := Outcome.ret.inj hs
      exact hsame (Function.update_of_ne hji _ _)

theorem SyncChan.signal_closed {cv : CondVar (SyncPc α)} {woken : Finset ι}
    (hs : s.signal cv woken = .ret t) : t.closed = s.closed := by
  obtain ⟨-, rfl⟩ := SyncChan.signal_eq_ret.mp hs
  rfl

theorem SyncChan.unbufferedChanRecv_closed {i : ι} {woken : Finset ι}
    (hs : s.unbufferedChanRecv i woken = .ret t) : t.closed = s.closed := by
  rw [unbufferedChanRecv] at hs
  split_ifs at hs
  · exact Outcome.ret.inj hs ▸ rfl
  · exact Outcome.ret.inj hs ▸ rfl
  · exact (SyncChan.signal_closed (s := s.takenBy i) hs).trans rfl

/-- No thread closes the channel. -/
theorem SyncChan.threadStep_open {i : ι} {woken : Finset ι} (hopen : s.closed = false)
    (hs : s.threadStep i woken = .ret t) : t.closed = false := by
  rw [threadStep] at hs
  split at hs
  case h_3 =>
    rw [unbufferedChanSend, if_neg (by rw [hopen]; exact Bool.false_ne_true)] at hs
    dsimp only at hs
    split_ifs at hs
    · exact (SyncChan.signal_closed hs).trans hopen
    · exact Outcome.ret.inj hs ▸ hopen
  case h_6 | h_7 => exact (SyncChan.unbufferedChanRecv_closed hs).trans hopen
  case h_1 | h_4 => exact Outcome.ret.inj hs ▸ hopen
  case h_2 | h_5 =>
    split_ifs at hs
    exact Outcome.ret.inj hs ▸ hopen
  all_goals contradiction

/-- In a closed channel no sender is asleep. -/
def SyncChan.Roused (s : SyncChan ι α) : Prop :=
  s.closed = true → ∀ i, ¬ (SyncPc.wCond α).Asleep (s.thread i)

theorem SyncChan.Roused.step (h : s.Roused) {e : SyncEvent ι α} (hs : syncStep s e = .ret t) :
    t.Roused := by
  intro hclosed i
  cases e with
  | thread j woken =>
    cases hopen : s.closed with
    | false =>
      have hstays := SyncChan.threadStep_open hopen hs
      exact absurd (hstays.symm.trans hclosed) Bool.false_ne_true
    | true =>
      obtain ⟨pc, hthread, -, -, -, -, -, hpc⟩ := SyncChan.threadStep_closed hopen hs
      rw [hthread]
      by_cases hji : i = j
      · rwa [hji, Function.update_self]
      · rw [Function.update_of_ne hji]
        exact h hopen i
  | close =>
    obtain rfl := Outcome.ret.inj hs
    rw [SyncChan.chanClose] at hclosed ⊢
    split_ifs at hclosed ⊢ with hopen
    · exact h hopen i
    · exact CondVar.not_asleep_up _
  | spurious writers readers =>
    obtain rfl := Outcome.ret.inj hs
    have hawake := h hclosed i
    rcases (SyncPc.wCond α).wake_cases writers ((SyncPc.rCond α).wake readers s.thread) i with
      heq | ⟨-, heq⟩
    · dsimp only
      rw [heq]
      rcases (SyncPc.rCond α).wake_cases readers s.thread i with heq' | ⟨hsleep, heq'⟩
      · rwa [heq']
      · rw [heq', SyncPc.asleep_rCond hsleep]
        exact Bool.false_ne_true
    · dsimp only
      rw [heq]
      exact CondVar.not_asleep_up _
  | callSend j | callRecv j =>
    rw [syncStep, SyncChan.call] at hs
    split at hs
    case h_4 => contradiction
    all_goals
      obtain rfl := Outcome.ret.inj hs
      by_cases hji : i = j
      · rw [hji, SyncChan.goto_thread_self]
        exact Bool.false_ne_true
      · rw [SyncChan.goto_thread_of_ne s hji]
        exact h hclosed i

/-- **A value that is on its way when the channel is closed is lost**, and its `chan_send` does not
say so: whatever happens then, no `chan_recv` takes it, nor any other value, and the call cannot
return anything but 0.  That it is the one value on its way takes a run in which no sender has woken
without a signal. -/
theorem sync_close_loses {es fs : List (SyncEvent ι α)} {i : ι} {d : α}
    (hr : run syncStep unbufferedChanInit es = .ret s) (hi : s.thread i = .sendSleeps d)
    (hafter : run syncStep s (.close :: fs) = .ret t) :
    ((∀ e ∈ es, e.isCalm = true) → s.offered = s.taken ++ [d]) ∧
      t.offered = s.offered ∧ t.taken = s.taken ∧
        ((∀ e ∈ fs, e.caller ≠ some i) → t.thread i = .sendWoken d ∨ t.thread i = .sent 0) := by
  have hroused : s.Roused := run_invariant (fun _ _ _ _ h hs => h.step hs)
    (fun hclosed => absurd hclosed Bool.false_ne_true) hr
  have hopen : s.closed = false := Bool.eq_false_of_not_eq_true fun hclosed =>
    hroused hclosed i (by rw [hi]; rfl)
  obtain ⟨c, hc, hafter⟩ := Outcome.bind_eq_ret.mp hafter
  obtain rfl := Outcome.ret.inj hc
  have hclose : s.chanClose.1 = { s with
      closed := true
      thread := (SyncPc.wCond α).wakeAll ((SyncPc.rCond α).wakeAll s.thread) } := by
    rw [SyncChan.chanClose, if_neg (by rw [hopen]; exact Bool.false_ne_true)]
  rw [hclose] at hafter
  have hkept := run_invariant
    (I := fun t => t.closed = true ∧ t.offered = s.offered ∧ t.taken = s.taken)
    (fun e _ u v hu hstep => by
      obtain ⟨hclosed, hoffered, hv⟩ := syncStep_closed hu.1 hstep
      exact ⟨hclosed, hoffered.trans hu.2.1, hv.trans hu.2.2⟩) ⟨rfl, rfl, rfl⟩ hafter
  refine ⟨fun hes => ((SyncOk.of_run hes hr).lies_of_sendSleeps hi).2.2, hkept.2.1, hkept.2.2,
    fun hfs => ?_⟩
  have hreturns := run_invariant
    (I := fun t => t.closed = true ∧ (t.thread i = .sendWoken d ∨ t.thread i = .sent 0))
    (fun e he u v hu hstep =>
      ⟨(syncStep_closed hu.1 hstep).1, syncStep_returning hu.1 hu.2 (hfs e he) hstep⟩)
    ⟨rfl, .inl ?_⟩ hafter
  · exact hreturns.2
  · change (SyncPc.wCond α).up ((SyncPc.rCond α).up (s.thread i)) = _
    rw [hi]
    rfl

/-- The value 7 is lost. -/
theorem sync_close_loses_seven : ∃ s t : SyncChan Bool ℕ,
    run syncStep unbufferedChanInit [.callSend false 7, .thread false ∅, .thread false ∅,
      .thread false ∅] = .ret s ∧
    run syncStep s [.close, .thread false ∅, .callRecv true, .thread true ∅, .thread true ∅] =
      .ret t ∧
    t.thread false = .sent 0 ∧ t.thread true = .received (-1) none ∧
    s.offered = s.taken ++ [7] ∧ t.offered = s.offered ∧ t.taken = s.taken := by
  have hrun : (run syncStep (unbufferedChanInit : SyncChan Bool ℕ) [.callSend false 7,
      .thread false ∅, .thread false ∅, .thread false ∅] >>= fun s =>
      run syncStep s [.close, .thread false ∅, .callRecv true, .thread true ∅, .thread true ∅] >>=
        fun t => .ret (s.thread false, t.thread false, t.thread true)) =
      .ret (.sendSleeps 7, .sent 0, .received (-1) none) := by decide
  obtain ⟨s, hs, hrun⟩ := Outcome.bind_eq_ret.mp hrun
  obtain ⟨t, ht, hlast⟩ := Outcome.bind_eq_ret.mp hrun
  obtain ⟨hi, hrest⟩ := Prod.mk.inj (Outcome.ret.inj hlast)
  obtain ⟨hsent, hreceived⟩ := Prod.mk.inj hrest
  obtain ⟨htaken, hoffered, hsame, -⟩ := sync_close_loses hs hi ht
  exact ⟨s, t, hs, ht, hsent, hreceived, htaken (by simp [SyncEvent.isCalm]), hoffered, hsame⟩

end Runs

end TrivalTcp
