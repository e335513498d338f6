import TrivalTcp.Pool.Accounts

/-!
# Pool/Progress — left alone, the pool finishes every job

A signal wakes one thread, and the thread that is woken may come too late.  `PoolLive` says that no
job is left lying all the same: while there are jobs, some thread is on its way to pull one, or the
semaphore is set and not everybody sleeps.  A caller of `thpool_wait` sleeps only while there is
something to wait for.

* `idle_of_atRest` — where no thread can go on, every job is finished, and `thpool_wait` has returned;
* `pool_drains` — and there they get, within a number of steps known beforehand.

Both are about a pool that has a thread, and about one thread at most that calls `thpool_wait`: a
second one sleeps on, as the signal is for one.
-/

namespace TrivalTcp

variable {ι κ α : Type} [Fintype ι] [DecidableEq ι] [DecidableEq κ] {s t : Thpool ι κ α}

/-! ## No job is left lying -/

/-- The thread has been let through by the semaphore, and has not pulled yet. -/
def ThreadPc.Serves : ThreadPc α → Bool
  | posted | enters | pulls => true
  | _ => false

/-- The thread has left the loop. -/
def ThreadPc.Left : ThreadPc α → Bool
  | leaves | unlocks | gone => true
  | _ => false

/-- **What keeps the pool going.** -/
structure PoolLive (s : Thpool ι κ α) : Prop where
  ok : PoolOk s
  /-- No thread leaves as long as the pool is kept alive. -/
  keep : s.threadsKeepalive = true → ∀ i, (s.thread i).Left = false
  served : (hasJobsCond α).Served s.hasJobs.toNat s.thread
  token : s.threadsKeepalive = true → s.jobqueue.jobs ≠ [] →
    s.hasJobs = true ∨ ∃ i, (s.thread i).Serves = true

/-- **Who sleeps in `thpool_wait` waits for something.** -/
def CallersLive (s : Thpool ι κ α) : Prop :=
  ∀ k, s.caller k = .sleeps → s.jobqueue.jobs ≠ [] ∨ s.numThreadsWorking ≠ 0

/-! ### Thread by thread -/

section Update

variable {threads : ι → ThreadPc α} {i : ι} {pc : ThreadPc α}

omit [Fintype ι] in
/-- What holds of every thread and of the one that goes on. -/
theorem forall_update {P : ThreadPc α → Prop} (h : ∀ j, P (threads j)) (hpc : P pc) (j : ι) :
    P (Function.update threads i pc j) := by
  by_cases hj : j = i
  · rwa [hj, Function.update_self]
  · rw [Function.update_of_ne hj]
    exact h j

omit [Fintype ι] in
theorem forall_wake {P : ThreadPc α → Prop} (h : ∀ j, P (threads j)) (hwaits : P .waits)
    (woken : Finset ι) (j : ι) : P ((hasJobsCond α).wake woken threads j) := by
  rcases (hasJobsCond α).wake_cases woken threads j with heq | ⟨hsleep, heq⟩
  · rw [heq]
    exact h j
  · rw [heq, asleep_hasJobsCond hsleep]
    exact hwaits

omit [Fintype ι] in
/-- A thread on its way stays on it while another goes on, or while it goes on itself. -/
theorem serves_update (h : ∃ j, (threads j).Serves = true)
    (hpc : (threads i).Serves = true → pc.Serves = true) :
    ∃ j, (Function.update threads i pc j).Serves = true := by
  obtain ⟨j, hj⟩ := h
  refine ⟨j, ?_⟩
  by_cases hji : j = i
  · rw [hji, Function.update_self]
    exact hpc (hji ▸ hj)
  · rwa [Function.update_of_ne hji]

omit [Fintype ι] in
theorem serves_wake (h : ∃ j, (threads j).Serves = true) (woken : Finset ι) :
    ∃ j, ((hasJobsCond α).wake woken threads j).Serves = true := by
  obtain ⟨j, hj⟩ := h
  refine ⟨j, ?_⟩
  rcases (hasJobsCond α).wake_cases woken threads j with heq | ⟨hsleep, -⟩
  · rwa [heq]
  · rw [asleep_hasJobsCond hsleep] at hj
    exact absurd hj Bool.false_ne_true

/-- A thread that neither falls asleep nor stops looking leaves the semaphore served. -/
theorem served_goto {n : ℕ} (h : (hasJobsCond α).Served n threads) (hlook : threads i ≠ .waits)
    (hpc : pc ≠ .sleeps) : (hasJobsCond α).Served n (Function.update threads i pc) := by
  refine h.update (fun hsleep => absurd (asleep_hasJobsCond hsleep) hpc) fun hl => ?_
  cases hi : threads i with
  | waits => exact absurd hi hlook
  | _ => rw [hi] at hl; exact Bool.false_ne_true.elim hl

end Update

omit [DecidableEq ι] [Fintype ι] in
/-- **A signal wakes the only caller there is.** -/
theorem not_sleeps_of_signals [Subsingleton κ] {told : Finset κ} {caller : κ → WaitPc}
    (h : allIdleCond.Signals told caller) (k : κ) :
    allIdleCond.wake told caller k ≠ .sleeps := by
  intro hk
  rcases allIdleCond.wake_cases told caller k with heq | ⟨hsleep, heq⟩
  · have hsleep : allIdleCond.Asleep (caller k) := by
      rw [← heq, hk]
      rfl
    obtain ⟨k', hk'⟩ := h.2 ⟨k, hsleep⟩
    rw [CondVar.wake_of_mem (Subsingleton.elim k' k ▸ hk'), asleep_allIdleCond hsleep] at hk
    contradiction
  · rw [heq, asleep_allIdleCond hsleep] at hk
    contradiction

namespace PoolLive

omit [DecidableEq ι] [DecidableEq κ] in
/-- Who works is counted. -/
theorem working_ne_zero (h : PoolOk s) {i : ι} (hi : (s.thread i).Working = true) :
    s.numThreadsWorking ≠ 0 := by
  intro hzero
  have hnone : tally (ThreadPc.Working · = true) s.thread = 0 :=
    Int.ofNat_eq_zero.mp (h.working.symm.trans hzero)
  exact tally_eq_zero.mp hnone i hi

theorem keep_threadStep (h : PoolLive s) {i : ι} (hs : s.ThreadStep i t)
    (hkeep : t.threadsKeepalive = true) (j : ι) : (t.thread j).Left = false := by
  have hgoto : s.threadsKeepalive = true → ∀ pc : ThreadPc α, pc.Left = false →
      ∀ j, (Function.update s.thread i pc j).Left = false :=
    fun hkeep pc hpc => forall_update (P := (ThreadPc.Left · = false)) (h.keep hkeep) hpc
  cases hs with
  | stops _ hno => exact absurd (hno.symm.trans hkeep) Bool.false_ne_true
  | leaves hi | unlocks hi =>
    have hstays := h.keep hkeep i
    rw [hi] at hstays
    contradiction
  | pulls =>
    exact forall_wake (P := (ThreadPc.Left · = false)) (hgoto hkeep (.runs _) rfl) rfl _ j
  | _ => exact hgoto hkeep _ rfl j

theorem served_threadStep (h : PoolLive s) {i : ι} (hs : s.ThreadStep i t) :
    (hasJobsCond α).Served t.hasJobs.toNat t.thread := by
  cases hs with
  | takes => exact CondVar.served_zero _
  | sleeps _ hjobs =>
    change (hasJobsCond α).Served s.hasJobs.toNat _
    rw [hjobs]
    exact CondVar.served_zero _
  | pulls _ _ _ hwoken => exact (CondVar.served_zero _).signal hwoken
  | starts hi | stays hi | stops hi | serves hi | turns hi | enters hi | pullsNone hi
  | pullsLast hi | runs hi | finishes hi | finishesLast hi | leaves hi | unlocks hi =>
    exact served_goto h.served (by rw [hi]; simp) (by simp)

theorem token_threadStep (h : PoolLive s) {i : ι} (hs : s.ThreadStep i t)
    (hkeep : t.threadsKeepalive = true) (hjobs : t.jobqueue.jobs ≠ []) :
    t.hasJobs = true ∨ ∃ j, (t.thread j).Serves = true := by
  cases hs with
  | takes =>
    exact .inr ⟨i, congrArg ThreadPc.Serves (Thpool.goto_thread_self _ i .posted)⟩
  | turns _ hno => exact absurd (hno.symm.trans hkeep) Bool.false_ne_true
  | pullsNone _ hnil => exact absurd hnil hjobs
  | pullsLast => exact absurd rfl hjobs
  | pulls => exact .inl rfl
  | starts hi | stays hi | stops hi | sleeps hi | serves hi | enters hi | runs hi | finishes hi
  | finishesLast hi | leaves hi | unlocks hi =>
    refine (h.token hkeep hjobs).imp_right fun hserves => serves_update hserves fun hold => ?_
    rw [hi] at hold
    first | rfl | exact hold

/-- **One step of a thread of the pool.** -/
theorem threadStep (h : PoolLive s) {i : ι} (hs : s.ThreadStep i t) : PoolLive t where
  ok := h.ok.threadStep hs
  keep := h.keep_threadStep hs
  served := h.served_threadStep hs
  token := h.token_threadStep hs

omit [DecidableEq ι] [DecidableEq κ] in
/-- The callers of `thpool_wait` are not the pool's concern. -/
theorem of_caller (h : PoolLive s) (caller : κ → WaitPc) : PoolLive { s with caller } where
  ok := h.ok.congr rfl rfl rfl rfl rfl rfl rfl
  keep := h.keep
  served := h.served
  token := h.token

variable [Fintype κ]

/-- **One step of the pool.** -/
theorem step (h : PoolLive s) {e : PoolEvent ι κ α} (hs : poolStep s e = .ret t) : PoolLive t := by
  have hok := h.ok.step hs
  cases e with
  | addWork job woken =>
    obtain ⟨q, hpush, hpost⟩ := Outcome.bind_eq_ret.mp hs
    obtain rfl := Outcome.ret.inj ((jobqueuePush_eq h.ok.counted job).symm.trans hpush)
    obtain ⟨hwoken, rfl⟩ := Thpool.bsemPost_eq_ret.mp hpost
    refine ⟨hok, fun hkeep => ?_, (CondVar.served_zero _).signal hwoken, fun _ _ => .inl rfl⟩
    exact forall_wake (P := (ThreadPc.Left · = false)) (h.keep hkeep) rfl woken
  | thread i woken told => exact h.threadStep (Thpool.threadDo_cases h.ok.counted hs)
  | spurious woken told =>
    obtain rfl := Outcome.ret.inj hs
    refine ⟨hok, fun hkeep => ?_, h.served.wake woken, fun hkeep hjobs => ?_⟩
    · exact forall_wake (P := (ThreadPc.Left · = false)) (h.keep hkeep) rfl woken
    · exact (h.token hkeep hjobs).imp_right fun hserves => serves_wake hserves woken
  | callWait k =>
    rw [poolStep] at hs
    split at hs
    · exact Outcome.ret.inj hs ▸ h.of_caller _
    · exact Outcome.ret.inj hs ▸ h.of_caller _
    · contradiction
  | wait k =>
    cases Thpool.thpoolWait_cases hs with
    | _ => exact h.of_caller _
  | destroy =>
    obtain rfl := Outcome.ret.inj hs
    exact ⟨hok, fun hkeep => absurd hkeep Bool.false_ne_true, h.served,
      fun hkeep => absurd hkeep Bool.false_ne_true⟩
  | postAll =>
    rw [poolStep] at hs
    split_ifs at hs with hkeep
    obtain rfl := Outcome.ret.inj hs
    exact ⟨hok, fun hkeep' => absurd hkeep' hkeep, CondVar.served_wakeAll _ _, fun _ _ => .inl rfl⟩

end PoolLive

namespace CallersLive

omit [Fintype ι] [DecidableEq ι] in
/-- A caller goes on, and sleeps only for a reason. -/
theorem callerGoto (h : CallersLive s) {k : κ} {pc : WaitPc}
    (hpc : pc = .sleeps → s.jobqueue.jobs ≠ [] ∨ s.numThreadsWorking ≠ 0) :
    CallersLive (s.callerGoto k pc) := by
  intro k' hk'
  rcases caller_goto s k pc k' with heq | ⟨-, heq⟩
  · exact h k' (heq.symm.trans hk')
  · exact hpc (heq.symm.trans hk')

/-- **One step of a thread of the pool.** -/
theorem threadStep [Subsingleton κ] (h : CallersLive s) (hok : PoolOk s) {i : ι}
    (hs : s.ThreadStep i t) : CallersLive t := by
  intro k hk
  cases hs with
  | enters =>
    have hcount := hok.working
    refine .inr ?_
    change s.numThreadsWorking + 1 ≠ 0
    omega
  | pullsLast hi =>
    have hworking : (s.thread i).Working = true := by rw [hi]; rfl
    have hcount := PoolLive.working_ne_zero hok hworking
    exact .inr hcount
  | pulls _ _ hrest => exact .inl hrest
  | finishes _ _ hworking => exact .inr hworking
  | finishesLast _ _ _ htold => exact absurd hk (not_sleeps_of_signals htold k)
  | starts | stays | stops | takes | sleeps | serves | turns | pullsNone | runs | leaves
  | unlocks =>
    exact h k hk

variable [Fintype κ]

/-- **One step of the pool**, where one thread at most calls `thpool_wait`: a signal wakes but one. -/
theorem step [Subsingleton κ] (h : CallersLive s) (hok : PoolOk s) {e : PoolEvent ι κ α}
    (hs : poolStep s e = .ret t) : CallersLive t := by
  cases e with
  | addWork job woken =>
    obtain ⟨q, hpush, hpost⟩ := Outcome.bind_eq_ret.mp hs
    obtain rfl := Outcome.ret.inj ((jobqueuePush_eq hok.counted job).symm.trans hpush)
    obtain ⟨-, rfl⟩ := Thpool.bsemPost_eq_ret.mp hpost
    exact fun _ _ => .inl (List.append_ne_nil_of_right_ne_nil _ (List.cons_ne_nil _ _))
  | thread i woken told => exact h.threadStep hok (Thpool.threadDo_cases hok.counted hs)
  | spurious woken told =>
    obtain rfl := Outcome.ret.inj hs
    intro k hk
    rcases caller_wake told s.caller k with heq | heq
    · exact h k (heq.symm.trans hk)
    · exact absurd (heq.symm.trans hk) (by decide)
  | callWait k =>
    rw [poolStep] at hs
    split at hs
    · exact Outcome.ret.inj hs ▸ h.callerGoto fun hpc => by contradiction
    · exact Outcome.ret.inj hs ▸ h.callerGoto fun hpc => by contradiction
    · contradiction
  | wait k =>
    cases Thpool.thpoolWait_cases hs with
    | locks | seesNone | returns => exact h.callerGoto fun hpc => by contradiction
    | seesSome _ hlen =>
      refine h.callerGoto fun _ => .inl fun hnil => hlen ?_
      exact hok.counted.trans (congrArg List.length hnil)
    | seesWorking _ hworking => exact h.callerGoto fun _ => .inr hworking
  | destroy => exact Outcome.ret.inj hs ▸ h
  | postAll =>
    rw [poolStep] at hs
    split_ifs at hs
    exact Outcome.ret.inj hs ▸ h

end CallersLive

omit [DecidableEq ι] [DecidableEq κ] in
theorem poolLive_init : PoolLive (Thpool.init : Thpool ι κ α) where
  ok := poolOk_init
  keep _ _ := rfl
  served := CondVar.served_zero _
  token _ hjobs := absurd rfl hjobs

variable [Fintype κ]

theorem PoolLive.of_reachable (hs : PoolReachable s) : PoolLive s :=
  hs.invariant (fun _ h0 => h0 ▸ poolLive_init) fun _ _ _ h hstep => h.step hstep

theorem CallersLive.of_reachable [Subsingleton κ] (hs : PoolReachable s) : CallersLive s := by
  have hboth : PoolOk s ∧ CallersLive s := by
    refine hs.invariant (I := fun u => PoolOk u ∧ CallersLive u) (fun u h0 => ?_)
      fun _ _ _ h hstep => ⟨h.1.step hstep, h.2.step h.1 hstep⟩
    subst h0
    exact ⟨poolOk_init, fun k hk => by contradiction⟩
  exact hboth.2

/-! ## Where nobody can go on -/

/-- A step of a thread of the pool, or of a caller of `thpool_wait`: nothing from outside, and nobody
wakes for no reason. -/
def PoolEvent.isMove : PoolEvent ι κ α → Bool
  | .thread .. | .wait _ => true
  | _ => false

/-- Nobody can go on. -/
def AtRest (s : Thpool ι κ α) : Prop :=
  ∀ e : PoolEvent ι κ α, e.isMove = true → ∀ t, poolStep s e ≠ .ret t

/-- Where all threads sleep or are gone, and whoever called `thpool_wait` sleeps or is back, nobody can
go on. -/
theorem atRest_of_forall (hthreads : ∀ i, s.thread i = .sleeps ∨ s.thread i = .gone)
    (hcallers : ∀ k, s.caller k = .out ∨ s.caller k = .sleeps ∨ s.caller k = .returned) :
    AtRest s := by
  intro e he t hs
  cases e with
  | thread i woken told =>
    rw [poolStep, Thpool.threadDo] at hs
    rcases hthreads i with hi | hi <;> rw [hi] at hs <;> contradiction
  | wait k =>
    rw [poolStep, Thpool.thpoolWait] at hs
    rcases hcallers k with hk | hk | hk <;> rw [hk] at hs <;> contradiction
  | _ => exact absurd he Bool.false_ne_true

/-- Who holds the lock can go on. -/
theorem AtRest.not_locked (h : AtRest s) : ¬ s.Locked := by
  rintro (⟨k, hk | hk⟩ | ⟨i, hi⟩)
  · refine h (.wait k) rfl
      (s.callerGoto k (if s.jobqueue.len = 0 then .readsWorking else .sleeps)) ?_
    rw [poolStep, Thpool.thpoolWait, hk]
  · refine h (.wait k) rfl
      (s.callerGoto k (if s.numThreadsWorking = 0 then .returned else .sleeps)) ?_
    rw [poolStep, Thpool.thpoolWait, hk]
  · have hpc : s.thread i = .unlocks := by
      cases hpc : s.thread i with
      | unlocks => rfl
      | _ => rw [hpc] at hi; contradiction
    refine h (.thread i ∅ ∅) rfl (s.goto i .gone) ?_
    rw [poolStep, Thpool.threadDo, hpc]

/-- **Without the lock, a thread goes on that neither sleeps nor is gone.** -/
theorem PoolOk.exists_step (h : PoolOk s) (hlock : ¬ s.Locked) {i : ι}
    (hsleeps : s.thread i ≠ .sleeps) (hgone : s.thread i ≠ .gone) :
    ∃ woken told t, poolStep s (.thread i woken told) = .ret t := by
  have hstep : ∀ woken told, poolStep s (.thread i woken told) = s.threadDo i woken told :=
    fun _ _ => rfl
  simp only [hstep, Thpool.threadDo]
  cases hi : s.thread i with
  | sleeps => exact absurd hi hsleeps
  | gone => exact absurd hi hgone
  | created | enters | leaves => exact ⟨∅, ∅, _, if_neg hlock⟩
  | loop | posted | runs | unlocks => exact ⟨∅, ∅, _, rfl⟩
  | waits =>
    cases hjobs : s.hasJobs with
    | true => exact ⟨∅, ∅, _, rfl⟩
    | false => exact ⟨∅, ∅, _, rfl⟩
  | pulls =>
    cases hjobs : s.jobqueue.jobs with
    | nil =>
      rw [jobqueuePull_nil h.counted hjobs]
      exact ⟨∅, ∅, _, rfl⟩
    | cons job rest =>
      rw [jobqueuePull_cons h.counted hjobs]
      cases rest with
      | nil => exact ⟨∅, ∅, _, rfl⟩
      | cons job' rest =>
        obtain ⟨woken, hwoken⟩ := (hasJobsCond α).exists_signals
          (s.pulledBy i job (job' :: rest)).thread
        exact ⟨woken, ∅, _, Thpool.bsemPost_eq_ret.mpr ⟨hwoken, rfl⟩⟩
  | finishes =>
    obtain ⟨told, htold⟩ := allIdleCond.exists_signals s.caller
    refine ⟨∅, told, ?_⟩
    rw [if_neg hlock]
    dsimp only
    split_ifs
    · exact ⟨_, if_pos htold⟩
    · exact ⟨_, rfl⟩

/-- Where nobody can go on, all threads sleep or are gone. -/
theorem AtRest.sleeps_or_gone (hrest : AtRest s) (h : PoolOk s) (i : ι) :
    s.thread i = .sleeps ∨ s.thread i = .gone := by
  by_contra hi
  rw [not_or] at hi
  obtain ⟨woken, told, t, hstep⟩ := h.exists_step hrest.not_locked hi.1 hi.2
  exact hrest (.thread i woken told) rfl t hstep

/-- **Where nobody can go on, everything is done**: all jobs are finished, and every call of
`thpool_wait` has returned. -/
theorem idle_of_atRest [Nonempty ι] (h : PoolLive s) (hcallers : CallersLive s)
    (hkeep : s.threadsKeepalive = true)
    (hrest : AtRest s) :
    (s.finished : Multiset α) = s.added ∧ ∀ k, s.caller k = .out ∨ s.caller k = .returned := by
  have hsleeps : ∀ i, s.thread i = .sleeps := fun i => by
    refine (hrest.sleeps_or_gone h.ok i).resolve_right fun hgone => ?_
    have hleft := h.keep hkeep i
    rw [hgone] at hleft
    contradiction
  have hnone : s.jobqueue.jobs = [] := by
    by_contra hjobs
    rcases h.token hkeep hjobs with hset | ⟨i, hserves⟩
    · have hserved := h.served
      rw [hset] at hserved
      obtain ⟨i⟩ := ‹Nonempty ι›
      have hasleep : (hasJobsCond α).Asleep (s.thread i) := by
        rw [hsleeps i]
        rfl
      obtain ⟨j, hj⟩ := hserved.exists_looking Nat.one_pos hasleep
      rw [hsleeps j] at hj
      contradiction
    · rw [hsleeps i] at hserves
      contradiction
  have hidle : s.numThreadsWorking = 0 := by
    have hcount : tally (ThreadPc.Working · = true) s.thread = 0 := tally_eq_zero.mpr fun i hi => by
      rw [hsleeps i] at hi
      contradiction
    rw [h.ok.working, hcount]
    rfl
  refine ⟨?_, fun k => ?_⟩
  · rw [h.ok.finished_of_idle hidle, h.ok.fifo, hnone, List.append_nil]
  · cases hk : s.caller k with
    | out => exact .inl rfl
    | returned => exact .inr rfl
    | sleeps => exact ((hcallers k hk).elim (fun hjobs => hjobs hnone) fun hw => hw hidle).elim
    | locks =>
      refine absurd ?_ (hrest (.wait k) rfl (s.callerGoto k .readsLen))
      rw [poolStep, Thpool.thpoolWait, hk]
      exact if_neg hrest.not_locked
    | readsLen => exact absurd (.inl ⟨k, .inl hk⟩) hrest.not_locked
    | readsWorking => exact absurd (.inl ⟨k, .inr hk⟩) hrest.not_locked

/-! ## How long that takes -/

section Measure

variable (κ)

/-- The steps a thread has left until it sleeps, with those its signal may cost the callers. -/
def ThreadPc.weight : ThreadPc α → ℕ
  | sleeps | gone => 0
  | waits | unlocks => 1
  | leaves => 2
  | loop => 3
  | created => 4
  | finishes => 3 * Fintype.card κ + 4
  | runs _ => 3 * Fintype.card κ + 5
  | pulls => 3 * Fintype.card κ + 6
  | enters => 3 * Fintype.card κ + 7
  | posted => 3 * Fintype.card κ + 8

/-- The steps a caller of `thpool_wait` has left until it sleeps or returns. -/
def WaitPc.weight : WaitPc → ℕ
  | locks => 3
  | readsLen => 2
  | readsWorking => 1
  | out | sleeps | returned => 0

variable {κ}

/-- **A bound on the steps until nobody can go on.**  A job costs the thread that pulls it a round
of the loop, and a signal that may wake all threads. -/
def Thpool.measure (s : Thpool ι κ α) : ℕ :=
  (3 * Fintype.card κ + 8 + Fintype.card ι) * s.jobqueue.len +
    (3 * Fintype.card κ + 8) * s.hasJobs.toNat + total (ThreadPc.weight κ) s.thread +
      total WaitPc.weight s.caller

omit [DecidableEq κ] in
/-- What a thread that goes on takes off the bound. -/
theorem measure_goto (s : Thpool ι κ α) {i : ι} {old : ThreadPc α} (pc : ThreadPc α)
    (hi : s.thread i = old) :
    (s.goto i pc).measure + old.weight κ = s.measure + pc.weight κ := by
  have hupdate := total_update (ThreadPc.weight κ) s.thread i pc
  rw [hi] at hupdate
  rw [Thpool.measure, Thpool.measure, Thpool.goto]
  dsimp only
  omega

omit [DecidableEq κ] in
theorem measure_goto_lt (s : Thpool ι κ α) {i : ι} {old pc : ThreadPc α} (hi : s.thread i = old)
    (hlt : pc.weight κ < old.weight κ) : (s.goto i pc).measure < s.measure := by
  have hgoto := measure_goto s pc hi
  omega

omit [DecidableEq ι] in
theorem measure_callerGoto (s : Thpool ι κ α) {k : κ} {old : WaitPc} (pc : WaitPc)
    (hk : s.caller k = old) :
    (s.callerGoto k pc).measure + old.weight = s.measure + pc.weight := by
  have hupdate := total_update WaitPc.weight s.caller k pc
  rw [hk] at hupdate
  rw [Thpool.measure, Thpool.measure, Thpool.callerGoto]
  dsimp only
  omega

omit [DecidableEq κ] in
/-- What a signal of `has_jobs->cond` may cost. -/
theorem measure_posted_le (s : Thpool ι κ α) (woken : Finset ι) :
    (s.posted woken).measure ≤ s.measure + (3 * Fintype.card κ + 8) + Fintype.card ι := by
  have hwake := (hasJobsCond α).total_wake_le (g := ThreadPc.weight κ) (c := 1)
    (fun l hl => by rw [asleep_hasJobsCond hl]; exact le_rfl) woken s.thread
  have hset : (3 * Fintype.card κ + 8) * true.toNat = 3 * Fintype.card κ + 8 := Nat.mul_one _
  rw [Thpool.measure, Thpool.measure, Thpool.posted, hset]
  dsimp only
  omega

omit [DecidableEq ι] in
/-- What a signal of `threads_all_idle` may cost. -/
theorem measure_idled_le (s : Thpool ι κ α) (told : Finset κ) :
    (s.idled told).measure ≤ s.measure + 3 * Fintype.card κ := by
  have hwake := allIdleCond.total_wake_le (g := WaitPc.weight) (c := 3)
    (fun l hl => by rw [asleep_allIdleCond hl]; exact le_rfl) told s.caller
  rw [Thpool.measure, Thpool.measure, Thpool.idled]
  dsimp only
  omega

omit [DecidableEq κ] in
/-- What a pull takes off the bound. -/
theorem measure_pulledBy (h : PoolOk s) {i : ι} (hi : s.thread i = .pulls) {job : α} {rest : List α}
    (hcons : s.jobqueue.jobs = job :: rest) :
    (s.pulledBy i job rest).measure + (3 * Fintype.card κ + 8 + Fintype.card ι) + 1 = s.measure := by
  have hgoto := measure_goto s (.runs job) hi
  have hlen : s.jobqueue.len = rest.length + 1 := by
    rw [h.counted, hcons, List.length_cons]
  have hqueue : (3 * Fintype.card κ + 8 + Fintype.card ι) * s.jobqueue.len =
      (3 * Fintype.card κ + 8 + Fintype.card ι) * rest.length +
        (3 * Fintype.card κ + 8 + Fintype.card ι) := by
    rw [hlen, Nat.mul_succ]
  have hpulled : (s.pulledBy i job rest).measure + (3 * Fintype.card κ + 8 + Fintype.card ι) =
      (s.goto i (.runs job)).measure := by
    rw [Thpool.measure, Thpool.measure, Thpool.pulledBy, Thpool.goto, Thpool.goto]
    dsimp only
    omega
  simp only [ThreadPc.weight] at hgoto
  omega

/-- **Every step of a thread brings the end nearer.** -/
theorem measure_threadStep (h : PoolOk s) {i : ι} (hs : s.ThreadStep i t) :
    t.measure < s.measure := by
  cases hs with
  | starts hi | stays hi | stops hi | sleeps hi | serves hi | turns hi | enters hi | pullsNone hi
  | runs hi | leaves hi | unlocks hi =>
    exact measure_goto_lt _ hi (by simp only [ThreadPc.weight]; omega)
  | takes hi hjobs =>
    have hgoto := measure_goto { s with hasJobs := false } .posted hi
    have htaken : ({ s with hasJobs := false } : Thpool ι κ α).measure +
        (3 * Fintype.card κ + 8) = s.measure := by
      rw [Thpool.measure, Thpool.measure, hjobs]
      dsimp only [Bool.toNat_true, Bool.toNat_false]
      omega
    simp only [ThreadPc.weight] at hgoto
    omega
  | pullsLast hi hone =>
    have hpulled := measure_pulledBy h hi hone
    omega
  | @pulls _ job rest hcons _ woken =>
    have hpulled := measure_pulledBy h ‹_› hcons
    have hposted := measure_posted_le (s.pulledBy i job rest) woken
    omega
  | finishes hi => exact measure_goto_lt _ hi (by simp only [ThreadPc.weight]; omega)
  | @finishesLast hi _ _ told =>
    have hgoto := measure_goto { s with numThreadsWorking := s.numThreadsWorking - 1 }
      .loop hi
    have hidled := measure_idled_le (s.finishedBy i) told
    have hsame : ({ s with numThreadsWorking := s.numThreadsWorking - 1 } : Thpool ι κ α).measure =
      s.measure := rfl
    rw [Thpool.finishedBy] at hidled ⊢
    simp only [ThreadPc.weight] at hgoto
    omega

omit [DecidableEq ι] in
theorem measure_waitStep {k : κ} (hs : s.WaitStep k t) : t.measure < s.measure := by
  have hgoto : ∀ {old pc : WaitPc}, s.caller k = old → pc.weight < old.weight →
      (s.callerGoto k pc).measure < s.measure := fun {old pc} hk hlt => by
    have hgoto := measure_callerGoto s pc hk
    omega
  cases hs with
  | locks hk | seesNone hk | seesSome hk | returns hk | seesWorking hk => exact hgoto hk (by decide)

/-- **Every move brings the end nearer**, adds no job, and does not let the pool go. -/
theorem PoolOk.move (h : PoolOk s) {e : PoolEvent ι κ α} (he : e.isMove = true)
    (hs : poolStep s e = .ret t) :
    t.measure < s.measure ∧ t.threadsKeepalive = s.threadsKeepalive ∧ t.added = s.added := by
  cases e with
  | thread i woken told =>
    have hcases := Thpool.threadDo_cases h.counted hs
    refine ⟨measure_threadStep h hcases, ?_⟩
    cases hcases with
    | _ => exact ⟨rfl, rfl⟩
  | wait k =>
    have hcases := Thpool.thpoolWait_cases hs
    refine ⟨measure_waitStep hcases, ?_⟩
    cases hcases with
    | _ => exact ⟨rfl, rfl⟩
  | _ => exact absurd he Bool.false_ne_true

end Measure

/-- Moves come to an end, and meanwhile nobody adds a job or lets the pool go. -/
theorem PoolOk.moves (h : PoolOk s) {es : List (PoolEvent ι κ α)} (hes : ∀ e ∈ es, e.isMove = true)
    (hr : run poolStep s es = .ret t) : es.length + t.measure ≤ s.measure ∧
      t.threadsKeepalive = s.threadsKeepalive ∧ t.added = s.added := by
  have hmove : ∀ e ∈ es, ∀ u u',
      (PoolOk u ∧ u.threadsKeepalive = s.threadsKeepalive ∧ u.added = s.added) →
      poolStep u e = .ret u' →
      (PoolOk u' ∧ u'.threadsKeepalive = s.threadsKeepalive ∧ u'.added = s.added) ∧
        u'.measure < u.measure := by
    rintro e he u u' ⟨hok, hkeep, hadded⟩ hstep
    obtain ⟨hlt, hkeep', hadded'⟩ := hok.move (hes e he) hstep
    exact ⟨⟨hok.step hstep, hkeep'.trans hkeep, hadded'.trans hadded⟩, hlt⟩
  refine ⟨run_length_le_of hmove ⟨h, rfl, rfl⟩ hr, ?_⟩
  exact (run_invariant (fun e he u u' hI hstep => (hmove e he u u' hI hstep).1) ⟨h, rfl, rfl⟩ hr).2

/-- **Left alone, the pool finishes every job**, if it has a thread at all and one thread at most
calls `thpool_wait`: the signal of `threads_all_idle` need wake but one.  From any state such a pool
can get into, while it is kept alive and whatever its threads do in whatever order, they go on for a
bounded number of steps only; and when none of them can go on, every job that was ever added is
finished, and every call of `thpool_wait` has returned. -/
theorem pool_drains [Nonempty ι] [Subsingleton κ] (hs : PoolReachable s)
    (hkeep : s.threadsKeepalive = true) {es : List (PoolEvent ι κ α)}
    (hes : ∀ e ∈ es, e.isMove = true) (hr : run poolStep s es = .ret t) :
    es.length + t.measure ≤ s.measure ∧ (AtRest t →
      (t.finished : Multiset α) = s.added ∧ ∀ k, t.caller k = .out ∨ t.caller k = .returned) := by
  obtain ⟨hlength, hkeep', hadded⟩ := (PoolOk.of_reachable hs).moves hes hr
  refine ⟨hlength, fun hrest => ?_⟩
  rw [← hadded]
  exact idle_of_atRest (.of_reachable (hs.after hr)) (.of_reachable (hs.after hr))
    (hkeep'.trans hkeep) hrest

/-- The only thread finishes the two jobs and goes to sleep. -/
theorem pool_drains_two : ∃ s t, run poolStep Thpool.init twoJobs = .ret s ∧
    run poolStep s (List.replicate 11 (.thread () ∅ ∅)) = .ret t ∧
      11 + t.measure ≤ s.measure ∧ (t.finished : Multiset ℕ) = s.added := by
  have hrun : (run poolStep Thpool.init twoJobs >>= fun s =>
      run poolStep s (List.replicate 11 (.thread () ∅ ∅)) >>= fun t =>
        .ret (s.threadsKeepalive, t.thread (), t.caller ())) = .ret (true, .sleeps, .out) := by
    decide
  obtain ⟨s, hs, hrun⟩ := Outcome.bind_eq_ret.mp hrun
  obtain ⟨t, ht, hrun⟩ := Outcome.bind_eq_ret.mp hrun
  obtain ⟨hkeep, hrun⟩ := Prod.mk.inj (Outcome.ret.inj hrun)
  obtain ⟨hthread, hcaller⟩ := Prod.mk.inj hrun
  have hrest : AtRest t := atRest_of_forall (fun _ => .inl hthread) fun _ => .inl hcaller
  have hdrains := pool_drains (.after (.init rfl) hs) hkeep
    (fun e he => List.eq_of_mem_replicate he ▸ rfl) ht
  exact ⟨s, t, hs, ht, hdrains.1, (hdrains.2 hrest).1⟩

end TrivalTcp
