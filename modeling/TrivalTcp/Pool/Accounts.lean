import TrivalTcp.Pool.Thpool

/-!
# Pool/Accounts — every job is run once, in turn, and `thpool_wait` waits for all of them

`PoolOk` says what the counters count and where each job is, in every state the threads can bring
the pool into.

* `pool_fifo` — jobs are pulled in the order in which they were added, each once, and a job that has
  been pulled is finished or held by exactly one thread;
* `thpoolWait_finished` — when `thpool_wait` returns, all jobs are finished that had been added when
  it was called, whoever adds more meanwhile.
-/

namespace TrivalTcp

variable {ι κ α : Type} [Fintype ι] {s t : Thpool ι κ α}

/-! ## Waking changes no count -/

section Wake

theorem asleep_hasJobsCond {l : ThreadPc α} (h : (hasJobsCond α).Asleep l) : l = .sleeps := by
  cases l with
  | sleeps => rfl
  | _ => exact absurd h Bool.false_ne_true

theorem asleep_allIdleCond {l : WaitPc} (h : allIdleCond.Asleep l) : l = .sleeps := by
  cases l with
  | sleeps => rfl
  | _ => exact absurd h Bool.false_ne_true

variable [DecidableEq ι] (woken : Finset ι) (pc : ι → ThreadPc α)

theorem held_wake : total ThreadPc.held ((hasJobsCond α).wake woken pc) =
    total ThreadPc.held pc :=
  CondVar.total_wake (fun _ h => by rw [asleep_hasJobsCond h]; rfl) woken pc

theorem working_wake : tally (ThreadPc.Working · = true) ((hasJobsCond α).wake woken pc) =
    tally (ThreadPc.Working · = true) pc :=
  CondVar.tally_wake (fun _ h => by rw [asleep_hasJobsCond h]; rfl) woken pc

theorem alive_wake : tally (ThreadPc.Alive · = true) ((hasJobsCond α).wake woken pc) =
    tally (ThreadPc.Alive · = true) pc :=
  CondVar.tally_wake (fun _ h => by rw [asleep_hasJobsCond h]; rfl) woken pc

end Wake

/-! ## The invariant -/

/-- **What the pool keeps track of.** -/
structure PoolOk (s : Thpool ι κ α) : Prop where
  counted : s.jobqueue.Counted
  fifo : s.added = s.pulled ++ s.jobqueue.jobs
  /-- Who has a job that is pulled and not finished. -/
  held : (s.finished : Multiset α) + total ThreadPc.held s.thread = s.pulled
  working : s.numThreadsWorking = tally (ThreadPc.Working · = true) s.thread
  alive : s.numThreadsAlive = tally (ThreadPc.Alive · = true) s.thread

theorem poolOk_init : PoolOk (Thpool.init : Thpool ι κ α) where
  counted := rfl
  fifo := rfl
  held := by
    have hnone : total ThreadPc.held (fun _ : ι => (.created : ThreadPc α)) = 0 :=
      Finset.sum_const_zero
    exact (zero_add _).trans hnone
  working := by
    have hnone : tally (ThreadPc.Working · = true) (fun _ : ι => (.created : ThreadPc α)) = 0 :=
      tally_eq_zero.mpr fun _ => Bool.false_ne_true
    exact (congrArg Nat.cast hnone).symm
  alive := by
    have hnone : tally (ThreadPc.Alive · = true) (fun _ : ι => (.created : ThreadPc α)) = 0 :=
      tally_eq_zero.mpr fun _ => Bool.false_ne_true
    exact (congrArg Nat.cast hnone).symm

namespace PoolOk

/-- Only the queue, the counters, the threads and the log matter. -/
theorem congr (h : PoolOk s) (hqueue : t.jobqueue = s.jobqueue) (hadded : t.added = s.added)
    (hpulled : t.pulled = s.pulled) (hfinished : t.finished = s.finished)
    (hthread : t.thread = s.thread) (hworking : t.numThreadsWorking = s.numThreadsWorking)
    (halive : t.numThreadsAlive = s.numThreadsAlive) : PoolOk t := by
  constructor
  · rw [hqueue]
    exact h.counted
  · rw [hadded, hpulled, hqueue]
    exact h.fifo
  · rw [hfinished, hthread, hpulled]
    exact h.held
  · rw [hworking, hthread]
    exact h.working
  · rw [halive, hthread]
    exact h.alive

variable [DecidableEq ι]

/-- A thread goes on without a job, and is counted where it is. -/
theorem goto (h : PoolOk s) {i : ι} {old pc : ThreadPc α} {working alive : ℤ}
    (hi : s.thread i = old) (hheld : pc.held = old.held)
    (hworking : working = s.numThreadsWorking + (pc.Working.toNat - old.Working.toNat))
    (halive : alive = s.numThreadsAlive + (pc.Alive.toNat - old.Alive.toNat)) :
    PoolOk ({ s with numThreadsWorking := working, numThreadsAlive := alive }.goto i pc) where
  counted := h.counted
  fifo := h.fifo
  held := by
    have hupdate := total_update ThreadPc.held s.thread i pc
    rw [hi, hheld] at hupdate
    change (s.finished : Multiset α) + total ThreadPc.held (Function.update s.thread i pc) = s.pulled
    rw [add_right_cancel hupdate]
    exact h.held
  working := by
    have hupdate := tally_update_toNat ThreadPc.Working s.thread i pc
    change working = tally (ThreadPc.Working · = true) (Function.update s.thread i pc)
    rw [h.working] at hworking
    rw [hi] at hupdate
    omega
  alive := by
    have hupdate := tally_update_toNat ThreadPc.Alive s.thread i pc
    change alive = tally (ThreadPc.Alive · = true) (Function.update s.thread i pc)
    rw [h.alive] at halive
    rw [hi] at hupdate
    omega

/-- A thread goes on without a job, and counts as it did. -/
theorem goto_same (h : PoolOk s) {i : ι} {old pc : ThreadPc α} (hi : s.thread i = old)
    (hheld : pc.held = old.held) (hworking : pc.Working = old.Working)
    (halive : pc.Alive = old.Alive) : PoolOk (s.goto i pc) := by
  have hworking' : s.numThreadsWorking =
      s.numThreadsWorking + (pc.Working.toNat - old.Working.toNat) := by
    rw [hworking, sub_self, add_zero]
  have halive' : s.numThreadsAlive = s.numThreadsAlive + (pc.Alive.toNat - old.Alive.toNat) := by
    rw [halive, sub_self, add_zero]
  exact h.goto hi hheld hworking' halive'

theorem wake (h : PoolOk s) (woken : Finset ι) (hasJobs : Bool) (caller : κ → WaitPc) :
    PoolOk { s with hasJobs, caller, thread := (hasJobsCond α).wake woken s.thread } where
  counted := h.counted
  fifo := h.fifo
  held := by
    rw [held_wake]
    exact h.held
  working := by
    rw [working_wake]
    exact h.working
  alive := by
    rw [alive_wake]
    exact h.alive

theorem posted (h : PoolOk s) (woken : Finset ι) : PoolOk (s.posted woken) :=
  h.wake woken true s.caller

/-- **A new job** goes to the end of the queue. -/
theorem thpoolAddWork (h : PoolOk s) {job : α} {woken : Finset ι}
    (hs : s.thpoolAddWork job woken = .ret t) : PoolOk t := by
  obtain ⟨jobqueue, hpush, hpost⟩ := Outcome.bind_eq_ret.mp hs
  obtain rfl := Outcome.ret.inj ((jobqueuePush_eq h.counted job).symm.trans hpush)
  have hcounted : s.jobqueue.len + 1 = (s.jobqueue.jobs ++ [job]).length := by
    rw [List.length_append, List.length_singleton, h.counted]
  have hfifo : s.added ++ [job] = s.pulled ++ (s.jobqueue.jobs ++ [job]) := by
    rw [h.fifo, List.append_assoc]
  have hpushed : PoolOk { s with
      jobqueue := ⟨s.jobqueue.len + 1, s.jobqueue.jobs ++ [job]⟩, added := s.added ++ [job] } :=
    ⟨hcounted, hfifo, h.held, h.working, h.alive⟩
  obtain ⟨-, rfl⟩ := Thpool.bsemPost_eq_ret.mp hpost
  exact hpushed.posted woken

/-- **A pull** hands the first job to the thread. -/
theorem pull (h : PoolOk s) {i : ι} (hi : s.thread i = .pulls) {job : α} {rest : List α}
    (hjobs : s.jobqueue.jobs = job :: rest) :
    PoolOk (s.pulledBy i job rest) where
  counted := rfl
  fifo := by
    change s.added = s.pulled ++ [job] ++ rest
    rw [h.fifo, hjobs, List.append_assoc, List.singleton_append]
  held := by
    have hupdate := total_update ThreadPc.held s.thread i (.runs job)
    rw [hi] at hupdate
    change (s.finished : Multiset α) + total ThreadPc.held (Function.update s.thread i (.runs job)) =
      ↑(s.pulled ++ [job])
    have hgain : total ThreadPc.held (Function.update s.thread i (.runs job)) =
        total ThreadPc.held s.thread + {job} := (add_zero _).symm.trans hupdate
    rw [hgain, ← add_assoc, h.held]
    rfl
  working := by
    have hsame := tally_update_same (p := (ThreadPc.Working · = true)) (f := s.thread) (i := i)
      (a := .runs job) (by rw [hi]; exact Iff.rfl)
    exact h.working.trans (congrArg Nat.cast hsame.symm)
  alive := by
    have hsame := tally_update_same (p := (ThreadPc.Alive · = true)) (f := s.thread) (i := i)
      (a := .runs job) (by rw [hi]; exact Iff.rfl)
    exact h.alive.trans (congrArg Nat.cast hsame.symm)

/-- **A job is done.** -/
theorem done (h : PoolOk s) {i : ι} {job : α} (hi : s.thread i = .runs job) :
    PoolOk ({ s with finished := s.finished ++ [job] }.goto i .finishes) where
  counted := h.counted
  fifo := h.fifo
  held := by
    have hupdate := total_update ThreadPc.held s.thread i .finishes
    rw [hi] at hupdate
    change (↑(s.finished ++ [job]) : Multiset α) +
      total ThreadPc.held (Function.update s.thread i .finishes) = ↑s.pulled
    have hloss : {job} + total ThreadPc.held (Function.update s.thread i .finishes) =
        total ThreadPc.held s.thread := (add_comm _ _).trans (hupdate.trans (add_zero _))
    rw [← Multiset.coe_add, add_assoc, ← h.held, ← hloss]
    rfl
  working := by
    have hsame := tally_update_same (p := (ThreadPc.Working · = true)) (f := s.thread) (i := i)
      (a := .finishes) (by rw [hi]; exact Iff.rfl)
    exact h.working.trans (congrArg Nat.cast hsame.symm)
  alive := by
    have hsame := tally_update_same (p := (ThreadPc.Alive · = true)) (f := s.thread) (i := i)
      (a := .finishes) (by rw [hi]; exact Iff.rfl)
    exact h.alive.trans (congrArg Nat.cast hsame.symm)

/-- **One step of a thread of the pool.** -/
theorem threadStep [DecidableEq κ] (h : PoolOk s) {i : ι} (hs : s.ThreadStep i t) : PoolOk t := by
  cases hs with
  | starts hi => exact h.goto hi rfl (by simp [ThreadPc.Working]) (by simp [ThreadPc.Alive])
  | stays hi => exact h.goto_same hi rfl rfl rfl
  | stops hi => exact h.goto_same hi rfl rfl rfl
  | takes hi =>
    have hok : PoolOk { s with hasJobs := false } := h.congr rfl rfl rfl rfl rfl rfl rfl
    exact hok.goto_same hi rfl rfl rfl
  | sleeps hi => exact h.goto_same hi rfl rfl rfl
  | serves hi => exact h.goto_same hi rfl rfl rfl
  | turns hi => exact h.goto_same hi rfl rfl rfl
  | enters hi => exact h.goto hi rfl (by simp [ThreadPc.Working]) (by simp [ThreadPc.Alive])
  | pullsNone hi => exact h.goto_same hi rfl rfl rfl
  | pullsLast hi hone => exact h.pull hi hone
  | pulls hi hcons => exact (h.pull hi hcons).posted _
  | runs hi => exact h.done hi
  | finishes hi =>
    exact h.goto hi rfl (by simp [ThreadPc.Working]; omega) (by simp [ThreadPc.Alive])
  | finishesLast hi =>
    have hok : PoolOk (s.finishedBy i) :=
      h.goto hi rfl (by simp [ThreadPc.Working]; omega) (by simp [ThreadPc.Alive])
    exact hok.congr rfl rfl rfl rfl rfl rfl rfl
  | leaves hi =>
    exact h.goto hi rfl (by simp [ThreadPc.Working]) (by simp [ThreadPc.Alive]; omega)
  | unlocks hi => exact h.goto_same hi rfl rfl rfl

/-- **One step of the pool.** -/
theorem step [Fintype κ] [DecidableEq κ] (h : PoolOk s) {e : PoolEvent ι κ α}
    (hs : poolStep s e = .ret t) : PoolOk t := by
  cases e with
  | addWork job woken => exact h.thpoolAddWork hs
  | thread i woken told => exact h.threadStep (Thpool.threadDo_cases h.counted hs)
  | spurious woken told =>
    obtain rfl := Outcome.ret.inj hs
    exact h.wake woken s.hasJobs _
  | callWait k =>
    rw [poolStep] at hs
    split at hs
    · obtain rfl := Outcome.ret.inj hs
      exact h.congr rfl rfl rfl rfl rfl rfl rfl
    · obtain rfl := Outcome.ret.inj hs
      exact h.congr rfl rfl rfl rfl rfl rfl rfl
    · contradiction
  | wait k =>
    cases Thpool.thpoolWait_cases hs with
    | _ => exact h.congr rfl rfl rfl rfl rfl rfl rfl
  | destroy =>
    obtain rfl := Outcome.ret.inj hs
    exact h.congr rfl rfl rfl rfl rfl rfl rfl
  | postAll =>
    rw [poolStep] at hs
    split_ifs at hs
    obtain rfl := Outcome.ret.inj hs
    rw [Thpool.bsemPostAll_eq]
    exact h.posted Finset.univ

end PoolOk

/-! ## Where every job is -/

/-- Where nobody works, every job that was pulled is finished. -/
theorem PoolOk.finished_of_idle (h : PoolOk s) (hidle : s.numThreadsWorking = 0) :
    (s.finished : Multiset α) = s.pulled := by
  have hnone : tally (ThreadPc.Working · = true) s.thread = 0 :=
    Int.ofNat_eq_zero.mp (h.working.symm.trans hidle)
  have hheld : total ThreadPc.held s.thread = 0 := by
    refine Finset.sum_eq_zero fun i _ => ?_
    have hi := tally_eq_zero.mp hnone i
    cases hpc : s.thread i with
    | runs job => exact absurd (congrArg ThreadPc.Working hpc) hi
    | _ => rfl
  rw [← h.held, hheld, add_zero]

variable [DecidableEq ι] [Fintype κ] [DecidableEq κ]

/-- The states a new pool can get into. -/
abbrev PoolReachable : Thpool ι κ α → Prop := Reachable poolStep (· = Thpool.init)

theorem PoolOk.of_reachable (hs : PoolReachable s) : PoolOk s :=
  hs.invariant (fun _ h0 => h0 ▸ poolOk_init) fun _ _ _ h hstep => h.step hstep

/-- No pointer of the queue is `NULL` where it is followed. -/
theorem PoolOk.poolStep_ne_undef (h : PoolOk s) (e : PoolEvent ι κ α) : poolStep s e ≠ .undef := by
  have hpost : ∀ (s : Thpool ι κ α) (woken), s.bsemPost woken ≠ .undef := fun s woken => by
    rw [Thpool.bsemPost]
    split_ifs <;> simp
  cases e with
  | addWork job woken =>
    rw [poolStep, Thpool.thpoolAddWork, jobqueuePush_eq h.counted]
    exact hpost _ woken
  | thread i woken told =>
    rw [poolStep, Thpool.threadDo]
    split
    case h_6 =>
      cases hjobs : s.jobqueue.jobs with
      | nil =>
        rw [jobqueuePull_nil h.counted hjobs]
        exact Outcome.ret_ne_undef _
      | cons job rest =>
        rw [jobqueuePull_cons h.counted hjobs]
        dsimp only [Outcome.ret_bind]
        split_ifs
        · exact hpost _ woken
        · exact Outcome.ret_ne_undef _
    case h_8 =>
      dsimp only
      rw [Thpool.signalAllIdle]
      split_ifs <;> simp
    all_goals first | (split_ifs <;> simp) | simp
  | wait k =>
    rw [poolStep, Thpool.thpoolWait]
    split
    all_goals first | (split_ifs <;> simp) | simp
  | callWait k =>
    rw [poolStep]
    split
    all_goals simp
  | postAll =>
    rw [poolStep]
    split_ifs <;> simp
  | spurious | destroy => exact Outcome.ret_ne_undef _

/-- **First in, first out, and each job once.**  Whatever the threads do in whatever order: the jobs
that have been pulled, followed by those that wait, are the jobs in the order in which they were
added; the jobs that have been pulled are those that are finished and those some thread runs, each
as often; and no step follows a pointer that is `NULL`. -/
theorem pool_fifo (hs : PoolReachable s) :
    s.added = s.pulled ++ s.jobqueue.jobs ∧
      (s.pulled : Multiset α) = s.finished + total ThreadPc.held s.thread ∧
      ∀ e, poolStep s e ≠ .undef :=
  ⟨(PoolOk.of_reachable hs).fifo, (PoolOk.of_reachable hs).held.symm,
    (PoolOk.of_reachable hs).poolStep_ne_undef⟩

/-- Two jobs are added, and the only thread pulls the first. -/
def twoJobs : List (PoolEvent Unit Unit ℕ) :=
  [.addWork 7 ∅, .addWork 8 ∅] ++ List.replicate 6 (.thread () ∅ ∅)

/-- The second is in the queue then, and the first is run. -/
theorem pool_fifo_two : ∃ s, run poolStep Thpool.init twoJobs = .ret s ∧
    s.jobqueue.jobs = [8] ∧ s.added = s.pulled ++ s.jobqueue.jobs ∧
      (s.pulled : Multiset ℕ) = s.finished + total ThreadPc.held s.thread ∧
      ∀ e, poolStep s e ≠ .undef := by
  have hrun : (run poolStep Thpool.init twoJobs >>= fun s => .ret s.jobqueue.jobs) = .ret [8] := by
    decide
  obtain ⟨s, hs, hjobs⟩ := Outcome.bind_eq_ret.mp hrun
  exact ⟨s, hs, Outcome.ret.inj hjobs, pool_fifo (.after (.init rfl) hs)⟩

/-! ## `thpool_wait` -/

/-- The log only grows. -/
structure Grows (s t : Thpool ι κ α) : Prop where
  added : s.added <+: t.added
  pulled : s.pulled <+: t.pulled
  finished : s.finished <+: t.finished

omit [Fintype ι] [DecidableEq ι] [Fintype κ] [DecidableEq κ] in
theorem Grows.of_eq (hadded : t.added = s.added) (hpulled : t.pulled = s.pulled)
    (hfinished : t.finished = s.finished) : Grows s t where
  added := hadded ▸ List.prefix_rfl
  pulled := hpulled ▸ List.prefix_rfl
  finished := hfinished ▸ List.prefix_rfl

theorem PoolOk.grows (h : PoolOk s) {e : PoolEvent ι κ α} (hs : poolStep s e = .ret t) :
    Grows s t := by
  cases e with
  | addWork job woken =>
    obtain ⟨jobqueue, -, hpost⟩ := Outcome.bind_eq_ret.mp hs
    obtain ⟨-, rfl⟩ := Thpool.bsemPost_eq_ret.mp hpost
    exact ⟨List.prefix_append _ _, List.prefix_rfl, List.prefix_rfl⟩
  | thread i woken told =>
    cases Thpool.threadDo_cases h.counted hs with
    | pullsLast => exact ⟨List.prefix_rfl, List.prefix_append _ _, List.prefix_rfl⟩
    | pulls => exact ⟨List.prefix_rfl, List.prefix_append _ _, List.prefix_rfl⟩
    | runs => exact ⟨List.prefix_rfl, List.prefix_rfl, List.prefix_append _ _⟩
    | _ => exact .of_eq rfl rfl rfl
  | wait k =>
    cases Thpool.thpoolWait_cases hs with
    | _ => exact .of_eq rfl rfl rfl
  | callWait k =>
    rw [poolStep] at hs
    split at hs
    · exact Outcome.ret.inj hs ▸ .of_eq rfl rfl rfl
    · exact Outcome.ret.inj hs ▸ .of_eq rfl rfl rfl
    · contradiction
  | postAll =>
    rw [poolStep] at hs
    split_ifs at hs
    exact Outcome.ret.inj hs ▸ .of_eq rfl rfl rfl
  | spurious | destroy => exact Outcome.ret.inj hs ▸ .of_eq rfl rfl rfl

omit [Fintype κ] in
theorem caller_wake (told : Finset κ) (caller : κ → WaitPc) (k : κ) :
    allIdleCond.wake told caller k = caller k ∨ allIdleCond.wake told caller k = .locks := by
  rcases allIdleCond.wake_cases told caller k with heq | ⟨hsleep, heq⟩
  · exact .inl heq
  · rw [asleep_allIdleCond hsleep] at heq
    exact .inr heq

omit [Fintype ι] [DecidableEq ι] [Fintype κ] in
theorem caller_goto (s : Thpool ι κ α) (k' : κ) (pc : WaitPc) (k : κ) :
    (s.callerGoto k' pc).caller k = s.caller k ∨ k = k' ∧ (s.callerGoto k' pc).caller k = pc := by
  rw [Thpool.callerGoto]
  by_cases hk : k = k'
  · rw [hk]
    exact .inr ⟨rfl, Function.update_self _ _ _⟩
  · exact .inl (Function.update_of_ne hk _ _)

/-- **How a caller gets on**: it is where it was, or it has yet to look, or it has read one of the
two variables and found it 0. -/
theorem PoolOk.caller_step (h : PoolOk s) {e : PoolEvent ι κ α} (hs : poolStep s e = .ret t)
    (k : κ) :
    t.caller k = s.caller k ∨ (t.caller k ≠ .readsWorking ∧ t.caller k ≠ .returned) ∨
      (t.caller k = .readsWorking ∧ s.jobqueue.len = 0) ∨
      (t.caller k = .returned ∧ s.caller k = .readsWorking ∧ s.numThreadsWorking = 0) := by
  have hwake : ∀ told, allIdleCond.wake told s.caller k = s.caller k ∨
      (allIdleCond.wake told s.caller k ≠ .readsWorking ∧
        allIdleCond.wake told s.caller k ≠ .returned) := fun told => by
    refine (caller_wake told s.caller k).imp_right fun hlocks => ?_
    rw [hlocks]
    exact ⟨by decide, by decide⟩
  cases e with
  | addWork job woken =>
    obtain ⟨jobqueue, -, hpost⟩ := Outcome.bind_eq_ret.mp hs
    obtain ⟨-, rfl⟩ := Thpool.bsemPost_eq_ret.mp hpost
    exact .inl rfl
  | thread i woken told =>
    cases Thpool.threadDo_cases h.counted hs with
    | finishesLast => exact (hwake _).imp_right .inl
    | _ => exact .inl rfl
  | spurious woken told =>
    obtain rfl := Outcome.ret.inj hs
    exact (hwake told).imp_right .inl
  | callWait k' =>
    have hlocks : t = s.callerGoto k' .locks := by
      rw [poolStep] at hs
      split at hs
      · exact (Outcome.ret.inj hs).symm
      · exact (Outcome.ret.inj hs).symm
      · contradiction
    rw [hlocks]
    refine (caller_goto s k' .locks k).imp_right fun ⟨_, heq⟩ => .inl ?_
    rw [heq]
    exact ⟨by decide, by decide⟩
  | wait k' =>
    cases Thpool.thpoolWait_cases hs with
    | locks =>
      refine (caller_goto s k' .readsLen k).imp_right fun ⟨_, heq⟩ => .inl ?_
      rw [heq]
      exact ⟨by decide, by decide⟩
    | seesNone _ hlen =>
      exact (caller_goto s k' .readsWorking k).imp_right fun ⟨_, heq⟩ => .inr (.inl ⟨heq, hlen⟩)
    | seesSome | seesWorking =>
      refine (caller_goto s k' .sleeps k).imp_right fun ⟨_, heq⟩ => .inl ?_
      rw [heq]
      exact ⟨by decide, by decide⟩
    | returns hk hworking =>
      refine (caller_goto s k' .returned k).imp_right fun ⟨hkk, heq⟩ => .inr (.inr ⟨heq, ?_, hworking⟩)
      rwa [hkk]
  | destroy => exact Outcome.ret.inj hs ▸ .inl rfl
  | postAll =>
    rw [poolStep] at hs
    split_ifs at hs
    exact Outcome.ret.inj hs ▸ .inl rfl

/-- What a caller of `thpool_wait` knows of the jobs `before` its call. -/
structure Waited (before : List α) (k : κ) (s : Thpool ι κ α) : Prop where
  ok : PoolOk s
  added : before <+: s.added
  read : s.caller k = .readsWorking → before.length ≤ s.pulled.length
  returned : s.caller k = .returned → (before : Multiset α) ≤ s.finished

theorem Waited.step {before : List α} {k : κ} (h : Waited before k s) {e : PoolEvent ι κ α}
    (hs : poolStep s e = .ret t) : Waited before k t := by
  have hgrows := h.ok.grows hs
  refine ⟨h.ok.step hs, h.added.trans hgrows.added, fun hread => ?_, fun hret => ?_⟩
  · rcases h.ok.caller_step hs k with heq | ⟨hno, -⟩ | ⟨-, hlen⟩ | ⟨hret, -⟩
    · exact (h.read (heq ▸ hread)).trans hgrows.pulled.length_le
    · exact absurd hread hno
    · -- the queue is empty, so all jobs have been pulled
      have hnil : s.jobqueue.jobs = [] :=
        List.length_eq_zero_iff.mp (h.ok.counted.symm.trans hlen)
      have hall : s.added = s.pulled := by rw [h.ok.fifo, hnil, List.append_nil]
      exact (hall ▸ h.added.length_le).trans hgrows.pulled.length_le
    · exact absurd (hread.symm.trans hret) (by decide)
  · have hfinished : (s.finished : Multiset α) ≤ t.finished := hgrows.finished.sublist.subperm
    rcases h.ok.caller_step hs k with heq | ⟨-, hno⟩ | ⟨hread, -⟩ | ⟨-, hread, hidle⟩
    · exact (h.returned (heq ▸ hret)).trans hfinished
    · exact absurd hret hno
    · exact absurd (hread.symm.trans hret) (by decide)
    · have hpulled : s.pulled <+: s.added := h.ok.fifo ▸ List.prefix_append _ _
      have hbefore := List.prefix_of_prefix_length_le h.added hpulled (h.read hread)
      have hle : (before : Multiset α) ≤ s.pulled := hbefore.sublist.subperm
      exact (h.ok.finished_of_idle hidle ▸ hle).trans hfinished

/-- **`thpool_wait` waits for every job added before it was called**: when it returns, each of them
is finished, whatever the threads of the pool do, whoever else waits, and whoever adds jobs
meanwhile. -/
theorem thpoolWait_finished {s₁ : Thpool ι κ α} (hs : PoolReachable s) {k : κ}
    (hcall : poolStep s (.callWait k) = .ret s₁) {es : List (PoolEvent ι κ α)}
    (hr : run poolStep s₁ es = .ret t) (hret : t.caller k = .returned) :
    (s.added : Multiset α) ≤ t.finished := by
  have hok := PoolOk.of_reachable hs
  have hlocks : s₁.caller k = .locks := by
    rw [poolStep] at hcall
    split at hcall
    · exact Outcome.ret.inj hcall ▸ Function.update_self _ _ _
    · exact Outcome.ret.inj hcall ▸ Function.update_self _ _ _
    · contradiction
  have hstart : Waited s.added k s₁ :=
    ⟨hok.step hcall, (hok.grows hcall).added, fun h => absurd (hlocks.symm.trans h) (by decide),
      fun h => absurd (hlocks.symm.trans h) (by decide)⟩
  have hend : Waited s.added k t := run_invariant (fun _ _ _ _ h hs => h.step hs) hstart hr
  exact hend.returned hret

/-- The thread finishes both jobs, and the caller looks. -/
def twoJobsWaited : List (PoolEvent Unit Unit ℕ) :=
  List.replicate 9 (.thread () ∅ ∅) ++ List.replicate 3 (.wait ())

/-- A call of `thpool_wait` after the two jobs have been added returns when both are finished. -/
theorem thpoolWait_finished_two : ∃ s s₁ t, run poolStep Thpool.init twoJobs = .ret s ∧
    poolStep s (.callWait ()) = .ret s₁ ∧ run poolStep s₁ twoJobsWaited = .ret t ∧
      (s.added : Multiset ℕ) ≤ t.finished := by
  have hrun : (run poolStep Thpool.init twoJobs >>= fun s => poolStep s (.callWait ()) >>= fun s₁ =>
      run poolStep s₁ twoJobsWaited >>= fun t => .ret (t.caller ())) = .ret .returned := by
    decide
  obtain ⟨s, hs, hrun⟩ := Outcome.bind_eq_ret.mp hrun
  obtain ⟨s₁, hs₁, hrun⟩ := Outcome.bind_eq_ret.mp hrun
  obtain ⟨t, ht, hret⟩ := Outcome.bind_eq_ret.mp hrun
  exact ⟨s, s₁, t, hs, hs₁, ht,
    thpoolWait_finished (.after (.init rfl) hs) hs₁ ht (Outcome.ret.inj hret)⟩

end TrivalTcp
