import TrivalTcp.Foundations.CondVar
import TrivalTcp.Foundations.Run

/-!
# Pool/Thpool — the thread pool (`thpool.c`)

`ι` are the threads of the pool, each somewhere in `thread_do`, and `κ` the threads that call
`thpool_wait`.  One step takes a thread through one critical section, or past one read of a variable
that no lock protects.  `thcount_lock` is held over more than one step in `thpool_wait`, which reads
two variables under it, and of these only one is written under the same lock; and at the end of
`thread_do`, as `thpool_destroy` reads `num_threads_alive` without it.

A job is what `function` and `arg` are, and runs in one step.  The pool keeps a log of the jobs that
have been added, pulled and finished.  Signal handlers are left out: a thread that `thpool_pause`
holds takes no steps.
-/

namespace TrivalTcp

/-! ## The job queue -/

/-- `jobqueue`: `len`, and the jobs from `front` on.  `rear` is the last. -/
structure JobQueue (α : Type) where
  len : ℕ
  jobs : List α
  deriving DecidableEq, Repr

section JobQueue

variable {α : Type}

/-- `jobqueue_init`. -/
def jobqueueInit : JobQueue α := ⟨0, []⟩

/-- `jobqueue_push`, without the `bsem_post` that always follows. -/
def jobqueuePush (q : JobQueue α) (newjob : α) : Outcome (JobQueue α) :=
  match q.len, q.jobs with
  | 0, _ => .ret ⟨1, [newjob]⟩
  -- `rear->prev`, of no job
  | _ + 1, [] => .undef
  | len + 1, job :: rest => .ret ⟨len + 2, job :: rest ++ [newjob]⟩

/-- `jobqueue_pull`: the queue, the job, if there is one, and whether `bsem_post` follows. -/
def jobqueuePull (q : JobQueue α) : Outcome (JobQueue α × Option α × Bool) :=
  match q.len, q.jobs with
  | 0, jobs => .ret (q, jobs.head?, false)
  | 1, jobs => .ret (⟨0, []⟩, jobs.head?, false)
  -- `job_p->prev`, of no job
  | _ + 2, [] => .undef
  | len + 2, job :: rest => .ret (⟨len + 1, rest⟩, some job, true)

/-- `len` counts the jobs. -/
def JobQueue.Counted (q : JobQueue α) : Prop := q.len = q.jobs.length

theorem jobqueuePush_eq {q : JobQueue α} (h : q.Counted) (newjob : α) :
    jobqueuePush q newjob = .ret ⟨q.len + 1, q.jobs ++ [newjob]⟩ := by
  obtain ⟨len, jobs⟩ := q
  obtain rfl : len = jobs.length := h
  cases jobs with
  | nil => rfl
  | cons job rest => rfl

theorem jobqueuePull_nil {q : JobQueue α} (h : q.Counted) (hnil : q.jobs = []) :
    jobqueuePull q = .ret (q, none, false) := by
  obtain ⟨len, jobs⟩ := q
  obtain rfl : jobs = [] := hnil
  obtain rfl : len = 0 := h
  rfl

/-- A pull takes the first job, and posts where it leaves some. -/
theorem jobqueuePull_cons {q : JobQueue α} (h : q.Counted) {job : α} {rest : List α}
    (hcons : q.jobs = job :: rest) :
    jobqueuePull q = .ret (⟨rest.length, rest⟩, some job, !rest.isEmpty) := by
  obtain ⟨len, jobs⟩ := q
  obtain rfl : jobs = job :: rest := hcons
  obtain rfl : len = rest.length + 1 := h
  cases rest with
  | nil => rfl
  | cons job' rest => rfl

end JobQueue

/-! ## Threads -/

/-- Where a thread of the pool is in `thread_do`. -/
inductive ThreadPc (α : Type) where
  /-- It has been created, and not yet counted in `num_threads_alive`. -/
  | created
  /-- `while(threads_keepalive)`. -/
  | loop
  /-- In `bsem_wait`, at `while (bsem_p->v != 1)`. -/
  | waits
  /-- In `bsem_wait`, asleep on `cond`. -/
  | sleeps
  /-- Out of `bsem_wait`, at `if (threads_keepalive)`. -/
  | posted
  /-- At `num_threads_working++`. -/
  | enters
  /-- At `jobqueue_pull`. -/
  | pulls
  /-- It runs a job. -/
  | runs (job : α)
  /-- At `num_threads_working--`. -/
  | finishes
  /-- Out of the loop, at `num_threads_alive --`. -/
  | leaves
  /-- It holds `thcount_lock`, and is about to unlock it. -/
  | unlocks
  | gone
  deriving DecidableEq, Repr

namespace ThreadPc

variable {α : Type}

/-- The thread is one of `num_threads_working`. -/
def Working : ThreadPc α → Bool
  | pulls | runs _ | finishes => true
  | _ => false

/-- The thread is one of `num_threads_alive`. -/
def Alive : ThreadPc α → Bool
  | created | unlocks | gone => false
  | _ => true

/-- The thread holds `thcount_lock` from one step to the next. -/
def Unlocks : ThreadPc α → Bool
  | unlocks => true
  | _ => false

/-- The jobs a thread runs: one or none. -/
def held : ThreadPc α → Multiset α
  | runs job => {job}
  | _ => 0

end ThreadPc

/-- Where a thread is in `thpool_wait`. -/
inductive WaitPc where
  /-- It has not called `thpool_wait`. -/
  | out
  /-- It is about to lock `thcount_lock`, at first or after a wait. -/
  | locks
  /-- It holds the lock, and is about to read `jobqueue.len`. -/
  | readsLen
  /-- It holds the lock and has read 0, and is about to read `num_threads_working`. -/
  | readsWorking
  /-- It sleeps on `threads_all_idle`. -/
  | sleeps
  /-- `thpool_wait` has returned. -/
  | returned
  deriving DecidableEq, Repr

/-- `has_jobs->cond`. -/
def hasJobsCond (α : Type) : CondVar (ThreadPc α) := .ofLooks
  (fun
    | .sleeps => some .waits
    | _ => none)
  (fun
    | .waits => true
    | _ => false)
  (fun l => by cases l <;> rfl)

/-- `threads_all_idle`. -/
def allIdleCond : CondVar WaitPc := .ofLooks
  (fun
    | .sleeps => some .locks
    | _ => none)
  (fun
    | .locks | .readsLen | .readsWorking => true
    | _ => false)
  (fun l => by cases l <;> rfl)

/-! ## The pool -/

/-- `thpool_`, with the static `threads_keepalive` and the log. -/
structure Thpool (ι κ α : Type) where
  threadsKeepalive : Bool
  numThreadsAlive : ℤ
  numThreadsWorking : ℤ
  jobqueue : JobQueue α
  /-- `jobqueue.has_jobs->v` is 1. -/
  hasJobs : Bool
  thread : ι → ThreadPc α
  caller : κ → WaitPc
  added : List α
  pulled : List α
  finished : List α

/-- What can happen to a pool.  `woken` and `told` are the threads the system wakes if the step
signals `has_jobs->cond` or `threads_all_idle`. -/
inductive PoolEvent (ι κ α : Type) where
  | addWork (job : α) (woken : Finset ι)
  | thread (i : ι) (woken : Finset ι) (told : Finset κ)
  /-- Threads wake without a signal. -/
  | spurious (woken : Finset ι) (told : Finset κ)
  | callWait (k : κ)
  | wait (k : κ)
  /-- `thpool_destroy` is called. -/
  | destroy
  /-- Once around the loops of `thpool_destroy`. -/
  | postAll

namespace Thpool

variable {ι κ α : Type} [Fintype ι] [DecidableEq ι] [Fintype κ] [DecidableEq κ] (s : Thpool ι κ α)

/-- `thpool_init`, with all threads created. -/
def init : Thpool ι κ α where
  threadsKeepalive := true
  numThreadsAlive := 0
  numThreadsWorking := 0
  jobqueue := jobqueueInit
  hasJobs := false
  thread _ := .created
  caller _ := .out
  added := []
  pulled := []
  finished := []

/-- Thread `i` goes on at `pc`. -/
def goto (i : ι) (pc : ThreadPc α) : Thpool ι κ α :=
  { s with thread := Function.update s.thread i pc }

/-- Thread `k` goes on at `pc`. -/
def callerGoto (k : κ) (pc : WaitPc) : Thpool ι κ α :=
  { s with caller := Function.update s.caller k pc }

/-- `thcount_lock` is held, by a thread in `thpool_wait` or by one that leaves. -/
def Locked : Prop :=
  (∃ k, s.caller k = .readsLen ∨ s.caller k = .readsWorking) ∨ ∃ i, (s.thread i).Unlocks = true

instance : Decidable s.Locked := inferInstanceAs (Decidable ((∃ _, _ ∨ _) ∨ ∃ _, _ = true))

/-- `bsem_post`. -/
def bsemPost (woken : Finset ι) : Outcome (Thpool ι κ α) :=
  if (hasJobsCond α).Signals woken s.thread then
    .ret { s with hasJobs := true, thread := (hasJobsCond α).wake woken s.thread }
  else
    .blocked

/-- `bsem_post_all`. -/
def bsemPostAll : Thpool ι κ α :=
  { s with hasJobs := true, thread := (hasJobsCond α).wakeAll s.thread }

/-- `pthread_cond_signal(&thpool_p->threads_all_idle)`. -/
def signalAllIdle (told : Finset κ) : Outcome (Thpool ι κ α) :=
  if allIdleCond.Signals told s.caller then
    .ret { s with caller := allIdleCond.wake told s.caller }
  else
    .blocked

/-- `thpool_add_work`. -/
def thpoolAddWork (job : α) (woken : Finset ι) : Outcome (Thpool ι κ α) :=
  jobqueuePush s.jobqueue job >>= fun jobqueue =>
    bsemPost { s with jobqueue, added := s.added ++ [job] } woken

/-- The next step of thread `i` in `thread_do`. -/
def threadDo (i : ι) (woken : Finset ι) (told : Finset κ) : Outcome (Thpool ι κ α) :=
  match s.thread i with
  | .created =>
    if s.Locked then
      .blocked
    else
      .ret ({ s with numThreadsAlive := s.numThreadsAlive + 1 }.goto i .loop)
  | .loop => .ret (s.goto i (if s.threadsKeepalive then .waits else .leaves))
  | .waits =>
    if s.hasJobs then .ret ({ s with hasJobs := false }.goto i .posted) else .ret (s.goto i .sleeps)
  | .posted => .ret (s.goto i (if s.threadsKeepalive then .enters else .loop))
  | .enters =>
    if s.Locked then
      .blocked
    else
      .ret ({ s with numThreadsWorking := s.numThreadsWorking + 1 }.goto i .pulls)
  | .pulls =>
    jobqueuePull s.jobqueue >>= fun (jobqueue, job, posts) =>
      let s := { s with jobqueue, pulled := s.pulled ++ job.toList }
      let s := s.goto i (job.elim .finishes .runs)
      if posts then s.bsemPost woken else .ret s
  | .runs job => .ret ({ s with finished := s.finished ++ [job] }.goto i .finishes)
  | .finishes =>
    if s.Locked then
      .blocked
    else
      let s := { s with numThreadsWorking := s.numThreadsWorking - 1 }.goto i .loop
      if s.numThreadsWorking = 0 then s.signalAllIdle told else .ret s
  | .leaves =>
    if s.Locked then
      .blocked
    else
      .ret ({ s with numThreadsAlive := s.numThreadsAlive - 1 }.goto i .unlocks)
  | .unlocks => .ret (s.goto i .gone)
  | .sleeps | .gone => .blocked

/-- The next step of thread `k` in `thpool_wait`. -/
def thpoolWait (k : κ) : Outcome (Thpool ι κ α) :=
  match s.caller k with
  | .locks => if s.Locked then .blocked else .ret (s.callerGoto k .readsLen)
  | .readsLen => .ret (s.callerGoto k (if s.jobqueue.len = 0 then .readsWorking else .sleeps))
  | .readsWorking => .ret (s.callerGoto k (if s.numThreadsWorking = 0 then .returned else .sleeps))
  | .out | .sleeps | .returned => .blocked

end Thpool

variable {ι κ α : Type} [Fintype ι] [DecidableEq ι] [Fintype κ] [DecidableEq κ]

/-- One step of the pool or of a thread that uses it. -/
def poolStep (s : Thpool ι κ α) : PoolEvent ι κ α → Outcome (Thpool ι κ α)
  | .addWork job woken => s.thpoolAddWork job woken
  | .thread i woken told => s.threadDo i woken told
  | .spurious woken told => .ret { s with
      thread := (hasJobsCond α).wake woken s.thread
      caller := allIdleCond.wake told s.caller }
  | .callWait k =>
    match s.caller k with
    | .out | .returned => .ret (s.callerGoto k .locks)
    | _ => .blocked
  | .wait k => s.thpoolWait k
  | .destroy => .ret { s with threadsKeepalive := false }
  | .postAll => if s.threadsKeepalive then .blocked else .ret s.bsemPostAll

/-! ## What a thread can do -/

namespace Thpool

variable (s : Thpool ι κ α)

omit [Fintype ι] [Fintype κ] [DecidableEq κ] in
theorem goto_thread_self (i : ι) (pc : ThreadPc α) : (s.goto i pc).thread i = pc :=
  Function.update_self _ _ _

omit [Fintype ι] [Fintype κ] [DecidableEq κ] in
theorem goto_thread_of_ne {i j : ι} (hj : j ≠ i) (pc : ThreadPc α) :
    (s.goto i pc).thread j = s.thread j := Function.update_of_ne hj _ _

/-- What a signal of `has_jobs->cond` leaves. -/
def posted (woken : Finset ι) : Thpool ι κ α :=
  { s with hasJobs := true, thread := (hasJobsCond α).wake woken s.thread }

/-- What a signal of `threads_all_idle` leaves. -/
def idled (told : Finset κ) : Thpool ι κ α := { s with caller := allIdleCond.wake told s.caller }

/-- Thread `i` has pulled a job. -/
def pulledBy (i : ι) (job : α) (rest : List α) : Thpool ι κ α :=
  { s with jobqueue := ⟨rest.length, rest⟩, pulled := s.pulled ++ [job] }.goto i (.runs job)

/-- Thread `i` is no longer counted as working. -/
def finishedBy (i : ι) : Thpool ι κ α :=
  { s with numThreadsWorking := s.numThreadsWorking - 1 }.goto i .loop

/-- **What thread `i` can do**, with the state it leaves. -/
inductive ThreadStep (i : ι) : Thpool ι κ α → Prop where
  | starts (hi : s.thread i = .created) (hlock : ¬ s.Locked) :
      ThreadStep i ({ s with numThreadsAlive := s.numThreadsAlive + 1 }.goto i .loop)
  | stays (hi : s.thread i = .loop) (hkeep : s.threadsKeepalive = true) :
      ThreadStep i (s.goto i .waits)
  | stops (hi : s.thread i = .loop) (hkeep : s.threadsKeepalive = false) :
      ThreadStep i (s.goto i .leaves)
  | takes (hi : s.thread i = .waits) (hjobs : s.hasJobs = true) :
      ThreadStep i ({ s with hasJobs := false }.goto i .posted)
  | sleeps (hi : s.thread i = .waits) (hjobs : s.hasJobs = false) : ThreadStep i (s.goto i .sleeps)
  | serves (hi : s.thread i = .posted) (hkeep : s.threadsKeepalive = true) :
      ThreadStep i (s.goto i .enters)
  | turns (hi : s.thread i = .posted) (hkeep : s.threadsKeepalive = false) :
      ThreadStep i (s.goto i .loop)
  | enters (hi : s.thread i = .enters) (hlock : ¬ s.Locked) :
      ThreadStep i ({ s with numThreadsWorking := s.numThreadsWorking + 1 }.goto i .pulls)
  | pullsNone (hi : s.thread i = .pulls) (hnil : s.jobqueue.jobs = []) :
      ThreadStep i (s.goto i .finishes)
  | pullsLast (hi : s.thread i = .pulls) {job : α} (hone : s.jobqueue.jobs = [job]) :
      ThreadStep i (s.pulledBy i job [])
  | pulls (hi : s.thread i = .pulls) {job : α} {rest : List α}
      (hcons : s.jobqueue.jobs = job :: rest) (hrest : rest ≠ []) {woken : Finset ι}
      (hwoken : (hasJobsCond α).Signals woken (s.pulledBy i job rest).thread) :
      ThreadStep i ((s.pulledBy i job rest).posted woken)
  | runs {job : α} (hi : s.thread i = .runs job) :
      ThreadStep i ({ s with finished := s.finished ++ [job] }.goto i .finishes)
  | finishes (hi : s.thread i = .finishes) (hlock : ¬ s.Locked)
      (hworking : s.numThreadsWorking - 1 ≠ 0) : ThreadStep i (s.finishedBy i)
  | finishesLast (hi : s.thread i = .finishes) (hlock : ¬ s.Locked)
      (hworking : s.numThreadsWorking - 1 = 0) {told : Finset κ}
      (htold : allIdleCond.Signals told s.caller) : ThreadStep i ((s.finishedBy i).idled told)
  | leaves (hi : s.thread i = .leaves) (hlock : ¬ s.Locked) :
      ThreadStep i ({ s with numThreadsAlive := s.numThreadsAlive - 1 }.goto i .unlocks)
  | unlocks (hi : s.thread i = .unlocks) : ThreadStep i (s.goto i .gone)

variable {s} {t : Thpool ι κ α}

omit [Fintype κ] [DecidableEq κ] in
/-- A broadcast leaves what a signal may. -/
theorem bsemPostAll_eq (s : Thpool ι κ α) : s.bsemPostAll = s.posted Finset.univ := by
  rw [bsemPostAll, CondVar.wakeAll_eq, posted]

omit [Fintype κ] [DecidableEq κ] in
theorem bsemPost_eq_ret {woken : Finset ι} : s.bsemPost woken = .ret t ↔
    (hasJobsCond α).Signals woken s.thread ∧ t = s.posted woken := by
  rw [bsemPost]
  split_ifs with h
  · exact ⟨fun hs => ⟨h, (Outcome.ret.inj hs).symm⟩, fun hs => congrArg Outcome.ret hs.2.symm⟩
  · exact ⟨fun hs => by contradiction, fun hs => absurd hs.1 h⟩

/-- **A step of a thread is one of these**, where `len` counts the jobs. -/
theorem threadDo_cases (h : s.jobqueue.Counted) {i : ι} {woken : Finset ι} {told : Finset κ}
    (hs : s.threadDo i woken told = .ret t) : s.ThreadStep i t := by
  rw [threadDo] at hs
  split at hs
  next hi =>
    split_ifs at hs with hlock
    exact Outcome.ret.inj hs ▸ .starts hi hlock
  next hi =>
    split_ifs at hs with hkeep
    · exact Outcome.ret.inj hs ▸ .stays hi hkeep
    · exact Outcome.ret.inj hs ▸ .stops hi (Bool.eq_false_of_not_eq_true hkeep)
  next hi =>
    split_ifs at hs with hjobs
    · exact Outcome.ret.inj hs ▸ .takes hi hjobs
    · exact Outcome.ret.inj hs ▸ .sleeps hi (Bool.eq_false_of_not_eq_true hjobs)
  next hi =>
    split_ifs at hs with hkeep
    · exact Outcome.ret.inj hs ▸ .serves hi hkeep
    · exact Outcome.ret.inj hs ▸ .turns hi (Bool.eq_false_of_not_eq_true hkeep)
  next hi =>
    split_ifs at hs with hlock
    exact Outcome.ret.inj hs ▸ .enters hi hlock
  next hi =>
    match hjobs : s.jobqueue.jobs with
    | [] =>
      rw [jobqueuePull_nil h hjobs] at hs
      have hsame : s.pulled ++ (none : Option α).toList = s.pulled := List.append_nil _
      dsimp only [Outcome.ret_bind] at hs
      rw [hsame] at hs
      exact Outcome.ret.inj hs ▸ .pullsNone hi hjobs
    | [job] =>
      rw [jobqueuePull_cons h hjobs] at hs
      exact Outcome.ret.inj hs ▸ .pullsLast hi hjobs
    | job :: job' :: rest =>
      rw [jobqueuePull_cons h hjobs] at hs
      obtain ⟨hwoken, rfl⟩ := bsemPost_eq_ret.mp hs
      exact .pulls hi hjobs (List.cons_ne_nil _ _) hwoken
  next job hi => exact Outcome.ret.inj hs ▸ .runs hi
  next hi =>
    split_ifs at hs with hlock
    dsimp only at hs
    split_ifs at hs with hworking
    · rw [signalAllIdle] at hs
      split_ifs at hs with htold
      exact Outcome.ret.inj hs ▸ .finishesLast hi hlock hworking htold
    · exact Outcome.ret.inj hs ▸ .finishes hi hlock hworking
  next hi =>
    split_ifs at hs with hlock
    exact Outcome.ret.inj hs ▸ .leaves hi hlock
  next hi => exact Outcome.ret.inj hs ▸ .unlocks hi
  next => contradiction
  next => contradiction

/-- **What a caller of `thpool_wait` can do.** -/
inductive WaitStep (s : Thpool ι κ α) (k : κ) : Thpool ι κ α → Prop where
  | locks (hk : s.caller k = .locks) (hlock : ¬ s.Locked) : WaitStep s k (s.callerGoto k .readsLen)
  | seesNone (hk : s.caller k = .readsLen) (hlen : s.jobqueue.len = 0) :
      WaitStep s k (s.callerGoto k .readsWorking)
  | seesSome (hk : s.caller k = .readsLen) (hlen : s.jobqueue.len ≠ 0) :
      WaitStep s k (s.callerGoto k .sleeps)
  | returns (hk : s.caller k = .readsWorking) (hworking : s.numThreadsWorking = 0) :
      WaitStep s k (s.callerGoto k .returned)
  | seesWorking (hk : s.caller k = .readsWorking) (hworking : s.numThreadsWorking ≠ 0) :
      WaitStep s k (s.callerGoto k .sleeps)

omit [DecidableEq ι] in
theorem thpoolWait_cases {k : κ} (hs : s.thpoolWait k = .ret t) : s.WaitStep k t := by
  rw [thpoolWait] at hs
  split at hs
  next hk =>
    split_ifs at hs with hlock
    exact Outcome.ret.inj hs ▸ .locks hk hlock
  next hk =>
    split_ifs at hs with hlen
    · exact Outcome.ret.inj hs ▸ .seesNone hk hlen
    · exact Outcome.ret.inj hs ▸ .seesSome hk hlen
  next hk =>
    split_ifs at hs with hworking
    · exact Outcome.ret.inj hs ▸ .returns hk hworking
    · exact Outcome.ret.inj hs ▸ .seesWorking hk hworking
  all_goals contradiction

end Thpool

end TrivalTcp
