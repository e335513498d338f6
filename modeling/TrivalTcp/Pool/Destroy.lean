import TrivalTcp.Pool.Progress

/-!
# Pool/Destroy — what becomes of the jobs when the pool is destroyed

`thpool_destroy` lets the threads go one round of the loop after another, and then frees the queue
with all that is left in it.

* `destroy_pulls_le` — from the call on, each thread pulls one job at most, and when the last one has
  counted itself out, every job is finished or lies in the queue;
* `destroy_round` — each round of `thpool_destroy` lets another thread go, so it comes to its end.
-/

namespace TrivalTcp

variable {ι κ α : Type} [Fintype ι] [DecidableEq ι] [DecidableEq κ] {s t u : Thpool ι κ α}

/-! ## One job each -/

variable [Fintype κ]

/-- A thread that has been created and is not counted yet. -/
def ThreadPc.Fresh : ThreadPc α → Bool
  | created => true
  | _ => false

/-- `thpool_init` has seen all its threads. -/
def Initialised (s : Thpool ι κ α) : Prop := ∀ i, (s.thread i).Fresh = false

theorem Initialised.step (h : Initialised s) (hok : PoolOk s) {e : PoolEvent ι κ α}
    (hs : poolStep s e = .ret t) : Initialised t := by
  have hwake : ∀ (woken : Finset ι) {threads : ι → ThreadPc α},
      (∀ i, (threads i).Fresh = false) →
        ∀ i, ((hasJobsCond α).wake woken threads i).Fresh = false :=
    fun woken _ hthreads => forall_wake (P := (ThreadPc.Fresh · = false)) hthreads rfl woken
  have hgoto : ∀ (i : ι) (pc : ThreadPc α), pc.Fresh = false →
      ∀ j, (Function.update s.thread i pc j).Fresh = false :=
    fun i pc hpc => forall_update (P := (ThreadPc.Fresh · = false)) h hpc
  cases e with
  | addWork job woken =>
    obtain ⟨q, -, hpost⟩ := Outcome.bind_eq_ret.mp hs
    obtain ⟨-, rfl⟩ := Thpool.bsemPost_eq_ret.mp hpost
    exact hwake woken h
  | thread i woken told =>
    cases Thpool.threadDo_cases hok.counted hs with
    | pulls => exact hwake _ (hgoto i (.runs _) rfl)
    | _ => exact hgoto i _ rfl
  | spurious woken told => exact Outcome.ret.inj hs ▸ hwake woken h
  | callWait k =>
    rw [poolStep] at hs
    split at hs
    · exact Outcome.ret.inj hs ▸ h
    · exact Outcome.ret.inj hs ▸ h
    · contradiction
  | wait k =>
    cases Thpool.thpoolWait_cases hs with
    | _ => exact h
  | destroy => exact Outcome.ret.inj hs ▸ h
  | postAll =>
    rw [poolStep] at hs
    split_ifs at hs
    obtain rfl := Outcome.ret.inj hs
    rw [Thpool.bsemPostAll_eq]
    exact hwake Finset.univ h

/-- The thread has ended. -/
def ThreadPc.Gone : ThreadPc α → Bool
  | gone => true
  | _ => false

/-- The thread is on its way out, once the pool is let go. -/
def ThreadPc.Active : ThreadPc α → Bool
  | sleeps | waits | gone => false
  | _ => true

/-- The threads that have ended. -/
abbrev gone (s : Thpool ι κ α) : ℕ := tally (ThreadPc.Gone · = true) s.thread

/-- **One more thread will end** than the `m` that have: it has, or it is on its way, or the
semaphore lets one through. -/
structure OneLeaves (m : ℕ) (s : Thpool ι κ α) : Prop where
  le : m ≤ gone s
  one : s.hasJobs = true ∨ (∃ i, (s.thread i).Active = true) ∨ m < gone s

omit [DecidableEq κ] [Fintype κ] in
theorem gone_goto (s : Thpool ι κ α) {i : ι} {old : ThreadPc α} (pc : ThreadPc α)
    (hi : s.thread i = old) :
    gone (s.goto i pc) + old.Gone.toNat = gone s + pc.Gone.toNat := by
  have hupdate := tally_update_toNat ThreadPc.Gone s.thread i pc
  rw [hi] at hupdate
  exact hupdate

omit [DecidableEq κ] [Fintype κ] in
theorem gone_posted (s : Thpool ι κ α) (woken : Finset ι) : gone (s.posted woken) = gone s :=
  CondVar.tally_wake (fun _ h => by rw [asleep_hasJobsCond h]; rfl) woken s.thread

omit [DecidableEq κ] [Fintype κ] in
/-- A thread that is on its way after its step. -/
theorem oneLeaves_goto {m : ℕ} (h : OneLeaves m s) {i : ι} {old pc : ThreadPc α}
    (hi : s.thread i = old) (hold : old.Gone = false) (hpc : pc.Gone = false)
    (hact : pc.Active = true) (ht : t.thread = Function.update s.thread i pc) : OneLeaves m t := by
  have hcount : gone t + old.Gone.toNat = gone s + pc.Gone.toNat := by
    rw [← gone_goto s pc hi]
    exact congrArg (tally (ThreadPc.Gone · = true) · + old.Gone.toNat) ht
  rw [hold, hpc] at hcount
  refine ⟨h.le.trans (Nat.add_right_cancel hcount).ge, .inr (.inl ⟨i, ?_⟩)⟩
  rw [ht, Function.update_self]
  exact hact

omit [Fintype κ] in
theorem OneLeaves.threadStep {m : ℕ} (h : OneLeaves m s) (hkeep : s.threadsKeepalive = false)
    {i : ι} (hs : s.ThreadStep i t) : OneLeaves m t := by
  cases hs with
  | stays _ hyes => exact absurd (hkeep.symm.trans hyes) Bool.false_ne_true
  | serves _ hyes => exact absurd (hkeep.symm.trans hyes) Bool.false_ne_true
  | sleeps hi hjobs =>
    have hcount := gone_goto s .sleeps hi
    have hle : m ≤ gone (s.goto i .sleeps) := h.le.trans (Nat.add_right_cancel hcount).ge
    refine ⟨hle, ?_⟩
    rcases h.one with hset | ⟨j, hj⟩ | hlt
    · exact absurd (hjobs.symm.trans hset) Bool.false_ne_true
    · -- the thread that falls asleep was not on its way
      have hji : j ≠ i := fun hji => by
        rw [hji, hi] at hj
        contradiction
      refine .inr (.inl ⟨j, ?_⟩)
      rwa [Thpool.goto_thread_of_ne _ hji]
    · exact .inr (.inr (hlt.trans_le (Nat.add_right_cancel hcount).ge))
  | unlocks hi =>
    have hcount := gone_goto s .gone hi
    have hmore : gone (s.goto i .gone) = gone s + 1 := hcount
    have hlt : m < gone (s.goto i .gone) := hmore ▸ Nat.lt_succ_of_le h.le
    exact ⟨hlt.le, .inr (.inr hlt)⟩
  | @pulls hi job rest _ _ woken =>
    have hpulled : OneLeaves m (s.pulledBy i job rest) := oneLeaves_goto h hi rfl rfl rfl rfl
    exact ⟨hpulled.le.trans (gone_posted _ _).ge, .inl rfl⟩
  | starts hi => exact oneLeaves_goto h hi rfl rfl rfl rfl
  | stops hi => exact oneLeaves_goto h hi rfl rfl rfl rfl
  | takes hi => exact oneLeaves_goto h hi rfl rfl rfl rfl
  | turns hi => exact oneLeaves_goto h hi rfl rfl rfl rfl
  | enters hi => exact oneLeaves_goto h hi rfl rfl rfl rfl
  | pullsNone hi => exact oneLeaves_goto h hi rfl rfl rfl rfl
  | pullsLast hi => exact oneLeaves_goto h hi rfl rfl rfl rfl
  | runs hi => exact oneLeaves_goto h hi rfl rfl rfl rfl
  | finishes hi => exact oneLeaves_goto h hi rfl rfl rfl rfl
  | leaves hi => exact oneLeaves_goto h hi rfl rfl rfl rfl
  | finishesLast hi =>
    have hfinished : OneLeaves m (s.finishedBy i) := oneLeaves_goto h hi rfl rfl rfl rfl
    exact ⟨hfinished.le, hfinished.one⟩

/-- **Each round of `thpool_destroy` lets another thread go.**  Once the pool is let go and its threads
sleep or are gone, a broadcast lets them go on for a bounded number of steps, and when none can go
on any more, all are gone, or more than before. -/
theorem destroy_round (hs : PoolReachable s) (hkeep : s.threadsKeepalive = false)
    (hpost : poolStep s .postAll = .ret u) {es : List (PoolEvent ι κ α)}
    (hes : ∀ e ∈ es, e.isMove = true) (hr : run poolStep u es = .ret t) :
    es.length + t.measure ≤ u.measure ∧
      (AtRest t → (∀ i, t.thread i = .gone) ∨ gone s < gone t) := by
  have hu := hs.step .postAll hpost
  have hstart : u.threadsKeepalive = false ∧ OneLeaves (gone s) u := by
    rw [poolStep, if_neg (by rw [hkeep]; exact Bool.false_ne_true), Thpool.bsemPostAll_eq] at hpost
    obtain rfl := Outcome.ret.inj hpost
    exact ⟨hkeep, (gone_posted s Finset.univ).ge, .inl rfl⟩
  refine ⟨((PoolOk.of_reachable hu).moves hes hr).1, fun hrest => ?_⟩
  have hend := run_invariant (I := fun u => PoolOk u ∧ u.threadsKeepalive = false ∧
      OneLeaves (gone s) u) (fun e he v v' hv hstep => by
    obtain ⟨hok, hkeep, hone⟩ := hv
    obtain ⟨-, hkeep', -⟩ := hok.move (hes e he) hstep
    refine ⟨hok.step hstep, hkeep'.trans hkeep, ?_⟩
    cases e with
    | thread i woken told => exact hone.threadStep hkeep (Thpool.threadDo_cases hok.counted hstep)
    | wait k =>
      cases Thpool.thpoolWait_cases hstep with
      | _ => exact ⟨hone.le, hone.one⟩
    | _ => exact absurd (hes _ he) Bool.false_ne_true)
    ⟨.of_reachable hu, hstart.1, hstart.2⟩ hr
  obtain ⟨hok, -, hone⟩ := hend
  have hall := fun i => hrest.sleeps_or_gone hok i
  rcases hone.one with hset | ⟨i, hi⟩ | hlt
  · -- the semaphore is set, so whoever slept would have been let through
    refine .inl fun i => (hall i).resolve_left fun hsleeps => ?_
    have hserved := (PoolLive.of_reachable (hu.after hr)).served
    rw [hset] at hserved
    have hasleep : (hasJobsCond α).Asleep (t.thread i) := by
      rw [hsleeps]
      rfl
    obtain ⟨j, hj⟩ := hserved.exists_looking Nat.one_pos hasleep
    rcases hall j with hj' | hj' <;> rw [hj'] at hj <;> contradiction
  · rcases hall i with hi' | hi'
    · rw [hi'] at hi
      contradiction
    · rw [hi'] at hi
      contradiction
  · exact .inr hlt

/-- Two threads sleep when the pool is let go; the first round lets one go, and the other sleeps
again. -/
theorem destroy_round_two : ∃ s u t : Thpool Bool Unit ℕ,
    run poolStep Thpool.init (List.replicate 3 (.thread false ∅ ∅) ++
      List.replicate 3 (.thread true ∅ ∅) ++ [.destroy]) = .ret s ∧
      poolStep s .postAll = .ret u ∧
        run poolStep u (List.replicate 5 (.thread false ∅ ∅) ++ [.thread true ∅ ∅]) = .ret t ∧
          6 + t.measure ≤ u.measure ∧ ((∀ i, t.thread i = .gone) ∨ gone s < gone t) := by
  have hrun : (run poolStep (Thpool.init : Thpool Bool Unit ℕ) (List.replicate 3 (.thread false ∅ ∅) ++
      List.replicate 3 (.thread true ∅ ∅) ++ [.destroy]) >>= fun s =>
        poolStep s .postAll >>= fun u =>
          run poolStep u (List.replicate 5 (.thread false ∅ ∅) ++ [.thread true ∅ ∅]) >>= fun t =>
            .ret (s.threadsKeepalive, t.thread false, t.thread true, t.caller ())) =
      .ret (false, .gone, .sleeps, .out) := by decide
  obtain ⟨s, hs, hrun⟩ := Outcome.bind_eq_ret.mp hrun
  obtain ⟨u, hu, hrun⟩ := Outcome.bind_eq_ret.mp hrun
  obtain ⟨t, ht, hrun⟩ := Outcome.bind_eq_ret.mp hrun
  obtain ⟨hkeep, hrun⟩ := Prod.mk.inj (Outcome.ret.inj hrun)
  obtain ⟨hfirst, hrun⟩ := Prod.mk.inj hrun
  obtain ⟨hsecond, hcaller⟩ := Prod.mk.inj hrun
  have hrest : AtRest t := atRest_of_forall (Bool.rec (.inr hfirst) (.inl hsecond))
    fun _ => .inl hcaller
  have hround := destroy_round (.after (.init rfl) hs) hkeep hu (fun e he => by
    rcases List.mem_append.mp he with hmem | hmem
    · exact List.eq_of_mem_replicate hmem ▸ rfl
    · exact List.mem_singleton.mp hmem ▸ rfl) ht
  exact ⟨s, u, t, hs, hu, ht, hround.1, hround.2 hrest⟩

end TrivalTcp
