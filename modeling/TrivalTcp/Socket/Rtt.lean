import Mathlib.Algebra.Order.Field.Rat
import Mathlib.Tactic.Linarith
import TrivalTcp.Foundations.Run
import TrivalTcp.Foundations.Truncate

/-!
# Socket/Rtt — the estimates of the round-trip time (`timer.c`)

`tcp_ack_update_rtt` and the functions under it.  A `float` is an exact rational here; what is an
`int` in the source stays one: `ALPHA` and `BETA` are quotients of `int`s, and `abs` takes and
returns an `int`.  `rfcUpdate` is the rule the fractions were meant for.

The estimates do not depend on the samples (`tcpAckUpdateRtt_eq_ret`), and after no sample of any
history are they what the rule asks for (`rtt_never_follows`).
-/

namespace TrivalTcp

/-- The estimates in `rtt_timer_t`. -/
structure RttEstimate where
  estimatedRtt : ℚ
  devRtt : ℚ
  timeout : ℚ
  deriving DecidableEq, Repr

/-! ## The source -/

/-- `ALPHA`. -/
def alpha : ℤ := Int.tdiv 1 8

/-- `BETA`. -/
def beta : ℤ := Int.tdiv 1 4

/-- `CLOCK_G`. -/
def clockG : ℚ := 1 / 10

/-- `TCP_RTO_MAX`. -/
def tcpRtoMax : ℤ := 100

/-- `tcp_init_rtt`. -/
def tcpInitRtt : RttEstimate := ⟨3, 3, 3⟩

/-- A `float` where an `int` is asked for. -/
def floatToInt (x : ℚ) : Outcome ℤ :=
  if truncate x < -2 ^ 31 ∨ 2 ^ 31 ≤ truncate x then .undef else .ret (truncate x)

/-- `abs`: the smallest `int` has no absolute value. -/
def absInt (v : ℤ) : Outcome ℤ := if v = -2 ^ 31 then .undef else .ret |v|

/-- `max` of `utils.c`. -/
def floatMax (a b : ℚ) : ℚ := if a > b then a else b

/-- `tcp_set_estimator`. -/
def tcpSetEstimator (r : RttEstimate) (mrttUs : ℚ) : Outcome RttEstimate :=
  let r := { r with estimatedRtt := (1 - alpha : ℤ) * r.estimatedRtt + alpha * mrttUs }
  floatToInt (r.estimatedRtt - mrttUs) >>= fun diff =>
    absInt diff >>= fun dist =>
      .ret { r with devRtt := (1 - beta : ℤ) * r.devRtt + (beta * dist : ℤ) }

/-- `tcp_bound_rto`. -/
def tcpBoundRto (r : RttEstimate) : RttEstimate :=
  if r.timeout > tcpRtoMax then { r with timeout := tcpRtoMax } else r

/-- `tcp_set_rto`: the maximum is assigned to `estimated_rtt`, and that to `timeout`. -/
def tcpSetRto (r : RttEstimate) : RttEstimate :=
  let r := { r with estimatedRtt := floatMax clockG (4 * r.devRtt) }
  tcpBoundRto { r with timeout := r.estimatedRtt }

/-- `tcp_ack_update_rtt`: the estimates and the returned status. -/
def tcpAckUpdateRtt (r : RttEstimate) (seqRttUs sackRttUs : ℚ) : Outcome (RttEstimate × ℤ) :=
  let seqRttUs := if seqRttUs < 0 then sackRttUs else seqRttUs
  tcpSetEstimator r seqRttUs >>= fun r => .ret (tcpSetRto r, 0)

/-- One sample: `seq_rtt_us` and `sack_rtt_us`. -/
def rttStep (r : RttEstimate) (sample : ℚ × ℚ) : Outcome RttEstimate :=
  tcpAckUpdateRtt r sample.1 sample.2 >>= fun r => .ret r.1

/-! ## The rule -/

/-- What the estimates should be after the sample `m`: both are moving averages, with the weights
1/8 and 1/4, and the timeout leaves four deviations, but at least `CLOCK_G`. -/
def rfcUpdate (r : RttEstimate) (m : ℚ) : RttEstimate :=
  let estimatedRtt := (1 - 1 / 8) * r.estimatedRtt + 1 / 8 * m
  let devRtt := (1 - 1 / 4) * r.devRtt + 1 / 4 * |estimatedRtt - m|
  ⟨estimatedRtt, devRtt, min tcpRtoMax (estimatedRtt + max clockG (4 * devRtt))⟩

/-- The rule never asks for a timeout that is the estimate itself, below the bound. -/
theorem rfcUpdate_timeout_ne {r : RttEstimate} {m : ℚ}
    (h : (rfcUpdate r m).estimatedRtt < tcpRtoMax) :
    (rfcUpdate r m).timeout ≠ (rfcUpdate r m).estimatedRtt := by
  have hclock : (0 : ℚ) < clockG := by norm_num [clockG]
  refine (lt_min h (lt_add_of_pos_right _ ?_)).ne'
  exact hclock.trans_le (le_max_left _ _)

/-! ## What the source computes -/

/-- **The weights are 0**: a sample changes neither average. -/
theorem tcpSetEstimator_eq_ret {r r' : RttEstimate} {m : ℚ} (h : tcpSetEstimator r m = .ret r') :
    r' = r := by
  obtain ⟨diff, -, h⟩ := Outcome.bind_eq_ret.mp h
  obtain ⟨dist, -, h⟩ := Outcome.bind_eq_ret.mp h
  have halpha : alpha = 0 := rfl
  have hbeta : beta = 0 := rfl
  rw [← Outcome.ret.inj h, halpha, hbeta]
  simp

theorem tcpSetRto_eq {r : RttEstimate} (h : r.devRtt = 3) : tcpSetRto r = ⟨12, 3, 12⟩ := by
  have hmax : floatMax clockG (4 * 3) = 12 := by norm_num [floatMax, clockG]
  have hbound : ¬ (12 : ℚ) > tcpRtoMax := by norm_num [tcpRtoMax]
  rw [tcpSetRto, tcpBoundRto, h, hmax, if_neg hbound]

/-- **After a sample the estimates are 12, 3 and 12**, whatever it was. -/
theorem tcpAckUpdateRtt_eq_ret {r r' : RttEstimate} {m sack : ℚ} {status : ℤ} (hr : r.devRtt = 3)
    (h : tcpAckUpdateRtt r m sack = .ret (r', status)) : r' = ⟨12, 3, 12⟩ ∧ status = 0 := by
  obtain ⟨t, ht, hret⟩ := Outcome.bind_eq_ret.mp h
  obtain rfl := tcpSetEstimator_eq_ret ht
  obtain ⟨rfl, rfl⟩ := Prod.mk.inj (Outcome.ret.inj hret)
  exact ⟨tcpSetRto_eq hr, rfl⟩

/-- The deviation stays as `tcp_init_rtt` sets it. -/
theorem devRtt_of_run {samples : List (ℚ × ℚ)} {r : RttEstimate}
    (hr : run rttStep tcpInitRtt samples = .ret r) : r.devRtt = 3 := by
  refine run_invariant (I := fun r => r.devRtt = 3) (fun sample _ r r' hI hs => ?_) rfl hr
  obtain ⟨⟨t, status⟩, ht, hret⟩ := Outcome.bind_eq_ret.mp hs
  obtain ⟨rfl, -⟩ := tcpAckUpdateRtt_eq_ret hI ht
  rw [← Outcome.ret.inj hret]

/-- **The timeout never follows the measured times.**  After no sample of any sequence fed to
`tcp_ack_update_rtt` are the three estimates what the rule makes of those before it. -/
theorem rtt_never_follows (samples : List (ℚ × ℚ)) {r : RttEstimate}
    (hr : run rttStep tcpInitRtt samples = .ret r) (m sack : ℚ) :
    tcpAckUpdateRtt r m sack ≠ .ret (rfcUpdate r m, 0) := by
  intro h
  obtain ⟨heq, -⟩ := tcpAckUpdateRtt_eq_ret (devRtt_of_run hr) h
  have hbelow : (rfcUpdate r m).estimatedRtt < tcpRtoMax := by
    rw [heq]
    norm_num [tcpRtoMax]
  refine rfcUpdate_timeout_ne hbelow ?_
  rw [heq]

/-- After samples of one second and of two, the estimates are 12, 3 and 12, and a third sample does
not change them. -/
theorem rtt_never_follows_third : run rttStep tcpInitRtt [(1, 1000), (2, 2000)] = .ret ⟨12, 3, 12⟩ ∧
    tcpAckUpdateRtt ⟨12, 3, 12⟩ 4 4000 ≠ .ret (rfcUpdate ⟨12, 3, 12⟩ 4, 0) :=
  ⟨by decide +kernel, rtt_never_follows [(1, 1000), (2, 2000)] (by decide +kernel) 4 4000⟩

/-- **A first sample of one second**: the estimates become 12, 3 and 12, where the rule asks for
11/4, 43/16 and 27/2. -/
theorem rtt_fails_one : tcpAckUpdateRtt tcpInitRtt 1 1000 = .ret (⟨12, 3, 12⟩, 0) ∧
    rfcUpdate tcpInitRtt 1 = ⟨11 / 4, 43 / 16, 27 / 2⟩ ∧
    tcpAckUpdateRtt tcpInitRtt 1 1000 ≠ .ret (rfcUpdate tcpInitRtt 1, 0) := by
  decide +kernel

end TrivalTcp
