import TrivalTcp.Foundations.AdditiveIncrease
import TrivalTcp.Foundations.Run
import TrivalTcp.Foundations.Truncate
import TrivalTcp.Transfer.Chunk

/-!
# Transfer/Congestion — the congestion window under acknowledgements and timeouts

`handle_success_ack` and `handle_loss_ack` move three fields of a socket: `con_status`, `cwnd` and
`ssthresh`.  What holds of them in every state the two can lead to is `CongestionOk`, and the rest
follows from it:

* `congestion_invariant` — the three fields are in order, and no call meets an undefined status;
* `avoidance_growth` — congestion avoidance adds at most one `SMSS` per window and saturates;
* `loss_le_iff` — exactly which timeouts leave the window no larger;
* `settles_iff` — acknowledgements alone lead back to congestion avoidance **exactly** from outside
  fast recovery.
-/

namespace TrivalTcp

open AdditiveIncrease

/-! ## The handlers, state by state -/

theorem smss_eq : smss = 1400 := rfl

theorem smss_pos : 0 < smss := by decide

/-- `(cwnd + 1) / 2` is at least 1 and at most `cwnd`. -/
theorem halved_mem {c : ℤ} (h : 1 ≤ c) : 1 ≤ (c + 1).tdiv 2 ∧ (c + 1).tdiv 2 ≤ c := by
  rw [Int.tdiv_eq_ediv_of_nonneg (by omega)]
  omega

section Handlers

variable {s : TjuTcp}

theorem handleSuccessAck_slowStart (h : s.conStatus = slowStart) :
    (s.ssthresh < s.cwnd + smss ∧ handleSuccessAck s =
      { s with cwnd := s.cwnd + smss, conStatus := congestionAvoidance }) ∨
    (¬ s.ssthresh < s.cwnd + smss ∧ handleSuccessAck s = { s with cwnd := s.cwnd + smss }) := by
  rw [handleSuccessAck, if_pos h]
  dsimp only
  by_cases hgt : s.ssthresh < s.cwnd + smss
  · exact .inl ⟨hgt, if_pos hgt⟩
  · exact .inr ⟨hgt, if_neg hgt⟩

/-- **Congestion avoidance is additive increase.** -/
theorem handleSuccessAck_avoidance (h : s.conStatus = congestionAvoidance) :
    handleSuccessAck s = { s with cwnd := grow (smss * smss) s.cwnd } := by
  rw [handleSuccessAck, h, if_neg (by decide), if_pos rfl,
    Int.tdiv_eq_ediv_of_nonneg (by decide), grow]

theorem handleSuccessAck_recovery (h : s.conStatus = fastRecovery) :
    handleSuccessAck s = { s with cwnd := s.cwnd + smss } := by
  rw [handleSuccessAck, h, if_neg (by decide), if_neg (by decide), if_pos rfl]

theorem handleLossAck_slowStart (h : s.conStatus = slowStart) :
    ((s.cwnd + 1).tdiv 2 < smss ∧ handleLossAck s =
      { s with ssthresh := (s.cwnd + 1).tdiv 2, cwnd := smss, conStatus := congestionAvoidance }) ∨
    (¬ (s.cwnd + 1).tdiv 2 < smss ∧ handleLossAck s =
      { s with ssthresh := (s.cwnd + 1).tdiv 2, cwnd := smss }) := by
  rw [handleLossAck, if_pos h]
  dsimp only
  rw [one_mul]
  by_cases hgt : (s.cwnd + 1).tdiv 2 < smss
  · exact .inl ⟨hgt, if_pos hgt⟩
  · exact .inr ⟨hgt, if_neg hgt⟩

/-- A loss in slow start leaves one segment. -/
theorem cwnd_handleLossAck_slowStart (h : s.conStatus = slowStart) :
    (handleLossAck s).cwnd = smss := by
  rcases handleLossAck_slowStart h with ⟨-, heq⟩ | ⟨-, heq⟩
  · rw [heq]
  · rw [heq]

/-- The fourth timeout, and every fourth after it, enters fast recovery. -/
theorem handleLossAck_avoidance (h : s.conStatus = congestionAvoidance) :
    (s.timeoutCounts % 4 = 3 ∧ handleLossAck s =
      { s with
        ssthresh := (s.cwnd + 1).tdiv 2
        cwnd := (s.cwnd + 1).tdiv 2 + 3 * smss
        conStatus := fastRecovery }) ∨
    (¬ s.timeoutCounts % 4 = 3 ∧ handleLossAck s = s) := by
  rw [handleLossAck, h, if_neg (by decide)]
  dsimp only
  by_cases hcount : s.timeoutCounts % 4 = 3
  · exact .inl ⟨hcount, if_pos ⟨rfl, hcount⟩⟩
  · exact .inr ⟨hcount, by rw [if_neg fun hand => hcount hand.2, if_neg (by decide)]⟩

theorem handleLossAck_recovery (h : s.conStatus = fastRecovery) : handleLossAck s =
    { s with ssthresh := (s.cwnd + 1).tdiv 2, cwnd := 1, conStatus := slowStart } := by
  rw [handleLossAck, h, if_neg (by decide)]
  dsimp only
  rw [if_neg fun hand => absurd hand.1 (by decide), if_pos rfl]

end Handlers

/-! ## The invariant -/

/-- **What the congestion fields are**, whatever has happened. -/
structure CongestionOk (s : TjuTcp) : Prop where
  named : s.conStatus = slowStart ∨ s.conStatus = congestionAvoidance ∨ s.conStatus = fastRecovery
  cwnd : 1 ≤ s.cwnd
  ssthresh : 1 ≤ s.ssthresh
  /-- Slow start begins at one byte after fast recovery, and at one segment otherwise. -/
  slow : s.conStatus = slowStart → s.cwnd = 1 ∨ smss ≤ s.cwnd
  avoiding : s.conStatus = congestionAvoidance → smss ≤ s.cwnd ∧ s.ssthresh < s.cwnd
  recovering : s.conStatus = fastRecovery → s.ssthresh + 3 * smss ≤ s.cwnd

namespace CongestionOk

variable {s t : TjuTcp}

/-- Only the three fields matter. -/
theorem congr (h : CongestionOk s) (hstatus : t.conStatus = s.conStatus) (hcwnd : t.cwnd = s.cwnd)
    (hssthresh : t.ssthresh = s.ssthresh) : CongestionOk t := by
  constructor
  · rw [hstatus]
    exact h.named
  · rw [hcwnd]
    exact h.cwnd
  · rw [hssthresh]
    exact h.ssthresh
  · rw [hstatus, hcwnd]
    exact h.slow
  · rw [hstatus, hcwnd, hssthresh]
    exact h.avoiding
  · rw [hstatus, hcwnd, hssthresh]
    exact h.recovering

theorem of_slowStart (hs : s.conStatus = slowStart) (hcwnd : s.cwnd = 1 ∨ smss ≤ s.cwnd)
    (hssthresh : 1 ≤ s.ssthresh) : CongestionOk s where
  named := .inl hs
  cwnd := by
    have hsmss := smss_pos
    omega
  ssthresh := hssthresh
  slow _ := hcwnd
  avoiding h := absurd (hs.symm.trans h) (by decide)
  recovering h := absurd (hs.symm.trans h) (by decide)

theorem of_avoidance (hs : s.conStatus = congestionAvoidance) (hcwnd : smss ≤ s.cwnd)
    (hssthresh : 1 ≤ s.ssthresh) (hlt : s.ssthresh < s.cwnd) : CongestionOk s where
  named := .inr (.inl hs)
  cwnd := hssthresh.trans hlt.le
  ssthresh := hssthresh
  slow h := absurd (hs.symm.trans h) (by decide)
  avoiding _ := ⟨hcwnd, hlt⟩
  recovering h := absurd (hs.symm.trans h) (by decide)

theorem of_recovery (hs : s.conStatus = fastRecovery) (hssthresh : 1 ≤ s.ssthresh)
    (hle : s.ssthresh + 3 * smss ≤ s.cwnd) : CongestionOk s where
  named := .inr (.inr hs)
  cwnd := by
    have hsmss := smss_pos
    omega
  ssthresh := hssthresh
  slow h := absurd (hs.symm.trans h) (by decide)
  avoiding h := absurd (hs.symm.trans h) (by decide)
  recovering _ := hle

/-- What `tcp_socket` writes. -/
theorem of_tcpSocket (junk : TjuTcp) : CongestionOk (tcpSocket junk) :=
  of_slowStart rfl (.inr le_rfl) (by decide : 1 ≤ iw)

/-- **An acknowledgement** keeps the fields in order. -/
theorem success (h : CongestionOk s) : CongestionOk (handleSuccessAck s) := by
  have hsmss := smss_pos
  rcases h.named with hs | hs | hs
  · have hcwnd := h.cwnd
    rcases handleSuccessAck_slowStart hs with ⟨hgt, heq⟩ | ⟨-, heq⟩
    · rw [heq]
      exact of_avoidance rfl (show smss ≤ s.cwnd + smss by omega) h.ssthresh hgt
    · rw [heq]
      exact of_slowStart hs (.inr (show smss ≤ s.cwnd + smss by omega)) h.ssthresh
  · obtain ⟨hle, hlt⟩ := h.avoiding hs
    have hgrow : s.cwnd ≤ grow (smss * smss) s.cwnd :=
      le_grow (by decide) (smss_pos.le.trans hle)
    rw [handleSuccessAck_avoidance hs]
    exact of_avoidance hs (hle.trans hgrow) h.ssthresh (hlt.trans_le hgrow)
  · have hle := h.recovering hs
    rw [handleSuccessAck_recovery hs]
    exact of_recovery hs h.ssthresh (show s.ssthresh + 3 * smss ≤ s.cwnd + smss by omega)

/-- **A timeout** keeps the fields in order, whatever `timeout_counts` is. -/
theorem loss (h : CongestionOk s) : CongestionOk (handleLossAck s) := by
  obtain ⟨hpos, -⟩ := halved_mem h.cwnd
  rcases h.named with hs | hs | hs
  · rcases handleLossAck_slowStart hs with ⟨hlt, heq⟩ | ⟨-, heq⟩
    · rw [heq]
      exact of_avoidance rfl le_rfl hpos hlt
    · rw [heq]
      exact of_slowStart hs (.inr le_rfl) hpos
  · rcases handleLossAck_avoidance hs with ⟨-, heq⟩ | ⟨-, heq⟩
    · rw [heq]
      exact of_recovery rfl hpos le_rfl
    · rw [heq]
      exact h
  · rw [handleLossAck_recovery hs]
    exact of_slowStart rfl (.inl rfl) hpos

end CongestionOk

/-! ## Every sequence of events -/

/-- What moves the congestion fields. -/
inductive CongestionEvent where
  | success
  /-- A loss, `timeout_counts` then being what it may. -/
  | loss (timeoutCounts : UInt8)

def congestionStep (s : TjuTcp) : CongestionEvent → TjuTcp
  | .success => handleSuccessAck s
  | .loss timeoutCounts => handleLossAck { s with timeoutCounts }

/-- The socket after all the events. -/
def congestionRun (s : TjuTcp) (es : List CongestionEvent) : TjuTcp := es.foldl congestionStep s

theorem CongestionOk.step {s : TjuTcp} (h : CongestionOk s) (e : CongestionEvent) :
    CongestionOk (congestionStep s e) := by
  cases e with
  | success => exact h.success
  | loss timeoutCounts =>
    have hcount : CongestionOk { s with timeoutCounts } := h.congr rfl rfl rfl
    exact hcount.loss

theorem CongestionOk.run {s : TjuTcp} (h : CongestionOk s) (es : List CongestionEvent) :
    CongestionOk (congestionRun s es) := by
  induction es generalizing s with
  | nil => exact h
  | cons e es ih => exact ih (h.step e)

/-- **What an acknowledgement adds in congestion avoidance**: the truncated fraction of the source,
which is no more than one segment. -/
theorem CongestionOk.added {s : TjuTcp} (h : CongestionOk s)
    (hs : s.conStatus = congestionAvoidance) :
    ∃ added, added = truncate (smss * (smss / s.cwnd)) ∧
      (handleSuccessAck s).cwnd = s.cwnd + added ∧ 0 ≤ added ∧ added ≤ smss := by
  obtain ⟨hle, -⟩ := h.avoiding hs
  have hpos : 0 < s.cwnd := h.cwnd
  have hshare : truncate (smss * (smss / s.cwnd)) = smss * smss / s.cwnd := by
    rw [← mul_div_assoc, ← Int.cast_mul, truncate_div _ hpos]
    exact Int.tdiv_eq_ediv_of_nonneg (by decide)
  refine ⟨smss * smss / s.cwnd, hshare.symm, ?_, ?_, ?_⟩
  · rw [handleSuccessAck_avoidance hs]
    rfl
  · exact Int.ediv_nonneg (by decide) hpos.le
  · exact share_le smss_pos hle

/-- **The congestion fields are always in order.**  After any acknowledgements and losses from what
`tcp_socket` writes, `con_status` is one of the three named states, so that `handle_success_ack`
never meets an undefined one, and `cwnd` and `ssthresh` are positive.  In congestion avoidance
`cwnd` is at least one segment and above `ssthresh`, so that the quotient is defined and an
acknowledgement adds between 0 and one segment; in fast recovery `cwnd` is three segments above
`ssthresh`. -/
theorem congestion_invariant (junk : TjuTcp) (es : List CongestionEvent) :
    let s := congestionRun (tcpSocket junk) es
    (s.conStatus = slowStart ∨ s.conStatus = congestionAvoidance ∨ s.conStatus = fastRecovery) ∧
      1 ≤ s.cwnd ∧ 1 ≤ s.ssthresh ∧
      (s.conStatus = congestionAvoidance → smss ≤ s.cwnd ∧ s.ssthresh < s.cwnd ∧ s.cwnd ≠ 0 ∧
        ∃ added, added = truncate (smss * (smss / s.cwnd)) ∧
          (handleSuccessAck s).cwnd = s.cwnd + added ∧ 0 ≤ added ∧ added ≤ smss) ∧
      (s.conStatus = fastRecovery → s.ssthresh + 3 * smss ≤ s.cwnd) := by
  intro s
  have h : CongestionOk s := (CongestionOk.of_tcpSocket junk).run es
  refine ⟨h.named, h.cwnd, h.ssthresh, fun hs => ?_, h.recovering⟩
  obtain ⟨hle, hlt⟩ := h.avoiding hs
  exact ⟨hle, hlt, (smss_pos.trans_le hle).ne', h.added hs⟩

/-! ## Congestion avoidance -/

/-- Any number of acknowledgements in congestion avoidance. -/
theorem iterate_handleSuccessAck {s : TjuTcp} (hs : s.conStatus = congestionAvoidance) (n : ℕ) :
    handleSuccessAck^[n] s = { s with cwnd := (grow (smss * smss))^[n] s.cwnd } := by
  induction n with
  | zero => rfl
  | succ n ih =>
    rw [Function.iterate_succ_apply', Function.iterate_succ_apply', ih]
    exact handleSuccessAck_avoidance hs

/-- **Congestion avoidance grows additively and saturates.**  From every window `w` of at least one
segment, as many acknowledgements as segments fit into `w` add at most one segment; and no number
of acknowledgements takes the window beyond `w` and `SMSS * SMSS + 1`, which is far below what an
`int` holds. -/
theorem avoidance_growth {s : TjuTcp} (hs : s.conStatus = congestionAvoidance)
    (hw : smss ≤ s.cwnd) :
    (∀ m : ℕ, m * smss ≤ s.cwnd →
      (handleSuccessAck^[m] s).conStatus = congestionAvoidance ∧
        s.cwnd ≤ (handleSuccessAck^[m] s).cwnd ∧
        (handleSuccessAck^[m] s).cwnd ≤ s.cwnd + smss) ∧
    (∀ n : ℕ, (handleSuccessAck^[n] s).conStatus = congestionAvoidance ∧
      (handleSuccessAck^[n] s).cwnd ≤ max s.cwnd (smss * smss + 1)) ∧
    (s.cwnd ≤ smss * smss + 1 → ∀ n : ℕ, (handleSuccessAck^[n] s).cwnd ≤ intMax) := by
  have hpos : 0 < s.cwnd := smss_pos.trans_le hw
  have hsquare : 0 ≤ smss * smss := by decide
  have hbound (n : ℕ) : (handleSuccessAck^[n] s).cwnd ≤ max s.cwnd (smss * smss + 1) := by
    rw [iterate_handleSuccessAck hs]
    exact iterate_grow_le hsquare hpos n
  have hstatus (n : ℕ) : (handleSuccessAck^[n] s).conStatus = congestionAvoidance := by
    rw [iterate_handleSuccessAck hs]
    exact hs
  refine ⟨fun m hm => ⟨hstatus m, ?_, ?_⟩, fun n => ⟨hstatus n, hbound n⟩, fun hle n => ?_⟩
  · rw [iterate_handleSuccessAck hs]
    exact le_iterate_grow hsquare hpos m
  · rw [iterate_handleSuccessAck hs]
    exact iterate_grow_le_add smss_pos.le hpos hm
  · have hmax := hbound n
    rw [max_eq_right hle] at hmax
    exact hmax.trans (by decide)

/-- A socket in congestion avoidance with two segments: two acknowledgements add at most one. -/
theorem avoidance_growth_two :
    let s : TjuTcp := { tcpSocket default with conStatus := congestionAvoidance, cwnd := 2800 }
    (handleSuccessAck^[2] s).cwnd ≤ 4200 ∧ ∀ n : ℕ, (handleSuccessAck^[n] s).cwnd ≤ intMax := by
  intro s
  obtain ⟨hwindow, -, hint⟩ := avoidance_growth (s := s) rfl (by decide)
  exact ⟨(hwindow 2 (by decide)).2.2, hint (by decide)⟩

/-! ## Timeouts -/

/-- What moves the congestion fields of an established socket. -/
inductive EstablishedEvent where
  | success
  /-- The timer runs out, short of the limit. -/
  | timeout

/-- `handle_loss_ack` comes to `(cwnd + 1) / 2`. -/
def Halves (s : TjuTcp) : Prop :=
  s.conStatus = slowStart ∨ s.conStatus = congestionAvoidance ∧ s.timeoutCounts % 4 = 3 ∨
    s.conStatus = fastRecovery

instance (s : TjuTcp) : Decidable (Halves s) :=
  inferInstanceAs (Decidable (_ ∨ _ ∨ _))

/-- The timeout as in `tcp_write_timer_handler`: `handle_loss_ack`, then `timeout_counts += 1`.
`cwnd` is an `int` here: a sum that does not fit into one is undefined. -/
def establishedStep (s : TjuTcp) : EstablishedEvent → Outcome TjuTcp
  | .success => if intMax < (handleSuccessAck s).cwnd then .undef else .ret (handleSuccessAck s)
  | .timeout =>
    if Halves s ∧ intMax < s.cwnd + 1 then .undef else .ret (countTimeout (handleLossAck s))

theorem establishedStep_success {s t : TjuTcp} (h : establishedStep s .success = .ret t) :
    t = handleSuccessAck s := by
  rw [establishedStep] at h
  split at h
  · contradiction
  · exact (Outcome.ret.inj h).symm

theorem establishedStep_timeout {s t : TjuTcp} (h : establishedStep s .timeout = .ret t) :
    t = countTimeout (handleLossAck s) := by
  rw [establishedStep] at h
  split at h
  · contradiction
  · exact (Outcome.ret.inj h).symm

theorem CongestionOk.established {s t : TjuTcp} {e : EstablishedEvent} (h : CongestionOk s)
    (ht : establishedStep s e = .ret t) : CongestionOk t := by
  cases e with
  | success =>
    rw [establishedStep_success ht]
    exact h.success
  | timeout =>
    rw [establishedStep_timeout ht]
    exact h.loss.congr rfl rfl rfl

/-- The states of an established socket that acknowledgements and timeouts lead to. -/
theorem congestionOk_of_established {junk s : TjuTcp} {es : List EstablishedEvent}
    (hr : run establishedStep { tcpSocket junk with timeoutCounts := 0 } es = .ret s) :
    CongestionOk s := by
  have hstart : CongestionOk { tcpSocket junk with timeoutCounts := 0 } :=
    (CongestionOk.of_tcpSocket junk).congr rfl rfl rfl
  exact run_invariant (I := CongestionOk) (fun _ _ _ _ h ht => h.established ht) hstart hr

/-- Slow start with the one byte that a timeout in fast recovery has left. -/
def OneByte (s : TjuTcp) : Prop := s.conStatus = slowStart ∧ s.cwnd = 1

/-- The next timeout enters fast recovery, from a window of less than six segments. -/
def Inflates (s : TjuTcp) : Prop :=
  s.conStatus = congestionAvoidance ∧ s.timeoutCounts % 4 = 3 ∧ s.cwnd < 6 * smss

section Loss

variable {s : TjuTcp}

/-- Entering fast recovery enlarges a window exactly below six segments. -/
theorem recovery_le_iff {c : ℤ} (h : 1 ≤ c) : (c + 1).tdiv 2 + 3 * smss ≤ c ↔ ¬ c < 6 * smss := by
  rw [Int.tdiv_eq_ediv_of_nonneg (by omega), smss_eq]
  omega

/-- **Exactly which losses leave the window no larger.** -/
theorem CongestionOk.cwnd_le_iff (h : CongestionOk s) :
    (handleLossAck s).cwnd ≤ s.cwnd ↔ ¬ OneByte s ∧ ¬ Inflates s := by
  rcases h.named with hs | hs | hs
  · have hinflates : ¬ Inflates s := fun hi => absurd (hs.symm.trans hi.1) (by decide)
    rw [cwnd_handleLossAck_slowStart hs, and_iff_left hinflates]
    constructor
    · rintro hle ⟨-, hone⟩
      exact absurd (hone ▸ hle) (by decide)
    · intro hbyte
      exact (h.slow hs).resolve_left fun hone => hbyte ⟨hs, hone⟩
  · have hbyte : ¬ OneByte s := fun hb => absurd (hs.symm.trans hb.1) (by decide)
    rw [and_iff_right hbyte]
    rcases handleLossAck_avoidance hs with ⟨hcount, heq⟩ | ⟨hcount, heq⟩
    · rw [heq]
      refine (recovery_le_iff h.cwnd).trans (not_congr ?_)
      exact ⟨fun hlt => ⟨hs, hcount, hlt⟩, fun hi => hi.2.2⟩
    · rw [heq]
      exact ⟨fun _ hi => hcount hi.2.1, fun _ => le_rfl⟩
  · have hbyte : ¬ OneByte s := fun hb => absurd (hs.symm.trans hb.1) (by decide)
    have hinflates : ¬ Inflates s := fun hi => absurd (hs.symm.trans hi.1) (by decide)
    rw [handleLossAck_recovery hs]
    exact ⟨fun _ => ⟨hbyte, hinflates⟩, fun _ => h.cwnd⟩

end Loss

/-- **Exactly which timeouts leave the window no larger.**  In every state that acknowledgements and
timeouts of an established socket lead to, other than slow start at one byte, one more timeout does
so **if and only if** it does not enter fast recovery from less than six segments; then the window
becomes three segments more than its half. -/
theorem loss_le_iff (junk : TjuTcp) {es : List EstablishedEvent} {s t : TjuTcp}
    (hr : run establishedStep { tcpSocket junk with timeoutCounts := 0 } es = .ret s)
    (hbyte : ¬ OneByte s) (ht : establishedStep s .timeout = .ret t) :
    (t.cwnd ≤ s.cwnd ↔ ¬ Inflates s) ∧
      (Inflates s → t.cwnd = (s.cwnd + 1) / 2 + 3 * smss) := by
  have h : CongestionOk s := congestionOk_of_established hr
  obtain rfl := establishedStep_timeout ht
  refine ⟨h.cwnd_le_iff.trans (and_iff_right hbyte), fun hi => ?_⟩
  rcases handleLossAck_avoidance hi.1 with ⟨-, heq⟩ | ⟨hcount, -⟩
  · have hnonneg : 0 ≤ s.cwnd + 1 := by
      have hpos := h.cwnd
      omega
    rw [heq, ← Int.tdiv_eq_ediv_of_nonneg hnonneg]
    rfl
  · exact absurd hi.2.1 hcount

/-- A socket that three timeouts and an acknowledgement have left at two segments: the fourth
timeout makes it four. -/
theorem loss_le_iff_fourth :
    ∃ s t : TjuTcp, s.cwnd = 2800 ∧ ¬ OneByte s ∧ Inflates s ∧
      establishedStep s .timeout = .ret t ∧ (t.cwnd ≤ s.cwnd ↔ ¬ Inflates s) ∧ t.cwnd = 5600 := by
  let s : TjuTcp :=
    { tcpSocket default with
      timeoutCounts := 3, ssthresh := 700, cwnd := 2800, conStatus := congestionAvoidance }
  have hr : run establishedStep { tcpSocket default with timeoutCounts := 0 }
      [.timeout, .timeout, .timeout, .success] = .ret s := rfl
  have hbyte : ¬ OneByte s := fun hb => absurd hb.1 (by decide)
  have hi : Inflates s := ⟨rfl, by decide, by decide⟩
  obtain ⟨hiff, heq⟩ := loss_le_iff default hr hbyte (t := countTimeout (handleLossAck s)) rfl
  exact ⟨s, countTimeout (handleLossAck s), rfl, hbyte, hi, rfl, hiff, heq hi⟩

/-- **A timeout that enlarges the window**: after three timeouts it is one segment, and the fourth
makes it three and a half. -/
theorem loss_enlarges :
    ∃ s t : TjuTcp,
      run establishedStep { tcpSocket default with timeoutCounts := 0 }
          [.timeout, .timeout, .timeout] = .ret s ∧
        establishedStep s .timeout = .ret t ∧
        s.cwnd = 1400 ∧ t.cwnd = 4900 ∧ ¬ t.cwnd ≤ s.cwnd :=
  ⟨_, _, rfl, rfl, by decide, by decide, by decide⟩

/-! ## The way back -/

/-- Congestion avoidance, with a window above the threshold. -/
def Avoiding (s : TjuTcp) : Prop := s.conStatus = congestionAvoidance ∧ s.ssthresh < s.cwnd

/-- From some number of acknowledgements on, the socket is in congestion avoidance. -/
def Settles (s : TjuTcp) : Prop := ∃ n : ℕ, ∀ k ≥ n, Avoiding (handleSuccessAck^[k] s)

section Settling

variable {s : TjuTcp}

theorem CongestionOk.iterate (h : CongestionOk s) (n : ℕ) :
    CongestionOk (handleSuccessAck^[n] s) := by
  induction n with
  | zero => exact h
  | succ n ih =>
    rw [Function.iterate_succ_apply']
    exact ih.success

/-- Congestion avoidance is not left by an acknowledgement. -/
theorem settles_of_avoidance (h : CongestionOk s) (hs : s.conStatus = congestionAvoidance) :
    Settles s := by
  refine ⟨0, fun k _ => ?_⟩
  have hk : (handleSuccessAck^[k] s).conStatus = congestionAvoidance := by
    rw [iterate_handleSuccessAck hs]
    exact hs
  exact ⟨hk, ((h.iterate k).avoiding hk).2⟩

/-- What the next state does, this one does one acknowledgement later. -/
theorem Settles.of_success (h : Settles (handleSuccessAck s)) : Settles s := by
  obtain ⟨n, hn⟩ := h
  refine ⟨n + 1, fun k hk => ?_⟩
  obtain ⟨k, rfl⟩ := Nat.exists_eq_add_one_of_ne_zero (Nat.ne_zero_of_lt hk)
  rw [Function.iterate_succ_apply]
  exact hn k (Nat.le_of_succ_le_succ hk)

/-- **Slow start ends**: every acknowledgement brings `cwnd` closer to `ssthresh`. -/
theorem settles_of_slowStart (h : CongestionOk s) (hs : s.conStatus = slowStart) (n : ℕ)
    (hn : s.ssthresh - s.cwnd ≤ n) : Settles s := by
  induction n generalizing s with
  | zero =>
    refine Settles.of_success (settles_of_avoidance h.success ?_)
    rcases handleSuccessAck_slowStart hs with ⟨-, heq⟩ | ⟨hle, -⟩
    · rw [heq]
    · have hsmss := smss_pos
      omega
  | succ n ih =>
    refine Settles.of_success ?_
    rcases handleSuccessAck_slowStart hs with ⟨-, heq⟩ | ⟨-, heq⟩
    · exact settles_of_avoidance h.success (by rw [heq])
    · refine ih h.success (by rw [heq]; exact hs) ?_
      have hsmss := smss_pos
      rw [heq]
      show s.ssthresh - (s.cwnd + smss) ≤ n
      omega

/-- **Fast recovery has no exit on acknowledgements.** -/
theorem iterate_recovery (hs : s.conStatus = fastRecovery) (n : ℕ) :
    (handleSuccessAck^[n] s).conStatus = fastRecovery := by
  induction n with
  | zero => exact hs
  | succ n ih =>
    rw [Function.iterate_succ_apply', handleSuccessAck_recovery ih]
    exact ih

theorem CongestionOk.settles (h : CongestionOk s) : Settles s ↔ s.conStatus ≠ fastRecovery := by
  constructor
  · rintro ⟨n, hn⟩ hs
    have hn := (hn n le_rfl).1
    rw [iterate_recovery hs n] at hn
    exact absurd hn (by decide)
  · intro hne
    rcases h.named with hs | hs | hs
    · exact settles_of_slowStart h hs (s.ssthresh - s.cwnd).toNat (Int.self_le_toNat _)
    · exact settles_of_avoidance h hs
    · exact absurd hs hne

end Settling

/-- **Exactly when acknowledgements lead back to congestion avoidance.**  From every state that
acknowledgements and losses lead to, there is a number of acknowledgements from which on the socket
is in congestion avoidance with `cwnd` above `ssthresh`, **if and only if** it is not in fast
recovery. -/
theorem settles_iff (junk : TjuTcp) (es : List CongestionEvent) :
    (∃ n : ℕ, ∀ k ≥ n,
      let t := handleSuccessAck^[k] (congestionRun (tcpSocket junk) es)
      t.conStatus = congestionAvoidance ∧ t.ssthresh < t.cwnd) ↔
    (congestionRun (tcpSocket junk) es).conStatus ≠ fastRecovery :=
  ((CongestionOk.of_tcpSocket junk).run es).settles

/-- **No number of acknowledgements ends fast recovery**, which two losses lead to. -/
theorem settles_fails_recovery :
    (congestionRun (tcpSocket default) [.loss 0, .loss 3]).conStatus = fastRecovery ∧
      ¬ ∃ n : ℕ, ∀ k ≥ n,
        let t := handleSuccessAck^[k] (congestionRun (tcpSocket default) [.loss 0, .loss 3])
        t.conStatus = congestionAvoidance ∧ t.ssthresh < t.cwnd := by
  refine ⟨rfl, fun h => ?_⟩
  obtain ⟨n, hn⟩ := h
  have hstays := iterate_recovery
    (s := congestionRun (tcpSocket default) [.loss 0, .loss 3]) rfl n
  exact absurd (hstays.symm.trans (hn n le_rfl).1) (by decide)

/-! ## On a connection

The two handlers run inside `tju_handle_packet` and the timer's callback, and nothing else an end
does touches the three fields. -/

section Connection

variable {s t : TjuTcp} {packets : List Buf}

theorem CongestionOk.tcpStartTimer (h : CongestionOk s) : CongestionOk (tcpStartTimer s) := by
  rw [tcpStartTimer_eq]
  exact h.congr rfl rfl rfl

end Connection

end TrivalTcp
