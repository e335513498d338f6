import TrivalTcp.Socket.Socket

/-!
# Socket/Timer — the retransmission timer and what its expiry does (`timer.c`)

`tcp_start_timer` creates a thread that counts and then runs the callback, `tcp_stop_timer`
interrupts it and joins it.  `timerExpiry` is the end of a wait that was not interrupted: the
thread stops counting and the callback runs, with `started` still set.  How long the wait is, and
the estimates `tcp_ack_update_rtt` derives from an interrupted one, decide nothing here: an expiry
may come at any moment.
-/

namespace TrivalTcp

/-! ## Starting and stopping -/

/-- `tcp_stop_timer`, in one step: the time does not run out between the signal and the join.  The
join returns once the thread has seen the signal; the timer thread itself may call this, and its join
of itself fails without effect. -/
def tcpStopTimer (s : TjuTcp) : TjuTcp :=
  if s.rttTimer.started then
    { s with rttTimer := ⟨false, false⟩, interruptSignal := 1 }
  else
    s

/-- `tcp_start_timer`. -/
def tcpStartTimer (s : TjuTcp) : TjuTcp :=
  let s := if s.rttTimer.started then tcpStopTimer s else s
  { s with rttTimer := ⟨true, true⟩, interruptSignal := 0 }

/-- **Starting leaves a running timer**, whatever was there before. -/
theorem tcpStartTimer_eq (s : TjuTcp) :
    tcpStartTimer s = { s with rttTimer := ⟨true, true⟩, interruptSignal := 0 } := by
  rw [tcpStartTimer, tcpStopTimer]
  split <;> rfl

/-! ## Congestion control on a timeout -/

/-- `handle_loss_ack`. -/
def handleLossAck (s : TjuTcp) : TjuTcp :=
  let timeoutCounts := s.timeoutCounts % 4
  if s.conStatus = slowStart then
    let s := { s with ssthresh := (s.cwnd + 1).tdiv 2, cwnd := 1 * smss }
    if s.cwnd > s.ssthresh then { s with conStatus := congestionAvoidance } else s
  else if s.conStatus = congestionAvoidance ∧ timeoutCounts = 3 then
    let s := { s with ssthresh := (s.cwnd + 1).tdiv 2 }
    { s with cwnd := s.ssthresh + 3 * smss, conStatus := fastRecovery }
  else if s.conStatus = fastRecovery then
    { s with ssthresh := (s.cwnd + 1).tdiv 2, cwnd := 1, conStatus := slowStart }
  else
    s

/-! ## The callback -/

/-- `tcp_retransmit_timer`.  `len` is an `int`: a difference of `2 ^ 31` or more is negative. -/
def tcpRetransmitTimer (s : TjuTcp) : Outcome (TjuTcp × List Buf) :=
  let len := (s.nextseq - s.base).toNat
  if 2 ^ 31 ≤ len then
    .exit
  else if maxLen < len then
    .exit
  else if s.window.wndSend.sendWindows.size < s.base.toNat + len then
    .undef
  else
    let buf := s.window.wndSend.sendWindows.read s.base.toNat len
    let msg := dataPkt s s.base 1 buf
    .ret (tcpStartTimer s, [msg])

/-- `tcp_close`, up to the loop that waits for `CLOSED`. -/
def tcpClose (s : TjuTcp) : TjuTcp × List Buf :=
  let s := { s with receivedBuf := [], state := .finWait1 }
  (s, [tcpSendFinAck s])

/-- `tcp_outlimit_retransmit`. -/
def tcpOutlimitRetransmit (s : TjuTcp) : TjuTcp × List Buf := tcpClose s

/-- `sock->finished_handshake = 1`. -/
def finishHandshake (s : TjuTcp) : TjuTcp := { s with finishedHandshake := 1 }

/-- `sock->timeout_counts += 1`. -/
def countTimeout (s : TjuTcp) : TjuTcp := { s with timeoutCounts := s.timeoutCounts + 1 }

/-- `tcp_write_timer_handler`: the socket and the packets handed to `sendToLayer3`. -/
def tcpWriteTimerHandler (s : TjuTcp) : Outcome (TjuTcp × List Buf) :=
  match s.state with
  | .synSent =>
    let s := tcpStartTimer s
    .ret (s, [tcpSendSyn s])
  | .synRecv =>
    let s := tcpStartTimer s
    .ret (s, [tcpSendSynAck s])
  | .established =>
    if s.finishedHandshake = 0 then
      -- this branch leaves the timer as the expiry found it
      .ret (finishHandshake s, [tcpSendAck (finishHandshake s)])
    else if s.timeoutCounts > retransmitLimit then
      .ret (tcpOutlimitRetransmit s)
    else
      tcpRetransmitTimer (countTimeout (handleLossAck s))
  | _ => .ret (s, [])

/-- The expiry at which an established socket stops retransmitting and closes. -/
def GivesUp (s : TjuTcp) : Prop :=
  s.state = .established ∧ s.finishedHandshake ≠ 0 ∧ s.timeoutCounts > retransmitLimit

instance (s : TjuTcp) : Decidable (GivesUp s) := inferInstanceAs (Decidable (_ ∧ _ ∧ _))

/-- The timer thread no longer counts. -/
def disarm (s : TjuTcp) : TjuTcp := { s with rttTimer := { s.rttTimer with armed := false } }

/-- The end of `tcp_check_timeout`: the wait is over, and the callback runs. -/
def timerExpiry (s : TjuTcp) : Outcome (TjuTcp × List Buf) := tcpWriteTimerHandler (disarm s)

/-! ## What they can do -/

/-- A retransmission carries what lies between `base` and `nextseq`, and leaves a running timer. -/
theorem tcpRetransmitTimer_cases {s t : TjuTcp} {packets : List Buf}
    (h : tcpRetransmitTimer s = .ret (t, packets)) :
    s.base.toNat + (s.nextseq - s.base).toNat ≤ s.window.wndSend.sendWindows.size ∧
      t = tcpStartTimer s ∧ packets = [dataPkt s s.base 1
        (s.window.wndSend.sendWindows.read s.base.toNat (s.nextseq - s.base).toNat)] := by
  dsimp only [tcpRetransmitTimer] at h
  split_ifs at h with hneg hmax hsize
  obtain ⟨rfl, rfl⟩ := Prod.mk.inj (Outcome.ret.inj h)
  exact ⟨Nat.not_lt.mp hsize, rfl, rfl⟩

theorem handleLossAck_eq (s : TjuTcp) : ∃ conStatus cwnd ssthresh,
    handleLossAck s = { s with conStatus, cwnd, ssthresh } := by
  dsimp only [handleLossAck]
  split_ifs <;> exact ⟨_, _, _, rfl⟩

theorem tcpStopTimer_eq (s : TjuTcp) : ∃ rttTimer interruptSignal,
    tcpStopTimer s = { s with rttTimer, interruptSignal } := by
  rw [tcpStopTimer]
  split_ifs <;> exact ⟨_, _, rfl⟩

/-- A retransmission of more than `maxLen` bytes ends the process. -/
theorem tcpRetransmitTimer_le {s : TjuTcp} {r : TjuTcp × List Buf}
    (h : tcpRetransmitTimer s = .ret r) : (s.nextseq - s.base).toNat ≤ maxLen := by
  dsimp only [tcpRetransmitTimer] at h
  split_ifs at h with hneg hlong
  exact Nat.not_lt.mp hlong

/-- **What the callback does**, state by state. -/
theorem tcpWriteTimerHandler_cases {s t : TjuTcp} {packets : List Buf}
    (h : tcpWriteTimerHandler s = .ret (t, packets)) :
    (s.state = .synSent ∧ t = tcpStartTimer s ∧ packets = [tcpSendSyn (tcpStartTimer s)]) ∨
    (s.state = .synRecv ∧ t = tcpStartTimer s ∧ packets = [tcpSendSynAck (tcpStartTimer s)]) ∨
    (s.state = .established ∧ s.finishedHandshake = 0 ∧ t = finishHandshake s ∧
      packets = [tcpSendAck (finishHandshake s)]) ∨
    (s.state = .established ∧ s.finishedHandshake ≠ 0 ∧ s.timeoutCounts > retransmitLimit ∧
      (t, packets) = tcpClose s) ∨
    (s.state = .established ∧ s.finishedHandshake ≠ 0 ∧ ¬ s.timeoutCounts > retransmitLimit ∧
      tcpRetransmitTimer (countTimeout (handleLossAck s)) = .ret (t, packets)) ∨
    (s.state ∉ [TcpState.synSent, .synRecv, .established] ∧ t = s ∧ packets = []) := by
  rw [tcpWriteTimerHandler] at h
  split at h
  next hst =>
    obtain ⟨rfl, rfl⟩ := Prod.mk.inj (Outcome.ret.inj h)
    exact .inl ⟨hst, rfl, rfl⟩
  next hst =>
    obtain ⟨rfl, rfl⟩ := Prod.mk.inj (Outcome.ret.inj h)
    exact .inr (.inl ⟨hst, rfl, rfl⟩)
  next hst =>
    split_ifs at h with hfin hlim
    · obtain ⟨rfl, rfl⟩ := Prod.mk.inj (Outcome.ret.inj h)
      exact .inr (.inr (.inl ⟨hst, hfin, rfl, rfl⟩))
    · exact .inr (.inr (.inr (.inl ⟨hst, hfin, hlim, (Outcome.ret.inj h).symm⟩)))
    · exact .inr (.inr (.inr (.inr (.inl ⟨hst, hfin, hlim, h⟩))))
  next h1 h2 h3 =>
    obtain ⟨rfl, rfl⟩ := Prod.mk.inj (Outcome.ret.inj h)
    refine .inr (.inr (.inr (.inr (.inr ⟨?_, rfl, rfl⟩))))
    simp only [List.mem_cons, List.not_mem_nil, or_false, not_or]
    exact ⟨h1, h2, h3⟩

/-- Below the limit, the callback of an established socket retransmits. -/
theorem tcpWriteTimerHandler_retransmits {s : TjuTcp} (hst : s.state = .established)
    (hfin : s.finishedHandshake ≠ 0) (hlim : ¬ s.timeoutCounts > retransmitLimit) :
    tcpWriteTimerHandler s = tcpRetransmitTimer (countTimeout (handleLossAck s)) := by
  rw [tcpWriteTimerHandler, hst]
  dsimp only
  rw [if_neg hfin, if_neg hlim]

/-- **A retransmission after an expiry**: it carries what lies between `base` and `nextseq`, and
leaves a running timer. -/
theorem retransmission_eq {s : TjuTcp} (hlen : (s.nextseq - s.base).toNat ≤ maxLen)
    (hroom : s.base.toNat + (s.nextseq - s.base).toNat ≤ s.window.wndSend.sendWindows.size) :
    ∃ conStatus cwnd ssthresh u, tcpRetransmitTimer (countTimeout (handleLossAck s)) = .ret
      ({ s with
          conStatus, cwnd, ssthresh
          timeoutCounts := s.timeoutCounts + 1
          rttTimer := ⟨true, true⟩
          interruptSignal := 0 },
        [dataPkt u s.base 1
          (s.window.wndSend.sendWindows.read s.base.toNat (s.nextseq - s.base).toNat)]) := by
  obtain ⟨conStatus, cwnd, ssthresh, hloss⟩ := handleLossAck_eq s
  have hpos : ¬ 2 ^ 31 ≤ (s.nextseq - s.base).toNat := by
    rw [maxLen] at hlen
    omega
  refine ⟨conStatus, cwnd, ssthresh, countTimeout { s with conStatus, cwnd, ssthresh }, ?_⟩
  rw [hloss]
  dsimp only [tcpRetransmitTimer]
  rw [if_neg (by exact hpos), if_neg (by exact Nat.not_lt.mpr hlen),
    if_neg (by exact Nat.not_lt.mpr hroom), tcpStartTimer_eq]
  rfl

theorem retransmission_cases {s t : TjuTcp} {packets : List Buf}
    (h : tcpRetransmitTimer (countTimeout (handleLossAck s)) = .ret (t, packets)) :
    (s.nextseq - s.base).toNat ≤ maxLen ∧ ∃ conStatus cwnd ssthresh u,
      t = { s with
        conStatus, cwnd, ssthresh
        timeoutCounts := s.timeoutCounts + 1
        rttTimer := ⟨true, true⟩
        interruptSignal := 0 } ∧
      packets = [dataPkt u s.base 1
        (s.window.wndSend.sendWindows.read s.base.toNat (s.nextseq - s.base).toNat)] := by
  obtain ⟨_, _, _, hloss⟩ := handleLossAck_eq s
  have hret := h
  rw [hloss] at hret
  have hle := tcpRetransmitTimer_le hret
  have hlen : (s.nextseq - s.base).toNat ≤ maxLen := hle
  obtain ⟨hroom, -⟩ := tcpRetransmitTimer_cases hret
  obtain ⟨conStatus, cwnd, ssthresh, u, heq⟩ := retransmission_eq hlen hroom
  obtain ⟨rfl, rfl⟩ := Prod.mk.inj (Outcome.ret.inj (h.symm.trans heq))
  exact ⟨hlen, conStatus, cwnd, ssthresh, u, rfl, rfl⟩

/-- **What an expiry can change**: it closes the connection for good, or touches only the timer, the
congestion state, the count of timeouts and `finished_handshake`. -/
theorem timerExpiry_frame {s t : TjuTcp} {packets : List Buf}
    (h : timerExpiry s = .ret (t, packets)) :
    (GivesUp s ∧ t = (tcpClose (disarm s)).1) ∨
    (¬ GivesUp s ∧ ∃ timeoutCounts conStatus cwnd ssthresh finishedHandshake rttTimer interruptSignal,
      t = { s with
        timeoutCounts, conStatus, cwnd, ssthresh, finishedHandshake, rttTimer, interruptSignal }) := by
  rcases tcpWriteTimerHandler_cases h with ⟨hst, rfl, -⟩ | ⟨hst, rfl, -⟩ | ⟨-, hfin, rfl, -⟩ |
    ⟨hst, hfin, hlimit, hclose⟩ | ⟨-, -, hlimit, hretr⟩ | ⟨hst, rfl, -⟩
  · rw [tcpStartTimer_eq]
    exact .inr ⟨fun hg => absurd (hst.symm.trans hg.1) (by decide), _, _, _, _, _, _, _, rfl⟩
  · rw [tcpStartTimer_eq]
    exact .inr ⟨fun hg => absurd (hst.symm.trans hg.1) (by decide), _, _, _, _, _, _, _, rfl⟩
  · exact .inr ⟨fun hg => hg.2.1 hfin, _, _, _, _, _, _, _, rfl⟩
  · exact .inl ⟨⟨hst, hfin, hlimit⟩, (Prod.mk.inj hclose).1⟩
  · obtain ⟨-, _, _, _, _, rfl, -⟩ := retransmission_cases hretr
    exact .inr ⟨fun hg => hlimit hg.2.2, _, _, _, _, _, _, _, rfl⟩
  · refine .inr ⟨fun hg => hst ?_, _, _, _, _, _, _, _, rfl⟩
    have hest : (disarm s).state = .established := hg.1
    rw [hest]
    decide

end TrivalTcp
