import TrivalTcp.Transfer.Chunk

/-!
# Transfer/GiveUp — after how many timeouts a connection is given up

`tcp_write_timer_handler` closes an established connection once `timeout_counts` has passed
`RETRANSMIT_LIMIT`.  The count goes up with every timeout and never down, so it says how many
timeouts there have been in all, and not how many since the peer was last heard of.  A `CountedEnd`
keeps the second number beside the socket, and `consecutive_iff` says **exactly** when the two agree
that the connection is dead.
-/

namespace TrivalTcp

/-! ## An end whose timeouts are counted -/

/-- An end, and what its timer has done since it was last acknowledged. -/
structure CountedEnd where
  stand : EndState
  /-- The expiries since the last ACK that advanced `base`, or from the start on. -/
  since : ℕ
  /-- `timeout_counts` when that ACK arrived. -/
  stale : UInt8

/-- Nothing has happened yet. -/
def CountedEnd.start (s : TjuTcp) : CountedEnd := ⟨.start s, 0, 0⟩

/-- One step of an end.  Only an ACK moves `base`, and only an armed timer runs out. -/
def countedStep (w : CountedEnd) : EndEvent → Outcome CountedEnd
  | .packet pkt => packetStep w.stand pkt >>= fun stand =>
      if w.stand.sock.base < stand.sock.base then .ret ⟨stand, 0, w.stand.sock.timeoutCounts⟩
      else .ret { w with stand }
  | .call .timeout =>
      if w.stand.sock.rttTimer.armed then
        callStep w.stand .timeout >>= fun stand => .ret { w with stand, since := w.since + 1 }
      else
        .blocked
  | .call c => callStep w.stand c >>= fun stand => .ret { w with stand }

/-- The step about to be taken is the expiry that calls `tcp_outlimit_retransmit`. -/
def Closes (w : CountedEnd) (e : EndEvent) : Prop :=
  e = .call .timeout ∧ w.stand.sock.rttTimer.armed = true ∧ GivesUp w.stand.sock

instance (w : CountedEnd) : ∀ e, Decidable (Closes w e)
  | .call .timeout => decidable_of_iff (w.stand.sock.rttTimer.armed = true ∧ GivesUp w.stand.sock)
      ⟨fun h => ⟨rfl, h⟩, fun h => h.2⟩
  | .call (.send _) | .call .stream | .call (.recv _) | .packet _ =>
    isFalse fun h => by cases h.1

/-- An expiry that closes the connection comes after more than `RETRANSMIT_LIMIT` since the last ACK
that advanced `base`.  Whether that expiry counts itself is `own`, 1 or 0. -/
def Consecutive (own : ℕ) (w : CountedEnd) (e : EndEvent) : Prop :=
  Closes w e → retransmitLimit.toNat < w.since + own

/-- The connection is closed, and the last ACK that advanced `base` found timeouts counted. -/
def ClosesStale (own : ℕ) (w : CountedEnd) (e : EndEvent) : Prop :=
  Closes w e ∧ own < w.stale.toNat

instance (own : ℕ) (w : CountedEnd) (e : EndEvent) : Decidable (ClosesStale own w e) :=
  inferInstanceAs (Decidable (_ ∧ _))

/-! ## What the steps do to the count -/

section Steps

variable {a a' : EndState}

/-- Everything but an expiry leaves the count, the state and `finished_handshake` as they are. -/
theorem count_packetStep {pkt : Buf} (hs : packetStep a pkt = .ret a') :
    a'.sock.timeoutCounts = a.sock.timeoutCounts ∧ a'.sock.state = a.sock.state ∧
      a'.sock.finishedHandshake = a.sock.finishedHandshake := by
  obtain ⟨t, packets, hhandle, rfl⟩ := packetStep_eq_ret hs
  obtain ⟨_, _, _, _, _, _, rfl⟩ := tjuHandlePacket_frame hhandle
  exact ⟨rfl, rfl, rfl⟩

theorem count_callStep {c : Call} (hc : c ≠ .timeout) (hs : callStep a c = .ret a') :
    a'.sock.timeoutCounts = a.sock.timeoutCounts ∧ a'.sock.state = a.sock.state ∧
      a'.sock.finishedHandshake = a.sock.finishedHandshake := by
  cases c with
  | timeout => exact absurd rfl hc
  | send buffer =>
    rcases callStep_send_eq_ret hs with rfl | rfl
    · exact ⟨rfl, rfl, rfl⟩
    · exact ⟨rfl, rfl, rfl⟩
  | stream =>
    obtain ⟨r, hstream, rfl⟩ := callStep_stream_eq_ret hs
    obtain ⟨_, _, _, -, -, hsock⟩ := tcpSendStream_frame hstream
    dsimp only
    rw [hsock]
    exact ⟨rfl, rfl, rfl⟩
  | recv len =>
    obtain ⟨bytes, rest, -, rfl⟩ := callStep_recv_eq_ret hs
    exact ⟨rfl, rfl, rfl⟩

/-- **What an expiry does to the count**: it is not established then, or only confirms the
handshake, or counts. -/
theorem count_timerExpiry {s t : TjuTcp} {packets : List Buf}
    (ht : timerExpiry s = .ret (t, packets)) :
    (t.state ≠ .established ∧ t.timeoutCounts = s.timeoutCounts ∧
      t.finishedHandshake = s.finishedHandshake) ∨
    (s.state = .established ∧ s.finishedHandshake = 0 ∧ t.timeoutCounts = s.timeoutCounts ∧
      t.finishedHandshake = 1) ∨
    (s.state = .established ∧ s.finishedHandshake ≠ 0 ∧ ¬ s.timeoutCounts > retransmitLimit ∧
      t.timeoutCounts = s.timeoutCounts + 1 ∧ t.finishedHandshake = s.finishedHandshake) := by
  rcases tcpWriteTimerHandler_cases ht with ⟨hst, rfl, -⟩ | ⟨hst, rfl, -⟩ | ⟨hst, hfin, rfl, -⟩ |
    ⟨-, -, -, hclose⟩ | ⟨hst, hfin, hlimit, hretr⟩ | ⟨hst, rfl, -⟩
  · rw [tcpStartTimer_eq]
    exact .inl ⟨hst ▸ by decide, rfl, rfl⟩
  · rw [tcpStartTimer_eq]
    exact .inl ⟨hst ▸ by decide, rfl, rfl⟩
  · exact .inr (.inl ⟨hst, hfin, rfl, rfl⟩)
  · obtain ⟨rfl, -⟩ := Prod.mk.inj hclose
    have hclosed : TcpState.finWait1 ≠ .established := by decide
    exact .inl ⟨hclosed, rfl, rfl⟩
  · obtain ⟨-, _, _, _, _, rfl, -⟩ := retransmission_cases hretr
    exact .inr (.inr ⟨hst, hfin, hlimit, rfl, rfl⟩)
  · refine .inl ⟨fun hest => hst ?_, rfl, rfl⟩
    rw [hest]
    decide

end Steps

/-! ## The invariant -/

/-- **The count is what the timeouts before the last such ACK left, and those since.** -/
structure CountedOk (w : CountedEnd) : Prop where
  le_limit : w.stand.sock.timeoutCounts.toNat ≤ retransmitLimit.toNat + 1
  /-- The expiry that only confirms the handshake comes before every one that counts. -/
  finished : w.stand.sock.finishedHandshake = 0 → w.stand.sock.timeoutCounts = 0 ∧ w.stale = 0
  le : w.stand.sock.timeoutCounts.toNat ≤ w.stale.toNat + w.since
  eq : w.stand.sock.state = .established → w.stale ≠ 0 →
    w.stand.sock.timeoutCounts.toNat = w.stale.toNat + w.since

/-- A start with no timeout counted. -/
theorem countedOk_start {s : TjuTcp} (h : s.timeoutCounts = 0) : CountedOk (.start s) where
  le_limit := by
    have hzero : (CountedEnd.start s).stand.sock.timeoutCounts = 0 := h
    rw [hzero]
    decide
  finished _ := ⟨h, rfl⟩
  le := by
    have hzero : (CountedEnd.start s).stand.sock.timeoutCounts = 0 := h
    rw [hzero]
    exact Nat.zero_le _
  eq _ hne := absurd rfl hne

section Invariant

variable {w w' : CountedEnd}

/-- A step that touches neither the count nor the two numbers. -/
theorem CountedOk.quiet (h : CountedOk w) {stand : EndState}
    (hquiet : stand.sock.timeoutCounts = w.stand.sock.timeoutCounts ∧
      stand.sock.state = w.stand.sock.state ∧
      stand.sock.finishedHandshake = w.stand.sock.finishedHandshake) :
    CountedOk { w with stand } := by
  obtain ⟨hcount, hst, hfin⟩ := hquiet
  constructor
  · rw [hcount]
    exact h.le_limit
  · rw [hcount, hfin]
    exact h.finished
  · rw [hcount]
    exact h.le
  · rw [hcount, hst]
    exact h.eq

/-- **An ACK that advances `base`** starts the second number anew, and the count stays. -/
theorem CountedOk.advance (h : CountedOk w) {stand : EndState}
    (hcount : stand.sock.timeoutCounts = w.stand.sock.timeoutCounts)
    (hfin : stand.sock.finishedHandshake = w.stand.sock.finishedHandshake) :
    CountedOk ⟨stand, 0, w.stand.sock.timeoutCounts⟩ where
  le_limit := by
    dsimp only
    rw [hcount]
    exact h.le_limit
  finished := by
    dsimp only
    rw [hcount, hfin]
    exact fun hzero => ⟨(h.finished hzero).1, (h.finished hzero).1⟩
  le := (congrArg UInt8.toNat hcount).le
  eq _ _ := congrArg UInt8.toNat hcount

/-- **An expiry** adds to the second number, and to the count where it is established. -/
theorem CountedOk.expiry (h : CountedOk w) {stand : EndState}
    (hs : callStep w.stand .timeout = .ret stand) :
    CountedOk { w with stand, since := w.since + 1 } := by
  obtain ⟨t, packets, hexp, rfl⟩ := callStep_timeout_eq_ret hs
  have hle := h.le
  rcases count_timerExpiry hexp with ⟨hst, hcount, hfin⟩ | ⟨hst, hzero, hcount, hfin⟩ |
    ⟨hst, hne, hlimit, hcount, hfin⟩
  · constructor
    · dsimp only
      rw [hcount]
      exact h.le_limit
    · dsimp only
      rw [hcount, hfin]
      exact h.finished
    · dsimp only
      rw [hcount]
      omega
    · exact fun hest => absurd hest hst
  · have hstale : w.stale = 0 := (h.finished hzero).2
    constructor
    · dsimp only
      rw [hcount]
      exact h.le_limit
    · dsimp only
      rw [hfin]
      exact fun hone => absurd hone (by decide)
    · dsimp only
      rw [hcount]
      omega
    · exact fun _ hne => absurd hstale hne
  · have hlimit' : w.stand.sock.timeoutCounts.toNat ≤ retransmitLimit.toNat :=
      Nat.not_lt.mp fun hlt => hlimit (UInt8.lt_iff_toNat_lt.mpr hlt)
    have hcount' : t.timeoutCounts.toNat = w.stand.sock.timeoutCounts.toNat + 1 := by
      have hten : retransmitLimit.toNat = 10 := rfl
      rw [hcount, UInt8.toNat_add, UInt8.toNat_one]
      omega
    constructor
    · dsimp only
      rw [hcount']
      omega
    · dsimp only
      rw [hfin]
      exact fun hzero => absurd hzero hne
    · dsimp only
      rw [hcount']
      omega
    · intro _ hstale
      have heq := h.eq hst hstale
      dsimp only
      rw [hcount', heq]
      rfl

/-- **One step.** -/
theorem countedOk_step (h : CountedOk w) {e : EndEvent} (hs : countedStep w e = .ret w') :
    CountedOk w' := by
  cases e with
  | packet pkt =>
    obtain ⟨stand, hstand, hret⟩ := Outcome.bind_eq_ret.mp hs
    have hquiet := count_packetStep hstand
    split_ifs at hret with hadvance
    · obtain rfl := Outcome.ret.inj hret
      exact h.advance hquiet.1 hquiet.2.2
    · obtain rfl := Outcome.ret.inj hret
      exact h.quiet hquiet
  | call c =>
    by_cases hc : c = .timeout
    · subst hc
      rw [countedStep] at hs
      split_ifs at hs with harmed
      obtain ⟨stand, hstand, hret⟩ := Outcome.bind_eq_ret.mp hs
      obtain rfl := Outcome.ret.inj hret
      exact h.expiry hstand
    · rw [countedStep] at hs
      · obtain ⟨stand, hstand, hret⟩ := Outcome.bind_eq_ret.mp hs
        obtain rfl := Outcome.ret.inj hret
        exact h.quiet (count_callStep hc hstand)
      · exact hc

/-- **Exactly when an expiry that closes comes late enough.** -/
theorem CountedOk.closes_iff (h : CountedOk w) (own : ℕ) (e : EndEvent) :
    Consecutive own w e ↔ ¬ ClosesStale own w e := by
  rw [Consecutive, ClosesStale, not_and, not_lt]
  refine forall_congr' fun hcloses => ?_
  obtain ⟨-, -, hst, -, hlimit⟩ := hcloses
  have hpast : retransmitLimit.toNat < w.stand.sock.timeoutCounts.toNat :=
    UInt8.lt_iff_toNat_lt.mp hlimit
  have hle := h.le_limit
  have hsum := h.le
  by_cases hstale : w.stale = 0
  · rw [hstale] at hsum ⊢
    have hzero : (0 : UInt8).toNat = 0 := rfl
    omega
  · have heq := h.eq hst hstale
    omega

end Invariant

/-- **Exactly when only consecutive failures close a connection.**  Along every run of an end that
starts with no timeout counted, each expiry that calls `tcp_outlimit_retransmit` comes after more
than `RETRANSMIT_LIMIT` since the last ACK that advanced `base`, **if and only if** no timeout had
been counted when that ACK arrived — or one, where the closing expiry counts itself. -/
theorem consecutive_iff {s : TjuTcp} (h : s.timeoutCounts = 0) (own : ℕ) (es : List EndEvent) :
    EveryStep countedStep (Consecutive own) (.start s) es ↔
      EveryStep countedStep (fun w e => ¬ ClosesStale own w e) (.start s) es :=
  everyStep_congr (I := CountedOk) (fun _ _ _ hI hs => countedOk_step hI hs)
    (fun _ e hI => hI.closes_iff own e) (countedOk_start h) es

/-- A socket that has confirmed its handshake. -/
def confirmedSock : TjuTcp := { zeroedSock with finishedHandshake := 1 }

/-- Two bytes are sent, and the timer runs out `n` times. -/
def silentRun (n : ℕ) : List EndEvent :=
  .call (.send [7, 8]) :: .call .stream :: List.replicate n (.call .timeout)

/-- The peer says nothing, and the twelfth expiry closes. -/
theorem consecutive_iff_silent :
    EveryStep countedStep (Consecutive 1) (.start confirmedSock) (silentRun 12) :=
  (consecutive_iff rfl 1 (silentRun 12)).mpr (by decide +kernel)

/-- **A connection is closed at the first timeout after an acknowledgement**: eleven timeouts, then
an ACK that advances `base` from 0 to 1, then one timeout. -/
theorem consecutive_fails_ack : confirmedSock.state = .established ∧
    confirmedSock.timeoutCounts = 0 ∧
    ¬ EveryStep countedStep (Consecutive 1) (.start confirmedSock)
      (silentRun 11 ++ [.packet (tcpSendAck (zeroedSock.setExpectSeq 1)), .call .timeout]) := by
  refine ⟨rfl, rfl, fun h => ?_⟩
  have hrun : (run countedStep (.start confirmedSock)
      (silentRun 11 ++ [.packet (tcpSendAck (zeroedSock.setExpectSeq 1))]) >>= fun w =>
      .ret (decide (Closes w (.call .timeout)), w.since)) = .ret (true, 0) := by decide +kernel
  obtain ⟨w, hw, hret⟩ := Outcome.bind_eq_ret.mp hrun
  obtain ⟨hcloses, hsince⟩ := Prod.mk.inj (Outcome.ret.inj hret)
  have hsplit := List.append_assoc (silentRun 11)
    [.packet (tcpSendAck (zeroedSock.setExpectSeq 1))] [.call .timeout]
  have hlast : EveryStep countedStep (Consecutive 1) w [.call .timeout] :=
    EveryStep.after (hsplit.symm ▸ h) hw
  have hlate : retransmitLimit.toNat < w.since + 1 := hlast.1 (of_decide_eq_true hcloses)
  rw [hsince] at hlate
  exact absurd hlate (by decide)

end TrivalTcp
