import TrivalTcp.Transfer.Link

/-!
# Transfer/Sender — one sender: its timer, and the bytes it has been given

A single end that sends: the application calls `tcp_send`, the sender thread iterates, the peer's
acknowledgements arrive, the timer runs out.  Two things are said of its runs, each **exactly** — by
the condition on the steps under which it holds:

* `covered_iff` — unacknowledged data is covered by a running timer, unless the timer runs out on
  unacknowledged data before it has ever run out;
* `kept_iff` — every byte taken by `tcp_send` is in `send_windows` or in `sending_buf`, unless the
  sender thread takes a chunk while the window is full.
-/

namespace TrivalTcp

/-! ## The machine -/

/-- What can happen to a sender. -/
inductive SenderEvent where
  | send (buffer : Buf)
  | stream
  /-- An acknowledgement arrives that the peer, its socket then being `p`, has sent. -/
  | ack (p : TjuTcp)
  /-- The armed timer runs out. -/
  | expire

def senderStep (a : EndState) : SenderEvent → Outcome EndState
  | .send buffer => callStep a (.send buffer)
  | .stream => callStep a .stream
  | .ack p => packetStep a (tcpSendAck p)
  | .expire => if a.sock.rttTimer.armed then callStep a .timeout else .blocked

theorem senderStep_send {a : EndState} {buffer : Buf} {t : TjuTcp}
    (h : tcpSend a.sock buffer = .ret (t, 0)) : senderStep a (.send buffer) =
      .ret { a with sock := t, accepted := a.accepted ++ buffer } := by
  rw [senderStep, callStep, h]
  rfl

theorem senderStep_stream {a : EndState} {r : Sent} (h : tcpSendStream a.sock = .ret r) :
    senderStep a .stream = .ret
      { a with sock := r.sock, handed := a.handed ++ r.packets, copied := a.copied ++ r.copied } := by
  rw [senderStep, callStep, h]
  rfl

/-- **What an acknowledgement does.** -/
theorem tjuHandlePacket_ack {s p t : TjuTcp} {packets : List Buf}
    (h : tjuHandlePacket s (tcpSendAck p) = .ret (t, packets)) :
    ∃ v, t = ackTimer ((handleSuccessAck (s.setRwnd v)).setBase p.expectSeq) ∧ packets = [] := by
  obtain ⟨hdr, hpkt, -, -, hseq, hflags, hh, hp⟩ :=
    controlPkt_eq p p.expectSeq p.expectSeq Flag.ack (advWnd p)
  rw [tcpSendAck, hpkt] at h
  obtain ⟨r, rfl, hcases⟩ := tjuHandlePacket_cases (by rw [hh]; rfl) (by rw [hp]; rfl) h
  rcases hcases with ⟨hf, -⟩ | ⟨hf, -⟩ | ⟨-, rfl, u, rfl, rfl⟩ | ⟨hf, -⟩ | ⟨hf, -⟩ | ⟨hf, -⟩
  · exact absurd (hflags.symm.trans hf) (by decide)
  · exact absurd (hflags.symm.trans hf) (by decide)
  · refine ⟨hdr.advertisedWindow, ?_, rfl⟩
    rw [List.append_nil, hseq]
    rfl
  · exact absurd hflags hf
  · exact absurd hflags hf
  · exact absurd hflags hf

/-! ## The timer -/

/-- A sender as `tcp_connect` leaves it. -/
structure Connected (s : TjuTcp) : Prop where
  established : s.state = .established
  base : s.base = 0
  nextseq : s.nextseq = 0
  finishedHandshake : s.finishedHandshake = 0
  unarmed : s.rttTimer = ⟨false, false⟩

/-- While established, unacknowledged data is covered by a running timer. -/
def Covered (s : TjuTcp) : Prop :=
  s.state = .established → s.base ≠ s.nextseq → s.rttTimer.armed = true

/-- The timer, if it runs out now, does so on unacknowledged data and for the first time since the
handshake: `finished_handshake` is still 0. -/
def FirstExpiry (s : TjuTcp) (e : SenderEvent) : Prop :=
  e = .expire ∧ s.state = .established ∧ s.finishedHandshake = 0 ∧ s.base ≠ s.nextseq

theorem Connected.covered {s : TjuTcp} (h : Connected s) : Covered s :=
  fun _ hne => absurd (h.base.trans h.nextseq.symm) hne

theorem covered_tcpStartTimer (s : TjuTcp) : Covered (tcpStartTimer s) := by
  rw [tcpStartTimer_eq]
  exact fun _ _ => rfl

/-- **The timer decision on an acknowledgement is right**, whatever `base` it brings. -/
theorem covered_ackTimer (s : TjuTcp) : Covered (ackTimer s) := by
  rw [ackTimer]
  split_ifs with heq
  · obtain ⟨_, _, hstop⟩ := tcpStopTimer_eq s
    rw [hstop]
    exact fun _ hne => absurd heq hne
  · exact covered_tcpStartTimer s

/-- The sender thread starts the timer with the first unacknowledged chunk. -/
theorem Covered.sendChunk {s : TjuTcp} (h : Covered s) {buf : Buf} {r : Sent}
    (hs : sendChunk s buf = .ret r) : Covered r.sock := by
  rcases sendChunk_cases hs with ⟨-, rfl⟩ | ⟨-, -, t, msg, rfl, rfl, rfl⟩
  · exact h
  · intro hest _
    by_cases heq : s.nextseq = s.base
    · rw [if_pos heq, tcpStartTimer_eq]
      rfl
    · rw [if_neg heq] at hest ⊢
      exact h hest (Ne.symm heq)

theorem Covered.tcpSendStream {s : TjuTcp} (h : Covered s) {r : Sent}
    (hs : tcpSendStream s = .ret r) : Covered r.sock := by
  rcases tcpSendStream_cases hs with ⟨-, rfl⟩ | ⟨-, -, hchunk⟩
  · exact h
  · have hset : Covered (s.setSendingBuf []) := h
    exact hset.sendChunk hchunk

/-- **Every expiry but the first leaves a running timer**, or closes the connection. -/
theorem covered_timerExpiry {s t : TjuTcp} (hfirst : ¬ FirstExpiry s .expire) {packets : List Buf}
    (hs : timerExpiry s = .ret (t, packets)) : Covered t := by
  rcases tcpWriteTimerHandler_cases hs with ⟨-, rfl, -⟩ | ⟨-, rfl, -⟩ | ⟨hst, hfin, rfl, -⟩ |
    ⟨-, -, -, hclose⟩ | ⟨-, -, -, hretr⟩ | ⟨hst, rfl, -⟩
  · exact covered_tcpStartTimer _
  · exact covered_tcpStartTimer _
  · exact fun _ hne => absurd ⟨rfl, hst, hfin, hne⟩ hfirst
  · obtain ⟨rfl, -⟩ := Prod.mk.inj hclose
    exact fun hest => nomatch hest
  · obtain ⟨-, rfl, -⟩ := tcpRetransmitTimer_cases hretr
    exact covered_tcpStartTimer _
  · intro hest
    rw [hest] at hst
    exact absurd (by decide) hst

/-- The first expiry sends an acknowledgement, and nothing else. -/
theorem timerExpiry_first {s : TjuTcp} (hst : s.state = .established)
    (hfin : s.finishedHandshake = 0) : timerExpiry s = .ret
      (finishHandshake (disarm s), [tcpSendAck (finishHandshake (disarm s))]) := by
  have hst' : (disarm s).state = .established := hst
  rw [timerExpiry, tcpWriteTimerHandler, hst']
  exact if_pos hfin

/-- **One step of a sender** keeps its data covered, the first expiry apart. -/
theorem covered_step {a a' : EndState} {e : SenderEvent} (h : Covered a.sock)
    (he : ¬ FirstExpiry a.sock e) (hs : senderStep a e = .ret a') : Covered a'.sock := by
  cases e with
  | send buffer =>
    rcases callStep_send_eq_ret hs with rfl | rfl
    · exact h
    · exact h
  | stream =>
    obtain ⟨r, hstream, rfl⟩ := callStep_stream_eq_ret hs
    exact h.tcpSendStream hstream
  | ack p =>
    obtain ⟨t, packets, hack, rfl⟩ := packetStep_eq_ret hs
    obtain ⟨v, rfl, -⟩ := tjuHandlePacket_ack hack
    exact covered_ackTimer _
  | expire =>
    rw [senderStep] at hs
    split_ifs at hs
    obtain ⟨t, packets, hexp, rfl⟩ := callStep_timeout_eq_ret hs
    exact covered_timerExpiry he hexp

/-- **Exactly when a timer covers unacknowledged data.**  Along every run of a sender that
`tcp_connect` has left, data is covered in every state **if and only if** the timer never runs out
on unacknowledged data with `finished_handshake` still 0. -/
theorem covered_iff {s : TjuTcp} (h : Connected s) (es : List SenderEvent) :
    Along senderStep (fun a => Covered a.sock) (.start s) es ↔
      EveryStep senderStep (fun a e => ¬ FirstExpiry a.sock e) (.start s) es := by
  have hgood : ∀ a e a', Covered a.sock → ¬ FirstExpiry a.sock e → senderStep a e = .ret a' →
      Covered a'.sock := fun _ _ _ => covered_step
  refine along_iff_everyStep (fun _ h => h) hgood (fun a e hcov he => ?_) h.covered es
  obtain ⟨rfl, hst, hfin, hne⟩ := not_not.mp he
  have hstep : senderStep a .expire = callStep a .timeout := if_pos (hcov hst hne)
  rw [hstep, callStep, timerExpiry_first hst hfin]
  exact ⟨_, rfl, fun hcov' => nomatch hcov' hst hne⟩

theorem connected_zeroedSock : Connected zeroedSock := ⟨rfl, rfl, rfl, rfl, rfl⟩

/-- A run without an expiry keeps its data covered. -/
theorem covered_iff_send : Along senderStep (fun a => Covered a.sock) (.start zeroedSock)
    [.send [7], .stream] :=
  (covered_iff connected_zeroedSock [.send [7], .stream]).mpr
    ⟨fun h => (nomatch h.1), fun _ _ => ⟨fun h => (nomatch h.1), fun _ _ => trivial⟩⟩

/-- **Unacknowledged data without a timer**: one byte is sent and the timer runs out; the callback
acknowledges the handshake once more, and no timer is left to retransmit the byte. -/
theorem covered_fails_expire : Connected zeroedSock ∧
    ¬ Along senderStep (fun a => Covered a.sock) (.start zeroedSock)
      [.send [7], .stream, .expire] := by
  refine ⟨connected_zeroedSock, fun h => ?_⟩
  have hrun : (run senderStep (.start zeroedSock) [.send [7], .stream, .expire] >>= fun a =>
      .ret (a.sock.state, a.sock.base, a.sock.nextseq, a.sock.rttTimer.armed))
        = .ret (.established, 0, 1, false) := by decide
  obtain ⟨a, ha, hret⟩ := Outcome.bind_eq_ret.mp hrun
  obtain ⟨hst, hbase, hnext, harmed⟩ : _ ∧ _ ∧ _ ∧ _ := by simpa using hret
  have hcov := h.last ha hst (by rw [hbase, hnext]; decide)
  rw [harmed] at hcov
  nomatch hcov

/-! ## The bytes -/

/-- Every byte taken is in `send_windows` or still in `sending_buf`, in order. -/
def Kept (a : EndState) : Prop := a.copied ++ a.sock.sendingBuf = a.accepted

/-- The sender thread is about to take a chunk while the window is full. -/
def TakesWhenFull (s : TjuTcp) (e : SenderEvent) : Prop :=
  e = .stream ∧ s.sendingBuf ≠ [] ∧ s.sendLock = false ∧ ¬ WindowOpen s

theorem sendingBuf_handleSuccessAck (s : TjuTcp) :
    (handleSuccessAck s).sendingBuf = s.sendingBuf := by
  obtain ⟨_, _, h⟩ := handleSuccessAck_eq s
  rw [h]

theorem sendingBuf_ackTimer (s : TjuTcp) : (ackTimer s).sendingBuf = s.sendingBuf := by
  obtain ⟨_, _, h⟩ := ackTimer_eq s
  rw [h]

theorem sendingBuf_timerExpiry {s t : TjuTcp} {packets : List Buf}
    (hs : timerExpiry s = .ret (t, packets)) : t.sendingBuf = s.sendingBuf := by
  rcases timerExpiry_frame hs with ⟨-, rfl⟩ | ⟨-, _, _, _, _, _, _, _, rfl⟩
  · rfl
  · rfl

/-- **A full window costs the chunk**: the buffer is emptied, and nothing is copied or sent. -/
theorem tcpSendStream_full {s : TjuTcp} (hne : s.sendingBuf ≠ []) (hlock : s.sendLock = false)
    (hfull : ¬ WindowOpen s) : tcpSendStream s = .ret ⟨s.setSendingBuf [], [], []⟩ := by
  rw [tcpSendStream_eq hne hlock]
  exact sendChunk_full hfull

/-- An iteration moves what it takes out of `sending_buf` into `send_windows`, unless the window is
full. -/
theorem kept_tcpSendStream {s : TjuTcp} (h : ¬ TakesWhenFull s .stream) {r : Sent}
    (hs : tcpSendStream s = .ret r) : r.copied ++ r.sock.sendingBuf = s.sendingBuf := by
  rcases tcpSendStream_cases hs with ⟨-, rfl⟩ | ⟨hne, hlock, hchunk⟩
  · rfl
  · rcases sendChunk_cases hchunk with ⟨hfull, -⟩ | ⟨-, -, t, msg, rfl, -, rfl⟩
    · exact absurd ⟨rfl, hne, hlock, hfull⟩ h
    · refine (congrArg (s.sendingBuf ++ ·) ?_).trans (List.append_nil _)
      rw [tcpStartTimer_eq]
      split_ifs <;> rfl

/-- **One step of a sender** keeps every byte, a chunk taken with the window full apart. -/
theorem kept_step {a a' : EndState} {e : SenderEvent} (h : Kept a) (he : ¬ TakesWhenFull a.sock e)
    (hs : senderStep a e = .ret a') : Kept a' := by
  cases e with
  | send buffer =>
    rcases callStep_send_eq_ret hs with rfl | rfl
    · exact (List.append_assoc _ _ _).symm.trans (congrArg (· ++ buffer) h)
    · exact h
  | stream =>
    obtain ⟨r, hstream, rfl⟩ := callStep_stream_eq_ret hs
    refine (List.append_assoc _ _ _).trans (Eq.trans ?_ h)
    rw [kept_tcpSendStream he hstream]
  | ack p =>
    obtain ⟨t, packets, hack, rfl⟩ := packetStep_eq_ret hs
    obtain ⟨v, rfl, -⟩ := tjuHandlePacket_ack hack
    refine (congrArg (a.copied ++ ·) ?_).trans h
    exact (sendingBuf_ackTimer _).trans (sendingBuf_handleSuccessAck _)
  | expire =>
    rw [senderStep] at hs
    split_ifs at hs
    obtain ⟨t, packets, hexp, rfl⟩ := callStep_timeout_eq_ret hs
    exact (congrArg (a.copied ++ ·) (sendingBuf_timerExpiry hexp)).trans h

/-- **Exactly when the sender keeps what it has taken.**  Along every run of an established sender
with nothing sent and nothing to send, all bytes taken by `tcp_send` are accounted for in every
state **if and only if** the sender thread never takes a chunk while the window is full. -/
theorem kept_iff {s : TjuTcp} (h : Fresh s) (es : List SenderEvent) :
    Along senderStep Kept (.start s) es ↔
      EveryStep senderStep (fun a e => ¬ TakesWhenFull a.sock e) (.start s) es := by
  have hgood : ∀ a e a', Kept a → ¬ TakesWhenFull a.sock e → senderStep a e = .ret a' → Kept a' :=
    fun _ _ _ => kept_step
  have hstart : Kept (.start s) := h.sending
  refine along_iff_everyStep (fun _ h => h) hgood (fun a e hkept he => ?_) hstart es
  obtain ⟨rfl, hne, hlock, hfull⟩ := not_not.mp he
  rw [senderStep, callStep, tcpSendStream_full hne hlock hfull]
  refine ⟨_, rfl, fun hkept' => hne ?_⟩
  have hall : a.copied ++ [] ++ [] = a.copied ++ a.sock.sendingBuf := hkept'.trans hkept.symm
  rw [List.append_nil] at hall
  exact (List.append_cancel_left hall).symm

/-- A run whose only chunk finds the window open. -/
theorem kept_iff_send : Along senderStep Kept (.start zeroedSock) [.send [7], .stream] := by
  refine (kept_iff fresh_zeroedSock [.send [7], .stream]).mpr
    ⟨fun h => (nomatch h.1), fun a ha => ⟨fun h => ?_, fun _ _ => trivial⟩⟩
  obtain rfl := Outcome.ret.inj ha
  exact h.2.2.2 (by decide)

/-- The zeroed socket once it has sent 44928 bytes: `window_size` is 176000 cut to 16 bits, and the
window is full. -/
def filledSock (buf : Buf) : TjuTcp :=
  (tcpStartTimer (zeroedSock.copyToSendWindows 0 buf)).setNextseq 44928

theorem tcpSendStream_filledSock {buf : Buf} (h : buf.length = 44928) :
    ∃ msg, tcpSendStream (zeroedSock.setSendingBuf buf) = .ret ⟨filledSock buf, [msg], buf⟩ := by
  have hne : (zeroedSock.setSendingBuf buf).sendingBuf ≠ [] :=
    List.length_pos_iff.mp (h ▸ (by decide : 44928 > 0))
  have hchunk : tcpSendStream (zeroedSock.setSendingBuf buf) = sendChunk zeroedSock buf :=
    tcpSendStream_eq hne rfl
  have hsize :
      zeroedSock.nextseq.toNat + buf.length ≤ zeroedSock.window.wndSend.sendWindows.size := by
    rw [h]
    decide
  obtain ⟨t, msg, rfl, -, hsent⟩ := sentChunk_eq zeroedSock buf
  rw [hchunk, sendChunk_open (by decide) hsize, hsent, if_pos (by decide), h]
  exact ⟨msg, rfl⟩

/-- **A byte is lost**: 44928 bytes are sent, which fills the window, and one more is taken. -/
theorem kept_fails_full : Fresh zeroedSock ∧ ¬ Along senderStep Kept (.start zeroedSock)
    [.send (.replicate 44928 0), .stream, .send [1], .stream] := by
  refine ⟨fresh_zeroedSock, fun h => ?_⟩
  generalize hbuf : List.replicate 44928 (0 : UInt8) = buf at h
  have hlen : buf.length = 44928 := hbuf ▸ List.length_replicate
  have hsend : tcpSend zeroedSock buf = .ret (zeroedSock.setSendingBuf buf, 0) := by
    rw [tcpSend, if_neg (by decide), if_neg (by rw [hlen]; decide), if_pos (by rw [hlen]; decide)]
    rfl
  obtain ⟨msg, hstream⟩ := tcpSendStream_filledSock hlen
  have hsend' : tcpSend (filledSock buf) [1] = .ret ((filledSock buf).setSendingBuf [1], 0) := by
    rw [filledSock, tcpStartTimer_eq]
    rfl
  have hstream' : tcpSendStream ((filledSock buf).setSendingBuf [1])
      = .ret ⟨(filledSock buf).setSendingBuf [], [], []⟩ := by
    refine tcpSendStream_full (List.cons_ne_nil 1 []) ?_ ?_
    · rw [filledSock, tcpStartTimer_eq]
      rfl
    · rw [filledSock, tcpStartTimer_eq]
      exact (by decide : ¬ (44928 : UInt32) < 0 + 44928)
  have hkept : Kept
      { sock := (filledSock buf).setSendingBuf [], handed := [msg], copied := buf,
        accepted := buf ++ [1], returned := [] } := by
    have htaken : senderStep (.start zeroedSock) (.send buf)
        = .ret ⟨zeroedSock.setSendingBuf buf, [], [], buf, []⟩ := senderStep_send hsend
    have hsent : senderStep ⟨zeroedSock.setSendingBuf buf, [], [], buf, []⟩ .stream
        = .ret ⟨filledSock buf, [msg], buf, buf, []⟩ :=
      senderStep_stream (r := ⟨filledSock buf, [msg], buf⟩) hstream
    have htaken' : senderStep ⟨filledSock buf, [msg], buf, buf, []⟩ (.send [1])
        = .ret ⟨(filledSock buf).setSendingBuf [1], [msg], buf, buf ++ [1], []⟩ :=
      senderStep_send hsend'
    have hsent' :
        senderStep ⟨(filledSock buf).setSendingBuf [1], [msg], buf, buf ++ [1], []⟩ .stream
        = .ret ⟨(filledSock buf).setSendingBuf [], [msg] ++ [], buf ++ [], buf ++ [1], []⟩ :=
      senderStep_stream (r := ⟨(filledSock buf).setSendingBuf [], [], []⟩) hstream'
    rw [List.append_nil, List.append_nil] at hsent'
    refine h.last ?_
    rw [run_cons, htaken, Outcome.ret_bind, run_cons, hsent, Outcome.ret_bind, run_cons, htaken',
      Outcome.ret_bind, run_cons, hsent', Outcome.ret_bind, run_nil]
  have hlost : buf ++ [] = buf ++ [1] := hkept
  exact List.cons_ne_nil 1 [] (List.append_cancel_left hlost).symm

end TrivalTcp
