import TrivalTcp.Foundations.Lockstep
import TrivalTcp.Transfer.Congestion

/-!
# Transfer/Unseen — what the transfer does not look at

`cwnd`, `ssthresh` and `con_status` are kept up to date by `handle_success_ack` and
`handle_loss_ack`, and `rwnd` by every packet.  `unseen_run` says that nobody looks: overwrite all
four, at either end, at any time and as often as one likes, and the two ends still hand on the same
packets, return the same bytes, and wait, exit or go wrong at the same moments.  Neither congestion
control nor the peer's window ever decides what is sent.

The two handlers calculate with `int`s, and what they calculate can be undefined (`IntsFit`): a sum
that overflows, or a quotient by a `cwnd` of 0.  That much of the three fields can be seen.
-/

namespace TrivalTcp

/-! ## Sockets that cannot be told apart -/

/-- `cwnd`, `ssthresh`, `con_status` and `rwnd` are overwritten. -/
def shake (s : TjuTcp) (conStatus cwnd ssthresh : ℤ) (rwnd : UInt16) : TjuTcp :=
  { s.setRwnd rwnd with conStatus, cwnd, ssthresh }

/-- **Two sockets that differ at most in their congestion state and in the window of the peer.** -/
def SameSeen (s t : TjuTcp) : Prop := ∃ conStatus cwnd ssthresh rwnd,
  t = shake s conStatus cwnd ssthresh rwnd

namespace SameSeen

variable {s t u : TjuTcp}

theorem refl (s : TjuTcp) : SameSeen s s := ⟨s.conStatus, s.cwnd, s.ssthresh, _, rfl⟩

theorem symm (h : SameSeen s t) : SameSeen t s := by
  obtain ⟨_, _, _, _, rfl⟩ := h
  exact ⟨s.conStatus, s.cwnd, s.ssthresh, s.window.wndSend.rwnd, rfl⟩

theorem trans (h : SameSeen s t) (k : SameSeen t u) : SameSeen s u := by
  obtain ⟨_, _, _, _, rfl⟩ := h
  obtain ⟨conStatus, cwnd, ssthresh, rwnd, rfl⟩ := k
  exact ⟨conStatus, cwnd, ssthresh, rwnd, rfl⟩

theorem handleSuccessAck (h : SameSeen s t) :
    SameSeen (handleSuccessAck s) (handleSuccessAck t) := by
  have hself : ∀ s, SameSeen s (TrivalTcp.handleSuccessAck s) := fun s => by
    obtain ⟨conStatus, cwnd, heq⟩ := handleSuccessAck_eq s
    exact heq ▸ ⟨conStatus, cwnd, s.ssthresh, s.window.wndSend.rwnd, rfl⟩
  exact (hself s).symm.trans (h.trans (hself t))

theorem handleLossAck (h : SameSeen s t) : SameSeen (handleLossAck s) (handleLossAck t) := by
  have hself : ∀ s, SameSeen s (TrivalTcp.handleLossAck s) := fun s => by
    obtain ⟨conStatus, cwnd, ssthresh, heq⟩ := handleLossAck_eq s
    exact heq ▸ ⟨conStatus, cwnd, ssthresh, s.window.wndSend.rwnd, rfl⟩
  exact (hself s).symm.trans (h.trans (hself t))

theorem state (h : SameSeen s t) : t.state = s.state := by
  obtain ⟨_, _, _, _, rfl⟩ := h
  rfl

theorem expectSeq (h : SameSeen s t) : t.expectSeq = s.expectSeq := by
  obtain ⟨_, _, _, _, rfl⟩ := h
  rfl

theorem finishedHandshake (h : SameSeen s t) : t.finishedHandshake = s.finishedHandshake := by
  obtain ⟨_, _, _, _, rfl⟩ := h
  rfl

theorem timeoutCounts (h : SameSeen s t) : t.timeoutCounts = s.timeoutCounts := by
  obtain ⟨_, _, _, _, rfl⟩ := h
  rfl

/-- **No packet an end builds without a payload shows the difference.** -/
theorem packets (h : SameSeen s t) : tcpSendAck s = tcpSendAck t ∧ tcpSendSyn s = tcpSendSyn t ∧
    tcpSendSynAck s = tcpSendSynAck t ∧ tcpSendFinAck s = tcpSendFinAck t ∧
    backOnlyHeader s = backOnlyHeader t := by
  obtain ⟨_, _, _, _, rfl⟩ := h
  exact ⟨rfl, rfl, rfl, rfl, rfl⟩

theorem setRwnd (h : SameSeen s t) (v : UInt16) : SameSeen (s.setRwnd v) (t.setRwnd v) := by
  obtain ⟨conStatus, cwnd, ssthresh, -, rfl⟩ := h
  exact ⟨conStatus, cwnd, ssthresh, v, rfl⟩

theorem setBase (h : SameSeen s t) (v : UInt32) : SameSeen (s.setBase v) (t.setBase v) := by
  obtain ⟨conStatus, cwnd, ssthresh, rwnd, rfl⟩ := h
  exact ⟨conStatus, cwnd, ssthresh, rwnd, rfl⟩

theorem setExpectSeq (h : SameSeen s t) (v : UInt32) :
    SameSeen (s.setExpectSeq v) (t.setExpectSeq v) := by
  obtain ⟨conStatus, cwnd, ssthresh, rwnd, rfl⟩ := h
  exact ⟨conStatus, cwnd, ssthresh, rwnd, rfl⟩

theorem disarm (h : SameSeen s t) : SameSeen (disarm s) (disarm t) := by
  obtain ⟨conStatus, cwnd, ssthresh, rwnd, rfl⟩ := h
  exact ⟨conStatus, cwnd, ssthresh, rwnd, rfl⟩

theorem finishHandshake (h : SameSeen s t) : SameSeen (finishHandshake s) (finishHandshake t) := by
  obtain ⟨conStatus, cwnd, ssthresh, rwnd, rfl⟩ := h
  exact ⟨conStatus, cwnd, ssthresh, rwnd, rfl⟩

theorem countTimeout (h : SameSeen s t) : SameSeen (countTimeout s) (countTimeout t) := by
  obtain ⟨conStatus, cwnd, ssthresh, rwnd, rfl⟩ := h
  exact ⟨conStatus, cwnd, ssthresh, rwnd, rfl⟩

theorem tcpStartTimer (h : SameSeen s t) : SameSeen (tcpStartTimer s) (tcpStartTimer t) := by
  obtain ⟨conStatus, cwnd, ssthresh, rwnd, rfl⟩ := h
  rw [tcpStartTimer_eq, tcpStartTimer_eq]
  exact ⟨conStatus, cwnd, ssthresh, rwnd, rfl⟩

theorem ackTimer (h : SameSeen s t) : SameSeen (ackTimer s) (ackTimer t) := by
  have hstart := h.tcpStartTimer
  obtain ⟨conStatus, cwnd, ssthresh, rwnd, rfl⟩ := h
  rw [TrivalTcp.ackTimer, TrivalTcp.ackTimer]
  by_cases heq : s.base = s.nextseq
  · rw [if_pos heq, if_pos (by exact heq), tcpStopTimer, tcpStopTimer]
    by_cases hstarted : s.rttTimer.started = true
    · rw [if_pos hstarted, if_pos (by exact hstarted)]
      exact ⟨conStatus, cwnd, ssthresh, rwnd, rfl⟩
    · rw [if_neg hstarted, if_neg (by exact hstarted)]
      exact ⟨conStatus, cwnd, ssthresh, rwnd, rfl⟩
  · rw [if_neg heq, if_neg (by exact heq)]
    exact hstart

end SameSeen

/-! ## Functions that cannot tell them apart -/

/-- Two results of a function that cannot be told apart: nor can the sockets, and what comes with
them is the same. -/
def SameSeenResult {β : Type} (x y : TjuTcp × β) : Prop := SameSeen x.1 y.1 ∧ x.2 = y.2

/-- The same of an iteration of the sender thread. -/
def SameSeenSent (x y : Sent) : Prop :=
  SameSeen x.sock y.sock ∧ x.packets = y.packets ∧ x.copied = y.copied

section Functions

variable {s t : TjuTcp}

theorem tcpSend_unseen (h : SameSeen s t) (buffer : Buf) :
    Outcome.Rel SameSeenResult (tcpSend s buffer) (tcpSend t buffer) := by
  obtain ⟨conStatus, cwnd, ssthresh, rwnd, rfl⟩ := h
  dsimp only [tcpSend, shake, TjuTcp.setRwnd]
  split_ifs
  · exact .blocked
  · exact .undef
  · exact .ret ⟨⟨conStatus, cwnd, ssthresh, rwnd, rfl⟩, rfl⟩
  · exact .ret ⟨⟨conStatus, cwnd, ssthresh, rwnd, rfl⟩, rfl⟩

theorem tcpRecv_unseen (h : SameSeen s t) (len : ℕ) :
    Outcome.Rel SameSeenResult (tcpRecv s len) (tcpRecv t len) := by
  obtain ⟨conStatus, cwnd, ssthresh, rwnd, rfl⟩ := h
  dsimp only [tcpRecv, shake, TjuTcp.setRwnd]
  generalize (if s.receivedBuf.length ≥ len then len else s.receivedBuf.length) = n
  split_ifs
  · exact .blocked
  · exact .ret ⟨⟨conStatus, cwnd, ssthresh, rwnd, rfl⟩, rfl⟩

theorem sendChunk_unseen (h : SameSeen s t) (buf : Buf) :
    Outcome.Rel SameSeenSent (sendChunk s buf) (sendChunk t buf) := by
  obtain ⟨conStatus, cwnd, ssthresh, rwnd, rfl⟩ := h
  by_cases hopen : WindowOpen s
  · by_cases hsize : s.window.wndSend.sendWindows.size < s.nextseq.toNat + buf.length
    · rw [sendChunk, if_pos hopen, if_pos hsize, sendChunk, if_pos (by exact hopen),
        if_pos (by exact hsize)]
      exact .undef
    · obtain ⟨_, _, rfl, rfl, hs⟩ := sentChunk_eq s buf
      obtain ⟨_, _, rfl, rfl, ht⟩ := sentChunk_eq (shake s conStatus cwnd ssthresh rwnd) buf
      rw [sendChunk_open hopen (Nat.not_lt.mp hsize),
        sendChunk_open (by exact hopen) (by exact Nat.not_lt.mp hsize), hs, ht, tcpStartTimer_eq,
        tcpStartTimer_eq]
      refine .ret ⟨?_, rfl, rfl⟩
      by_cases hbase : s.nextseq = s.base
      · rw [if_pos hbase, if_pos (by exact hbase)]
        exact ⟨conStatus, cwnd, ssthresh, rwnd, rfl⟩
      · rw [if_neg hbase, if_neg (by exact hbase)]
        exact ⟨conStatus, cwnd, ssthresh, rwnd, rfl⟩
  · rw [sendChunk_full hopen, sendChunk_full (by exact hopen)]
    exact .ret ⟨⟨conStatus, cwnd, ssthresh, rwnd, rfl⟩, rfl, rfl⟩

theorem tcpSendStream_unseen (h : SameSeen s t) :
    Outcome.Rel SameSeenSent (tcpSendStream s) (tcpSendStream t) := by
  obtain ⟨conStatus, cwnd, ssthresh, rwnd, rfl⟩ := h
  have hchunk := sendChunk_unseen (s := s.setSendingBuf [])
    (t := (shake s conStatus cwnd ssthresh rwnd).setSendingBuf [])
    ⟨conStatus, cwnd, ssthresh, rwnd, rfl⟩ s.sendingBuf
  dsimp only [tcpSendStream, shake, TjuTcp.setRwnd] at hchunk ⊢
  split_ifs
  · exact .blocked
  · exact hchunk
  · exact .ret ⟨⟨conStatus, cwnd, ssthresh, rwnd, rfl⟩, rfl, rfl⟩

theorem tcpRetransmitTimer_unseen (h : SameSeen s t) :
    Outcome.Rel SameSeenResult (tcpRetransmitTimer s) (tcpRetransmitTimer t) := by
  have hstart := h.tcpStartTimer
  obtain ⟨conStatus, cwnd, ssthresh, rwnd, rfl⟩ := h
  dsimp only [tcpRetransmitTimer, shake, TjuTcp.setRwnd] at hstart ⊢
  split_ifs
  · exact .exit
  · exact .exit
  · exact .undef
  · exact .ret ⟨hstart, rfl⟩

theorem tcpClose_unseen (h : SameSeen s t) : SameSeenResult (tcpClose s) (tcpClose t) := by
  obtain ⟨conStatus, cwnd, ssthresh, rwnd, rfl⟩ := h
  exact ⟨⟨conStatus, cwnd, ssthresh, rwnd, rfl⟩, rfl⟩

theorem tcpWriteTimerHandler_unseen (h : SameSeen s t) :
    Outcome.Rel SameSeenResult (tcpWriteTimerHandler s) (tcpWriteTimerHandler t) := by
  have hstart := h.tcpStartTimer
  obtain ⟨-, hsyn, hsynAck, -, -⟩ := hstart.packets
  rw [tcpWriteTimerHandler, tcpWriteTimerHandler, h.state, h.finishedHandshake, h.timeoutCounts]
  cases s.state with
  | synSent => exact .ret ⟨hstart, congrArg (fun pkt => [pkt]) hsyn⟩
  | synRecv => exact .ret ⟨hstart, congrArg (fun pkt => [pkt]) hsynAck⟩
  | established =>
    dsimp only
    split_ifs
    · exact .ret ⟨h.finishHandshake, congrArg (fun pkt => [pkt]) h.finishHandshake.packets.1⟩
    · exact .ret (tcpClose_unseen h)
    · exact tcpRetransmitTimer_unseen h.handleLossAck.countTimeout
  | closed | listen | finWait1 | finWait2 | closeWait | closing | lastAck | timeWait =>
    exact .ret ⟨h, rfl⟩

theorem appendReceived_unseen (h : SameSeen s t) (pkt : Buf) (packets : List Buf) :
    Outcome.Rel SameSeenResult (appendReceived s pkt packets) (appendReceived t pkt packets) := by
  obtain ⟨conStatus, cwnd, ssthresh, rwnd, rfl⟩ := h
  dsimp only [appendReceived, shake, TjuTcp.setRwnd]
  split_ifs
  · exact .undef
  · exact .ret ⟨⟨conStatus, cwnd, ssthresh, rwnd, rfl⟩, rfl⟩

theorem tjuHandlePacket_unseen (h : SameSeen s t) (pkt : Buf) :
    Outcome.Rel SameSeenResult (tjuHandlePacket s pkt) (tjuHandlePacket t pkt) := by
  have hr := h.setRwnd (getAdvertisedWindow pkt)
  dsimp only [tjuHandlePacket]
  generalize s.setRwnd (getAdvertisedWindow pkt) = r at hr ⊢
  generalize t.setRwnd (getAdvertisedWindow pkt) = u at hr ⊢
  have hacked := (hr.handleSuccessAck.setBase (getSeq pkt)).ackTimer
  have hexp := hr.setExpectSeq (r.expectSeq + ((getPlen pkt).toUInt32 - (getHlen pkt).toUInt32))
  obtain ⟨hack, -, -, -, hback⟩ := hr.packets
  rw [hr.expectSeq, hack, hback, hexp.packets.1]
  split_ifs
  · exact .undef
  · exact .ret ⟨hr, rfl⟩
  · exact .ret ⟨hr, rfl⟩
  · exact .exit
  · exact .ret ⟨hacked, rfl⟩
  · exact appendReceived_unseen hacked pkt []
  · exact .ret ⟨hr, rfl⟩
  · exact appendReceived_unseen hexp pkt _
  · exact .ret ⟨hr, rfl⟩

end Functions

/-! ## Links that cannot be told apart -/

/-- Two ends that differ at most in the congestion state and the window of the peer: the same has
passed through them. -/
structure SameSeenEnd (a b : EndState) : Prop where
  sock : SameSeen a.sock b.sock
  handed : a.handed = b.handed
  copied : a.copied = b.copied
  accepted : a.accepted = b.accepted
  returned : a.returned = b.returned

def SameSeenLink (l m : Link) : Prop := ∀ x, SameSeenEnd (l x) (m x)

section Ends

variable {a b : EndState}

theorem callStep_unseen (h : SameSeenEnd a b) (c : Call) :
    Outcome.Rel SameSeenEnd (callStep a c) (callStep b c) := by
  cases c with
  | send buffer =>
    refine (tcpSend_unseen h.sock buffer).bind ?_
    rintro ⟨s, status⟩ ⟨t, status'⟩ ⟨hsock, hstatus⟩
    obtain rfl : status = status' := hstatus
    exact .ret ⟨hsock, h.handed, h.copied, by rw [h.accepted], h.returned⟩
  | stream =>
    refine (tcpSendStream_unseen h.sock).bind fun r r' hr => ?_
    obtain ⟨hsock, hpackets, hcopied⟩ := hr
    exact .ret ⟨hsock, by rw [h.handed, hpackets], by rw [h.copied, hcopied], h.accepted, h.returned⟩
  | timeout =>
    refine (tcpWriteTimerHandler_unseen h.sock.disarm).bind ?_
    rintro ⟨s, packets⟩ ⟨t, packets'⟩ ⟨hsock, hpackets⟩
    obtain rfl : packets = packets' := hpackets
    exact .ret ⟨hsock, by rw [h.handed], h.copied, h.accepted, h.returned⟩
  | recv len =>
    refine (tcpRecv_unseen h.sock len).bind ?_
    rintro ⟨s, bytes⟩ ⟨t, bytes'⟩ ⟨hsock, hbytes⟩
    obtain rfl : bytes = bytes' := hbytes
    exact .ret ⟨hsock, h.handed, h.copied, h.accepted, by rw [h.returned]⟩

theorem packetStep_unseen (h : SameSeenEnd a b) (pkt : Buf) :
    Outcome.Rel SameSeenEnd (packetStep a pkt) (packetStep b pkt) := by
  refine (tjuHandlePacket_unseen h.sock pkt).bind ?_
  rintro ⟨s, packets⟩ ⟨t, packets'⟩ ⟨hsock, hpackets⟩
  obtain rfl : packets = packets' := hpackets
  exact .ret ⟨hsock, by rw [h.handed], h.copied, h.accepted, h.returned⟩

end Ends

theorem SameSeenLink.update {l m : Link} (h : SameSeenLink l m) (x : Side) {a b : EndState}
    (hab : SameSeenEnd a b) :
    SameSeenLink (Function.update l x a) (Function.update m x b) := by
  intro y
  by_cases hy : y = x
  · subst hy
    rw [Function.update_self, Function.update_self]
    exact hab
  · rw [Function.update_of_ne hy, Function.update_of_ne hy]
    exact h y

theorem linkStep_unseen {l m : Link} (h : SameSeenLink l m) (e : LinkEvent) :
    Outcome.Rel SameSeenLink (linkStep l e) (linkStep m e) := by
  cases e with
  | call x c => exact (callStep_unseen (h x) c).bind fun a b hab => .ret (h.update x hab)
  | deliver x n =>
    rw [linkStep, linkStep, (h x.other).handed]
    cases (m x.other).handed[n]? with
    | none => exact .blocked
    | some pkt => exact (packetStep_unseen (h x) pkt).bind fun a b hab => .ret (h.update x hab)

/-! ## Overwriting what nobody looks at -/

/-- What can happen on a link when the congestion state and the window of the peer are overwritten
now and then. -/
inductive ShakenEvent where
  | link (e : LinkEvent)
  | shake (x : Side) (conStatus cwnd ssthresh : ℤ) (rwnd : UInt16)

def shakenStep (l : Link) : ShakenEvent → Outcome Link
  | .link e => linkStep l e
  | .shake x conStatus cwnd ssthresh rwnd => .ret (Function.update l x
      { l x with sock := shake (l x).sock conStatus cwnd ssthresh rwnd })

/-- What happens besides. -/
def linkEvent : ShakenEvent → Option LinkEvent
  | .link e => some e
  | .shake .. => none

/-- As far as unbounded integers go, nobody looks. -/
theorem unseen_unbounded (l : Link) (es : List ShakenEvent) :
    Outcome.Rel SameSeenLink (run shakenStep l es) (run linkStep l (es.filterMap linkEvent)) := by
  refine run_rel_filterMap ?_ ?_ (fun x => ⟨.refl _, rfl, rfl, rfl, rfl⟩) es
  · intro s t e d h hd
    cases e with
    | link e =>
      obtain rfl : e = d := Option.some.inj hd
      exact linkStep_unseen h e
    | shake => contradiction
  · intro s t e h hd
    cases e with
    | link e => contradiction
    | shake x conStatus cwnd ssthresh rwnd =>
      refine ⟨_, rfl, fun y => ?_⟩
      by_cases hy : y = x
      · subst hy
        rw [Function.update_self]
        have hself : SameSeen (shake (s y).sock conStatus cwnd ssthresh rwnd) (s y).sock :=
          SameSeen.symm ⟨conStatus, cwnd, ssthresh, rwnd, rfl⟩
        exact ⟨hself.trans (h y).sock, (h y).handed, (h y).copied, (h y).accepted, (h y).returned⟩
      · rw [Function.update_of_ne hy]
        exact h y

/-! ## What the integers hold -/

/-- An `int` holds it. -/
def IsInt (z : ℤ) : Prop := -(intMax + 1) ≤ z ∧ z ≤ intMax

instance (z : ℤ) : Decidable (IsInt z) := inferInstanceAs (Decidable (_ ∧ _))

/-- What `handle_success_ack` calculates is defined. -/
def AckFits (s : TjuTcp) : Prop :=
  (s.conStatus = congestionAvoidance → s.cwnd ≠ 0) ∧ IsInt (handleSuccessAck s).cwnd

instance (s : TjuTcp) : Decidable (AckFits s) := inferInstanceAs (Decidable (_ ∧ _))

/-- What `handle_loss_ack` calculates is defined, where the expiry comes to it. -/
def LossFits (s : TjuTcp) : Prop :=
  s.state = .established → s.finishedHandshake ≠ 0 → ¬ GivesUp s → Halves s → IsInt (s.cwnd + 1)

instance (s : TjuTcp) : Decidable (LossFits s) :=
  inferInstanceAs (Decidable (_ → _ → _ → _ → _))

/-- What the handlers calculate in an event of a link is defined. -/
def IntsFit (l : Link) : LinkEvent → Prop
  | .call x .timeout => LossFits (l x).sock
  | .call .. => True
  | .deliver x n => ∀ pkt ∈ (l x.other).handed[n]?, getFlags pkt = Flag.ack → AckFits (l x).sock

instance (l : Link) : (e : LinkEvent) → Decidable (IntsFit l e)
  | .call x .timeout => inferInstanceAs (Decidable (LossFits (l x).sock))
  | .call _ (.send _) | .call _ .stream | .call _ (.recv _) => isTrue trivial
  | .deliver .. => inferInstanceAs (Decidable (∀ pkt ∈ _, _))

/-- The fields are overwritten with `int`s. -/
def ShakenFits (l : Link) : ShakenEvent → Prop
  | .link e => IntsFit l e
  | .shake _ conStatus cwnd ssthresh _ => IsInt conStatus ∧ IsInt cwnd ∧ IsInt ssthresh

instance (l : Link) : (e : ShakenEvent) → Decidable (ShakenFits l e)
  | .link e => inferInstanceAs (Decidable (IntsFit l e))
  | .shake .. => inferInstanceAs (Decidable (_ ∧ _ ∧ _))

/-- **Nobody looks at the congestion state or at the peer's window.**  Take any run of a link, and
overwrite all of `cwnd`, `ssthresh`, `con_status` and `rwnd` at any of its points, at either end, with
any values.  As long as what is calculated with them is defined, in the one run and in the other,
nothing comes of it: the two runs return, wait, exit or go wrong together, and where they return every
end has handed on the same packets, copied and accepted the same bytes, and returned the same bytes to
its caller. -/
theorem unseen_run (l : Link) (es : List ShakenEvent)
    (hshaken : EveryStep (guarded ShakenFits shakenStep) ShakenFits l es)
    (hplain : EveryStep (guarded IntsFit linkStep) IntsFit l (es.filterMap linkEvent)) :
    Outcome.Rel SameSeenLink (run (guarded ShakenFits shakenStep) l es)
      (run (guarded IntsFit linkStep) l (es.filterMap linkEvent)) := by
  rw [run_guarded hshaken, run_guarded hplain]
  exact unseen_unbounded l es

/-- The client sends a byte, which is acknowledged.  On the way it is put into fast recovery with one
byte and told of a closed window. -/
def shakenEvents : List ShakenEvent :=
  [.link (.call .client (.send [7])), .link (.call .client .stream),
    .shake .client fastRecovery 1 9 0, .link (.deliver .server 0), .link (.deliver .client 0)]

theorem unseen_run_acknowledged : ∃ l m,
    run (guarded ShakenFits shakenStep) zeroedLink shakenEvents = .ret l ∧
      run (guarded IntsFit linkStep) zeroedLink (shakenEvents.filterMap linkEvent) = .ret m ∧
        SameSeenLink l m ∧ (m .client).sock.base = 1 := by
  have hshaken : EveryStep (guarded ShakenFits shakenStep) ShakenFits zeroedLink shakenEvents := by
    decide
  have hplain : EveryStep (guarded IntsFit linkStep) IntsFit zeroedLink
      (shakenEvents.filterMap linkEvent) := by decide
  have hrun : (run (guarded IntsFit linkStep) zeroedLink (shakenEvents.filterMap linkEvent) >>=
      fun m => .ret (m .client).sock.base) = .ret 1 := by decide
  obtain ⟨m, hm, hbase⟩ := Outcome.bind_eq_ret.mp hrun
  have hrel := unseen_run zeroedLink shakenEvents hshaken hplain
  rw [hm] at hrel
  obtain ⟨l, hl, hsame⟩ := hrel.of_ret
  exact ⟨l, m, hl, hm, hsame, Outcome.ret.inj hbase⟩

end TrivalTcp
