import TrivalTcp.Transfer.Delivery
import TrivalTcp.Transfer.Pipe

/-!
# Transfer/Repair — two loss-free rounds of retransmission

However much has been lost: a retransmission starts at `base`, and its answer says where the
receiver stands.  If the sender had not known that, the first round tells it, and the second brings
what is missing.
-/

namespace TrivalTcp

open CumulativeAck

/-! ## The procedure -/

/-- One round: the sender's timer handler runs, the receiver is given the packet it has sent, and
the sender the answer. -/
def repairRound : EndState × EndState → Outcome (EndState × EndState)
  | (a, b) => tcpWriteTimerHandler a.sock >>= fun (sock, packets) =>
    match packets.filterMap sendToLayer3 with
    | [pkt] => packetStep b pkt >>= fun b' =>
      match (b'.handed.drop b.handed.length).filterMap sendToLayer3 with
      | [ack] => packetStep { a with sock, handed := a.handed ++ packets } ack >>= fun a' =>
          .ret (a', b')
      | _ => .blocked
    | _ => .blocked

/-- At most so many rounds, while something is not acknowledged. -/
def repair : ℕ → EndState × EndState → Outcome (EndState × EndState)
  | 0, p => if p.1.sock.base = p.1.sock.nextseq then .ret p else .blocked
  | n + 1, p => if p.1.sock.base = p.1.sock.nextseq then .ret p else repairRound p >>= repair n

/-! ## Two ends of a link -/

/-- **What a sender and a receiver agree on**, whatever has been lost between them. -/
structure Linked (a b : EndState) : Prop where
  nextseq : a.sock.nextseq.toNat = a.copied.length
  holds : a.sock.window.wndSend.sendWindows.Holds a.copied
  size : a.sock.window.wndSend.sendWindows.size = tcpSendWindowSize
  base_le : a.sock.base.toNat ≤ b.sock.expectSeq.toNat
  expectSeq_le : b.sock.expectSeq.toNat ≤ a.copied.length
  got : b.sock.state = .established → received b = a.copied.take b.sock.expectSeq.toNat

theorem linked_of_reachable {l : Link} (h : Reachable linkStep LinkStart l) (x : Side) :
    Linked (l x) (l x.other) := by
  obtain ⟨f, hsafe, hf⟩ := Simulates.of_reachable h
  have hend := hf x
  have hpeer := hf.peer x
  refine ⟨hend.nextseq.symm, hend.holds, hend.size, ?_, ?_, fun hest => ?_⟩
  · rw [← hend.base, ← hpeer.expectSeq]
    exact (hsafe x).base_le
  · rw [← hend.stream, ← hpeer.expectSeq]
    exact (hsafe x).got_le
  · rw [received, ← hpeer.received hest, ← hend.stream, ← hpeer.expectSeq]
    exact (hsafe x).got_eq_take

/-- A sender that may still retransmit, and has something to retransmit that fits into one
packet. -/
structure Repairing (a : EndState) : Prop where
  state : a.sock.state = .established
  finished : a.sock.finishedHandshake ≠ 0
  counts : ¬ a.sock.timeoutCounts > retransmitLimit
  short : (a.sock.nextseq - a.sock.base).toNat ≤ maxLen - headerLen

section Round

variable {a b : EndState}

theorem Linked.unacked (h : Linked a b) :
    a.sock.base.toNat + (a.sock.nextseq - a.sock.base).toNat = a.copied.length := by
  have hle : a.sock.base ≤ a.sock.nextseq := by
    rw [UInt32.le_iff_toNat_le, h.nextseq]
    exact h.base_le.trans h.expectSeq_le
  rw [UInt32.toNat_sub_of_le _ _ hle, h.nextseq]
  exact Nat.add_sub_cancel' (h.base_le.trans h.expectSeq_le)

/-- What the sender has not seen acknowledged. -/
theorem Linked.read (h : Linked a b) :
    a.sock.window.wndSend.sendWindows.read a.sock.base.toNat
      (a.sock.nextseq - a.sock.base).toNat = a.copied.drop a.sock.base.toNat := by
  have hlen := h.unacked
  rw [Block.read_of_holds h.holds hlen.le]
  refine List.take_of_length_le ?_
  rw [List.length_drop]
  omega

/-- **What the receiver makes of a retransmission**: it takes it if it stands at `base`, and says
where it stands in any case. -/
theorem Linked.receive (h : Linked a b) {p : Buf} {src : UInt16}
    (hp : Built p src a.sock.base Flag.noFlag (a.copied.drop a.sock.base.toNat)) : ∃ b' u,
    packetStep b p = .ret b' ∧ b'.handed = b.handed ++ [tcpSendAck u] ∧
      u.expectSeq = b'.sock.expectSeq ∧ b.sock.expectSeq.toNat ≤ b'.sock.expectSeq.toNat ∧
      b'.sock.state = b.sock.state ∧ (b'.sock.expectSeq = a.sock.nextseq ∨
        a.sock.base ≠ b.sock.expectSeq ∧ b'.sock.expectSeq = b.sock.expectSeq) ∧
      b'.sock.expectSeq.toNat ≤ a.copied.length ∧
      (b.sock.state = .established → received b' = a.copied.take b'.sock.expectSeq.toNat) := by
  have hlen := h.unacked
  obtain ⟨r, rfl, hcases⟩ := handled_data b.sock hp.flags
  rw [hp.seq, hp.payload] at hcases
  rw [packetStep_eq hp.sized]
  rcases hcases with ⟨hgt, -⟩ | ⟨heq, u, rfl, hr⟩ | ⟨hne, hr⟩
  · rw [gt_iff_lt, UInt32.lt_iff_toNat_lt] at hgt
    exact absurd h.base_le (Nat.not_le.mpr hgt)
  · have hnext : b.sock.expectSeq + .ofNat (a.copied.drop a.sock.base.toNat).length =
        a.sock.nextseq := by
      apply UInt32.toNat_inj.mp
      have hlt := a.sock.nextseq.toNat_lt
      rw [h.nextseq] at hlt
      rw [← heq, List.length_drop, UInt32.toNat_add, UInt32.toNat_ofNat', h.nextseq]
      omega
    rw [hr, hnext]
    refine ⟨_, _, rfl, rfl, rfl, ?_, rfl, .inl rfl, h.nextseq.le, fun hest => ?_⟩
    · exact h.expectSeq_le.trans h.nextseq.ge
    · have hgot := h.got hest
      have htake : a.copied.take a.sock.nextseq.toNat = a.copied := by
        rw [h.nextseq, List.take_length]
      refine (List.append_assoc _ _ _).symm.trans (Eq.trans ?_ htake.symm)
      rw [← heq] at hgot
      refine (congrArg (· ++ a.copied.drop a.sock.base.toNat) hgot).trans ?_
      exact List.take_append_drop _ _
  · rw [hr]
    exact ⟨_, _, rfl, rfl, rfl, le_rfl, rfl, .inr ⟨hne, rfl⟩, h.expectSeq_le, h.got⟩

/-- A sender that has retransmitted. -/
structure Retransmitted (s t : TjuTcp) : Prop where
  state : t.state = s.state
  window : t.window = s.window
  finished : t.finishedHandshake = s.finishedHandshake
  counts : t.timeoutCounts = s.timeoutCounts + 1
  timer : t.rttTimer = ⟨true, true⟩

/-- **The sender's timer handler** sends everything that is not acknowledged, in one packet. -/
theorem Linked.retransmit (h : Linked a b) (hr : Repairing a)
    (hsize : a.copied.length ≤ tcpSendWindowSize) : ∃ t p src,
    tcpWriteTimerHandler a.sock = .ret (t, [p]) ∧ sendToLayer3 p = some p ∧
      Built p src a.sock.base Flag.noFlag (a.copied.drop a.sock.base.toNat) ∧
      Retransmitted a.sock t := by
  have hunacked := h.unacked
  have hshort := hr.short
  rw [maxLen, headerLen] at hshort
  have hroom : a.sock.base.toNat + (a.sock.nextseq - a.sock.base).toNat ≤
      a.sock.window.wndSend.sendWindows.size := by
    rw [hunacked, h.size]
    exact hsize
  have hdata : headerLen + (a.copied.drop a.sock.base.toNat).length ≤ maxLen := by
    rw [List.length_drop, headerLen, maxLen]
    omega
  obtain ⟨_, _, _, u, hretr⟩ := retransmission_eq (hshort.trans (by decide)) hroom
  rw [h.read] at hretr
  have hbuilt := dataPkt_built u a.sock.base 1 (hdata.trans_lt (by decide))
  have hhandler : tcpWriteTimerHandler a.sock =
      tcpRetransmitTimer (countTimeout (handleLossAck a.sock)) :=
    tcpWriteTimerHandler_retransmits hr.state hr.finished hr.counts
  exact ⟨_, _, _, hhandler.trans hretr, hbuilt.sendToLayer3 hdata, hbuilt, rfl, rfl, rfl, rfl, rfl⟩

/-- **The answer** tells the sender where the receiver stands. -/
theorem Retransmitted.answer {t : TjuTcp} (ht : Retransmitted a.sock t) (handed : List Buf)
    {p : Buf} {src : UInt16} {seq : UInt32} (hp : Built p src seq Flag.ack []) : ∃ a',
    packetStep { a with sock := t, handed } p = .ret a' ∧ a'.copied = a.copied ∧
      a'.sock.base = seq ∧ a'.sock.nextseq = a.sock.nextseq ∧
      a'.sock.window.wndSend.sendWindows = a.sock.window.wndSend.sendWindows ∧
      a'.sock.state = a.sock.state ∧ a'.sock.finishedHandshake = a.sock.finishedHandshake ∧
      a'.sock.timeoutCounts = a.sock.timeoutCounts + 1 ∧
      (seq = a.sock.nextseq → a'.sock.rttTimer = ⟨false, false⟩) := by
  have hnext : t.nextseq = a.sock.nextseq := congrArg (fun w => w.wndSend.nextseq) ht.window
  obtain ⟨_, _, _, hack⟩ := handled_ack t hp.flags
  rw [packetStep_eq hp.sized, hack, hp.seq]
  refine ⟨_, rfl, rfl, rfl, hnext, congrArg (fun w => w.wndSend.sendWindows) ht.window, ht.state,
    ht.finished, ht.counts, fun hall => ?_⟩
  have htimer : ackedTimer t seq = ⟨false, false⟩ := by
    rw [ackedTimer, if_pos (hall.trans hnext.symm), ht.timer]
    rfl
  exact htimer

/-- What one round leaves: the sender knows where the receiver stands, and either the receiver has
everything, or the sender had not known. -/
structure Round (a b a' b' : EndState) : Prop where
  linked : Linked a' b'
  copied : a'.copied = a.copied
  nextseq : a'.sock.nextseq = a.sock.nextseq
  base : a'.sock.base = b'.sock.expectSeq
  grows : a.sock.base.toNat ≤ a'.sock.base.toNat
  done : b'.sock.expectSeq = a.sock.nextseq ∨
    a.sock.base ≠ b.sock.expectSeq ∧ b'.sock.expectSeq = b.sock.expectSeq
  state : a'.sock.state = .established
  receiver : b'.sock.state = b.sock.state
  finished : a'.sock.finishedHandshake = a.sock.finishedHandshake
  counts : a'.sock.timeoutCounts = a.sock.timeoutCounts + 1
  stopped : a'.sock.base = a'.sock.nextseq → a'.sock.rttTimer = ⟨false, false⟩

/-- **One round.** -/
theorem Linked.round (h : Linked a b) (hr : Repairing a)
    (hsize : a.copied.length ≤ tcpSendWindowSize) :
    ∃ a' b', repairRound (a, b) = .ret (a', b') ∧ Round a b a' b' := by
  obtain ⟨t, p, src, hhandler, hout, hbuilt, ht⟩ := h.retransmit hr hsize
  obtain ⟨b', v, hpacket, hhanded, hexp, hgrows, hst, hdone, hle, hgot⟩ := h.receive hbuilt
  have hnew : (b'.handed.drop b.handed.length).filterMap sendToLayer3 = [tcpSendAck v] := by
    rw [hhanded, List.drop_left]
    exact filterMap_sendToLayer3_control _ _ _ _ _
  have hack := controlPkt_built v v.expectSeq v.expectSeq Flag.ack (advWnd v)
  obtain ⟨a', hanswer, hcopied, hbase, hnext, hwindows, hstate, hfin, hcounts, hstopped⟩ :=
    ht.answer (a.handed ++ [p]) hack
  rw [hexp] at hbase hstopped
  refine ⟨a', b', ?_, ⟨?_, ?_, ?_, ?_, ?_, ?_⟩, hcopied, hnext, hbase, ?_, hdone,
    hstate.trans hr.state, hst, hfin, hcounts, fun hall => ?_⟩
  · rw [repairRound, hhandler]
    simp only [Outcome.ret_bind, List.filterMap_cons_some hout, List.filterMap_nil, hpacket, hnew]
    rw [show packetStep _ (tcpSendAck v) = _ from hanswer]
    rfl
  · rw [hnext, hcopied, h.nextseq]
  · rw [hwindows, hcopied]
    exact h.holds
  · rw [hwindows]
    exact h.size
  · rw [hbase]
  · rw [hcopied]
    exact hle
  · rw [hcopied, hst]
    exact hgot
  · rw [hbase]
    exact h.base_le.trans hgrows
  · exact hstopped (hbase.symm.trans (hall.trans hnext))

end Round

/-! ## Two rounds -/

section Two

variable {a b a' b' : EndState}

theorem repair_done {p : EndState × EndState} (h : p.1.sock.base = p.1.sock.nextseq) (n : ℕ) :
    repair n p = .ret p := by
  cases n with
  | zero => exact if_pos h
  | succ n => exact if_pos h

theorem repair_round (hne : a.sock.base ≠ a.sock.nextseq)
    (h : repairRound (a, b) = .ret (a', b')) (n : ℕ) :
    repair (n + 1) (a, b) = repair n (a', b') := by
  rw [repair, if_neg (by exact hne), h]
  rfl

/-- **A second round may follow**: it has no more to send, and the limit is not reached. -/
theorem Round.repairing (h : Round a b a' b') (hlinked : Linked a b) (hr : Repairing a)
    (hcounts : a.sock.timeoutCounts ≤ 9) : Repairing a' := by
  refine ⟨h.state, h.finished ▸ hr.finished, ?_, ?_⟩
  · rw [h.counts, retransmitLimit, gt_iff_lt, UInt8.lt_iff_toNat_lt, UInt8.toNat_add]
    rw [UInt8.le_iff_toNat_le] at hcounts
    have hnine : (9 : UInt8).toNat = 9 := rfl
    have hten : (10 : UInt8).toNat = 10 := rfl
    have hone : (1 : UInt8).toNat = 1 := rfl
    omega
  · have hold := hlinked.unacked
    have hnew := h.linked.unacked
    have hgrows := h.grows
    have hshort := hr.short
    rw [h.copied] at hnew
    omega

/-- **What a round that has repaired everything leaves.** -/
theorem Round.repaired (h : Round a b a' b') (hall : a'.sock.base = a'.sock.nextseq) :
    b'.sock.expectSeq = a'.sock.nextseq ∧ a'.sock.rttTimer = ⟨false, false⟩ ∧
      (b.sock.state = .established → received b' = a.copied) := by
  have hexp : b'.sock.expectSeq = a'.sock.nextseq := h.base.symm.trans hall
  refine ⟨hexp, h.stopped hall, fun hest => ?_⟩
  rw [h.linked.got (h.receiver.trans hest), hexp, h.linked.nextseq, List.take_length, h.copied]

end Two

/-- **Two loss-free rounds repair any loss.**  Whatever has been lost, repeated or reordered: if
what is not acknowledged fits into one packet and the sender may retransmit twice, two rounds at
most bring the receiver everything and the sender its acknowledgement. -/
theorem repair_two {l : Link} (h : Reachable linkStep LinkStart l) (x : Side)
    (hest : (l x).sock.state = .established) (hfin : (l x).sock.finishedHandshake = 1)
    (hcounts : (l x).sock.timeoutCounts ≤ 9)
    (hsize : (l x).sock.nextseq.toNat ≤ tcpSendWindowSize)
    (hne : 0 < (l x).sock.nextseq - (l x).sock.base)
    (hshort : ((l x).sock.nextseq - (l x).sock.base).toNat ≤ maxLen - headerLen) :
    ∃ a b, repair 2 (l x, l x.other) = .ret (a, b) ∧ a.sock.base = a.sock.nextseq ∧
      b.sock.expectSeq = a.sock.nextseq ∧ a.sock.rttTimer = ⟨false, false⟩ ∧
      a.copied = (l x).copied ∧
      ((l x.other).sock.state = .established → received b = (l x).copied) := by
  have hlinked := linked_of_reachable h x
  have hbase : (l x).sock.base ≠ (l x).sock.nextseq := by
    intro heq
    rw [heq, UInt32.sub_self] at hne
    nomatch hne
  have hr : Repairing (l x) := by
    refine ⟨hest, by rw [hfin]; decide, fun hgt => ?_, hshort⟩
    have hle := UInt8.lt_of_lt_of_le hgt hcounts
    exact absurd hle (by decide)
  rw [hlinked.nextseq] at hsize
  obtain ⟨a, b, hround, hab⟩ := hlinked.round hr hsize
  rw [repair_round hbase hround]
  by_cases hall : a.sock.base = a.sock.nextseq
  · obtain ⟨hexp, hstopped, hgot⟩ := hab.repaired hall
    exact ⟨a, b, repair_done hall 1, hall, hexp, hstopped, hab.copied, hgot⟩
  · have hsize' : a.copied.length ≤ tcpSendWindowSize := hab.copied ▸ hsize
    obtain ⟨a', b', hround', hab'⟩ := hab.linked.round (hab.repairing hlinked hr hcounts) hsize'
    -- the first round has told the sender where the receiver stands
    have hdone : b'.sock.expectSeq = a.sock.nextseq :=
      hab'.done.resolve_right fun hbehind => hbehind.1 hab.base
    have hall' : a'.sock.base = a'.sock.nextseq :=
      hab'.base.trans (hdone.trans hab'.nextseq.symm)
    obtain ⟨hexp, hstopped, hgot⟩ := hab'.repaired hall'
    rw [repair_round hall hround']
    exact ⟨a', b', repair_done hall' 0, hall', hexp, hstopped, hab'.copied.trans hab.copied,
      fun hserver => (hgot (hab.receiver.trans hserver)).trans hab.copied⟩

set_option synthInstance.maxSize 512 in
/-- A run in which two bytes arrive, their acknowledgement is lost, and so is the third byte: the
first round brings the acknowledgement, the second the byte. -/
theorem repair_two_three : ∃ (l : Link) (a b : EndState), Reachable linkStep LinkStart l ∧
    (l .client).sock.base = 0 ∧ (l .server).sock.expectSeq = 2 ∧
    repair 2 (l .client, l .server) = .ret (a, b) ∧ a.sock.base = a.sock.nextseq ∧
    received b = (l .client).copied := by
  have hrun : (run linkStep zeroedLink [.call .client (.send [1, 2]), .call .client .stream,
      .deliver .server 0, .call .client .timeout, .call .client (.send [3]),
      .call .client .stream] >>= fun l => .ret ((l .client).sock.state,
        (l .client).sock.finishedHandshake, (l .client).sock.timeoutCounts,
        (l .client).sock.nextseq, (l .client).sock.base, (l .server).sock.expectSeq,
        (l .server).sock.state)) = .ret (.established, 1, 0, 3, 0, 2, .established) := by decide
  obtain ⟨l, hl, hret⟩ := Outcome.bind_eq_ret.mp hrun
  obtain ⟨hest, hfin, hcounts, hnext, hbase, hexp, hserver⟩ : _ ∧ _ ∧ _ ∧ _ ∧ _ ∧ _ ∧ _ := by
    simpa using hret
  have hreach := Reachable.after (.init linkStart_zeroedLink) hl
  obtain ⟨a, b, hrepair, hall, -, -, -, hgot⟩ := repair_two hreach .client hest hfin
    (by rw [hcounts]; decide) (by rw [hnext]; decide) (by rw [hnext, hbase]; decide)
    (by rw [hnext, hbase]; decide)
  exact ⟨l, a, b, hreach, hbase, hexp, hrepair, hall, hgot hserver⟩

end TrivalTcp
