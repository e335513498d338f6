import TrivalTcp.Transfer.Link

/-!
# Transfer/Delivery — the Go-Back-N transfer refines the cumulative-acknowledgement flow

Each direction of a link is a `CumulativeAck.Flow`.  `EndOk` says what one end is in terms of the
flow it sends and the flow it receives; `callStep_reaches` and `packetStep_reaches` that whatever an
end does is a number of the flows' own steps; `Simulates` is the two put together.  Safety of the
flows then is safety of the code: `delivery_safety` for the bytes, `no_premature_ack` for the
sequence numbers.
-/

namespace TrivalTcp

open CumulativeAck

/-! ## One end against its two flows -/

/-- **An end, seen from the two streams it takes part in**: it is the sender of `fout` and the
receiver of `fin`. -/
structure EndOk (a : EndState) (fout fin : Flow UInt8) : Prop where
  stream : fout.stream = a.copied
  base : fout.base = a.sock.base.toNat
  nextseq : a.copied.length = a.sock.nextseq.toNat
  holds : a.sock.window.wndSend.sendWindows.Holds a.copied
  size : a.sock.window.wndSend.sendWindows.size = tcpSendWindowSize
  expectSeq : fin.got.length = a.sock.expectSeq.toNat
  received : a.sock.state = .established → fin.got = a.returned ++ a.sock.receivedBuf
  handed : ∀ pkt ∈ a.handed, Emitted fout fin pkt

/-- The two sockets agree on what an end is to the flows. -/
structure SameFlow (s t : TjuTcp) : Prop where
  base : t.base = s.base
  nextseq : t.nextseq = s.nextseq
  sendWindows : t.window.wndSend.sendWindows = s.window.wndSend.sendWindows
  expectSeq : t.expectSeq = s.expectSeq
  received : t.state = .established → s.state = .established ∧ t.receivedBuf = s.receivedBuf

theorem SameFlow.trans {s t u : TjuTcp} (h : SameFlow s t) (k : SameFlow t u) : SameFlow s u where
  base := k.base.trans h.base
  nextseq := k.nextseq.trans h.nextseq
  sendWindows := k.sendWindows.trans h.sendWindows
  expectSeq := k.expectSeq.trans h.expectSeq
  received hu :=
    have ⟨ht, hbuf⟩ := k.received hu
    ⟨(h.received ht).1, hbuf.trans (h.received ht).2⟩

theorem sameFlow_setRwnd (s : TjuTcp) (v : UInt16) : SameFlow s (s.setRwnd v) :=
  ⟨rfl, rfl, rfl, rfl, fun h => ⟨h, rfl⟩⟩

theorem sameFlow_handleSuccessAck (s : TjuTcp) : SameFlow s (handleSuccessAck s) := by
  obtain ⟨_, _, h⟩ := handleSuccessAck_eq s
  rw [h]
  exact ⟨rfl, rfl, rfl, rfl, fun h => ⟨h, rfl⟩⟩

theorem sameFlow_handleLossAck (s : TjuTcp) : SameFlow s (handleLossAck s) := by
  obtain ⟨_, _, _, h⟩ := handleLossAck_eq s
  rw [h]
  exact ⟨rfl, rfl, rfl, rfl, fun h => ⟨h, rfl⟩⟩

theorem sameFlow_tcpStartTimer (s : TjuTcp) : SameFlow s (tcpStartTimer s) := by
  rw [tcpStartTimer_eq]
  exact ⟨rfl, rfl, rfl, rfl, fun h => ⟨h, rfl⟩⟩

namespace EndOk

variable {a : EndState} {fout fin fout' fin' : Flow UInt8}

theorem sock (h : EndOk a fout fin) {s : TjuTcp} (hs : SameFlow a.sock s) :
    EndOk { a with sock := s } fout fin where
  stream := h.stream
  base := h.base.trans (congrArg UInt32.toNat hs.base.symm)
  nextseq := h.nextseq.trans (congrArg UInt32.toNat hs.nextseq.symm)
  holds := by
    rw [show s.window.wndSend.sendWindows = _ from hs.sendWindows]
    exact h.holds
  size := (congrArg Block.size hs.sendWindows).trans h.size
  expectSeq := h.expectSeq.trans (congrArg UInt32.toNat hs.expectSeq.symm)
  received he :=
    have ⟨he, hbuf⟩ := hs.received he
    (h.received he).trans (congrArg _ hbuf.symm)
  handed := h.handed

/-- An end does not depend on how much more is in flight. -/
theorem mono (h : EndOk a fout fin) (hstream : fout'.stream = fout.stream)
    (hbase : fout'.base = fout.base) (hdata : fout.data ⊆ fout'.data) (hgot : fin'.got = fin.got)
    (hacks : fin.acks ⊆ fin'.acks) : EndOk a fout' fin' where
  stream := hstream.trans h.stream
  base := hbase.trans h.base
  nextseq := h.nextseq
  holds := h.holds
  size := h.size
  expectSeq := (congrArg List.length hgot).trans h.expectSeq
  received he := hgot.trans (h.received he)
  handed pkt hpkt := (h.handed pkt hpkt).mono hdata hacks

theorem emit (h : EndOk a fout fin) {pkt : Buf} (hpkt : Emitted fout fin pkt) :
    EndOk { a with handed := a.handed ++ [pkt] } fout fin where
  stream := h.stream
  base := h.base
  nextseq := h.nextseq
  holds := h.holds
  size := h.size
  expectSeq := h.expectSeq
  received := h.received
  handed p hp := by
    rcases List.mem_append.mp hp with hp | hp
    · exact h.handed p hp
    · rwa [List.mem_singleton.mp hp]

end EndOk

/-! ## What an end does, as steps of the flows -/

/-- The end is reached from the two flows by steps of its own. -/
def Reaches (a : EndState) (fout fin : Flow UInt8) : Prop :=
  ∃ fout' fin', Sends fout fout' ∧ Recvs fin fin' ∧ EndOk a fout' fin'

theorem EndOk.reaches {a : EndState} {fout fin : Flow UInt8} (h : EndOk a fout fin) :
    Reaches a fout fin := ⟨fout, fin, .refl, .refl, h⟩

section Emission

variable {a : EndState} {fout fin : Flow UInt8}

/-- Handing on a packet that is no acknowledgement and has no payload. -/
theorem EndOk.emitControl (h : EndOk a fout fin) (s : TjuTcp) (seq ack : UInt32) {flags : UInt8}
    (adv : UInt16) (hf : flags ≠ Flag.ack) :
    Reaches { a with handed := a.handed ++ [controlPkt s seq ack flags adv] } fout fin := by
  have hs : SendStep fout { fout with data := insert (seq.toNat, []) fout.data } :=
    .transmit fout List.nil_prefix
  have hok : EndOk a { fout with data := insert (seq.toNat, []) fout.data } fin :=
    h.mono rfl rfl (Set.subset_insert _ _) rfl subset_rfl
  exact ⟨_, fin, .single hs, .refl, hok.emit (controlPkt_emitted s ack adv hf (Set.mem_insert _ _))⟩

/-- Handing on an acknowledgement. -/
theorem EndOk.emitAck (h : EndOk a fout fin) (s : TjuTcp) (hs : s.expectSeq = a.sock.expectSeq) :
    Reaches { a with handed := a.handed ++ [tcpSendAck s] } fout fin := by
  have hok : EndOk a fout { fin with acks := insert fin.got.length fin.acks } :=
    h.mono rfl rfl subset_rfl rfl (Set.subset_insert _ _)
  refine ⟨fout, _, .refl, .single (.acknowledge fin), hok.emit (tcpSendAck_emitted s ?_)⟩
  rw [hs, ← h.expectSeq]
  exact Set.mem_insert _ _

/-- Handing on a chunk of the stream. -/
theorem EndOk.emitData (h : EndOk a fout fin) (s : TjuTcp) {seq : UInt32} (adv : UInt16) {buf : Buf}
    (hbuf : buf <+: fout.stream.drop seq.toNat) :
    Reaches { a with handed := a.handed ++ [dataPkt s seq adv buf] } fout fin := by
  obtain ⟨b, hb, hpkt⟩ := dataPkt_emitted s seq adv buf
  have hs : SendStep fout { fout with data := insert (seq.toNat, b) fout.data } :=
    .transmit fout (hb.trans hbuf)
  have hok : EndOk a { fout with data := insert (seq.toNat, b) fout.data } fin :=
    h.mono rfl rfl (Set.subset_insert _ _) rfl subset_rfl
  exact ⟨_, fin, .single hs, .refl, hok.emit (hpkt _ _ (Set.mem_insert _ _))⟩

end Emission

/-! ## The functions of an end -/

theorem Reaches.of_sends {a : EndState} {fout fin fout' : Flow UInt8} (h : Reaches a fout' fin)
    (hs : Sends fout fout') : Reaches a fout fin := by
  obtain ⟨g, k, hg, hk, hok⟩ := h
  exact ⟨g, k, hs.trans hg, hk, hok⟩

theorem Reaches.of_recvs {a : EndState} {fout fin fin' : Flow UInt8} (h : Reaches a fout fin')
    (hs : Recvs fin fin') : Reaches a fout fin := by
  obtain ⟨g, k, hg, hk, hok⟩ := h
  exact ⟨g, k, hg, hs.trans hk, hok⟩

section Calls

variable {a : EndState} {fout fin : Flow UInt8}

/-- The socket a call leaves, with nothing handed on. -/
theorem EndOk.quiet (h : EndOk a fout fin) {s : TjuTcp} (hs : SameFlow a.sock s) :
    Reaches { a with sock := s, handed := a.handed ++ [] } fout fin := by
  rw [List.append_nil]
  exact (h.sock hs).reaches

theorem tcpSend_reaches (h : EndOk a fout fin) {buffer : Buf} {s : TjuTcp} {status : ℤ}
    (hs : tcpSend a.sock buffer = .ret (s, status)) (accepted : Buf) :
    Reaches { a with sock := s, accepted } fout fin := by
  have hsame : SameFlow a.sock s := by
    rcases tcpSend_cases hs with ⟨rfl, -⟩ | ⟨rfl, -⟩
    · exact ⟨rfl, rfl, rfl, rfl, fun h => ⟨h, rfl⟩⟩
    · exact ⟨rfl, rfl, rfl, rfl, fun h => ⟨h, rfl⟩⟩
  have hok := h.sock hsame
  exact EndOk.reaches ⟨hok.stream, hok.base, hok.nextseq, hok.holds, hok.size, hok.expectSeq,
    hok.received, hok.handed⟩

theorem tcpRecv_reaches (h : EndOk a fout fin) {len : ℕ} {s : TjuTcp} {bytes : Buf}
    (hs : tcpRecv a.sock len = .ret (s, bytes)) :
    Reaches { a with sock := s, returned := a.returned ++ bytes } fout fin := by
  obtain ⟨rest, hbuf, rfl⟩ := tcpRecv_cases hs
  refine EndOk.reaches ⟨h.stream, h.base, h.nextseq, h.holds, h.size, h.expectSeq, fun he => ?_,
    h.handed⟩
  refine (h.received he).trans ?_
  rw [hbuf, ← List.append_assoc]
  rfl

/-- **A chunk that is sent** extends the stream, and is transmitted at its offset. -/
theorem sendChunk_reaches (h : EndOk a fout fin) {buf : Buf} {r : Sent}
    (hs : sendChunk a.sock buf = .ret r) :
    Reaches { a with sock := r.sock, handed := a.handed ++ r.packets, copied := a.copied ++ r.copied }
      fout fin := by
  rcases sendChunk_cases hs with ⟨-, rfl⟩ | ⟨-, hsize, t, msg, rfl, rfl, rfl⟩
  · rw [List.append_nil, List.append_nil]
    exact h.reaches
  · have hnext : (a.copied ++ buf).length = (a.sock.nextseq + .ofNat buf.length).toNat := by
      rw [h.size, tcpSendWindowSize, maxDlen] at hsize
      rw [List.length_append, h.nextseq, UInt32.toNat_add, UInt32.toNat_ofNat']
      omega
    have hholds := Block.holds_write h.holds buf
    rw [h.nextseq] at hholds
    have hext : EndOk
        { a with
          sock := (a.sock.copyToSendWindows a.sock.nextseq.toNat buf).setNextseq
            (a.sock.nextseq + .ofNat buf.length)
          copied := a.copied ++ buf }
        { fout with stream := fout.stream ++ buf } fin :=
      { stream := congrArg (· ++ buf) h.stream
        base := h.base
        nextseq := hnext
        holds := hholds
        size := h.size
        expectSeq := h.expectSeq
        received := h.received
        handed := fun pkt hpkt => (h.handed pkt hpkt).mono subset_rfl subset_rfl }
    have hdrop : (fout.stream ++ buf).drop a.sock.nextseq.toNat = buf := by
      rw [h.stream, ← h.nextseq, List.drop_left]
    have hslice : buf <+: (fout.stream ++ buf).drop a.sock.nextseq.toNat :=
      hdrop.symm ▸ List.prefix_rfl
    have hsame : SameFlow ((a.sock.copyToSendWindows a.sock.nextseq.toNat buf).setNextseq
        (a.sock.nextseq + .ofNat buf.length))
        ((if a.sock.nextseq = a.sock.base
          then tcpStartTimer (a.sock.copyToSendWindows a.sock.nextseq.toNat buf)
          else a.sock.copyToSendWindows a.sock.nextseq.toNat buf).setNextseq
        (a.sock.nextseq + .ofNat buf.length)) := by
      rw [tcpStartTimer_eq]
      split_ifs <;> exact ⟨rfl, rfl, rfl, rfl, fun h => ⟨h, rfl⟩⟩
    exact ((hext.sock hsame).emitData _ _ hslice).of_sends (.single (.extend fout buf))

theorem tcpSendStream_reaches (h : EndOk a fout fin) {r : Sent}
    (hs : tcpSendStream a.sock = .ret r) :
    Reaches { a with sock := r.sock, handed := a.handed ++ r.packets, copied := a.copied ++ r.copied }
      fout fin := by
  rcases tcpSendStream_cases hs with ⟨-, rfl⟩ | ⟨-, -, hchunk⟩
  · rw [List.append_nil, List.append_nil]
    exact h.reaches
  · have hok : EndOk { a with sock := a.sock.setSendingBuf [] } fout fin :=
      h.sock ⟨rfl, rfl, rfl, rfl, fun h => ⟨h, rfl⟩⟩
    exact sendChunk_reaches hok hchunk

/-- **A retransmission is a slice of the stream**, wherever `base` stands: from beyond `nextseq`, it
does not return. -/
theorem tcpRetransmitTimer_reaches (h : EndOk a fout fin) {s : TjuTcp} {packets : List Buf}
    (hs : tcpRetransmitTimer a.sock = .ret (s, packets)) :
    Reaches { a with sock := s, handed := a.handed ++ packets } fout fin := by
  obtain ⟨hroom, rfl, rfl⟩ := tcpRetransmitTimer_cases hs
  have hle : a.sock.base.toNat ≤ a.sock.nextseq.toNat := by
    by_contra hlt
    have hnext := a.sock.nextseq.toNat_lt
    have hbase := a.sock.base.toNat_lt
    rw [h.size, tcpSendWindowSize, maxDlen, UInt32.toNat_sub] at hroom
    omega
  have hlen : a.sock.base.toNat + (a.sock.nextseq - a.sock.base).toNat = a.copied.length := by
    rw [UInt32.toNat_sub_of_le _ _ (UInt32.le_iff_toNat_le.mpr hle), h.nextseq]
    exact Nat.add_sub_cancel' hle
  have hslice : (a.copied.drop a.sock.base.toNat).take (a.sock.nextseq - a.sock.base).toNat <+:
      fout.stream.drop a.sock.base.toNat := by
    rw [h.stream]
    exact List.take_prefix _ _
  rw [Block.read_of_holds h.holds hlen.le]
  exact (h.sock (sameFlow_tcpStartTimer a.sock)).emitData _ _ hslice

theorem timerExpiry_reaches (h : EndOk a fout fin) {s : TjuTcp} {packets : List Buf}
    (hs : timerExpiry a.sock = .ret (s, packets)) :
    Reaches { a with sock := s, handed := a.handed ++ packets } fout fin := by
  have hexp : EndOk { a with sock := disarm a.sock } fout fin :=
    h.sock ⟨rfl, rfl, rfl, rfl, fun h => ⟨h, rfl⟩⟩
  rcases tcpWriteTimerHandler_cases hs with ⟨-, rfl, rfl⟩ | ⟨-, rfl, rfl⟩ | ⟨-, -, rfl, rfl⟩ |
    ⟨-, -, -, hclose⟩ | ⟨-, -, -, hretr⟩ | ⟨-, rfl, rfl⟩
  · exact (hexp.sock (sameFlow_tcpStartTimer _)).emitControl _ _ _ _ (by decide)
  · exact (hexp.sock (sameFlow_tcpStartTimer _)).emitControl _ _ _ _ (by decide)
  · have hok : EndOk { a with sock := finishHandshake (disarm a.sock) } fout fin :=
      hexp.sock ⟨rfl, rfl, rfl, rfl, fun h => ⟨h, rfl⟩⟩
    exact hok.emitAck _ rfl
  · obtain ⟨rfl, rfl⟩ := Prod.mk.inj hclose
    have hok : EndOk { a with sock := { disarm a.sock with receivedBuf := [], state := .finWait1 } }
        fout fin := hexp.sock ⟨rfl, rfl, rfl, rfl, nofun⟩
    exact hok.emitControl _ _ _ _ (by decide)
  · have hok : EndOk { a with sock := countTimeout (handleLossAck (disarm a.sock)) } fout fin :=
      (hexp.sock (sameFlow_handleLossAck _)).sock ⟨rfl, rfl, rfl, rfl, fun h => ⟨h, rfl⟩⟩
    exact tcpRetransmitTimer_reaches hok hretr
  · exact h.quiet ⟨rfl, rfl, rfl, rfl, fun h => ⟨h, rfl⟩⟩

/-- **Whatever an end does on its own is a number of steps of the two flows.** -/
theorem callStep_reaches (h : EndOk a fout fin) {c : Call} {a' : EndState}
    (hs : callStep a c = .ret a') : Reaches a' fout fin := by
  cases c with
  | send buffer =>
    obtain ⟨⟨s, status⟩, hsend, hret⟩ := Outcome.bind_eq_ret.mp hs
    obtain rfl := Outcome.ret.inj hret
    exact tcpSend_reaches h hsend _
  | stream =>
    obtain ⟨r, hstream, rfl⟩ := callStep_stream_eq_ret hs
    exact tcpSendStream_reaches h hstream
  | timeout =>
    obtain ⟨s, packets, hexp, rfl⟩ := callStep_timeout_eq_ret hs
    exact timerExpiry_reaches h hexp
  | recv len =>
    obtain ⟨⟨s, bytes⟩, hrecv, hret⟩ := Outcome.bind_eq_ret.mp hs
    obtain rfl := Outcome.ret.inj hret
    exact tcpRecv_reaches h hrecv

/-! ## A packet arrives -/

theorem sameFlow_ackTimer (s : TjuTcp) : SameFlow s (ackTimer s) := by
  obtain ⟨_, _, h⟩ := ackTimer_eq s
  rw [h]
  exact ⟨rfl, rfl, rfl, rfl, fun h => ⟨h, rfl⟩⟩

/-- `base = seq`, of an acknowledgement in flight. -/
theorem EndOk.advance (h : EndOk a fout fin) (seq : UInt32) :
    EndOk { a with sock := a.sock.setBase seq } { fout with base := seq.toNat } fin where
  stream := h.stream
  base := rfl
  nextseq := h.nextseq
  holds := h.holds
  size := h.size
  expectSeq := h.expectSeq
  received := h.received
  handed := h.handed

/-- **A payload that starts at `expect_seq`** goes to the end of what the end has accepted. -/
theorem EndOk.accept (h : EndOk a fout fin) {payload : Buf}
    (hlt : fin.got.length + payload.length < 2 ^ 32) :
    EndOk
      { a with
        sock := (a.sock.setExpectSeq (a.sock.expectSeq + .ofNat payload.length)).setReceivedBuf
          (a.sock.receivedBuf ++ payload) }
      fout { fin with got := fin.got ++ payload } where
  stream := h.stream
  base := h.base
  nextseq := h.nextseq
  holds := h.holds
  size := h.size
  expectSeq := by
    have hsum : (a.sock.expectSeq + .ofNat payload.length).toNat
        = a.sock.expectSeq.toNat + payload.length := by
      rw [h.expectSeq] at hlt
      rw [UInt32.toNat_add, UInt32.toNat_ofNat']
      omega
    rw [List.length_append, h.expectSeq]
    exact hsum.symm
  received he := (congrArg (· ++ payload) (h.received he)).trans (List.append_assoc _ _ _)
  handed pkt hpkt := (h.handed pkt hpkt).mono subset_rfl subset_rfl

/-- **Whatever an end does with a packet the other end has sent is a number of steps of the two
flows.** -/
theorem tjuHandlePacket_reaches (h : EndOk a fout fin) (hdel : Delivers fin)
    (hlt : fin.stream.length < 2 ^ 32) {pkt : Buf} (hpkt : Emitted fin fout pkt) {s : TjuTcp}
    {packets : List Buf} (hs : tjuHandlePacket a.sock pkt = .ret (s, packets)) :
    Reaches { a with sock := s, handed := a.handed ++ packets } fout fin := by
  rcases hpkt with hshort | ⟨h', payload, rfl, hh, hp, hsays⟩
  · rw [tjuHandlePacket, if_pos hshort] at hs
    contradiction
  obtain ⟨r, hr, hcases⟩ := tjuHandlePacket_cases hh hp hs
  have hok : EndOk { a with sock := r } fout fin := h.sock (hr ▸ sameFlow_setRwnd _ _)
  have hexp : r.expectSeq.toNat = fin.got.length := hok.expectSeq.symm
  rcases hcases with ⟨-, rfl, rfl⟩ | ⟨-, rfl, rfl⟩ | ⟨hack, rfl, u, rfl, rfl⟩ | ⟨-, -, rfl, rfl⟩ |
    ⟨hack, hseq, u, rfl, rfl, rfl⟩ | ⟨-, -, rfl, rfl⟩
  · exact hok.emitControl _ _ _ _ (by decide)
  · exact hok.quiet ⟨rfl, rfl, rfl, rfl, fun h => ⟨h, rfl⟩⟩
  · rw [if_pos hack] at hsays
    obtain ⟨rfl, hmem⟩ := hsays
    rw [List.append_nil]
    have hadv := (hok.sock (sameFlow_handleSuccessAck r)).advance h'.seqNum
    exact (hadv.quiet (sameFlow_ackTimer _)).of_sends (.single (.advance fout hmem))
  · exact hok.quiet ⟨rfl, rfl, rfl, rfl, fun h => ⟨h, rfl⟩⟩
  · rw [if_neg hack, hseq, hexp] at hsays
    have hacc := hok.accept ((hdel.accept_le hsays).trans_lt hlt)
    have hemit := hacc.emitAck (r.setExpectSeq (r.expectSeq + .ofNat payload.length)) rfl
    exact hemit.of_recvs (.single (.accept fin hsays))
  · exact hok.emitAck _ rfl

end Calls

/-! ## The link -/

/-- **A link, seen as two flows**: the end at `x` sends the flow `f x` and receives the other. -/
def Simulates (l : Link) (f : Side → Flow UInt8) : Prop := ∀ x, EndOk (l x) (f x) (f x.other)

/-- The same, said of the other end. -/
theorem Simulates.peer {l : Link} {f : Side → Flow UInt8} (h : Simulates l f) (x : Side) :
    EndOk (l x.other) (f x.other) (f x) := by
  have hpeer := h x.other
  rwa [Side.other_other] at hpeer

theorem simulates_start {l : Link} (h : LinkStart l) : Simulates l fun _ => Flow.initial := by
  intro x
  obtain ⟨s, hs, hsize, hx⟩ := h x
  rw [hx]
  exact
    { stream := rfl
      base := (congrArg UInt32.toNat hs.base).symm
      nextseq := (congrArg UInt32.toNat hs.nextseq).symm
      holds := Block.holds_nil _
      size := hsize
      expectSeq := (congrArg UInt32.toNat hs.expectSeq).symm
      received := fun _ => hs.received.symm
      handed := fun _ hpkt => absurd hpkt List.not_mem_nil }

/-- **One end's steps, seen from the whole link**: the other end sees more in flight, and nothing
else. -/
theorem Simulates.update {l : Link} {f : Side → Flow UInt8} (h : Simulates l f) {x : Side}
    {a : EndState} (hx : Reaches a (f x) (f x.other)) :
    ∃ f', (∀ y, Steps (f y) (f' y)) ∧ Simulates (Function.update l x a) f' := by
  obtain ⟨fout, fin, hout, hin, hok⟩ := hx
  obtain ⟨hgot, hacks, hdata⟩ := hout.frame
  obtain ⟨hstream, hbase, hdata', hacks'⟩ := hin.frame
  have hpeer := (h.peer x).mono hstream hbase hdata'.ge hgot hacks.ge
  obtain ⟨f', hself, hpart⟩ : ∃ f' : Side → Flow UInt8, f' x = fout ∧ f' x.other = fin :=
    ⟨fun y => if y = x then fout else fin, if_pos rfl, if_neg x.other_ne⟩
  refine ⟨f', fun y => ?_, fun y => ?_⟩
  · rcases x.eq_or_other y with rfl | rfl
    · exact hself ▸ hout.steps
    · exact hpart ▸ hin.steps
  · rcases x.eq_or_other y with rfl | rfl
    · rw [Function.update_self, hself, hpart]
      exact hok
    · rw [Function.update_of_ne x.other_ne, Side.other_other, hself, hpart]
      exact hpeer

/-- **The refinement**: every step of the link is a number of steps of its two flows. -/
theorem linkStep_simulates_of_delivers {l l' : Link} {f : Side → Flow UInt8} (h : Simulates l f)
    (hdel : ∀ x, Delivers (f x)) {e : LinkEvent} (hs : linkStep l e = .ret l') :
    ∃ f', (∀ y, Steps (f y) (f' y)) ∧ Simulates l' f' := by
  cases e with
  | call x c =>
    obtain ⟨a, hcall, hret⟩ := Outcome.bind_eq_ret.mp hs
    obtain rfl := Outcome.ret.inj hret
    exact h.update (callStep_reaches (h x) hcall)
  | deliver x n =>
    rw [linkStep] at hs
    split at hs
    next => contradiction
    next pkt hpkt =>
      obtain ⟨a, hpacket, hret⟩ := Outcome.bind_eq_ret.mp hs
      obtain rfl := Outcome.ret.inj hret
      obtain ⟨s, packets, hhandle, rfl⟩ := packetStep_eq_ret hpacket
      have hlt : (f x.other).stream.length < 2 ^ 32 := by
        rw [(h.peer x).stream, (h.peer x).nextseq]
        exact UInt32.toNat_lt _
      have hmem := List.mem_of_getElem? hpkt
      exact h.update
        (tjuHandlePacket_reaches (h x) (hdel x.other) hlt ((h.peer x).handed pkt hmem) hhandle)

theorem linkStep_simulates {l l' : Link} {f : Side → Flow UInt8} (h : Simulates l f)
    (hsafe : ∀ x, Safe (f x)) {e : LinkEvent} (hs : linkStep l e = .ret l') :
    ∃ f', (∀ y, Steps (f y) (f' y)) ∧ Simulates l' f' :=
  linkStep_simulates_of_delivers h (fun x => (hsafe x).delivers) hs

/-- Every state a link can get into is a state of two flows, safe like any other. -/
theorem Simulates.of_reachable {l : Link} (h : Reachable linkStep LinkStart l) :
    ∃ f, (∀ x, Safe (f x)) ∧ Simulates l f := by
  have hinit : ∀ l, LinkStart l → ∃ f, (∀ x, Safe (f x)) ∧ Simulates l f :=
    fun _ h0 => ⟨_, fun _ => safe_initial, simulates_start h0⟩
  refine h.invariant hinit fun l e l' hl hs => ?_
  obtain ⟨f, hsafe, hf⟩ := hl
  obtain ⟨f', hsteps, hf'⟩ := linkStep_simulates hf hsafe hs
  exact ⟨f', fun x => (hsteps x).safe (hsafe x), hf'⟩

/-! ## Safety of the code -/

/-- **Go-Back-N delivery safety.**  Whatever the two ends do and whatever the network does to their
packets, what an established end has returned to its caller, followed by what it still holds, is
exactly the first `expect_seq` bytes the other end has sent. -/
theorem delivery_safety {l : Link} (h : Reachable linkStep LinkStart l) (x : Side)
    (hx : (l x).sock.state = .established) :
    (l x).sock.expectSeq.toNat ≤ (l x.other).copied.length ∧
      (l x).returned ++ (l x).sock.receivedBuf
        = (l x.other).copied.take (l x).sock.expectSeq.toNat := by
  obtain ⟨f, hsafe, hf⟩ := Simulates.of_reachable h
  have hend := hf x
  have hpeer := hf.peer x
  constructor
  · rw [← hend.expectSeq, ← hpeer.stream]
    exact (hsafe x.other).got_le
  · rw [← hend.received hx, ← hend.expectSeq, ← hpeer.stream]
    exact (hsafe x.other).got_eq_take

/-- A run in which the client sends three bytes, the server accepts them and returns two. -/
theorem delivery_safety_three : ∃ l, Reachable linkStep LinkStart l ∧
    (l .server).sock.expectSeq = 3 ∧ [1, 2] ++ [3] = (l .client).copied.take 3 := by
  have hrun : (run linkStep zeroedLink [.call .client (.send [1, 2, 3]), .call .client .stream,
      .deliver .server 0, .call .server (.recv 2), .deliver .client 0] >>= fun l =>
        .ret ((l .server).sock.state, (l .server).returned, (l .server).sock.receivedBuf,
          (l .server).sock.expectSeq)) = .ret (.established, [1, 2], [3], 3) := by decide
  obtain ⟨l, hl, hret⟩ := Outcome.bind_eq_ret.mp hrun
  obtain ⟨hst, hret', hbuf, hexp⟩ : _ ∧ _ ∧ _ ∧ _ := by simpa using hret
  have hreach : Reachable linkStep LinkStart l := Reachable.after (.init linkStart_zeroedLink) hl
  obtain ⟨-, hbytes⟩ := delivery_safety hreach .server hst
  rw [hret', hbuf, hexp] at hbytes
  exact ⟨l, hreach, hexp, hbytes⟩

/-- **No premature acknowledgement.**  What a sender takes to be acknowledged the receiver has
accepted, and what the receiver has accepted was sent. -/
theorem no_premature_ack {l : Link} (h : Reachable linkStep LinkStart l) (x : Side) :
    (l x).sock.base ≤ (l x.other).sock.expectSeq ∧
      (l x.other).sock.expectSeq ≤ (l x).sock.nextseq := by
  obtain ⟨f, hsafe, hf⟩ := Simulates.of_reachable h
  have hend := hf x
  have hgot := (hf.peer x).expectSeq
  constructor
  · rw [UInt32.le_iff_toNat_le, ← hend.base, ← hgot]
    exact (hsafe x).base_le
  · rw [UInt32.le_iff_toNat_le, ← hend.nextseq, ← hgot, ← hend.stream]
    exact (hsafe x).got_le

/-- The same run, with the acknowledgement delivered: both bounds are met. -/
theorem no_premature_ack_three : ∃ l, Reachable linkStep LinkStart l ∧ (l .client).sock.base = 3 ∧
    3 ≤ (l .server).sock.expectSeq ∧ (l .server).sock.expectSeq ≤ (l .client).sock.nextseq := by
  have hrun : (run linkStep zeroedLink [.call .client (.send [1, 2, 3]), .call .client .stream,
      .deliver .server 0, .deliver .client 0] >>= fun l => .ret (l .client).sock.base) = .ret 3 := by
    decide
  obtain ⟨l, hl, hret⟩ := Outcome.bind_eq_ret.mp hrun
  have hbase : (l .client).sock.base = 3 := Outcome.ret.inj hret
  have hreach : Reachable linkStep LinkStart l := Reachable.after (.init linkStart_zeroedLink) hl
  obtain ⟨hlow, hhigh⟩ := no_premature_ack hreach .client
  exact ⟨l, hreach, hbase, hbase ▸ hlow, hhigh⟩

end TrivalTcp
