import TrivalTcp.Foundations.InOrder
import TrivalTcp.Transfer.Sender
import TrivalTcp.Transfer.Wire

/-!
# Transfer/Pipe — one sender, one receiver, and channels that keep order and lose nothing

The sender's timer may run out at any moment, so the channels hold repeated data and
acknowledgements in any number.  `PipeOk` folds what is on its way into what will have arrived
(`InOrder.Balanced`), and keeps the timer beside it.  Once both channels are empty,
`quiescent_complete` reads off that the transfer is complete.
-/

namespace TrivalTcp

open InOrder

/-! ## The system -/

/-- What can happen. -/
inductive PipeEvent where
  | send (buffer : Buf)
  | stream
  /-- The armed timer of an end runs out. -/
  | expire (y : Side)
  | recv (len : ℕ)
  /-- An end is given the first packet on its way to it. -/
  | deliver (y : Side)

/-- What the sender thread would take can be sent: it fits into one packet, and the window is
open. -/
def ChunkFits (s : TjuTcp) : Prop :=
  s.sendingBuf = [] ∨ s.sendingBuf.length ≤ maxLen - headerLen ∧ WindowOpen s

instance (s : TjuTcp) : Decidable (ChunkFits s) := inferInstanceAs (Decidable (_ ∨ _ ∧ _))

/-- The end at `y` has become `a`, and what it has newly handed on is on its way. -/
def Wire.advance (w : Wire EndState) (y : Side) (a : EndState) : Wire EndState :=
  w.put y a (a.handed.drop (w.ends y).handed.length)

/-- The sender is at `x`; the receiver sends no data. -/
def pipeStep (x : Side) (w : Wire EndState) : PipeEvent → Outcome (Wire EndState)
  | .send buffer => callStep (w.ends x) (.send buffer) >>= fun a => .ret (w.advance x a)
  | .stream =>
    if ChunkFits (w.ends x).sock then
      callStep (w.ends x) .stream >>= fun a => .ret (w.advance x a)
    else
      .blocked
  | .expire y =>
    if (w.ends y).sock.rttTimer.armed then
      callStep (w.ends y) .timeout >>= fun a => .ret (w.advance y a)
    else
      .blocked
  | .recv len => callStep (w.ends x.other) (.recv len) >>= fun a => .ret (w.advance x.other a)
  | .deliver y =>
    match w.channel y with
    | [] => .blocked
    | pkt :: rest => packetStep (w.ends y) pkt >>= fun a => .ret ((w.setChannel y rest).advance y a)

/-- Two established ends, no timer running and nothing on its way. -/
structure PipeStart (w : Wire EndState) : Prop where
  ends : LinkStart w.ends
  unarmed : ∀ y, (w.ends y).sock.rttTimer.armed = false
  empty : ∀ y, w.channel y = []

/-! ## The two ends and their packets -/

/-- What has come out of the transfer at a receiver. -/
def received (b : EndState) : Buf := b.returned ++ b.sock.receivedBuf

/-- A packet of the sender: data, or the acknowledgement its first expiry sends. -/
def ToReceiver (p : Buf) : Prop :=
  (∃ src seq data, Built p src seq Flag.noFlag data) ∨ ∃ src, Built p src 0 Flag.ack []

/-- A packet of the receiver. -/
def ToSender (p : Buf) : Prop := ∃ src seq, Built p src seq Flag.ack []

/-- The slice a packet carries, if it carries one. -/
def slice (p : Buf) : Option (ℕ × Buf) :=
  if getFlags p = Flag.noFlag then some ((getSeq p).toNat, payload p) else none

theorem Built.slice_data {p : Buf} {src : UInt16} {seq : UInt32} {data : Buf}
    (h : Built p src seq Flag.noFlag data) : slice p = some (seq.toNat, data) := by
  rw [slice, if_pos h.flags, h.seq, h.payload]

theorem Built.slice_ack {p : Buf} {src : UInt16} {seq : UInt32} {data : Buf}
    (h : Built p src seq Flag.ack data) : slice p = none := by
  rw [slice, h.flags, if_neg (by decide)]

/-- **An established sender.**  A running timer has something to wait for. -/
structure Sending (a : EndState) : Prop where
  state : a.sock.state = .established
  nextseq : a.sock.nextseq.toNat = a.copied.length
  holds : a.sock.window.wndSend.sendWindows.Holds a.copied
  size : a.sock.window.wndSend.sendWindows.size = tcpSendWindowSize
  expectSeq : a.sock.expectSeq = 0
  timer : a.sock.rttTimer.armed = true →
    a.sock.rttTimer.started = true ∧ a.sock.base ≠ a.sock.nextseq

/-- **An established receiver.**  It has sent no data, and its timer does not run. -/
structure Receiving (b : EndState) : Prop where
  state : b.sock.state = .established
  nextseq : b.sock.nextseq = 0
  unarmed : b.sock.rttTimer.armed = false
  expectSeq : b.sock.expectSeq.toNat = (received b).length

/-- **Sender and receiver, with what is on its way between them.** -/
structure PipeOk (a b : EndState) (toReceiver toSender : List Buf) : Prop where
  sending : Sending a
  receiving : Receiving b
  data : ∀ p ∈ toReceiver, ToReceiver p
  acks : ∀ p ∈ toSender, ToSender p
  balanced : Balanced ⟨a.copied, a.sock.base.toNat, received b, toReceiver.filterMap slice,
    toSender.map fun p => (getSeq p).toNat⟩

/-! ## The receiver -/

/-- **What a receiver makes of data**: it accepts the slice or skips it, and says so unless the
slice lies ahead. -/
theorem Receiving.deliver_data {b b' : EndState} (h : Receiving b) {p : Buf} {src : UInt16}
    {seq : UInt32} {data : Buf} (hp : Built p src seq Flag.noFlag data)
    (hlt : (accept (received b) (seq.toNat, data)).length < 2 ^ 32)
    (hs : packetStep b p = .ret b') :
    Receiving b' ∧ received b' = accept (received b) (seq.toNat, data) ∧
      ((∃ u, u.expectSeq = b'.sock.expectSeq ∧ b'.handed = b.handed ++ [tcpSendAck u]) ∨
        b'.handed = b.handed ++ [] ∧ seq.toNat ≠ (received b).length) := by
  rw [packetStep_eq hp.sized] at hs
  obtain rfl := Outcome.ret.inj hs
  obtain ⟨r, rfl, hcases⟩ := handled_data b.sock hp.flags
  rw [hp.seq, hp.payload] at hcases
  rcases hcases with ⟨hgt, hr⟩ | ⟨rfl, u, rfl, hr⟩ | ⟨hne, hr⟩
  · rw [gt_iff_lt, UInt32.lt_iff_toNat_lt, h.expectSeq] at hgt
    rw [hr]
    exact ⟨⟨h.state, h.nextseq, h.unarmed, h.expectSeq⟩, (accept_elsewhere hgt.ne').symm,
      .inr ⟨rfl, hgt.ne'⟩⟩
  · rw [h.expectSeq] at hlt ⊢
    rw [hr]
    have hgot : b.returned ++ (b.sock.receivedBuf ++ data) = received b ++ data :=
      (List.append_assoc _ _ _).symm
    have hexp : (b.sock.expectSeq + .ofNat data.length).toNat = (received b ++ data).length := by
      rw [accept_here, List.length_append] at hlt
      rw [List.length_append, UInt32.toNat_add, UInt32.toNat_ofNat', h.expectSeq]
      omega
    refine ⟨⟨h.state, h.nextseq, h.unarmed, ?_⟩, ?_,
      .inl ⟨(b.sock.setRwnd (getAdvertisedWindow p)).setExpectSeq _, rfl, rfl⟩⟩
    · exact hexp.trans (congrArg List.length hgot.symm)
    · rw [accept_here]
      exact hgot
  · have hskip : seq.toNat ≠ (received b).length :=
      fun hseq => hne (UInt32.toNat_inj.mp (hseq.trans h.expectSeq.symm))
    rw [hr]
    exact ⟨⟨h.state, h.nextseq, h.unarmed, h.expectSeq⟩, (accept_elsewhere hskip).symm,
      .inl ⟨_, rfl, rfl⟩⟩

/-- The acknowledgement of a sender that has received nothing. -/
theorem Receiving.deliver_ack {b b' : EndState} (h : Receiving b) {p : Buf} {src : UInt16}
    (hp : Built p src 0 Flag.ack []) (hs : packetStep b p = .ret b') :
    Receiving b' ∧ received b' = received b ∧ b'.handed = b.handed ++ [] := by
  rw [packetStep_eq hp.sized] at hs
  obtain rfl := Outcome.ret.inj hs
  obtain ⟨_, _, _, hack⟩ := handled_ack b.sock hp.flags
  have hstill : (ackedTimer b.sock 0).armed = false := by
    rw [ackedTimer, if_pos h.nextseq.symm]
    split_ifs
    · rfl
    · exact h.unarmed
  rw [hack, hp.seq, hp.payload, List.append_nil]
  exact ⟨⟨h.state, h.nextseq, hstill, h.expectSeq⟩, rfl, rfl⟩

/-- **What the receiver's caller takes** stays what has come out. -/
theorem callStep_recv {b b' : EndState} {len : ℕ} (hs : callStep b (.recv len) = .ret b') :
    received b' = received b ∧ b'.handed = b.handed ∧
      ∃ rest, b'.sock = b.sock.setReceivedBuf rest := by
  obtain ⟨bytes, rest, hbuf, rfl⟩ := callStep_recv_eq_ret hs
  refine ⟨?_, rfl, rest, rfl⟩
  rw [received, received, hbuf]
  exact List.append_assoc _ _ _

theorem Receiving.recv {b b' : EndState} (h : Receiving b) {len : ℕ}
    (hs : callStep b (.recv len) = .ret b') :
    Receiving b' ∧ received b' = received b ∧ b'.handed = b.handed := by
  obtain ⟨hgot, hhanded, rest, hsock⟩ := callStep_recv hs
  refine ⟨⟨?_, ?_, ?_, ?_⟩, hgot, hhanded⟩
  · rw [hsock]
    exact h.state
  · rw [hsock]
    exact h.nextseq
  · rw [hsock]
    exact h.unarmed
  · rw [hgot, hsock]
    exact h.expectSeq

/-! ## The sender -/

section Sender

variable {a a' b : EndState} {toReceiver toSender : List Buf}

/-- A step of the sender has been taken. -/
def SenderOk (a a' b : EndState) (toReceiver toSender : List Buf) : Prop := ∃ packets,
  a'.handed = a.handed ++ packets ∧
    PipeOk a' b (toReceiver ++ packets.filterMap sendToLayer3) toSender

/-- The sender has put nothing into its window, taken no acknowledgement and sent nothing. -/
theorem PipeOk.quiet (h : PipeOk a b toReceiver toSender) (ha : Sending a')
    (hcopied : a'.copied = a.copied) (hbase : a'.sock.base = a.sock.base)
    (hhanded : a'.handed = a.handed) : SenderOk a a' b toReceiver toSender := by
  refine ⟨[], hhanded.trans (List.append_nil _).symm, ha, h.receiving, ?_, h.acks, ?_⟩
  · rw [List.filterMap_nil, List.append_nil]
    exact h.data
  · rw [List.filterMap_nil, List.append_nil, hcopied, hbase]
    exact h.balanced

/-- The sender has sent one packet, and `sendToLayer3` has let it out or not. -/
theorem PipeOk.sent (h : PipeOk a b toReceiver toSender) (ha : Sending a') {p : Buf}
    (hp : ToReceiver p) (hhanded : a'.handed = a.handed ++ [p])
    (hkept : sendToLayer3 p = none → Balanced ⟨a'.copied, a'.sock.base.toNat, received b,
      toReceiver.filterMap slice, toSender.map fun p => (getSeq p).toNat⟩)
    (hsent : Balanced ⟨a'.copied, a'.sock.base.toNat, received b,
      toReceiver.filterMap slice ++ (slice p).toList, toSender.map fun p => (getSeq p).toNat⟩) :
    SenderOk a a' b toReceiver toSender := by
  refine ⟨[p], hhanded, ha, h.receiving, fun q hq => ?_, h.acks, ?_⟩
  · rcases List.mem_append.mp hq with hq | hq
    · exact h.data q hq
    · obtain ⟨p', hp', hout⟩ := List.mem_filterMap.mp hq
      rw [List.mem_singleton.mp hp', sendToLayer3] at hout
      split_ifs at hout
      exact Option.some.inj hout ▸ hp
  · cases hout : sendToLayer3 p with
    | none =>
      rw [List.filterMap_cons_none hout, List.filterMap_nil, List.append_nil]
      exact hkept hout
    | some q =>
      obtain rfl : p = q := by
        rw [sendToLayer3] at hout
        split_ifs at hout
        exact Option.some.inj hout
      rw [List.filterMap_cons_some hout, List.filterMap_nil, List.filterMap_append,
        List.filterMap_cons, List.filterMap_nil]
      cases hslice : slice p with
      | none =>
        rw [hslice] at hsent
        exact hsent
      | some s =>
        rw [hslice] at hsent
        exact hsent

/-- `tcp_send` only fills `sending_buf`. -/
theorem PipeOk.send (h : PipeOk a b toReceiver toSender) {buffer : Buf}
    (hs : callStep a (.send buffer) = .ret a') : SenderOk a a' b toReceiver toSender := by
  obtain ⟨hst, hnext, hholds, hsize, hexp, htimer⟩ := h.sending
  rcases callStep_send_eq_ret hs with rfl | rfl
  · exact h.quiet ⟨hst, hnext, hholds, hsize, hexp, htimer⟩ rfl rfl rfl
  · exact h.quiet ⟨hst, hnext, hholds, hsize, hexp, htimer⟩ rfl rfl rfl

/-- **An iteration of the sender thread** sends its chunk, and the chunk is what the receiver will
have last. -/
theorem PipeOk.stream (h : PipeOk a b toReceiver toSender) (hfits : ChunkFits a.sock)
    (hs : callStep a .stream = .ret a') : SenderOk a a' b toReceiver toSender := by
  obtain ⟨r, hstream, rfl⟩ := callStep_stream_eq_ret hs
  obtain ⟨hst, hnext, hholds, hsize, hexp, htimer⟩ := h.sending
  by_cases hne : a.sock.sendingBuf = []
  · rw [tcpSendStream_empty hne] at hstream
    obtain rfl := Outcome.ret.inj hstream
    dsimp only
    rw [List.append_nil, List.append_nil]
    exact h.quiet h.sending rfl rfl rfl
  · obtain ⟨hlen, hopen⟩ := hfits.resolve_left hne
    obtain ⟨hroom, t, adv, _, rfl⟩ := tcpSendStream_chunk hne hopen hstream
    have hpos := List.length_pos_iff.mpr hne
    have hlarge : headerLen + a.sock.sendingBuf.length ≤ maxLen := by
      rw [maxLen, headerLen] at hlen ⊢
      omega
    have hbuilt := dataPkt_built t a.sock.nextseq adv (hlarge.trans_lt (by decide))
    have hnext' : (a.sock.nextseq + .ofNat a.sock.sendingBuf.length).toNat =
        (a.copied ++ a.sock.sendingBuf).length := by
      rw [hsize, tcpSendWindowSize, maxDlen] at hroom
      rw [List.length_append, UInt32.toNat_add, UInt32.toNat_ofNat', ← hnext]
      omega
    have hholds' := Block.holds_write hholds a.sock.sendingBuf
    rw [← hnext] at hholds'
    have hahead : a.sock.base ≠ a.sock.nextseq + .ofNat a.sock.sendingBuf.length := by
      intro heq
      have hlen' := congrArg UInt32.toNat heq
      have hle := h.balanced.base_le_length
      rw [hnext', List.length_append] at hlen'
      omega
    have hstarted : (chunkTimer a.sock).armed = true → (chunkTimer a.sock).started = true := by
      rw [chunkTimer]
      split_ifs
      · exact fun _ => rfl
      · exact fun harmed => (htimer harmed).1
    refine h.sent ⟨hst, hnext', hholds', hsize, hexp, fun harmed => ⟨hstarted harmed, hahead⟩⟩
      (.inl ⟨_, _, _, hbuilt⟩) rfl (fun hout => ?_) ?_
    · rw [hbuilt.sendToLayer3 hlarge] at hout
      contradiction
    · rw [hbuilt.slice_data, hnext]
      exact h.balanced.extend _

/-- What lies between `base` and `nextseq` is the end of what was sent. -/
theorem Sending.unacked (h : Sending a) (hbase : a.sock.base.toNat ≤ a.copied.length) :
    a.sock.base.toNat + (a.sock.nextseq - a.sock.base).toNat = a.copied.length := by
  have hle : a.sock.base ≤ a.sock.nextseq := by
    rw [UInt32.le_iff_toNat_le, h.nextseq]
    exact hbase
  rw [UInt32.toNat_sub_of_le _ _ hle, h.nextseq]
  exact Nat.add_sub_cancel' hbase

/-- **The timer may run out whenever it likes**: what it sends again will be skipped. -/
theorem PipeOk.expire (h : PipeOk a b toReceiver toSender)
    (harmed : a.sock.rttTimer.armed = true) (hest : a'.sock.state = .established)
    (hs : callStep a .timeout = .ret a') : SenderOk a a' b toReceiver toSender := by
  obtain ⟨s, packets, hexp, rfl⟩ := callStep_timeout_eq_ret hs
  have hsending := h.sending
  have hst : (disarm a.sock).state = .established := hsending.state
  rcases tcpWriteTimerHandler_cases hexp with ⟨hne, -⟩ | ⟨hne, -⟩ | ⟨-, -, rfl, rfl⟩ |
    ⟨-, -, -, hclose⟩ | ⟨-, -, -, hretr⟩ | ⟨hne, -⟩
  · nomatch hst.symm.trans hne
  · nomatch hst.symm.trans hne
  · have hbuilt := controlPkt_built (finishHandshake (disarm a.sock)) a.sock.expectSeq
      a.sock.expectSeq Flag.ack (advWnd (finishHandshake (disarm a.sock)))
    have hack : ToReceiver (tcpSendAck (finishHandshake (disarm a.sock))) :=
      .inr ⟨_, hbuilt.sized, rfl, hbuilt.seq.trans hsending.expectSeq, hbuilt.flags, hbuilt.payload,
        hbuilt.check⟩
    refine h.sent ⟨hst, hsending.nextseq, hsending.holds, hsending.size, hsending.expectSeq, nofun⟩
      hack rfl (fun _ => h.balanced) ?_
    rw [show slice (tcpSendAck _) = none from hbuilt.slice_ack]
    exact (List.append_nil (toReceiver.filterMap slice)).symm ▸ h.balanced
  · obtain ⟨rfl, -⟩ := Prod.mk.inj hclose
    nomatch hest
  · obtain ⟨hlen, _, _, _, u, rfl, rfl⟩ := retransmission_cases hretr
    change (a.sock.nextseq - a.sock.base).toNat ≤ maxLen at hlen
    have hunacked := hsending.unacked h.balanced.base_le_length
    have hread := Block.read_of_holds hsending.holds hunacked.le
    have hlong : headerLen + (a.sock.window.wndSend.sendWindows.read a.sock.base.toNat
        (a.sock.nextseq - a.sock.base).toNat).length < 65536 := by
      rw [Block.length_read]
      rw [maxLen] at hlen
      rw [headerLen]
      omega
    have hbuilt := dataPkt_built u a.sock.base 1 hlong
    have hahead := (hsending.timer harmed).2
    refine h.sent ⟨hst, hsending.nextseq, hsending.holds, hsending.size, hsending.expectSeq,
      fun _ => ⟨rfl, hahead⟩⟩ (.inl ⟨_, _, _, hbuilt⟩) rfl (fun _ => h.balanced) ?_
    rw [hbuilt.slice_data, hread]
    exact h.balanced.again (List.take_prefix _ _)
  · rw [hst] at hne
    exact absurd (by decide) hne

/-- The sender takes an acknowledgement. -/
theorem PipeOk.deliver_sender {p : Buf} {rest : List Buf} (h : PipeOk a b toReceiver (p :: rest))
    (hs : packetStep a p = .ret a') : SenderOk a a' b toReceiver rest := by
  obtain ⟨src, seq, hbuilt⟩ := h.acks p List.mem_cons_self
  obtain ⟨_, _, _, hack⟩ := handled_ack a.sock hbuilt.flags
  have hbalanced : Balanced ⟨a.copied, a.sock.base.toNat, received b, toReceiver.filterMap slice,
      seq.toNat :: rest.map fun p => (getSeq p).toNat⟩ := hbuilt.seq ▸ h.balanced
  have hsending := h.sending
  rw [packetStep_eq hbuilt.sized] at hs
  obtain rfl := Outcome.ret.inj hs
  rw [hack, hbuilt.seq, hbuilt.payload, List.append_nil]
  have htimer : (ackedTimer a.sock seq).armed = true →
      (ackedTimer a.sock seq).started = true ∧ seq ≠ a.sock.nextseq := by
    rw [ackedTimer]
    split_ifs with hall hstarted
    · exact fun harmed => absurd harmed (by decide)
    · exact fun harmed => absurd (hsending.timer harmed).1 hstarted
    · exact fun _ => ⟨rfl, hall⟩
  refine ⟨[], rfl, ⟨hsending.state, hsending.nextseq, hsending.holds, hsending.size,
    hsending.expectSeq, htimer⟩, h.receiving, ?_, fun q hq => h.acks q (List.mem_cons_of_mem _ hq),
    ?_⟩
  · rw [List.filterMap_nil, List.append_nil]
    exact h.data
  · rw [List.filterMap_nil, List.append_nil, List.append_nil]
    exact hbalanced.advance

end Sender

/-! ## Both together -/

section Steps

variable {a b b' : EndState} {toReceiver toSender : List Buf}

/-- A step of the receiver has been taken. -/
def ReceiverOk (a b b' : EndState) (toReceiver toSender : List Buf) : Prop := ∃ packets,
  b'.handed = b.handed ++ packets ∧
    PipeOk a b' toReceiver (toSender ++ packets.filterMap sendToLayer3)

/-- **The receiver is given the first packet on its way to it.** -/
theorem PipeOk.deliver_receiver {p : Buf} {rest : List Buf} (h : PipeOk a b (p :: rest) toSender)
    (hs : packetStep b p = .ret b') : ReceiverOk a b b' rest toSender := by
  have hrest : ∀ q ∈ rest, ToReceiver q := fun q hq => h.data q (List.mem_cons_of_mem _ hq)
  have hbalanced := h.balanced
  rcases h.data p List.mem_cons_self with ⟨src, seq, data, hbuilt⟩ | ⟨src, hbuilt⟩
  · rw [List.filterMap_cons_some hbuilt.slice_data] at hbalanced
    have hlt : (accept (received b) (seq.toNat, data)).length < 2 ^ 32 := by
      refine hbalanced.accept_prefix.length_le.trans_lt ?_
      rw [← h.sending.nextseq]
      exact UInt32.toNat_lt _
    obtain ⟨hreceiving, hgot, ⟨u, hu, hhanded⟩ | ⟨hhanded, hskip⟩⟩ :=
      h.receiving.deliver_data hbuilt hlt hs
    · have hack := controlPkt_built u u.expectSeq u.expectSeq Flag.ack (advWnd u)
      have hout : [tcpSendAck u].filterMap sendToLayer3 = [tcpSendAck u] :=
        filterMap_sendToLayer3_control _ _ _ _ _
      have hseq : (getSeq (tcpSendAck u)).toNat = (received b').length := by
        rw [← hreceiving.expectSeq, ← hu]
        exact congrArg UInt32.toNat hack.seq
      refine ⟨_, hhanded, h.sending, hreceiving, hrest, fun q hq => ?_, ?_⟩
      · rw [hout] at hq
        rcases List.mem_append.mp hq with hq | hq
        · exact h.acks q hq
        · rw [List.mem_singleton.mp hq]
          exact ⟨_, _, hack⟩
      · rw [hout, List.map_append, List.map_singleton, hseq, hgot]
        exact hbalanced.receive
    · refine ⟨_, hhanded, h.sending, hreceiving, hrest, ?_, ?_⟩
      · rw [List.filterMap_nil, List.append_nil]
        exact h.acks
      · rw [List.filterMap_nil, List.append_nil, hgot, accept_elsewhere hskip]
        exact hbalanced.skip hskip
  · obtain ⟨hreceiving, hgot, hhanded⟩ := h.receiving.deliver_ack hbuilt hs
    rw [List.filterMap_cons_none hbuilt.slice_ack] at hbalanced
    refine ⟨_, hhanded, h.sending, hreceiving, hrest, ?_, ?_⟩
    · rw [List.filterMap_nil, List.append_nil]
      exact h.acks
    · rw [List.filterMap_nil, List.append_nil, hgot]
      exact hbalanced

/-- The receiver's caller takes what has come out. -/
theorem PipeOk.recv (h : PipeOk a b toReceiver toSender) {len : ℕ}
    (hs : callStep b (.recv len) = .ret b') : ReceiverOk a b b' toReceiver toSender := by
  obtain ⟨hreceiving, hgot, hhanded⟩ := h.receiving.recv hs
  refine ⟨[], hhanded.trans (List.append_nil _).symm, h.sending, hreceiving, h.data, ?_, ?_⟩
  · rw [List.filterMap_nil, List.append_nil]
    exact h.acks
  · rw [List.filterMap_nil, List.append_nil, hgot]
    exact h.balanced

end Steps

/-- **Sender and receiver at the ends of a wire**, as long as the sender is established. -/
def WireOk (x : Side) (w : Wire EndState) : Prop := (w.ends x).sock.state = .established →
  PipeOk (w.ends x) (w.ends x.other) (w.channel x.other) (w.channel x)

theorem wireOk_start {x : Side} {w : Wire EndState} (h : PipeStart w) : WireOk x w := by
  intro _
  obtain ⟨a, ha, hsize, hx⟩ := h.ends x
  obtain ⟨b, hb, -, hy⟩ := h.ends x.other
  have harmed := h.unarmed x
  have hunarmed := h.unarmed x.other
  have hgot : received (EndState.start b) = [] := hb.received
  rw [h.empty, h.empty, hx, hy]
  rw [hx] at harmed
  rw [hy] at hunarmed
  refine ⟨⟨ha.established, ?_, Block.holds_nil _, hsize, ha.expectSeq, fun h => ?_⟩,
    ⟨hb.established, hb.nextseq, hunarmed, ?_⟩, nofun, nofun, ?_⟩
  · exact congrArg UInt32.toNat ha.nextseq
  · rw [harmed] at h
    nomatch h
  · rw [hgot]
    exact congrArg UInt32.toNat hb.expectSeq
  · have hbase : (EndState.start a).sock.base.toNat = 0 := congrArg UInt32.toNat ha.base
    rw [hgot, hbase]
    exact .initial

/-- **A sender that has left `ESTABLISHED` does not come back** by anything it does on its own. -/
theorem callStep_state {a a' : EndState} {c : Call} (hs : callStep a c = .ret a')
    (hest : a'.sock.state = .established) : a.sock.state = .established := by
  cases c with
  | send buffer =>
    rcases callStep_send_eq_ret hs with rfl | rfl
    · exact hest
    · exact hest
  | stream =>
    obtain ⟨r, hstream, rfl⟩ := callStep_stream_eq_ret hs
    obtain ⟨_, _, _, -, -, hsock⟩ := tcpSendStream_frame hstream
    exact (congrArg (fun t : TjuTcp => t.state) hsock).symm.trans hest
  | timeout =>
    obtain ⟨s, packets, hexp, rfl⟩ := callStep_timeout_eq_ret hs
    rcases tcpWriteTimerHandler_cases hexp with ⟨-, rfl, -⟩ | ⟨-, rfl, -⟩ | ⟨hst, -⟩ | ⟨hst, -⟩ |
      ⟨hst, -⟩ | ⟨-, rfl, -⟩
    · rw [tcpStartTimer_eq] at hest
      exact hest
    · rw [tcpStartTimer_eq] at hest
      exact hest
    · exact hst
    · exact hst
    · exact hst
    · exact hest
  | recv len =>
    obtain ⟨bytes, rest, -, rfl⟩ := callStep_recv_eq_ret hs
    exact hest

theorem packetStep_state {a a' : EndState} {pkt : Buf} (hs : packetStep a pkt = .ret a') :
    a'.sock.state = a.sock.state := by
  obtain ⟨s, packets, hhandle, rfl⟩ := packetStep_eq_ret hs
  exact tjuHandlePacket_state hhandle

section Wire

variable {x : Side} {w : Wire EndState}

/-- The sender's part of a step. -/
theorem wireOk_sender {a : EndState} {w : Wire EndState}
    (h : a.sock.state = .established → SenderOk (w.ends x) a (w.ends x.other) (w.channel x.other)
      (w.channel x)) : WireOk x (w.advance x a) := by
  intro hest
  obtain ⟨packets, hhanded, hok⟩ := h (w.put_ends_self x a _ ▸ hest)
  have hnew : a.handed.drop (w.ends x).handed.length = packets := by
    rw [hhanded]
    exact List.drop_left
  rw [Wire.advance, hnew]
  simpa using hok

/-- The receiver's part of a step. -/
theorem wireOk_receiver {b : EndState} {w : Wire EndState}
    (h : (w.ends x).sock.state = .established → ReceiverOk (w.ends x) (w.ends x.other) b
      (w.channel x.other) (w.channel x)) : WireOk x (w.advance x.other b) := by
  intro hest
  obtain ⟨packets, hhanded, hok⟩ := h (w.put_other_ends x b _ ▸ hest)
  have hnew : b.handed.drop (w.ends x.other).handed.length = packets := by
    rw [hhanded]
    exact List.drop_left
  rw [Wire.advance, hnew]
  simpa using hok

/-- **One step of the two.** -/
theorem WireOk.step {w' : Wire EndState} (h : WireOk x w) {e : PipeEvent}
    (hs : pipeStep x w e = .ret w') : WireOk x w' := by
  cases e with
  | send buffer =>
    obtain ⟨a, hcall, hret⟩ := Outcome.bind_eq_ret.mp hs
    obtain rfl := Outcome.ret.inj hret
    exact wireOk_sender fun hest => (h (callStep_state hcall hest)).send hcall
  | stream =>
    rw [pipeStep] at hs
    split_ifs at hs with hfits
    obtain ⟨a, hcall, hret⟩ := Outcome.bind_eq_ret.mp hs
    obtain rfl := Outcome.ret.inj hret
    exact wireOk_sender fun hest => (h (callStep_state hcall hest)).stream hfits hcall
  | expire y =>
    rw [pipeStep] at hs
    split_ifs at hs with harmed
    obtain ⟨a, hcall, hret⟩ := Outcome.bind_eq_ret.mp hs
    obtain rfl := Outcome.ret.inj hret
    rcases x.eq_or_other y with rfl | rfl
    · exact wireOk_sender fun hest => (h (callStep_state hcall hest)).expire harmed hest hcall
    · refine wireOk_receiver fun hest => ?_
      rw [(h hest).receiving.unarmed] at harmed
      nomatch harmed
  | recv len =>
    obtain ⟨b, hcall, hret⟩ := Outcome.bind_eq_ret.mp hs
    obtain rfl := Outcome.ret.inj hret
    exact wireOk_receiver fun hest => (h hest).recv hcall
  | deliver y =>
    rw [pipeStep] at hs
    split at hs
    next => nomatch hs
    next pkt rest hchannel =>
      obtain ⟨a, hpacket, hret⟩ := Outcome.bind_eq_ret.mp hs
      obtain rfl := Outcome.ret.inj hret
      rcases x.eq_or_other y with rfl | rfl
      · refine wireOk_sender fun hest => ?_
        have hok := h (packetStep_state hpacket ▸ hest)
        rw [hchannel] at hok
        simpa using hok.deliver_sender hpacket
      · refine wireOk_receiver fun hest => ?_
        have hok := h hest
        rw [hchannel] at hok
        simpa using hok.deliver_receiver hpacket

end Wire

/-- **On a perfect channel quiescence means completion.**  Whatever the sender is given to send, and
however often its timer runs out: once nothing is on its way any more and the sender is still
established, everything sent is acknowledged and has come out at the receiver, and no timer runs. -/
theorem quiescent_complete {x : Side} {w : Wire EndState}
    (h : Reachable (pipeStep x) PipeStart w) (hest : (w.ends x).sock.state = .established)
    (hempty : ∀ y, w.channel y = []) :
    (w.ends x).sock.base = (w.ends x).sock.nextseq ∧
      (w.ends x.other).sock.expectSeq = (w.ends x).sock.nextseq ∧
      (∀ y, (w.ends y).sock.rttTimer.armed = false) ∧
      received (w.ends x.other) = (w.ends x).copied := by
  have hok : WireOk x w := h.invariant (fun _ => wireOk_start) fun _ _ _ hw hs => hw.step hs
  have hpipe := hok hest
  rw [hempty, hempty] at hpipe
  obtain ⟨hgot, hbase⟩ := hpipe.balanced.quiescent
  have hall : (w.ends x).sock.base = (w.ends x).sock.nextseq := by
    apply UInt32.toNat_inj.mp
    rw [hbase, hpipe.sending.nextseq]
  refine ⟨hall, ?_, fun y => ?_, hgot⟩
  · apply UInt32.toNat_inj.mp
    rw [hpipe.receiving.expectSeq, hgot, hpipe.sending.nextseq]
  · rcases x.eq_or_other y with rfl | rfl
    · by_contra harmed
      exact (hpipe.sending.timer (Bool.eq_true_of_not_eq_false harmed)).2 hall
    · exact hpipe.receiving.unarmed

/-- Two ends in zeroed memory with nothing between them. -/
def zeroedWire : Wire EndState := ⟨zeroedLink, fun _ => []⟩

theorem pipeStart_zeroedWire : PipeStart zeroedWire :=
  ⟨linkStart_zeroedLink, fun _ => rfl, fun _ => rfl⟩

/-- Three bytes are sent in two packets, and the timer runs out between them. -/
theorem quiescent_complete_three : ∃ w, Reachable (pipeStep .client) PipeStart w ∧
    (w.ends .client).sock.nextseq = 3 ∧ (w.ends .client).sock.base = 3 ∧
    received (w.ends .server) = (w.ends .client).copied := by
  have hrun : (run (pipeStep .client) zeroedWire [.send [1, 2], .stream, .expire .client, .send [3],
      .stream, .deliver .server, .deliver .server, .deliver .server, .deliver .client,
      .deliver .client] >>= fun w => .ret ((w.ends .client).sock.state,
        (w.ends .client).sock.nextseq, w.channel .client, w.channel .server)) =
      .ret (.established, 3, [], []) := by decide
  obtain ⟨w, hw, hret⟩ := Outcome.bind_eq_ret.mp hrun
  obtain ⟨hest, hnext, hclient, hserver⟩ : _ ∧ _ ∧ _ ∧ _ := by simpa using hret
  have hreach := Reachable.after (.init pipeStart_zeroedWire) hw
  have hempty : ∀ y, w.channel y = [] := fun y => by cases y <;> assumption
  obtain ⟨hbase, -, -, hgot⟩ := quiescent_complete hreach hest hempty
  exact ⟨w, hreach, hnext, hbase.trans hnext, hgot⟩

end TrivalTcp
