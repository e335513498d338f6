import TrivalTcp.Socket.Timer

/-!
# Transfer/Transfer — sending and receiving on an established socket

`tcp_send` and `tcp_recv` of `api.c`, one iteration of `tcp_send_stream` of `tju_tcp.c`, and
`tju_handle_packet` of `kernel.c`.  Each function returns the socket it leaves together with the
packets it has handed to `sendToLayer3`, in order.
-/

namespace TrivalTcp

/-! ## The application's side -/

/-- The largest `int`. -/
def intMax : ℕ := 2 ^ 31 - 1

/-- `tcp_send`: the returned status is 0, or -1 with `send_lock` still held. -/
def tcpSend (s : TjuTcp) (buffer : Buf) : Outcome (TjuTcp × ℤ) :=
  if s.sendLock then
    .blocked
  else if intMax < s.sendingBuf.length + buffer.length then
    .undef
  else if s.sendingBuf.length + buffer.length ≤ s.sendingCapacity then
    .ret (s.setSendingBuf (s.sendingBuf ++ buffer), 0)
  else
    .ret ({ s with sendLock := true }, -1)

/-- `tcp_recv`: the bytes copied to the caller.  It waits while there are none.  What is left is
moved to the front of the buffer by a `memcpy` within it, read here as a move. -/
def tcpRecv (s : TjuTcp) (len : ℕ) : Outcome (TjuTcp × Buf) :=
  if s.receivedBuf.length = 0 then
    .blocked
  else
    let readLen := if s.receivedBuf.length ≥ len then len else s.receivedBuf.length
    .ret (s.setReceivedBuf (s.receivedBuf.drop readLen), s.receivedBuf.take readLen)

theorem tcpSend_cases {s t : TjuTcp} {buffer : Buf} {status : ℤ}
    (h : tcpSend s buffer = .ret (t, status)) :
    (t = s.setSendingBuf (s.sendingBuf ++ buffer) ∧ status = 0) ∨
    (t = { s with sendLock := true } ∧ status = -1) := by
  rw [tcpSend] at h
  split_ifs at h
  · exact .inl (Prod.mk.inj (Outcome.ret.inj h.symm))
  · exact .inr (Prod.mk.inj (Outcome.ret.inj h.symm))

/-- A buffer for which there is room is taken. -/
theorem tcpSend_accepts {s : TjuTcp} {buffer : Buf} (hlock : s.sendLock = false)
    (hmax : s.sendingBuf.length + buffer.length ≤ intMax)
    (hroom : s.sendingBuf.length + buffer.length ≤ s.sendingCapacity) :
    tcpSend s buffer = .ret (s.setSendingBuf (s.sendingBuf ++ buffer), 0) := by
  rw [tcpSend, hlock, if_neg (by decide), if_neg (Nat.not_lt.mpr hmax), if_pos hroom]

/-- **`tcp_recv` takes from the front of the buffer what it returns.** -/
theorem tcpRecv_cases {s t : TjuTcp} {len : ℕ} {bytes : Buf} (h : tcpRecv s len = .ret (t, bytes)) :
    ∃ rest, s.receivedBuf = bytes ++ rest ∧ t = s.setReceivedBuf rest := by
  dsimp only [tcpRecv] at h
  generalize (if s.receivedBuf.length ≥ len then len else s.receivedBuf.length) = n at h
  split_ifs at h
  obtain ⟨rfl, rfl⟩ := Prod.mk.inj (Outcome.ret.inj h)
  exact ⟨_, (List.take_append_drop _ _).symm, rfl⟩

/-! ## The sender thread -/

/-- What one iteration of `tcp_send_stream` does: the socket it leaves, the packets it hands on, and
the bytes it copies into `send_windows`. -/
structure Sent where
  sock : TjuTcp
  packets : List Buf
  copied : Buf

/-- The test of `tcp_send_stream`: there is room in the window. -/
def WindowOpen (s : TjuTcp) : Prop := s.nextseq < s.base + s.window.wndSend.windowSize.toUInt32

instance (s : TjuTcp) : Decidable (WindowOpen s) := inferInstanceAs (Decidable (_ < _))

/-- The chunk `buf` is copied to `nextseq` and sent. -/
def sentChunk (s : TjuTcp) (buf : Buf) : Sent :=
  let s := s.copyToSendWindows s.nextseq.toNat buf
  let msg := dataPkt s s.nextseq (advWnd s) buf
  let s := if s.nextseq = s.base then tcpStartTimer s else s
  ⟨s.setNextseq (s.nextseq + .ofNat buf.length), [msg], buf⟩

/-- The second half of an iteration of `tcp_send_stream`: the chunk `buf` has left the buffer. -/
def sendChunk (s : TjuTcp) (buf : Buf) : Outcome Sent :=
  if WindowOpen s then
    if s.window.wndSend.sendWindows.size < s.nextseq.toNat + buf.length then
      .undef
    else
      .ret (sentChunk s buf)
  else
    .ret ⟨s, [], []⟩

/-- One iteration of the loop of `tcp_send_stream`.  The chunk is everything in `sending_buf`. -/
def tcpSendStream (s : TjuTcp) : Outcome Sent :=
  if s.sendingBuf.length > 0 then
    if s.sendLock then .blocked else sendChunk (s.setSendingBuf []) s.sendingBuf
  else
    .ret ⟨s, [], []⟩

/-- A chunk the window takes is copied to `nextseq` and sent; the timer starts with the first one
that is not acknowledged. -/
theorem sentChunk_eq (s : TjuTcp) (buf : Buf) :
    ∃ t msg, t = s.copyToSendWindows s.nextseq.toNat buf ∧
      msg = dataPkt t s.nextseq (advWnd t) buf ∧
      sentChunk s buf = ⟨(if s.nextseq = s.base then tcpStartTimer t else t).setNextseq
        (s.nextseq + .ofNat buf.length), [msg], buf⟩ := by
  refine ⟨_, _, rfl, rfl, ?_⟩
  dsimp only [sentChunk]
  by_cases hbase : s.nextseq = s.base
  · rw [if_pos hbase, if_pos (by exact hbase), tcpStartTimer_eq]
    rfl
  · rw [if_neg hbase, if_neg (by exact hbase)]
    rfl

/-- It is, where it fits into `send_windows`. -/
theorem sendChunk_open {s : TjuTcp} {buf : Buf} (hopen : WindowOpen s)
    (hsize : s.nextseq.toNat + buf.length ≤ s.window.wndSend.sendWindows.size) :
    sendChunk s buf = .ret (sentChunk s buf) := by
  rw [sendChunk, if_pos hopen, if_neg (Nat.not_lt.mpr hsize)]

/-- A chunk the window does not take is dropped. -/
theorem sendChunk_full {s : TjuTcp} {buf : Buf} (hfull : ¬ WindowOpen s) :
    sendChunk s buf = .ret ⟨s, [], []⟩ := if_neg hfull

/-- **What an iteration of the sender thread does with its chunk.** -/
theorem sendChunk_eq_ret {s : TjuTcp} {buf : Buf} {r : Sent} (h : sendChunk s buf = .ret r) :
    (¬ WindowOpen s ∧ r = ⟨s, [], []⟩) ∨
    (WindowOpen s ∧ s.nextseq.toNat + buf.length ≤ s.window.wndSend.sendWindows.size ∧
      r = sentChunk s buf) := by
  by_cases hopen : WindowOpen s
  · by_cases hsize : s.window.wndSend.sendWindows.size < s.nextseq.toNat + buf.length
    · rw [sendChunk, if_pos hopen, if_pos hsize] at h
      nomatch h
    · have hsent := h.symm.trans (sendChunk_open hopen (Nat.not_lt.mp hsize))
      exact .inr ⟨hopen, Nat.not_lt.mp hsize, Outcome.ret.inj hsent⟩
  · exact .inl ⟨hopen, Outcome.ret.inj (h.symm.trans (sendChunk_full hopen))⟩

theorem sendChunk_cases {s : TjuTcp} {buf : Buf} {r : Sent} (h : sendChunk s buf = .ret r) :
    (¬ WindowOpen s ∧ r = ⟨s, [], []⟩) ∨
    (WindowOpen s ∧ s.nextseq.toNat + buf.length ≤ s.window.wndSend.sendWindows.size ∧
      ∃ t msg, t = s.copyToSendWindows s.nextseq.toNat buf ∧
        msg = dataPkt t s.nextseq (advWnd t) buf ∧
        r = ⟨(if s.nextseq = s.base then tcpStartTimer t else t).setNextseq
          (s.nextseq + .ofNat buf.length), [msg], buf⟩) := by
  rcases sendChunk_eq_ret h with hfull | ⟨hopen, hsize, rfl⟩
  · exact .inl hfull
  · exact .inr ⟨hopen, hsize, sentChunk_eq s buf⟩

theorem tcpSendStream_cases {s : TjuTcp} {r : Sent} (h : tcpSendStream s = .ret r) :
    (s.sendingBuf = [] ∧ r = ⟨s, [], []⟩) ∨
    (s.sendingBuf ≠ [] ∧ s.sendLock = false ∧
      sendChunk (s.setSendingBuf []) s.sendingBuf = .ret r) := by
  rw [tcpSendStream] at h
  split_ifs at h with hpos hlock
  · exact .inr ⟨List.length_pos_iff.mp hpos, Bool.eq_false_of_not_eq_true hlock, h⟩
  · exact .inl ⟨List.length_eq_zero_iff.mp (Nat.eq_zero_of_not_pos hpos), (Outcome.ret.inj h).symm⟩

theorem tcpSendStream_empty {s : TjuTcp} (h : s.sendingBuf = []) :
    tcpSendStream s = .ret ⟨s, [], []⟩ := by
  rw [tcpSendStream, h]
  rfl

theorem tcpSendStream_eq {s : TjuTcp} (hne : s.sendingBuf ≠ []) (hlock : s.sendLock = false) :
    tcpSendStream s = sendChunk (s.setSendingBuf []) s.sendingBuf := by
  rw [tcpSendStream, if_pos (List.length_pos_iff.mpr hne), hlock, if_neg (by decide)]

/-- The timer once a chunk has been sent. -/
def chunkTimer (s : TjuTcp) : RttTimer := if s.nextseq = s.base then ⟨true, true⟩ else s.rttTimer

/-- **A chunk that is sent**: it is copied to `nextseq`, and sent from there. -/
theorem sentChunk_sendingBuf (s : TjuTcp) : ∃ t adv interruptSignal,
    sentChunk (s.setSendingBuf []) s.sendingBuf =
      ⟨{ ((s.setSendingBuf []).copyToSendWindows s.nextseq.toNat s.sendingBuf).setNextseq
            (s.nextseq + .ofNat s.sendingBuf.length) with
          rttTimer := chunkTimer s
          interruptSignal },
        [dataPkt t s.nextseq adv s.sendingBuf], s.sendingBuf⟩ := by
  obtain ⟨t, msg, ht, rfl, hsent⟩ := sentChunk_eq (s.setSendingBuf []) s.sendingBuf
  refine ⟨t, advWnd t, ?_⟩
  rw [hsent, tcpStartTimer_eq, chunkTimer, ht]
  by_cases hbase : s.nextseq = s.base
  · rw [if_pos hbase, if_pos (by exact hbase)]
    exact ⟨_, rfl⟩
  · rw [if_neg hbase, if_neg (by exact hbase)]
    exact ⟨_, rfl⟩

/-- **An iteration that sends.** -/
theorem tcpSendStream_chunk {s : TjuTcp} {r : Sent} (hne : s.sendingBuf ≠ []) (hopen : WindowOpen s)
    (hs : tcpSendStream s = .ret r) :
    s.nextseq.toNat + s.sendingBuf.length ≤ s.window.wndSend.sendWindows.size ∧
      ∃ t adv interruptSignal, r =
        ⟨{ ((s.setSendingBuf []).copyToSendWindows s.nextseq.toNat s.sendingBuf).setNextseq
              (s.nextseq + .ofNat s.sendingBuf.length) with
            rttTimer := chunkTimer s
            interruptSignal },
          [dataPkt t s.nextseq adv s.sendingBuf], s.sendingBuf⟩ := by
  rcases tcpSendStream_cases hs with ⟨hnil, -⟩ | ⟨-, -, hchunk⟩
  · exact absurd hnil hne
  · rcases sendChunk_eq_ret hchunk with ⟨hfull, -⟩ | ⟨-, hroom, rfl⟩
    · exact absurd hopen hfull
    · exact ⟨hroom, sentChunk_sendingBuf s⟩

/-- **An iteration leaves everything but the buffer, the send window and the timer as it is**, and
neither `base` nor the memory of `send_windows` is replaced. -/
theorem tcpSendStream_frame {s : TjuTcp} {r : Sent} (hs : tcpSendStream s = .ret r) :
    ∃ wndSend rttTimer interruptSignal, wndSend.base = s.base ∧
      wndSend.sendWindows.size = s.window.wndSend.sendWindows.size ∧
      r.sock = { s.setSendingBuf [] with
        window := { s.window with wndSend }
        rttTimer
        interruptSignal } := by
  rcases tcpSendStream_cases hs with ⟨hnil, rfl⟩ | ⟨hne, -, hchunk⟩
  · rw [← hnil]
    exact ⟨_, _, _, rfl, rfl, rfl⟩
  · rcases sendChunk_cases hchunk with ⟨-, rfl⟩ | ⟨hopen, -⟩
    · exact ⟨_, _, _, rfl, rfl, rfl⟩
    · obtain ⟨-, _, _, _, rfl⟩ := tcpSendStream_chunk hne hopen hs
      refine ⟨_, _, _, ?_, ?_, rfl⟩
      · rfl
      · rfl

/-! ## The receiver's side -/

/-- `handle_success_ack`, with the quotient of the `float`s exact before it is truncated.  `cwnd` has
no bound here, and a quotient by 0 is 0. -/
def handleSuccessAck (s : TjuTcp) : TjuTcp :=
  if s.conStatus = slowStart then
    let s := { s with cwnd := s.cwnd + smss }
    if s.cwnd > s.ssthresh then { s with conStatus := congestionAvoidance } else s
  else if s.conStatus = congestionAvoidance then
    { s with cwnd := s.cwnd + (smss * smss).tdiv s.cwnd }
  else if s.conStatus = fastRecovery then
    { s with cwnd := s.cwnd + smss }
  else
    s

theorem handleSuccessAck_eq (s : TjuTcp) : ∃ conStatus cwnd,
    handleSuccessAck s = { s with conStatus, cwnd } := by
  dsimp only [handleSuccessAck]
  split_ifs <;> exact ⟨_, _, rfl⟩

/-- The end of `tju_handle_packet`: `data_len` bytes behind the header go to the end of
`received_buf`.  `data_len` is unsigned, so `plen < 22` makes it huge. -/
def appendReceived (s : TjuTcp) (pkt : Buf) (packets : List Buf) : Outcome (TjuTcp × List Buf) :=
  let dataLen := ((getPlen pkt).toUInt32 - .ofNat headerLen).toNat
  if pkt.length < headerLen + dataLen then
    .undef
  else
    .ret (s.setReceivedBuf (s.receivedBuf ++ Bytes.sub pkt headerLen dataLen), packets)

/-- The timer decision of `tju_handle_packet` once an ACK has moved `base`. -/
def ackTimer (s : TjuTcp) : TjuTcp :=
  if s.base = s.nextseq then tcpStopTimer s else tcpStartTimer s

theorem ackTimer_eq (s : TjuTcp) : ∃ rttTimer interruptSignal,
    ackTimer s = { s with rttTimer, interruptSignal } := by
  rw [ackTimer]
  split_ifs
  · exact tcpStopTimer_eq s
  · exact ⟨_, _, tcpStartTimer_eq s⟩

/-- `tju_handle_packet`.  Its first lines read the whole header. -/
def tjuHandlePacket (s : TjuTcp) (pkt : Buf) : Outcome (TjuTcp × List Buf) :=
  if pkt.length < headerLen then
    .undef
  else
    let flag := getFlags pkt
    let seq := getSeq pkt
    let s := s.setRwnd (getAdvertisedWindow pkt)
    if flag = Flag.head then
      .ret (s, [backOnlyHeader s])
    else if flag = Flag.backhead then
      .ret (s, [])
    else if flag = Flag.ack then
      let s := ackTimer ((handleSuccessAck s).setBase seq)
      if getPlen pkt < getHlen pkt then
        .exit
      else if getPlen pkt = getHlen pkt then
        .ret (s, [])
      else
        -- a payload that rides on an ACK is appended without a look at its sequence number
        appendReceived s pkt []
    else if seq > s.expectSeq then
      .ret (s, [])
    else if seq = s.expectSeq then
      let len := (getPlen pkt).toUInt32 - (getHlen pkt).toUInt32
      let s := s.setExpectSeq (s.expectSeq + len)
      appendReceived s pkt [tcpSendAck s]
    else
      .ret (s, [tcpSendAck s])

/-- `wnd_send` once a packet has been processed. -/
def wndSendAfter (s : TjuTcp) (pkt : Buf) : SenderWindow :=
  { s.window.wndSend with
    rwnd := getAdvertisedWindow pkt
    base := if getFlags pkt = Flag.ack then getSeq pkt else s.base }

theorem appendReceived_frame {s t : TjuTcp} {pkt : Buf} {packets packets' : List Buf}
    (h : appendReceived s pkt packets = .ret (t, packets')) :
    ∃ receivedBuf, t = s.setReceivedBuf receivedBuf := by
  dsimp only [appendReceived] at h
  split_ifs at h
  obtain ⟨rfl, -⟩ := Prod.mk.inj (Outcome.ret.inj h)
  exact ⟨_, rfl⟩

/-- **What a packet does to the socket**: an ACK is a success and sets `base` and the timer, any other
packet can only move `expect_seq`; either may bring bytes. -/
theorem tjuHandlePacket_sock {s t : TjuTcp} {pkt : Buf} {packets : List Buf}
    (h : tjuHandlePacket s pkt = .ret (t, packets)) :
    (getFlags pkt = Flag.ack ∧ ∃ receivedBuf, t = (ackTimer
      ((handleSuccessAck (s.setRwnd (getAdvertisedWindow pkt))).setBase
        (getSeq pkt))).setReceivedBuf receivedBuf) ∨
    (getFlags pkt ≠ Flag.ack ∧ ∃ expectSeq receivedBuf,
      t = ((s.setRwnd (getAdvertisedWindow pkt)).setExpectSeq expectSeq).setReceivedBuf
        receivedBuf) := by
  dsimp only [tjuHandlePacket] at h
  split_ifs at h with hlen hhead hback hack
  · obtain ⟨rfl, -⟩ := Prod.mk.inj (Outcome.ret.inj h)
    exact .inr ⟨hhead ▸ by decide, s.expectSeq, s.receivedBuf, rfl⟩
  · obtain ⟨rfl, -⟩ := Prod.mk.inj (Outcome.ret.inj h)
    exact .inr ⟨hback ▸ by decide, s.expectSeq, s.receivedBuf, rfl⟩
  · obtain ⟨rfl, -⟩ := Prod.mk.inj (Outcome.ret.inj h)
    exact .inl ⟨hack, _, rfl⟩
  · obtain ⟨receivedBuf, rfl⟩ := appendReceived_frame h
    exact .inl ⟨hack, receivedBuf, rfl⟩
  · obtain ⟨rfl, -⟩ := Prod.mk.inj (Outcome.ret.inj h)
    exact .inr ⟨hack, s.expectSeq, s.receivedBuf, rfl⟩
  · obtain ⟨receivedBuf, rfl⟩ := appendReceived_frame h
    exact .inr ⟨hack, _, receivedBuf, rfl⟩
  · obtain ⟨rfl, -⟩ := Prod.mk.inj (Outcome.ret.inj h)
    exact .inr ⟨hack, s.expectSeq, s.receivedBuf, rfl⟩

/-- **What a packet can change**, whatever it says: `rwnd`, `base` if it is an ACK, `expect_seq`, the
congestion state, the timer and the receive buffer. -/
theorem tjuHandlePacket_frame {s t : TjuTcp} {pkt : Buf} {packets : List Buf}
    (h : tjuHandlePacket s pkt = .ret (t, packets)) :
    ∃ conStatus cwnd rttTimer interruptSignal expectSeq receivedBuf,
      t = { s with
        window := ⟨wndSendAfter s pkt, ⟨expectSeq⟩⟩
        conStatus, cwnd, rttTimer, interruptSignal, receivedBuf } := by
  rw [wndSendAfter]
  rcases tjuHandlePacket_sock h with ⟨hack, receivedBuf, rfl⟩ | ⟨hack, expectSeq, receivedBuf, rfl⟩
  · obtain ⟨_, _, hsucc⟩ := handleSuccessAck_eq (s.setRwnd (getAdvertisedWindow pkt))
    obtain ⟨_, _, htimer⟩ :=
      ackTimer_eq ((handleSuccessAck (s.setRwnd (getAdvertisedWindow pkt))).setBase (getSeq pkt))
    rw [htimer, hsucc, if_pos hack]
    exact ⟨_, _, _, _, _, _, rfl⟩
  · rw [if_neg hack]
    exact ⟨_, _, _, _, _, _, rfl⟩

/-- **`tju_handle_packet` never changes the state**, whatever it is given. -/
theorem tjuHandlePacket_state {s t : TjuTcp} {pkt : Buf} {packets : List Buf}
    (h : tjuHandlePacket s pkt = .ret (t, packets)) : t.state = s.state := by
  obtain ⟨_, _, _, _, _, _, rfl⟩ := tjuHandlePacket_frame h
  rfl

/-- **A packet sets `rwnd`, and an ACK sets `base`.** -/
theorem tjuHandlePacket_wndSend {s t : TjuTcp} {pkt : Buf} {packets : List Buf}
    (h : tjuHandlePacket s pkt = .ret (t, packets)) : t.window.wndSend = wndSendAfter s pkt := by
  obtain ⟨_, _, _, _, _, _, rfl⟩ := tjuHandlePacket_frame h
  rfl

/-- Where `plen` is the length of the packet, what is appended is what stands behind the header. -/
theorem appendReceived_eq {pkt : Buf} (hlen : headerLen ≤ pkt.length)
    (hplen : (getPlen pkt).toNat = pkt.length) (s : TjuTcp) (packets : List Buf) :
    appendReceived s pkt packets =
      .ret (s.setReceivedBuf (s.receivedBuf ++ payload pkt), packets) := by
  have hpayload : pkt.length = headerLen + (payload pkt).length := by
    rw [payload, List.length_drop, Nat.add_sub_cancel' hlen]
  have hdata : ((getPlen pkt).toUInt32 - .ofNat headerLen).toNat = (payload pkt).length := by
    rw [headerLen] at hlen hpayload
    rw [UInt32.toNat_sub_of_le _ _ (by rw [UInt32.le_iff_toNat_le]; simp [headerLen]; omega)]
    simp [headerLen]
    omega
  have hsub : Bytes.sub pkt headerLen (payload pkt).length = payload pkt := List.take_length
  dsimp only [appendReceived]
  rw [hdata, hsub, if_neg (Nat.not_lt.mpr hpayload.ge)]

/-! ## Packets whose lengths are right -/

section Sized

variable {s : TjuTcp} {pkt : Buf}

/-- `plen` and `hlen` differ by the length of the payload, as 32-bit numbers too. -/
theorem Sized.plen_sub_hlen (h : Sized pkt) :
    (getPlen pkt).toUInt32 - (getHlen pkt).toUInt32 = .ofNat (payload pkt).length := by
  have hlt := (getPlen pkt).toNat_lt
  have hp := h.length_payload
  apply UInt32.toNat_inj.mp
  rw [UInt32.toNat_sub_of_le _ _ (by rw [UInt32.le_iff_toNat_le]; simp [h.hlen, hp]),
    UInt32.toNat_ofNat']
  simp only [UInt16.toNat_toUInt32, h.hlen, hp]
  omega

theorem Sized.appendReceived (h : Sized pkt) (s : TjuTcp) (packets : List Buf) :
    appendReceived s pkt packets =
      .ret (s.setReceivedBuf (s.receivedBuf ++ payload pkt), packets) :=
  appendReceived_eq h.header_le h.plen s packets

/-- What an established socket makes of a packet whose lengths are right: the socket it leaves and
the packets it hands on. -/
def handled (s : TjuTcp) (pkt : Buf) : TjuTcp × List Buf :=
  let r := s.setRwnd (getAdvertisedWindow pkt)
  if getFlags pkt = Flag.head then
    (r, [backOnlyHeader r])
  else if getFlags pkt = Flag.backhead then
    (r, [])
  else if getFlags pkt = Flag.ack then
    let u := ackTimer ((handleSuccessAck r).setBase (getSeq pkt))
    (u.setReceivedBuf (u.receivedBuf ++ payload pkt), [])
  else if getSeq pkt > r.expectSeq then
    (r, [])
  else if getSeq pkt = r.expectSeq then
    let u := r.setExpectSeq (r.expectSeq + .ofNat (payload pkt).length)
    (u.setReceivedBuf (u.receivedBuf ++ payload pkt), [tcpSendAck u])
  else
    (r, [tcpSendAck r])

/-- The timer once an acknowledgement has set `base` to `seq`. -/
def ackedTimer (s : TjuTcp) (seq : UInt32) : RttTimer :=
  if seq = s.nextseq then if s.rttTimer.started then ⟨false, false⟩ else s.rttTimer
  else ⟨true, true⟩

/-- **An acknowledgement**: its sequence number becomes `base`, and the timer runs unless that is
all there is. -/
theorem handled_ack (s : TjuTcp) (hf : getFlags pkt = Flag.ack) :
    ∃ conStatus cwnd interruptSignal, handled s pkt =
      ({ (s.setRwnd (getAdvertisedWindow pkt)).setBase (getSeq pkt) with
          conStatus, cwnd, interruptSignal
          rttTimer := ackedTimer s (getSeq pkt)
          receivedBuf := s.receivedBuf ++ payload pkt }, []) := by
  obtain ⟨_, _, hsucc⟩ := handleSuccessAck_eq (s.setRwnd (getAdvertisedWindow pkt))
  dsimp only [handled]
  rw [if_neg (hf ▸ by decide), if_neg (hf ▸ by decide), if_pos hf, hsucc, ackTimer,
    tcpStartTimer_eq, tcpStopTimer, ackedTimer]
  by_cases hseq : getSeq pkt = s.nextseq
  · rw [if_pos hseq, if_pos (by exact hseq)]
    by_cases hstarted : s.rttTimer.started = true
    · rw [if_pos hstarted, if_pos (by exact hstarted)]
      exact ⟨_, _, _, rfl⟩
    · rw [if_neg hstarted, if_neg (by exact hstarted)]
      exact ⟨_, _, _, rfl⟩
  · rw [if_neg hseq, if_neg (by exact hseq)]
    exact ⟨_, _, _, rfl⟩

/-- Data: a slice that starts where the end stands is accepted, and any slice that does not lie
ahead is answered. -/
theorem handled_data (s : TjuTcp) (hf : getFlags pkt = Flag.noFlag) : ∃ r,
    r = s.setRwnd (getAdvertisedWindow pkt) ∧
      ((getSeq pkt > s.expectSeq ∧ handled s pkt = (r, [])) ∨
      (getSeq pkt = s.expectSeq ∧ ∃ u, u = r.setExpectSeq (s.expectSeq + .ofNat (payload pkt).length) ∧
        handled s pkt = (u.setReceivedBuf (u.receivedBuf ++ payload pkt), [tcpSendAck u])) ∨
      (getSeq pkt ≠ s.expectSeq ∧ handled s pkt = (r, [tcpSendAck r]))) := by
  have hhead : getFlags pkt ≠ Flag.head := hf ▸ by decide
  have hback : getFlags pkt ≠ Flag.backhead := hf ▸ by decide
  have hack : getFlags pkt ≠ Flag.ack := hf ▸ by decide
  refine ⟨_, rfl, ?_⟩
  dsimp only [handled]
  rw [if_neg hhead, if_neg hback, if_neg hack]
  split_ifs with hgt heq
  · exact .inl ⟨hgt, rfl⟩
  · exact .inr (.inl ⟨heq, _, rfl, rfl⟩)
  · exact .inr (.inr ⟨heq, rfl⟩)

/-- **A packet whose lengths are right is processed to its end.** -/
theorem tjuHandlePacket_eq (h : Sized pkt) (s : TjuTcp) :
    tjuHandlePacket s pkt = .ret (handled s pkt) := by
  have hp := h.length_payload
  dsimp only [tjuHandlePacket, handled]
  rw [if_neg (Nat.not_lt.mpr h.header_le)]
  simp only [h.appendReceived, h.plen_sub_hlen]
  generalize s.setRwnd (getAdvertisedWindow pkt) = r
  split_ifs with hhead hback hack hlt heq hgt hseq
  · rfl
  · rfl
  · rw [UInt16.lt_iff_toNat_lt, hp, h.hlen] at hlt
    omega
  · have hnil : payload pkt = [] := by
      apply List.length_eq_zero_iff.mp
      have := congrArg UInt16.toNat heq
      rw [hp, h.hlen] at this
      omega
    rw [hnil, List.append_nil]
    rfl
  · rfl
  · rfl
  · rfl
  · rfl

end Sized

section WellFormed

variable {s : TjuTcp} {h : TjuHeader} {payload : Buf}

/-- **What an established socket does with a packet whose lengths are right.** -/
theorem tjuHandlePacket_cases (hh : h.hlen.toNat = headerLen)
    (hp : h.plen.toNat = headerLen + payload.length) {t : TjuTcp} {packets : List Buf}
    (hret : tjuHandlePacket s (h.bytes ++ payload) = .ret (t, packets)) :
    ∃ r, r = s.setRwnd h.advertisedWindow ∧
      ((h.flags = Flag.head ∧ t = r ∧ packets = [backOnlyHeader r]) ∨
      (h.flags = Flag.backhead ∧ t = r ∧ packets = []) ∨
      (h.flags = Flag.ack ∧ packets = [] ∧ ∃ u, u = ackTimer ((handleSuccessAck r).setBase h.seqNum) ∧
        t = u.setReceivedBuf (u.receivedBuf ++ payload)) ∨
      (h.flags ≠ Flag.ack ∧ r.expectSeq < h.seqNum ∧ t = r ∧ packets = []) ∨
      (h.flags ≠ Flag.ack ∧ h.seqNum = r.expectSeq ∧
        ∃ u, u = r.setExpectSeq (r.expectSeq + .ofNat payload.length) ∧
        t = u.setReceivedBuf (u.receivedBuf ++ payload) ∧ packets = [tcpSendAck u]) ∨
      (h.flags ≠ Flag.ack ∧ h.seqNum < r.expectSeq ∧ t = r ∧ packets = [tcpSendAck r])) := by
  refine ⟨_, rfl, ?_⟩
  have heq := Outcome.ret.inj (hret.symm.trans (tjuHandlePacket_eq (sized_bytes hh hp) s))
  dsimp only [handled] at heq
  simp only [getFlags_bytes, getSeq_bytes, getAdvertisedWindow_bytes, payload_bytes] at heq
  generalize s.setRwnd h.advertisedWindow = r at heq ⊢
  split_ifs at heq with hhead hback hack hgt hseq
  · exact .inl ⟨hhead, Prod.mk.inj heq⟩
  · exact .inr (.inl ⟨hback, Prod.mk.inj heq⟩)
  · obtain ⟨rfl, rfl⟩ := Prod.mk.inj heq
    exact .inr (.inr (.inl ⟨hack, rfl, _, rfl, rfl⟩))
  · exact .inr (.inr (.inr (.inl ⟨hack, hgt, Prod.mk.inj heq⟩)))
  · obtain ⟨rfl, rfl⟩ := Prod.mk.inj heq
    exact .inr (.inr (.inr (.inr (.inl ⟨hack, hseq, _, rfl, rfl, rfl⟩))))
  · refine .inr (.inr (.inr (.inr (.inr ⟨hack, ?_, Prod.mk.inj heq⟩))))
    exact UInt32.lt_iff_le_and_ne.mpr ⟨UInt32.not_lt.mp hgt, hseq⟩

end WellFormed

end TrivalTcp
