import TrivalTcp.Packet.RoundTrip
import TrivalTcp.Socket.SockQueue

/-!
# Socket/Socket — the socket, its window objects and its timer (`tju_tcp.h`, `timer.h`)

`tju_tcp_t` holds some of its data itself and reaches the rest through pointers: the two buffers, the
two window objects, the timer and the two queues.  `SocketFields` is the part the struct holds,
`TjuTcp` adds what stands behind the pointers.  Code that runs on one socket works on a `TjuTcp`;
where sockets share objects, the kernel model keeps `SocketFields` beside pointers.

Fields no modelled function reads are left out: `wait_cond`, the thread handles, `ack_cnt` and its
lock, the receive window's `buf`, `marked` and `receiver_window`, `received_capacity`, and
`signal_lock` and `recv_lock`, which every function that takes them releases before it returns.
-/

namespace TrivalTcp

/-- `tju_sock_addr`. -/
structure TjuSockAddr where
  ip : UInt32
  port : UInt16
  deriving DecidableEq, Repr, Inhabited

/-- `sender_window_t`. -/
structure SenderWindow where
  sendWindows : Block UInt8
  windowSize : UInt16
  base : UInt32
  nextseq : UInt32
  rwnd : UInt16
  deriving Inhabited

/-- `receiver_window_t`. -/
structure ReceiverWindow where
  expectSeq : UInt32
  deriving DecidableEq, Repr, Inhabited

/-- `window_t`, with the objects its two pointers lead to. -/
structure Window where
  wndSend : SenderWindow
  wndRecv : ReceiverWindow
  deriving Inhabited

/-- `rtt_timer_t`.  `armed` says that the thread `tcp_start_timer` created is still counting: it has
neither expired nor seen the interrupt signal. -/
structure RttTimer where
  started : Bool
  armed : Bool
  deriving DecidableEq, Repr, Inhabited

/-- The sockets in the queues: `malloc`ed by `tcp_rcv_state_server`, which writes `bind_addr` or
`state` or both.  `none` is a field still as `malloc` left it. -/
structure ConnSock where
  bindAddr : Option TjuSockAddr
  state : Option TcpState
  deriving DecidableEq, Repr

/-- The part of `tju_tcp_t` the struct holds itself, `sending_len` and `received_len` apart. -/
structure SocketFields where
  state : TcpState
  bindAddr : TjuSockAddr
  establishedLocalAddr : TjuSockAddr
  establishedRemoteAddr : TjuSockAddr
  /-- `send_lock` is held. -/
  sendLock : Bool
  sendingCapacity : ℕ
  savedSyn : ℤ
  interruptSignal : ℤ
  timeoutCounts : UInt8
  conStatus : ℤ
  cwnd : ℤ
  ssthresh : ℤ
  listenState : Fin maxSockSize → TcpState
  finishedHandshake : ℤ
  deriving Inhabited

/-- `tju_tcp_t`, with what its pointers lead to.  `sendingBuf` and `receivedBuf` are the bytes in use,
so `sending_len` and `received_len` are their lengths. -/
structure TjuTcp extends SocketFields where
  sendingBuf : Buf
  receivedBuf : Buf
  window : Window
  rttTimer : RttTimer
  synQueue : SockQueue ConnSock
  acceptQueue : SockQueue ConnSock
  deriving Inhabited

/-- `tcp_socket`.  What it does not write is as `malloc` left it, `junk`: the addresses, `base`,
`nextseq` and `expect_seq`, the counters, and the content of `send_windows`. -/
def tcpSocket (junk : TjuTcp) : TjuTcp :=
  { junk with
    state := .closed
    sendLock := false
    sendingBuf := []
    sendingCapacity := tcpSendBufferSize
    receivedBuf := []
    interruptSignal := 0
    conStatus := slowStart
    cwnd := smss
    ssthresh := iw
    listenState := fun _ => .closed
    window :=
      { wndSend :=
          { sendWindows := ⟨tcpSendWindowSize, junk.window.wndSend.sendWindows.cell⟩
            windowSize := .ofNat tcpSendWindowSize
            base := junk.window.wndSend.base
            nextseq := junk.window.wndSend.nextseq
            rwnd := .ofInt (1 * smss) }
        wndRecv := junk.window.wndRecv }
    rttTimer := ⟨false, false⟩
    synQueue := sockqueueInit
    acceptQueue := sockqueueInit }

/-! ## The window objects, read and written through a socket -/

namespace TjuTcp

variable (s : TjuTcp)

/-- `sock->window.wnd_send->base`. -/
abbrev base : UInt32 := s.window.wndSend.base

/-- `sock->window.wnd_send->nextseq`. -/
abbrev nextseq : UInt32 := s.window.wndSend.nextseq

/-- `sock->window.wnd_recv->expect_seq`. -/
abbrev expectSeq : UInt32 := s.window.wndRecv.expectSeq

/-- `sock->window.wnd_send->rwnd = v`. -/
def setRwnd (v : UInt16) : TjuTcp :=
  { s with window := { s.window with wndSend := { s.window.wndSend with rwnd := v } } }

/-- `sock->window.wnd_send->base = v`. -/
def setBase (v : UInt32) : TjuTcp :=
  { s with window := { s.window with wndSend := { s.window.wndSend with base := v } } }

/-- `sock->window.wnd_send->nextseq = v`. -/
def setNextseq (v : UInt32) : TjuTcp :=
  { s with window := { s.window with wndSend := { s.window.wndSend with nextseq := v } } }

/-- `memcpy(sock->window.wnd_send->send_windows + off, buf, len)`. -/
def copyToSendWindows (off : ℕ) (buf : Buf) : TjuTcp :=
  { s with window := { s.window with wndSend :=
    { s.window.wndSend with sendWindows := s.window.wndSend.sendWindows.write off buf } } }

/-- `sock->window.wnd_recv->expect_seq = v`. -/
def setExpectSeq (v : UInt32) : TjuTcp :=
  { s with window := { s.window with wndRecv := ⟨v⟩ } }

/-- `sending_buf` holds `buf`, and `sending_len` is its length. -/
def setSendingBuf (buf : Buf) : TjuTcp := { s with sendingBuf := buf }

/-- `received_buf` holds `buf`, and `received_len` is its length. -/
def setReceivedBuf (buf : Buf) : TjuTcp := { s with receivedBuf := buf }

/-- `*sock->accept_queue` has become `q`. -/
def setAcceptQueue (q : SockQueue ConnSock) : TjuTcp := { s with acceptQueue := q }

end TjuTcp

/-- `TCP_RECV_BUFFER_SIZE - sock->received_len`, converted to the 16 bits of the header field. -/
def advWnd (s : TjuTcp) : UInt16 :=
  .ofNat (((tcpRecvBufferSize : ℤ) - s.receivedBuf.length) % 65536).toNat

/-! ## Handing packets to the network -/

/-- `sendToLayer3`: the datagram that leaves the host, if one does.  Every caller passes the length
of the buffer it has built. -/
def sendToLayer3 (packetBuf : Buf) : Option Buf :=
  if packetBuf.length > maxLen then none else some packetBuf

/-- A header-only packet of a socket: the shape `tcp_send_ack` and its siblings share. -/
def controlPkt (s : TjuTcp) (seq ack : UInt32) (flags : UInt8) (advWindow : UInt16) : Buf :=
  createPacketBuf s.establishedLocalAddr.port s.establishedRemoteAddr.port seq ack
    (.ofNat headerLen) (.ofNat headerLen) flags advWindow 0 []

/-- What a header-only packet says. -/
theorem controlPkt_eq (s : TjuTcp) (seq ack : UInt32) (flags : UInt8) (advWindow : UInt16) :
    ∃ h : TjuHeader, controlPkt s seq ack flags advWindow = h.bytes ++ [] ∧
      h.sourcePort = s.establishedLocalAddr.port ∧
      h.destinationPort = s.establishedRemoteAddr.port ∧ h.seqNum = seq ∧ h.flags = flags ∧
      h.hlen = .ofNat headerLen ∧ h.plen = .ofNat headerLen :=
  ⟨_, createPacketBuf_eq _ _ seq ack _ _ flags advWindow 0 rfl rfl, rfl, rfl, rfl, rfl, rfl, rfl⟩

theorem controlPkt_built (s : TjuTcp) (seq ack : UInt32) (flags : UInt8) (advWindow : UInt16) :
    Built (controlPkt s seq ack flags advWindow) s.establishedLocalAddr.port seq flags [] :=
  built_createPacketBuf _ _ seq ack flags advWindow 0 rfl rfl

/-- `tcp_send_ack`. -/
def tcpSendAck (s : TjuTcp) : Buf := controlPkt s s.expectSeq s.expectSeq Flag.ack (advWnd s)

/-- `tcp_send_fin_ack`. -/
def tcpSendFinAck (s : TjuTcp) : Buf := controlPkt s s.expectSeq s.expectSeq Flag.finAck 0

/-- `tcp_send_syn`. -/
def tcpSendSyn (s : TjuTcp) : Buf := controlPkt s s.expectSeq s.expectSeq Flag.syn 0

/-- `tcp_send_syn_ack`. -/
def tcpSendSynAck (s : TjuTcp) : Buf := controlPkt s s.expectSeq s.expectSeq Flag.synAck 0

/-- `back_only_header`. -/
def backOnlyHeader (s : TjuTcp) : Buf := controlPkt s s.nextseq 0 Flag.backhead (advWnd s)

/-- A data packet of a socket, as `tcp_send_stream` and `tcp_retransmit_timer` build it: `plen` is
the 16-bit sum of the two lengths. -/
def dataPkt (s : TjuTcp) (seq : UInt32) (advWindow : UInt16) (buf : Buf) : Buf :=
  createPacketBuf s.establishedLocalAddr.port s.establishedRemoteAddr.port seq 0
    (.ofNat headerLen) (.ofNat (headerLen + buf.length)) Flag.noFlag advWindow 0 buf

/-- Where `plen` has room for it, the payload is `buf`. -/
theorem dataPkt_built (s : TjuTcp) (seq : UInt32) (advWindow : UInt16) {buf : Buf}
    (h : headerLen + buf.length < 65536) :
    Built (dataPkt s seq advWindow buf) s.establishedLocalAddr.port seq Flag.noFlag buf := by
  refine built_createPacketBuf _ _ seq 0 Flag.noFlag advWindow 0 rfl ?_
  rw [UInt16.toNat_ofNat', Nat.mod_eq_of_lt h]

/-- `sendToLayer3` lets a packet out unless its data is too long. -/
theorem Built.sendToLayer3 {pkt : Buf} {src : UInt16} {seq : UInt32} {flags : UInt8} {data : Buf}
    (h : Built pkt src seq flags data) (hlen : headerLen + data.length ≤ maxLen) :
    TrivalTcp.sendToLayer3 pkt = some pkt := by
  rw [TrivalTcp.sendToLayer3, h.length, if_neg (Nat.not_lt.mpr hlen)]

/-- What a data packet says: its payload is as much of `buf` as `plen` has room for, and where there
is no room for a header there is nothing. -/
theorem dataPkt_eq (s : TjuTcp) (seq : UInt32) (advWindow : UInt16) (buf : Buf) :
    (dataPkt s seq advWindow buf).length < headerLen ∨ ∃ (h : TjuHeader) (payload : Buf),
      dataPkt s seq advWindow buf = h.bytes ++ payload ∧ payload <+: buf ∧
      h.sourcePort = s.establishedLocalAddr.port ∧ h.seqNum = seq ∧ h.flags = Flag.noFlag ∧
      h.hlen = .ofNat headerLen ∧ h.plen.toNat = headerLen + payload.length := by
  have hlen : (UInt16.ofNat (headerLen + buf.length)).toNat ≤ headerLen + buf.length := by
    rw [UInt16.toNat_ofNat']
    exact Nat.mod_le _ _
  rw [dataPkt, createPacketBuf]
  generalize UInt16.ofNat (headerLen + buf.length) = plen at hlen ⊢
  generalize hp : createPacket _ _ seq 0 _ plen Flag.noFlag advWindow 0 buf = p
  obtain ⟨hh, hplen, hseq, hflags, hsrc, hdata⟩ : p.header.hlen = .ofNat headerLen ∧
      p.header.plen = plen ∧ p.header.seqNum = seq ∧ p.header.flags = Flag.noFlag ∧
      p.header.sourcePort = s.establishedLocalAddr.port ∧ p.data = buf := by
    subst hp
    exact ⟨rfl, rfl, rfl, rfl, rfl, rfl⟩
  rcases packetToBuf_cases (by rw [hh]; rfl) (by rw [hplen, hdata]; exact hlen) with
    hlt | ⟨hge, hbuf⟩
  · exact .inl hlt
  · have hle : p.data.take (p.header.plen.toNat - headerLen) <+: buf :=
      hdata ▸ List.take_prefix _ p.data
    refine .inr ⟨p.header, _, hbuf, hle, hsrc, hseq, hflags, hh, ?_⟩
    rw [List.length_take, Nat.min_eq_left (by rw [hplen, hdata]; omega)]
    exact (Nat.add_sub_cancel' hge).symm

end TrivalTcp
