import TrivalTcp.Handshake.Handshake
import TrivalTcp.Kernel.Heap
import TrivalTcp.Transfer.Link

/-!
# Kernel/Kernel — the socket tables and where a packet goes (`tcp_manager.c`, `kernel.c`, `api.c`)

The calls of `api.c` as the whole host sees them: with the tables of `tcp_manager`, and on sockets
in memory.  `tcp_accept` and `tcp_connect` wait, so each is split in two; what waits is part of the
state.  `onTCPPocket` is split too, into the choice of a socket (`receiver`) and the call of what
processes the packet there.  `callUse`, `closeUse` and `packetUse` say what the functions of a
connection do with the block `received_buf` leads to; all others leave it alone.
-/

namespace TrivalTcp

/-- `tcp_manager_t`; `isServer` is not initialised before `tcp_listen` or `tcp_connect` sets it. -/
structure TcpManager where
  listenQueue : Fin maxSockSize → Option Ptr
  establishedQueue : Fin maxSockSize → Option Ptr
  connectSock : Fin maxSockSize → Option Ptr
  isServer : Bool

structure Kernel where
  heap : Heap
  manager : TcpManager
  /-- The `listen_sock` of the `tcp_accept` that waits, by its `conn_sock`. -/
  accepting : Ptr → Option Ptr
  /-- How many calls of `tcp_connect` wait, by their `sock`. -/
  connecting : Ptr → ℕ

/-- The address `tcp_connect` gives every socket: 10.0.0.2, port 5678. -/
def clientAddr : TjuSockAddr := ⟨0x0A000002, 5678⟩

/-- The address of a host, by its `hostname`. -/
def hostIp : Side → UInt32
  | .client => 0x0A000002
  | .server => 0x0A000003

namespace Kernel

variable (k : Kernel)

/-! ## Calls of the application -/

/-- `tcp_listen`. -/
def tcpListen (p : Ptr) : Outcome Kernel :=
  k.heap.deref p >>= fun m =>
    match tableIndex (calHash m.fields.bindAddr.ip m.fields.bindAddr.port 0 0) with
    | none => .undef
    | some i =>
      .ret { k with
        heap := k.heap.store p m.ptrs (TrivalTcp.tcpListen (k.heap.load m))
        manager := { k.manager with
          listenQueue := Function.update k.manager.listenQueue i (some p)
          isServer := true } }

/-- `tcp_accept` up to its wait: the struct of the listening socket is copied, pointers included, to
memory the application has newly allocated. -/
def tcpAcceptBegin (listenSock connSock : Ptr) : Outcome Kernel :=
  k.heap.deref listenSock >>= fun m =>
    match k.heap.sock connSock with
    | .unused =>
      .ret { k with
        heap := { k.heap with sock := Function.update k.heap.sock connSock (.live m) }
        accepting := Function.update k.accepting connSock (some listenSock) }
    | _ => .blocked

/-- What `tcp_accept` makes of the copy. -/
def acceptConn (connSock : TjuTcp) (localAddr remoteAddr : TjuSockAddr) : TjuTcp :=
  let s := { connSock with
    establishedLocalAddr := localAddr
    establishedRemoteAddr := remoteAddr
    state := .established }
  ((s.setExpectSeq 0).setBase 0).setNextseq 0

/-- `tcp_accept` after its wait.  `junk` is what an address that was never written reads as. -/
def tcpAcceptEnd (connSock : Ptr) (junk : TjuSockAddr) : Outcome Kernel :=
  match k.accepting connSock with
  | some listenSock =>
    k.heap.deref listenSock >>= fun m =>
      let listen := k.heap.load m
      if sockqueueIsEmpty listen.acceptQueue then
        .blocked
      else
        sockqueuePop listen.acceptQueue >>= fun (acceptQueue, sock, _) =>
          let heap := k.heap.store listenSock m.ptrs (listen.setAcceptQueue acceptQueue)
          let localAddr := listen.bindAddr
          let remoteAddr := (sock.bind fun c => c.bindAddr).getD junk
          heap.deref connSock >>= fun c =>
            match tableIndex (addrHash localAddr remoteAddr) with
            | none => .undef
            | some i =>
              .ret { k with
                heap := heap.store connSock c.ptrs (acceptConn (heap.load c) localAddr remoteAddr)
                manager := { k.manager with
                  establishedQueue :=
                    Function.update k.manager.establishedQueue i (some connSock) }
                accepting := Function.update k.accepting connSock none }
  | none => .blocked

/-- `tcp_connect` up to its wait: the kernel, and the SYN it hands on. -/
def tcpConnectBegin (p : Ptr) (targetAddr : TjuSockAddr) : Outcome (Kernel × List Buf) :=
  match tableIndex (addrHash clientAddr targetAddr) with
  | none => .undef
  | some i =>
    k.heap.onSock p (fun s => .ret (TrivalTcp.tcpConnectBegin s clientAddr targetAddr))
      >>= fun (heap, packets) =>
        .ret
          ({ k with
             heap
             manager := { k.manager with
              isServer := false
              connectSock := Function.update k.manager.connectSock i (some p) }
             connecting := Function.update k.connecting p (k.connecting p + 1) }, packets)

/-- `tcp_connect` after its wait. -/
def tcpConnectEnd (p : Ptr) : Outcome Kernel :=
  if 0 < k.connecting p then
    k.heap.deref p >>= fun m =>
      TrivalTcp.tcpConnectEnd (k.heap.load m) >>= fun s =>
        match tableIndex (addrHash clientAddr m.fields.establishedRemoteAddr) with
        | none => .undef
        | some i =>
          .ret { k with
            heap := k.heap.store p m.ptrs s
            manager := { k.manager with
              connectSock := Function.update k.manager.connectSock i (some p) }
            connecting := Function.update k.connecting p (k.connecting p - 1) }
  else
    .blocked

end Kernel

/-- A host on which no socket has been made yet. -/
structure Kernel.Booted (k : Kernel) : Prop where
  sock : ∀ p, k.heap.sock p = .unused
  accepting : ∀ p, k.accepting p = none
  connecting : ∀ p, k.connecting p = 0
  listenQueue : ∀ i, k.manager.listenQueue i = none
  establishedQueue : ∀ i, k.manager.establishedQueue i = none
  connectSock : ∀ i, k.manager.connectSock i = none

/-- A host in zeroed memory, `tcp_manager_init` done. -/
def zeroedKernel : Kernel where
  heap := ⟨fun _ => .unused, fun _ => default, fun _ => default, fun _ => default, fun _ => default,
    fun _ => default, fun _ => default, fun _ => .empty⟩
  manager := ⟨fun _ => none, fun _ => none, fun _ => none, false⟩
  accepting _ := none
  connecting _ := 0

theorem booted_zeroedKernel : zeroedKernel.Booted :=
  ⟨fun _ => rfl, fun _ => rfl, fun _ => rfl, fun _ => rfl, fun _ => rfl, fun _ => rfl⟩

/-! ## What becomes of `received_buf` -/

/-- `tju_handle_packet` comes to its end, where `received_buf` grows by the payload. -/
def Appends (s : TjuTcp) (pkt : Buf) : Prop :=
  (getFlags pkt = Flag.ack ∧ getHlen pkt < getPlen pkt) ∨
    (getFlags pkt ≠ Flag.ack ∧ getFlags pkt ≠ Flag.head ∧ getFlags pkt ≠ Flag.backhead ∧
      getSeq pkt = s.expectSeq)

instance (s : TjuTcp) (pkt : Buf) : Decidable (Appends s pkt) :=
  inferInstanceAs (Decidable (_ ∨ _))

/-- `tju_handle_packet`: `malloc` where `received_buf` is `NULL` and `realloc` elsewhere, which is
`realloc` in either case. -/
def packetUse (pkt : Buf) (s : TjuTcp) : BufUse :=
  if Appends s pkt then
    .realloc (s.receivedBuf.length + ((getPlen pkt).toUInt32 - .ofNat headerLen).toNat)
  else
    .keep

/-- **`tju_handle_packet` needs the block of `received_buf`**, where it comes to it. -/
theorem packetUse_cases (pkt : Buf) (s : TjuTcp) (a : Arena UInt8) (b : ℕ) :
    (Appends s pkt ∧ a.Stale b ∧ (packetUse pkt s).run a b = .undef) ∨
      (¬ (Appends s pkt ∧ a.Stale b) ∧ ∃ r, (packetUse pkt s).run a b = .ret r) := by
  rw [packetUse]
  split_ifs with happends
  · rcases a.realloc_cases b
        (s.receivedBuf.length + ((getPlen pkt).toUInt32 - .ofNat headerLen).toNat) with
      ⟨hstale, heq⟩ | ⟨hstale, hret⟩
    · exact .inl ⟨happends, hstale, heq⟩
    · exact .inr ⟨fun h => hstale h.2, hret⟩
  · exact .inr ⟨fun h => happends h.1, _, rfl⟩

/-- `tcp_close`. -/
def closeUse (_ : TjuTcp) : BufUse := .free

/-- The functions a connection runs itself: `tcp_recv` comes to the buffer once it holds something,
and an expiry that gives up closes. -/
def callUse : Call → TjuTcp → BufUse
  | .recv _, s => if s.receivedBuf.length = 0 then .keep else .access
  | .timeout, s => if GivesUp s then closeUse s else .keep
  | _, _ => .keep

/-! ## A packet arrives -/

/-- `tcp_state_close`: the socket, the packets handed on, the returned status, and whether the
socket is freed.  The function sleeps twice; nothing is looked at again afterwards. -/
def tcpStateClose (s : TjuTcp) (recvPkt : Buf) : TjuTcp × List Buf × ℤ × Bool :=
  let flags := getFlags recvPkt
  match s.state with
  | .established =>
    if flags = Flag.finAck then
      ({ s with state := .lastAck }, [tcpSendAck s, tcpSendFinAck s], 0, false)
    else
      (s, [], -1, false)
  | .finWait1 =>
    if flags = Flag.ack then ({ s with state := .finWait2 }, [], 0, false) else (s, [], -1, false)
  | .finWait2 =>
    if flags = Flag.finAck then
      ({ s with state := .timeWait }, [tcpSendAck s], 0, true)
    else
      (s, [], -1, false)
  | .lastAck =>
    if flags = Flag.ack then ({ s with state := .closed }, [], 0, true) else (s, [], -1, false)
  | _ => (s, [], -1, false)

/-- The functions `onTCPPocket` hands a packet to. -/
inductive Handler where
  | tcpStateClose
  | tjuHandlePacket
  | tcpRcvStateServer
  | tcpRcvStateClient
  deriving DecidableEq, Repr

/-- Sockets that are connected, as opposed to those that are opening a connection. -/
def Handler.Connected (r : Handler) : Prop := r = tcpStateClose ∨ r = tjuHandlePacket

namespace Kernel

variable (k : Kernel)

/-- The end of the choice `onTCPPocket` makes: sockets that are opening a connection. -/
def opening (host : Side) (listenSock connectSock : Option Ptr) : Option (Handler × Ptr) :=
  match host, listenSock, connectSock with
  | .server, some p, _ => some (.tcpRcvStateServer, p)
  | .client, _, some p => some (.tcpRcvStateClient, p)
  | _, _, _ => none

/-- The choice `onTCPPocket` makes for a packet that has passed `tcp_check`, once the three tables
have been read: which socket is to process it, and how. -/
def choose (host : Side) (pkt : Buf) (listenSock established connectSock : Option Ptr) :
    Outcome (Option (Handler × Ptr)) :=
  match k.manager.isServer, established, connectSock with
  | true, some p, _ =>
    if isFin pkt then
      .ret (some (.tcpStateClose, p))
    else
      k.heap.deref p >>= fun m =>
        if m.fields.state ≠ .established then
          .ret (some (.tcpStateClose, p))
        else
          .ret (some (.tjuHandlePacket, p))
  | true, none, _ => .ret (opening host listenSock connectSock)
  -- `connect_sock->state` is read without a test for `NULL`
  | false, _, none => .undef
  | false, _, some p =>
    if isFin pkt then
      .ret (some (.tcpStateClose, p))
    else
      k.heap.deref p >>= fun m =>
        if m.fields.state ≠ .established ∧ m.fields.state ≠ .synSent then
          .ret (some (.tcpStateClose, p))
        else if m.fields.state = .established then
          .ret (some (.tjuHandlePacket, p))
        else
          .ret (opening host listenSock connectSock)

/-- The four-tuple a packet belongs to: what is local and what is remote to the host it arrives
at. -/
def pktAddrs (host : Side) (pkt : Buf) : TjuSockAddr × TjuSockAddr :=
  (⟨hostIp host, getDst pkt⟩, ⟨hostIp host.other, getSrc pkt⟩)

/-- The socket a packet is handed to, if it passes `tcp_check` and there is one. -/
def receiver (host : Side) (pkt : Buf) : Outcome (Option (Handler × Ptr)) :=
  if pkt.length < headerLen then
    .undef
  else if ¬ tcpCheck (bufToPacket pkt) then
    .ret none
  else
    match tableIndex (calHash (hostIp host) (getDst pkt) 0 0) with
    | none => .undef
    | some l =>
      match tableIndex (addrHash (pktAddrs host pkt).1 (pktAddrs host pkt).2) with
      | none => .undef
      | some i =>
        k.choose host pkt (k.manager.listenQueue l) (k.manager.establishedQueue i)
          (k.manager.connectSock i)

/-- Call what processes the packet. -/
def handOn (host : Side) (pkt : Buf) : Handler × Ptr → Outcome (Kernel × List Buf × ℤ)
  | (.tcpStateClose, p) =>
    k.heap.onSock p (fun s => .ret (tcpStateClose s pkt)) >>= fun (heap, packets, status, freed) =>
      .ret ({ k with heap := if freed then heap.free p else heap }, packets, status)
  | (.tjuHandlePacket, p) =>
    k.heap.onSockUsing p (packetUse pkt) (fun s => tjuHandlePacket s pkt) >>=
      fun (heap, packets) => .ret ({ k with heap }, packets, 0)
  | (.tcpRcvStateServer, p) =>
    k.heap.onSock p (fun s => tcpRcvStateServer s pkt (pktAddrs host pkt).2)
      >>= fun (heap, packets, status) => .ret ({ k with heap }, packets, status)
  | (.tcpRcvStateClient, p) =>
    k.heap.onSock p (fun s => tcpRcvStateClient s pkt (pktAddrs host pkt).2)
      >>= fun (heap, packets, status) => .ret ({ k with heap }, packets, status)

/-- `onTCPPocket`. -/
def onTCPPocket (host : Side) (pkt : Buf) : Outcome (Kernel × List Buf × ℤ) :=
  k.receiver host pkt >>= fun r =>
    match r with
    | none => .ret (k, [], -1)
    | some r => k.handOn host pkt r

/-! ## What they can do -/

variable {k}

/-- **When `tcp_accept` returns, and what it has done**: it has taken the first connection out of
`accept_queue`, and entered `conn_sock` under that connection's address. -/
theorem tcpAcceptEnd_eq_ret {p : Ptr} {junk : TjuSockAddr} {k' : Kernel} :
    k.tcpAcceptEnd p junk = .ret k' ↔ ∃ l m size node rest heap c remoteAddr i,
      k.accepting p = some l ∧ k.heap.sock l = .live m ∧
      (k.heap.load m).acceptQueue = ⟨size + 1, node :: rest⟩ ∧
      heap = k.heap.store l m.ptrs ((k.heap.load m).setAcceptQueue ⟨size, rest⟩) ∧
      heap.sock p = .live c ∧ remoteAddr = node.bindAddr.getD junk ∧
      tableIndex (addrHash m.fields.bindAddr remoteAddr) = some i ∧
      k' = { k with
        heap := heap.store p c.ptrs (acceptConn (heap.load c) m.fields.bindAddr remoteAddr)
        manager := { k.manager with
          establishedQueue := Function.update k.manager.establishedQueue i (some p) }
        accepting := Function.update k.accepting p none } := by
  constructor
  · intro h
    rw [tcpAcceptEnd] at h
    split at h
    next l hwait =>
      obtain ⟨m, hm, h⟩ := Outcome.bind_eq_ret.mp h
      dsimp only at h
      split_ifs at h with hempty
      obtain ⟨⟨q', sock, st⟩, hpop, h⟩ := Outcome.bind_eq_ret.mp h
      obtain ⟨size, node, rest, hq, rfl, rfl⟩ :=
        sockqueuePop_eq_ret (Bool.eq_false_of_not_eq_true hempty) hpop
      obtain ⟨c, hc, h⟩ := Outcome.bind_eq_ret.mp h
      split at h
      next => nomatch h
      next i hi =>
        exact ⟨l, m, size, node, rest, _, c, _, i, hwait, Heap.deref_eq_ret.mp hm, hq, rfl,
          Heap.deref_eq_ret.mp hc, rfl, hi, (Outcome.ret.inj h).symm⟩
    next => nomatch h
  · rintro ⟨l, m, size, node, rest, heap, c, remoteAddr, i, hwait, hm, hq, rfl, hc, rfl, hi, rfl⟩
    rw [tcpAcceptEnd, hwait]
    refine Outcome.bind_eq_ret.mpr ⟨m, Heap.deref_eq_ret.mpr hm, ?_⟩
    dsimp only
    rw [hq, if_neg (by rw [sockqueueIsEmpty]; simp)]
    refine Outcome.bind_eq_ret.mpr ⟨(⟨size, rest⟩, some node, 0), rfl, ?_⟩
    refine Outcome.bind_eq_ret.mpr ⟨c, Heap.deref_eq_ret.mpr hc, ?_⟩
    dsimp only
    have hi' : tableIndex (addrHash (k.heap.load m).bindAddr
        (((some node).bind fun c => c.bindAddr).getD junk)) = some i := hi
    rw [hi']
    rfl

end Kernel

/-- **What `tcp_state_close` does**, state by state. -/
theorem tcpStateClose_cases (s : TjuTcp) (recvPkt : Buf) :
    (s.state = .established ∧ getFlags recvPkt = Flag.finAck ∧ tcpStateClose s recvPkt =
      ({ s with state := .lastAck }, [tcpSendAck s, tcpSendFinAck s], 0, false)) ∨
    (s.state = .finWait1 ∧ getFlags recvPkt = Flag.ack ∧ tcpStateClose s recvPkt =
      ({ s with state := .finWait2 }, [], 0, false)) ∨
    (s.state = .finWait2 ∧ getFlags recvPkt = Flag.finAck ∧ tcpStateClose s recvPkt =
      ({ s with state := .timeWait }, [tcpSendAck s], 0, true)) ∨
    (s.state = .lastAck ∧ getFlags recvPkt = Flag.ack ∧ tcpStateClose s recvPkt =
      ({ s with state := .closed }, [], 0, true)) ∨
    tcpStateClose s recvPkt = (s, [], -1, false) := by
  rw [tcpStateClose]
  split
  next hst =>
    split_ifs with hflags
    · exact .inl ⟨hst, hflags, rfl⟩
    · exact .inr (.inr (.inr (.inr rfl)))
  next hst =>
    split_ifs with hflags
    · exact .inr (.inl ⟨hst, hflags, rfl⟩)
    · exact .inr (.inr (.inr (.inr rfl)))
  next hst =>
    split_ifs with hflags
    · exact .inr (.inr (.inl ⟨hst, hflags, rfl⟩))
    · exact .inr (.inr (.inr (.inr rfl)))
  next hst =>
    split_ifs with hflags
    · exact .inr (.inr (.inr (.inl ⟨hst, hflags, rfl⟩)))
    · exact .inr (.inr (.inr (.inr rfl)))
  next => exact .inr (.inr (.inr (.inr rfl)))

end TrivalTcp
