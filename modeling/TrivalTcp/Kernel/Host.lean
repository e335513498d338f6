import TrivalTcp.Kernel.Kernel

/-!
# Kernel/Host — a whole host, and what its functions leave of a socket's identity

A `Host` is the kernel with a log of the connections entered into its tables.  In every step the
application makes a call, a call returns, a connection runs one of its own functions, or a packet
arrives.  The application may make any call on any socket: none of the functions tests the state it
finds.  `Steady` says what the functions that run on a connection have in common: it keeps its
addresses.
-/

namespace TrivalTcp

/-! ## A host -/

/-- A connection, as `tcp_accept` or `tcp_connect` has entered it into its table. -/
structure Opened where
  sock : Ptr
  localAddr : TjuSockAddr
  remoteAddr : TjuSockAddr
  deriving DecidableEq, Repr

/-- A host, with a log of what has been entered into `established_queue` (`true`) and
`connect_sock` (`false`), by place and the newest first. -/
structure Host where
  kernel : Kernel
  log : List ((Bool × Fin maxSockSize) × Opened)

/-- What can happen at a host. -/
inductive HostEvent where
  | socket (p : Ptr) (junk : TjuTcp)
  | bind (p : Ptr) (bindAddr : TjuSockAddr)
  | listen (p : Ptr)
  | connect (p : Ptr) (targetAddr : TjuSockAddr)
  | connectReturns (p : Ptr)
  | accept (listenSock connSock : Ptr)
  | acceptReturns (connSock : Ptr) (junk : TjuSockAddr)
  | call (p : Ptr) (c : Call)
  | close (p : Ptr)
  | packet (pkt : Buf)

/-- The socket at `p` has been entered into a table.  `tcp_connect` looks for the place with its own
address, `tcp_accept` with that of the listening socket. -/
def Host.enter (w : Host) (accepted : Bool) (p : Ptr) (k : Kernel) : Host :=
  match k.heap.sock p with
  | .live m =>
    let localAddr := m.fields.establishedLocalAddr
    let remoteAddr := m.fields.establishedRemoteAddr
    match tableIndex (addrHash (if accepted then localAddr else clientAddr) remoteAddr) with
    | some i => ⟨k, ((accepted, i), ⟨p, localAddr, remoteAddr⟩) :: w.log⟩
    | none => ⟨k, w.log⟩
  | _ => ⟨k, w.log⟩

variable (host : Side)

/-- A step of the host: a call of the application, its return, one of a connection's own functions,
or the arrival of a packet. -/
def hostStep (w : Host) : HostEvent → Outcome Host
  | .socket p junk =>
    w.kernel.heap.tcpSocket p junk >>= fun heap => .ret { w with kernel := { w.kernel with heap } }
  | .bind p bindAddr =>
    w.kernel.heap.onSock p (fun s => .ret (tcpBind s bindAddr, ())) >>= fun (heap, _) =>
      .ret { w with kernel := { w.kernel with heap } }
  | .listen p => w.kernel.tcpListen p >>= fun kernel => .ret { w with kernel }
  | .connect p targetAddr =>
    w.kernel.tcpConnectBegin p targetAddr >>= fun (kernel, _) => .ret (w.enter false p kernel)
  | .connectReturns p =>
    w.kernel.tcpConnectEnd p >>= fun kernel => .ret (w.enter false p kernel)
  | .accept listenSock connSock =>
    w.kernel.tcpAcceptBegin listenSock connSock >>= fun kernel => .ret { w with kernel }
  | .acceptReturns connSock junk =>
    w.kernel.tcpAcceptEnd connSock junk >>= fun kernel => .ret (w.enter true connSock kernel)
  | .call p c =>
    w.kernel.heap.onSockUsing p (callUse c)
        (fun s => callStep (.start s) c >>= fun a => .ret (a.sock, a.handed))
      >>= fun (heap, _) => .ret { w with kernel := { w.kernel with heap } }
  | .close p =>
    w.kernel.heap.onSockUsing p closeUse (fun s => .ret (tcpClose s)) >>= fun (heap, _) =>
      .ret { w with kernel := { w.kernel with heap } }
  | .packet pkt =>
    w.kernel.onTCPPocket host pkt >>= fun (kernel, _) => .ret { w with kernel }

/-- A host that has just been started. -/
def HostStart (w : Host) : Prop := w.kernel.Booted ∧ w.log = []

/-! ## What the functions leave of a connection's identity -/

/-- The socket keeps its addresses. -/
structure Steady (s t : SocketFields) : Prop where
  localAddr : t.establishedLocalAddr = s.establishedLocalAddr
  remoteAddr : t.establishedRemoteAddr = s.establishedRemoteAddr

theorem Steady.trans {s t u : SocketFields} (h : Steady s t) (h' : Steady t u) : Steady s u :=
  ⟨h'.localAddr.trans h.localAddr, h'.remoteAddr.trans h.remoteAddr⟩

theorem steady_tjuHandlePacket {s t : TjuTcp} {pkt : Buf} {packets : List Buf}
    (h : tjuHandlePacket s pkt = .ret (t, packets)) : Steady s.toSocketFields t.toSocketFields := by
  obtain ⟨_, _, _, _, _, _, rfl⟩ := tjuHandlePacket_frame h
  exact ⟨rfl, rfl⟩

theorem steady_tcpStateClose (s : TjuTcp) (pkt : Buf) :
    Steady s.toSocketFields (tcpStateClose s pkt).1.toSocketFields := by
  rcases tcpStateClose_cases s pkt with ⟨-, -, heq⟩ | ⟨-, -, heq⟩ | ⟨-, -, heq⟩ | ⟨-, -, heq⟩ | heq
  all_goals
    rw [heq]
    exact ⟨rfl, rfl⟩

theorem steady_tcpRcvStateClient {s t : TjuTcp} {pkt : Buf} {connAddr : TjuSockAddr}
    {r : List Buf × ℤ} (h : tcpRcvStateClient s pkt connAddr = .ret (t, r)) :
    Steady s.toSocketFields t.toSocketFields := by
  rcases tcpRcvStateClient_cases h with ⟨-, -, hlocal, hremote, -⟩ | ⟨rfl, -⟩
  · exact ⟨hlocal, hremote⟩
  · exact ⟨rfl, rfl⟩

theorem steady_timerExpiry {s t : TjuTcp} {packets : List Buf}
    (h : timerExpiry s = .ret (t, packets)) : Steady s.toSocketFields t.toSocketFields := by
  rcases timerExpiry_frame h with ⟨-, rfl⟩ | ⟨-, _, _, _, _, _, _, _, rfl⟩
  · exact ⟨rfl, rfl⟩
  · exact ⟨rfl, rfl⟩

theorem steady_tcpSendStream {s : TjuTcp} {r : Sent} (h : tcpSendStream s = .ret r) :
    Steady s.toSocketFields r.sock.toSocketFields := by
  obtain ⟨_, _, _, -, -, hsock⟩ := tcpSendStream_frame h
  rw [hsock]
  exact ⟨rfl, rfl⟩

theorem steady_callStep {a b : EndState} {c : Call} (h : callStep a c = .ret b) :
    Steady a.sock.toSocketFields b.sock.toSocketFields := by
  cases c with
  | send buffer =>
    rcases callStep_send_eq_ret h with rfl | rfl
    · exact ⟨rfl, rfl⟩
    · exact ⟨rfl, rfl⟩
  | stream =>
    obtain ⟨r, hstream, rfl⟩ := callStep_stream_eq_ret h
    exact steady_tcpSendStream hstream
  | timeout =>
    obtain ⟨s, packets, hexpiry, rfl⟩ := callStep_timeout_eq_ret h
    exact steady_timerExpiry hexpiry
  | recv len =>
    obtain ⟨bytes, rest, -, rfl⟩ := callStep_recv_eq_ret h
    exact ⟨rfl, rfl⟩

end TrivalTcp
