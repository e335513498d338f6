import TrivalTcp.Kernel.Demux

/-!
# Kernel/Safety — which packets a host survives

`tju_handle_packet` ends the process on purpose, on an ACK whose `plen` is below its `hlen`
(`IllegalAck`).  Five more kinds of packet run into what the code does not guard against (`Slip`): a
client reads `connect_sock->state` where there is no socket, a table leads to a socket that
`tcp_state_close` has freed, a listening socket has no slot for the sender, or its queue counts
sockets it does not hold, or data comes for a socket whose `received_buf` is gone: `tcp_accept` has
copied the pointer, and another socket with it has moved the block or freed it.  Everything else is
processed to its end, and `onTCPPocket` returns 0 or -1.
-/

namespace TrivalTcp

/-! ## The functions that process a packet -/

section Functions

variable {s : TjuTcp} {pkt : Buf}

theorem tcpStateClose_status (s : TjuTcp) (pkt : Buf) :
    (tcpStateClose s pkt).2.2.1 = 0 ∨ (tcpStateClose s pkt).2.2.1 = -1 := by
  rcases tcpStateClose_cases s pkt with ⟨-, -, heq⟩ | ⟨-, -, heq⟩ | ⟨-, -, heq⟩ | ⟨-, -, heq⟩ | heq
  all_goals rw [heq]
  · exact .inl rfl
  · exact .inl rfl
  · exact .inl rfl
  · exact .inl rfl
  · exact .inr rfl

/-- **Every other packet is processed to its end.** -/
theorem tjuHandlePacket_returns (hlen : headerLen ≤ pkt.length)
    (hplen : (getPlen pkt).toNat = pkt.length)
    (hlegal : ¬ (getFlags pkt = Flag.ack ∧ getPlen pkt < getHlen pkt)) :
    ∃ r, tjuHandlePacket s pkt = .ret r := by
  rw [tjuHandlePacket, if_neg (Nat.not_lt.mpr hlen)]
  dsimp only
  split_ifs with hhead hback hack hshort
  · exact ⟨_, rfl⟩
  · exact ⟨_, rfl⟩
  · exact absurd ⟨hack, hshort⟩ hlegal
  · exact ⟨_, rfl⟩
  · exact ⟨_, appendReceived_eq hlen hplen _ _⟩
  · exact ⟨_, rfl⟩
  · exact ⟨_, appendReceived_eq hlen hplen _ _⟩
  · exact ⟨_, rfl⟩

theorem tcpRcvStateClient_returns (hlen : headerLen ≤ pkt.length) (connSock : TjuSockAddr) :
    ∃ t packets status, tcpRcvStateClient s pkt connSock = .ret (t, packets, status) ∧
      (status = 0 ∨ status = -1) := by
  rw [tcpRcvStateClient, if_neg (Nat.not_lt.mpr hlen)]
  dsimp only
  split_ifs
  · exact ⟨_, _, _, rfl, .inl rfl⟩
  · exact ⟨_, _, _, rfl, .inr rfl⟩
  · exact ⟨_, _, _, rfl, .inr rfl⟩

end Functions

/-! ## What goes wrong -/

variable (host : Side)

/-- The table a packet is looked up in leads to the connection at `p`. -/
def LeadsTo (k : Kernel) (pkt : Buf) (p : Ptr) : Prop :=
  ∃ i, tableIndex (addrHash (Kernel.pktAddrs host pkt).1 (Kernel.pktAddrs host pkt).2) = some i ∧
    k.manager.table k.manager.isServer i = some p

/-- **The end of the process**: an established connection is given an ACK whose `plen` is below its
`hlen`. -/
def IllegalAck (k : Kernel) (pkt : Buf) : Prop :=
  getFlags pkt = Flag.ack ∧ getPlen pkt < getHlen pkt ∧
    ∃ p m, LeadsTo host k pkt p ∧ k.heap.sock p = .live m ∧ m.fields.state = .established

/-- `connect_sock->state` is read where `connect_sock` is `NULL`. -/
def ReadsNull (k : Kernel) (pkt : Buf) : Prop :=
  k.manager.isServer = false ∧ ∃ i, k.manager.connectSock i = none ∧
    tableIndex (addrHash (Kernel.pktAddrs host pkt).1 (Kernel.pktAddrs host pkt).2) = some i

/-- A socket is looked at that has been freed. -/
def ReadsFreed (k : Kernel) (pkt : Buf) : Prop :=
  ∃ p, k.heap.sock p = .freed ∧
    (LeadsTo host k pkt p ∨ ∃ r, k.receiver host pkt = .ret (some (r, p)))

/-- A listening socket has no slot for the sender, or an ACK makes it take a socket out of a broken
queue. -/
def Mislistens (k : Kernel) (pkt : Buf) : Prop :=
  ∃ p m, k.receiver host pkt = .ret (some (.tcpRcvStateServer, p)) ∧ k.heap.sock p = .live m ∧
    (listenSlot (k.heap.load m) (Kernel.pktAddrs host pkt).2 = none ∨
      ∃ i, listenSlot (k.heap.load m) (Kernel.pktAddrs host pkt).2 = some i ∧
        m.fields.listenState i = .synRecv ∧ getFlags pkt = Flag.ack ∧
        BrokenQueue (k.heap.load m))

/-- `received_buf` is to grow, but leads to a block that is gone: another socket with the same
pointer has moved it with `realloc` or freed it. -/
def AppendsStale (k : Kernel) (pkt : Buf) : Prop :=
  ∃ p m, k.receiver host pkt = .ret (some (.tjuHandlePacket, p)) ∧ k.heap.sock p = .live m ∧
    Appends (k.heap.load m) pkt ∧
    (k.heap.receivedBufs m.ptrs.receivedBufs).Stale m.ptrs.receivedBuf

/-- **What the code does not guard against.** -/
def Slip (k : Kernel) (pkt : Buf) : Prop :=
  ReadsNull host k pkt ∨ ReadsFreed host k pkt ∨ Mislistens host k pkt ∨ AppendsStale host k pkt

variable {host} {w : Host} {pkt : Buf} {p : Ptr} {m : SockMem}

/-- What a table leads to has been a socket. -/
theorem HostOk.table_used (h : HostOk w) {accepted : Bool} {i : Fin maxSockSize}
    (hp : w.kernel.manager.table accepted i = some p) : w.kernel.heap.sock p ≠ .unused := by
  rw [h.tables] at hp
  obtain ⟨c, hlast, rfl⟩ := Option.map_eq_some_iff.mp hp
  exact h.entered _ (mem_of_lastAt hlast)

theorem HostOk.opening_used (h : HostOk w) {l i : Fin maxSockSize} {r : Handler}
    (ho : Kernel.opening host (w.kernel.manager.listenQueue l) (w.kernel.manager.connectSock i) =
      some (r, p)) : w.kernel.heap.sock p ≠ .unused := by
  unfold Kernel.opening at ho
  split at ho
  next hlisten =>
    obtain ⟨-, rfl⟩ := Prod.mk.inj (Option.some.inj ho)
    exact h.listening l _ hlisten
  next hconnect =>
    obtain ⟨-, rfl⟩ := Prod.mk.inj (Option.some.inj ho)
    exact h.table_used (show w.kernel.manager.table false i = some _ from hconnect)
  next => nomatch ho

/-- A connection found in its table gets the packet, where it takes it. -/
theorem LeadsTo.receiver {k : Kernel} (hleads : LeadsTo host k pkt p)
    (hlen : headerLen ≤ pkt.length)
    (hcheck : tcpCheck (bufToPacket pkt) = true) (hm : k.heap.sock p = .live m)
    (htakes : Takes k pkt m) :
    k.receiver host pkt = .ret (some (connHandler m.fields.state pkt, p)) := by
  obtain ⟨i, hi, hp⟩ := hleads
  obtain ⟨l, j, -, hj, heq⟩ := receiver_eq host (k := k) hlen hcheck
  obtain rfl := Option.some.inj (hi.symm.trans hj)
  rw [TcpManager.table_apply] at hp
  exact heq.trans (choose_conn host hp hm htakes)

/-- **What the choice of a socket can end in**: a slip, no socket, or one that has been made. -/
theorem HostOk.receiver_cases (h : HostOk w) (hlen : headerLen ≤ pkt.length)
    (hcheck : tcpCheck (bufToPacket pkt) = true) :
    Slip host w.kernel pkt ∨ w.kernel.receiver host pkt = .ret none ∨
      ∃ r q, w.kernel.receiver host pkt = .ret (some (r, q)) ∧ w.kernel.heap.sock q ≠ .unused := by
  obtain ⟨l, i, -, hi, heq⟩ := receiver_eq host (k := w.kernel) hlen hcheck
  have hopening : w.kernel.receiver host pkt = .ret (Kernel.opening host
      (w.kernel.manager.listenQueue l) (w.kernel.manager.connectSock i)) →
      Slip host w.kernel pkt ∨ w.kernel.receiver host pkt = .ret none ∨
        ∃ r q, w.kernel.receiver host pkt = .ret (some (r, q)) ∧
          w.kernel.heap.sock q ≠ .unused := by
    intro hreceiver
    cases ho : Kernel.opening host (w.kernel.manager.listenQueue l)
        (w.kernel.manager.connectSock i) with
    | none => exact .inr (.inl (ho ▸ hreceiver))
    | some c => exact .inr (.inr ⟨c.1, c.2, ho ▸ hreceiver, h.opening_used ho⟩)
  cases hp : w.kernel.manager.table w.kernel.manager.isServer i with
  | none =>
    rw [TcpManager.table_apply] at hp
    cases hserver : w.kernel.manager.isServer with
    | true =>
      rw [hserver, if_pos rfl] at hp
      exact hopening (heq.trans (by simp [Kernel.choose, hserver, hp]))
    | false =>
      rw [hserver, if_neg (by decide)] at hp
      exact .inl (.inl ⟨hserver, i, hp, hi⟩)
  | some q =>
    have hleads : LeadsTo host w.kernel pkt q := ⟨i, hi, hp⟩
    cases hq : w.kernel.heap.sock q with
    | unused => exact absurd hq (h.table_used hp)
    | freed => exact .inl (.inr (.inl ⟨q, hq, .inl hleads⟩))
    | live m =>
      by_cases htakes : Takes w.kernel pkt m
      · refine .inr (.inr ⟨_, q, hleads.receiver hlen hcheck hq htakes, ?_⟩)
        rw [hq]
        simp
      · obtain ⟨hserver, hfin, hsyn⟩ : w.kernel.manager.isServer = false ∧ isFin pkt = false ∧
            m.fields.state = .synSent := by
          simpa [Takes] using htakes
        rw [TcpManager.table_apply, hserver, if_neg (by decide)] at hp
        have hderef := Heap.deref_eq_ret.mpr hq
        exact hopening (heq.trans (by simp [Kernel.choose, hserver, hp, hfin, hderef, hsyn]))

/-! ## What becomes of a packet -/

section Outcomes

variable {k : Kernel}

theorem onSock_live {α : Type} {f : TjuTcp → Outcome (TjuTcp × α)} {s : TjuTcp} {a : α}
    (hm : k.heap.sock p = .live m) (hf : f (k.heap.load m) = .ret (s, a)) :
    k.heap.onSock p f = .ret (k.heap.store p m.ptrs s, a) :=
  Heap.onSock_eq_ret.mpr ⟨m, s, hm, hf, rfl⟩

/-- `onTCPPocket` returns 0 or -1. -/
def ReturnsStatus (r : Outcome (Kernel × List Buf × ℤ)) : Prop :=
  ∃ k packets status, r = .ret (k, packets, status) ∧ (status = 0 ∨ status = -1)

theorem handOn_tcpStateClose (hm : k.heap.sock p = .live m) :
    ReturnsStatus (k.handOn host pkt (.tcpStateClose, p)) := by
  have hsock := onSock_live (f := fun s => .ret (tcpStateClose s pkt)) hm rfl
  rw [Kernel.handOn, hsock]
  exact ⟨_, _, _, rfl, tcpStateClose_status _ pkt⟩

theorem handOn_tjuHandlePacket (hm : k.heap.sock p = .live m) (hlen : headerLen ≤ pkt.length)
    (hplen : (getPlen pkt).toNat = pkt.length)
    (hlegal : ¬ (getFlags pkt = Flag.ack ∧ getPlen pkt < getHlen pkt))
    (hthere : ¬ (Appends (k.heap.load m) pkt ∧
      (k.heap.receivedBufs m.ptrs.receivedBufs).Stale m.ptrs.receivedBuf)) :
    ReturnsStatus (k.handOn host pkt (.tjuHandlePacket, p)) := by
  obtain ⟨⟨s, packets⟩, hret⟩ := tjuHandlePacket_returns (s := k.heap.load m) hlen hplen hlegal
  obtain ⟨happends, hstale, -⟩ | ⟨-, ⟨arena, b⟩, huse⟩ := packetUse_cases pkt (k.heap.load m)
    (k.heap.receivedBufs m.ptrs.receivedBufs) m.ptrs.receivedBuf
  · exact absurd ⟨happends, hstale⟩ hthere
  · have hsock : k.heap.onSockUsing p (packetUse pkt) (fun s => tjuHandlePacket s pkt) =
        .ret (k.heap.storeMoved p m.ptrs arena b s, packets) :=
      Heap.onSockUsing_eq_ret.mpr ⟨m, arena, b, s, hm, huse, hret, rfl⟩
    rw [Kernel.handOn, hsock]
    exact ⟨_, _, _, rfl, .inl rfl⟩

theorem handOn_tcpRcvStateServer {i : Fin maxSockSize} (hm : k.heap.sock p = .live m)
    (hlen : headerLen ≤ pkt.length)
    (hi : listenSlot (k.heap.load m) (Kernel.pktAddrs host pkt).2 = some i)
    (hqueue : m.fields.listenState i = .synRecv → getFlags pkt = Flag.ack →
      ¬ BrokenQueue (k.heap.load m)) :
    ReturnsStatus (k.handOn host pkt (.tcpRcvStateServer, p)) := by
  obtain ⟨s, packets, status, hret, hstatus⟩ := tcpRcvStateServer_returns hlen hi hqueue
  rw [Kernel.handOn, onSock_live hm hret]
  exact ⟨_, _, _, rfl, hstatus⟩

theorem handOn_tcpRcvStateClient (hm : k.heap.sock p = .live m) (hlen : headerLen ≤ pkt.length) :
    ReturnsStatus (k.handOn host pkt (.tcpRcvStateClient, p)) := by
  obtain ⟨s, packets, status, hret, hstatus⟩ := tcpRcvStateClient_returns (s := k.heap.load m) hlen
    (Kernel.pktAddrs host pkt).2
  rw [Kernel.handOn, onSock_live hm hret]
  exact ⟨_, _, _, rfl, hstatus⟩

/-- What `tju_handle_packet` is given is a packet of an established connection. -/
theorem established_of_receiver
    (hreceiver : k.receiver host pkt = .ret (some (.tjuHandlePacket, p)))
    (hm : k.heap.sock p = .live m) :
    LeadsTo host k pkt p ∧ m.fields.state = .established := by
  obtain ⟨hlen, hcheck, l, i, hi, hchoose⟩ := receiver_cases hreceiver
  obtain ⟨-, hp, htakes⟩ | ⟨hopening, -⟩ := choose_cases hchoose
  · have hleads : LeadsTo host k pkt p := ⟨i, hi, (TcpManager.table_apply _ _ _).trans hp⟩
    refine ⟨hleads, ?_⟩
    have hsame := hreceiver.symm.trans (hleads.receiver hlen hcheck hm (htakes m hm))
    have hhandler := (Prod.mk.inj (Option.some.inj (Outcome.ret.inj hsame))).1
    rw [connHandler] at hhandler
    split_ifs at hhandler with hclose
    exact not_not.mp (not_or.mp hclose).2
  · exact absurd (.inr rfl) hopening

/-- **Every packet that is legal and meets no slip is processed to its end.** -/
theorem HostOk.returns (h : HostOk w) (hlen : headerLen ≤ pkt.length)
    (hplen : (getPlen pkt).toNat = pkt.length) (hcheck : tcpCheck (bufToPacket pkt) = true)
    (hslip : ¬ Slip host w.kernel pkt) (hlegal : ¬ IllegalAck host w.kernel pkt) :
    ReturnsStatus (w.kernel.onTCPPocket host pkt) := by
  rcases h.receiver_cases hlen hcheck with hbad | hnone | ⟨r, p, hreceiver, hused⟩
  · exact absurd hbad hslip
  · rw [Kernel.onTCPPocket, hnone]
    exact ⟨_, _, _, rfl, .inr rfl⟩
  · rw [Kernel.onTCPPocket, hreceiver, Outcome.ret_bind]
    dsimp only
    cases hm : w.kernel.heap.sock p with
    | unused => exact absurd hm hused
    | freed => exact absurd (.inr (.inl ⟨p, hm, .inr ⟨r, hreceiver⟩⟩)) hslip
    | live m =>
      cases r with
      | tcpStateClose => exact handOn_tcpStateClose hm
      | tjuHandlePacket =>
        obtain ⟨hleads, hest⟩ := established_of_receiver hreceiver hm
        refine handOn_tjuHandlePacket hm hlen hplen (fun ⟨hack, hshort⟩ => ?_)
          fun ⟨happends, hstale⟩ => ?_
        · exact hlegal ⟨hack, hshort, p, m, hleads, hm, hest⟩
        · exact hslip (.inr (.inr (.inr ⟨p, m, hreceiver, hm, happends, hstale⟩)))
      | tcpRcvStateServer =>
        cases hi : listenSlot (w.kernel.heap.load m) (Kernel.pktAddrs host pkt).2 with
        | none => exact absurd (.inr (.inr (.inl ⟨p, m, hreceiver, hm, .inl hi⟩))) hslip
        | some i =>
          refine handOn_tcpRcvStateServer hm hlen hi fun hst hack hbroken => hslip ?_
          exact .inr (.inr (.inl ⟨p, m, hreceiver, hm, .inr ⟨i, hi, hst, hack, hbroken⟩⟩))
      | tcpRcvStateClient => exact handOn_tcpRcvStateClient hm hlen

theorem onSock_freed {α : Type} (hp : k.heap.sock p = .freed)
    (f : TjuTcp → Outcome (TjuTcp × α)) : k.heap.onSock p f = .undef := by
  rw [Heap.onSock, Heap.deref, hp]
  rfl

theorem handOn_freed (hp : k.heap.sock p = .freed) (r : Handler) :
    k.handOn host pkt (r, p) = .undef := by
  cases r with
  | tcpStateClose | tcpRcvStateServer | tcpRcvStateClient =>
    rw [Kernel.handOn, onSock_freed hp]
    rfl
  | tjuHandlePacket =>
    rw [Kernel.handOn, Heap.onSockUsing, Heap.deref, hp]
    rfl

theorem ReadsNull.undef (h : ReadsNull host k pkt) (hlen : headerLen ≤ pkt.length)
    (hcheck : tcpCheck (bufToPacket pkt) = true) : k.onTCPPocket host pkt = .undef := by
  obtain ⟨hserver, i, hp, hi⟩ := h
  obtain ⟨l, j, -, hj, heq⟩ := receiver_eq host (k := k) hlen hcheck
  obtain rfl := Option.some.inj (hi.symm.trans hj)
  have hreceiver : k.receiver host pkt = .undef := heq.trans (by simp [Kernel.choose, hserver, hp])
  rw [Kernel.onTCPPocket, hreceiver]
  rfl

theorem ReadsFreed.undef (h : ReadsFreed host k pkt) (hlen : headerLen ≤ pkt.length)
    (hcheck : tcpCheck (bufToPacket pkt) = true) : k.onTCPPocket host pkt = .undef := by
  obtain ⟨p, hp, ⟨i, hi, htable⟩ | ⟨r, hreceiver⟩⟩ := h
  · obtain ⟨l, j, -, hj, heq⟩ := receiver_eq host (k := k) hlen hcheck
    obtain rfl := Option.some.inj (hi.symm.trans hj)
    have hderef : k.heap.deref p = .undef := by rw [Heap.deref, hp]
    rw [TcpManager.table_apply] at htable
    have hclose : k.receiver host pkt = .ret (some (.tcpStateClose, p)) →
        k.onTCPPocket host pkt = .undef := by
      intro hreceiver
      have hfreed : k.handOn host pkt (.tcpStateClose, p) = .undef := handOn_freed hp _
      rw [Kernel.onTCPPocket, hreceiver]
      exact hfreed
    have hundef : k.receiver host pkt = .undef → k.onTCPPocket host pkt = .undef := by
      intro hreceiver
      rw [Kernel.onTCPPocket, hreceiver]
      rfl
    cases hserver : k.manager.isServer with
    | true =>
      rw [hserver, if_pos rfl] at htable
      by_cases hfin : isFin pkt = true
      · exact hclose (heq.trans (by simp [Kernel.choose, hserver, htable, hfin]))
      · exact hundef (heq.trans (by simp [Kernel.choose, hserver, htable, hfin, hderef]))
    | false =>
      rw [hserver, if_neg (by decide)] at htable
      by_cases hfin : isFin pkt = true
      · exact hclose (heq.trans (by simp [Kernel.choose, hserver, htable, hfin]))
      · exact hundef (heq.trans (by simp [Kernel.choose, hserver, htable, hfin, hderef]))
  · rw [Kernel.onTCPPocket, hreceiver]
    exact handOn_freed hp r

theorem Mislistens.undef (h : Mislistens host k pkt) : k.onTCPPocket host pkt = .undef := by
  obtain ⟨p, m, hreceiver, hm, hcases⟩ := h
  have hserver : tcpRcvStateServer (k.heap.load m) pkt (Kernel.pktAddrs host pkt).2 = .undef :=
    tcpRcvStateServer_eq_undef.mpr (.inr hcases)
  have hsock : k.heap.onSock p
      (fun s => tcpRcvStateServer s pkt (Kernel.pktAddrs host pkt).2) = .undef := by
    rw [Heap.onSock, Heap.deref_eq_ret.mpr hm]
    dsimp only [Outcome.ret_bind]
    rw [hserver]
    rfl
  rw [Kernel.onTCPPocket, hreceiver]
  dsimp only [Outcome.ret_bind]
  rw [Kernel.handOn, hsock]
  rfl

theorem AppendsStale.undef (h : AppendsStale host k pkt) : k.onTCPPocket host pkt = .undef := by
  obtain ⟨p, m, hreceiver, hm, happends, hstale⟩ := h
  obtain ⟨-, -, huse⟩ | ⟨hthere, -⟩ := packetUse_cases pkt (k.heap.load m)
    (k.heap.receivedBufs m.ptrs.receivedBufs) m.ptrs.receivedBuf
  · have hsock : k.heap.onSockUsing p (packetUse pkt) (fun s => tjuHandlePacket s pkt) =
        .undef := by
      rw [Heap.onSockUsing, Heap.deref_eq_ret.mpr hm]
      dsimp only [Outcome.ret_bind]
      rw [huse]
      rfl
    rw [Kernel.onTCPPocket, hreceiver]
    dsimp only [Outcome.ret_bind]
    rw [Kernel.handOn, hsock]
    rfl
  · exact absurd ⟨happends, hstale⟩ hthere

/-- **A slip is undefined behaviour**, each of them. -/
theorem Slip.undef (h : Slip host k pkt) (hlen : headerLen ≤ pkt.length)
    (hcheck : tcpCheck (bufToPacket pkt) = true) : k.onTCPPocket host pkt = .undef := by
  rcases h with hnull | hfreed | hlisten | hstale
  · exact hnull.undef hlen hcheck
  · exact hfreed.undef hlen hcheck
  · exact hlisten.undef
  · exact hstale.undef

end Outcomes

end TrivalTcp
