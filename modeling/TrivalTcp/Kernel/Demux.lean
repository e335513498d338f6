import TrivalTcp.Foundations.LastEntry
import TrivalTcp.Kernel.Effects

/-!
# Kernel/Demux — which connection gets a packet

The tables of connected sockets have one place for each value of `cal_hash`, and no key.
`hostStep_tables` says what a step does to them, and `HostOk` what they hold in every state: what was
entered last in each place.

`rightSocket_iff` says exactly when `onTCPPocket` hands a packet to a socket with the packet's own
four-tuple only: when the connection that was entered last among those with the packet's hash is the
packet's own.
-/

namespace TrivalTcp

variable (host : Side)

/-! ## The choice of a socket -/

/-- The socket at hand takes a packet as a connection's: on a client, it is past `SYN_SENT` or the
packet is a FIN. -/
def Takes (k : Kernel) (pkt : Buf) (m : SockMem) : Prop :=
  k.manager.isServer = true ∨ isFin pkt = true ∨ m.fields.state ≠ .synSent

theorem opening_cases {listenSock connectSock : Option Ptr} {r : Handler} {p : Ptr}
    (h : Kernel.opening host listenSock connectSock = some (r, p)) :
    ¬ r.Connected ∧ (r = .tcpRcvStateServer → listenSock = some p) := by
  unfold Kernel.opening at h
  split at h
  next =>
    obtain ⟨rfl, rfl⟩ := Prod.mk.inj (Option.some.inj h)
    exact ⟨by simp [Handler.Connected], fun _ => rfl⟩
  next =>
    obtain ⟨rfl, -⟩ := Prod.mk.inj (Option.some.inj h)
    exact ⟨by simp [Handler.Connected], nofun⟩
  next => nomatch h

/-- **What `onTCPPocket` has chosen**: the connection in the table, where it takes the packet, or a
socket that is opening one. -/
theorem choose_cases {host : Side} {k : Kernel} {pkt : Buf}
    {listenSock established connectSock : Option Ptr}
    {r : Handler} {p : Ptr}
    (h : k.choose host pkt listenSock established connectSock = .ret (some (r, p))) :
    (r.Connected ∧ (if k.manager.isServer then established else connectSock) = some p ∧
      ∀ m, k.heap.sock p = .live m → Takes k pkt m) ∨
    (¬ r.Connected ∧ (r = .tcpRcvStateServer → listenSock = some p)) := by
  unfold Kernel.choose at h
  split at h
  next q hserver =>
    rw [hserver, if_pos rfl]
    have hconn : r.Connected ∧ q = p := by
      split_ifs at h with hfin
      · obtain ⟨rfl, rfl⟩ := Prod.mk.inj (Option.some.inj (Outcome.ret.inj h))
        exact ⟨.inl rfl, rfl⟩
      · obtain ⟨m, -, h⟩ := Outcome.bind_eq_ret.mp h
        split_ifs at h with hst
        · obtain ⟨rfl, rfl⟩ := Prod.mk.inj (Option.some.inj (Outcome.ret.inj h))
          exact ⟨.inl rfl, rfl⟩
        · obtain ⟨rfl, rfl⟩ := Prod.mk.inj (Option.some.inj (Outcome.ret.inj h))
          exact ⟨.inr rfl, rfl⟩
    exact .inl ⟨hconn.1, congrArg some hconn.2, fun _ _ => .inl hserver⟩
  next => exact .inr (opening_cases host (Outcome.ret.inj h))
  next => nomatch h
  next q hclient =>
    rw [hclient, if_neg (by decide)]
    split_ifs at h with hfin
    · obtain ⟨rfl, rfl⟩ := Prod.mk.inj (Option.some.inj (Outcome.ret.inj h))
      exact .inl ⟨.inl rfl, rfl, fun _ _ => .inr (.inl hfin)⟩
    · obtain ⟨m, hm, h⟩ := Outcome.bind_eq_ret.mp h
      rw [Heap.deref_eq_ret] at hm
      split_ifs at h with hclosing hest
      · obtain ⟨rfl, rfl⟩ := Prod.mk.inj (Option.some.inj (Outcome.ret.inj h))
        refine .inl ⟨.inl rfl, rfl, fun m' hm' => .inr (.inr ?_)⟩
        obtain rfl := Cell.live.inj (hm.symm.trans hm')
        exact hclosing.2
      · obtain ⟨rfl, rfl⟩ := Prod.mk.inj (Option.some.inj (Outcome.ret.inj h))
        refine .inl ⟨.inr rfl, rfl, fun m' hm' => .inr (.inr fun hsyn => ?_)⟩
        obtain rfl := Cell.live.inj (hm.symm.trans hm')
        exact nomatch hest.symm.trans hsyn
      · exact .inr (opening_cases host (Outcome.ret.inj h))

/-- The function a connection's packets are handed to. -/
def connHandler (state : TcpState) (pkt : Buf) : Handler :=
  if isFin pkt ∨ state ≠ .established then .tcpStateClose else .tjuHandlePacket

theorem connHandler_connected (state : TcpState) (pkt : Buf) :
    (connHandler state pkt).Connected := by
  rw [connHandler]
  split_ifs
  · exact .inl rfl
  · exact .inr rfl

/-- **A connection in the table that takes the packet is chosen.** -/
theorem choose_conn {k : Kernel} {pkt : Buf}
    {listenSock established connectSock : Option Ptr} {p : Ptr} {m : SockMem}
    (hp : (if k.manager.isServer then established else connectSock) = some p)
    (hm : k.heap.sock p = .live m) (htakes : Takes k pkt m) :
    k.choose host pkt listenSock established connectSock =
      .ret (some (connHandler m.fields.state pkt, p)) := by
  have hderef := Heap.deref_eq_ret.mpr hm
  rw [connHandler]
  cases hserver : k.manager.isServer with
  | true =>
    rw [hserver, if_pos rfl] at hp
    by_cases hfin : isFin pkt = true
    · simp [Kernel.choose, hserver, hp, hfin]
    · by_cases hest : m.fields.state = .established
      · simp [Kernel.choose, hserver, hp, hfin, hderef, hest]
      · simp [Kernel.choose, hserver, hp, hfin, hderef, hest]
  | false =>
    rw [hserver, if_neg (by decide)] at hp
    by_cases hfin : isFin pkt = true
    · simp [Kernel.choose, hserver, hp, hfin]
    · by_cases hest : m.fields.state = .established
      · simp [Kernel.choose, hserver, hp, hfin, hderef, hest]
      · have hsyn : m.fields.state ≠ .synSent := by
          rcases htakes with hs | hs | hs
          · exact nomatch hserver.symm.trans hs
          · exact absurd hs hfin
          · exact hs
        simp [Kernel.choose, hserver, hp, hfin, hderef, hest, hsyn]

/-- The choice made for a packet, from the places its hashes lead to. -/
theorem receiver_eq {k : Kernel} {pkt : Buf} (hlen : headerLen ≤ pkt.length)
    (hcheck : tcpCheck (bufToPacket pkt) = true) :
    ∃ l i, tableIndex (calHash (hostIp host) (getDst pkt) 0 0) = some l ∧
      tableIndex (addrHash (Kernel.pktAddrs host pkt).1 (Kernel.pktAddrs host pkt).2) = some i ∧
      k.receiver host pkt = k.choose host pkt (k.manager.listenQueue l)
        (k.manager.establishedQueue i) (k.manager.connectSock i) := by
  have hip : ∀ x, (hostIp x).toNat < 2 ^ 28 := by
    rintro (_ | _) <;> decide
  have hlocal := hip host
  have hremote := hip host.other
  have hdst := (getDst pkt).toNat_lt
  have hsrc := (getSrc pkt).toNat_lt
  obtain ⟨l, hl⟩ := tableIndex_calHash (hostIp host) (getDst pkt) 0 0
    (by rw [UInt32.toNat_zero, UInt16.toNat_zero]; omega)
  obtain ⟨i, hi⟩ := tableIndex_calHash (hostIp host) (getDst pkt) (hostIp host.other) (getSrc pkt)
    (by omega)
  refine ⟨l, i, hl, hi, ?_⟩
  have hi' : tableIndex (addrHash (Kernel.pktAddrs host pkt).1 (Kernel.pktAddrs host pkt).2) =
      some i := hi
  rw [Kernel.receiver, if_neg (Nat.not_lt.mpr hlen), if_neg (not_not.mpr hcheck), hl]
  dsimp only
  rw [hi']

variable {host}

/-- Only a packet that passes `tcp_check` is handed to a socket. -/
theorem receiver_cases {k : Kernel} {pkt : Buf} {r : Handler} {p : Ptr}
    (h : k.receiver host pkt = .ret (some (r, p))) :
    headerLen ≤ pkt.length ∧ tcpCheck (bufToPacket pkt) = true ∧ ∃ l i,
      tableIndex (addrHash (Kernel.pktAddrs host pkt).1 (Kernel.pktAddrs host pkt).2) = some i ∧
      k.choose host pkt (k.manager.listenQueue l) (k.manager.establishedQueue i)
        (k.manager.connectSock i) = .ret (some (r, p)) := by
  by_cases hlen : pkt.length < headerLen
  · rw [Kernel.receiver, if_pos hlen] at h
    nomatch h
  by_cases hcheck : tcpCheck (bufToPacket pkt) = true
  · obtain ⟨l, i, -, hi, heq⟩ := receiver_eq host (k := k) (Nat.not_lt.mp hlen) hcheck
    exact ⟨Nat.not_lt.mp hlen, hcheck, l, i, hi, heq.symm.trans h⟩
  · rw [Kernel.receiver, if_neg hlen, if_pos hcheck] at h
    nomatch h

/-! ## The tables -/

/-- The table a host looks a connection up in. -/
def TcpManager.table (m : TcpManager) (accepted : Bool) : Fin maxSockSize → Option Ptr :=
  if accepted then m.establishedQueue else m.connectSock

theorem TcpManager.table_apply (t : TcpManager) (accepted : Bool) (i : Fin maxSockSize) :
    t.table accepted i = if accepted then t.establishedQueue i else t.connectSock i := by
  rw [table]
  split_ifs
  · rfl
  · rfl

/-- The addresses a connected socket has. -/
def connAddrs (m : SockMem) : TjuSockAddr × TjuSockAddr :=
  (m.fields.establishedLocalAddr, m.fields.establishedRemoteAddr)

/-- The socket at `p` is entered into a table, at `i`, with the addresses it then has. -/
structure Enters (w w' : Host) (accepted : Bool) (p : Ptr) (i : Fin maxSockSize) (m : SockMem) :
    Prop where
  live : w'.kernel.heap.sock p = .live m
  log : w'.log = ((accepted, i), ⟨p, m.fields.establishedLocalAddr,
    m.fields.establishedRemoteAddr⟩) :: w.log
  listenQueue : w'.kernel.manager.listenQueue = w.kernel.manager.listenQueue
  table : w'.kernel.manager.table accepted =
    Function.update (w.kernel.manager.table accepted) i (some p)
  rest : w'.kernel.manager.table (!accepted) = w.kernel.manager.table (!accepted)
  accepting : ∀ q, w.kernel.accepting q = none → w'.kernel.accepting q = none
  connecting : ∀ q, q ≠ p → w'.kernel.connecting q = w.kernel.connecting q

theorem Enters.of_enter {w : Host} {accepted : Bool} {p : Ptr} {k : Kernel} {m : SockMem}
    {i : Fin maxSockSize} (hp : k.heap.sock p = .live m)
    (hi : tableIndex (addrHash (if accepted then m.fields.establishedLocalAddr else clientAddr)
      m.fields.establishedRemoteAddr) = some i)
    (hqueue : k.manager.listenQueue = w.kernel.manager.listenQueue)
    (htable : k.manager.table accepted =
      Function.update (w.kernel.manager.table accepted) i (some p))
    (hrest : k.manager.table (!accepted) = w.kernel.manager.table (!accepted))
    (haccepting : ∀ q, w.kernel.accepting q = none → k.accepting q = none)
    (hconnecting : ∀ q, q ≠ p → k.connecting q = w.kernel.connecting q) :
    Enters w (w.enter accepted p k) accepted p i m := by
  have henter : w.enter accepted p k = ⟨k, ((accepted, i), ⟨p, m.fields.establishedLocalAddr,
      m.fields.establishedRemoteAddr⟩) :: w.log⟩ := by
    rw [Host.enter, hp]
    dsimp only
    rw [hi]
  rw [henter]
  exact ⟨hp, rfl, hqueue, htable, hrest, haccepting, hconnecting⟩

/-- **What a step does to the tables**: nothing, or one socket is entered into one of them. -/
theorem hostStep_tables {w w' : Host} {e : HostEvent} (hs : hostStep host w e = .ret w') :
    (w'.kernel.manager = w.kernel.manager ∧ w'.log = w.log ∧
      w'.kernel.connecting = w.kernel.connecting ∧
      (w'.kernel.accepting = w.kernel.accepting ∨ ∃ p l, w.kernel.heap.sock p = .unused ∧
        w'.kernel.accepting = Function.update w.kernel.accepting p (some l)) ∧
      ∀ q ∈ readdressed host w e, ∃ i, w.kernel.manager.listenQueue i = some q) ∨
    (∃ p i, e = .listen p ∧ w.kernel.heap.sock p ≠ .unused ∧
      w'.kernel.manager = { w.kernel.manager with
        listenQueue := Function.update w.kernel.manager.listenQueue i (some p)
        isServer := true } ∧
      w'.log = w.log ∧ w'.kernel.connecting = w.kernel.connecting ∧
      w'.kernel.accepting = w.kernel.accepting) ∨
    (∃ accepted p i m, Enters w w' accepted p i m ∧ readdressed host w e ⊆ {p} ∧
      ((∃ targetAddr, e = .connect p targetAddr) ∨ 0 < w.kernel.connecting p ∨
        w.kernel.accepting p ≠ none)) := by
  cases e with
  | socket p junk =>
    obtain ⟨heap, -, hret⟩ := Outcome.bind_eq_ret.mp hs
    obtain rfl := Outcome.ret.inj hret
    exact .inl ⟨rfl, rfl, rfl, .inl rfl, fun q hq => absurd hq (Set.notMem_empty q)⟩
  | bind p bindAddr =>
    obtain ⟨⟨heap, _⟩, -, hret⟩ := Outcome.bind_eq_ret.mp hs
    obtain rfl := Outcome.ret.inj hret
    exact .inl ⟨rfl, rfl, rfl, .inl rfl, fun q hq => absurd hq (Set.notMem_empty q)⟩
  | listen p =>
    obtain ⟨k, hlisten, hret⟩ := Outcome.bind_eq_ret.mp hs
    obtain rfl := Outcome.ret.inj hret
    obtain ⟨m, hm, hlisten⟩ := Outcome.bind_eq_ret.mp hlisten
    rw [Heap.deref_eq_ret] at hm
    dsimp only at hlisten
    split at hlisten
    next => contradiction
    next i hi =>
      obtain rfl := Outcome.ret.inj hlisten
      refine .inr (.inl ⟨p, i, rfl, ?_, rfl, rfl, rfl, rfl⟩)
      rw [hm]
      exact Cell.noConfusion
  | connect p targetAddr =>
    obtain ⟨⟨k, packets⟩, hconnect, hret⟩ := Outcome.bind_eq_ret.mp hs
    obtain rfl := Outcome.ret.inj hret
    rw [Kernel.tcpConnectBegin] at hconnect
    split at hconnect
    next => contradiction
    next i hi =>
      obtain ⟨⟨heap, ps⟩, hsock, hconnect⟩ := Outcome.bind_eq_ret.mp hconnect
      obtain ⟨rfl, -⟩ := Prod.mk.inj (Outcome.ret.inj hconnect)
      obtain ⟨m, s, hm, hf, rfl⟩ := Heap.onSock_eq_ret.mp hsock
      obtain ⟨-, -, hremote, -⟩ := tcpConnectBegin_eq (w.kernel.heap.load m) clientAddr targetAddr
      rw [Outcome.ret.inj hf] at hremote
      refine .inr (.inr ⟨false, p, i, ⟨s.own, m.ptrs⟩, ?_, subset_rfl, .inl ⟨_, rfl⟩⟩)
      refine .of_enter (Heap.store_sock_self _ _ _) ?_ rfl rfl rfl (fun q hq => hq)
        fun q hqp => Function.update_of_ne hqp _ _
      exact (congrArg (fun a => tableIndex (addrHash clientAddr a)) hremote).trans hi
  | connectReturns p =>
    obtain ⟨k, hconnect, hret⟩ := Outcome.bind_eq_ret.mp hs
    obtain rfl := Outcome.ret.inj hret
    rw [Kernel.tcpConnectEnd] at hconnect
    split_ifs at hconnect with hwait
    obtain ⟨m, hm, hconnect⟩ := Outcome.bind_eq_ret.mp hconnect
    obtain ⟨s, hend, hconnect⟩ := Outcome.bind_eq_ret.mp hconnect
    rw [tcpConnectEnd] at hend
    split_ifs at hend
    obtain rfl := Outcome.ret.inj hend
    dsimp only at hconnect
    split at hconnect
    next => contradiction
    next i hi =>
      obtain rfl := Outcome.ret.inj hconnect
      exact .inr (.inr ⟨false, p, i, _, .of_enter (Heap.store_sock_self _ _ _) hi rfl rfl rfl
        (fun q hq => hq) fun q hqp => Function.update_of_ne hqp _ _, Set.empty_subset _,
        .inr (.inl hwait)⟩)
  | accept l p =>
    obtain ⟨k, haccept, hret⟩ := Outcome.bind_eq_ret.mp hs
    obtain rfl := Outcome.ret.inj hret
    obtain ⟨m, -, haccept⟩ := Outcome.bind_eq_ret.mp haccept
    dsimp only at haccept
    split at haccept
    next hunused =>
      obtain rfl := Outcome.ret.inj haccept
      exact .inl ⟨rfl, rfl, rfl, .inr ⟨p, l, hunused, rfl⟩,
        fun q hq => absurd hq (Set.notMem_empty q)⟩
    next => contradiction
  | acceptReturns p junk =>
    obtain ⟨k, haccept, hret⟩ := Outcome.bind_eq_ret.mp hs
    obtain rfl := Outcome.ret.inj hret
    obtain ⟨l, m, size, node, rest, heap, c, remoteAddr, i, hwait, -, -, rfl, -, -, hi, rfl⟩ :=
      Kernel.tcpAcceptEnd_eq_ret.mp haccept
    have hidle : ∀ q, w.kernel.accepting q = none →
        Function.update w.kernel.accepting p none q = none := by
      intro q hq
      by_cases hqp : q = p
      · rw [hqp, Function.update_self]
      · rwa [Function.update_of_ne hqp]
    have hnone : w.kernel.accepting p ≠ none := hwait ▸ Option.some_ne_none l
    exact .inr (.inr ⟨true, p, i, _, .of_enter (Heap.store_sock_self _ _ _) hi rfl rfl rfl hidle
      fun _ _ => rfl, subset_rfl, .inr (.inr hnone)⟩)
  | call p c =>
    obtain ⟨⟨heap, _⟩, -, hret⟩ := Outcome.bind_eq_ret.mp hs
    obtain rfl := Outcome.ret.inj hret
    exact .inl ⟨rfl, rfl, rfl, .inl rfl, fun q hq => absurd hq (Set.notMem_empty q)⟩
  | close p =>
    obtain ⟨⟨heap, _⟩, -, hret⟩ := Outcome.bind_eq_ret.mp hs
    obtain rfl := Outcome.ret.inj hret
    exact .inl ⟨rfl, rfl, rfl, .inl rfl, fun q hq => absurd hq (Set.notMem_empty q)⟩
  | packet pkt =>
    obtain ⟨⟨k, x⟩, hpacket, hret⟩ := Outcome.bind_eq_ret.mp hs
    obtain rfl := Outcome.ret.inj hret
    have hlisten : ∀ q ∈ readdressed host w (.packet pkt),
        ∃ i, w.kernel.manager.listenQueue i = some q := by
      intro q hq
      obtain ⟨-, -, l, i, -, hchoose⟩ := receiver_cases hq
      obtain ⟨hconn, -⟩ | ⟨-, hlisten⟩ := choose_cases hchoose
      · exact absurd hconn (by simp [Handler.Connected])
      · exact ⟨l, hlisten rfl⟩
    have hsame : k.manager = w.kernel.manager ∧ k.connecting = w.kernel.connecting ∧
        k.accepting = w.kernel.accepting := by
      obtain ⟨chosen, -, hpacket⟩ := Outcome.bind_eq_ret.mp hpacket
      cases chosen with
      | none =>
        obtain ⟨rfl, -⟩ := Prod.mk.inj (Outcome.ret.inj hpacket)
        exact ⟨rfl, rfl, rfl⟩
      | some c =>
        obtain ⟨handler, p⟩ := c
        cases handler with
        | tcpStateClose | tjuHandlePacket | tcpRcvStateServer | tcpRcvStateClient =>
          obtain ⟨_, -, hret⟩ := Outcome.bind_eq_ret.mp hpacket
          obtain ⟨rfl, -⟩ := Prod.mk.inj (Outcome.ret.inj hret)
          exact ⟨rfl, rfl, rfl⟩
    exact .inl ⟨hsame.1, rfl, hsame.2.1, .inl hsame.2.2, hlisten⟩

/-! ## The invariant -/

/-- **The tables hold what was entered last in each place**, and nothing that has not been a
socket. -/
structure HostOk (w : Host) : Prop where
  entered : ∀ e ∈ w.log, w.kernel.heap.sock e.2.sock ≠ .unused
  listening : ∀ i p, w.kernel.manager.listenQueue i = some p → w.kernel.heap.sock p ≠ .unused
  tables : ∀ accepted i, w.kernel.manager.table accepted i =
    (lastAt w.log (accepted, i)).map fun c => c.sock

theorem hostOk_start {w : Host} (h : HostStart w) : HostOk w := by
  obtain ⟨hboot, hlog⟩ := h
  refine ⟨fun e he => ?_, fun i p hp => ?_, fun accepted i => ?_⟩
  · rw [hlog] at he
    exact absurd he List.not_mem_nil
  · exact absurd ((hboot.listenQueue i).symm.trans hp) (Option.some_ne_none p).symm
  · rw [hlog, TcpManager.table]
    split_ifs
    · exact hboot.establishedQueue i
    · exact hboot.connectSock i

/-- **The step lemma**: whatever happens at the host, its tables hold what was entered last. -/
theorem hostOk_step {w w' : Host} (h : HostOk w) {e : HostEvent}
    (hs : hostStep host w e = .ret w') : HostOk w' := by
  have hused : ∀ {q}, w.kernel.heap.sock q ≠ .unused → w'.kernel.heap.sock q ≠ .unused :=
    fun hq => hostStep_used hs hq
  rcases hostStep_tables hs with ⟨hmanager, hlog, -⟩ | ⟨p, i, -, hp, hmanager, hlog, -⟩ |
    ⟨accepted, p, i, m, henter, -⟩
  · refine ⟨fun e he => hused (h.entered e (hlog ▸ he)), fun i q hq => ?_, fun accepted i => ?_⟩
    · rw [hmanager] at hq
      exact hused (h.listening i q hq)
    · rw [hmanager, hlog]
      exact h.tables accepted i
  · refine ⟨fun e he => hused (h.entered e (hlog ▸ he)), fun j q hq => ?_, fun accepted j => ?_⟩
    · rw [hmanager] at hq
      by_cases hji : j = i
      · subst hji
        obtain rfl := Option.some.inj
          ((Function.update_self j (some p) w.kernel.manager.listenQueue).symm.trans hq)
        exact hused hp
      · exact hused (h.listening j q
          ((Function.update_of_ne hji (some p) w.kernel.manager.listenQueue).symm.trans hq))
    · rw [hmanager, hlog]
      exact h.tables accepted j
  · refine ⟨fun e he => ?_, fun j q hq => ?_, fun accepted' j => ?_⟩
    · rw [henter.log] at he
      rcases List.mem_cons.mp he with rfl | he
      · rw [henter.live]
        exact Cell.noConfusion
      · exact hused (h.entered e he)
    · rw [henter.listenQueue] at hq
      exact hused (h.listening j q hq)
    · rw [henter.log, lastAt_cons]
      by_cases hkind : accepted' = accepted
      · subst hkind
        by_cases hji : j = i
        · rw [henter.table, hji, Function.update_self, Function.update_self]
          rfl
        · rw [henter.table, Function.update_of_ne hji,
            Function.update_of_ne fun heq => hji (Prod.mk.inj heq).2]
          exact h.tables accepted' j
      · obtain rfl : accepted' = !accepted := Bool.eq_not.mpr hkind
        rw [henter.rest, Function.update_of_ne fun heq => hkind (Prod.mk.inj heq).1]
        exact h.tables _ j

theorem HostOk.of_reachable {w : Host} (hw : Reachable (hostStep host) HostStart w) : HostOk w :=
  hw.invariant (fun _ => hostOk_start) fun _ _ _ h hs => hostOk_step h hs

/-! ## What a connection was entered with -/

/-- **A socket listens or it is a connection**: `tcp_listen` is not called on one that has been
entered into a table or waits to be, nor `tcp_connect` on one that listens. -/
def OneRole (w : Host) : HostEvent → Prop
  | .listen p => w.kernel.accepting p = none ∧ ∀ e ∈ w.log, e.2.sock ≠ p
  | .connect p _ => ∀ i, w.kernel.manager.listenQueue i ≠ some p
  | _ => True

instance (w : Host) : (e : HostEvent) → Decidable (OneRole w e)
  | .listen _ => inferInstanceAs (Decidable (_ ∧ _))
  | .connect .. => inferInstanceAs (Decidable (∀ _, _))
  | .socket .. | .bind .. | .connectReturns _ | .accept .. | .acceptReturns .. | .call .. |
    .close _ | .packet _ => .isTrue trivial

/-- The four-tuple the socket at `p` was last entered with. -/
def Host.opened (w : Host) (p : Ptr) : Option (TjuSockAddr × TjuSockAddr) :=
  lastAt (w.log.map fun e => (e.2.sock, (e.2.localAddr, e.2.remoteAddr))) p

theorem Host.mem_of_opened {w : Host} {p : Ptr} {a : TjuSockAddr × TjuSockAddr}
    (h : w.opened p = some a) : ∃ e ∈ w.log, e.2.sock = p := by
  obtain ⟨e, he, heq⟩ := List.mem_map.mp (mem_of_lastAt h)
  exact ⟨e, he, (Prod.mk.inj heq).1⟩

/-- **A connection has the addresses it was last entered with.** -/
structure RolesOk (w : Host) : Prop extends HostOk w where
  addrs : ∀ p a m, w.opened p = some a → w.kernel.heap.sock p = .live m → connAddrs m = a
  connecting : ∀ p, 0 < w.kernel.connecting p → ∃ e ∈ w.log, e.2.sock = p
  apart : ∀ i p, w.kernel.manager.listenQueue i = some p →
    w.kernel.accepting p = none ∧ ∀ e ∈ w.log, e.2.sock ≠ p

theorem rolesOk_start {w : Host} (h : HostStart w) : RolesOk w where
  toHostOk := hostOk_start h
  addrs p a m hp := by
    obtain ⟨e, he, -⟩ := Host.mem_of_opened hp
    rw [h.2] at he
    exact absurd he List.not_mem_nil
  connecting p hp := absurd hp (by rw [h.1.connecting p]; exact lt_irrefl 0)
  apart i p hp := absurd ((h.1.listenQueue i).symm.trans hp) (Option.some_ne_none p).symm

/-- A socket that was there and is given no other addresses has those it had. -/
theorem hostStep_addrs {w w' : Host} {e : HostEvent} (hs : hostStep host w e = .ret w') {p : Ptr}
    {m : SockMem} (hp : w.kernel.heap.sock p ≠ .unused) (hno : p ∉ readdressed host w e)
    (hm : w'.kernel.heap.sock p = .live m) :
    ∃ m', w.kernel.heap.sock p = .live m' ∧ connAddrs m = connAddrs m' := by
  rcases hostStep_heap hs with ⟨q, junk, -, hq, heq⟩ | ⟨l, q, m', -, -, hq, heq⟩ | ⟨-, he⟩
  · have hpq : p ≠ q := fun hpq => hp (hpq ▸ hq)
    rw [heq, Heap.store_sock_of_ne hpq] at hm
    exact ⟨m, hm, rfl⟩
  · have hpq : p ≠ q := fun hpq => hp (hpq ▸ hq)
    rw [heq, copy_sock_of_ne _ hpq] at hm
    exact ⟨m, hm, rfl⟩
  · obtain ⟨m', hm', -, haddrs⟩ := he.ptrs hm
    have hsteady := haddrs hno
    exact ⟨m', hm', congrArg₂ Prod.mk hsteady.localAddr hsteady.remoteAddr⟩

theorem rolesOk_step {w w' : Host} (h : RolesOk w) {e : HostEvent} (he : OneRole w e)
    (hs : hostStep host w e = .ret w') : RolesOk w' := by
  have hok := hostOk_step h.toHostOk hs
  have hkept : ∀ {p a m}, w.opened p = some a → p ∉ readdressed host w e →
      w'.kernel.heap.sock p = .live m → connAddrs m = a := by
    intro p a m hp hno hm
    obtain ⟨e, he, rfl⟩ := Host.mem_of_opened hp
    obtain ⟨m', hm', heq⟩ := hostStep_addrs hs (h.entered e he) hno hm
    exact heq.trans (h.addrs _ a m' hp hm')
  rcases hostStep_tables hs with ⟨hmanager, hlog, hconnecting, haccepting, hlisten⟩ |
    ⟨p, i, rfl, -, hmanager, hlog, hconnecting, haccepting⟩ |
    ⟨accepted, p, i, m, henter, hsub, hwaits⟩
  · refine ⟨hok, fun p a m hp hm => ?_, fun p hp => ?_, fun i p hp => ?_⟩
    · rw [Host.opened, hlog] at hp
      refine hkept hp (fun hmem => ?_) hm
      obtain ⟨i, hi⟩ := hlisten p hmem
      obtain ⟨e', he', heq⟩ := Host.mem_of_opened hp
      exact (h.apart i p hi).2 e' he' heq
    · rw [hconnecting] at hp
      rw [hlog]
      exact h.connecting p hp
    · rw [hmanager] at hp
      rw [hlog]
      refine ⟨?_, (h.apart i p hp).2⟩
      rcases haccepting with hsame | ⟨q, l, hq, hnew⟩
      · rw [hsame]
        exact (h.apart i p hp).1
      · have hpq : p ≠ q := fun hpq => h.listening i p hp (hpq ▸ hq)
        rw [hnew, Function.update_of_ne hpq]
        exact (h.apart i p hp).1
  · refine ⟨hok, fun q a m hq hm => ?_, fun q hq => ?_, fun j q hq => ?_⟩
    · rw [Host.opened, hlog] at hq
      exact hkept hq (Set.notMem_empty q) hm
    · rw [hconnecting] at hq
      rw [hlog]
      exact h.connecting q hq
    · rw [hmanager] at hq
      rw [hlog, haccepting]
      by_cases hji : j = i
      · subst hji
        obtain rfl := Option.some.inj
          ((Function.update_self j (some p) w.kernel.manager.listenQueue).symm.trans hq)
        exact he
      · exact h.apart j q
          ((Function.update_of_ne hji (some p) w.kernel.manager.listenQueue).symm.trans hq)
  · have hnot : ∀ j, w.kernel.manager.listenQueue j ≠ some p := by
      intro j hj
      rcases hwaits with ⟨targetAddr, rfl⟩ | hwait | hwait
      · exact he j hj
      · obtain ⟨e', he', heq⟩ := h.connecting p hwait
        exact (h.apart j p hj).2 e' he' heq
      · exact hwait (h.apart j p hj).1
    refine ⟨hok, fun q a m' hq hm' => ?_, fun q hq => ?_, fun j q hq => ?_⟩
    · rw [Host.opened, henter.log, List.map_cons, lastAt_cons] at hq
      by_cases hqp : q = p
      · rw [hqp, Function.update_self] at hq
        obtain rfl := Option.some.inj hq
        rw [hqp, henter.live] at hm'
        obtain rfl := Cell.live.inj hm'
        rfl
      · rw [Function.update_of_ne hqp] at hq
        exact hkept hq (fun hmem => hqp (hsub hmem)) hm'
    · rw [henter.log]
      by_cases hqp : q = p
      · exact ⟨_, List.mem_cons_self, hqp.symm⟩
      · rw [henter.connecting q hqp] at hq
        obtain ⟨e', he', heq⟩ := h.connecting q hq
        exact ⟨e', List.mem_cons_of_mem _ he', heq⟩
    · rw [henter.listenQueue] at hq
      obtain ⟨hidle, hlog⟩ := h.apart j q hq
      refine ⟨henter.accepting q hidle, fun e' he' => ?_⟩
      rw [henter.log] at he'
      rcases List.mem_cons.mp he' with rfl | he'
      · exact fun hpq => hnot j (hq.trans (congrArg some hpq.symm))
      · exact hlog e' he'

/-! ## The right socket -/

variable (host)

/-- If the packet goes to `tcp_state_close` or `tju_handle_packet`, it does for a socket with the
packet's own four-tuple.  A socket that has been freed has none, and nothing is said of it. -/
def RightSocket (w : Host) (pkt : Buf) : Prop :=
  ∀ r p m, w.kernel.receiver host pkt = .ret (some (r, p)) → r.Connected →
    w.kernel.heap.sock p = .live m → connAddrs m = Kernel.pktAddrs host pkt

/-- The packet has the `cal_hash` value of a connection entered later than its own, or without one of
its own: the last that was entered with this value, in the table at hand, has another four-tuple, and
takes the packet.  An entry whose socket has been freed is no collision: it leads to no socket at
all. -/
def Collides (w : Host) (pkt : Buf) : Prop :=
  headerLen ≤ pkt.length ∧ tcpCheck (bufToPacket pkt) = true ∧ ∃ i c m,
    tableIndex (addrHash (Kernel.pktAddrs host pkt).1 (Kernel.pktAddrs host pkt).2) = some i ∧
    lastAt w.log (w.kernel.manager.isServer, i) = some c ∧ w.kernel.heap.sock c.sock = .live m ∧
    Takes w.kernel pkt m ∧ w.opened c.sock ≠ some (Kernel.pktAddrs host pkt)

/-- The same by the four-tuple that connection has now: a socket that also listens has got another
remote address with every SYN. -/
def CollidesNow (w : Host) (pkt : Buf) : Prop :=
  headerLen ≤ pkt.length ∧ tcpCheck (bufToPacket pkt) = true ∧ ∃ i c m,
    tableIndex (addrHash (Kernel.pktAddrs host pkt).1 (Kernel.pktAddrs host pkt).2) = some i ∧
    lastAt w.log (w.kernel.manager.isServer, i) = some c ∧ w.kernel.heap.sock c.sock = .live m ∧
    Takes w.kernel pkt m ∧ connAddrs m ≠ Kernel.pktAddrs host pkt

variable {host}

/-- What `onTCPPocket` reads from the table is what was entered last. -/
theorem HostOk.table_eq {w : Host} (h : HostOk w) (i : Fin maxSockSize) :
    (if w.kernel.manager.isServer then w.kernel.manager.establishedQueue i
      else w.kernel.manager.connectSock i) =
      (lastAt w.log (w.kernel.manager.isServer, i)).map fun c => c.sock := by
  rw [← h.tables, TcpManager.table_apply]

/-- **What a table leads to has the addresses it was last entered with.** -/
theorem RolesOk.opened_eq {w : Host} (h : RolesOk w) {accepted : Bool} {i : Fin maxSockSize}
    {c : Opened} {m : SockMem} (hlast : lastAt w.log (accepted, i) = some c)
    (hm : w.kernel.heap.sock c.sock = .live m) : w.opened c.sock = some (connAddrs m) := by
  have hmem : (c.sock, (c.localAddr, c.remoteAddr)) ∈
      w.log.map fun e => (e.2.sock, (e.2.localAddr, e.2.remoteAddr)) :=
    List.mem_map_of_mem (mem_of_lastAt hlast)
  obtain ⟨a, ha⟩ := exists_lastAt hmem
  exact (h.addrs c.sock a m ha hm) ▸ ha

/-- A packet's socket is the one that was entered last with its hash. -/
theorem HostOk.right_iff_collidesNow {w : Host} (h : HostOk w) (pkt : Buf) :
    RightSocket host w pkt ↔ ¬ CollidesNow host w pkt := by
  constructor
  · rintro hright ⟨hlen, hcheck, i, c, m, hi, hlast, hm, htakes, hne⟩
    obtain ⟨l, i', -, hi', hreceiver⟩ := receiver_eq host (k := w.kernel) hlen hcheck
    obtain rfl := Option.some.inj (hi.symm.trans hi')
    have hp := h.table_eq i
    rw [hlast] at hp
    have hchoose := hreceiver.trans (choose_conn host hp hm htakes)
    exact hne (hright _ c.sock m hchoose (connHandler_connected _ _) hm)
  · intro hno r p m hreceiver hconn hm
    by_contra hne
    obtain ⟨hlen, hcheck, l, i, hi, hchoose⟩ := receiver_cases hreceiver
    obtain ⟨-, hp, htakes⟩ | ⟨hopening, -⟩ := choose_cases hchoose
    · obtain ⟨c, hlast, rfl⟩ := Option.map_eq_some_iff.mp ((h.table_eq i).symm.trans hp)
      exact hno ⟨hlen, hcheck, i, c, m, hi, hlast, hm, htakes m hm, hne⟩
    · exact hopening hconn

/-- Where no socket both listens and is a connection, a socket has the four-tuple it was entered
with. -/
theorem RolesOk.collidesNow_iff {w : Host} (h : RolesOk w) (pkt : Buf) :
    CollidesNow host w pkt ↔ Collides host w pkt := by
  refine and_congr_right fun _ => and_congr_right fun _ => exists_congr fun i =>
    exists_congr fun c => exists_congr fun m => and_congr_right fun _ =>
      and_congr_right fun hlast => and_congr_right fun hm => and_congr_right fun _ => ?_
  rw [h.opened_eq hlast hm, Ne, Ne, Option.some_inj]

/-- **A packet goes to a connection with its own four-tuple, if it goes to one, exactly when the
connection entered last with its hash does not collide** by the four-tuple it has now.  In a run in
which no socket both listens and is a connection, that is the four-tuple it was entered with. -/
theorem rightSocket_iff {w₀ w : Host} (h0 : HostStart w₀) {es : List HostEvent}
    (hr : run (hostStep host) w₀ es = .ret w) (pkt : Buf) :
    (RightSocket host w pkt ↔ ¬ CollidesNow host w pkt) ∧
      (EveryStep (hostStep host) OneRole w₀ es →
        (RightSocket host w pkt ↔ ¬ Collides host w pkt)) := by
  have hok : HostOk w := .of_reachable (Reachable.after (.init h0) hr)
  refine ⟨hok.right_iff_collidesNow pkt, fun hes => ?_⟩
  have hroles : RolesOk w :=
    hes.invariant (fun _ _ _ h he hs => rolesOk_step h he hs) (rolesOk_start h0) hr
  rw [← hroles.collidesNow_iff pkt]
  exact hok.right_iff_collidesNow pkt

/-- A server in zeroed memory. -/
def zeroedHost : Host := ⟨zeroedKernel, []⟩

theorem hostStart_zeroedHost : HostStart zeroedHost := ⟨booted_zeroedKernel, rfl⟩

/-- The server accepts one client, at port 5678. -/
def acceptEvents : List HostEvent :=
  [.socket 0 default, .bind 0 sampleServer, .listen 0, .packet (sampleSegment Flag.syn 0 false),
    .packet (sampleSegment Flag.ack 23 false), .accept 0 1, .acceptReturns 1 default]

/-- What the log holds then. -/
def acceptedLog : List ((Bool × Fin maxSockSize) × Opened) :=
  [((true, ⟨773, by decide⟩), ⟨1, sampleServer, sampleClient false⟩)]

/-- A packet of that client goes to its connection. -/
theorem rightSocket_iff_own : ∃ w, run (hostStep .server) zeroedHost acceptEvents = .ret w ∧
    RightSocket .server w (sampleSegment Flag.noFlag 0 false) := by
  have hrun : (run (hostStep .server) zeroedHost acceptEvents >>= fun w =>
      .ret (w.kernel.manager.isServer, w.log)) = .ret (true, acceptedLog) := by decide
  have hes : EveryStep (hostStep .server) OneRole zeroedHost acceptEvents := by decide
  obtain ⟨w, hw, hret⟩ := Outcome.bind_eq_ret.mp hrun
  obtain ⟨hserver, hlog⟩ := Prod.mk.inj (Outcome.ret.inj hret)
  refine ⟨w, hw, ((rightSocket_iff hostStart_zeroedHost hw _).2 hes).mpr ?_⟩
  rintro ⟨-, -, i, c, m, hi, hlast, -, -, hne⟩
  obtain rfl := Option.some.inj (hi.symm.trans
    (show tableIndex _ = some (⟨773, by decide⟩ : Fin maxSockSize) by decide))
  rw [hserver, hlog] at hlast
  obtain rfl := Option.some.inj hlast
  refine hne ?_
  rw [Host.opened, hlog]
  decide

/-- A packet from port 6702: 1024 above. -/
def strayPkt : Buf :=
  createPacketBuf 6702 sampleServer.port 0 0 (.ofNat headerLen) (.ofNat headerLen) Flag.noFlag 0 0 []

/-- **A packet of another client goes to the same connection.** -/
theorem rightSocket_fails_stray : ∃ w, Reachable (hostStep .server) HostStart w ∧
    tcpCheck (bufToPacket strayPkt) = true ∧ getSrc strayPkt = 6702 ∧
    w.kernel.receiver .server strayPkt = .ret (some (.tjuHandlePacket, 1)) ∧
    (∃ m, w.kernel.heap.sock 1 = .live m ∧ m.fields.establishedRemoteAddr = sampleClient false) ∧
    ¬ RightSocket .server w strayPkt := by
  have hrun : (run (hostStep .server) zeroedHost acceptEvents >>= fun w =>
      w.kernel.receiver .server strayPkt >>= fun r =>
        w.kernel.heap.deref 1 >>= fun m => .ret (r, m.fields.establishedRemoteAddr)) =
      .ret (some (.tjuHandlePacket, 1), sampleClient false) := by decide
  obtain ⟨w, hw, hrun⟩ := Outcome.bind_eq_ret.mp hrun
  obtain ⟨r, hreceiver, hrun⟩ := Outcome.bind_eq_ret.mp hrun
  obtain ⟨m, hm, hret⟩ := Outcome.bind_eq_ret.mp hrun
  obtain ⟨rfl, hremote⟩ := Prod.mk.inj (Outcome.ret.inj hret)
  rw [Heap.deref_eq_ret] at hm
  refine ⟨w, Reachable.after (.init hostStart_zeroedHost) hw, by decide, by decide, hreceiver,
    ⟨m, hm, hremote⟩, fun hright => ?_⟩
  have heq := (Prod.mk.inj (hright _ 1 m hreceiver (.inr rfl) hm)).2
  rw [hremote] at heq
  exact absurd heq (by decide)

end TrivalTcp
