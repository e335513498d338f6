import TrivalTcp.Handshake.Handshake

/-!
# Handshake/Recovery — a handshake whose packets may be lost

A client that has called `tcp_connect` and a listening socket, with a timer each.  Nothing that is
sent arrives by itself: a packet that is never delivered has been lost.  `recoverable_iff` says from
which states the handshake can still be completed by timers and by packets sent from then on: those
in which the server has not answered yet.  Once it has, a repeated SYN is ignored in `SYN_RECV`, and
the listening socket's own timer finds it in `LISTEN`, a state `tcp_write_timer_handler` has no case
for.
-/

namespace TrivalTcp

/-! ## The system -/

/-- A listening socket, one client, and the packets each has sent. -/
structure Pair where
  server : TjuTcp
  client : TjuTcp
  toServer : List Buf
  toClient : List Buf

/-- What can happen. -/
inductive PairEvent where
  | clientExpires
  | serverExpires
  /-- The server is given the `n`-th packet the client has sent. -/
  | deliverServer (n : ℕ)
  /-- The client is given the `n`-th packet the server has sent. -/
  | deliverClient (n : ℕ)

/-- The armed timer runs out. -/
def expireArmed (s : TjuTcp) : Outcome (TjuTcp × List Buf) :=
  if s.rttTimer.armed then timerExpiry s else .blocked

variable (serverAddr clientAddr : TjuSockAddr)

def pairStep (w : Pair) : PairEvent → Outcome Pair
  | .clientExpires => expireArmed w.client >>= fun (client, packets) =>
      .ret { w with client, toServer := w.toServer ++ packets }
  | .serverExpires => expireArmed w.server >>= fun (server, packets) =>
      .ret { w with server, toClient := w.toClient ++ packets }
  | .deliverServer n =>
    match w.toServer[n]? with
    | none => .blocked
    | some pkt => tcpRcvStateServer w.server pkt ⟨clientAddr.ip, getSrc pkt⟩ >>=
        fun (server, packets, _) => .ret { w with server, toClient := w.toClient ++ packets }
  | .deliverClient n =>
    match w.toClient[n]? with
    | none => .blocked
    | some pkt => tcpRcvStateClient w.client pkt ⟨serverAddr.ip, getSrc pkt⟩ >>=
        fun (client, packets, _) => .ret { w with client, toServer := w.toServer ++ packets }

/-- A server that listens, and a client that has just called `tcp_connect`. -/
def PairStart (w : Pair) : Prop := ∃ junk junk',
  w.server = tcpListen (tcpBind (tcpSocket junk) serverAddr) ∧
  (w.client, w.toServer) = tcpConnectBegin (tcpSocket junk') clientAddr serverAddr ∧ w.toClient = []

/-- The slot of `listen_state` the server keeps for the client. -/
def pairSlot : Option (Fin maxSockSize) := tableIndex (addrHash serverAddr clientAddr)

/-- If a packet is delivered, it is one sent after `w`. -/
def SentSince (w : Pair) : PairEvent → Prop
  | .deliverServer n => w.toServer.length ≤ n
  | .deliverClient n => w.toClient.length ≤ n
  | _ => True

/-- **The handshake can still be completed**, by timers and by packets sent from here on. -/
def Recoverable (w : Pair) : Prop := ∃ es w', (∀ e ∈ es, SentSince w e) ∧
  run (pairStep serverAddr clientAddr) w es = .ret w' ∧ w'.client.state = .established ∧
  ∃ k, pairSlot serverAddr clientAddr = some k ∧ w'.server.listenState k = .established

/-! ## The client -/

/-- Nothing has been sent or received on the socket. -/
structure Clean (s : TjuTcp) : Prop where
  sending : s.sendingBuf = []
  received : s.receivedBuf = []
  size : s.window.wndSend.sendWindows.size = tcpSendWindowSize

/-- A client that waits for an answer, its timer running. -/
structure Connecting (clientAddr : TjuSockAddr) (s : TjuTcp) : Prop extends Clean s where
  state : s.state = .synSent
  timer : s.rttTimer = ⟨true, true⟩
  localAddr : s.establishedLocalAddr = clientAddr

/-- A client that has had its answer, its timer stopped. -/
structure Completed (s : TjuTcp) : Prop extends Clean s where
  state : s.state = .established
  timer : s.rttTimer = ⟨false, false⟩

variable {serverAddr clientAddr}

theorem connecting_tcpConnectBegin (junk : TjuTcp) :
    Connecting clientAddr (tcpConnectBegin (tcpSocket junk) clientAddr serverAddr).1 := by
  dsimp only [tcpConnectBegin]
  rw [tcpStartTimer_eq]
  exact ⟨⟨rfl, rfl, rfl⟩, rfl, rfl, rfl⟩

theorem built_tcpConnectBegin (serverAddr clientAddr : TjuSockAddr) (s : TjuTcp) : ∃ p,
    (tcpConnectBegin s clientAddr serverAddr).2 = [p] ∧ Built p clientAddr.port 0 Flag.syn [] :=
  ⟨_, rfl, built_createPacketBuf _ _ _ _ Flag.syn _ 0 rfl rfl⟩

/-- **The timer of a waiting client** sends another SYN, and runs again. -/
theorem Connecting.expire {s : TjuTcp} (h : Connecting clientAddr s) : ∃ t p seq,
    expireArmed s = .ret (t, [p]) ∧ Connecting clientAddr t ∧
      Built p clientAddr.port seq Flag.syn [] := by
  have hst : (disarm s).state = .synSent := h.state
  have hsyn := controlPkt_built (tcpStartTimer (disarm s)) (tcpStartTimer (disarm s)).expectSeq
    (tcpStartTimer (disarm s)).expectSeq Flag.syn 0
  have hport : (tcpStartTimer (disarm s)).establishedLocalAddr.port = clientAddr.port := by
    rw [tcpStartTimer_eq]
    exact congrArg _ h.localAddr
  rw [hport] at hsyn
  refine ⟨tcpStartTimer (disarm s), _, _, ?_, ?_, hsyn⟩
  · rw [expireArmed, h.timer, if_pos rfl, timerExpiry, tcpWriteTimerHandler, hst]
    rfl
  · rw [tcpStartTimer_eq]
    exact ⟨⟨h.sending, h.received, h.size⟩, h.state, rfl, h.localAddr⟩

/-- **The first SYN|ACK** establishes a waiting client, which acknowledges it. -/
theorem Connecting.answer {s : TjuTcp} (h : Connecting clientAddr s) {pkt : Buf} {src : UInt16}
    {seq : UInt32} (hpkt : Built pkt src seq Flag.synAck []) (a : TjuSockAddr) : ∃ t p,
    tcpRcvStateClient s pkt a = .ret (t, [p], 0) ∧ Completed t ∧
      Built p clientAddr.port (seq + 1) Flag.ack [] := by
  have hst : (s.setRwnd (getAdvertisedWindow pkt)).state = .synSent := h.state
  have hstop : tcpStopTimer (s.setRwnd (getAdvertisedWindow pkt)) =
      { s.setRwnd (getAdvertisedWindow pkt) with
        rttTimer := ⟨false, false⟩, interruptSignal := 1 } := if_pos (congrArg _ h.timer)
  rw [tcpRcvStateClient, if_neg (Nat.not_lt.mpr hpkt.sized.header_le)]
  dsimp only
  rw [if_pos hpkt.flags, if_pos hst, hstop, hpkt.seq, ← h.localAddr]
  exact ⟨_, _, rfl, ⟨⟨h.sending, h.received, h.size⟩, rfl, rfl⟩,
    built_createPacketBuf _ _ _ _ Flag.ack _ 0 rfl rfl⟩

theorem Completed.not_expire {s : TjuTcp} (h : Completed s) (r : TjuTcp × List Buf) :
    expireArmed s ≠ .ret r := by
  rw [expireArmed, h.timer, if_neg Bool.false_ne_true]
  exact nofun

/-- A client that has had its answer ignores another. -/
theorem Completed.answer {s t : TjuTcp} (h : Completed s) {pkt : Buf} {a : TjuSockAddr}
    {packets : List Buf} {status : ℤ} (hs : tcpRcvStateClient s pkt a = .ret (t, packets, status)) :
    Completed t ∧ packets = [] := by
  rcases tcpRcvStateClient_cases hs with ⟨hst, -⟩ | ⟨rfl, rfl⟩
  · nomatch h.state.symm.trans hst
  · exact ⟨⟨⟨h.sending, h.received, h.size⟩, h.state, h.timer⟩, rfl⟩

/-! ## The server -/

/-- A listening socket at `serverAddr`; while the client's slot is in `LISTEN`, nobody is
half-open. -/
structure Listening (serverAddr clientAddr : TjuSockAddr) (s : TjuTcp) : Prop extends Clean s where
  bindAddr : s.bindAddr = serverAddr
  state : s.state = .listen
  empty : ∀ k, pairSlot serverAddr clientAddr = some k → s.listenState k = .listen →
    s.synQueue = sockqueueInit

theorem listening_tcpListen (junk : TjuTcp) :
    Listening serverAddr clientAddr (tcpListen (tcpBind (tcpSocket junk) serverAddr)) :=
  ⟨⟨rfl, rfl, rfl⟩, rfl, rfl, fun _ _ _ => rfl⟩

/-- **The timer of a listening socket** does nothing: `tcp_write_timer_handler` looks at the state
of the socket, which is `LISTEN`. -/
theorem Listening.expire {s t : TjuTcp} (h : Listening serverAddr clientAddr s) {packets : List Buf}
    (hs : expireArmed s = .ret (t, packets)) :
    Listening serverAddr clientAddr t ∧ t.listenState = s.listenState ∧ packets = [] := by
  have hst : (disarm s).state = .listen := h.state
  rw [expireArmed] at hs
  split_ifs at hs
  rw [timerExpiry, tcpWriteTimerHandler, hst] at hs
  obtain ⟨rfl, rfl⟩ := Prod.mk.inj (Outcome.ret.inj hs)
  exact ⟨⟨⟨h.sending, h.received, h.size⟩, h.bindAddr, h.state, h.empty⟩, rfl, rfl⟩

/-- **What the server does with a packet of the client**: it answers nothing but the first SYN. -/
theorem Listening.receive {s t : TjuTcp} (h : Listening serverAddr clientAddr s) {pkt : Buf}
    (hsrc : getSrc pkt = clientAddr.port) {packets : List Buf} {status : ℤ}
    (hs : tcpRcvStateServer s pkt ⟨clientAddr.ip, getSrc pkt⟩ = .ret (t, packets, status)) :
    Listening serverAddr clientAddr t ∧ (∀ p ∈ packets, p = buildStatePkt pkt Flag.synAck) ∧
      ∃ k, pairSlot serverAddr clientAddr = some k ∧
        (s.listenState k ≠ .listen → packets = [] ∧ t.listenState k ≠ .listen) := by
  obtain ⟨-, k, r, hk, rfl, hcases⟩ := tcpRcvStateServer_cases hs
  rw [hsrc, listenSlot, h.bindAddr] at hk
  have hslot : ∀ j, pairSlot serverAddr clientAddr = some j → j = k :=
    fun j hj => Option.some.inj (hj.symm.trans hk)
  rcases hcases with ⟨hst, -, hsyn⟩ | ⟨-, -, hack⟩ | ⟨-, -, rfl, rfl⟩
  · have hpackets := rcvSyn_packets (s.setRwnd (getAdvertisedWindow pkt)) pkt
      ⟨clientAddr.ip, getSrc pkt⟩ k
    obtain ⟨_, _, _, _, _, heq, -⟩ := rcvSyn_eq (s.setRwnd (getAdvertisedWindow pkt)) pkt
      ⟨clientAddr.ip, getSrc pkt⟩ k
    rw [hsyn] at heq hpackets
    obtain ⟨rfl, -⟩ := Prod.mk.inj heq
    refine ⟨⟨⟨h.sending, h.received, h.size⟩, h.bindAddr, h.state, fun j hj hlisten => ?_⟩,
      fun p hp => ?_, k, hk, fun hne => absurd hst hne⟩
    · obtain rfl := hslot j hj
      have hself : Function.update s.listenState j TcpState.synRecv j = .synRecv :=
        Function.update_self _ _ _
      nomatch hself.symm.trans hlisten
    · dsimp only at hpackets
      rw [hpackets] at hp
      split_ifs at hp
      · nomatch hp
      · exact List.mem_singleton.mp hp
  · obtain ⟨_, _, _, _, _, -, rfl, rfl⟩ := rcvAck_cases hack
    have hself : Function.update s.listenState k TcpState.established k = .established :=
      Function.update_self _ _ _
    refine ⟨⟨⟨h.sending, h.received, h.size⟩, h.bindAddr, h.state, fun j hj hlisten => ?_⟩,
      fun p hp => (nomatch hp), k, hk,
        fun _ => ⟨rfl, fun hlisten => nomatch hself.symm.trans hlisten⟩⟩
    obtain rfl := hslot j hj
    nomatch hself.symm.trans hlisten
  · exact ⟨⟨⟨h.sending, h.received, h.size⟩, h.bindAddr, h.state, h.empty⟩,
      fun p hp => (nomatch hp), k, hk, fun hne => ⟨rfl, hne⟩⟩

/-- **The first SYN is answered.** -/
theorem Listening.syn {s : TjuTcp} (h : Listening serverAddr clientAddr s) {k : Fin maxSockSize}
    (hk : pairSlot serverAddr clientAddr = some k) (hst : s.listenState k = .listen) {pkt : Buf}
    {seq : UInt32} (hpkt : Built pkt clientAddr.port seq Flag.syn []) : ∃ t p src status,
    tcpRcvStateServer s pkt ⟨clientAddr.ip, getSrc pkt⟩ = .ret (t, [p], status) ∧
      t.listenState k = .synRecv ∧ (∃ node, t.synQueue = ⟨1, [node]⟩) ∧
      Built p src (seq + .ofNat headerLen) Flag.synAck [] := by
  have hslot : listenSlot s ⟨clientAddr.ip, getSrc pkt⟩ = some k := by
    rw [hpkt.src, listenSlot, h.bindAddr]
    exact hk
  have hempty : (s.setRwnd (getAdvertisedWindow pkt)).synQueue = sockqueueInit := h.empty k hk hst
  have hpackets := rcvSyn_packets (s.setRwnd (getAdvertisedWindow pkt)) pkt
    ⟨clientAddr.ip, getSrc pkt⟩ k
  obtain ⟨_, _, _, packets, status, heq, -⟩ := rcvSyn_eq (s.setRwnd (getAdvertisedWindow pkt)) pkt
    ⟨clientAddr.ip, getSrc pkt⟩ k
  rw [heq, hempty] at hpackets
  obtain rfl : packets = [buildStatePkt pkt Flag.synAck] := hpackets
  rw [tcpRcvStateServer_syn hpkt.sized.header_le hslot hst hpkt.flags, heq, hempty]
  exact ⟨_, _, _, _, rfl, Function.update_self _ _ _, ⟨_, rfl⟩,
    hpkt.seq ▸ built_buildStatePkt pkt Flag.synAck⟩

/-- **The client's ACK is taken.** -/
theorem Listening.ack {s : TjuTcp} (h : Listening serverAddr clientAddr s) {k : Fin maxSockSize}
    (hk : pairSlot serverAddr clientAddr = some k) (hst : s.listenState k = .synRecv)
    {node : ConnSock} (hq : s.synQueue = ⟨1, [node]⟩) {pkt : Buf} {seq : UInt32}
    (hpkt : Built pkt clientAddr.port seq Flag.ack []) : ∃ t status,
    tcpRcvStateServer s pkt ⟨clientAddr.ip, getSrc pkt⟩ = .ret (t, [], status) ∧
      t.listenState k = .established := by
  have hslot : listenSlot s ⟨clientAddr.ip, getSrc pkt⟩ = some k := by
    rw [hpkt.src, listenSlot, h.bindAddr]
    exact hk
  have hqueue : s.synQueue.nodes = [] → s.synQueue.size = 0 := by
    rw [hq]
    exact nofun
  obtain ⟨⟨synQueue, removed, st⟩, hremove⟩ := sockqueueRemove_returns hqueue s.savedSyn
  obtain ⟨_, _, heq⟩ := rcvAck_eq (s.setRwnd (getAdvertisedWindow pkt)) pkt k hremove
  rw [tcpRcvStateServer_ack hpkt.sized.header_le hslot hst hpkt.flags, heq]
  exact ⟨_, _, rfl, Function.update_self _ _ _⟩

/-! ## The two together -/

/-- A packet the client has sent: a SYN, or the ACK of a SYN|ACK. -/
def FromClient (clientAddr : TjuSockAddr) (p : Buf) : Prop :=
  ∃ seq flags, (flags = Flag.syn ∨ flags = Flag.ack) ∧ Built p clientAddr.port seq flags []

/-- A packet the server has sent: a SYN|ACK. -/
def FromServer (p : Buf) : Prop := ∃ src seq, Built p src seq Flag.synAck []

/-- **Every state of the two**, whatever is lost, repeated or out of order. -/
structure PairOk (serverAddr clientAddr : TjuSockAddr) (w : Pair) : Prop where
  server : Listening serverAddr clientAddr w.server
  client : Connecting clientAddr w.client ∨ Completed w.client
  toServer : ∀ p ∈ w.toServer, FromClient clientAddr p
  toClient : ∀ p ∈ w.toClient, FromServer p

theorem PairOk.of_start {w : Pair} (h : PairStart serverAddr clientAddr w) :
    PairOk serverAddr clientAddr w := by
  obtain ⟨junk, junk', hserver, hclient, hnone⟩ := h
  obtain ⟨p, hsent, hp⟩ := built_tcpConnectBegin serverAddr clientAddr (tcpSocket junk')
  have hsock : w.client = _ := congrArg Prod.fst hclient
  have hpackets : w.toServer = [p] := (congrArg Prod.snd hclient).trans hsent
  refine ⟨hserver ▸ listening_tcpListen junk, .inl (hsock ▸ connecting_tcpConnectBegin junk'),
    fun q hq => ?_, fun q hq => ?_⟩
  · rw [hpackets] at hq
    rw [List.mem_singleton.mp hq]
    exact ⟨0, Flag.syn, .inl rfl, hp⟩
  · rw [hnone] at hq
    nomatch hq

/-- **What becomes of a packet given to the server**, and of the slot it is for. -/
theorem PairOk.deliverServer {w w' : Pair} (h : PairOk serverAddr clientAddr w) {n : ℕ}
    (hs : pairStep serverAddr clientAddr w (.deliverServer n) = .ret w') : ∃ pkt s packets,
    w' = { w with server := s, toClient := w.toClient ++ packets } ∧
      Listening serverAddr clientAddr s ∧ (∀ p ∈ packets, p = buildStatePkt pkt Flag.synAck) ∧
      ∃ k, pairSlot serverAddr clientAddr = some k ∧
        (w.server.listenState k ≠ .listen → packets = [] ∧ s.listenState k ≠ .listen) := by
  rw [pairStep] at hs
  split at hs
  next => nomatch hs
  next pkt hpkt =>
    obtain ⟨⟨s, packets, status⟩, hrcv, hret⟩ := Outcome.bind_eq_ret.mp hs
    obtain ⟨_, _, -, hbuilt⟩ := h.toServer pkt (List.mem_of_getElem? hpkt)
    exact ⟨pkt, s, packets, (Outcome.ret.inj hret).symm, h.server.receive hbuilt.src hrcv⟩

/-- **One step of the two.** -/
theorem PairOk.step {w w' : Pair} (h : PairOk serverAddr clientAddr w) {e : PairEvent}
    (hs : pairStep serverAddr clientAddr w e = .ret w') : PairOk serverAddr clientAddr w' := by
  cases e with
  | clientExpires =>
    obtain ⟨⟨c, packets⟩, hexp, hret⟩ := Outcome.bind_eq_ret.mp hs
    obtain rfl := Outcome.ret.inj hret
    rcases h.client with hc | hc
    · obtain ⟨t, p, seq, hexp', ht, hp⟩ := hc.expire
      obtain ⟨rfl, rfl⟩ := Prod.mk.inj (Outcome.ret.inj (hexp.symm.trans hexp'))
      refine ⟨h.server, .inl ht, List.forall_mem_append.mpr ⟨h.toServer, fun q hq => ?_⟩,
        h.toClient⟩
      rw [List.mem_singleton.mp hq]
      exact ⟨seq, Flag.syn, .inl rfl, hp⟩
    · exact absurd hexp (hc.not_expire _)
  | serverExpires =>
    obtain ⟨⟨s, packets⟩, hexp, hret⟩ := Outcome.bind_eq_ret.mp hs
    obtain rfl := Outcome.ret.inj hret
    obtain ⟨hserver, -, rfl⟩ := h.server.expire hexp
    exact ⟨hserver, h.client, h.toServer, (List.append_nil _).symm ▸ h.toClient⟩
  | deliverServer n =>
    obtain ⟨pkt, s, packets, rfl, hserver, hsent, -⟩ := h.deliverServer hs
    refine ⟨hserver, h.client, h.toServer,
      List.forall_mem_append.mpr ⟨h.toClient, fun q hq => ?_⟩⟩
    rw [hsent q hq]
    exact ⟨_, _, built_buildStatePkt pkt Flag.synAck⟩
  | deliverClient n =>
    rw [pairStep] at hs
    split at hs
    next => nomatch hs
    next pkt hpkt =>
      obtain ⟨⟨c, packets, status⟩, hrcv, hret⟩ := Outcome.bind_eq_ret.mp hs
      obtain rfl := Outcome.ret.inj hret
      obtain ⟨_, _, hbuilt⟩ := h.toClient pkt (List.mem_of_getElem? hpkt)
      rcases h.client with hc | hc
      · obtain ⟨t, p, hrcv', ht, hp⟩ := hc.answer hbuilt ⟨serverAddr.ip, getSrc pkt⟩
        obtain ⟨rfl, hrest⟩ := Prod.mk.inj (Outcome.ret.inj (hrcv.symm.trans hrcv'))
        obtain ⟨rfl, -⟩ := Prod.mk.inj hrest
        refine ⟨h.server, .inr ht, List.forall_mem_append.mpr ⟨h.toServer, fun q hq => ?_⟩,
          h.toClient⟩
        rw [List.mem_singleton.mp hq]
        exact ⟨_, Flag.ack, .inr rfl, hp⟩
      · obtain ⟨ht, rfl⟩ := hc.answer hrcv
        exact ⟨h.server, .inr ht, (List.append_nil _).symm ▸ h.toServer, h.toClient⟩

theorem PairOk.of_reachable {w : Pair}
    (h : Reachable (pairStep serverAddr clientAddr) (PairStart serverAddr clientAddr) w) :
    PairOk serverAddr clientAddr w :=
  h.invariant (fun _ => PairOk.of_start) fun _ _ _ hok => hok.step

/-- A client that is not established still waits. -/
theorem PairOk.connecting {w : Pair} (h : PairOk serverAddr clientAddr w)
    (hc : w.client.state ≠ .established) : Connecting clientAddr w.client :=
  h.client.resolve_right fun hdone => hc hdone.state

/-! ## Recovery -/

/-- **Where the server has not answered**, the client's timer is all it takes: another SYN, and the
handshake runs its course. -/
theorem PairOk.recoverable {w : Pair} (h : PairOk serverAddr clientAddr w)
    (hc : w.client.state ≠ .established) {k : Fin maxSockSize}
    (hk : pairSlot serverAddr clientAddr = some k) (hst : w.server.listenState k = .listen) :
    Recoverable serverAddr clientAddr w := by
  obtain ⟨c, syn, _, hexp, hc', hsyn⟩ := (h.connecting hc).expire
  obtain ⟨s, synAck, _, _, hrcv, hst', ⟨node, hq⟩, hsynAck⟩ := h.server.syn hk hst hsyn
  obtain ⟨hs, -⟩ := h.server.receive hsyn.src hrcv
  obtain ⟨c', ack, hans, hdone, hack⟩ := hc'.answer hsynAck ⟨serverAddr.ip, getSrc synAck⟩
  obtain ⟨s', _, hrcv', hst''⟩ := hs.ack hk hst' hq hack
  refine ⟨[.clientExpires, .deliverServer w.toServer.length, .deliverClient w.toClient.length,
    .deliverServer (w.toServer ++ [syn]).length],
    ⟨s', c', w.toServer ++ [syn] ++ [ack], w.toClient ++ [synAck] ++ []⟩, ?_, ?_, hdone.state, k,
    hk, hst''⟩
  · simp [SentSince]
  · simp only [run_cons, run_nil, pairStep, hexp, Outcome.ret_bind, List.getElem?_concat_length,
      hrcv, hans, hrcv']

/-- The server has answered, the client waits, and nothing new is on its way to it. -/
structure Stuck (serverAddr clientAddr : TjuSockAddr) (w w' : Pair) : Prop extends
    PairOk serverAddr clientAddr w' where
  waits : w'.client.state ≠ .established
  silent : w'.toClient = w.toClient
  answered : ∀ k, pairSlot serverAddr clientAddr = some k → w'.server.listenState k ≠ .listen

/-- **No timer and no new packet helps**: the server's timer does nothing, and a repeated SYN is not
answered. -/
theorem Stuck.step {w₀ w w' : Pair} (h : Stuck serverAddr clientAddr w₀ w) {e : PairEvent}
    (he : SentSince w₀ e) (hs : pairStep serverAddr clientAddr w e = .ret w') :
    Stuck serverAddr clientAddr w₀ w' := by
  have hok := h.toPairOk.step hs
  cases e with
  | clientExpires =>
    obtain ⟨⟨c, packets⟩, hexp, hret⟩ := Outcome.bind_eq_ret.mp hs
    obtain rfl := Outcome.ret.inj hret
    obtain ⟨t, p, _, hexp', ht, -⟩ := (h.connecting h.waits).expire
    obtain ⟨rfl, rfl⟩ := Prod.mk.inj (Outcome.ret.inj (hexp.symm.trans hexp'))
    exact ⟨hok, fun hest => (nomatch ht.state.symm.trans hest), h.silent, h.answered⟩
  | serverExpires =>
    obtain ⟨⟨s, packets⟩, hexp, hret⟩ := Outcome.bind_eq_ret.mp hs
    obtain rfl := Outcome.ret.inj hret
    obtain ⟨-, hsame, rfl⟩ := h.server.expire hexp
    exact ⟨hok, h.waits, (List.append_nil _).trans h.silent,
      fun k hk => (congrFun hsame k).trans_ne (h.answered k hk)⟩
  | deliverServer n =>
    obtain ⟨_, s, packets, rfl, -, -, k, hk, hsilent⟩ := h.toPairOk.deliverServer hs
    obtain ⟨rfl, hne⟩ := hsilent (h.answered k hk)
    refine ⟨hok, h.waits, (List.append_nil _).trans h.silent, fun j hj => ?_⟩
    obtain rfl : k = j := Option.some.inj (hk.symm.trans hj)
    exact hne
  | deliverClient n =>
    have hnone : w.toClient[n]? = none := by
      rw [h.silent]
      exact List.getElem?_eq_none he
    rw [pairStep, hnone] at hs
    nomatch hs

/-- **Where the server has answered**, a client that has not heard it never will. -/
theorem PairOk.not_recoverable {w : Pair} (h : PairOk serverAddr clientAddr w)
    (hc : w.client.state ≠ .established)
    (hst : ∀ k, pairSlot serverAddr clientAddr = some k → w.server.listenState k ≠ .listen) :
    ¬ Recoverable serverAddr clientAddr w := by
  rintro ⟨es, w', hes, hrun, hdone, -⟩
  have hstart : Stuck serverAddr clientAddr w w := ⟨h, hc, rfl, hst⟩
  have hstuck : Stuck serverAddr clientAddr w w' :=
    run_invariant (fun e he _ _ hI hs => hI.step (hes e he) hs) hstart hrun
  exact hstuck.waits hdone

/-- **Exactly when a handshake can be recovered.**  From every state the client and the listening
socket can get into while the client waits, timers and new packets can complete the handshake **if
and only if** the server's slot for the client is still in `LISTEN`. -/
theorem recoverable_iff {w : Pair}
    (h : Reachable (pairStep serverAddr clientAddr) (PairStart serverAddr clientAddr) w)
    (hc : w.client.state ≠ .established) : Recoverable serverAddr clientAddr w ↔
      ∃ k, pairSlot serverAddr clientAddr = some k ∧ w.server.listenState k = .listen := by
  have hok := PairOk.of_reachable h
  constructor
  · intro hrec
    by_contra hne
    exact hok.not_recoverable hc (fun k hk hst => hne ⟨k, hk, hst⟩) hrec
  · rintro ⟨k, hk, hst⟩
    exact hok.recoverable hc hk hst

/-- A client and a listening socket in zeroed memory, the SYN on its way. -/
def samplePair : Pair where
  server := tcpListen (tcpBind (tcpSocket default) sampleServer)
  client := (tcpConnectBegin (tcpSocket default) (sampleClient false) sampleServer).1
  toServer := (tcpConnectBegin (tcpSocket default) (sampleClient false) sampleServer).2
  toClient := []

theorem pairStart_samplePair : PairStart sampleServer (sampleClient false) samplePair :=
  ⟨default, default, rfl, rfl, rfl⟩

/-- A lost SYN is sent again. -/
theorem recoverable_iff_samplePair : Recoverable sampleServer (sampleClient false) samplePair :=
  (recoverable_iff (.init pairStart_samplePair) (by decide)).mpr ⟨_, rfl, rfl⟩

/-- **A lost SYN|ACK is not**: the SYN arrives, and its answer is lost. -/
theorem not_recoverable_synAck : ∃ w,
    Reachable (pairStep sampleServer (sampleClient false))
      (PairStart sampleServer (sampleClient false)) w ∧
    w.client.state ≠ .established ∧ ¬ Recoverable sampleServer (sampleClient false) w := by
  have hrun : (run (pairStep sampleServer (sampleClient false)) samplePair [.deliverServer 0] >>=
      fun w => .ret (w.client.state, (pairSlot sampleServer (sampleClient false)).map
        w.server.listenState)) = .ret (.synSent, some .synRecv) := by decide
  obtain ⟨w, hw, hret⟩ := Outcome.bind_eq_ret.mp hrun
  obtain ⟨hclient, hslot⟩ := Prod.mk.inj (Outcome.ret.inj hret)
  have hreach := Reachable.after (.init pairStart_samplePair) hw
  have hwaits : w.client.state ≠ .established := fun h => nomatch hclient.symm.trans h
  refine ⟨w, hreach, hwaits, (PairOk.of_reachable hreach).not_recoverable hwaits fun k hk hst => ?_⟩
  rw [hk, Option.map_some, hst] at hslot
  nomatch hslot

end TrivalTcp
