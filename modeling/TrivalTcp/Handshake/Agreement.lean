import TrivalTcp.Handshake.Handshake

/-!
# Handshake/Agreement — a listening socket and its clients agree on who is connected

One listening server and any number of clients, each of which calls `tcp_connect` once.  The packets
of both directions stay in the network for ever, so a delivery may come late, repeatedly or never.
The server looks at no sequence number; `NetOk` says what it rests on instead: which flags can be in
flight in which phase of a client's handshake.
-/

namespace TrivalTcp

variable {ι : Type} [DecidableEq ι]

/-! ## The system -/

/-- The listening server, its clients, and the packets each side has sent, with the client they come
from or answer. -/
structure Net (ι : Type) where
  server : TjuTcp
  client : ι → TjuTcp
  /-- The client has called `tcp_connect`. -/
  called : ι → Bool
  toServer : List (ι × Buf)
  toClient : List (ι × Buf)

/-- What can happen. -/
inductive NetEvent (ι : Type) where
  /-- A client calls `tcp_connect`. -/
  | connect (i : ι)
  /-- The call returns. -/
  | connectReturns (i : ι)
  /-- A client's timer runs out, and it retransmits. -/
  | timeout (i : ι)
  /-- A connected client sends an ACK, a data packet or a window probe. -/
  | chat (i : ι) (pkt : Buf)
  /-- The server is given the `n`-th packet the clients have sent. -/
  | deliverServer (n : ℕ)
  /-- A client is given the `n`-th packet the server has sent, an answer to that client. -/
  | deliverClient (n : ℕ)

/-- A packet of a connected client at `a`. -/
def IsChat (a : TjuSockAddr) (pkt : Buf) : Prop :=
  getSrc pkt = a.port ∧ getFlags pkt ∈ [Flag.noFlag, Flag.ack, Flag.head, Flag.backhead]

instance (a : TjuSockAddr) (pkt : Buf) : Decidable (IsChat a pkt) :=
  inferInstanceAs (Decidable (_ ∧ _))

/-- Client `i` has become `c` and has sent `packets`. -/
def Net.setClient (w : Net ι) (i : ι) (c : TjuTcp) (packets : List Buf) : Net ι :=
  { w with
    client := Function.update w.client i c
    toServer := w.toServer ++ packets.map fun p => (i, p) }

variable (serverAddr : TjuSockAddr) (addr : ι → TjuSockAddr)

def netStep (w : Net ι) : NetEvent ι → Outcome (Net ι)
  | .connect i =>
    if w.called i then .blocked
    else
      let (c, packets) := tcpConnectBegin (w.client i) (addr i) serverAddr
      .ret { w.setClient i c packets with called := Function.update w.called i true }
  | .connectReturns i => tcpConnectEnd (w.client i) >>= fun c => .ret (w.setClient i c [])
  | .timeout i =>
    if w.called i = true ∧ ¬ GivesUp (w.client i) then
      timerExpiry (w.client i) >>= fun (c, packets) => .ret (w.setClient i c packets)
    else
      .blocked
  | .chat i pkt =>
    if (w.client i).state = .established ∧ IsChat (addr i) pkt then
      .ret (w.setClient i (w.client i) [pkt])
    else
      .blocked
  | .deliverServer n =>
    match w.toServer[n]? with
    | none => .blocked
    | some (i, pkt) =>
      tcpRcvStateServer w.server pkt ⟨(addr i).ip, getSrc pkt⟩ >>= fun (server, packets, _) =>
        .ret { w with server, toClient := w.toClient ++ packets.map fun p => (i, p) }
  | .deliverClient n =>
    match w.toClient[n]? with
    | none => .blocked
    | some (i, pkt) =>
      tcpRcvStateClient (w.client i) pkt ⟨serverAddr.ip, getSrc pkt⟩ >>= fun (c, packets, _) =>
        .ret (w.setClient i c packets)

/-- A socket that listens at `serverAddr`, and clients that have done nothing yet. -/
structure NetStart (w : Net ι) : Prop where
  server : ∃ junk, w.server = tcpListen (tcpBind (tcpSocket junk) serverAddr)
  client : ∀ i, ∃ junk, w.client i = tcpSocket junk
  called : ∀ i, w.called i = false
  toServer : w.toServer = []
  toClient : w.toClient = []

/-- The slot of `listen_state` the server keeps for a client. -/
def clientSlot (i : ι) : Option (Fin maxSockSize) := tableIndex (addrHash serverAddr (addr i))

/-! ## The invariant -/

/-- The server has answered client `i`: its slot has left `LISTEN`. -/
def Answered (server : TjuTcp) (i : ι) : Prop := ∃ k, clientSlot serverAddr addr i = some k ∧
  (server.listenState k = .synRecv ∨ server.listenState k = .established)

/-- **What is in flight in which phase.**  An ACK of a client is in flight only if the client is
established, an answer only if the client's slot has left `LISTEN`. -/
structure NetOk (w : Net ι) : Prop where
  bindAddr : w.server.bindAddr = serverAddr
  idle : ∀ i, w.called i = false → (w.client i).state = .closed
  localAddr : ∀ i, w.called i = true → (w.client i).establishedLocalAddr = addr i
  sent : ∀ i p, (i, p) ∈ w.toServer → w.called i = true
  src : ∀ i p, (i, p) ∈ w.toServer → headerLen ≤ p.length → getSrc p = (addr i).port
  ack : ∀ i p, (i, p) ∈ w.toServer → headerLen ≤ p.length → getFlags p = Flag.ack →
    (w.client i).state = .established
  answer : ∀ i p, (i, p) ∈ w.toClient → Answered serverAddr addr w.server i
  client : ∀ i, (w.client i).state = .established → Answered serverAddr addr w.server i
  server : ∀ i k, clientSlot serverAddr addr i = some k → w.server.listenState k = .established →
    (w.client i).state = .established
  left : ∀ i k, clientSlot serverAddr addr i = some k → w.server.listenState k ≠ .listen →
    w.called i = true

variable {serverAddr addr}

omit [DecidableEq ι] in
theorem netOk_start {w : Net ι} (h : NetStart serverAddr w) : NetOk serverAddr addr w := by
  obtain ⟨⟨junk, hserver⟩, hclient, hcalled, hto, hfrom⟩ := h
  have hclosed : ∀ i, (w.client i).state = .closed := fun i => by
    obtain ⟨junk, hi⟩ := hclient i
    rw [hi]
    rfl
  have hlisten : ∀ k, w.server.listenState k = .listen := fun k => by
    rw [hserver]
    rfl
  exact
    { bindAddr := by rw [hserver]; rfl
      idle := fun i _ => hclosed i
      localAddr := fun i hi => nomatch (hcalled i).symm.trans hi
      sent := fun i p hp => by rw [hto] at hp; nomatch hp
      src := fun i p hp => by rw [hto] at hp; nomatch hp
      ack := fun i p hp => by rw [hto] at hp; nomatch hp
      answer := fun i p hp => by rw [hfrom] at hp; nomatch hp
      client := fun i hi => nomatch (hclosed i).symm.trans hi
      server := fun i k _ hk => nomatch (hlisten k).symm.trans hk
      left := fun i k _ hk => absurd (hlisten k) hk }

omit [DecidableEq ι] in
/-- A client whose slot has left `LISTEN` has called. -/
theorem NetOk.called_of_answered {w : Net ι} (h : NetOk serverAddr addr w) {i : ι}
    (hi : Answered serverAddr addr w.server i) : w.called i = true := by
  obtain ⟨k, hk, hst⟩ := hi
  refine h.left i k hk fun hl => ?_
  rcases hst with hst | hst
  · nomatch hl.symm.trans hst
  · nomatch hl.symm.trans hst

/-! ## What a client does -/

/-- **A client's step**: it stays established once it is, is answered if it is, and what it sends
bears its port and is an ACK only if it is established. -/
theorem NetOk.setClient {w : Net ι} (h : NetOk serverAddr addr w) {i : ι} {c : TjuTcp}
    {packets : List Buf} (hlocal : c.establishedLocalAddr = addr i)
    (hkeep : (w.client i).state = .established → c.state = .established)
    (hanswered : c.state = .established → Answered serverAddr addr w.server i)
    (hpackets : ∀ p ∈ packets, headerLen ≤ p.length →
      getSrc p = (addr i).port ∧ (getFlags p = Flag.ack → c.state = .established)) :
    NetOk serverAddr addr
      { w.setClient i c packets with called := Function.update w.called i true } := by
  have hmono : ∀ j, (w.client j).state = .established →
      (Function.update w.client i c j).state = .established :=
    (Function.forall_update_iff w.client fun j s =>
      (w.client j).state = .established → s.state = .established).mpr ⟨hkeep, fun _ _ => id⟩
  have hmem : ∀ j p, (j, p) ∈ w.toServer ++ packets.map (fun p => (i, p)) →
      (j, p) ∈ w.toServer ∨ j = i ∧ p ∈ packets := by
    intro j p hp
    rcases List.mem_append.mp hp with hp | hp
    · exact .inl hp
    · obtain ⟨q, hq, heq⟩ := List.mem_map.mp hp
      obtain ⟨rfl, rfl⟩ := Prod.mk.inj heq
      exact .inr ⟨rfl, hq⟩
  have hcalled : ∀ j, w.called j = true → Function.update w.called i true j = true :=
    (Function.forall_update_iff w.called fun j b => w.called j = true → b = true).mpr
      ⟨fun _ => rfl, fun _ _ => id⟩
  exact
    { bindAddr := h.bindAddr
      idle := fun j hj => by
        by_cases hji : j = i
        · subst hji
          exact nomatch (Function.update_self j true w.called).symm.trans hj
        · change (Function.update w.client i c j).state = .closed
          rw [Function.update_of_ne hji]
          exact h.idle j ((Function.update_of_ne hji true w.called).symm.trans hj)
      localAddr := fun j hj => by
        change (Function.update w.client i c j).establishedLocalAddr = addr j
        by_cases hji : j = i
        · subst hji
          rw [Function.update_self]
          exact hlocal
        · rw [Function.update_of_ne hji]
          exact h.localAddr j ((Function.update_of_ne hji true w.called).symm.trans hj)
      sent := fun j p hp => by
        rcases hmem j p hp with hold | ⟨rfl, -⟩
        · exact hcalled j (h.sent j p hold)
        · exact Function.update_self _ _ _
      src := fun j p hp hlen => by
        rcases hmem j p hp with hold | ⟨rfl, hnew⟩
        · exact h.src j p hold hlen
        · exact (hpackets p hnew hlen).1
      ack := fun j p hp hlen hack => by
        rcases hmem j p hp with hold | ⟨rfl, hnew⟩
        · exact hmono j (h.ack j p hold hlen hack)
        · change (Function.update w.client j c j).state = .established
          rw [Function.update_self]
          exact (hpackets p hnew hlen).2 hack
      answer := h.answer
      client := (Function.forall_update_iff w.client fun j s =>
        s.state = .established → Answered serverAddr addr w.server j).mpr
          ⟨hanswered, fun j _ => h.client j⟩
      server := fun j k hk hest => hmono j (h.server j k hk hest)
      left := fun j k hk hne => hcalled j (h.left j k hk hne) }

/-- The same, for a client that has called before. -/
theorem NetOk.setClient_called {w : Net ι} (h : NetOk serverAddr addr w) {i : ι} {c : TjuTcp}
    {packets : List Buf} (hi : w.called i = true)
    (hlocal : c.establishedLocalAddr = (w.client i).establishedLocalAddr)
    (hkeep : (w.client i).state = .established → c.state = .established)
    (hanswered : c.state = .established → Answered serverAddr addr w.server i)
    (hpackets : ∀ p ∈ packets, headerLen ≤ p.length → getSrc p = (addr i).port ∧
      (getFlags p = Flag.ack → c.state = .established)) :
    NetOk serverAddr addr (w.setClient i c packets) := by
  have hset := h.setClient (hlocal.trans (h.localAddr i hi)) hkeep hanswered hpackets
  have hsame : Function.update w.called i true = w.called := by
    rw [← hi]
    exact Function.update_eq_self i w.called
  rwa [hsame] at hset

/-- What a header-only packet of a socket looks like to its receiver. -/
theorem controlPkt_says (s : TjuTcp) (seq ack : UInt32) (flags : UInt8) (adv : UInt16) :
    getSrc (controlPkt s seq ack flags adv) = s.establishedLocalAddr.port ∧
      getFlags (controlPkt s seq ack flags adv) = flags := by
  obtain ⟨h, hpkt, hsrc, -, -, hflags, -, -⟩ := controlPkt_eq s seq ack flags adv
  rw [hpkt, getSrc_bytes, getFlags_bytes]
  exact ⟨hsrc, hflags⟩

theorem dataPkt_says (s : TjuTcp) (seq : UInt32) (adv : UInt16) (buf : Buf)
    (hlen : headerLen ≤ (dataPkt s seq adv buf).length) :
    getSrc (dataPkt s seq adv buf) = s.establishedLocalAddr.port ∧
      getFlags (dataPkt s seq adv buf) = Flag.noFlag := by
  rcases dataPkt_eq s seq adv buf with hlt | ⟨h, b, hpkt, -, hsrc, -, hflags, -, -⟩
  · exact absurd hlen (Nat.not_le.mpr hlt)
  · rw [hpkt, getSrc_bytes, getFlags_bytes]
    exact ⟨hsrc, hflags⟩

/-- **A retransmission changes nothing the handshake depends on**, and is an ACK only if the socket
is established. -/
theorem timerExpiry_says {s t : TjuTcp} {packets : List Buf} (hgive : ¬ GivesUp s)
    (hs : timerExpiry s = .ret (t, packets)) :
    t.establishedLocalAddr = s.establishedLocalAddr ∧ t.state = s.state ∧
      ∀ p ∈ packets, headerLen ≤ p.length → getSrc p = s.establishedLocalAddr.port ∧
        (getFlags p = Flag.ack → t.state = .established) := by
  rcases tcpWriteTimerHandler_cases hs with ⟨-, rfl, rfl⟩ | ⟨-, rfl, rfl⟩ | ⟨hst, -, rfl, rfl⟩ |
    ⟨hst, hfin, hlim, -⟩ | ⟨hst, -, -, hretr⟩ | ⟨-, rfl, rfl⟩
  · rw [tcpStartTimer_eq]
    refine ⟨rfl, rfl, fun p hp _ => ?_⟩
    obtain rfl := List.mem_singleton.mp hp
    obtain ⟨hsrc, hflags⟩ := controlPkt_says _ _ _ Flag.syn _
    exact ⟨hsrc, fun hack => absurd (hflags.symm.trans hack) (by decide)⟩
  · rw [tcpStartTimer_eq]
    refine ⟨rfl, rfl, fun p hp _ => ?_⟩
    obtain rfl := List.mem_singleton.mp hp
    obtain ⟨hsrc, hflags⟩ := controlPkt_says _ _ _ Flag.synAck _
    exact ⟨hsrc, fun hack => absurd (hflags.symm.trans hack) (by decide)⟩
  · refine ⟨rfl, rfl, fun p hp _ => ?_⟩
    obtain rfl := List.mem_singleton.mp hp
    obtain ⟨hsrc, -⟩ := controlPkt_says (finishHandshake (disarm s)) _ _ Flag.ack _
    exact ⟨hsrc, fun _ => hst⟩
  · exact absurd ⟨hst, hfin, hlim⟩ hgive
  · obtain ⟨_, _, _, hloss⟩ := handleLossAck_eq (disarm s)
    rw [hloss] at hretr
    obtain ⟨-, rfl, rfl⟩ := tcpRetransmitTimer_cases hretr
    rw [tcpStartTimer_eq]
    refine ⟨rfl, rfl, fun p hp hlen => ?_⟩
    obtain rfl := List.mem_singleton.mp hp
    obtain ⟨hsrc, hflags⟩ := dataPkt_says _ _ _ _ hlen
    exact ⟨hsrc, fun hack => absurd (hflags.symm.trans hack) (by decide)⟩
  · exact ⟨rfl, rfl, fun p hp => nomatch hp⟩

/-! ## What the server does -/

omit [DecidableEq ι] in
/-- **The server moves one slot on**: that of a client that has called, to `ESTABLISHED` only if the
client is established. -/
theorem NetOk.setSlot (hslots : Function.Injective fun i => addrHash serverAddr (addr i))
    {w : Net ι} (h : NetOk serverAddr addr w) {i : ι} {k : Fin maxSockSize}
    (hk : clientSlot serverAddr addr i = some k) (hi : w.called i = true) {t : TjuTcp}
    {v : TcpState} (hbind : t.bindAddr = w.server.bindAddr)
    (hlisten : t.listenState = Function.update w.server.listenState k v)
    (hv : v = .synRecv ∨ v = .established ∧ (w.client i).state = .established)
    (packets : List Buf) :
    NetOk serverAddr addr
      { w with server := t, toClient := w.toClient ++ packets.map fun p => (i, p) } := by
  have howner : ∀ j, clientSlot serverAddr addr j = some k → j = i :=
    fun j hj => hslots (tableIndex_inj hj hk)
  have hself : t.listenState k = v := by rw [hlisten, Function.update_self]
  have hother : ∀ k', k' ≠ k → t.listenState k' = w.server.listenState k' := fun k' hne => by
    rw [hlisten, Function.update_of_ne hne]
  have hmoved : Answered serverAddr addr t i := by
    refine ⟨k, hk, ?_⟩
    rw [hself]
    exact hv.imp_right And.left
  have hmono : ∀ j, Answered serverAddr addr w.server j → Answered serverAddr addr t j := by
    rintro j ⟨k', hk', hst⟩
    by_cases hkk : k' = k
    · subst hkk
      exact howner j hk' ▸ hmoved
    · refine ⟨k', hk', ?_⟩
      rwa [hother k' hkk]
  exact
    { bindAddr := hbind.trans h.bindAddr
      idle := h.idle
      localAddr := h.localAddr
      sent := h.sent
      src := h.src
      ack := h.ack
      answer := fun j p hp => by
        rcases List.mem_append.mp hp with hold | hnew
        · exact hmono j (h.answer j p hold)
        · obtain ⟨q, -, heq⟩ := List.mem_map.mp hnew
          exact (Prod.mk.inj heq).1 ▸ hmoved
      client := fun j hj => hmono j (h.client j hj)
      server := fun j k' hk' hest => by
        by_cases hkk : k' = k
        · subst hkk
          obtain rfl := howner j hk'
          rcases hv with hv | ⟨-, hcl⟩
          · exact nomatch (hself.trans hv).symm.trans hest
          · exact hcl
        · exact h.server j k' hk' ((hother k' hkk).symm.trans hest)
      left := fun j k' hk' hne => by
        by_cases hkk : k' = k
        · subst hkk
          exact howner j hk' ▸ hi
        · exact h.left j k' hk' (hother k' hkk ▸ hne) }

omit [DecidableEq ι] in
/-- **The server's step** on a packet a client has sent. -/
theorem NetOk.deliverServer (hslots : Function.Injective fun i => addrHash serverAddr (addr i))
    {w : Net ι} (h : NetOk serverAddr addr w) {i : ι} {pkt : Buf} (hpkt : (i, pkt) ∈ w.toServer)
    {t : TjuTcp} {packets : List Buf} {status : ℤ}
    (hs : tcpRcvStateServer w.server pkt ⟨(addr i).ip, getSrc pkt⟩ = .ret (t, packets, status)) :
    NetOk serverAddr addr
      { w with server := t, toClient := w.toClient ++ packets.map fun p => (i, p) } := by
  obtain ⟨hlen, k, r, hk, rfl, hcases⟩ := tcpRcvStateServer_cases hs
  have hslot : clientSlot serverAddr addr i = some k := by
    rw [h.src i pkt hpkt hlen, listenSlot, h.bindAddr] at hk
    exact hk
  have hcalled := h.sent i pkt hpkt
  rcases hcases with ⟨-, -, hsyn⟩ | ⟨-, hack, hret⟩ | ⟨-, -, rfl, rfl⟩
  · obtain ⟨_, _, _, _, _, heq, -⟩ := rcvSyn_eq (w.server.setRwnd (getAdvertisedWindow pkt)) pkt
      ⟨(addr i).ip, getSrc pkt⟩ k
    obtain ⟨rfl, -⟩ := Prod.mk.inj (heq.symm.trans hsyn)
    refine h.setSlot hslots hslot hcalled ?_ ?_ (.inl rfl) packets
    · rfl
    · rfl
  · obtain ⟨_, _, _, _, _, -, rfl, -⟩ := rcvAck_cases hret
    refine h.setSlot hslots hslot hcalled ?_ ?_ (.inr ⟨rfl, h.ack i pkt hpkt hlen hack⟩) packets
    · rfl
    · rfl
  · rw [List.map_nil, List.append_nil]
    exact ⟨h.bindAddr, h.idle, h.localAddr, h.sent, h.src, h.ack, h.answer, h.client, h.server,
      h.left⟩

/-! ## Whole runs -/

theorem netOk_step (hslots : Function.Injective fun i => addrHash serverAddr (addr i))
    {w w' : Net ι} (h : NetOk serverAddr addr w) {e : NetEvent ι}
    (hs : netStep serverAddr addr w e = .ret w') : NetOk serverAddr addr w' := by
  cases e with
  | connect i =>
    rw [netStep] at hs
    split_ifs at hs with hcalled
    have hclosed := h.idle i (Bool.eq_false_of_not_eq_true hcalled)
    obtain ⟨hst, hlocal, -, adv, hpackets⟩ := tcpConnectBegin_eq (w.client i) (addr i) serverAddr
    generalize tcpConnectBegin (w.client i) (addr i) serverAddr = r at hs hst hlocal hpackets
    obtain ⟨c, packets⟩ := r
    obtain rfl := Outcome.ret.inj hs
    obtain rfl : packets = _ := hpackets
    refine h.setClient hlocal (fun hest => nomatch hclosed.symm.trans hest)
      (fun hest => nomatch hst.symm.trans hest) fun p hp _ => ?_
    obtain rfl := List.mem_singleton.mp hp
    rw [createPacketBuf_eq _ _ _ _ _ _ Flag.syn adv _ rfl rfl, getSrc_bytes, getFlags_bytes]
    have hsyn : Flag.syn ≠ Flag.ack := by decide
    exact ⟨rfl, fun hack => absurd hack hsyn⟩
  | connectReturns i =>
    obtain ⟨c, hend, hret⟩ := Outcome.bind_eq_ret.mp hs
    obtain rfl := Outcome.ret.inj hret
    rw [tcpConnectEnd] at hend
    split_ifs at hend with hest
    obtain rfl := Outcome.ret.inj hend
    have hanswered := h.client i hest
    exact h.setClient_called (h.called_of_answered hanswered) rfl (fun _ => hest)
      (fun _ => hanswered) fun p hp => nomatch hp
  | timeout i =>
    rw [netStep] at hs
    split_ifs at hs with hguard
    obtain ⟨⟨c, packets⟩, hexp, hret⟩ := Outcome.bind_eq_ret.mp hs
    obtain rfl := Outcome.ret.inj hret
    obtain ⟨hlocal, hst, hsays⟩ := timerExpiry_says hguard.2 hexp
    rw [h.localAddr i hguard.1] at hsays
    exact h.setClient_called hguard.1 hlocal hst.trans (fun hest => h.client i (hst.symm.trans hest))
      hsays
  | chat i pkt =>
    rw [netStep] at hs
    split_ifs at hs with hguard
    obtain rfl := Outcome.ret.inj hs
    have hanswered := h.client i hguard.1
    refine h.setClient_called (h.called_of_answered hanswered) rfl id (fun _ => hanswered)
      fun p hp _ => ?_
    obtain rfl := List.mem_singleton.mp hp
    exact ⟨hguard.2.1, fun _ => hguard.1⟩
  | deliverServer n =>
    rw [netStep] at hs
    split at hs
    next => nomatch hs
    next i pkt hpkt =>
      obtain ⟨⟨t, packets, status⟩, hserver, hret⟩ := Outcome.bind_eq_ret.mp hs
      obtain rfl := Outcome.ret.inj hret
      exact h.deliverServer hslots (List.mem_of_getElem? hpkt) hserver
  | deliverClient n =>
    rw [netStep] at hs
    split at hs
    next => nomatch hs
    next i pkt hpkt =>
      obtain ⟨⟨c, packets, status⟩, hclient, hret⟩ := Outcome.bind_eq_ret.mp hs
      obtain rfl := Outcome.ret.inj hret
      have hanswered := h.answer i pkt (List.mem_of_getElem? hpkt)
      have hcalled := h.called_of_answered hanswered
      rcases tcpRcvStateClient_cases hclient with ⟨-, hest, hlocal, -, adv, rfl⟩ | ⟨rfl, rfl⟩
      · refine h.setClient_called hcalled hlocal (fun _ => hest) (fun _ => hanswered)
          fun p hp _ => ?_
        obtain rfl := List.mem_singleton.mp hp
        rw [createPacketBuf_eq _ _ _ _ _ _ Flag.ack _ _ rfl rfl, getSrc_bytes,
          ← h.localAddr i hcalled]
        exact ⟨rfl, fun _ => hest⟩
      · exact h.setClient_called hcalled rfl id (fun _ => hanswered) fun p hp => nomatch hp

/-- **Handshake agreement.**  Whatever is lost, repeated and reordered: an established slot has an
established client, an established client has a slot that is half-open or established, and only the
slot of a client that has called leaves `LISTEN`. -/
theorem handshake_agreement (hslots : Function.Injective fun i => addrHash serverAddr (addr i))
    {w : Net ι} (h : Reachable (netStep serverAddr addr) (NetStart serverAddr) w) (i : ι) :
    (∀ k, clientSlot serverAddr addr i = some k → w.server.listenState k = .established →
      (w.client i).state = .established) ∧
    ((w.client i).state = .established → ∃ k, clientSlot serverAddr addr i = some k ∧
      (w.server.listenState k = .synRecv ∨ w.server.listenState k = .established)) ∧
    (∀ k, clientSlot serverAddr addr i = some k → w.server.listenState k ≠ .listen →
      w.called i = true) := by
  have hok : NetOk serverAddr addr w :=
    h.invariant (fun _ => netOk_start) fun _ _ _ hw => netOk_step hslots hw
  exact ⟨hok.server i, hok.client i, hok.left i⟩

/-- A server and two clients in zeroed memory. -/
def zeroedNet : Net Bool :=
  ⟨tcpListen (tcpBind (tcpSocket default) sampleServer), fun _ => tcpSocket default, fun _ => false,
    [], []⟩

theorem netStart_zeroedNet : NetStart sampleServer zeroedNet :=
  ⟨⟨default, rfl⟩, fun _ => ⟨default, rfl⟩, fun _ => rfl, rfl, rfl⟩

/-- Two clients' handshakes, one after the other, run to their ends. -/
theorem handshake_agreement_two : ∃ w, Reachable (netStep sampleServer sampleClient)
    (NetStart sampleServer) w ∧ ∀ i, (w.client i).state = .established := by
  have hrun : (run (netStep sampleServer sampleClient) zeroedNet
      [.connect false, .deliverServer 0, .deliverClient 0, .deliverServer 1,
        .connect true, .deliverServer 2, .deliverClient 1, .deliverServer 3] >>= fun w =>
        .ret (w.server.listenState ⟨773, by decide⟩, w.server.listenState ⟨774, by decide⟩)) =
      .ret (.established, .established) := by decide
  obtain ⟨w, hw, hret⟩ := Outcome.bind_eq_ret.mp hrun
  obtain ⟨hfirst, hsecond⟩ := Prod.mk.inj (Outcome.ret.inj hret)
  have hreach : Reachable (netStep sampleServer sampleClient) (NetStart sampleServer) w :=
    Reachable.after (.init netStart_zeroedNet) hw
  have hagree := handshake_agreement sampleClient_slots hreach
  refine ⟨w, hreach, fun i => ?_⟩
  cases i with
  | false => exact (hagree false).1 ⟨773, by decide⟩ (by decide) hfirst
  | true => exact (hagree true).1 ⟨774, by decide⟩ (by decide) hsecond

end TrivalTcp
