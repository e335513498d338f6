import Mathlib.Logic.Function.Basic
import TrivalTcp.Foundations.SignedRemainder
import TrivalTcp.Socket.Timer

/-!
# Handshake/Handshake — opening a connection (`api.c`, `tju_tcp.c`, `cal_hash` of `kernel.c`)

`tcp_listen` and `tcp_connect`, up to the tables of the kernel, and the two functions that process
handshake packets.  A listening socket keeps one state for each hash slot; it never leaves `LISTEN`
itself.

`tcp_connect` always writes the local address 10.0.0.2, port 5678; it is a parameter here, so that
several clients can be told apart.  It also waits, so it is split in two: what it does before it
waits for `ESTABLISHED`, and what it does after.
-/

namespace TrivalTcp

open SignedRemainder

/-! ## Hash slots -/

/-- `cal_hash`: conversions to `int` and sums wrap, `%` truncates. -/
def calHash (localIp : UInt32) (localPort : UInt16) (remoteIp : UInt32) (remotePort : UInt16) : ℤ :=
  (localIp.toInt32 + localPort.toUInt32.toInt32 + remoteIp.toInt32
    + remotePort.toUInt32.toInt32).toInt.tmod maxSockSize

/-- `calHash` of two addresses. -/
def addrHash (localAddr remoteAddr : TjuSockAddr) : ℤ :=
  calHash localAddr.ip localAddr.port remoteAddr.ip remoteAddr.port

/-- The table index a hash is, if it is one: an access with a negative hash is out of bounds. -/
def tableIndex (hashval : ℤ) : Option (Fin maxSockSize) :=
  if h : 0 ≤ hashval ∧ hashval.toNat < maxSockSize then some ⟨hashval.toNat, h.2⟩ else none

/-- The slot of `listen_state` a listening socket keeps for a remote address. -/
def listenSlot (s : TjuTcp) (connAddr : TjuSockAddr) : Option (Fin maxSockSize) :=
  tableIndex (addrHash s.bindAddr connAddr)

/-- A hash that is an index is determined by it. -/
theorem tableIndex_inj {a b : ℤ} {k : Fin maxSockSize} (ha : tableIndex a = some k)
    (hb : tableIndex b = some k) : a = b := by
  rw [tableIndex] at ha hb
  split_ifs at ha hb with hpa hpb
  have hval : a.toNat = b.toNat := congrArg Fin.val (Option.some.inj (ha.trans hb.symm))
  omega

theorem tableIndex_eq_none (hashval : ℤ) :
    tableIndex hashval = none ↔ ¬ (0 ≤ hashval ∧ hashval < maxSockSize) := by
  have hnat : (0 ≤ hashval ∧ hashval.toNat < maxSockSize) ↔ 0 ≤ hashval ∧ hashval < maxSockSize :=
    and_congr_right fun hpos => by omega
  rw [tableIndex, ← hnat]
  exact dite_eq_right_iff.trans ⟨fun h hp => Option.some_ne_none _ (h hp), fun h hp => absurd hp h⟩

/-- The sum of the four values stays in the lower half of 32 bits when it wraps, or leaves no
remainder. -/
def Indexable (localIp : UInt32) (localPort : UInt16) (remoteIp : UInt32) (remotePort : UInt16) :
    Prop :=
  (localIp.toNat + localPort.toNat + remoteIp.toNat + remotePort.toNat) % 2 ^ 32 < 2 ^ 31 ∨
    maxSockSize ∣ localIp.toNat + localPort.toNat + remoteIp.toNat + remotePort.toNat

section Index

variable (localIp : UInt32) (localPort : UInt16) (remoteIp : UInt32) (remotePort : UInt16)

instance : Decidable (Indexable localIp localPort remoteIp remotePort) :=
  inferInstanceAs (Decidable (_ ∨ _))

/-- **The hash is one of a wrapped sum.** -/
theorem calHash_eq : ∃ x : BitVec 32,
    x.toNat = (localIp.toNat + localPort.toNat + remoteIp.toNat + remotePort.toNat) % 2 ^ 32 ∧
      calHash localIp localPort remoteIp remotePort = x.toInt.tmod maxSockSize := by
  refine ⟨(localIp + localPort.toUInt32 + remoteIp + remotePort.toUInt32).toBitVec, ?_, ?_⟩
  · change (localIp + localPort.toUInt32 + remoteIp + remotePort.toUInt32).toNat = _
    simp only [UInt32.toNat_add, UInt16.toNat_toUInt32]
    omega
  · rw [calHash, ← UInt32.toInt32_add, ← UInt32.toInt32_add, ← UInt32.toInt32_add]
    rfl

/-- **Exactly when a hash is an index.** -/
theorem calHash_mem_iff : (0 ≤ calHash localIp localPort remoteIp remotePort ∧
    calHash localIp localPort remoteIp remotePort < maxSockSize) ↔
      Indexable localIp localPort remoteIp remotePort := by
  obtain ⟨x, hsum, hhash⟩ := calHash_eq localIp localPort remoteIp remotePort
  have hdvd : maxSockSize ∣ 2 ^ 32 := by decide
  have hlt : x.toInt.tmod maxSockSize < maxSockSize := Int.tmod_lt_of_pos _ (by decide)
  rw [hhash, and_iff_left hlt, tmod_toInt_nonneg_iff hdvd, hsum, Nat.dvd_mod_iff hdvd, Indexable]
  refine or_congr_left ?_
  omega

theorem tableIndex_calHash_eq_none :
    tableIndex (calHash localIp localPort remoteIp remotePort) = none ↔
      ¬ Indexable localIp localPort remoteIp remotePort :=
  (tableIndex_eq_none _).trans (not_congr (calHash_mem_iff localIp localPort remoteIp remotePort))

/-- A sum that stays in an `int` is hashed as it stands, to an index. -/
theorem tableIndex_calHash
    (h : localIp.toNat + localPort.toNat + remoteIp.toNat + remotePort.toNat < 2 ^ 31) :
    ∃ i, tableIndex (calHash localIp localPort remoteIp remotePort) = some i := by
  have hindexable : Indexable localIp localPort remoteIp remotePort :=
    .inl ((Nat.mod_le _ _).trans_lt h)
  exact Option.ne_none_iff_exists'.mp fun hnone =>
    (tableIndex_calHash_eq_none localIp localPort remoteIp remotePort).mp hnone hindexable

end Index

/-- 10.0.0.3, the server's address, at port 1234. -/
def sampleServer : TjuSockAddr := ⟨0x0A000003, 1234⟩

/-- Two clients at 10.0.0.2. -/
def sampleClient : Bool → TjuSockAddr
  | false => ⟨0x0A000002, 5678⟩
  | true => ⟨0x0A000002, 5679⟩

/-- Their slots at the server differ. -/
theorem sampleClient_slots :
    Function.Injective fun i => addrHash sampleServer (sampleClient i) := by
  intro i j h
  cases i <;> cases j <;> first | rfl | exact absurd h (by decide)

/-- A client's packet to the server, without data. -/
def sampleSegment (flags : UInt8) (seq : UInt32) (i : Bool) : Buf :=
  createPacketBuf (sampleClient i).port sampleServer.port seq seq (.ofNat headerLen)
    (.ofNat headerLen) flags 0 0 []

/-! ## The application's side -/

/-- `tcp_bind`. -/
def tcpBind (s : TjuTcp) (bindAddr : TjuSockAddr) : TjuTcp := { s with bindAddr }

/-- `tcp_listen`, the socket's part. -/
def tcpListen (s : TjuTcp) : TjuTcp :=
  { s with state := .listen, listenState := fun _ => .listen }

/-- `tcp_connect` up to its wait: the socket and the SYN it hands on. -/
def tcpConnectBegin (s : TjuTcp) (localAddr targetAddr : TjuSockAddr) : TjuTcp × List Buf :=
  let s := { s with
    establishedRemoteAddr := targetAddr
    establishedLocalAddr := localAddr
    bindAddr := targetAddr
    finishedHandshake := 0
    state := .synSent }
  let sendPkt := createPacketBuf localAddr.port targetAddr.port 0 0 (.ofNat headerLen)
    (.ofNat headerLen) Flag.syn (advWnd s) 0 []
  (tcpStartTimer s, [sendPkt])

/-- `tcp_connect` after its wait. -/
def tcpConnectEnd (s : TjuTcp) : Outcome TjuTcp :=
  if s.state = .established then
    .ret (((s.setExpectSeq 0).setBase 0).setNextseq 0)
  else
    .blocked

/-! ## Handshake packets -/

/-- `tcp_update_expected_seq`. -/
def tcpUpdateExpectedSeq (s : TjuTcp) (pkt : Buf) : TjuTcp :=
  s.setExpectSeq (getSeq pkt + (getPlen pkt).toUInt32 - (getHlen pkt).toUInt32)

/-- `sock->listen_state[k] = v`. -/
def setListenState (s : TjuTcp) (k : Fin maxSockSize) (v : TcpState) : TjuTcp :=
  { s with listenState := Function.update s.listenState k v }

/-- The `LISTEN` case of `tcp_rcv_state_server`, on a SYN. -/
def rcvSyn (s : TjuTcp) (pkt : Buf) (connAddr : TjuSockAddr) (k : Fin maxSockSize) :
    TjuTcp × List Buf × ℤ :=
  let s := { s with establishedRemoteAddr := connAddr }
  let s := setListenState (tcpUpdateExpectedSeq s pkt) k .synRecv
  let (synQueue, index) := sockqueuePush s.synQueue ⟨some connAddr, none⟩
  let s := { s with synQueue }
  if index < 0 then
    (s, [], -1)
  else
    let s := { s with savedSyn := index }
    (tcpStartTimer s, [buildStatePkt pkt Flag.synAck], 0)

/-- The `SYN_RECV` case of `tcp_rcv_state_server`, on an ACK.  The statuses of `sockqueue_remove`
and `sockqueue_push` are not looked at: where nothing was removed, the new socket is as `malloc`
left it. -/
def rcvAck (s : TjuTcp) (pkt : Buf) (k : Fin maxSockSize) : Outcome (TjuTcp × List Buf × ℤ) :=
  let s := setListenState (tcpStopTimer s) k .established
  let s := tcpUpdateExpectedSeq s pkt
  sockqueueRemove s.synQueue s.savedSyn >>= fun (synQueue, removed, _) =>
    let connSock := { removed.getD ⟨none, none⟩ with state := some .established }
    let (acceptQueue, _) := sockqueuePush s.acceptQueue connSock
    .ret ({ s with synQueue, acceptQueue }, [], 0)

/-- `tcp_rcv_state_server`. -/
def tcpRcvStateServer (s : TjuTcp) (pkt : Buf) (connAddr : TjuSockAddr) :
    Outcome (TjuTcp × List Buf × ℤ) :=
  if pkt.length < headerLen then
    .undef
  else
    let flags := getFlags pkt
    let s := s.setRwnd (getAdvertisedWindow pkt)
    match listenSlot s connAddr with
    | none => .undef
    | some k =>
      match s.listenState k with
      | .closed => .ret (s, [], -1)
      | .listen =>
        if flags = Flag.syn then .ret (rcvSyn s pkt connAddr k)
        else if flags = Flag.rst then .ret (s, [], 0)
        else .ret (s, [], -1)
      | .synRecv =>
        -- an RST falls through to the default case
        if flags = Flag.ack then rcvAck s pkt k else .ret (s, [], -1)
      | _ => .ret (s, [], -1)

/-- `tcp_rcv_state_client`. -/
def tcpRcvStateClient (s : TjuTcp) (pkt : Buf) (connSock : TjuSockAddr) :
    Outcome (TjuTcp × List Buf × ℤ) :=
  if pkt.length < headerLen then
    .undef
  else
    let s := s.setRwnd (getAdvertisedWindow pkt)
    if getFlags pkt = Flag.synAck then
      if s.state = .synSent then
        let s := tcpUpdateExpectedSeq (tcpStopTimer s) pkt
        let sendPkt := createPacketBuf s.establishedLocalAddr.port connSock.port (getSeq pkt + 1)
          (getSeq pkt + 1) (.ofNat headerLen) (.ofNat headerLen) Flag.ack (advWnd s) 0 []
        .ret ({ s with state := .established }, [sendPkt], 0)
      else
        .ret (s, [], -1)
    else
      .ret (s, [], -1)

/-! ## What they can do -/

theorem tcpConnectBegin_eq (s : TjuTcp) (localAddr targetAddr : TjuSockAddr) :
    (tcpConnectBegin s localAddr targetAddr).1.state = .synSent ∧
      (tcpConnectBegin s localAddr targetAddr).1.establishedLocalAddr = localAddr ∧
      (tcpConnectBegin s localAddr targetAddr).1.establishedRemoteAddr = targetAddr ∧
      ∃ adv, (tcpConnectBegin s localAddr targetAddr).2 = [createPacketBuf localAddr.port
        targetAddr.port 0 0 (.ofNat headerLen) (.ofNat headerLen) Flag.syn adv 0 []] := by
  dsimp only [tcpConnectBegin]
  rw [tcpStartTimer_eq]
  exact ⟨rfl, rfl, rfl, _, rfl⟩

theorem rcvSyn_eq (s : TjuTcp) (pkt : Buf) (connAddr : TjuSockAddr) (k : Fin maxSockSize) :
    ∃ savedSyn rttTimer interruptSignal packets status, rcvSyn s pkt connAddr k =
      ({ setListenState (tcpUpdateExpectedSeq s pkt) k .synRecv with
          establishedRemoteAddr := connAddr
          synQueue := (sockqueuePush s.synQueue ⟨some connAddr, none⟩).1
          savedSyn, rttTimer, interruptSignal }, packets, status) ∧
      (0 ≤ (sockqueuePush s.synQueue ⟨some connAddr, none⟩).2 →
        savedSyn = (sockqueuePush s.synQueue ⟨some connAddr, none⟩).2) := by
  by_cases hneg : (sockqueuePush s.synQueue ⟨some connAddr, none⟩).2 < 0
  · refine ⟨s.savedSyn, s.rttTimer, s.interruptSignal, [], -1, ?_,
      fun h => absurd hneg (not_lt.mpr h)⟩
    exact if_pos hneg
  · refine ⟨_, ⟨true, true⟩, 0, [buildStatePkt pkt Flag.synAck], 0, ?_, fun _ => rfl⟩
    refine (if_neg hneg).trans ?_
    rw [tcpStartTimer_eq]
    rfl

/-- The answer to a SYN, if there is one. -/
theorem rcvSyn_packets (s : TjuTcp) (pkt : Buf) (connAddr : TjuSockAddr) (k : Fin maxSockSize) :
    (rcvSyn s pkt connAddr k).2.1 =
      if (sockqueuePush s.synQueue ⟨some connAddr, none⟩).2 < 0 then []
      else [buildStatePkt pkt Flag.synAck] := by
  rw [rcvSyn]
  dsimp only [setListenState, tcpUpdateExpectedSeq, TjuTcp.setExpectSeq]
  split_ifs
  · rfl
  · rfl

theorem built_buildStatePkt (recvPkt : Buf) (flags : UInt8) :
    Built (buildStatePkt recvPkt flags) (getDst recvPkt) (getSeq recvPkt + .ofNat headerLen) flags [] :=
  built_createPacketBuf _ _ _ _ flags _ 0 rfl rfl

theorem rcvAck_eq (s : TjuTcp) (pkt : Buf) (k : Fin maxSockSize) {synQueue : SockQueue ConnSock}
    {removed : Option ConnSock} {st : ℤ}
    (h : sockqueueRemove s.synQueue s.savedSyn = .ret (synQueue, removed, st)) :
    ∃ rttTimer interruptSignal, rcvAck s pkt k = .ret
      ({ setListenState (tcpUpdateExpectedSeq s pkt) k .established with
          synQueue
          acceptQueue := (sockqueuePush s.acceptQueue
            { removed.getD ⟨none, none⟩ with state := some .established }).1
          rttTimer, interruptSignal }, [], 0) := by
  obtain ⟨rttTimer, interruptSignal, hstop⟩ := tcpStopTimer_eq s
  refine ⟨rttTimer, interruptSignal, ?_⟩
  rw [rcvAck, hstop]
  exact Outcome.bind_eq_ret.mpr ⟨_, h, rfl⟩

theorem rcvAck_cases {s t : TjuTcp} {pkt : Buf} {k : Fin maxSockSize} {packets : List Buf}
    {status : ℤ} (h : rcvAck s pkt k = .ret (t, packets, status)) :
    ∃ rttTimer interruptSignal synQueue removed st,
      sockqueueRemove s.synQueue s.savedSyn = .ret (synQueue, removed, st) ∧
      t = { setListenState (tcpUpdateExpectedSeq s pkt) k .established with
          synQueue
          acceptQueue := (sockqueuePush s.acceptQueue
            { removed.getD ⟨none, none⟩ with state := some .established }).1
          rttTimer, interruptSignal } ∧ packets = [] := by
  obtain ⟨_, _, hstop⟩ := tcpStopTimer_eq s
  have hbind := h
  rw [rcvAck, hstop] at hbind
  obtain ⟨⟨synQueue, removed, st⟩, hremove, -⟩ := Outcome.bind_eq_ret.mp hbind
  obtain ⟨rttTimer, interruptSignal, heq⟩ := rcvAck_eq s pkt k hremove
  obtain ⟨rfl, hrest⟩ := Prod.mk.inj (Outcome.ret.inj (h.symm.trans heq))
  exact ⟨rttTimer, interruptSignal, synQueue, removed, st, hremove, rfl, (Prod.mk.inj hrest).1⟩

/-- **What a listening socket does with a packet**: a SYN in `LISTEN` opens, an ACK in `SYN_RECV`
completes, and everything else changes nothing but `rwnd`. -/
theorem tcpRcvStateServer_cases {s t : TjuTcp} {pkt : Buf} {connAddr : TjuSockAddr}
    {packets : List Buf} {status : ℤ}
    (h : tcpRcvStateServer s pkt connAddr = .ret (t, packets, status)) :
    headerLen ≤ pkt.length ∧ ∃ k r, listenSlot s connAddr = some k ∧
      r = s.setRwnd (getAdvertisedWindow pkt) ∧
      ((s.listenState k = .listen ∧ getFlags pkt = Flag.syn ∧
          rcvSyn r pkt connAddr k = (t, packets, status)) ∨
        (s.listenState k = .synRecv ∧ getFlags pkt = Flag.ack ∧
          rcvAck r pkt k = .ret (t, packets, status)) ∨
        (¬ (s.listenState k = .listen ∧ getFlags pkt = Flag.syn) ∧
          ¬ (s.listenState k = .synRecv ∧ getFlags pkt = Flag.ack) ∧ t = r ∧ packets = [])) := by
  rw [tcpRcvStateServer] at h
  split at h
  next => nomatch h
  next hlen =>
    have hsame : ∀ v, listenSlot (s.setRwnd v) connAddr = listenSlot s connAddr := fun _ => rfl
    dsimp only at h
    rw [hsame] at h
    split at h
    next => nomatch h
    next k hk =>
      refine ⟨Nat.not_lt.mp hlen, k, _, hk, rfl, ?_⟩
      generalize hr : s.setRwnd (getAdvertisedWindow pkt) = r at h ⊢
      have hst : s.listenState k = r.listenState k := by rw [← hr]; rfl
      rw [hst]
      split at h
      next hcl =>
        obtain ⟨rfl, hrest⟩ := Prod.mk.inj (Outcome.ret.inj h)
        rw [hcl]
        exact .inr (.inr ⟨by simp, by simp, rfl, (Prod.mk.inj hrest).1.symm⟩)
      next hli =>
        split_ifs at h with hsyn hrst
        · exact .inl ⟨hli, hsyn, Outcome.ret.inj h⟩
        · obtain ⟨rfl, hrest⟩ := Prod.mk.inj (Outcome.ret.inj h)
          rw [hli]
          exact .inr (.inr ⟨by simp [hsyn], by simp, rfl, (Prod.mk.inj hrest).1.symm⟩)
        · obtain ⟨rfl, hrest⟩ := Prod.mk.inj (Outcome.ret.inj h)
          rw [hli]
          exact .inr (.inr ⟨by simp [hsyn], by simp, rfl, (Prod.mk.inj hrest).1.symm⟩)
      next hsr =>
        split_ifs at h with hack
        · exact .inr (.inl ⟨hsr, hack, h⟩)
        · obtain ⟨rfl, hrest⟩ := Prod.mk.inj (Outcome.ret.inj h)
          rw [hsr]
          exact .inr (.inr ⟨by simp, by simp [hack], rfl, (Prod.mk.inj hrest).1.symm⟩)
      next hcl hli hsr =>
        obtain ⟨rfl, hrest⟩ := Prod.mk.inj (Outcome.ret.inj h)
        exact .inr (.inr ⟨fun hc => hli hc.1, fun hc => hsr hc.1, rfl, (Prod.mk.inj hrest).1.symm⟩)

/-- A SYN in `LISTEN` is processed, whether or not the half-open queue takes it. -/
theorem tcpRcvStateServer_syn {s : TjuTcp} {pkt : Buf} {connAddr : TjuSockAddr}
    {k : Fin maxSockSize} (hlen : headerLen ≤ pkt.length) (hk : listenSlot s connAddr = some k)
    (hst : s.listenState k = .listen) (hsyn : getFlags pkt = Flag.syn) :
    tcpRcvStateServer s pkt connAddr =
      .ret (rcvSyn (s.setRwnd (getAdvertisedWindow pkt)) pkt connAddr k) := by
  have hk' : listenSlot (s.setRwnd (getAdvertisedWindow pkt)) connAddr = some k := hk
  have hst' : (s.setRwnd (getAdvertisedWindow pkt)).listenState k = .listen := hst
  rw [tcpRcvStateServer, if_neg (Nat.not_lt.mpr hlen)]
  dsimp only
  rw [hk']
  dsimp only
  rw [hst']
  dsimp only
  rw [if_pos hsyn]

/-- An ACK in `SYN_RECV` is processed, however the removal from the half-open queue ends. -/
theorem tcpRcvStateServer_ack {s : TjuTcp} {pkt : Buf} {connAddr : TjuSockAddr}
    {k : Fin maxSockSize} (hlen : headerLen ≤ pkt.length) (hk : listenSlot s connAddr = some k)
    (hst : s.listenState k = .synRecv) (hack : getFlags pkt = Flag.ack) :
    tcpRcvStateServer s pkt connAddr = rcvAck (s.setRwnd (getAdvertisedWindow pkt)) pkt k := by
  have hk' : listenSlot (s.setRwnd (getAdvertisedWindow pkt)) connAddr = some k := hk
  have hst' : (s.setRwnd (getAdvertisedWindow pkt)).listenState k = .synRecv := hst
  rw [tcpRcvStateServer, if_neg (Nat.not_lt.mpr hlen)]
  dsimp only
  rw [hk']
  dsimp only
  rw [hst']
  dsimp only
  rw [if_pos hack]

theorem rcvSyn_status (s : TjuTcp) (pkt : Buf) (connAddr : TjuSockAddr) (k : Fin maxSockSize) :
    (rcvSyn s pkt connAddr k).2.2 = 0 ∨ (rcvSyn s pkt connAddr k).2.2 = -1 := by
  rw [rcvSyn]
  dsimp only [setListenState, tcpUpdateExpectedSeq, TjuTcp.setExpectSeq]
  split_ifs
  · exact .inr rfl
  · exact .inl rfl

/-- `size` counts half-open connections and the queue holds none. -/
def BrokenQueue (s : TjuTcp) : Prop := s.synQueue.nodes = [] ∧ s.synQueue.size ≠ 0

/-- **A listening socket processes a packet to its end** if there is a slot for the sender, and no
ACK makes it take a socket out of a broken queue. -/
theorem tcpRcvStateServer_returns {s : TjuTcp} {pkt : Buf} {connAddr : TjuSockAddr}
    {k : Fin maxSockSize} (hlen : headerLen ≤ pkt.length) (hk : listenSlot s connAddr = some k)
    (hqueue : s.listenState k = .synRecv → getFlags pkt = Flag.ack → ¬ BrokenQueue s) :
    ∃ t packets status, tcpRcvStateServer s pkt connAddr = .ret (t, packets, status) ∧
      (status = 0 ∨ status = -1) := by
  have hk' : listenSlot (s.setRwnd (getAdvertisedWindow pkt)) connAddr = some k := hk
  rw [tcpRcvStateServer, if_neg (Nat.not_lt.mpr hlen)]
  dsimp only
  rw [hk']
  dsimp only
  split
  next => exact ⟨_, _, _, rfl, .inr rfl⟩
  next =>
    split_ifs
    · exact ⟨_, _, _, rfl, rcvSyn_status _ _ _ _⟩
    · exact ⟨_, _, _, rfl, .inl rfl⟩
    · exact ⟨_, _, _, rfl, .inr rfl⟩
  next hst =>
    split_ifs with hack
    · have hholds : s.synQueue.nodes = [] → s.synQueue.size = 0 := by
        intro hnil
        by_contra hsize
        exact hqueue hst hack ⟨hnil, hsize⟩
      obtain ⟨⟨synQueue, removed, status⟩, hremove⟩ := sockqueueRemove_returns hholds s.savedSyn
      obtain ⟨_, _, hret⟩ := rcvAck_eq (s.setRwnd (getAdvertisedWindow pkt)) pkt k hremove
      exact ⟨_, _, _, hret, .inl rfl⟩
    · exact ⟨_, _, _, rfl, .inr rfl⟩
  next => exact ⟨_, _, _, rfl, .inr rfl⟩

/-- Without a slot for the sender there is no state to look at. -/
theorem tcpRcvStateServer_noSlot {s : TjuTcp} {pkt : Buf} {connAddr : TjuSockAddr}
    (hnone : listenSlot s connAddr = none) : tcpRcvStateServer s pkt connAddr = .undef := by
  have hnone' : listenSlot (s.setRwnd (getAdvertisedWindow pkt)) connAddr = none := hnone
  rw [tcpRcvStateServer]
  split
  · rfl
  · dsimp only
    rw [hnone']

/-- A socket cannot be taken out of a broken queue. -/
theorem rcvAck_broken {s : TjuTcp} (h : BrokenQueue s) (pkt : Buf) (k : Fin maxSockSize) :
    rcvAck s pkt k = .undef := by
  obtain ⟨_, _, hstop⟩ := tcpStopTimer_eq s
  rw [rcvAck, hstop]
  exact congrArg (· >>= _) (sockqueueRemove_eq_undef h.1 h.2 s.savedSyn)

/-- An ACK is to complete a handshake from a broken queue. -/
def TakesBroken (s : TjuTcp) (pkt : Buf) (connAddr : TjuSockAddr) : Prop :=
  ∃ k, listenSlot s connAddr = some k ∧ s.listenState k = .synRecv ∧ getFlags pkt = Flag.ack ∧
    BrokenQueue s

/-- **Exactly when a listening socket does not get through with a packet.** -/
theorem tcpRcvStateServer_eq_undef {s : TjuTcp} {pkt : Buf} {connAddr : TjuSockAddr} :
    tcpRcvStateServer s pkt connAddr = .undef ↔
      pkt.length < headerLen ∨ listenSlot s connAddr = none ∨ TakesBroken s pkt connAddr := by
  constructor
  · intro hundef
    by_contra hnot
    obtain ⟨hlen, hslot, hbroken⟩ : headerLen ≤ pkt.length ∧ listenSlot s connAddr ≠ none ∧
        ¬ TakesBroken s pkt connAddr := by
      simpa only [not_or, not_lt] using hnot
    obtain ⟨k, hk⟩ := Option.ne_none_iff_exists'.mp hslot
    obtain ⟨_, _, _, hret, -⟩ := tcpRcvStateServer_returns hlen hk
      fun hst hack hqueue => hbroken ⟨k, hk, hst, hack, hqueue⟩
    nomatch hundef.symm.trans hret
  · by_cases hlen : pkt.length < headerLen
    · exact fun _ => if_pos hlen
    · rintro (hshort | hnone | ⟨k, hk, hst, hack, hqueue⟩)
      · exact absurd hshort hlen
      · exact tcpRcvStateServer_noSlot hnone
      · have hqueue' : BrokenQueue (s.setRwnd (getAdvertisedWindow pkt)) := hqueue
        rw [tcpRcvStateServer_ack (Nat.not_lt.mp hlen) hk hst hack]
        exact rcvAck_broken hqueue' pkt k

/-- **What a connecting socket does with a packet**: the first SYN|ACK establishes it. -/
theorem tcpRcvStateClient_cases {s t : TjuTcp} {pkt : Buf} {connSock : TjuSockAddr}
    {packets : List Buf} {status : ℤ}
    (h : tcpRcvStateClient s pkt connSock = .ret (t, packets, status)) :
    (s.state = .synSent ∧ t.state = .established ∧
      t.establishedLocalAddr = s.establishedLocalAddr ∧
      t.establishedRemoteAddr = s.establishedRemoteAddr ∧
      ∃ adv, packets = [createPacketBuf s.establishedLocalAddr.port connSock.port (getSeq pkt + 1)
        (getSeq pkt + 1) (.ofNat headerLen) (.ofNat headerLen) Flag.ack adv 0 []]) ∨
    (t = s.setRwnd (getAdvertisedWindow pkt) ∧ packets = []) := by
  rw [tcpRcvStateClient] at h
  split at h
  next => nomatch h
  next =>
    obtain ⟨_, _, hstop⟩ := tcpStopTimer_eq (s.setRwnd (getAdvertisedWindow pkt))
    dsimp only at h
    rw [hstop] at h
    split at h
    next =>
      split at h
      next hst =>
        obtain ⟨rfl, hrest⟩ := Prod.mk.inj (Outcome.ret.inj h)
        exact .inl ⟨hst, rfl, rfl, rfl, _, (Prod.mk.inj hrest).1.symm⟩
      next =>
        obtain ⟨rfl, hrest⟩ := Prod.mk.inj (Outcome.ret.inj h)
        exact .inr ⟨rfl, (Prod.mk.inj hrest).1.symm⟩
    next =>
      obtain ⟨rfl, hrest⟩ := Prod.mk.inj (Outcome.ret.inj h)
      exact .inr ⟨rfl, (Prod.mk.inj hrest).1.symm⟩

end TrivalTcp
