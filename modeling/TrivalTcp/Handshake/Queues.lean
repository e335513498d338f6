import TrivalTcp.Foundations.Tally
import TrivalTcp.Handshake.Handshake

/-!
# Handshake/Queues — the queues of a listening socket: never full, never misread

`sockqueue_remove` at index 0 drops the whole list of half-open connections and leaves `size` as it
is, so `size` says neither how full the list is nor whether there is one.  What keeps the queues
right is outside them: `QueuesOk` bounds both sizes by the slots of `listen_state` that have left
`LISTEN`, and ties the list and `saved_syn` to the slots in `SYN_RECV`.

* `pushes_succeed` — there is room for every connection that opens;
* `remove_finds` — the list is there whenever one completes.
-/

namespace TrivalTcp

/-! ## The machine -/

/-- What can happen to a listening socket. -/
inductive ListenEvent where
  | packet (pkt : Buf) (connAddr : TjuSockAddr)
  /-- A `tcp_accept` that has waited takes a connection. -/
  | accept

def listenStep (s : TjuTcp) : ListenEvent → Outcome TjuTcp
  | .packet pkt connAddr => tcpRcvStateServer s pkt connAddr >>= fun (s, _) => .ret s
  | .accept =>
    if sockqueueIsEmpty s.acceptQueue then
      .blocked
    else
      sockqueuePop s.acceptQueue >>= fun (acceptQueue, _) => .ret (s.setAcceptQueue acceptQueue)

/-- `tcp_listen` has just been called on a socket whose queues are empty. -/
def ListenStart (s : TjuTcp) : Prop :=
  ∃ s₀ : TjuTcp, s₀.synQueue = sockqueueInit ∧ s₀.acceptQueue = sockqueueInit ∧ s = tcpListen s₀

/-! ## The invariant -/

/-- The slots that have left `LISTEN`. -/
abbrev slotsOpened (s : TjuTcp) : ℕ := tally (· ≠ TcpState.listen) s.listenState

/-- The slots whose handshake is complete. -/
abbrev slotsEstablished (s : TjuTcp) : ℕ := tally (· = TcpState.established) s.listenState

/-- **What keeps the two queues right.** -/
structure QueuesOk (s : TjuTcp) : Prop where
  synSize : s.synQueue.size ≤ slotsOpened s
  acceptSize : s.acceptQueue.size ≤ slotsEstablished s
  synNodes : s.synQueue.nodes.length ≤ s.synQueue.size
  acceptNodes : s.acceptQueue.nodes.length = s.acceptQueue.size
  /-- Without a list no slot waits for its ACK. -/
  unopened : s.synQueue.nodes = [] → ∀ k, s.listenState k ≠ .synRecv
  /-- While the next removal is at index 0, at most one slot waits for its ACK. -/
  single : s.savedSyn = 0 → ∀ j k, s.listenState j = .synRecv → s.listenState k = .synRecv → j = k

theorem queuesOk_start {s : TjuTcp} (h : ListenStart s) : QueuesOk s := by
  obtain ⟨s₀, hsyn, haccept, rfl⟩ := h
  have hsyn' : (tcpListen s₀).synQueue = sockqueueInit := hsyn
  have haccept' : (tcpListen s₀).acceptQueue = sockqueueInit := haccept
  have hlisten : ∀ k, (tcpListen s₀).listenState k = .listen := fun _ => rfl
  exact
    { synSize := by rw [hsyn']; exact Nat.zero_le _
      acceptSize := by rw [haccept']; exact Nat.zero_le _
      synNodes := by rw [hsyn']; exact Nat.le_refl 0
      acceptNodes := by rw [haccept']; rfl
      unopened := fun _ k hk => TcpState.noConfusion ((hlisten k).symm.trans hk)
      single := fun _ j _ hj _ => TcpState.noConfusion ((hlisten j).symm.trans hj) }

section Step

variable {s : TjuTcp} {k : Fin maxSockSize}

/-- **There is room for a half-open connection** while its slot is in `LISTEN`. -/
theorem QueuesOk.synRoom (h : QueuesOk s) (hk : s.listenState k = .listen) :
    s.synQueue.size < maxQueue := by
  have hlt : slotsOpened s < Fintype.card (Fin maxSockSize) := tally_lt (not_not.mpr hk)
  rw [Fintype.card_fin] at hlt
  exact h.synSize.trans_lt hlt

/-- **There is room for a completed connection** while its slot is in `SYN_RECV`. -/
theorem QueuesOk.acceptRoom (h : QueuesOk s) (hk : s.listenState k = .synRecv) :
    s.acceptQueue.size < maxQueue := by
  have hne : ¬ s.listenState k = .established := by rw [hk]; decide
  have hlt : slotsEstablished s < Fintype.card (Fin maxSockSize) := tally_lt hne
  rw [Fintype.card_fin] at hlt
  exact h.acceptSize.trans_lt hlt

/-- A queue that is not full takes a socket. -/
theorem sockqueuePush_succeeds {α : Type} {q : SockQueue α} (h : q.size < maxQueue) (sock : α) :
    0 ≤ (sockqueuePush q sock).2 := by
  by_cases hnil : q.nodes = []
  · rw [sockqueuePush_index_nil h.ne hnil]
  · rw [sockqueuePush_index h.ne hnil]
    exact Int.natCast_nonneg _

theorem QueuesOk.setRwnd (h : QueuesOk s) (v : UInt16) : QueuesOk (s.setRwnd v) :=
  ⟨h.synSize, h.acceptSize, h.synNodes, h.acceptNodes, h.unopened, h.single⟩

/-- **A SYN opens a slot**: both `size` and the number of open slots go up by one, and the position
it saves is 0 only for the first of the list. -/
theorem QueuesOk.syn (h : QueuesOk s) (hk : s.listenState k = .listen) {connAddr : TjuSockAddr}
    {pkt : Buf} : QueuesOk (rcvSyn s pkt connAddr k).1 := by
  obtain ⟨savedSyn, _, _, _, _, heq, hsaved⟩ := rcvSyn_eq s pkt connAddr k
  have hroom := h.synRoom hk
  have hsaved' := hsaved (sockqueuePush_succeeds hroom _)
  have hne : ¬ s.listenState k ≠ .listen := not_not.mpr hk
  have hopen : TcpState.synRecv ≠ .listen := by decide
  have hest : TcpState.synRecv = .established ↔ s.listenState k = .established := by
    rw [hk]
    decide
  rw [heq, sockqueuePush_queue hroom.ne]
  refine ⟨?_, ?_, ?_, h.acceptNodes, fun hnil => ?_, fun hzero => ?_⟩
  · have htally := tally_update_enter (p := (· ≠ TcpState.listen)) hne hopen
    exact (Nat.succ_le_succ h.synSize).trans htally.ge
  · exact h.acceptSize.trans (tally_update_same (p := (· = TcpState.established)) hest).ge
  · dsimp only
    rw [List.length_append]
    exact Nat.succ_le_succ h.synNodes
  · exact absurd hnil (List.append_ne_nil_of_right_ne_nil _ (List.cons_ne_nil _ _))
  · have hfirst : s.synQueue.nodes = [] := by
      by_contra hnodes
      rw [sockqueuePush_index hroom.ne hnodes] at hsaved'
      have hpos := List.length_pos_iff.mpr hnodes
      have hsize := h.synNodes
      have : (s.synQueue.size : ℤ) = 0 := hsaved'.symm.trans hzero
      omega
    have honly : ∀ j, Function.update s.listenState k .synRecv j = .synRecv → j = k := by
      intro j hj
      by_contra hjk
      rw [Function.update_of_ne hjk] at hj
      exact h.unopened hfirst j hj
    exact fun i j hi hj => (honly i hi).trans (honly j hj).symm

/-- **An ACK completes a slot**: `size` of `accept_queue` and the number of completed slots go up by
one; where the list of half-open connections goes, no slot waits any more. -/
theorem QueuesOk.ack (h : QueuesOk s) (hk : s.listenState k = .synRecv) {pkt : Buf} {t : TjuTcp}
    {packets : List Buf} {status : ℤ} (hs : rcvAck s pkt k = .ret (t, packets, status)) :
    QueuesOk t := by
  obtain ⟨_, _, synQueue, removed, st, hremove, rfl, -⟩ := rcvAck_cases hs
  have hroom := h.acceptRoom hk
  have hne : ¬ s.listenState k = .established := by rw [hk]; decide
  have hopened : TcpState.established ≠ .listen ↔ s.listenState k ≠ .listen := by
    rw [hk]
    decide
  have hstill : ∀ j, Function.update s.listenState k .established j = .synRecv →
      s.listenState j = .synRecv ∧ j ≠ k := by
    intro j hj
    by_cases hjk : j = k
    · rw [hjk, Function.update_self] at hj
      contradiction
    · rw [Function.update_of_ne hjk] at hj
      exact ⟨hj, hjk⟩
  have hqueue : synQueue.size ≤ s.synQueue.size ∧ synQueue.nodes.length ≤ synQueue.size ∧
      (synQueue.nodes = [] → s.savedSyn = 0) := by
    have hnodes := h.synNodes
    rcases sockqueueRemove_cases hremove with rfl | ⟨hzero, rfl⟩ | ⟨hsize, hlength, hrest⟩
    · exact ⟨le_rfl, hnodes, fun hnil => absurd hk (h.unopened hnil k)⟩
    · exact ⟨le_rfl, Nat.zero_le _, fun _ => hzero⟩
    · exact ⟨by omega, by omega, fun hnil => absurd hnil hrest⟩
  rw [sockqueuePush_queue hroom.ne]
  refine ⟨?_, ?_, hqueue.2.1, ?_, fun hnil j hj => ?_, fun hzero i j hi hj => ?_⟩
  · refine hqueue.1.trans (h.synSize.trans ?_)
    exact (tally_update_same (p := (· ≠ TcpState.listen)) hopened).ge
  · have htally := tally_update_enter (p := (· = TcpState.established)) hne rfl
    exact (Nat.succ_le_succ h.acceptSize).trans htally.ge
  · dsimp only
    rw [List.length_append, h.acceptNodes]
    rfl
  · obtain ⟨hj, hjk⟩ := hstill j hj
    exact hjk (h.single (hqueue.2.2 hnil) j k hj hk)
  · exact h.single hzero i j (hstill i hi).1 (hstill j hj).1

/-- **One step of a listening socket** keeps its queues right. -/
theorem queuesOk_step {t : TjuTcp} {e : ListenEvent} (h : QueuesOk s)
    (hs : listenStep s e = .ret t) :
    QueuesOk t := by
  cases e with
  | packet pkt connAddr =>
    obtain ⟨⟨u, packets, status⟩, hrcv, hret⟩ := Outcome.bind_eq_ret.mp hs
    obtain rfl := Outcome.ret.inj hret
    obtain ⟨-, k, r, -, rfl, hcases⟩ := tcpRcvStateServer_cases hrcv
    have hr := h.setRwnd (getAdvertisedWindow pkt)
    rcases hcases with ⟨hst, -, hsyn⟩ | ⟨hst, -, hack⟩ | ⟨-, -, rfl, -⟩
    · have hu : (rcvSyn (s.setRwnd (getAdvertisedWindow pkt)) pkt connAddr k).1 = u :=
        congrArg Prod.fst hsyn
      exact hu ▸ hr.syn hst
    · exact hr.ack hst hack
    · exact hr
  | accept =>
    rw [listenStep] at hs
    split_ifs at hs with hempty
    obtain ⟨⟨acceptQueue, sock, st⟩, hpop, hret⟩ := Outcome.bind_eq_ret.mp hs
    obtain rfl := Outcome.ret.inj hret
    obtain ⟨size, node, rest, hq, rfl, -⟩ :=
      sockqueuePop_eq_ret (Bool.eq_false_of_not_eq_true hempty) hpop
    have haccept := h.acceptSize
    have hnodes := h.acceptNodes
    rw [hq] at haccept hnodes
    exact ⟨h.synSize, (Nat.le_succ size).trans haccept, h.synNodes, Nat.succ.inj hnodes, h.unopened,
      h.single⟩

end Step

theorem QueuesOk.of_reachable {s : TjuTcp} (h : Reachable listenStep ListenStart s) : QueuesOk s :=
  h.invariant (fun _ => queuesOk_start) fun _ _ _ => queuesOk_step

/-- A packet that can be read, from an address that has a slot; a `tcp_accept` that waits no
more. -/
def Feasible (s : TjuTcp) : ListenEvent → Prop
  | .packet pkt connAddr => headerLen ≤ pkt.length ∧ ∃ k, listenSlot s connAddr = some k
  | .accept => s.acceptQueue.size ≠ 0

/-- **No run is cut short**: whatever can happen to a listening socket is processed to its end. -/
theorem QueuesOk.returns {s : TjuTcp} (h : QueuesOk s) {e : ListenEvent} (he : Feasible s e) :
    ∃ t, listenStep s e = .ret t := by
  cases e with
  | packet pkt connAddr =>
    obtain ⟨hlen, k, hk⟩ := he
    obtain ⟨t, packets, status, hret, -⟩ :=
      tcpRcvStateServer_returns hlen hk fun hst _ hbroken => h.unopened hbroken.1 k hst
    exact ⟨t, Outcome.bind_eq_ret.mpr ⟨_, hret, rfl⟩⟩
  | accept =>
    have hempty : ¬ sockqueueIsEmpty s.acceptQueue = true := fun hzero => he (beq_iff_eq.mp hzero)
    have hne : s.acceptQueue.nodes ≠ [] := by
      rw [← List.length_pos_iff, h.acceptNodes]
      exact Nat.pos_of_ne_zero he
    obtain ⟨node, rest, hcons⟩ := List.exists_cons_of_ne_nil hne
    rw [listenStep, if_neg hempty, sockqueuePop, if_neg hempty, hcons]
    exact ⟨_, rfl⟩

/-! ## Room for every connection -/

/-- The two calls of `sockqueue_push` in `tcp_rcv_state_server`, on this packet, succeed. -/
structure PushesSucceed (s : TjuTcp) (pkt : Buf) (connAddr : TjuSockAddr) : Prop where
  syn : ∀ k, listenSlot s connAddr = some k → s.listenState k = .listen → getFlags pkt = Flag.syn →
    0 ≤ (sockqueuePush s.synQueue ⟨some connAddr, none⟩).2
  accept : ∀ k connSock, listenSlot s connAddr = some k → s.listenState k = .synRecv →
    getFlags pkt = Flag.ack → 0 ≤ (sockqueuePush s.acceptQueue connSock).2

/-- **No handshake is refused for lack of queue space**, whatever packets have come from whatever
clients, and however few connections `tcp_accept` has taken. -/
theorem pushes_succeed {s : TjuTcp} (h : Reachable listenStep ListenStart s) (pkt : Buf)
    (connAddr : TjuSockAddr) : PushesSucceed s pkt connAddr where
  syn _ _ hst _ := sockqueuePush_succeeds ((QueuesOk.of_reachable h).synRoom hst) _
  accept _ _ _ hst _ := sockqueuePush_succeeds ((QueuesOk.of_reachable h).acceptRoom hst) _

/-- A listening socket at 10.0.0.3, port 1234. -/
def sampleListener : TjuTcp := tcpListen (tcpBind (tcpSocket default) sampleServer)

theorem listenStart_sampleListener : ListenStart sampleListener :=
  ⟨tcpBind (tcpSocket default) sampleServer, rfl, rfl, rfl⟩

/-- Two clients have sent their SYNs; there is room for the first of them to complete. -/
theorem pushes_succeed_second : ∃ s, Reachable listenStep ListenStart s ∧ s.synQueue.size = 2 ∧
    PushesSucceed s (sampleSegment Flag.ack 23 false) (sampleClient false) := by
  have hrun : (run listenStep sampleListener
      [.packet (sampleSegment Flag.syn 0 false) (sampleClient false),
        .packet (sampleSegment Flag.syn 0 true) (sampleClient true)] >>= fun s =>
          .ret s.synQueue.size) = .ret 2 := by decide
  obtain ⟨s, hs, hsize⟩ := Outcome.bind_eq_ret.mp hrun
  have hreach : Reachable listenStep ListenStart s :=
    Reachable.after (.init listenStart_sampleListener) hs
  exact ⟨s, hreach, Outcome.ret.inj hsize, pushes_succeed hreach _ _⟩

/-! ## A list wherever one is read -/

/-- `tcp_rcv_state_server` calls `sockqueue_remove` on this packet. -/
def CallsRemove (s : TjuTcp) (pkt : Buf) (connAddr : TjuSockAddr) : Prop :=
  ∃ k, listenSlot s connAddr = some k ∧ s.listenState k = .synRecv ∧ getFlags pkt = Flag.ack

/-- **The half-open queue is never dereferenced when empty.**  Whenever `tcp_rcv_state_server` takes
a socket out of `syn_queue`, there is a list, and `sockqueue_remove` follows no pointer that is
`NULL`. -/
theorem remove_finds {s : TjuTcp} (h : Reachable listenStep ListenStart s) {pkt : Buf}
    {connAddr : TjuSockAddr} (hcall : CallsRemove s pkt connAddr) :
    s.synQueue.nodes ≠ [] ∧ ∃ r, sockqueueRemoveNodes s.synQueue s.savedSyn = .ret r := by
  obtain ⟨k, -, hst, -⟩ := hcall
  have hlist : s.synQueue.nodes ≠ [] := fun hnil => (QueuesOk.of_reachable h).unopened hnil k hst
  rw [sockqueueRemoveNodes_eq]
  exact ⟨hlist, sockqueueRemove_returns (fun hnil => absurd hnil hlist) s.savedSyn⟩

/-- Two clients have sent their SYNs and the first has completed; the second finds the list. -/
theorem remove_finds_second : ∃ s, Reachable listenStep ListenStart s ∧ s.synQueue.size = 1 ∧
    s.synQueue.nodes ≠ [] ∧ ∃ r, sockqueueRemoveNodes s.synQueue s.savedSyn = .ret r := by
  have hrun : (run listenStep sampleListener
      [.packet (sampleSegment Flag.syn 0 false) (sampleClient false),
        .packet (sampleSegment Flag.syn 0 true) (sampleClient true),
        .packet (sampleSegment Flag.ack 23 false) (sampleClient false)] >>= fun s =>
          .ret (s.synQueue.size, (listenSlot s (sampleClient true)).map s.listenState))
            = .ret (1, some .synRecv) := by decide
  obtain ⟨s, hs, hret⟩ := Outcome.bind_eq_ret.mp hrun
  obtain ⟨hsize, hst⟩ := Prod.mk.inj (Outcome.ret.inj hret)
  obtain ⟨k, hk, hst⟩ := Option.map_eq_some_iff.mp hst
  have hreach : Reachable listenStep ListenStart s :=
    Reachable.after (.init listenStart_sampleListener) hs
  have hack : getFlags (sampleSegment Flag.ack 23 true) = Flag.ack := by decide
  exact ⟨s, hreach, hsize, remove_finds hreach ⟨k, hk, hst, hack⟩⟩

end TrivalTcp
