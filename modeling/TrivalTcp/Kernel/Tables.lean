import TrivalTcp.Kernel.Demux

/-!
# Kernel/Tables — which addresses the socket tables have a place for

`cal_hash` adds four unsigned values as `int`s and takes the remainder, which has the sign of the
sum.  The tables are indexed with it as it is, so where the sum has wrapped into the upper half of
32 bits, and leaves a remainder, the access lies before the table.  For each call that makes such an
access there is one equivalence on when it is defined; `tableLookups_iff` has them together.

`onTCPPocket` hashes addresses 10.0.0.2 and 10.0.0.3 only, which are `Indexable` with any ports.
-/

namespace TrivalTcp

section Lookups

variable {k : Kernel} {p : Ptr}

/-- An access at a hash, and what is done there. -/
theorem lookup_defined_iff {α : Type} {P : Prop} {f : Fin maxSockSize → Outcome α}
    (hf : ∀ i, f i ≠ .undef ↔ P) (localAddr remoteAddr : TjuSockAddr) :
    (match tableIndex (addrHash localAddr remoteAddr) with
      | none => Outcome.undef
      | some i => f i) ≠ .undef ↔
    Indexable localAddr.ip localAddr.port remoteAddr.ip remoteAddr.port ∧ P := by
  have hindex : tableIndex (addrHash localAddr remoteAddr) = none ↔
      ¬ Indexable localAddr.ip localAddr.port remoteAddr.ip remoteAddr.port :=
    tableIndex_calHash_eq_none _ _ _ _
  cases hi : tableIndex (addrHash localAddr remoteAddr) with
  | none => exact iff_of_false (fun hdef => hdef rfl) fun h => hindex.mp hi h.1
  | some i =>
    have hindexable := not_not.mp (mt hindex.mpr (hi ▸ Option.some_ne_none i))
    exact (hf i).trans (and_iff_right hindexable).symm

/-- **`tcp_listen`** writes to `listen_queue` at the hash of the bound address. -/
theorem Kernel.tcpListen_defined_iff : k.tcpListen p ≠ .undef ↔
    ∃ m, k.heap.sock p = .live m ∧ Indexable m.fields.bindAddr.ip m.fields.bindAddr.port 0 0 := by
  refine Heap.deref_bind_defined_iff.trans (exists_congr fun m => and_congr_right fun _ => ?_)
  refine (lookup_defined_iff (P := True) (fun i => ?_) m.fields.bindAddr ⟨0, 0⟩).trans
    (and_iff_left trivial)
  exact iff_of_true (Outcome.ret_ne_undef _) trivial

/-- **`tcp_connect`** writes to `connect_sock` at the hash of its own address and the target. -/
theorem Kernel.tcpConnectBegin_defined_iff (targetAddr : TjuSockAddr) :
    k.tcpConnectBegin p targetAddr ≠ .undef ↔
      Indexable clientAddr.ip clientAddr.port targetAddr.ip targetAddr.port ∧
        ∃ m, k.heap.sock p = .live m := by
  refine lookup_defined_iff (fun i => ?_) clientAddr targetAddr
  rw [Heap.onSock, Outcome.bind_assoc, Heap.deref_bind_defined_iff]
  exact exists_congr fun m => and_iff_left (Outcome.ret_ne_undef _)

/-- After its wait it does so again, at the address the socket now has. -/
theorem Kernel.tcpConnectEnd_defined_iff : k.tcpConnectEnd p ≠ .undef ↔
    (0 < k.connecting p → ∃ m, k.heap.sock p = .live m ∧ (m.fields.state = .established →
      Indexable clientAddr.ip clientAddr.port m.fields.establishedRemoteAddr.ip
        m.fields.establishedRemoteAddr.port)) := by
  rw [Kernel.tcpConnectEnd]
  by_cases hwait : 0 < k.connecting p
  · rw [if_pos hwait, Heap.deref_bind_defined_iff, imp_iff_right hwait]
    refine exists_congr fun m => and_congr_right fun _ => ?_
    rw [TrivalTcp.tcpConnectEnd]
    have hload : (k.heap.load m).state = m.fields.state := rfl
    by_cases hest : m.fields.state = .established
    · rw [hload, if_pos hest, imp_iff_right hest]
      refine (lookup_defined_iff (P := True) (fun i => ?_) clientAddr
        m.fields.establishedRemoteAddr).trans (and_iff_left trivial)
      exact iff_of_true (Outcome.ret_ne_undef _) trivial
    · rw [hload, if_neg hest]
      exact iff_of_true Outcome.blocked_ne_undef fun h => absurd h hest
  · rw [if_neg hwait]
    exact iff_of_true Outcome.blocked_ne_undef fun h => absurd h hwait

/-- **`tcp_rcv_state_server`** looks at `listen_state` at the hash of the bound address and the
sender's. -/
theorem tcpRcvStateServer_defined_iff {s : TjuTcp} {pkt : Buf} {connAddr : TjuSockAddr} :
    tcpRcvStateServer s pkt connAddr ≠ .undef ↔
      Indexable s.bindAddr.ip s.bindAddr.port connAddr.ip connAddr.port ∧
        headerLen ≤ pkt.length ∧ ¬ TakesBroken s pkt connAddr := by
  have hslot := tableIndex_calHash_eq_none s.bindAddr.ip s.bindAddr.port connAddr.ip connAddr.port
  rw [ne_eq, tcpRcvStateServer_eq_undef, not_or, not_or, not_lt, and_left_comm]
  exact and_congr_left fun _ => not_iff_comm.mp hslot.symm

end Lookups

/-- **Exactly which addresses the socket tables have a place for.**  `cal_hash` returns an index
from 0 to 1023 **if and only if** the wrapped sum of its arguments is below 2^31 or 1024 divides it.
In the same cases the accesses through it are defined: by `tcp_listen` for the bound address, by
`tcp_rcv_state_server` for the bound address and the sender's, and by `tcp_connect` for its own
address and the target, before its wait and after.  What else these calls need is that the socket is
there, that the packet has a header, and that no handshake is completed from a broken queue. -/
theorem tableLookups_iff (localIp : UInt32) (localPort : UInt16) (remoteIp : UInt32)
    (remotePort : UInt16) (k : Kernel) (p : Ptr) (s : TjuTcp) (pkt : Buf) :
    ((0 ≤ calHash localIp localPort remoteIp remotePort ∧
      calHash localIp localPort remoteIp remotePort < maxSockSize) ↔
        Indexable localIp localPort remoteIp remotePort) ∧
    (k.tcpListen p ≠ .undef ↔ ∃ m, k.heap.sock p = .live m ∧
      Indexable m.fields.bindAddr.ip m.fields.bindAddr.port 0 0) ∧
    (tcpRcvStateServer s pkt ⟨remoteIp, remotePort⟩ ≠ .undef ↔
      Indexable s.bindAddr.ip s.bindAddr.port remoteIp remotePort ∧
        headerLen ≤ pkt.length ∧ ¬ TakesBroken s pkt ⟨remoteIp, remotePort⟩) ∧
    (k.tcpConnectBegin p ⟨remoteIp, remotePort⟩ ≠ .undef ↔
      Indexable clientAddr.ip clientAddr.port remoteIp remotePort ∧
        ∃ m, k.heap.sock p = .live m) ∧
    (k.tcpConnectEnd p ≠ .undef ↔
      (0 < k.connecting p → ∃ m, k.heap.sock p = .live m ∧
        (m.fields.state = .established → Indexable clientAddr.ip clientAddr.port
          m.fields.establishedRemoteAddr.ip m.fields.establishedRemoteAddr.port))) :=
  ⟨calHash_mem_iff localIp localPort remoteIp remotePort, Kernel.tcpListen_defined_iff,
    tcpRcvStateServer_defined_iff, Kernel.tcpConnectBegin_defined_iff ⟨remoteIp, remotePort⟩,
    Kernel.tcpConnectEnd_defined_iff⟩

/-- **A server that listens at 192.168.0.1, port 1234**, writes 813 places before `listen_queue`,
and a client that connects to it, 253 places before `connect_sock`. -/
theorem tableLookups_fail_private :
    calHash 0xC0A80001 1234 0 0 = -813 ∧ addrHash clientAddr ⟨0xC0A80001, 1234⟩ = -253 ∧
    ¬ (0 ≤ calHash 0xC0A80001 1234 0 0 ∧ calHash 0xC0A80001 1234 0 0 < maxSockSize) ∧
    run (hostStep .server) zeroedHost
      [.socket 0 default, .bind 0 ⟨0xC0A80001, 1234⟩, .listen 0] = .undef ∧
    run (hostStep .client) zeroedHost
      [.socket 0 default, .connect 0 ⟨0xC0A80001, 1234⟩] = .undef :=
  ⟨by decide, by decide, by decide, rfl, rfl⟩

end TrivalTcp
