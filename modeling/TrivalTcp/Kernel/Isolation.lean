import TrivalTcp.Kernel.Kernel

/-!
# Kernel/Isolation — connections of one listening socket share its windows

`tcp_accept` copies the listening socket with its pointers, so that every connection reads and
writes the one pair of window objects the listening socket has.  `isolated_iff` says exactly which
events of other clients leave a connection's `expect_seq`, `base` and `nextseq` as they were: those
that happen to write the values that are there.
-/

namespace TrivalTcp

/-- `expect_seq`, `base` and `nextseq`. -/
def Window.seqs (w : Window) : UInt32 × UInt32 × UInt32 :=
  (w.wndRecv.expectSeq, w.wndSend.base, w.wndSend.nextseq)

/-! ## What a handshake packet does to the window -/

/-- What `tcp_update_expected_seq` sets. -/
def seqAfter (pkt : Buf) : UInt32 := getSeq pkt + (getPlen pkt).toUInt32 - (getHlen pkt).toUInt32

/-- A packet that moves a handshake on: a SYN for a slot in `LISTEN`, or an ACK for one in
`SYN_RECV`, if the half-open queue is not left with a `size` and no nodes. -/
def MovesOn (s : TjuTcp) (connAddr : TjuSockAddr) (pkt : Buf) : Prop :=
  headerLen ≤ pkt.length ∧ ∃ i, listenSlot s connAddr = some i ∧
    ((s.listenState i = .listen ∧ getFlags pkt = Flag.syn) ∨
      (s.listenState i = .synRecv ∧ getFlags pkt = Flag.ack ∧
        (s.synQueue.nodes = [] → s.synQueue.size = 0)))

theorem tcpRcvStateServer_of_movesOn {s : TjuTcp} {connAddr : TjuSockAddr} {pkt : Buf}
    (h : MovesOn s connAddr pkt) : ∃ t r, tcpRcvStateServer s pkt connAddr = .ret (t, r) ∧
      t.window.seqs = (seqAfter pkt, s.base, s.nextseq) := by
  obtain ⟨hlen, i, hi, ⟨hst, hsyn⟩ | ⟨hst, hack, hqueue⟩⟩ := h
  · obtain ⟨_, _, _, _, _, heq, -⟩ :=
      rcvSyn_eq (s.setRwnd (getAdvertisedWindow pkt)) pkt connAddr i
    obtain ⟨⟨t, r⟩, ht⟩ : ∃ t, rcvSyn (s.setRwnd (getAdvertisedWindow pkt)) pkt connAddr i = t :=
      ⟨_, rfl⟩
    refine ⟨t, r, (tcpRcvStateServer_syn hlen hi hst hsyn).trans (congrArg _ ht), ?_⟩
    rw [(Prod.mk.inj (ht.symm.trans heq)).1]
    rfl
  · obtain ⟨⟨synQueue, removed, st⟩, hremove⟩ := sockqueueRemove_returns hqueue s.savedSyn
    obtain ⟨_, _, heq⟩ := rcvAck_eq (s.setRwnd (getAdvertisedWindow pkt)) pkt i hremove
    obtain ⟨t, ht⟩ : ∃ t, rcvAck (s.setRwnd (getAdvertisedWindow pkt)) pkt i = .ret (t, [], 0) :=
      ⟨_, heq⟩
    refine ⟨t, _, (tcpRcvStateServer_ack hlen hi hst hack).trans ht, ?_⟩
    rw [(Prod.mk.inj (Outcome.ret.inj (ht.symm.trans heq))).1]
    rfl

/-- **A handshake packet leaves the window's numbers alone unless it moves a handshake on.** -/
theorem tcpRcvStateServer_seqs {s t : TjuTcp} {connAddr : TjuSockAddr} {pkt : Buf}
    {r : List Buf × ℤ} (h : tcpRcvStateServer s pkt connAddr = .ret (t, r)) :
    (MovesOn s connAddr pkt ∧ t.window.seqs = (seqAfter pkt, s.base, s.nextseq)) ∨
      (¬ MovesOn s connAddr pkt ∧ t.window.seqs = s.window.seqs) := by
  by_cases hmoves : MovesOn s connAddr pkt
  · obtain ⟨t', r', heq, hseqs⟩ := tcpRcvStateServer_of_movesOn hmoves
    obtain ⟨rfl, -⟩ := Prod.mk.inj (Outcome.ret.inj (h.symm.trans heq))
    exact .inl ⟨hmoves, hseqs⟩
  · refine .inr ⟨hmoves, ?_⟩
    obtain ⟨hlen, i, _, hi, rfl, ⟨hst, hsyn, -⟩ | ⟨hst, hack, hret⟩ | ⟨-, -, rfl, -⟩⟩ :=
      tcpRcvStateServer_cases h
    · exact absurd ⟨hlen, i, hi, .inl ⟨hst, hsyn⟩⟩ hmoves
    · obtain ⟨_, _, _, _, _, hremove, -⟩ := rcvAck_cases hret
      have hqueue := sockqueueRemove_eq_ret hremove
      exact absurd ⟨hlen, i, hi, .inr ⟨hst, hack, hqueue⟩⟩ hmoves
    · rfl

/-! ## What a packet of a connection does to the window -/

/-- The payload `plen` announces is there. -/
def Fits (pkt : Buf) : Prop :=
  headerLen + ((getPlen pkt).toUInt32 - .ofNat headerLen).toNat ≤ pkt.length

/-- A packet `tju_handle_packet` processes to its end, and that moves the window: an ACK that is not
for `base`, or data in sequence. -/
def MovesWindow (s : TjuTcp) (pkt : Buf) : Prop :=
  headerLen ≤ pkt.length ∧ getFlags pkt ≠ Flag.head ∧ getFlags pkt ≠ Flag.backhead ∧
    if getFlags pkt = Flag.ack then
      getSeq pkt ≠ s.base ∧ (getPlen pkt = getHlen pkt ∨ getHlen pkt < getPlen pkt ∧ Fits pkt)
    else
      getSeq pkt = s.expectSeq ∧ (getPlen pkt).toUInt32 ≠ (getHlen pkt).toUInt32 ∧ Fits pkt

theorem appendReceived_eq_ret {s t : TjuTcp} {pkt : Buf} {packets packets' : List Buf}
    (h : appendReceived s pkt packets = .ret (t, packets')) :
    Fits pkt ∧ t.window = s.window := by
  dsimp only [appendReceived] at h
  split_ifs at h with hshort
  obtain ⟨rfl, -⟩ := Prod.mk.inj (Outcome.ret.inj h)
  exact ⟨Nat.not_lt.mp hshort, rfl⟩

theorem appendReceived_of_fits (s : TjuTcp) {pkt : Buf} (h : Fits pkt) (packets : List Buf) :
    ∃ t, appendReceived s pkt packets = .ret (t, packets) :=
  ⟨_, if_neg (Nat.not_lt.mpr h)⟩

/-- An ACK sets `base`. -/
theorem ack_seqs (s : TjuTcp) (seq : UInt32) :
    (ackTimer ((handleSuccessAck s).setBase seq)).window.seqs = (s.expectSeq, seq, s.nextseq) := by
  obtain ⟨_, _, htimer⟩ := ackTimer_eq ((handleSuccessAck s).setBase seq)
  obtain ⟨_, _, hcong⟩ := handleSuccessAck_eq s
  rw [htimer, hcong]
  rfl

/-- **A packet of a connection leaves the window's numbers alone unless it moves the window.** -/
theorem tjuHandlePacket_seqs {s t : TjuTcp} {pkt : Buf} {packets : List Buf}
    (h : tjuHandlePacket s pkt = .ret (t, packets)) (hno : ¬ MovesWindow s pkt) :
    t.window.seqs = s.window.seqs := by
  dsimp only [tjuHandlePacket] at h
  split_ifs at h with hlen hhead hback hack hlt heq hgt hseq
  · obtain ⟨rfl, -⟩ := Prod.mk.inj (Outcome.ret.inj h)
    rfl
  · obtain ⟨rfl, -⟩ := Prod.mk.inj (Outcome.ret.inj h)
    rfl
  · obtain ⟨rfl, -⟩ := Prod.mk.inj (Outcome.ret.inj h)
    have hbase : getSeq pkt = s.base := by
      by_contra hne
      exact hno ⟨Nat.not_lt.mp hlen, hhead, hback, by rw [if_pos hack]; exact ⟨hne, .inl heq⟩⟩
    rw [ack_seqs, hbase]
    rfl
  · obtain ⟨hfits, hwindow⟩ := appendReceived_eq_ret h
    have hlt' := UInt16.lt_iff_le_and_ne.mpr ⟨UInt16.not_lt.mp hlt, Ne.symm heq⟩
    have hbase : getSeq pkt = s.base := by
      by_contra hne
      exact hno ⟨Nat.not_lt.mp hlen, hhead, hback, by
        rw [if_pos hack]; exact ⟨hne, .inr ⟨hlt', hfits⟩⟩⟩
    rw [hwindow, ack_seqs, hbase]
    rfl
  · obtain ⟨rfl, -⟩ := Prod.mk.inj (Outcome.ret.inj h)
    rfl
  · obtain ⟨hfits, hwindow⟩ := appendReceived_eq_ret h
    have hsame : (getPlen pkt).toUInt32 = (getHlen pkt).toUInt32 := by
      by_contra hne
      exact hno ⟨Nat.not_lt.mp hlen, hhead, hback, by rw [if_neg hack]; exact ⟨hseq, hne, hfits⟩⟩
    rw [hwindow, hsame, UInt32.sub_self, UInt32.add_zero]
    rfl
  · obtain ⟨rfl, -⟩ := Prod.mk.inj (Outcome.ret.inj h)
    rfl

theorem tjuHandlePacket_of_movesWindow {s : TjuTcp} {pkt : Buf} (h : MovesWindow s pkt) :
    ∃ t packets, tjuHandlePacket s pkt = .ret (t, packets) ∧ t.window.seqs ≠ s.window.seqs := by
  obtain ⟨hlen, hhead, hback, h⟩ := h
  obtain ⟨r, hr⟩ : ∃ r, r = s.setRwnd (getAdvertisedWindow pkt) := ⟨_, rfl⟩
  obtain ⟨hbase, hexpect, hseqs⟩ :
      r.base = s.base ∧ r.expectSeq = s.expectSeq ∧ r.window.seqs = s.window.seqs := by
    rw [hr]
    exact ⟨rfl, rfl, rfl⟩
  rw [← hbase, ← hexpect] at h
  rw [tjuHandlePacket, if_neg (Nat.not_lt.mpr hlen), ← hseqs]
  dsimp only
  rw [← hr, if_neg hhead, if_neg hback]
  split_ifs at h with hack
  · obtain ⟨hne, hends⟩ := h
    have hmoved : ∀ t : TjuTcp,
        t.window = (ackTimer ((handleSuccessAck r).setBase (getSeq pkt))).window →
        t.window.seqs ≠ r.window.seqs := by
      intro t ht heq
      rw [ht, ack_seqs] at heq
      exact hne (Prod.mk.inj (Prod.mk.inj heq).2).1
    rw [if_pos hack]
    rcases hends with heq | ⟨hlt, hfits⟩
    · rw [if_neg (heq ▸ UInt16.lt_irrefl _), if_pos heq]
      exact ⟨_, _, rfl, hmoved _ rfl⟩
    · rw [if_neg (UInt16.not_lt.mpr (UInt16.le_of_lt hlt)), if_neg (UInt16.ne_of_lt hlt).symm]
      obtain ⟨t, ht⟩ := appendReceived_of_fits _ hfits []
      exact ⟨t, [], ht, hmoved t (appendReceived_eq_ret ht).2⟩
  · obtain ⟨hseq, hne, hfits⟩ := h
    rw [if_neg hack, if_neg (hseq ▸ UInt32.lt_irrefl _), if_pos hseq]
    obtain ⟨t, ht⟩ := appendReceived_of_fits _ hfits _
    refine ⟨t, _, ht, fun heq => hne ?_⟩
    rw [(appendReceived_eq_ret ht).2] at heq
    have hadd : r.expectSeq + ((getPlen pkt).toUInt32 - (getHlen pkt).toUInt32) = r.expectSeq :=
      (Prod.mk.inj heq).1
    have hzero := (UInt32.add_right_inj r.expectSeq).mp (hadd.trans (UInt32.add_zero _).symm)
    rwa [UInt32.sub_eq_iff_eq_add, UInt32.zero_add] at hzero

/-! ## A server -/

/-- What can happen at a server with one listening socket. -/
inductive ServerEvent where
  /-- `tcp_rcv_state_server` is given a packet. -/
  | segment (connAddr : TjuSockAddr) (pkt : Buf)
  /-- The application calls `tcp_accept`. -/
  | accept (connSock : Ptr)
  /-- The call returns. -/
  | acceptReturns (connSock : Ptr) (junk : TjuSockAddr)
  /-- `tju_handle_packet` is given a packet of a connection. -/
  | data (connSock : Ptr) (pkt : Buf)
  /-- A connection runs a function of its own. -/
  | call (connSock : Ptr) (c : Call)

variable (l : Ptr)

/-- A step of the server that listens with the socket at `l`.  Whether the block `received_buf` leads
to is still there is left to the kernel: no window depends on it. -/
def serverStep (k : Kernel) : ServerEvent → Outcome Kernel
  | .segment connAddr pkt =>
    k.heap.onSock l (fun s => tcpRcvStateServer s pkt connAddr) >>= fun (heap, _) =>
      .ret { k with heap }
  | .accept connSock => k.tcpAcceptBegin l connSock
  | .acceptReturns connSock junk => k.tcpAcceptEnd connSock junk
  | .data connSock pkt =>
    if connSock ≠ l ∧ k.accepting connSock = none then
      k.heap.onSock connSock (fun s => tjuHandlePacket s pkt) >>= fun (heap, _) =>
        .ret { k with heap }
    else
      .blocked
  | .call connSock c =>
    if connSock ≠ l ∧ k.accepting connSock = none then
      k.heap.onSock connSock (fun s => callStep (.start s) c >>= fun a => .ret (a.sock, a.handed))
        >>= fun (heap, _) => .ret { k with heap }
    else
      .blocked

/-- The server's first calls: `tcp_socket`, `tcp_bind` and `tcp_listen`. -/
def openServer (k : Kernel) (junk : TjuTcp) (bindAddr : TjuSockAddr) : Outcome Kernel :=
  k.heap.tcpSocket l junk >>= fun heap =>
    heap.onSock l (fun s => .ret (tcpBind s bindAddr, ())) >>= fun (heap, _) =>
      Kernel.tcpListen { k with heap } l

/-- A server that has made its first calls. -/
def ServerStart (k : Kernel) : Prop :=
  ∃ k₀ junk bindAddr, Kernel.Booted k₀ ∧ openServer l k₀ junk bindAddr = .ret k

/-- `tcp_accept` has returned the socket at `p`. -/
def Accepted (k : Kernel) (p : Ptr) : Prop :=
  p ≠ l ∧ k.accepting p = none ∧ ∃ m, k.heap.sock p = .live m

/-! ## Every connection has the listening socket's windows -/

/-- **One pair of window objects**: every socket has the pointers `tcp_socket` gave the listening
one. -/
structure ServerOk (k : Kernel) : Prop where
  listens : ∃ m, k.heap.sock l = .live m
  shared : ∀ p m, k.heap.sock p = .live m → m.ptrs.toObjPtrs = .own l
  waits : ∀ p v, k.accepting p = some v → v = l ∧ ∃ m, k.heap.sock p = .live m

/-- The window objects of the listening socket. -/
def sharedWindow (k : Kernel) : Window := ⟨k.heap.wndSend l, k.heap.wndRecv l⟩

variable {l}

theorem ServerOk.window {k : Kernel} (h : ServerOk l k) {p : Ptr} {m : SockMem}
    (hp : k.heap.sock p = .live m) : (k.heap.load m).window = sharedWindow l k := by
  rw [Heap.load, sharedWindow, h.shared p m hp]
  rfl

/-- **A function that runs on one socket** leaves the sharing as it is, and the windows as it leaves
those of its socket. -/
theorem ServerOk.store {k : Kernel} (h : ServerOk l k) {p : Ptr} {m : SockMem}
    (hp : k.heap.sock p = .live m) (s : TjuTcp) :
    ServerOk l { k with heap := k.heap.store p m.ptrs s } ∧
      sharedWindow l { k with heap := k.heap.store p m.ptrs s } = s.window ∧
      ∀ q, (∃ m, k.heap.sock q = .live m) → ∃ m', (k.heap.store p m.ptrs s).sock q = .live m' := by
  have hlive : ∀ q, (∃ m, k.heap.sock q = .live m) →
      ∃ m', (k.heap.store p m.ptrs s).sock q = .live m' := by
    rintro q ⟨m', hq⟩
    by_cases hqp : q = p
    · subst hqp
      exact ⟨_, Heap.store_sock_self q m.ptrs s⟩
    · exact ⟨m', (Heap.store_sock_of_ne hqp m.ptrs s).trans hq⟩
  refine ⟨⟨hlive l h.listens, fun q m' hq => ?_, fun q v hv => ?_⟩, ?_, hlive⟩
  · by_cases hqp : q = p
    · subst hqp
      obtain rfl := Cell.live.inj ((Heap.store_sock_self q m.ptrs s).symm.trans hq)
      exact h.shared q m hp
    · exact h.shared q m' ((Heap.store_sock_of_ne hqp m.ptrs s).symm.trans hq)
  · exact ⟨(h.waits q v hv).1, hlive q (h.waits q v hv).2⟩
  · have hload := Heap.load_store_window (h := k.heap) (m := m) rfl p s
    rw [Heap.load, h.shared p m hp] at hload
    exact hload

/-- A step keeps the sharing, and every socket that is there. -/
def Keeps (l : Ptr) (k k' : Kernel) : Prop :=
  ServerOk l k' ∧ ∀ q, (∃ m, k.heap.sock q = .live m) → ∃ m', k'.heap.sock q = .live m'

/-- **A step that runs a function on one socket.** -/
theorem ServerOk.onSock {k k' : Kernel} (h : ServerOk l k) {α : Type} {p : Ptr}
    {f : TjuTcp → Outcome (TjuTcp × α)}
    (hs : (k.heap.onSock p f >>= fun (heap, _) => .ret { k with heap }) = .ret k') :
    Keeps l k k' ∧ ∃ m s a, k.heap.sock p = .live m ∧ f (k.heap.load m) = .ret (s, a) ∧
      sharedWindow l k' = s.window := by
  obtain ⟨⟨heap, a⟩, hsock, hret⟩ := Outcome.bind_eq_ret.mp hs
  obtain rfl := Outcome.ret.inj hret
  obtain ⟨m, s, hm, hf, rfl⟩ := Heap.onSock_eq_ret.mp hsock
  obtain ⟨hok, hwindow, hlive⟩ := h.store hm s
  exact ⟨⟨hok, hlive⟩, m, s, a, hm, hf, hwindow⟩

/-- `tcp_accept` copies what is shared, and shares it. -/
theorem ServerOk.accept {k k' : Kernel} (h : ServerOk l k) {p : Ptr}
    (hs : k.tcpAcceptBegin l p = .ret k') :
    Keeps l k k' ∧ sharedWindow l k' = sharedWindow l k := by
  obtain ⟨m, hm, hs⟩ := Outcome.bind_eq_ret.mp hs
  rw [Heap.deref_eq_ret] at hm
  dsimp only at hs
  split at hs
  next hunused =>
    obtain rfl := Outcome.ret.inj hs
    have hlive : ∀ q, (∃ m, k.heap.sock q = .live m) →
        ∃ m', Function.update k.heap.sock p (.live m) q = .live m' := by
      rintro q ⟨m', hq⟩
      by_cases hqp : q = p
      · exact ⟨m, by rw [hqp, Function.update_self]⟩
      · exact ⟨m', by rw [Function.update_of_ne hqp, hq]⟩
    refine ⟨⟨⟨hlive l h.listens, fun q m' hq => ?_, fun q v hv => ?_⟩, hlive⟩, rfl⟩
    · by_cases hqp : q = p
      · subst hqp
        obtain rfl := Cell.live.inj ((Function.update_self q (Cell.live m) k.heap.sock).symm.trans hq)
        exact h.shared l m hm
      · exact h.shared q m' ((Function.update_of_ne hqp (Cell.live m) k.heap.sock).symm.trans hq)
    · by_cases hqp : q = p
      · subst hqp
        obtain rfl := Option.some.inj
          ((Function.update_self q (some l) k.accepting).symm.trans hv)
        exact ⟨rfl, m, Function.update_self q (Cell.live m) k.heap.sock⟩
      · have hold := h.waits q v
          ((Function.update_of_ne hqp (some l) k.accepting).symm.trans hv)
        exact ⟨hold.1, hlive q hold.2⟩
  next => nomatch hs

/-- The end of `tcp_accept` resets the shared windows. -/
theorem ServerOk.acceptReturns {k k' : Kernel} (h : ServerOk l k) {p : Ptr} {junk : TjuSockAddr}
    (hs : k.tcpAcceptEnd p junk = .ret k') :
    Keeps l k k' ∧ (sharedWindow l k').seqs = (0, 0, 0) := by
  obtain ⟨l', m, size, node, rest, heap, c, remoteAddr, i, -, hm, -, rfl, hc, -, -, rfl⟩ :=
    Kernel.tcpAcceptEnd_eq_ret.mp hs
  obtain ⟨hok, -, hlive⟩ := h.store hm ((k.heap.load m).setAcceptQueue ⟨size, rest⟩)
  obtain ⟨hok', hwindow, hlive'⟩ := hok.store hc (Kernel.acceptConn
    ((k.heap.store l' m.ptrs ((k.heap.load m).setAcceptQueue ⟨size, rest⟩)).load c)
    m.fields.bindAddr remoteAddr)
  refine ⟨⟨⟨hok'.listens, hok'.shared, fun q v hv => ?_⟩, fun q hq => hlive' q (hlive q hq)⟩, ?_⟩
  · refine hok'.waits q v ?_
    by_cases hqp : q = p
    · subst hqp
      exact nomatch (Function.update_self q (none : Option Ptr) k.accepting).symm.trans hv
    · exact (Function.update_of_ne hqp (none : Option Ptr) k.accepting).symm.trans hv
  · refine (congrArg Window.seqs hwindow).trans ?_
    rfl

theorem ServerOk.listen {k k' : Kernel} (h : ServerOk l k) {p : Ptr}
    (hs : k.tcpListen p = .ret k') : ServerOk l k' := by
  obtain ⟨m, hm, hs⟩ := Outcome.bind_eq_ret.mp hs
  dsimp only at hs
  split at hs
  next => nomatch hs
  next =>
    obtain rfl := Outcome.ret.inj hs
    have hok := (h.store (Heap.deref_eq_ret.mp hm) (tcpListen (k.heap.load m))).1
    exact ⟨hok.listens, hok.shared, hok.waits⟩

/-- **The step lemma**: whatever happens, the windows stay shared. -/
theorem serverOk_step {k k' : Kernel} (h : ServerOk l k) {e : ServerEvent}
    (hs : serverStep l k e = .ret k') : Keeps l k k' := by
  cases e with
  | segment connAddr pkt => exact (h.onSock hs).1
  | accept p => exact (h.accept hs).1
  | acceptReturns p junk => exact (h.acceptReturns hs).1
  | data p pkt =>
    rw [serverStep] at hs
    split_ifs at hs
    exact (h.onSock hs).1
  | call p c =>
    rw [serverStep] at hs
    split_ifs at hs
    exact (h.onSock hs).1

/-- The server's first calls make one socket, with the pointers `tcp_socket` gives it. -/
theorem serverOk_start {k : Kernel} (h : ServerStart l k) : ServerOk l k := by
  obtain ⟨k₀, junk, bindAddr, hboot, hopen⟩ := h
  obtain ⟨heap₁, hsocket, hopen⟩ := Outcome.bind_eq_ret.mp hopen
  rw [Heap.tcpSocket, hboot.sock l] at hsocket
  obtain rfl := Outcome.ret.inj hsocket
  have hok : ServerOk l
      { k₀ with heap := (k₀.heap.allocBuffers l).store l (.made l) (tcpSocket junk) } := by
    refine ⟨⟨_, Heap.store_sock_self _ _ _⟩, fun p m hp => ?_, fun p v hv => ?_⟩
    · by_cases hpl : p = l
      · subst hpl
        obtain rfl := Cell.live.inj ((Heap.store_sock_self _ _ _).symm.trans hp)
        rfl
      · exact nomatch (hboot.sock p).symm.trans ((Heap.store_sock_of_ne hpl _ _).symm.trans hp)
    · exact nomatch (hboot.accepting p).symm.trans hv
  obtain ⟨⟨heap₂, _⟩, hbind, hopen⟩ := Outcome.bind_eq_ret.mp hopen
  obtain ⟨m, s, hm, -, rfl⟩ := Heap.onSock_eq_ret.mp hbind
  exact (hok.store hm s).1.listen hopen

/-! ## Events of other clients -/

/-- The three numbers of the socket at `p`. -/
def seqsAt (k : Kernel) (p : Ptr) : Option (UInt32 × UInt32 × UInt32) :=
  match k.heap.sock p with
  | .live m => some (k.heap.load m).window.seqs
  | _ => none

theorem ServerOk.seqsAt {k : Kernel} (h : ServerOk l k) {p : Ptr}
    (hp : ∃ m, k.heap.sock p = .live m) : seqsAt k p = some (sharedWindow l k).seqs := by
  obtain ⟨m, hm⟩ := hp
  rw [TrivalTcp.seqsAt, hm]
  exact congrArg (fun w => some (Window.seqs w)) (h.window hm)

/-- The slot of the connection at `p`. -/
def connSlot (k : Kernel) (p : Ptr) : Option (Fin maxSockSize) :=
  match k.heap.sock p with
  | .live m => tableIndex (addrHash m.fields.establishedLocalAddr m.fields.establishedRemoteAddr)
  | _ => none

variable (l)

/-- The slot of a remote address at the listening socket. -/
def remoteSlot (k : Kernel) (remoteAddr : TjuSockAddr) : Option (Fin maxSockSize) :=
  match k.heap.sock l with
  | .live m => listenSlot (k.heap.load m) remoteAddr
  | _ => none

/-- The address of the connection the next `tcp_accept` returns. -/
def nextRemote (k : Kernel) (junk : TjuSockAddr) : TjuSockAddr :=
  match k.heap.sock l with
  | .live m => ((k.heap.load m).acceptQueue.nodes.head?.bind fun c => c.bindAddr).getD junk
  | _ => junk

/-- An event that belongs to a client in another slot than the connection at `a`. -/
def Foreign (a : Ptr) (k : Kernel) : ServerEvent → Prop
  | .segment connAddr _ => remoteSlot l k connAddr ≠ connSlot k a
  | .accept _ => True
  | .acceptReturns _ junk => remoteSlot l k (nextRemote l k junk) ≠ connSlot k a
  | .data p _ => connSlot k p ≠ connSlot k a
  | .call _ _ => False

/-- An event that writes a new value to one of the three numbers: a packet that moves a handshake on
and does not end where `expect_seq` is; the return of a `tcp_accept` while the numbers are not all
0; a packet that moves the window of its connection. -/
def Disturbs (k : Kernel) : ServerEvent → Prop
  | .segment connAddr pkt => ∃ m, k.heap.sock l = .live m ∧
      MovesOn (k.heap.load m) connAddr pkt ∧ seqAfter pkt ≠ (k.heap.load m).expectSeq
  | .accept _ => False
  | .acceptReturns p junk => k.accepting p ≠ none ∧ ∃ m size node rest, k.heap.sock l = .live m ∧
      (k.heap.load m).acceptQueue = ⟨size + 1, node :: rest⟩ ∧
      tableIndex (addrHash m.fields.bindAddr (node.bindAddr.getD junk)) ≠ none ∧
      (k.heap.load m).window.seqs ≠ (0, 0, 0)
  | .data p pkt => p ≠ l ∧ k.accepting p = none ∧ ∃ m, k.heap.sock p = .live m ∧
      MovesWindow (k.heap.load m) pkt
  | .call _ _ => False

variable {l}

/-- **What an event of another client leaves alone.** -/
theorem ServerOk.undisturbed {k k' : Kernel} (h : ServerOk l k) {a : Ptr} {e : ServerEvent}
    (hforeign : Foreign l a k e) (hno : ¬ Disturbs l k e) (hs : serverStep l k e = .ret k') :
    (sharedWindow l k').seqs = (sharedWindow l k).seqs := by
  cases e with
  | segment connAddr pkt =>
    obtain ⟨-, m, s, r, hm, hserver, hwindow⟩ := h.onSock hs
    rw [hwindow, ← h.window hm]
    rcases tcpRcvStateServer_seqs hserver with ⟨hmoves, hseqs⟩ | ⟨-, hseqs⟩
    · have hsame : seqAfter pkt = (k.heap.load m).expectSeq := by
        by_contra hne
        exact hno ⟨m, hm, hmoves, hne⟩
      rw [hseqs, hsame]
      rfl
    · exact hseqs
  | accept p => exact congrArg Window.seqs (h.accept hs).2
  | acceptReturns p junk =>
    obtain ⟨l', m, size, node, rest, _, _, _, i, hwait, hm, hq, -, -, rfl, hi, -⟩ :=
      Kernel.tcpAcceptEnd_eq_ret.mp hs
    obtain rfl := (h.waits p _ hwait).1
    rw [(h.acceptReturns hs).2, ← h.window hm]
    by_contra hne
    have hwaits := Option.ne_none_iff_exists'.mpr ⟨_, hwait⟩
    have hslot := Option.ne_none_iff_exists'.mpr ⟨_, hi⟩
    exact hno ⟨hwaits, m, size, node, rest, hm, hq, hslot, Ne.symm hne⟩
  | data p pkt =>
    rw [serverStep] at hs
    split_ifs at hs with hguard
    obtain ⟨-, m, s, r, hm, hhandle, hwindow⟩ := h.onSock hs
    rw [hwindow, ← h.window hm]
    exact tjuHandlePacket_seqs hhandle fun hmoves => hno ⟨hguard.1, hguard.2, m, hm, hmoves⟩
  | call p c => exact hforeign.elim

/-- **An event that disturbs happens, and changes one of the three numbers.** -/
theorem ServerOk.disturbed {k : Kernel} (h : ServerOk l k) {e : ServerEvent}
    (hd : Disturbs l k e) :
    ∃ k', serverStep l k e = .ret k' ∧ (sharedWindow l k').seqs ≠ (sharedWindow l k).seqs := by
  cases e with
  | segment connAddr pkt =>
    obtain ⟨m, hm, hmoves, hne⟩ := hd
    obtain ⟨s, r, hserver, hseqs⟩ := tcpRcvStateServer_of_movesOn hmoves
    have hsock : k.heap.onSock l (fun s => tcpRcvStateServer s pkt connAddr) =
        .ret (k.heap.store l m.ptrs s, r) := Heap.onSock_eq_ret.mpr ⟨m, s, hm, hserver, rfl⟩
    have hs : serverStep l k (.segment connAddr pkt) =
        .ret { k with heap := k.heap.store l m.ptrs s } := by
      rw [serverStep, hsock]
      rfl
    refine ⟨_, hs, fun heq => hne ?_⟩
    rw [(h.store hm s).2.1, hseqs, ← h.window hm] at heq
    exact (Prod.mk.inj heq).1
  | accept p => exact hd.elim
  | acceptReturns p junk =>
    obtain ⟨hwait, m, size, node, rest, hm, hq, hi, hne⟩ := hd
    obtain ⟨v, hv⟩ := Option.ne_none_iff_exists'.mp hwait
    obtain ⟨i, hi⟩ := Option.ne_none_iff_exists'.mp hi
    obtain ⟨rfl, hp⟩ := h.waits p v hv
    obtain ⟨c, hc⟩ := (h.store hm ((k.heap.load m).setAcceptQueue ⟨size, rest⟩)).2.2 p hp
    have hs := Kernel.tcpAcceptEnd_eq_ret.mpr
      ⟨v, m, size, node, rest, _, c, _, i, hv, hm, hq, rfl, hc, rfl, hi, rfl⟩
    refine ⟨_, hs, fun heq => hne ?_⟩
    rw [(h.acceptReturns hs).2, ← h.window hm] at heq
    exact heq.symm
  | data p pkt =>
    obtain ⟨hpl, hwait, m, hm, hmoves⟩ := hd
    obtain ⟨s, packets, hhandle, hne⟩ := tjuHandlePacket_of_movesWindow hmoves
    have hsock : k.heap.onSock p (fun s => tjuHandlePacket s pkt) =
        .ret (k.heap.store p m.ptrs s, packets) := Heap.onSock_eq_ret.mpr ⟨m, s, hm, hhandle, rfl⟩
    have hs : serverStep l k (.data p pkt) = .ret { k with heap := k.heap.store p m.ptrs s } := by
      rw [serverStep, if_pos ⟨hpl, hwait⟩, hsock]
      rfl
    refine ⟨_, hs, fun heq => hne ?_⟩
    rw [(h.store hm s).2.1, ← h.window hm] at heq
    exact heq
  | call p c => exact hd.elim

/-- **A connection's `expect_seq`, `base` and `nextseq` stay as they are through events of other
clients exactly when none of these events writes a new value to them** — in what is their own
handshake, their own `tcp_accept` and their own window. -/
theorem isolated_iff {k : Kernel} (hk : Reachable (serverStep l) (ServerStart l) k) {a : Ptr}
    (ha : Accepted l k a) {es : List ServerEvent}
    (hes : EveryStep (serverStep l) (Foreign l a) k es) :
    Along (serverStep l) (fun k' => seqsAt k' a = seqsAt k a) k es ↔
      EveryStep (serverStep l) (fun k e => ¬ Disturbs l k e) k es := by
  have hok : ServerOk l k :=
    hk.invariant (fun _ => serverOk_start) fun _ _ _ h hs => (serverOk_step h hs).1
  refine along_iff_everyStep_of (I := fun k' => ServerOk l k' ∧ (∃ m, k'.heap.sock a = .live m) ∧
    (sharedWindow l k').seqs = (sharedWindow l k).seqs) ?_ ?_ ?_ ⟨hok, ha.2.2, rfl⟩ hes
  · rintro k' ⟨hok', hlive, hseqs⟩
    rw [hok'.seqsAt hlive, hseqs, hok.seqsAt ha.2.2]
  · rintro k₁ e k₂ ⟨hok₁, hlive, hseqs⟩ hforeign hno hs
    have hkeeps := serverOk_step hok₁ hs
    exact ⟨hkeeps.1, hkeeps.2 a hlive, (hok₁.undisturbed hforeign hno hs).trans hseqs⟩
  · rintro k₁ e ⟨hok₁, hlive, hseqs⟩ - hd
    obtain ⟨k₂, hs, hne⟩ := hok₁.disturbed (not_not.mp hd)
    have hkeeps := serverOk_step hok₁ hs
    refine ⟨k₂, hs, fun hsame => hne ?_⟩
    rw [hkeeps.1.seqsAt (hkeeps.2 a hlive), hok.seqsAt ha.2.2] at hsame
    exact (Option.some.inj hsame).trans hseqs.symm

/-- A handshake, and `tcp_accept` of the connection. -/
def acceptedEvents : List ServerEvent :=
  [.segment (sampleClient false) (sampleSegment Flag.syn 0 false),
    .segment (sampleClient false) (sampleSegment Flag.ack 23 false), .accept 1,
    .acceptReturns 1 default]

/-- The SYN of a second client. -/
def secondSyn : ServerEvent := .segment (sampleClient true) (sampleSegment Flag.syn 0 true)

/-- Its ACK. -/
def secondAck : ServerEvent := .segment (sampleClient true) (sampleSegment Flag.ack 23 true)

/-- A packet of the second client belongs to another slot than the connection at 1. -/
def secondForeign (k : Kernel) : Bool :=
  decide (remoteSlot 0 k (sampleClient true) ≠ connSlot k 1)

theorem foreign_of_secondForeign {k : Kernel} (h : secondForeign k = true) (pkt : Buf) :
    Foreign 0 1 k (.segment (sampleClient true) pkt) := by
  rw [secondForeign, decide_eq_true_iff] at h
  exact h

theorem accepted_sample : ∃ k, Reachable (serverStep 0) (ServerStart 0) k ∧ Accepted 0 k 1 ∧
    seqsAt k 0 = some (0, 0, 0) ∧ seqsAt k 1 = some (0, 0, 0) ∧ secondForeign k = true ∧
    (serverStep 0 k secondSyn >>= fun k' => .ret (secondForeign k')) = .ret true ∧
    (run (serverStep 0) k [secondSyn, secondAck] >>= fun k' => .ret (seqsAt k' 1)) =
      .ret (some (23, 0, 0)) := by
  have hrun : (openServer 0 zeroedKernel default sampleServer >>= fun k =>
      run (serverStep 0) k acceptedEvents >>= fun k =>
        .ret (k.accepting 1, seqsAt k 0, seqsAt k 1)) =
      .ret (none, some (0, 0, 0), some (0, 0, 0)) := by decide
  have hforeign : (openServer 0 zeroedKernel default sampleServer >>= fun k =>
      run (serverStep 0) k acceptedEvents >>= fun k => .ret (secondForeign k)) = .ret true := by
    decide
  have hsyn : (openServer 0 zeroedKernel default sampleServer >>= fun k =>
      run (serverStep 0) k acceptedEvents >>= fun k =>
        serverStep 0 k secondSyn >>= fun k' => .ret (secondForeign k')) = .ret true := by decide
  have hack : (openServer 0 zeroedKernel default sampleServer >>= fun k =>
      run (serverStep 0) k acceptedEvents >>= fun k =>
        run (serverStep 0) k [secondSyn, secondAck] >>= fun k' => .ret (seqsAt k' 1)) =
      .ret (some (23, 0, 0)) := by decide
  obtain ⟨k₀, hopen, hrun⟩ := Outcome.bind_eq_ret.mp hrun
  obtain ⟨k, hk, hret⟩ := Outcome.bind_eq_ret.mp hrun
  rw [hopen, Outcome.ret_bind, hk, Outcome.ret_bind] at hforeign hsyn hack
  obtain ⟨hwait, hret⟩ := Prod.mk.inj (Outcome.ret.inj hret)
  obtain ⟨hseqs₀, hseqs₁⟩ := Prod.mk.inj hret
  have hstart : ServerStart 0 k₀ :=
    ⟨zeroedKernel, default, sampleServer, booted_zeroedKernel, hopen⟩
  have hlive : ∃ m, k.heap.sock 1 = .live m := by
    rw [seqsAt] at hseqs₁
    split at hseqs₁
    next m hm => exact ⟨m, hm⟩
    next => nomatch hseqs₁
  exact ⟨k, Reachable.after (.init hstart) hk, ⟨by decide, hwait, hlive⟩, hseqs₀, hseqs₁,
    Outcome.ret.inj hforeign, hsyn, hack⟩

/-- A second client's SYN happens to leave a new connection alone. -/
theorem isolated_iff_syn : ∃ k, Accepted 0 k 1 ∧
    Along (serverStep 0) (fun k' => seqsAt k' 1 = seqsAt k 1) k [secondSyn] := by
  obtain ⟨k, hreach, haccepted, hseqs, -, hforeign, -, -⟩ := accepted_sample
  refine ⟨k, haccepted, (isolated_iff hreach haccepted ?_).mpr ?_⟩
  · exact ⟨foreign_of_secondForeign hforeign _, fun _ _ => trivial⟩
  · refine ⟨?_, fun _ _ => trivial⟩
    rintro ⟨m, hm, -, hne⟩
    rw [seqsAt, hm] at hseqs
    have hexpect := (Prod.mk.inj (Option.some.inj hseqs)).1
    have hafter : seqAfter (sampleSegment Flag.syn 0 true) = 0 := by decide
    exact hne (hafter.trans hexpect.symm)

/-- **The handshake of a second client changes `expect_seq` of an accepted connection.** -/
theorem isolated_fails_second : ∃ k k', Reachable (serverStep 0) (ServerStart 0) k ∧
    Accepted 0 k 1 ∧ EveryStep (serverStep 0) (Foreign 0 1) k [secondSyn, secondAck] ∧
    run (serverStep 0) k [secondSyn, secondAck] = .ret k' ∧ seqsAt k 1 = some (0, 0, 0) ∧
    seqsAt k' 1 = some (23, 0, 0) := by
  obtain ⟨k, hreach, haccepted, -, hseqs, hforeign, hsyn, hack⟩ := accepted_sample
  obtain ⟨k', hrun, hret⟩ := Outcome.bind_eq_ret.mp hack
  refine ⟨k, k', hreach, haccepted, ⟨foreign_of_secondForeign hforeign _, fun k₁ hk₁ => ?_⟩, hrun,
    hseqs, Outcome.ret.inj hret⟩
  rw [hk₁] at hsyn
  exact ⟨foreign_of_secondForeign (Outcome.ret.inj hsyn) _, fun _ _ => trivial⟩

end TrivalTcp
