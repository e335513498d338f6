import Mathlib.Data.Fintype.Card
import Mathlib.Data.Fintype.Option
import TrivalTcp.Handshake.Agreement

/-!
# Handshake/Interleave — handshakes of several clients, interleaved

Each client's SYN arrives at a listening socket, and later its ACK.  The server finds the half-open
connection an ACK completes by the position `saved_syn` remembers, which is that of the *last* SYN;
and completing the only half-open connection leaves `size` one too high for good, after which a
position taken from `size` is one too high as well.  `right_iff` turns this into the exact condition
on the order of arrivals under which `accept_queue` holds the right connections.
-/

namespace TrivalTcp

variable {ι : Type} [DecidableEq ι]

/-! ## Arrivals -/

/-- A listening socket, and what has arrived at it. -/
structure Opening (ι : Type) where
  server : TjuTcp
  /-- The clients whose SYN has arrived and whose ACK has not, in the order of their SYNs. -/
  half : List ι
  /-- The clients whose ACK has arrived, in that order. -/
  done : List ι
  /-- The client whose SYN arrived last, if no ACK has arrived since. -/
  last : Option ι
  /-- Some ACK has arrived while its client was the only one half-open. -/
  alone : Bool

/-- A client's SYN or ACK arrives. -/
inductive Arrival (ι : Type) where
  | syn (i : ι) (pkt : Buf)
  | ack (i : ι) (pkt : Buf)

/-- A whole packet with these flags. -/
def IsSegment (flags : UInt8) (pkt : Buf) : Prop := headerLen ≤ pkt.length ∧ getFlags pkt = flags

instance (flags : UInt8) (pkt : Buf) : Decidable (IsSegment flags pkt) :=
  inferInstanceAs (Decidable (_ ∧ _))

variable (serverAddr : TjuSockAddr) (addr : ι → TjuSockAddr)

/-- An arrival, handed to `tcp_rcv_state_server`.  Every client's SYN and ACK arrive once, the SYN
first. -/
def arrive (w : Opening ι) : Arrival ι → Outcome (Opening ι)
  | .syn i pkt =>
    if IsSegment Flag.syn pkt ∧ i ∉ w.half ∧ i ∉ w.done then
      tcpRcvStateServer w.server pkt (addr i) >>= fun (server, _, _) =>
        .ret { w with server, half := w.half ++ [i], last := some i }
    else
      .blocked
  | .ack i pkt =>
    if IsSegment Flag.ack pkt ∧ i ∈ w.half then
      tcpRcvStateServer w.server pkt (addr i) >>= fun (server, _, _) =>
        .ret
          { server
            half := w.half.erase i
            done := w.done ++ [i]
            last := none
            alone := w.alone || decide (w.half = [i]) }
    else
      .blocked

/-- A socket that has just begun to listen at `serverAddr`. -/
def OpeningStart (w : Opening ι) : Prop :=
  ∃ junk, w = ⟨tcpListen (tcpBind (tcpSocket junk) serverAddr), [], [], none, false⟩

/-- **The right connections are in `accept_queue`**: one for each ACK, in their order, with the
address of the client it came from. -/
def Right (w : Opening ι) : Prop :=
  w.server.acceptQueue.nodes.map (fun c => c.bindAddr) = w.done.map fun i => some (addr i)

/-- An ACK is about to arrive that does not directly follow its own client's SYN, or that does while
others are half-open and some handshake has been completed alone before. -/
def OutOfTurn (w : Opening ι) (e : Arrival ι) : Prop :=
  ∃ i pkt, e = .ack i pkt ∧ IsSegment Flag.ack pkt ∧ i ∈ w.half ∧
    ¬ (w.last = some i ∧ (w.half = [i] ∨ w.alone = false))

omit [DecidableEq ι] in
theorem outOfTurn_ack (w : Opening ι) (i : ι) (pkt : Buf) : OutOfTurn w (.ack i pkt) ↔
    IsSegment Flag.ack pkt ∧ i ∈ w.half ∧
      ¬ (w.last = some i ∧ (w.half = [i] ∨ w.alone = false)) := by
  constructor
  · rintro ⟨_, _, he, hout⟩
    obtain ⟨rfl, rfl⟩ := Arrival.ack.inj he
    exact hout
  · exact fun hout => ⟨i, pkt, rfl, hout⟩

instance (w : Opening ι) (e : Arrival ι) : Decidable (OutOfTurn w e) :=
  match e with
  | .syn _ _ => .isFalse fun ⟨_, _, he, _⟩ => by contradiction
  | .ack i pkt => decidable_of_iff' _ (outOfTurn_ack w i pkt)

/-! ## The invariant -/

/-- **The half-open queue, while every ACK has come in turn**: its nodes are the half-open clients,
`size` counts them and the handshakes completed alone, and `saved_syn` is the last client's position
— or past the end, if the last client has completed. -/
structure OpenOk (w : Opening ι) : Prop where
  bindAddr : w.server.bindAddr = serverAddr
  nodup : (w.half ++ w.done).Nodup
  slotted : ∀ i ∈ w.half ++ w.done, ∃ k, clientSlot serverAddr addr i = some k
  untouched : ∀ i k, clientSlot serverAddr addr i = some k → i ∉ w.half → i ∉ w.done →
    w.server.listenState k = .listen
  halfOpen : ∀ i ∈ w.half, ∃ k, clientSlot serverAddr addr i = some k ∧
    w.server.listenState k = .synRecv
  nodes : w.server.synQueue.nodes = w.half.map fun i => ⟨some (addr i), none⟩
  size_le : w.server.synQueue.size ≤ w.half.length + w.done.length
  size_eq : w.alone = false → w.server.synQueue.size = w.half.length
  size_gt : w.alone = true → w.half.length < w.server.synQueue.size
  savedFirst : ∀ i, w.last = some i → w.half = [i] → w.server.savedSyn = 0
  savedLast : ∀ i, w.last = some i → ∃ rest, w.half = rest ++ [i] ∧
    (rest ≠ [] → w.server.savedSyn = w.server.synQueue.size - 1)
  savedNone : w.last = none → w.half ≠ [] → w.server.savedSyn = w.half.length
  acceptSize : w.server.acceptQueue.size = w.done.length
  right : Right addr w

variable {serverAddr addr}

omit [DecidableEq ι] in
theorem openOk_start {w : Opening ι} (h : OpeningStart serverAddr w) :
    OpenOk serverAddr addr w := by
  obtain ⟨junk, rfl⟩ := h
  exact
    { bindAddr := rfl
      nodup := List.nodup_nil
      slotted := fun i hi => nomatch hi
      untouched := fun _ _ _ _ _ => rfl
      halfOpen := fun i hi => nomatch hi
      nodes := rfl
      size_le := le_rfl
      size_eq := fun _ => rfl
      size_gt := fun h => nomatch h
      savedFirst := fun _ h => nomatch h
      savedLast := fun _ h => nomatch h
      savedNone := fun _ h => absurd rfl h
      acceptSize := rfl
      right := rfl }

omit [DecidableEq ι] in
/-- There are no more clients than slots. -/
theorem length_le_maxSockSize (hslots : Function.Injective fun i => addrHash serverAddr (addr i))
    {l : List ι} (hl : l.Nodup) (hslot : ∀ i ∈ l, ∃ k, clientSlot serverAddr addr i = some k) :
    l.length ≤ maxSockSize := by
  have hinj : ∀ i ∈ l, ∀ j ∈ l, clientSlot serverAddr addr i = clientSlot serverAddr addr j →
      i = j := by
    intro i hi j _ heq
    obtain ⟨k, hk⟩ := hslot i hi
    exact hslots (tableIndex_inj hk (heq.symm.trans hk))
  have hnone : none ∉ l.map (clientSlot serverAddr addr) := by
    intro hmem
    obtain ⟨i, hi, hnone⟩ := List.mem_map.mp hmem
    obtain ⟨k, hk⟩ := hslot i hi
    exact nomatch hk.symm.trans hnone
  have hcard := (List.nodup_cons.mpr ⟨hnone, hl.map_on hinj⟩).length_le_card
  rw [List.length_cons, List.length_map, Fintype.card_option, Fintype.card_fin] at hcard
  exact Nat.le_of_succ_le_succ hcard

/-! ## A SYN arrives -/

omit [DecidableEq ι] in
/-- A client new to the server fits into both queues. -/
theorem OpenOk.room (hslots : Function.Injective fun i => addrHash serverAddr (addr i))
    {w : Opening ι} (h : OpenOk serverAddr addr w) {i : ι} {k : Fin maxSockSize}
    (hk : clientSlot serverAddr addr i = some k) (hhalf : i ∉ w.half) (hdone : i ∉ w.done) :
    w.half.length + w.done.length < maxSockSize := by
  have hnew : i ∉ w.half ++ w.done := fun hi => (List.mem_append.mp hi).elim hhalf hdone
  have hle := length_le_maxSockSize hslots (List.nodup_cons.mpr ⟨hnew, h.nodup⟩) fun j hj => by
    rcases List.mem_cons.mp hj with rfl | hj
    · exact ⟨k, hk⟩
    · exact h.slotted j hj
  rwa [List.length_cons, List.length_append] at hle

omit [DecidableEq ι] in
/-- Moving on the slot of one client leaves those of the others. -/
theorem update_slot_of_ne (hslots : Function.Injective fun i => addrHash serverAddr (addr i))
    {i j : ι} {k k' : Fin maxSockSize} (hi : clientSlot serverAddr addr i = some k)
    (hj : clientSlot serverAddr addr j = some k') (hne : j ≠ i)
    (listenState : Fin maxSockSize → TcpState) (v : TcpState) :
    Function.update listenState k v k' = listenState k' :=
  Function.update_of_ne (fun hkk : k' = k => hne (hslots (tableIndex_inj (hkk ▸ hj) hi))) _ _

/-- **What a SYN does to the server**: the client's socket is queued, and `saved_syn` is the
position `sockqueue_push` returned. -/
theorem OpenOk.syn_step (hslots : Function.Injective fun i => addrHash serverAddr (addr i))
    {w w' : Opening ι} (h : OpenOk serverAddr addr w) {i : ι} {pkt : Buf}
    (hs : arrive addr w (.syn i pkt) = .ret w') :
    i ∉ w.half ∧ i ∉ w.done ∧ ∃ (t : TjuTcp) (k : Fin maxSockSize),
      clientSlot serverAddr addr i = some k ∧ t.bindAddr = w.server.bindAddr ∧
      t.listenState = Function.update w.server.listenState k .synRecv ∧
      t.synQueue = ⟨w.server.synQueue.size + 1, w.server.synQueue.nodes ++ [⟨some (addr i), none⟩]⟩ ∧
      (w.half = [] → t.savedSyn = 0) ∧ (w.half ≠ [] → t.savedSyn = w.server.synQueue.size) ∧
      t.acceptQueue = w.server.acceptQueue ∧
      w' = { w with server := t, half := w.half ++ [i], last := some i } := by
  rw [arrive] at hs
  split_ifs at hs with hguard
  obtain ⟨⟨-, hflags⟩, hhalf, hdone⟩ := hguard
  obtain ⟨⟨t, packets, status⟩, hserver, hret⟩ := Outcome.bind_eq_ret.mp hs
  obtain ⟨-, k, r, hk, rfl, hcases⟩ := tcpRcvStateServer_cases hserver
  have hslot : clientSlot serverAddr addr i = some k := by
    rw [listenSlot, h.bindAddr] at hk
    exact hk
  have hlisten := h.untouched i k hslot hhalf hdone
  rcases hcases with ⟨-, -, hsyn⟩ | ⟨hst, -⟩ | ⟨hno, -⟩
  · obtain ⟨saved, _, _, _, _, heq, hsaved⟩ :=
      rcvSyn_eq (w.server.setRwnd (getAdvertisedWindow pkt)) pkt (addr i) k
    have ht := (Prod.mk.inj (heq.symm.trans hsyn)).1
    have hfull : w.server.synQueue.size ≠ maxQueue :=
      (h.size_le.trans_lt (h.room hslots hslot hhalf hdone)).ne
    have hnodes : w.server.synQueue.nodes = [] ↔ w.half = [] := by
      rw [h.nodes, List.map_eq_nil_iff]
    refine ⟨hhalf, hdone, t, k, hslot, ?_, ?_, ?_, fun hnil => ?_, fun hne => ?_, ?_,
      (Outcome.ret.inj hret).symm⟩
    · rw [← ht]
      rfl
    · rw [← ht]
      rfl
    · rw [← ht]
      exact sockqueuePush_queue hfull _
    · have hindex := sockqueuePush_index_nil hfull (hnodes.mpr hnil) ⟨some (addr i), none⟩
      rw [← ht]
      exact (hsaved hindex.ge).trans hindex
    · have hindex := sockqueuePush_index hfull (mt hnodes.mp hne) ⟨some (addr i), none⟩
      rw [← ht]
      exact (hsaved (hindex ▸ Int.natCast_nonneg _)).trans hindex
    · rw [← ht]
      rfl
  · exact TcpState.noConfusion (hlisten.symm.trans hst)
  · exact absurd ⟨hlisten, hflags⟩ hno

/-- **A SYN keeps the queue in order**, whoever else is half-open. -/
theorem OpenOk.syn (hslots : Function.Injective fun i => addrHash serverAddr (addr i))
    {w w' : Opening ι} (h : OpenOk serverAddr addr w) {i : ι} {pkt : Buf}
    (hs : arrive addr w (.syn i pkt) = .ret w') : OpenOk serverAddr addr w' := by
  obtain ⟨hhalf, hdone, t, k, hslot, hbind, hlisten, hqueue, hfirst, hlast, haccept, rfl⟩ :=
    h.syn_step hslots hs
  have hother : ∀ j k', clientSlot serverAddr addr j = some k' → j ≠ i →
      t.listenState k' = w.server.listenState k' := fun j k' hk' hne =>
    (congrFun hlisten k').trans (update_slot_of_ne hslots hslot hk' hne _ _)
  have hperm : (w.half ++ [i] ++ w.done).Perm (i :: (w.half ++ w.done)) := by
    rw [List.append_assoc]
    exact List.perm_middle
  exact
    { bindAddr := hbind.trans h.bindAddr
      nodup := by
        refine hperm.nodup_iff.mpr (List.nodup_cons.mpr ⟨fun hi => ?_, h.nodup⟩)
        exact (List.mem_append.mp hi).elim hhalf hdone
      slotted := fun j hj => by
        rcases List.mem_cons.mp (hperm.mem_iff.mp hj) with rfl | hj
        · exact ⟨k, hslot⟩
        · exact h.slotted j hj
      untouched := fun j k' hk' hjhalf hjdone => by
        obtain ⟨hjhalf, hji⟩ := not_or.mp (mt List.mem_append.mpr hjhalf)
        refine (hother j k' hk' fun hj => hji (List.mem_singleton.mpr hj)).trans ?_
        exact h.untouched j k' hk' hjhalf hjdone
      halfOpen := fun j hj => by
        rcases List.mem_append.mp hj with hj | hj
        · obtain ⟨k', hk', hst⟩ := h.halfOpen j hj
          exact ⟨k', hk', (hother j k' hk' fun hji => hhalf (hji ▸ hj)).trans hst⟩
        · obtain rfl := List.mem_singleton.mp hj
          exact ⟨k, hslot, (congrFun hlisten k).trans (Function.update_self _ _ _)⟩
      nodes := by
        rw [hqueue, h.nodes, List.map_append]
        rfl
      size_le := by
        rw [hqueue, List.length_append, List.length_singleton, Nat.add_right_comm]
        exact Nat.succ_le_succ h.size_le
      size_eq := fun halone => by
        rw [hqueue, List.length_append, List.length_singleton, h.size_eq halone]
      size_gt := fun halone => by
        rw [hqueue, List.length_append, List.length_singleton]
        exact Nat.succ_lt_succ (h.size_gt halone)
      savedFirst := fun j _ hone => hfirst (List.append_eq_singleton_iff.mp hone |>.elim
        (fun hc => hc.1) fun hc => absurd hc.2 (List.cons_ne_nil i []))
      savedLast := fun j hj => by
        obtain rfl := Option.some.inj hj
        refine ⟨w.half, rfl, fun hne => (hlast hne).trans ?_⟩
        rw [hqueue, Nat.cast_succ, add_sub_cancel_right]
      savedNone := fun hnone => absurd hnone (Option.some_ne_none i)
      acceptSize := haccept ▸ h.acceptSize
      right := by
        have hright := h.right
        unfold Right at hright ⊢
        rw [haccept]
        exact hright }

/-! ## An ACK arrives -/

/-- **What an ACK does to the server**, given what `sockqueue_remove` finds at `saved_syn`. -/
theorem OpenOk.ack_step (hslots : Function.Injective fun i => addrHash serverAddr (addr i))
    {w : Opening ι} (h : OpenOk serverAddr addr w) {i : ι} {pkt : Buf}
    (hseg : IsSegment Flag.ack pkt) (hi : i ∈ w.half) {synQueue : SockQueue ConnSock}
    {removed : Option ConnSock} {st : ℤ}
    (hremove : sockqueueRemove w.server.synQueue w.server.savedSyn = .ret (synQueue, removed, st)) :
    ∃ t k, clientSlot serverAddr addr i = some k ∧ t.bindAddr = w.server.bindAddr ∧
      t.listenState = Function.update w.server.listenState k .established ∧
      t.synQueue = synQueue ∧ t.savedSyn = w.server.savedSyn ∧
      t.acceptQueue = ⟨w.done.length + 1, w.server.acceptQueue.nodes ++
        [{ removed.getD ⟨none, none⟩ with state := some .established }]⟩ ∧
      arrive addr w (.ack i pkt) = .ret
        { server := t
          half := w.half.erase i
          done := w.done ++ [i]
          last := none
          alone := w.alone || decide (w.half = [i]) } := by
  obtain ⟨k, hslot, hst⟩ := h.halfOpen i hi
  have hk : listenSlot w.server (addr i) = some k := by
    rw [listenSlot, h.bindAddr]
    exact hslot
  have hlength := length_le_maxSockSize hslots h.nodup h.slotted
  have hfull : w.server.acceptQueue.size ≠ maxQueue := by
    have hpos := List.length_pos_of_mem hi
    rw [List.length_append] at hlength
    rw [h.acceptSize, maxQueue]
    rw [maxSockSize] at hlength
    omega
  obtain ⟨rttTimer, interruptSignal, hack⟩ :=
    rcvAck_eq (w.server.setRwnd (getAdvertisedWindow pkt)) pkt k hremove
  obtain ⟨t, ht⟩ : ∃ t, rcvAck (w.server.setRwnd (getAdvertisedWindow pkt)) pkt k =
      .ret (t, [], 0) := ⟨_, hack⟩
  have hserver := (Prod.mk.inj (Outcome.ret.inj (ht.symm.trans hack))).1
  refine ⟨t, k, hslot, ?_, ?_, ?_, ?_, ?_, ?_⟩
  · rw [hserver]
    rfl
  · rw [hserver]
    rfl
  · rw [hserver]
  · rw [hserver]
    rfl
  · rw [hserver]
    refine (sockqueuePush_queue hfull _).trans ?_
    rw [h.acceptSize]
  · rw [arrive, if_pos ⟨hseg, hi⟩, tcpRcvStateServer_ack hseg.1 hk hst hseg.2, ht]
    rfl

omit [DecidableEq ι] in
/-- Where somebody is half-open, `size` is not 0. -/
theorem OpenOk.size_ne_zero {w : Opening ι} (h : OpenOk serverAddr addr w) {i : ι}
    (hi : i ∈ w.half) : w.server.synQueue.size ≠ 0 := by
  have hpos := List.length_pos_of_mem hi
  cases halone : w.alone with
  | false => rw [h.size_eq halone]; exact hpos.ne'
  | true => exact (hpos.trans (h.size_gt halone)).ne'

/-- **The client at `saved_syn` completes**: its socket goes over to `accept_queue`. -/
theorem OpenOk.ack_found (hslots : Function.Injective fun i => addrHash serverAddr (addr i))
    {w w' : Opening ι} (h : OpenOk serverAddr addr w) {i : ι} {pkt : Buf}
    (hseg : IsSegment Flag.ack pkt) {rest : List ι} (hhalf : w.half = rest ++ [i]) {size : ℕ}
    {st : ℤ} (hremove : sockqueueRemove w.server.synQueue w.server.savedSyn =
      .ret (⟨size, rest.map fun j => ⟨some (addr j), none⟩⟩, some ⟨some (addr i), none⟩, st))
    (hle : size ≤ rest.length + (w.done.length + 1))
    (hsize : if w.alone || decide (w.half = [i]) then rest.length < size else size = rest.length)
    (hsaved : rest ≠ [] → w.server.savedSyn = rest.length)
    (hs : arrive addr w (.ack i pkt) = .ret w') : OpenOk serverAddr addr w' := by
  have hi : i ∈ w.half := hhalf ▸ List.mem_append_right rest (List.mem_singleton.mpr rfl)
  obtain ⟨t, k, hslot, hbind, hlisten, hsyn, hsave, haccept, harrive⟩ :=
    h.ack_step hslots hseg hi hremove
  obtain rfl := Outcome.ret.inj (harrive.symm.trans hs)
  have hperm : (w.half ++ w.done).Perm (rest ++ (w.done ++ [i])) := by
    rw [hhalf, List.append_assoc]
    exact List.Perm.append_left rest List.perm_append_comm
  have hnodup := hperm.nodup_iff.mp h.nodup
  have hirest : i ∉ rest := fun hmem => (List.disjoint_of_nodup_append hnodup) hmem
    (List.mem_append_right w.done (List.mem_singleton.mpr rfl))
  have herase : w.half.erase i = rest := by
    rw [hhalf, List.erase_append_right [i] hirest, List.erase_cons_head, List.append_nil]
  have hother : ∀ j k', clientSlot serverAddr addr j = some k' → j ≠ i →
      t.listenState k' = w.server.listenState k' := fun j k' hk' hne =>
    (congrFun hlisten k').trans (update_slot_of_ne hslots hslot hk' hne _ _)
  rw [herase]
  exact
    { bindAddr := hbind.trans h.bindAddr
      nodup := hnodup
      slotted := fun j hj => h.slotted j (hperm.mem_iff.mpr hj)
      untouched := fun j k' hk' hjrest hjdone => by
        obtain ⟨hjdone, hji⟩ := not_or.mp (mt List.mem_append.mpr hjdone)
        have hne : j ≠ i := fun hj => hji (List.mem_singleton.mpr hj)
        refine (hother j k' hk' hne).trans (h.untouched j k' hk' ?_ hjdone)
        rw [hhalf]
        exact fun hmem => (List.mem_append.mp hmem).elim hjrest hji
      halfOpen := fun j hj => by
        obtain ⟨k', hk', hst⟩ := h.halfOpen j (hhalf ▸ List.mem_append_left [i] hj)
        exact ⟨k', hk', (hother j k' hk' fun hji => hirest (hji ▸ hj)).trans hst⟩
      nodes := congrArg SockQueue.nodes hsyn
      size_le := by
        rw [List.length_append, List.length_singleton]
        exact (congrArg SockQueue.size hsyn).le.trans hle
      size_eq := fun halone => by
        rw [if_neg (Bool.eq_false_iff.mp halone)] at hsize
        exact (congrArg SockQueue.size hsyn).trans hsize
      size_gt := fun halone => by
        rw [if_pos halone] at hsize
        exact hsize.trans_eq (congrArg SockQueue.size hsyn).symm
      savedFirst := fun _ hnone => nomatch hnone
      savedLast := fun _ hnone => nomatch hnone
      savedNone := fun _ hne => hsave.trans (hsaved hne)
      acceptSize := by
        rw [List.length_append, List.length_singleton]
        exact congrArg SockQueue.size haccept
      right := by
        have hright := h.right
        unfold Right at hright ⊢
        rw [haccept, List.map_append, List.map_append, hright]
        rfl }

/-- **An ACK that comes in turn** keeps the queue in order. -/
theorem OpenOk.ack (hslots : Function.Injective fun i => addrHash serverAddr (addr i))
    {w w' : Opening ι} (h : OpenOk serverAddr addr w) {i : ι} {pkt : Buf}
    (hturn : ¬ OutOfTurn w (.ack i pkt)) (hs : arrive addr w (.ack i pkt) = .ret w') :
    OpenOk serverAddr addr w' := by
  obtain ⟨hseg, hi⟩ : IsSegment Flag.ack pkt ∧ i ∈ w.half := by
    by_contra hno
    rw [arrive, if_neg hno] at hs
    exact nomatch hs
  obtain ⟨hlast, halone⟩ : w.last = some i ∧ (w.half = [i] ∨ w.alone = false) := by
    by_contra hno
    exact hturn ⟨i, pkt, rfl, hseg, hi, hno⟩
  obtain ⟨rest, hhalf, hsaved⟩ := h.savedLast i hlast
  have hnodes := h.nodes
  rw [hhalf, List.map_append] at hnodes
  have hsize := h.size_ne_zero hi
  have hlen : w.half.length = rest.length + 1 := by
    rw [hhalf, List.length_append, List.length_singleton]
  have hsize_le := h.size_le
  rw [hlen] at hsize_le
  by_cases hrest : rest = []
  · subst hrest
    have hone : w.half = [i] := hhalf
    have hremove := sockqueueRemove_zero hsize hnodes
    rw [← h.savedFirst i hlast hone] at hremove
    refine h.ack_found hslots hseg hhalf hremove ?_ ?_ (fun hne => absurd rfl hne) hs
    · rw [Nat.add_comm w.done.length 1, ← Nat.add_assoc]
      exact hsize_le
    · rw [if_pos (by rw [hone, decide_eq_true rfl, Bool.or_true])]
      exact Nat.pos_of_ne_zero hsize
  · have hmore : w.half ≠ [i] := fun hone => by
      rw [hone] at hlen
      exact hrest (List.length_eq_zero_iff.mp (Nat.succ.inj hlen).symm)
    have hfalse := halone.resolve_left hmore
    have hcount := h.size_eq hfalse
    rw [hlen] at hcount
    have hpos : w.server.savedSyn = rest.length := by
      rw [hsaved hrest, hcount, Nat.cast_succ, add_sub_cancel_right]
    have hremove := sockqueueRemove_last hsize (mt List.map_eq_nil_iff.mp hrest) hnodes
    rw [List.length_map, ← hpos, hcount] at hremove
    refine h.ack_found hslots hseg hhalf hremove (Nat.le_add_right _ _) ?_ (fun _ => hpos) hs
    rw [if_neg (by rw [hfalse, decide_eq_false hmore, Bool.or_false]; decide)]
    rfl

/-- **An ACK that comes out of turn** completes the wrong connection, or none. -/
theorem OpenOk.ack_wrong (hslots : Function.Injective fun i => addrHash serverAddr (addr i))
    {w : Opening ι} (h : OpenOk serverAddr addr w) {e : Arrival ι} (hturn : OutOfTurn w e) :
    ∃ w', arrive addr w e = .ret w' ∧ ¬ Right addr w' := by
  obtain ⟨i, pkt, rfl, hseg, hi, hno⟩ := hturn
  have hsize := h.size_ne_zero hi
  have hnodes : w.server.synQueue.nodes.length = w.half.length := by
    rw [h.nodes, List.length_map]
  have hne : w.server.synQueue.nodes ≠ [] :=
    List.ne_nil_of_length_pos (hnodes ▸ List.length_pos_of_mem hi)
  -- whatever is removed is not `i`'s socket
  obtain ⟨synQueue, removed, st, hremove, hwrong⟩ : ∃ synQueue removed st,
      sockqueueRemove w.server.synQueue w.server.savedSyn = .ret (synQueue, removed, st) ∧
      (removed.getD ⟨none, none⟩).bindAddr ≠ some (addr i) := by
    cases hlast : w.last with
    | none =>
      have hpos := h.savedNone hlast (List.ne_nil_of_mem hi)
      refine ⟨_, _, _, sockqueueRemove_beyond hsize hne ?_, fun hc => nomatch hc⟩
      rw [hnodes, hpos]
    | some j =>
      obtain ⟨rest, hhalf, hsaved⟩ := h.savedLast j hlast
      have hrest : rest ≠ [] := by
        rintro rfl
        rw [hhalf] at hi
        obtain rfl := List.mem_singleton.mp hi
        exact hno ⟨hlast, .inl hhalf⟩
      have hpos := hsaved hrest
      cases halone : w.alone with
      | true =>
        have hgt := h.size_gt halone
        refine ⟨_, _, _, sockqueueRemove_beyond hsize hne ?_, fun hc => nomatch hc⟩
        rw [hnodes, hpos]
        exact Int.le_sub_one_of_lt (Int.ofNat_lt.mpr hgt)
      | false =>
        have hji : j ≠ i := fun hji => hno ⟨hji ▸ hlast, .inr halone⟩
        have hcount := h.size_eq halone
        rw [hhalf, List.length_append, List.length_singleton] at hcount
        have hlastNode := h.nodes
        rw [hhalf, List.map_append] at hlastNode
        have hremove := sockqueueRemove_last hsize (mt List.map_eq_nil_iff.mp hrest) hlastNode
        have hindex : w.server.savedSyn = rest.length := by
          rw [hpos, hcount, Nat.cast_succ, add_sub_cancel_right]
        rw [List.length_map, ← hindex] at hremove
        refine ⟨_, _, _, hremove, fun hc => hji (hslots ?_)⟩
        exact congrArg (addrHash serverAddr) (Option.some.inj hc)
  obtain ⟨t, k, -, -, -, -, -, haccept, harrive⟩ := h.ack_step hslots hseg hi hremove
  refine ⟨_, harrive, fun hright => hwrong ?_⟩
  have hbefore := h.right
  unfold Right at hbefore hright
  rw [haccept, List.map_append, List.map_append, hbefore] at hright
  exact (List.cons.inj (List.append_cancel_left hright)).1

/-! ## Whole runs -/

/-- **The right connections are in `accept_queue` throughout a run exactly when every ACK comes in
turn**: directly after its own client's SYN, and — unless its client is the only one half-open —
before any handshake has been completed alone. -/
theorem right_iff (hslots : Function.Injective fun i => addrHash serverAddr (addr i))
    {w : Opening ι} (h : OpeningStart serverAddr w) (es : List (Arrival ι)) :
    Along (arrive addr) (Right addr) w es ↔
      EveryStep (arrive addr) (fun w e => ¬ OutOfTurn w e) w es := by
  refine along_iff_everyStep (fun _ hw => hw.right) ?_ ?_ (openOk_start h) es
  · intro w e w' hw hturn hs
    cases e with
    | syn i pkt => exact hw.syn hslots hs
    | ack i pkt => exact hw.ack hslots hturn hs
  · intro w e hw hturn
    exact hw.ack_wrong hslots (not_not.mp hturn)

/-- A server in zeroed memory, before any client. -/
def zeroedOpening : Opening Bool :=
  ⟨tcpListen (tcpBind (tcpSocket default) sampleServer), [], [], none, false⟩

theorem openingStart_zeroedOpening : OpeningStart sampleServer zeroedOpening := ⟨default, rfl⟩

/-- Two handshakes, one after the other, are in turn. -/
theorem right_iff_two : Along (arrive sampleClient) (Right sampleClient) zeroedOpening
    [.syn false (sampleSegment Flag.syn 0 false), .ack false (sampleSegment Flag.ack 0 false),
      .syn true (sampleSegment Flag.syn 0 true), .ack true (sampleSegment Flag.ack 0 true)] :=
  (right_iff sampleClient_slots openingStart_zeroedOpening _).mpr (by decide)

/-- **Two handshakes interleaved**: the first client's ACK puts the second one's connection into
`accept_queue`. -/
theorem right_fails_interleaved : ∃ w, run (arrive sampleClient) zeroedOpening
    [.syn false (sampleSegment Flag.syn 0 false), .syn true (sampleSegment Flag.syn 0 true),
      .ack false (sampleSegment Flag.ack 0 false)] = .ret w ∧ w.done = [false] ∧
    w.server.acceptQueue.nodes.map (fun c => c.bindAddr) = [some (sampleClient true)] ∧
    ¬ Right sampleClient w := by
  have hrun : (run (arrive sampleClient) zeroedOpening
      [.syn false (sampleSegment Flag.syn 0 false), .syn true (sampleSegment Flag.syn 0 true),
        .ack false (sampleSegment Flag.ack 0 false)] >>= fun w =>
        .ret (w.done, w.server.acceptQueue.nodes.map fun c => c.bindAddr)) =
      .ret ([false], [some (sampleClient true)]) := by decide
  obtain ⟨w, hw, hret⟩ := Outcome.bind_eq_ret.mp hrun
  obtain ⟨hdone, haccept⟩ := Prod.mk.inj (Outcome.ret.inj hret)
  refine ⟨w, hw, hdone, haccept, fun hright => ?_⟩
  rw [Right, haccept, hdone] at hright
  exact absurd hright (by decide)

end TrivalTcp
