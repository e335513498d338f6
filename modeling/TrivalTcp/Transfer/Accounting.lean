import TrivalTcp.Transfer.Transfer

/-!
# Transfer/Accounting — what is appended, and what it counts for

`tju_handle_packet` advances `expect_seq` by `plen - hlen` and appends `plen - 22` bytes, and the
branch for ACKs reaches the second without the first, and without a look at the sequence number.
`countsAppended_iff` says which packets the two computations agree on.
-/

namespace TrivalTcp

/-- What processing the packet appends is counted by `expect_seq`, and starts where that stood. -/
def CountsAppended (s : TjuTcp) (pkt : Buf) : Prop :=
  ∀ t packets, tjuHandlePacket s pkt = .ret (t, packets) → ∃ bytes,
    t.receivedBuf = s.receivedBuf ++ bytes ∧ t.expectSeq = s.expectSeq + .ofNat bytes.length ∧
      (bytes ≠ [] → getSeq pkt = s.expectSeq)

/-- An ACK that carries data behind its header, or data in order whose header claims another length
than 22. -/
def Miscounted (s : TjuTcp) (pkt : Buf) : Prop :=
  (getFlags pkt = Flag.ack ∧ getHlen pkt < getPlen pkt ∧ headerLen < pkt.length) ∨
    (getFlags pkt ≠ Flag.head ∧ getFlags pkt ≠ Flag.backhead ∧ getFlags pkt ≠ Flag.ack ∧
      getSeq pkt = s.expectSeq ∧ (getHlen pkt).toNat ≠ headerLen)

instance (s : TjuTcp) (pkt : Buf) : Decidable (Miscounted s pkt) :=
  inferInstanceAs (Decidable (_ ∨ _))

section Branches

variable {s u : TjuTcp} {pkt : Buf} {packets : List Buf}

/-- A packet nothing is appended of. -/
theorem countsAppended_quiet (h : tjuHandlePacket s pkt = .ret (u, packets))
    (hbuf : u.receivedBuf = s.receivedBuf) (hseq : u.expectSeq = s.expectSeq) :
    CountsAppended s pkt := by
  intro t packets' hret
  obtain ⟨rfl, -⟩ := Prod.mk.inj (Outcome.ret.inj (h.symm.trans hret))
  refine ⟨[], hbuf.trans (List.append_nil _).symm, ?_, fun hne => absurd rfl hne⟩
  rw [hseq]
  exact (UInt32.add_zero _).symm

/-- A packet whose payload is appended. -/
theorem countsAppended_append (h : tjuHandlePacket s pkt = .ret (u, packets))
    (hbuf : u.receivedBuf = s.receivedBuf ++ payload pkt) : CountsAppended s pkt ↔
      u.expectSeq = s.expectSeq + .ofNat (payload pkt).length ∧
        (payload pkt ≠ [] → getSeq pkt = s.expectSeq) := by
  constructor
  · intro hacc
    obtain ⟨bytes, hbytes, hcount⟩ := hacc u packets h
    obtain rfl := List.append_cancel_left (hbuf.symm.trans hbytes)
    exact hcount
  · intro hcount t packets' hret
    obtain ⟨rfl, -⟩ := Prod.mk.inj (Outcome.ret.inj (h.symm.trans hret))
    exact ⟨payload pkt, hbuf, hcount⟩

end Branches

section Lengths

variable {pkt : Buf} (hlen : headerLen ≤ pkt.length) (hplen : (getPlen pkt).toNat = pkt.length)

include hlen hplen

/-- Leaving `expect_seq` alone counts for a payload that is empty. -/
theorem add_payload_eq_self_iff (e : UInt32) :
    e = e + .ofNat (payload pkt).length ↔ ¬ headerLen < pkt.length := by
  have hlt := (getPlen pkt).toNat_lt
  have hpayload : (payload pkt).length = pkt.length - headerLen := List.length_drop
  rw [← UInt32.toNat_inj, UInt32.toNat_add, UInt32.toNat_ofNat', hpayload]
  have he := e.toNat_lt
  rw [headerLen] at hlen ⊢
  omega

/-- `plen - hlen` counts for `plen - 22` just where `hlen` is 22. -/
theorem add_plen_sub_hlen_iff (e : UInt32) :
    e + ((getPlen pkt).toUInt32 - (getHlen pkt).toUInt32) = e + .ofNat (payload pkt).length ↔
      (getHlen pkt).toNat = headerLen := by
  have hlt := (getPlen pkt).toNat_lt
  have hhlt := (getHlen pkt).toNat_lt
  have hpayload : (payload pkt).length = pkt.length - headerLen := List.length_drop
  rw [UInt32.add_right_inj, ← UInt32.toNat_inj, UInt32.toNat_sub, UInt32.toNat_ofNat', hpayload,
    UInt16.toNat_toUInt32, UInt16.toNat_toUInt32]
  rw [headerLen] at hlen ⊢
  omega

end Lengths

/-! ## The branches -/

section Packet

variable {pkt : Buf} (s : TjuTcp) (hlen : headerLen ≤ pkt.length)

include hlen

/-- A window probe or its answer. -/
theorem tjuHandlePacket_probe (h : getFlags pkt = Flag.head ∨ getFlags pkt = Flag.backhead) :
    ∃ packets, tjuHandlePacket s pkt = .ret (s.setRwnd (getAdvertisedWindow pkt), packets) := by
  rw [tjuHandlePacket, if_neg (Nat.not_lt.mpr hlen)]
  rcases h with hhead | hback
  · exact ⟨_, if_pos hhead⟩
  · exact ⟨_, (if_neg (hback ▸ by decide)).trans (if_pos hback)⟩

/-- An ACK, with whatever stands behind its header. -/
theorem tjuHandlePacket_onAck (h : getFlags pkt = Flag.ack) : ∃ u,
    u.receivedBuf = s.receivedBuf ∧ u.expectSeq = s.expectSeq ∧ tjuHandlePacket s pkt =
      if getPlen pkt < getHlen pkt then .exit
      else if getPlen pkt = getHlen pkt then .ret (u, [])
      else appendReceived u pkt [] := by
  obtain ⟨_, _, hsucc⟩ := handleSuccessAck_eq (s.setRwnd (getAdvertisedWindow pkt))
  obtain ⟨_, _, htimer⟩ :=
    ackTimer_eq ((handleSuccessAck (s.setRwnd (getAdvertisedWindow pkt))).setBase (getSeq pkt))
  refine ⟨ackTimer ((handleSuccessAck (s.setRwnd (getAdvertisedWindow pkt))).setBase (getSeq pkt)),
    ?_, ?_, ?_⟩
  · rw [htimer, hsucc]
    rfl
  · rw [htimer, hsucc]
    rfl
  · rw [tjuHandlePacket, if_neg (Nat.not_lt.mpr hlen)]
    exact (if_neg (h ▸ by decide)).trans ((if_neg (h ▸ by decide)).trans (if_pos h))

/-- Anything else is data. -/
theorem tjuHandlePacket_onData (hhead : getFlags pkt ≠ Flag.head)
    (hback : getFlags pkt ≠ Flag.backhead) (hack : getFlags pkt ≠ Flag.ack) : ∃ r,
    r = s.setRwnd (getAdvertisedWindow pkt) ∧ tjuHandlePacket s pkt =
      if getSeq pkt = s.expectSeq then
        appendReceived
          (r.setExpectSeq (s.expectSeq + ((getPlen pkt).toUInt32 - (getHlen pkt).toUInt32))) pkt
          [tcpSendAck
            (r.setExpectSeq (s.expectSeq + ((getPlen pkt).toUInt32 - (getHlen pkt).toUInt32)))]
      else .ret (r, if getSeq pkt > s.expectSeq then [] else [tcpSendAck r]) := by
  refine ⟨_, rfl, ?_⟩
  rw [tjuHandlePacket, if_neg (Nat.not_lt.mpr hlen)]
  refine (if_neg hhead).trans ((if_neg hback).trans ((if_neg hack).trans ?_))
  by_cases hseq : getSeq pkt = s.expectSeq
  · have hgt : ¬ getSeq pkt > s.expectSeq := fun hgt => UInt32.ne_of_lt hgt hseq.symm
    rw [if_pos hseq]
    exact (if_neg hgt).trans (if_pos hseq)
  · rw [if_neg hseq]
    by_cases hgt : getSeq pkt > s.expectSeq
    · rw [if_pos hgt]
      exact if_pos hgt
    · rw [if_neg hgt]
      exact (if_neg hgt).trans (if_neg hseq)

variable (hplen : (getPlen pkt).toNat = pkt.length)

include hplen

theorem countsAppended_onAck (h : getFlags pkt = Flag.ack) :
    CountsAppended s pkt ↔ ¬ (getHlen pkt < getPlen pkt ∧ headerLen < pkt.length) := by
  obtain ⟨u, hbuf, hseq, hret⟩ := tjuHandlePacket_onAck s hlen h
  by_cases hless : getHlen pkt < getPlen pkt
  · rw [if_neg (UInt16.not_lt.mpr (UInt16.le_of_lt hless)), if_neg (UInt16.ne_of_lt hless).symm,
      appendReceived_eq hlen hplen] at hret
    have hbuf' : (u.setReceivedBuf (u.receivedBuf ++ payload pkt)).receivedBuf =
        s.receivedBuf ++ payload pkt := congrArg (· ++ payload pkt) hbuf
    have hkeep : u.expectSeq = s.expectSeq + .ofNat (payload pkt).length ↔
        ¬ headerLen < pkt.length := by
      rw [hseq]
      exact add_payload_eq_self_iff hlen hplen s.expectSeq
    rw [countsAppended_append hret hbuf']
    constructor
    · rintro ⟨hcount, -⟩ ⟨-, hlong⟩
      exact hkeep.mp hcount hlong
    · intro hshort
      have hnil : ¬ headerLen < pkt.length := fun hlong => hshort ⟨hless, hlong⟩
      have hempty : payload pkt = [] := List.drop_eq_nil_of_le (Nat.not_lt.mp hnil)
      exact ⟨hkeep.mpr hnil, fun hne => absurd hempty hne⟩
  · refine ⟨fun _ hmis => hless hmis.1, fun _ => ?_⟩
    by_cases hlt : getPlen pkt < getHlen pkt
    · rw [if_pos hlt] at hret
      intro t packets hexit
      rw [hret] at hexit
      contradiction
    · have heq : getPlen pkt = getHlen pkt :=
        UInt16.le_antisymm (UInt16.not_lt.mp hless) (UInt16.not_lt.mp hlt)
      rw [if_neg hlt, if_pos heq] at hret
      exact countsAppended_quiet hret hbuf hseq

theorem countsAppended_onData (hhead : getFlags pkt ≠ Flag.head)
    (hback : getFlags pkt ≠ Flag.backhead) (hack : getFlags pkt ≠ Flag.ack) :
    CountsAppended s pkt ↔ ¬ (getSeq pkt = s.expectSeq ∧ (getHlen pkt).toNat ≠ headerLen) := by
  obtain ⟨r, hr, hret⟩ := tjuHandlePacket_onData s hlen hhead hback hack
  by_cases hseq : getSeq pkt = s.expectSeq
  · rw [if_pos hseq, appendReceived_eq hlen hplen] at hret
    have hadvance := add_plen_sub_hlen_iff hlen hplen s.expectSeq
    rw [countsAppended_append hret (by rw [hr]; rfl)]
    constructor
    · rintro ⟨hcount, -⟩ ⟨-, hne⟩
      exact hne (hadvance.mp hcount)
    · intro hmis
      have hhlen : (getHlen pkt).toNat = headerLen := by
        by_contra hne
        exact hmis ⟨hseq, hne⟩
      exact ⟨hadvance.mpr hhlen, fun _ => hseq⟩
  · rw [if_neg hseq] at hret
    refine ⟨fun _ hmis => hseq hmis.1, fun _ => ?_⟩
    exact countsAppended_quiet hret (by rw [hr]; rfl) (by rw [hr]; rfl)

end Packet

/-- **Exactly when what is appended is what is counted.**  Of every packet as long as its `plen`
says, whatever the socket, what `tju_handle_packet` appends is counted by `expect_seq` and in order
**if and only if** the packet is neither an ACK with data nor data in order behind a header of
another length. -/
theorem countsAppended_iff (s : TjuTcp) {pkt : Buf} (hlen : headerLen ≤ pkt.length)
    (hplen : (getPlen pkt).toNat = pkt.length) : CountsAppended s pkt ↔ ¬ Miscounted s pkt := by
  rw [Miscounted]
  by_cases hprobe : getFlags pkt = Flag.head ∨ getFlags pkt = Flag.backhead
  · obtain ⟨packets, hret⟩ := tjuHandlePacket_probe s hlen hprobe
    have hack : getFlags pkt ≠ Flag.ack := by
      rcases hprobe with h | h
      · exact h ▸ by decide
      · exact h ▸ by decide
    refine ⟨fun _ hmis => ?_, fun _ => countsAppended_quiet hret rfl rfl⟩
    rcases hmis with ⟨h, -⟩ | ⟨hhead, hback, -⟩
    · exact hack h
    · exact hprobe.elim hhead hback
  obtain ⟨hhead, hback⟩ := not_or.mp hprobe
  by_cases hack : getFlags pkt = Flag.ack
  · rw [countsAppended_onAck s hlen hplen hack]
    refine not_congr ⟨fun hmis => .inl ⟨hack, hmis⟩, ?_⟩
    rintro (⟨-, hmis⟩ | ⟨-, -, hne, -⟩)
    · exact hmis
    · exact absurd hack hne
  · rw [countsAppended_onData s hlen hplen hhead hback hack]
    refine not_congr ⟨fun hmis => .inr ⟨hhead, hback, hack, hmis⟩, ?_⟩
    rintro (⟨h, -⟩ | ⟨-, -, -, hmis⟩)
    · exact absurd h hack
    · exact hmis

/-- A packet of data in order, as the program builds it. -/
theorem countsAppended_iff_data :
    CountsAppended (tcpSocket default) (dataPkt (tcpSocket default) 0 100 [1, 2, 3]) :=
  (countsAppended_iff _ (by decide) (by decide)).mpr (by decide)

/-- An ACK whose sequence number is 7 and that carries three bytes. -/
def ackWithData : Buf := createPacketBuf 5678 1234 7 7 22 25 Flag.ack 100 0 [1, 2, 3]

/-- **Bytes that are not counted**: its checksum is right, it is out of order, and its three bytes
are appended while `expect_seq` stays 0. -/
theorem countsAppended_fails_ack : headerLen ≤ ackWithData.length ∧
    (getPlen ackWithData).toNat = ackWithData.length ∧ tcpCheck (bufToPacket ackWithData) = true ∧
    ¬ CountsAppended { tcpSocket default with state := .established } ackWithData := by
  refine ⟨by decide, by decide, by decide, fun h => ?_⟩
  have hrun : (tjuHandlePacket { tcpSocket default with state := .established } ackWithData >>=
      fun r => .ret (r.1.receivedBuf, r.1.expectSeq)) = .ret ([1, 2, 3], 0) := by decide
  obtain ⟨⟨t, packets⟩, hret, heq⟩ := Outcome.bind_eq_ret.mp hrun
  obtain ⟨hbuf, -⟩ := Prod.mk.inj (Outcome.ret.inj heq)
  obtain ⟨bytes, happend, -, horder⟩ := h t packets hret
  have hbytes : [1, 2, 3] = bytes := hbuf.symm.trans happend
  exact absurd (horder (hbytes ▸ List.cons_ne_nil _ _)) (by decide)

end TrivalTcp
