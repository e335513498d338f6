import TrivalTcp.Transfer.Chunk

/-!
# Transfer/Advertised — the window an end advertises

`tcp_send_ack`, `back_only_header` and `tcp_send_stream` all advertise `advWnd`, the difference
between `TCP_RECV_BUFFER_SIZE` and what is waiting to be read, cut to 16 bits.  Nothing keeps
`received_buf` from growing beyond that size, and then the difference is negative.  `truthful_iff`
says which fills of the buffer an end tells the truth about, and so which runs.
-/

namespace TrivalTcp

/-- The room there is in the receive buffer, none if it is overfull. -/
def freeSpace (s : TjuTcp) : ℕ := tcpRecvBufferSize - s.receivedBuf.length

/-- Every packet the end could build now advertises the room it has.  A data packet so long that
`plen` has come out too small for a header says nothing. -/
structure Truthful (s : TjuTcp) : Prop where
  ack : (getAdvertisedWindow (tcpSendAck s)).toNat = freeSpace s
  backhead : (getAdvertisedWindow (backOnlyHeader s)).toNat = freeSpace s
  data : ∀ r, tcpSendStream s = .ret r → ∀ pkt ∈ r.packets, headerLen ≤ pkt.length →
    (getAdvertisedWindow pkt).toNat = freeSpace s

/-! ## What a packet advertises -/

theorem getAdvertisedWindow_controlPkt (s : TjuTcp) (seq ack : UInt32) (flags : UInt8)
    (adv : UInt16) : getAdvertisedWindow (controlPkt s seq ack flags adv) = adv :=
  getAdvertisedWindow_createPacketBuf _ _ seq ack flags adv 0 rfl (Nat.le_refl headerLen)
    (controlPkt_built s seq ack flags adv).sized.header_le

theorem getAdvertisedWindow_dataPkt (s : TjuTcp) (seq : UInt32) (adv : UInt16) (buf : Buf)
    (h : headerLen ≤ (dataPkt s seq adv buf).length) :
    getAdvertisedWindow (dataPkt s seq adv buf) = adv := by
  refine getAdvertisedWindow_createPacketBuf _ _ seq 0 Flag.noFlag adv 0 rfl ?_ h
  rw [UInt16.toNat_ofNat']
  exact Nat.mod_le _ _

/-- The three functions advertise the same. -/
theorem truthful_iff_advWnd (s : TjuTcp) : Truthful s ↔ (advWnd s).toNat = freeSpace s := by
  constructor
  · intro h
    rw [← h.ack, tcpSendAck, getAdvertisedWindow_controlPkt]
  · intro h
    refine ⟨?_, ?_, fun r hs pkt hmem hlong => ?_⟩
    · rw [tcpSendAck, getAdvertisedWindow_controlPkt, h]
    · rw [backOnlyHeader, getAdvertisedWindow_controlPkt, h]
    · rcases tcpSendStream_cases hs with ⟨-, rfl⟩ | ⟨-, -, hchunk⟩
      · exact absurd hmem List.not_mem_nil
      · rcases sendChunk_cases hchunk with ⟨-, rfl⟩ | ⟨-, -, t, msg, rfl, rfl, rfl⟩
        · exact absurd hmem List.not_mem_nil
        · obtain rfl := List.mem_singleton.mp hmem
          rw [getAdvertisedWindow_dataPkt _ _ _ _ hlong]
          exact h

/-! ## Which fills are told -/

/-- The unchecked difference comes out right: the buffer is not overfull, or so far that the 16 bits
are all zero. -/
def Advertisable (n : ℕ) : Prop := n ≤ tcpRecvBufferSize ∨ n % 65536 = tcpRecvBufferSize

instance (n : ℕ) : Decidable (Advertisable n) := inferInstanceAs (Decidable (_ ∨ _))

/-- **An end tells the truth about just these fills.** -/
theorem truthful_iff_advertisable (s : TjuTcp) :
    Truthful s ↔ Advertisable s.receivedBuf.length := by
  rw [truthful_iff_advWnd, advWnd, freeSpace, Advertisable, UInt16.toNat_ofNat', tcpRecvBufferSize]
  omega

/-! ## Runs -/

/-- Data arrives in order, the application sends and receives, and the sender thread iterates. -/
def ArrivesInOrder (a : EndState) : EndEvent → Prop
  | .packet pkt => Sized pkt ∧ getFlags pkt = Flag.noFlag ∧ getSeq pkt = a.sock.expectSeq
  | .call .timeout => False
  | .call _ => True

instance (a : EndState) : ∀ e, Decidable (ArrivesInOrder a e)
  | .packet _ => inferInstanceAs (Decidable (_ ∧ _ ∧ _))
  | .call .timeout => isFalse id
  | .call (.send _) | .call .stream | .call (.recv _) => isTrue trivial

/-- What waits to be read once the step has been taken. -/
def fillAfter (a : EndState) : EndEvent → ℕ
  | .packet pkt => a.sock.receivedBuf.length + (payload pkt).length
  | .call (.recv len) => a.sock.receivedBuf.length - len
  | .call _ => a.sock.receivedBuf.length

section Step

variable {a a' : EndState}

theorem receivedBuf_tcpSendStream {s : TjuTcp} {r : Sent} (hs : tcpSendStream s = .ret r) :
    r.sock.receivedBuf = s.receivedBuf := by
  obtain ⟨_, _, _, -, -, hsock⟩ := tcpSendStream_frame hs
  rw [hsock]
  rfl

theorem length_tcpRecv {s t : TjuTcp} {len : ℕ} {bytes : Buf}
    (h : tcpRecv s len = .ret (t, bytes)) :
    t.receivedBuf.length = s.receivedBuf.length - len := by
  dsimp only [tcpRecv] at h
  generalize hn : (if s.receivedBuf.length ≥ len then len else s.receivedBuf.length) = n at h
  split_ifs at h
  obtain ⟨rfl, -⟩ := Prod.mk.inj (Outcome.ret.inj h)
  refine List.length_drop.trans ?_
  split_ifs at hn <;> omega

/-- **A step fills the buffer with what has arrived, and no more.** -/
theorem fill_endStep {e : EndEvent} (he : ArrivesInOrder a e) (hs : endStep a e = .ret a') :
    a'.sock.receivedBuf.length = fillAfter a e := by
  cases e with
  | packet pkt =>
    obtain ⟨hsized, hdata, hseq⟩ := he
    rw [endStep, packetStep_eq hsized] at hs
    obtain rfl := Outcome.ret.inj hs
    obtain ⟨r, rfl, ⟨hahead, -⟩ | ⟨-, u, rfl, hhandled⟩ | ⟨hne, -⟩⟩ := handled_data a.sock hdata
    · exact absurd hseq.symm (UInt32.ne_of_lt hahead)
    · rw [hhandled]
      exact List.length_append
    · exact absurd hseq hne
  | call c =>
    cases c with
    | send buffer =>
      rcases callStep_send_eq_ret hs with rfl | rfl
      · rfl
      · rfl
    | stream =>
      obtain ⟨r, hstream, rfl⟩ := callStep_stream_eq_ret hs
      exact congrArg List.length (receivedBuf_tcpSendStream hstream)
    | timeout => exact he.elim
    | recv len =>
      obtain ⟨⟨t, bytes⟩, hrecv, hret⟩ := Outcome.bind_eq_ret.mp hs
      obtain rfl := Outcome.ret.inj hret
      exact length_tcpRecv hrecv

/-- A step that changes the fill to one that is not told returns. -/
theorem endStep_returns {e : EndEvent} (h : Advertisable a.sock.receivedBuf.length)
    (he : ArrivesInOrder a e) (hfill : ¬ Advertisable (fillAfter a e)) :
    ∃ a', endStep a e = .ret a' := by
  cases e with
  | packet pkt => exact ⟨_, packetStep_eq he.1 a⟩
  | call c =>
    cases c with
    | send buffer | stream => exact absurd h hfill
    | timeout => exact he.elim
    | recv len =>
      have hne : ¬ a.sock.receivedBuf.length = 0 := by
        intro hzero
        rw [fillAfter, hzero, Nat.zero_sub] at hfill
        exact hfill (by decide)
      rw [endStep, callStep, tcpRecv, if_neg hne]
      exact ⟨_, rfl⟩

end Step

/-- **Exactly when an end tells the truth about its room.**  Along every run in which data arrives
in order, every packet the end could build in any of the states advertises its free space **if and
only if** no step leaves more than `TCP_RECV_BUFFER_SIZE` bytes waiting — or a multiple of 65536
more. -/
theorem truthful_iff {s : TjuTcp} (h : s.receivedBuf = []) {es : List EndEvent}
    (hes : EveryStep endStep ArrivesInOrder (.start s) es) :
    Along endStep (fun a => Truthful a.sock) (.start s) es ↔
      EveryStep endStep (fun a e => Advertisable (fillAfter a e)) (.start s) es := by
  have hstart : Advertisable (EndState.start s).sock.receivedBuf.length :=
    .inl (h ▸ Nat.zero_le _)
  refine along_iff_everyStep_of (I := fun a => Advertisable a.sock.receivedBuf.length)
    (fun a => (truthful_iff_advertisable a.sock).mpr) ?_ ?_ hstart hes
  · intro a e a' _ he hfill hs
    rw [fill_endStep he hs]
    exact hfill
  · intro a e hI he hfill
    obtain ⟨a', hs⟩ := endStep_returns hI he hfill
    refine ⟨a', hs, fun htrue => hfill ?_⟩
    rw [← fill_endStep he hs]
    exact (truthful_iff_advertisable _).mp htrue

/-- A run that fills the buffer to its last byte. -/
theorem truthful_iff_full : Along endStep (fun a => Truthful a.sock) (.start zeroedSock)
    [.packet (dataPkt zeroedSock 0 0 (.replicate 100 0))] :=
  (truthful_iff rfl (by decide +kernel)).mpr (by decide +kernel)

/-- **A window that is not there**: 101 bytes have arrived, and the end advertises 65535. -/
theorem truthful_fails_overfull :
    EveryStep endStep ArrivesInOrder (.start zeroedSock)
      [.packet (dataPkt zeroedSock 0 0 (.replicate 101 0))] ∧
    ¬ Along endStep (fun a => Truthful a.sock) (.start zeroedSock)
      [.packet (dataPkt zeroedSock 0 0 (.replicate 101 0))] := by
  refine ⟨by decide +kernel, fun h => ?_⟩
  have hrun : (run endStep (.start zeroedSock)
      [.packet (dataPkt zeroedSock 0 0 (.replicate 101 0))] >>= fun a =>
      .ret (a.sock.receivedBuf.length, getAdvertisedWindow (tcpSendAck a.sock))) =
      .ret (101, 65535) := by decide +kernel
  obtain ⟨a, ha, hret⟩ := Outcome.bind_eq_ret.mp hrun
  obtain ⟨hlen, hadv⟩ := Prod.mk.inj (Outcome.ret.inj hret)
  have hack := (h.last ha).ack
  rw [hadv, freeSpace, hlen] at hack
  exact absurd hack (by decide)

end TrivalTcp
