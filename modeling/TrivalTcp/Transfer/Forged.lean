import TrivalTcp.Transfer.Delivery

/-!
# Transfer/Forged — packets nobody has sent

A network that loses, repeats and reorders packets may also make some up.  A `Hollow` packet has no
data: an established socket can answer it, and can take `base` and `rwnd` from it, whatever numbers
stand there.  `forged_delivery` says that hollow packets harm no byte.  After them a sender may
believe anything about what has been acknowledged, and the stream its peer reads is still its own.
-/

namespace TrivalTcp

open CumulativeAck

/-! ## Packets without data -/

/-- **A packet that can bring no byte**: it is a HEAD or a BACKHEAD, which are not read any further,
or its two lengths are that of a header. -/
def Hollow (pkt : Buf) : Prop :=
  getFlags pkt = Flag.head ∨ getFlags pkt = Flag.backhead ∨
    (getHlen pkt).toNat = headerLen ∧ (getPlen pkt).toNat = headerLen

instance (pkt : Buf) : Decidable (Hollow pkt) := inferInstanceAs (Decidable (_ ∨ _ ∨ _ ∧ _))

/-- A packet whose lengths are right and that has nothing behind its header. -/
theorem Sized.hollow {pkt : Buf} (h : Sized pkt) (hnil : payload pkt = []) : Hollow pkt := by
  refine .inr (.inr ⟨h.hlen, ?_⟩)
  rw [h.length_payload, hnil]
  rfl

/-- Where `plen` is the length of a header, nothing is appended. -/
theorem appendReceived_nil {pkt : Buf} (hlen : headerLen ≤ pkt.length)
    (hplen : (getPlen pkt).toNat = headerLen) (s : TjuTcp) (packets : List Buf) :
    appendReceived s pkt packets = .ret (s, packets) := by
  have hdata : ((getPlen pkt).toUInt32 - .ofNat headerLen).toNat = 0 := by
    have hle : UInt32.ofNat headerLen ≤ (getPlen pkt).toUInt32 := by
      rw [UInt32.le_iff_toNat_le, UInt16.toNat_toUInt32, hplen]
      decide
    rw [UInt32.toNat_sub_of_le _ _ hle, UInt16.toNat_toUInt32, hplen]
    decide
  have hsub : s.receivedBuf ++ Bytes.sub pkt headerLen 0 = s.receivedBuf := List.append_nil _
  dsimp only [appendReceived]
  rw [hdata, hsub, Nat.add_zero, if_neg (Nat.not_lt.mpr hlen)]
  rfl

/-- **What a packet without data does**: it sets `rwnd`, and it sets `base` or is answered or
neither. -/
theorem tjuHandlePacket_hollow {s t : TjuTcp} {pkt : Buf} {packets : List Buf} (hpkt : Hollow pkt)
    (h : tjuHandlePacket s pkt = .ret (t, packets)) :
    ∃ r, r = s.setRwnd (getAdvertisedWindow pkt) ∧
      ((t = r ∧ (packets = [] ∨ packets = [backOnlyHeader r] ∨ packets = [tcpSendAck r])) ∨
      (t = ackTimer ((handleSuccessAck r).setBase (getSeq pkt)) ∧ packets = [])) := by
  refine ⟨_, rfl, ?_⟩
  dsimp only [tjuHandlePacket] at h
  generalize s.setRwnd (getAdvertisedWindow pkt) = r at h ⊢
  by_cases hlen : pkt.length < headerLen
  · rw [if_pos hlen] at h
    contradiction
  rw [if_neg hlen] at h
  by_cases hhead : getFlags pkt = Flag.head
  · rw [if_pos hhead] at h
    obtain ⟨rfl, rfl⟩ := Prod.mk.inj (Outcome.ret.inj h)
    exact .inl ⟨rfl, .inr (.inl rfl)⟩
  rw [if_neg hhead] at h
  by_cases hback : getFlags pkt = Flag.backhead
  · rw [if_pos hback] at h
    obtain ⟨rfl, rfl⟩ := Prod.mk.inj (Outcome.ret.inj h)
    exact .inl ⟨rfl, .inl rfl⟩
  rw [if_neg hback] at h
  obtain ⟨hh, hp⟩ := (hpkt.resolve_left hhead).resolve_left hback
  have hsame : getPlen pkt = getHlen pkt := UInt16.toNat_inj.mp (hp.trans hh.symm)
  have hzero : (getPlen pkt).toUInt32 - (getHlen pkt).toUInt32 = 0 := by
    rw [hsame, UInt32.sub_self]
  have hself : r.setExpectSeq (r.expectSeq + 0) = r := by rw [UInt32.add_zero]; rfl
  simp only [hzero, hself, appendReceived_nil (Nat.not_lt.mp hlen) hp] at h
  by_cases hack : getFlags pkt = Flag.ack
  · rw [if_pos hack, if_neg (hsame ▸ UInt16.lt_irrefl _), if_pos hsame] at h
    obtain ⟨rfl, rfl⟩ := Prod.mk.inj (Outcome.ret.inj h)
    exact .inr ⟨rfl, rfl⟩
  · rw [if_neg hack] at h
    split_ifs at h
    · obtain ⟨rfl, rfl⟩ := Prod.mk.inj (Outcome.ret.inj h)
      exact .inl ⟨rfl, .inl rfl⟩
    · obtain ⟨rfl, rfl⟩ := Prod.mk.inj (Outcome.ret.inj h)
      exact .inl ⟨rfl, .inr (.inr rfl)⟩
    · obtain ⟨rfl, rfl⟩ := Prod.mk.inj (Outcome.ret.inj h)
      exact .inl ⟨rfl, .inr (.inr rfl)⟩

/-! ## A network that makes packets up -/

/-- What can happen on a link that is not only unreliable. -/
inductive ForgedEvent where
  | link (e : LinkEvent)
  /-- An end is given a packet without data that nobody has sent. -/
  | forge (x : Side) (pkt : Buf)

def forgedStep (l : Link) : ForgedEvent → Outcome Link
  | .link e => linkStep l e
  | .forge x pkt =>
    if Hollow pkt then packetStep (l x) pkt >>= fun a => .ret (Function.update l x a) else .blocked

/-- The same after an acknowledgement has been made up. -/
theorem Simulates.forge {l : Link} {f : Side → Flow UInt8} (h : Simulates l f) (x : Side) (n : ℕ) :
    ∃ f', ForgeStep (f x) (f' x) ∧ n ∈ (f' x).acks ∧ (∀ y, y ≠ x → f' y = f y) ∧
      Simulates l f' := by
  obtain ⟨f', hf'⟩ : ∃ f', f' = Function.update f x { f x with acks := insert n (f x).acks } :=
    ⟨_, rfl⟩
  have hself : f' x = { f x with acks := insert n (f x).acks } := by
    rw [hf', Function.update_self]
  have hothers : ∀ y, y ≠ x → f' y = f y := fun y hy => by rw [hf', Function.update_of_ne hy]
  refine ⟨f', hself ▸ .forge (f x) n, hself ▸ Set.mem_insert _ _, hothers, fun y => ?_⟩
  rcases x.eq_or_other y with rfl | rfl
  · rw [hself, hothers _ y.other_ne]
    exact (h y).mono rfl rfl subset_rfl rfl subset_rfl
  · rw [Side.other_other, hself, hothers _ x.other_ne]
    exact (h.peer x).mono rfl rfl subset_rfl rfl (Set.subset_insert _ _)

/-- **What an end does with a packet without data**, once the network has made its number up. -/
theorem packetStep_hollow {a a' : EndState} {fout fin : Flow UInt8} (h : EndOk a fout fin)
    {pkt : Buf} (hpkt : Hollow pkt) (hseq : (getSeq pkt).toNat ∈ fout.acks)
    (hs : packetStep a pkt = .ret a') : Reaches a' fout fin := by
  obtain ⟨s, packets, hhandle, rfl⟩ := packetStep_eq_ret hs
  obtain ⟨r, hr, ⟨rfl, hsent⟩ | ⟨rfl, rfl⟩⟩ := tjuHandlePacket_hollow hpkt hhandle
  · have hok := h.sock (hr ▸ sameFlow_setRwnd _ _)
    rcases hsent with rfl | rfl | rfl
    · exact hok.quiet ⟨rfl, rfl, rfl, rfl, fun h => ⟨h, rfl⟩⟩
    · exact hok.emitControl _ _ _ _ (by decide)
    · exact hok.emitAck _ rfl
  · have hok := h.sock (hr ▸ sameFlow_setRwnd _ _)
    have hadv := (hok.sock (sameFlow_handleSuccessAck r)).advance (getSeq pkt)
    exact (hadv.quiet (sameFlow_ackTimer _)).of_sends (.single (.advance fout hseq))

/-- **A network that makes packets up still only moves the two flows.** -/
theorem forgedStep_simulates {l l' : Link} {f : Side → Flow UInt8} (h : Simulates l f)
    (hdel : ∀ x, Delivers (f x)) {e : ForgedEvent} (hs : forgedStep l e = .ret l') :
    ∃ f', (∀ x, Delivers (f' x)) ∧ Simulates l' f' := by
  cases e with
  | link e =>
    obtain ⟨f', hsteps, hf'⟩ := linkStep_simulates_of_delivers h hdel hs
    exact ⟨f', fun x => (hsteps x).delivers (hdel x), hf'⟩
  | forge x pkt =>
    rw [forgedStep] at hs
    split_ifs at hs with hpkt
    obtain ⟨a, hpacket, hret⟩ := Outcome.bind_eq_ret.mp hs
    obtain rfl := Outcome.ret.inj hret
    obtain ⟨g, hforge, hseq, hothers, hg⟩ := h.forge x (getSeq pkt).toNat
    have hdel' : ∀ y, Delivers (g y) := fun y => by
      by_cases hy : y = x
      · exact hy ▸ hforge.delivers (hdel x)
      · exact (hothers y hy).symm ▸ hdel y
    obtain ⟨f', hsteps, hf'⟩ := hg.update (packetStep_hollow (hg x) hpkt hseq hpacket)
    exact ⟨f', fun y => (hsteps y).delivers (hdel' y), hf'⟩

theorem Simulates.of_forged {l : Link} (h : Reachable forgedStep LinkStart l) :
    ∃ f, (∀ x, Delivers (f x)) ∧ Simulates l f := by
  have hinit : ∀ l, LinkStart l → ∃ f, (∀ x, Delivers (f x)) ∧ Simulates l f :=
    fun _ h0 => ⟨_, fun _ => safe_initial.delivers, simulates_start h0⟩
  refine h.invariant hinit fun l e l' hl hs => ?_
  obtain ⟨f, hdel, hf⟩ := hl
  exact forgedStep_simulates hf hdel hs

/-- **Delivery safety against a network that makes packets up.**  Whatever the two ends do, whatever
the network does to their packets, and whatever packets without data it gives them besides, what an
established end has returned to its caller, followed by what it still holds, is exactly the first
`expect_seq` bytes the other end has sent. -/
theorem forged_delivery {l : Link} (h : Reachable forgedStep LinkStart l) (x : Side)
    (hx : (l x).sock.state = .established) :
    (l x).sock.expectSeq ≤ (l x.other).sock.nextseq ∧
      (l x).returned ++ (l x).sock.receivedBuf
        = (l x.other).copied.take (l x).sock.expectSeq.toNat := by
  obtain ⟨f, hdel, hf⟩ := Simulates.of_forged h
  have hend := hf x
  have hpeer := hf.peer x
  constructor
  · rw [UInt32.le_iff_toNat_le, ← hend.expectSeq, ← hpeer.nextseq, ← hpeer.stream]
    exact (hdel x.other).got_le
  · rw [← hend.received hx, ← hend.expectSeq, ← hpeer.stream]
    exact (hdel x.other).got_eq_take

/-- A forged ACK takes the client's `base` far beyond what it has sent, and its three bytes arrive. -/
theorem forged_delivery_three : ∃ l, Reachable forgedStep LinkStart l ∧
    (l .client).sock.base = 1000 ∧ 3 ≤ (l .client).sock.nextseq ∧
    [1, 2] ++ [3] = (l .client).copied.take 3 := by
  have hrun : (run forgedStep zeroedLink [.link (.call .client (.send [1, 2, 3])),
      .link (.call .client .stream), .forge .client (controlPkt zeroedSock 1000 0 Flag.ack 0),
      .link (.deliver .server 0), .link (.call .server (.recv 2))] >>= fun l =>
        .ret ((l .client).sock.base, (l .server).sock.state, (l .server).returned,
          (l .server).sock.receivedBuf, (l .server).sock.expectSeq)) =
      .ret (1000, .established, [1, 2], [3], 3) := by decide
  obtain ⟨l, hl, hret⟩ := Outcome.bind_eq_ret.mp hrun
  obtain ⟨hbase, hst, hret', hbuf, hexp⟩ : _ ∧ _ ∧ _ ∧ _ ∧ _ := by simpa using hret
  have hreach : Reachable forgedStep LinkStart l := Reachable.after (.init linkStart_zeroedLink) hl
  obtain ⟨hle, hbytes⟩ := forged_delivery hreach .server hst
  rw [hret', hbuf, hexp] at hbytes
  exact ⟨l, hreach, hbase, hexp ▸ hle, hbytes⟩

end TrivalTcp
