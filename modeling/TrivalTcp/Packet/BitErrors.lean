import TrivalTcp.Packet.RoundTrip
import Mathlib.Data.List.GetD
import Mathlib.Tactic.IntervalCases

/-!
# Packet/BitErrors — which single-bit errors the checksum catches

`tcp_compute_checksum` is the complement of one 16-bit sum (`tcpComputeChecksum_eq`).  A flipped bit
changes one summand, and every summand is an injective function of the bytes it is read from — with
two exceptions.  `seq_num` and `ack_num` are 32 bits wide and are added to a 16-bit accumulator, so
only their low halves count: `get32_toUInt16`.  The source splits its two *16-bit* ports into
halves before adding them and leaves the 32-bit fields whole.
-/

namespace TrivalTcp

/-! ## The checksum as one sum -/

theorem shiftRight_sixteen (x : UInt16) : x.toUInt32 >>> 16 = 0 := by
  have hx : x.toNat / 65536 = 0 := Nat.div_eq_of_lt x.toNat_lt
  apply UInt32.toNat_inj.mp
  simp only [UInt32.toNat_shiftRight, UInt16.toNat_toUInt32, UInt32.reduceToNat, Nat.reduceMod,
    Nat.shiftRight_eq_div_pow, Nat.reducePow, hx]

theorem and_low_toUInt16 (x : UInt16) : (x.toUInt32 &&& 0xFFFF).toUInt16 = x := by
  have hx : x.toNat &&& (2 ^ 16 - 1) = x.toNat := by
    rw [Nat.and_two_pow_sub_one_eq_mod, Nat.mod_eq_of_lt x.toNat_lt]
  apply UInt16.toNat_inj.mp
  simpa using hx

/-- The word a `char` is added as. -/
def charWord (b : UInt8) : UInt16 := b.toInt8.toInt16.toUInt16

/-- **Sign extension loses nothing.** -/
theorem charWord_injective : Function.Injective charWord := fun a b h => by
  have h8 := congrArg (fun v : UInt16 => v.toInt16.toInt8.toUInt8) h
  simpa [charWord] using h8

theorem foldl_addChar (c : UInt16) (l : Buf) : l.foldl addChar c = c + l.foldl addChar 0 := by
  induction l generalizing c with
  | nil => simp
  | cons b l ih =>
    rw [List.foldl_cons, List.foldl_cons, ih, ih (addChar 0 b), addChar, addChar, UInt16.zero_add,
      UInt16.add_assoc]

/-- **A changed byte changes the sum of the payload.** -/
theorem foldl_addChar_set {l : Buf} {j : ℕ} {b : UInt8} (hj : j < l.length) (hb : b ≠ l[j]) :
    (l.set j b).foldl addChar 0 ≠ l.foldl addChar 0 := by
  have hl : l = l.take j ++ l[j] :: l.drop (j + 1) := by
    rw [← List.drop_eq_getElem_cons hj, List.take_append_drop]
  have hset : l.set j b = l.take j ++ b :: l.drop (j + 1) := by
    rw [List.set_eq_take_append_cons_drop, if_pos hj]
  have hsplit : ∀ x : UInt8, (l.take j ++ x :: l.drop (j + 1)).foldl addChar 0
      = (l.take j).foldl addChar 0 + charWord x + (l.drop (j + 1)).foldl addChar 0 := fun x => by
    rw [List.foldl_append, List.foldl_cons, foldl_addChar, addChar, charWord]
  intro h
  rw [hset, hsplit b] at h
  have h' := h.trans ((congrArg (List.foldl addChar 0) hl).trans (hsplit l[j]))
  exact hb (charWord_injective (by simpa using h'))

/-- What `tcp_compute_checksum` adds up. -/
def wordSum (pkt : TjuPacket) : UInt16 :=
  pkt.header.sourcePort + pkt.header.destinationPort + pkt.header.seqNum.toUInt16
    + pkt.header.ackNum.toUInt16 + htons pkt.header.hlen + htons pkt.header.plen
    + pkt.header.flags.toUInt16 + pkt.header.advertisedWindow + pkt.header.ext.toUInt16
    + (pkt.data.take (pkt.header.plen.toNat - pkt.header.hlen.toNat)).foldl addChar 0

/-- **The checksum is the complement of one sum**: adding the upper half of a 16-bit number, and
folding a 16-bit sum, do nothing. -/
theorem tcpComputeChecksum_eq (pkt : TjuPacket) : tcpComputeChecksum pkt = ~~~wordSum pkt := by
  have h0 : (0 : UInt32).toUInt16 = 0 := rfl
  simp only [tcpComputeChecksum, wordSum, shiftRight_sixteen, and_low_toUInt16, UInt32.zero_and,
    h0, UInt32.zero_add, UInt16.zero_add, UInt16.add_zero]
  rw [foldl_addChar]

/-! ## A changed byte in a field -/

section Fields

variable {buf : Buf} {off i : ℕ} {b : UInt8}

theorem get16_set_outside (h : i < off ∨ off + 2 ≤ i) :
    get16 (buf.set i b) off = get16 buf off := by
  rw [get16, get16, Bytes.sub_set_outside b h]

theorem get8_set_outside (h : i < off ∨ off + 1 ≤ i) : get8 (buf.set i b) off = get8 buf off := by
  rw [get8, get8, Bytes.sub_set_outside b h]

/-- A changed byte changes the number a slice spells. -/
theorem toNat_sub_set_ne {n : ℕ} (hlt : off + n ≤ buf.length) (h : off ≤ i) (hn : i < off + n)
    (hb : b ≠ buf[i]) :
    Bytes.toNat (Bytes.sub (buf.set i b) off n) % 256 ^ n
      ≠ Bytes.toNat (Bytes.sub buf off n) % 256 ^ n := by
  have hl : (Bytes.sub buf off n).length = n := Bytes.length_sub hlt
  have hl' : (Bytes.sub (buf.set i b) off n).length = n := Bytes.length_sub (by simpa using hlt)
  have h1 := Bytes.toNat_lt (Bytes.sub (buf.set i b) off n)
  have h2 := Bytes.toNat_lt (Bytes.sub buf off n)
  rw [hl'] at h1
  rw [hl] at h2
  rw [Nat.mod_eq_of_lt h1, Nat.mod_eq_of_lt h2, Ne, Bytes.toNat_inj (hl'.trans hl.symm),
    Bytes.sub_set_inside b h]
  intro he
  have hj : i - off < (Bytes.sub buf off n).length := by omega
  have hget : ((Bytes.sub buf off n).set (i - off) b)[i - off]? = (Bytes.sub buf off n)[i - off]? :=
    congrArg (fun l : Buf => l[i - off]?) he
  rw [List.getElem?_set_self hj, List.getElem?_eq_getElem hj] at hget
  refine hb ((Option.some.inj hget).trans ?_)
  simp only [Bytes.sub, List.getElem_take, List.getElem_drop]
  congr 1
  omega

theorem get16_set_ne (hlt : off + 2 ≤ buf.length) (h : off ≤ i) (hn : i < off + 2)
    (hb : b ≠ buf[i]) : get16 (buf.set i b) off ≠ get16 buf off := fun he => by
  have hv := congrArg UInt16.toNat he
  rw [get16, get16, UInt16.toNat_ofNat', UInt16.toNat_ofNat'] at hv
  exact toNat_sub_set_ne hlt h hn hb hv

theorem get8_set_ne (hlt : i + 1 ≤ buf.length) (hb : b ≠ buf[i]) :
    get8 (buf.set i b) i ≠ get8 buf i := fun he => by
  have hv := congrArg UInt8.toNat he
  rw [get8, get8, UInt8.toNat_ofNat', UInt8.toNat_ofNat'] at hv
  exact toNat_sub_set_ne hlt le_rfl (Nat.lt_succ_self i) hb hv

/-- **A 32-bit field is added by its low half only**, the two bytes that come last. -/
theorem get32_toUInt16 (hlt : off + 4 ≤ buf.length) :
    (get32 buf off).toUInt16 = get16 buf (off + 2) := by
  have hl : (Bytes.sub buf (off + 2) 2).length = 2 := Bytes.length_sub (by omega)
  apply UInt16.toNat_inj.mp
  rw [get32, get16, Bytes.sub_add buf off 2 2, Bytes.toNat_append, hl, UInt32.toNat_toUInt16,
    UInt32.toNat_ofNat', UInt16.toNat_ofNat']
  omega

end Fields

/-! ## Flipping a bit -/

/-- `buf` with bit `k` of byte `i` flipped. -/
def flipBit (buf : Buf) (i k : ℕ) : Buf := buf.set i (buf.getD i 0 ^^^ 1 <<< UInt8.ofNat k)

theorem xor_bit_ne {b : UInt8} {k : ℕ} (hk : k < 8) : b ^^^ 1 <<< UInt8.ofNat k ≠ b := by
  intro h
  have h0 : (1 : UInt8) <<< UInt8.ofNat k = 0 :=
    (UInt8.xor_right_inj b).mp (h.trans UInt8.xor_zero.symm)
  interval_cases k <;> exact absurd h0 (by decide)

/-- What the receiver adds up, read off the buffer: the checksum is the complement of `bufSum`. -/
def bufSum (buf : Buf) : UInt16 :=
  get16 buf 0 + get16 buf 2 + get16 buf 6 + get16 buf 10 + htons (get16 buf 12)
    + htons (get16 buf 14) + (get8 buf 16).toUInt16 + get16 buf 17 + (get8 buf 19).toUInt16
    + (Bytes.sub buf (get16 buf 12).toNat
        ((get16 buf 14).toNat - (get16 buf 12).toNat)).foldl addChar 0

theorem tcpCheck_eq_false {buf : Buf} (h : headerLen ≤ buf.length) :
    tcpCheck (bufToPacket buf) = false ↔ get16 buf 20 ≠ ~~~bufSum buf := by
  rw [headerLen] at h
  have hseq : (get32 buf 4).toUInt16 = get16 buf 6 := get32_toUInt16 (by omega)
  have hack : (get32 buf 8).toUInt16 = get16 buf 10 := get32_toUInt16 (by omega)
  have hsum : wordSum (bufToPacket buf) = bufSum buf := by
    simp only [wordSum, bufSum, bufToPacket, getSrc, getDst, getSeq, getAck, getHlen, getPlen,
      getFlags, getAdvertisedWindow, getExt, hseq, hack, Bytes.sub, List.take_take, Nat.min_self]
  rw [tcpCheck, beq_eq_false_iff_ne, tcpComputeChecksum_eq, hsum]
  rfl

/-- The bytes whose bits the checksum does not cover: the high halves of `seq_num` and of
`ack_num`. -/
def Uncovered (i : ℕ) : Prop := i = 4 ∨ i = 5 ∨ i = 8 ∨ i = 9

/-- **A buffer that passes the check fails it after one byte outside `hlen` and `plen` has changed,
exactly when that byte is covered.** -/
theorem tcpCheck_set {buf : Buf} {i : ℕ} {b : UInt8} (hh : (get16 buf 12).toNat = headerLen)
    (hp : (get16 buf 14).toNat = buf.length) (hle : headerLen ≤ buf.length)
    (hok : tcpCheck (bufToPacket buf) = true) (hi : i < buf.length) (hb : b ≠ buf[i])
    (hout : i < 12 ∨ 16 ≤ i) :
    tcpCheck (bufToPacket (buf.set i b)) = false ↔ ¬ Uncovered i := by
  have hsum : get16 buf 20 = ~~~bufSum buf := by
    by_contra hne
    rw [(tcpCheck_eq_false hle).mpr hne] at hok
    exact Bool.noConfusion hok
  rw [tcpCheck_eq_false (by simpa using hle)]
  rw [headerLen] at hh hle
  have h12 : get16 (buf.set i b) 12 = get16 buf 12 := get16_set_outside (by omega)
  have h14 : get16 (buf.set i b) 14 = get16 buf 14 := get16_set_outside (by omega)
  simp only [bufSum, h12, h14, hh, hp] at hsum ⊢
  have hpay : i < 22 → Bytes.sub (buf.set i b) 22 (buf.length - 22)
      = Bytes.sub buf 22 (buf.length - 22) := fun h => Bytes.sub_set_outside b (.inl h)
  have hsame : ∀ {c t : UInt16}, c = ~~~t → ∀ {t' : UInt16}, t' ≠ t → c ≠ ~~~t' :=
    fun hc _ ht h => ht (UInt16.not_inj.mp (h.symm.trans hc))
  unfold Uncovered
  -- one field of the header after another, then the payload
  have hfields : i < 2 ∨ (2 ≤ i ∧ i < 4) ∨ (6 ≤ i ∧ i < 8) ∨ (10 ≤ i ∧ i < 12) ∨ i = 16
      ∨ (17 ≤ i ∧ i < 19) ∨ i = 19 ∨ (20 ≤ i ∧ i < 22) ∨ 22 ≤ i ∨ (i = 4 ∨ i = 5 ∨ i = 8 ∨ i = 9) := by
    omega
  rcases hfields with h | ⟨h, h'⟩ | ⟨h, h'⟩ | ⟨h, h'⟩ | rfl | ⟨h, h'⟩ | rfl | ⟨h, h'⟩ | h | h
  · have hne := get16_set_ne (by omega) (Nat.zero_le i) h hb
    simp (disch := omega) only [get16_set_outside, get8_set_outside, hpay]
    exact iff_of_true (hsame hsum (by simpa using hne)) (by omega)
  · have hne := get16_set_ne (by omega) h h' hb
    simp (disch := omega) only [get16_set_outside, get8_set_outside, hpay]
    exact iff_of_true (hsame hsum (by simpa using hne)) (by omega)
  · have hne := get16_set_ne (by omega) h h' hb
    simp (disch := omega) only [get16_set_outside, get8_set_outside, hpay]
    exact iff_of_true (hsame hsum (by simpa using hne)) (by omega)
  · have hne := get16_set_ne (by omega) h h' hb
    simp (disch := omega) only [get16_set_outside, get8_set_outside, hpay]
    exact iff_of_true (hsame hsum (by simpa using hne)) (by omega)
  · have hne := get8_set_ne (by omega) hb
    simp (disch := omega) only [get16_set_outside, get8_set_outside, hpay]
    exact iff_of_true (hsame hsum (by simpa [UInt8.toUInt16_inj] using hne)) (by omega)
  · have hne := get16_set_ne (by omega) h h' hb
    simp (disch := omega) only [get16_set_outside, get8_set_outside, hpay]
    exact iff_of_true (hsame hsum (by simpa using hne)) (by omega)
  · have hne := get8_set_ne (by omega) hb
    simp (disch := omega) only [get16_set_outside, get8_set_outside, hpay]
    exact iff_of_true (hsame hsum (by simpa [UInt8.toUInt16_inj] using hne)) (by omega)
  · -- the checksum field itself: the sum stays, the field does not
    have hne := get16_set_ne (by omega) h h' hb
    simp (disch := omega) only [get16_set_outside, get8_set_outside, hpay]
    exact iff_of_true (fun he => hne (he.trans hsum.symm)) (by omega)
  · have hj : i - 22 < (Bytes.sub buf 22 (buf.length - 22)).length := by
      rw [Bytes.length_sub (by omega)]
      omega
    have hget : (Bytes.sub buf 22 (buf.length - 22))[i - 22] = buf[i] := by
      simp only [Bytes.sub, List.getElem_take, List.getElem_drop]
      congr 1
      omega
    have hne := foldl_addChar_set hj (hget ▸ hb)
    simp (disch := omega) only [get16_set_outside, get8_set_outside, Bytes.sub_set_inside b h]
    exact iff_of_true (hsame hsum (by simpa using hne)) (by omega)
  · simp (disch := omega) only [get16_set_outside, get8_set_outside, hpay]
    exact iff_of_false (fun hne => hne hsum) (by omega)

/-- **The checksum catches exactly the bit errors outside the high halves of `seq_num` and
`ack_num`.**  For every packet the program builds, and every bit of its buffer outside `hlen` and
`plen`, the buffer with that bit flipped is rejected if and only if the bit lies in a covered
byte. -/
theorem tcpCheck_flipBit (src dst : UInt16) (seq ack : UInt32) (flags : UInt8) (adv : UInt16)
    (ext : UInt8) (payload : Buf) (hlen : 22 + payload.length ≤ 65535) (i k : ℕ)
    (hi : i < 22 + payload.length) (hk : k < 8) (hout : i < 12 ∨ 16 ≤ i) :
    tcpCheck (bufToPacket (flipBit (createPacketBuf src dst seq ack 22 (.ofNat (22 + payload.length))
      flags adv ext payload) i k)) = false ↔ ¬ Uncovered i := by
  have hplen : (UInt16.ofNat (22 + payload.length)).toNat = headerLen + payload.length := by
    rw [UInt16.toNat_ofNat', headerLen]
    omega
  generalize UInt16.ofNat (22 + payload.length) = plen at hplen ⊢
  have hbytes := createPacketBuf_eq src dst seq ack 22 plen flags adv ext rfl hplen
  have hread := bufToPacket_createPacketBuf src dst seq ack 22 plen flags adv ext rfl hplen
  have hok : tcpCheck (bufToPacket (createPacketBuf src dst seq ack 22 plen flags adv ext payload))
      = true := by
    rw [hread]
    exact tcpCheck_createPacket src dst seq ack 22 plen flags adv ext payload
  rw [hbytes] at hok ⊢
  have hlt : i < ((createPacket src dst seq ack 22 plen flags adv ext payload).header.bytes
      ++ payload).length := by
    rw [List.length_append, TjuHeader.length_bytes]
    exact hi
  rw [flipBit, List.getD_eq_getElem _ _ hlt]
  refine tcpCheck_set ?_ ?_ ?_ hok hlt (xor_bit_ne hk) hout
  · exact congrArg UInt16.toNat (getHlen_bytes _ payload)
  · refine (congrArg UInt16.toNat (getPlen_bytes _ payload)).trans (hplen.trans ?_)
    rw [List.length_append, TjuHeader.length_bytes]
  · rw [List.length_append, TjuHeader.length_bytes]
    exact Nat.le_add_right _ _

/-- The bound at a packet of three bytes: flipping the sign bit of its last byte is caught. -/
theorem tcpCheck_flipBit_last :
    tcpCheck (bufToPacket (flipBit (createPacketBuf 5678 1234 70000 0 22 25 Flag.noFlag 100 0
      [1, 2, 255]) 24 7)) = false :=
  (tcpCheck_flipBit 5678 1234 70000 0 Flag.noFlag 100 0 [1, 2, 255] (by decide) 24 7 (by decide)
    (by decide) (by decide)).mpr (by unfold Uncovered; omega)

/-- **A damaged sequence number passes the check**: flipping the lowest bit of byte 5 turns
`seq = 0` into `seq = 65536`, and the receiver's checksum still agrees. -/
theorem tcpCheck_flipBit_seq :
    let buf := createPacketBuf 5678 1234 0 0 22 23 Flag.noFlag 100 0 [7]
    getSeq buf = 0 ∧ getSeq (flipBit buf 5 0) = 65536 ∧
      tcpCheck (bufToPacket (flipBit buf 5 0)) ≠ false := by
  decide

end TrivalTcp
