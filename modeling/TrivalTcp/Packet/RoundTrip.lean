import TrivalTcp.Packet.Codec

/-!
# Packet/RoundTrip — a packet that is built is read back unchanged

Every packet the program builds has `hlen = 22`, so its buffer is the header followed by the
payload (`packetToBuf_eq`), and the `get*` functions read the header's own fields back out of it.
The checksum is computed from fields that come back unchanged, so it is found to be right.
-/

namespace TrivalTcp

/-- The bytes a header is written as. -/
def TjuHeader.bytes (h : TjuHeader) : Buf :=
  headerBytes h.sourcePort h.destinationPort h.seqNum h.ackNum h.hlen h.plen h.flags
    h.advertisedWindow h.ext h.checksum

@[simp] theorem TjuHeader.length_bytes (h : TjuHeader) : h.bytes.length = headerLen := by
  simp [bytes, headerBytes, headerLen]

/-! ## Every field is read back -/

section Fields

variable (h : TjuHeader) (rest : Buf)

theorem ofNat16_bytes (v : UInt16) :
    UInt16.ofNat (Bytes.toNat (Bytes.ofNat 2 v.toNat)) = v := by
  have hv : v.toNat < 256 ^ 2 := v.toNat_lt
  rw [Bytes.toNat_ofNat, Nat.mod_eq_of_lt hv, UInt16.ofNat_toNat]

theorem ofNat32_bytes (v : UInt32) :
    UInt32.ofNat (Bytes.toNat (Bytes.ofNat 4 v.toNat)) = v := by
  have hv : v.toNat < 256 ^ 4 := v.toNat_lt
  rw [Bytes.toNat_ofNat, Nat.mod_eq_of_lt hv, UInt32.ofNat_toNat]

theorem ofNat8_bytes (v : UInt8) : UInt8.ofNat (Bytes.toNat (Bytes.ofNat 1 v.toNat)) = v := by
  have hv : v.toNat < 256 ^ 1 := v.toNat_lt
  rw [Bytes.toNat_ofNat, Nat.mod_eq_of_lt hv, UInt8.ofNat_toNat]

/-- The header's fields, one after another, in front of the rest of the buffer. -/
theorem TjuHeader.bytes_append :
    h.bytes ++ rest = Bytes.ofNat 2 h.sourcePort.toNat ++ (Bytes.ofNat 2 h.destinationPort.toNat ++
      (Bytes.ofNat 4 h.seqNum.toNat ++ (Bytes.ofNat 4 h.ackNum.toNat ++
      (Bytes.ofNat 2 h.hlen.toNat ++ (Bytes.ofNat 2 h.plen.toNat ++ (Bytes.ofNat 1 h.flags.toNat ++
      (Bytes.ofNat 2 h.advertisedWindow.toNat ++ (Bytes.ofNat 1 h.ext.toNat ++
      (Bytes.ofNat 2 h.checksum.toNat ++ rest))))))))) := by
  simp only [bytes, headerBytes, List.append_assoc]

@[simp] theorem getSrc_bytes : getSrc (h.bytes ++ rest) = h.sourcePort := by
  simp [getSrc, get16, TjuHeader.bytes_append, Bytes.sub_append_left, ofNat16_bytes]

@[simp] theorem getDst_bytes : getDst (h.bytes ++ rest) = h.destinationPort := by
  simp [getDst, get16, TjuHeader.bytes_append, Bytes.sub_append_right, Bytes.sub_append_left,
    ofNat16_bytes]

@[simp] theorem getSeq_bytes : getSeq (h.bytes ++ rest) = h.seqNum := by
  simp [getSeq, get32, TjuHeader.bytes_append, Bytes.sub_append_right, Bytes.sub_append_left,
    ofNat32_bytes]

@[simp] theorem getAck_bytes : getAck (h.bytes ++ rest) = h.ackNum := by
  simp [getAck, get32, TjuHeader.bytes_append, Bytes.sub_append_right, Bytes.sub_append_left,
    ofNat32_bytes]

@[simp] theorem getHlen_bytes : getHlen (h.bytes ++ rest) = h.hlen := by
  simp [getHlen, get16, TjuHeader.bytes_append, Bytes.sub_append_right, Bytes.sub_append_left,
    ofNat16_bytes]

@[simp] theorem getPlen_bytes : getPlen (h.bytes ++ rest) = h.plen := by
  simp [getPlen, get16, TjuHeader.bytes_append, Bytes.sub_append_right, Bytes.sub_append_left,
    ofNat16_bytes]

@[simp] theorem getFlags_bytes : getFlags (h.bytes ++ rest) = h.flags := by
  simp [getFlags, get8, TjuHeader.bytes_append, Bytes.sub_append_right, Bytes.sub_append_left,
    ofNat8_bytes]

@[simp] theorem getAdvertisedWindow_bytes :
    getAdvertisedWindow (h.bytes ++ rest) = h.advertisedWindow := by
  simp [getAdvertisedWindow, get16, TjuHeader.bytes_append, Bytes.sub_append_right,
    Bytes.sub_append_left, ofNat16_bytes]

@[simp] theorem getExt_bytes : getExt (h.bytes ++ rest) = h.ext := by
  simp [getExt, get8, TjuHeader.bytes_append, Bytes.sub_append_right, Bytes.sub_append_left,
    ofNat8_bytes]

@[simp] theorem getChecksum_bytes : getChecksum (h.bytes ++ rest) = h.checksum := by
  simp [getChecksum, get16, TjuHeader.bytes_append, Bytes.sub_append_right, Bytes.sub_append_left,
    ofNat16_bytes]

end Fields

/-! ## The buffer of a packet -/

/-- **With a 22-byte header the buffer is the header, then the payload**, cut at `plen`. -/
theorem packetToBuf_eq {p : TjuPacket} (hh : p.header.hlen.toNat = headerLen)
    (hp : p.header.plen.toNat ≤ headerLen + p.data.length) :
    packetToBuf p = (p.header.bytes ++ p.data).take p.header.plen.toNat := by
  have hlen := p.header.length_bytes
  have hmsg : packetToBuf p = if p.header.plen > p.header.hlen then
      Bytes.overwrite ((p.header.bytes ++ List.replicate (p.header.plen.toNat - headerLen) 0).take
        p.header.plen.toNat) headerLen (p.data.take (p.header.plen.toNat - headerLen))
      else (p.header.bytes ++ List.replicate (p.header.plen.toNat - headerLen) 0).take
        p.header.plen.toNat := by
    simp only [packetToBuf, headerInChar, TjuHeader.bytes, hh]
  rw [hmsg]
  split
  next hgt =>
    have hgt' : headerLen < p.header.plen.toNat := hh ▸ UInt16.lt_iff_toNat_lt.mp hgt
    have hzero : (p.header.bytes ++ List.replicate (p.header.plen.toNat - headerLen) (0 : UInt8)).take
        p.header.plen.toNat =
        p.header.bytes ++ List.replicate (p.header.plen.toNat - headerLen) 0 :=
      List.take_of_length_le (by simp; omega)
    have hfull : p.header.bytes.take p.header.plen.toNat = p.header.bytes :=
      List.take_of_length_le (by omega)
    rw [hzero, ← hlen, Bytes.overwrite_tail (by simp [hlen]; omega), List.take_append, hfull]
  next hle =>
    have hle' : p.header.plen.toNat ≤ headerLen :=
      Nat.not_lt.mp fun h => hle (UInt16.lt_iff_toNat_lt.mpr (hh.symm ▸ h))
    rw [List.take_append_of_le_length (by omega), List.take_append_of_le_length (by omega)]

/-- **A packet whose `plen` is too small for its data** keeps what there is room for, or has no
complete header. -/
theorem packetToBuf_cases {p : TjuPacket} (hh : p.header.hlen.toNat = headerLen)
    (hp : p.header.plen.toNat ≤ headerLen + p.data.length) :
    (packetToBuf p).length < headerLen ∨ headerLen ≤ p.header.plen.toNat ∧
      packetToBuf p = p.header.bytes ++ p.data.take (p.header.plen.toNat - headerLen) := by
  have hlen := p.header.length_bytes
  rw [packetToBuf_eq hh hp]
  rcases Nat.lt_or_ge p.header.plen.toNat headerLen with hlt | hge
  · refine .inl (lt_of_le_of_lt ?_ hlt)
    rw [List.length_take]
    exact Nat.min_le_left _ _
  · refine .inr ⟨hge, ?_⟩
    rw [List.take_append, hlen, List.take_of_length_le (hlen.le.trans hge)]

/-- Reading a header and its payload back. -/
theorem bufToPacket_bytes {h : TjuHeader} {data : Buf} (hh : h.hlen.toNat = headerLen)
    (hp : h.plen.toNat = headerLen + data.length) : bufToPacket (h.bytes ++ data) = ⟨h, data⟩ := by
  have hdata : Bytes.sub (h.bytes ++ data) headerLen data.length = data := by
    rw [Bytes.sub_append_right (by simp), h.length_bytes, Nat.sub_self, Bytes.sub,
      List.drop_zero, List.take_length]
  simp only [bufToPacket, getSrc_bytes, getDst_bytes, getSeq_bytes, getAck_bytes, getHlen_bytes,
    getPlen_bytes, getFlags_bytes, getAdvertisedWindow_bytes, getExt_bytes, getChecksum_bytes, hh,
    hp, Nat.add_sub_cancel_left, hdata]

/-- The header `createPacketBuf` writes in front of `data` when the two lengths are right. -/
theorem createPacketBuf_eq (src dst : UInt16) (seq ack : UInt32) (hlen plen : UInt16)
    (flags : UInt8) (adv : UInt16) (ext : UInt8) {data : Buf} (hh : hlen.toNat = headerLen)
    (hp : plen.toNat = headerLen + data.length) :
    createPacketBuf src dst seq ack hlen plen flags adv ext data
      = (createPacket src dst seq ack hlen plen flags adv ext data).header.bytes ++ data := by
  rw [createPacketBuf, packetToBuf_eq hh (by exact hp.le)]
  refine List.take_of_length_le ?_
  rw [List.length_append, TjuHeader.length_bytes]
  exact hp.ge

/-- The advertised window of a packet that holds its header is the one it was built with, however
much of the data `plen` has room for. -/
theorem getAdvertisedWindow_createPacketBuf (src dst : UInt16) (seq ack : UInt32)
    {hlen plen : UInt16} (flags : UInt8) (adv : UInt16) (ext : UInt8) {data : Buf}
    (hh : hlen.toNat = headerLen) (hp : plen.toNat ≤ headerLen + data.length)
    (h : headerLen ≤ (createPacketBuf src dst seq ack hlen plen flags adv ext data).length) :
    getAdvertisedWindow (createPacketBuf src dst seq ack hlen plen flags adv ext data) = adv := by
  rcases packetToBuf_cases (p := createPacket src dst seq ack hlen plen flags adv ext data) hh hp with
    hlt | ⟨-, hbuf⟩
  · exact absurd h (Nat.not_le.mpr hlt)
  · rw [createPacketBuf, hbuf]
    exact getAdvertisedWindow_bytes _ _

/-- A packet with a 22-byte header, both of whose lengths are right. -/
structure Sized (pkt : Buf) : Prop where
  header_le : headerLen ≤ pkt.length
  hlen : (getHlen pkt).toNat = headerLen
  plen : (getPlen pkt).toNat = pkt.length

instance (pkt : Buf) : Decidable (Sized pkt) :=
  decidable_of_iff (headerLen ≤ pkt.length ∧ (getHlen pkt).toNat = headerLen ∧
    (getPlen pkt).toNat = pkt.length) ⟨fun ⟨h, k, l⟩ => ⟨h, k, l⟩, fun ⟨h, k, l⟩ => ⟨h, k, l⟩⟩

/-- What stands behind the header. -/
def payload (pkt : Buf) : Buf := pkt.drop headerLen

@[simp] theorem payload_bytes (h : TjuHeader) (data : Buf) : payload (h.bytes ++ data) = data :=
  List.drop_left' h.length_bytes

theorem sized_bytes {h : TjuHeader} {data : Buf} (hh : h.hlen.toNat = headerLen)
    (hp : h.plen.toNat = headerLen + data.length) : Sized (h.bytes ++ data) where
  header_le := by simp
  hlen := by simpa using hh
  plen := by simpa using hp

theorem Sized.length_payload {pkt : Buf} (h : Sized pkt) :
    (getPlen pkt).toNat = headerLen + (payload pkt).length := by
  rw [h.plen, payload, List.length_drop, Nat.add_sub_cancel' h.header_le]

/-- **What is written is what is read.** -/
theorem bufToPacket_createPacketBuf (src dst : UInt16) (seq ack : UInt32) (hlen plen : UInt16)
    (flags : UInt8) (adv : UInt16) (ext : UInt8) {data : Buf} (hh : hlen.toNat = headerLen)
    (hp : plen.toNat = headerLen + data.length) :
    bufToPacket (createPacketBuf src dst seq ack hlen plen flags adv ext data)
      = createPacket src dst seq ack hlen plen flags adv ext data := by
  rw [createPacketBuf_eq src dst seq ack hlen plen flags adv ext hh hp]
  exact bufToPacket_bytes hh hp

/-- **A packet carries the checksum of its own fields**: `tcp_compute_checksum` does not read the
checksum field `set_checksum` fills. -/
theorem tcpCheck_createPacket (src dst : UInt16) (seq ack : UInt32) (hlen plen : UInt16)
    (flags : UInt8) (adv : UInt16) (ext : UInt8) (data : Buf) :
    tcpCheck (createPacket src dst seq ack hlen plen flags adv ext data) = true :=
  beq_self_eq_true _

/-- **What a packet that is built says**, if its lengths are right. -/
structure Built (pkt : Buf) (src : UInt16) (seq : UInt32) (flags : UInt8) (data : Buf) : Prop where
  sized : Sized pkt
  src : getSrc pkt = src
  seq : getSeq pkt = seq
  flags : getFlags pkt = flags
  payload : payload pkt = data
  check : tcpCheck (bufToPacket pkt) = true

theorem built_createPacketBuf (src dst : UInt16) (seq ack : UInt32) {hlen plen : UInt16}
    (flags : UInt8) (adv : UInt16) (ext : UInt8) {data : Buf} (hh : hlen.toNat = headerLen)
    (hp : plen.toNat = headerLen + data.length) :
    Built (createPacketBuf src dst seq ack hlen plen flags adv ext data) src seq flags data := by
  have hcheck : tcpCheck (bufToPacket
      (createPacketBuf src dst seq ack hlen plen flags adv ext data)) = true := by
    rw [bufToPacket_createPacketBuf src dst seq ack hlen plen flags adv ext hh hp]
    exact tcpCheck_createPacket src dst seq ack hlen plen flags adv ext data
  rw [createPacketBuf_eq src dst seq ack hlen plen flags adv ext hh hp] at hcheck ⊢
  exact ⟨sized_bytes hh hp, getSrc_bytes _ _, getSeq_bytes _ _, getFlags_bytes _ _,
    payload_bytes _ _, hcheck⟩

/-- A packet that is built is as long as its header and its data. -/
theorem Built.length {pkt : Buf} {src : UInt16} {seq : UInt32} {flags : UInt8} {data : Buf}
    (h : Built pkt src seq flags data) : pkt.length = headerLen + data.length := by
  rw [← h.sized.plen, h.sized.length_payload, h.payload]

/-- **Codec and checksum round trip.**  Whatever its fields and payload, a packet built with
`hlen = 22` and `plen = 22 + len` occupies exactly `plen` bytes, is read back field by field, and
passes the receiver's checksum. -/
theorem createPacketBuf_roundTrip (src dst : UInt16) (seq ack : UInt32) (flags : UInt8)
    (adv : UInt16) (ext : UInt8) (payload : Buf) (hlen : 22 + payload.length ≤ 65535) :
    let plen : UInt16 := .ofNat (22 + payload.length)
    let buf := createPacketBuf src dst seq ack 22 plen flags adv ext payload
    buf.length = 22 + payload.length ∧ plen.toNat = 22 + payload.length ∧
      (bufToPacket buf).header =
        { sourcePort := src, destinationPort := dst, seqNum := seq, ackNum := ack, hlen := 22,
          plen, flags, advertisedWindow := adv, ext,
          checksum := (bufToPacket buf).header.checksum } ∧
      (bufToPacket buf).data = payload ∧ tcpCheck (bufToPacket buf) = true := by
  intro plen buf
  have hplen : plen.toNat = headerLen + payload.length := by
    rw [UInt16.toNat_ofNat', headerLen]
    omega
  have hbuf : buf.length = headerLen + payload.length := by
    have hbytes := createPacketBuf_eq src dst seq ack 22 plen flags adv ext rfl hplen
    exact (congrArg List.length hbytes).trans (by simp)
  have hread : bufToPacket buf = createPacket src dst seq ack 22 plen flags adv ext payload :=
    bufToPacket_createPacketBuf src dst seq ack 22 plen flags adv ext rfl hplen
  refine ⟨hbuf, hplen, ?_, ?_, ?_⟩
  · rw [hread]; rfl
  · rw [hread]; rfl
  · rw [hread]
    exact tcpCheck_createPacket src dst seq ack 22 plen flags adv ext payload

/-- The round trip at a data packet that carries three bytes, one of them negative as a `char`. -/
theorem createPacketBuf_roundTrip_three :
    let buf := createPacketBuf 5678 1234 70000 0 22 25 Flag.noFlag 100 0 [1, 2, 255]
    buf.length = 25 ∧ (bufToPacket buf).data = [1, 2, 255] ∧ tcpCheck (bufToPacket buf) = true := by
  obtain ⟨hl, -, -, hd, hc⟩ :=
    createPacketBuf_roundTrip 5678 1234 70000 0 Flag.noFlag 100 0 [1, 2, 255] (by decide)
  exact ⟨hl, hd, hc⟩

end TrivalTcp
