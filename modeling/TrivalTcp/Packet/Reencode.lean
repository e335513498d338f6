import TrivalTcp.Packet.RoundTrip

/-!
# Packet/Reencode — a buffer that is decoded and encoded again

`buf_to_packet` followed by `packet_to_buf`, on any buffer that is as long as its `plen` says and
holds a header.  `hlen` may be anything: below 22 the payload starts inside the header, above 22 a
gap lies between the two, from `plen` on there is no payload.  In every layout the result is the
payload behind a zeroed buffer that starts with the header (`packetToBuf_bufToPacket_eq`), so what
is lost is what stands in the gap (`reencode_iff`).
-/

namespace TrivalTcp

section Reencode

variable {b : Buf}

/-! ## The header -/

/-- A field is written back as it stood. -/
theorem ofNat_get16 (off : ℕ) (h : off + 2 ≤ b.length) :
    Bytes.ofNat 2 (get16 b off).toNat = Bytes.sub b off 2 := by
  rw [get16, UInt16.toNat_ofNat_of_lt' (Bytes.toNat_sub_lt h), Bytes.ofNat_toNat_sub h]

theorem ofNat_get32 (off : ℕ) (h : off + 4 ≤ b.length) :
    Bytes.ofNat 4 (get32 b off).toNat = Bytes.sub b off 4 := by
  rw [get32, UInt32.toNat_ofNat_of_lt' (Bytes.toNat_sub_lt h), Bytes.ofNat_toNat_sub h]

theorem ofNat_get8 (off : ℕ) (h : off + 1 ≤ b.length) :
    Bytes.ofNat 1 (get8 b off).toNat = Bytes.sub b off 1 := by
  rw [get8, UInt8.toNat_ofNat_of_lt' (Bytes.toNat_sub_lt h), Bytes.ofNat_toNat_sub h]

/-- **The header is written back as it stood**: its ten fields cover its 22 bytes. -/
theorem bytes_bufToPacket (h : headerLen ≤ b.length) :
    (bufToPacket b).header.bytes = b.take headerLen := by
  rw [headerLen] at h
  have hfields : (bufToPacket b).header.bytes =
      Bytes.sub b 0 2 ++ (Bytes.sub b 2 2 ++ (Bytes.sub b 4 4 ++ (Bytes.sub b 8 4 ++
      (Bytes.sub b 12 2 ++ (Bytes.sub b 14 2 ++ (Bytes.sub b 16 1 ++ (Bytes.sub b 17 2 ++
      (Bytes.sub b 19 1 ++ Bytes.sub b 20 2)))))))) := by
    rw [← ofNat_get16 0 (by omega), ← ofNat_get16 2 (by omega),
      ← ofNat_get32 4 (by omega), ← ofNat_get32 8 (by omega),
      ← ofNat_get16 12 (by omega), ← ofNat_get16 14 (by omega),
      ← ofNat_get8 16 (by omega), ← ofNat_get16 17 (by omega),
      ← ofNat_get8 19 (by omega), ← ofNat_get16 20 (by omega)]
    rfl
  rw [hfields, ← Bytes.sub_add b 19 1 2, ← Bytes.sub_add b 17 2 3, ← Bytes.sub_add b 16 1 5,
    ← Bytes.sub_add b 14 2 6, ← Bytes.sub_add b 12 2 8, ← Bytes.sub_add b 8 4 10,
    ← Bytes.sub_add b 4 4 14, ← Bytes.sub_add b 2 2 18, ← Bytes.sub_add b 0 2 20]
  rfl

/-- `header_in_char` makes a zeroed buffer that starts with the header. -/
theorem headerInChar_bufToPacket (hplen : (getPlen b).toNat = b.length)
    (h : headerLen ≤ b.length) :
    headerInChar (getSrc b) (getDst b) (getSeq b) (getAck b) (getHlen b) (getPlen b) (getFlags b)
      (getAdvertisedWindow b) (getExt b) (getChecksum b) = Bytes.zeroFrom b headerLen := by
  have hbytes := bytes_bufToPacket h
  have hheader : headerBytes (getSrc b) (getDst b) (getSeq b) (getAck b) (getHlen b) (getPlen b)
      (getFlags b) (getAdvertisedWindow b) (getExt b) (getChecksum b) = b.take headerLen := hbytes
  rw [headerInChar, hheader, hplen]
  exact List.take_of_length_le (Bytes.length_zeroFrom b headerLen).le

/-! ## The whole buffer -/

/-- **The image of the codec**: the payload behind a zeroed buffer that starts with the header. -/
theorem packetToBuf_bufToPacket_eq (hplen : (getPlen b).toNat = b.length)
    (h : headerLen ≤ b.length) : packetToBuf (bufToPacket b) =
      (Bytes.zeroFrom b headerLen).take (getHlen b).toNat ++ b.drop (getHlen b).toNat := by
  have hmsg : packetToBuf (bufToPacket b) = if getPlen b > getHlen b then
      Bytes.overwrite (Bytes.zeroFrom b headerLen) (getHlen b).toNat
        ((Bytes.sub b (getHlen b).toNat (b.length - (getHlen b).toNat)).take
          (b.length - (getHlen b).toNat))
      else Bytes.zeroFrom b headerLen := by
    rw [← headerInChar_bufToPacket hplen h, ← hplen]
    rfl
  have hdata : (Bytes.sub b (getHlen b).toNat (b.length - (getHlen b).toNat)).take
      (b.length - (getHlen b).toNat) = b.drop (getHlen b).toNat := by
    rw [Bytes.sub, List.take_take, Nat.min_self]
    exact List.take_of_length_le List.length_drop.le
  rw [hmsg, hdata]
  split_ifs with hgt
  · refine Bytes.overwrite_to_end ?_
    rw [Bytes.length_zeroFrom, List.length_drop]
    omega
  · have hle : b.length ≤ (getHlen b).toNat := by
      rw [← hplen]
      exact Nat.not_lt.mp fun hlt => hgt (UInt16.lt_iff_toNat_lt.mpr hlt)
    rw [List.drop_eq_nil_of_le hle, List.append_nil, List.take_of_length_le]
    rwa [Bytes.length_zeroFrom]

end Reencode

/-- **Exactly what is encoded again as it was.**  A buffer that is as long as its `plen` says and
holds a header, whatever its `hlen` and its other fields, keeps its length when it is decoded and
encoded again, and comes out as it was **if and only if** every byte between the header and the
payload, or the end of the buffer if that comes first, is zero. -/
theorem reencode_iff {b : Buf} (hplen : (getPlen b).toNat = b.length) (h : 22 ≤ b.length) :
    (packetToBuf (bufToPacket b)).length = b.length ∧
      (packetToBuf (bufToPacket b) = b ↔ ∀ i (hi : i < b.length), 22 ≤ i →
        i < min (getHlen b).toNat (getPlen b).toNat → b[i] = 0) := by
  have himage := packetToBuf_bufToPacket_eq hplen h
  constructor
  · rw [himage, List.length_append, List.length_take, Bytes.length_zeroFrom, List.length_drop]
    omega
  · have hsplit : packetToBuf (bufToPacket b) = b ↔
        (Bytes.zeroFrom b headerLen).take (getHlen b).toNat = b.take (getHlen b).toNat := by
      rw [himage]
      conv_lhs => rhs; rw [← List.take_append_drop (getHlen b).toNat b]
      exact List.append_left_inj _
    rw [hsplit, Bytes.take_zeroFrom_eq_iff]
    refine forall₂_congr fun i hi => forall_congr' fun _ => ?_
    rw [hplen, lt_min_iff, and_iff_left hi]

/-- A buffer of 24 bytes whose `hlen` is 24: the two bytes behind the header are the gap. -/
theorem reencode_iff_gap :
    let b : Buf := headerBytes 5678 1234 70000 0 24 24 Flag.noFlag 100 0 0 ++ [0, 7]
    (packetToBuf (bufToPacket b)).length = 24 ∧ packetToBuf (bufToPacket b) ≠ b := by
  intro b
  obtain ⟨hlength, hiff⟩ := reencode_iff (b := b) (by decide) (by decide)
  refine ⟨hlength, fun heq => ?_⟩
  exact absurd (hiff.mp heq 23 (by decide) (by decide) (by decide)) (by decide)

end TrivalTcp
