import TrivalTcp.Foundations.Bytes
import TrivalTcp.Packet.Consts

/-!
# Packet/Codec — building packets and taking them apart (`tju_packet.c`, checksum of `tju_tcp.c`)

A packet is a 22-byte header and a payload.  `createPacketBuf` writes one, the `get*` functions read
single fields out of a buffer and `bufToPacket` reads them all.  The checksum stands between the
two: `setChecksum` computes it over the packet before it is written, `tcpCheck` again after it has
been read.

A `NULL` data pointer is the empty list: `create_packet` and `buf_to_packet` store `NULL` exactly
when there are no bytes to store.
-/

namespace TrivalTcp

/-- `tju_header_t`. -/
structure TjuHeader where
  sourcePort : UInt16
  destinationPort : UInt16
  seqNum : UInt32
  ackNum : UInt32
  hlen : UInt16
  plen : UInt16
  flags : UInt8
  advertisedWindow : UInt16
  ext : UInt8
  checksum : UInt16
  deriving DecidableEq, Repr

/-- `tju_packet_t`; `sent_time` is never read. -/
structure TjuPacket where
  header : TjuHeader
  data : Buf
  deriving DecidableEq, Repr

/-! ## Reading single fields

`memcpy` into a variable and `ntohs` / `ntohl`: the bytes at a fixed offset, big-endian. -/

/-- The 16-bit field at `off`. -/
def get16 (msg : Buf) (off : ℕ) : UInt16 := .ofNat (Bytes.toNat (Bytes.sub msg off 2))

/-- The 32-bit field at `off`. -/
def get32 (msg : Buf) (off : ℕ) : UInt32 := .ofNat (Bytes.toNat (Bytes.sub msg off 4))

/-- The 8-bit field at `off`. -/
def get8 (msg : Buf) (off : ℕ) : UInt8 := .ofNat (Bytes.toNat (Bytes.sub msg off 1))

def getSrc (msg : Buf) : UInt16 := get16 msg 0

def getDst (msg : Buf) : UInt16 := get16 msg 2

def getSeq (msg : Buf) : UInt32 := get32 msg 4

def getAck (msg : Buf) : UInt32 := get32 msg 8

def getHlen (msg : Buf) : UInt16 := get16 msg 12

def getPlen (msg : Buf) : UInt16 := get16 msg 14

def getFlags (msg : Buf) : UInt8 := get8 msg 16

def getAdvertisedWindow (msg : Buf) : UInt16 := get16 msg 17

def getExt (msg : Buf) : UInt8 := get8 msg 19

def getChecksum (msg : Buf) : UInt16 := get16 msg 20

/-- `is_fin`. -/
def isFin (pkt : Buf) : Bool := getFlags pkt == Flag.finAck

/-! ## Writing the header -/

/-- The header fields in wire order: `htons` / `htonl` and `memcpy`, one after another. -/
def headerBytes (src dst : UInt16) (seq ack : UInt32) (hlen plen : UInt16) (flags : UInt8)
    (advWindow : UInt16) (ext : UInt8) (checksum : UInt16) : Buf :=
  Bytes.ofNat 2 src.toNat ++ (Bytes.ofNat 2 dst.toNat ++ (Bytes.ofNat 4 seq.toNat ++
  (Bytes.ofNat 4 ack.toNat ++ (Bytes.ofNat 2 hlen.toNat ++ (Bytes.ofNat 2 plen.toNat ++
  (Bytes.ofNat 1 flags.toNat ++ (Bytes.ofNat 2 advWindow.toNat ++ (Bytes.ofNat 1 ext.toNat ++
  Bytes.ofNat 2 checksum.toNat))))))))

/-- `header_in_char`: the header at the front of a zeroed block of `plen` bytes.  For `plen < 22`
the source writes past the block; no caller sends or reads those bytes, and they are cut off
here. -/
def headerInChar (src dst : UInt16) (seq ack : UInt32) (hlen plen : UInt16) (flags : UInt8)
    (advWindow : UInt16) (ext : UInt8) (checksum : UInt16) : Buf :=
  (headerBytes src dst seq ack hlen plen flags advWindow ext checksum
    ++ List.replicate (plen.toNat - headerLen) 0).take plen.toNat

/-- `packet_to_buf`. -/
def packetToBuf (p : TjuPacket) : Buf :=
  let h := p.header
  let msg := headerInChar h.sourcePort h.destinationPort h.seqNum h.ackNum h.hlen h.plen h.flags
    h.advertisedWindow h.ext h.checksum
  if h.plen > h.hlen then
    Bytes.overwrite msg h.hlen.toNat (p.data.take (h.plen.toNat - h.hlen.toNat))
  else
    msg

/-! ## The checksum -/

/-- `htons`: the two bytes swapped. -/
def htons (v : UInt16) : UInt16 := (v <<< 8) ||| (v >>> 8)

/-- `cksum += *data`: a `char` is signed, and is sign-extended before it is added. -/
def addChar (cksum : UInt16) (b : UInt8) : UInt16 := cksum + b.toInt8.toInt16.toUInt16

/-- `tcp_compute_checksum`.  Every `+=` converts its sum back to `unsigned short`; the shifts by 16
are taken after promotion to 32 bits. -/
def tcpComputeChecksum (pkt : TjuPacket) : UInt16 :=
  let h := pkt.header
  let cksum : UInt16 := 0
  let cksum := cksum + ((h.sourcePort.toUInt32 >>> 16) &&& 0xFFFF).toUInt16
  let cksum := cksum + (h.sourcePort.toUInt32 &&& 0xFFFF).toUInt16
  let cksum := cksum + ((h.destinationPort.toUInt32 >>> 16) &&& 0xFFFF).toUInt16
  let cksum := cksum + (h.destinationPort.toUInt32 &&& 0xFFFF).toUInt16
  let cksum := cksum + h.seqNum.toUInt16
  let cksum := cksum + h.ackNum.toUInt16
  let cksum := cksum + htons h.hlen
  let cksum := cksum + htons h.plen
  let cksum := cksum + h.flags.toUInt16
  let cksum := cksum + h.advertisedWindow
  let cksum := cksum + h.ext.toUInt16
  -- the loop runs while `data_len = plen - hlen` is positive
  let cksum := (pkt.data.take (h.plen.toNat - h.hlen.toNat)).foldl addChar cksum
  let cksum := ((cksum.toUInt32 >>> 16) + (cksum.toUInt32 &&& 0xFFFF)).toUInt16
  ~~~cksum

/-- `tcp_check`. -/
def tcpCheck (pkt : TjuPacket) : Bool := pkt.header.checksum == tcpComputeChecksum pkt

/-- `set_checksum`. -/
def setChecksum (pkt : TjuPacket) : TjuPacket :=
  { pkt with header := { pkt.header with checksum := tcpComputeChecksum pkt } }

/-! ## Whole packets -/

/-- `create_packet`, with `data` the `len` bytes the caller passes; `malloc` leaves the checksum
field as it finds it, and `set_checksum` does not read it. -/
def createPacket (src dst : UInt16) (seq ack : UInt32) (hlen plen : UInt16) (flags : UInt8)
    (advWindow : UInt16) (ext : UInt8) (data : Buf) : TjuPacket :=
  setChecksum
    { header :=
        { sourcePort := src, destinationPort := dst, seqNum := seq, ackNum := ack, hlen, plen, flags,
          advertisedWindow := advWindow, ext, checksum := 0 }
      data }

/-- `create_packet_buf`. -/
def createPacketBuf (src dst : UInt16) (seq ack : UInt32) (hlen plen : UInt16) (flags : UInt8)
    (advWindow : UInt16) (ext : UInt8) (data : Buf) : Buf :=
  packetToBuf (createPacket src dst seq ack hlen plen flags advWindow ext data)

/-- `buf_to_packet`. -/
def bufToPacket (buf : Buf) : TjuPacket where
  header :=
    { sourcePort := getSrc buf, destinationPort := getDst buf, seqNum := getSeq buf,
      ackNum := getAck buf, hlen := getHlen buf, plen := getPlen buf, flags := getFlags buf,
      advertisedWindow := getAdvertisedWindow buf, ext := getExt buf, checksum := getChecksum buf }
  data := Bytes.sub buf (getHlen buf).toNat ((getPlen buf).toNat - (getHlen buf).toNat)

/-- `build_state_pkt`: the answer to a handshake packet, ports swapped; `len` is the header
length. -/
def buildStatePkt (recvPkt : Buf) (flags : UInt8) : Buf :=
  createPacketBuf (getDst recvPkt) (getSrc recvPkt) (getSeq recvPkt + .ofNat headerLen)
    (getSeq recvPkt + 1) (.ofNat headerLen) (.ofNat headerLen) flags (.ofNat tcpRecvBufferSize) 0 []

end TrivalTcp
