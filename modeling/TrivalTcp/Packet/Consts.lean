import Mathlib.Data.Int.Notation
import Mathlib.Data.Nat.Notation

/-!
# Packet/Consts — the constants of `consts.h`

Only the constants the modelled functions read.  `TCP_SEND_WINDOW_SIZE` is written without
parentheses in the header, `128 * MAX_DLEN`; every use modelled here reads it whole.
-/

namespace TrivalTcp

/-- A buffer of bytes, `char*` with its length. -/
abbrev Buf := List UInt8

/-- `MAX_DLEN`: the most data a packet is meant to carry. -/
def maxDlen : ℕ := 1375

/-- `MAX_LEN`: `sendToLayer3` refuses anything longer. -/
def maxLen : ℕ := 1400

/-- `HEADER_LEN` and `DEFAULT_HEADER_LEN`, both 22. -/
def headerLen : ℕ := 22

/-- `TCP_SEND_WINDOW_SIZE`: the bytes `tcp_socket` allocates for `send_windows`. -/
def tcpSendWindowSize : ℕ := 128 * maxDlen

/-- `TCP_SEND_BUFFER_SIZE`: the bytes `tcp_socket` allocates for `sending_buf`. -/
def tcpSendBufferSize : ℕ := 128 * maxDlen

/-- `TCP_RECV_BUFFER_SIZE`. -/
def tcpRecvBufferSize : ℕ := 100

/-- `MAX_SOCK_SIZE`: the length of every socket table. -/
def maxSockSize : ℕ := 1024

/-- `MAX_QUEUE`: the most sockets a queue takes. -/
def maxQueue : ℕ := 1024

/-- `RETRANSMIT_LIMIT`. -/
def retransmitLimit : UInt8 := 10

/-- `SMSS`. -/
def smss : ℤ := 1 * 1400

/-- `IW`. -/
def iw : ℤ := 3 * 1400

/-! ## Flags -/

namespace Flag

/-- `NO_FLAG`: a data packet. -/
def noFlag : UInt8 := 0

/-- `FIN`. -/
def fin : UInt8 := 1

/-- `SYN`. -/
def syn : UInt8 := 2

/-- `RST`. -/
def rst : UInt8 := 4

/-- `ACK`. -/
def ack : UInt8 := 16

/-- `HEAD`: a window probe. -/
def head : UInt8 := 64

/-- `BACKHEAD`: the answer to a window probe. -/
def backhead : UInt8 := 128

/-- `SYN | ACK`. -/
def synAck : UInt8 := syn ||| ack

/-- `FIN | ACK`. -/
def finAck : UInt8 := fin ||| ack

end Flag

/-! ## Socket states -/

/-- The TCP states of `consts.h`, in the order of their numbers 0 to 10. -/
inductive TcpState where
  | closed
  | listen
  | synSent
  | synRecv
  | established
  | finWait1
  | finWait2
  | closeWait
  | closing
  | lastAck
  | timeWait
  deriving DecidableEq, Repr, Inhabited

/-! ## Congestion states

`con_status` is an `int`, and `handle_success_ack` has a branch for a value that is none of the
three. -/

/-- `SLOW_START`. -/
def slowStart : ℤ := 0

/-- `CONGESTION_AVOIDANCE`. -/
def congestionAvoidance : ℤ := 1

/-- `FAST_RECOVERY`. -/
def fastRecovery : ℤ := 2

end TrivalTcp
