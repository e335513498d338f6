import TrivalTcp.Foundations.CumulativeAck
import TrivalTcp.Transfer.Transfer

/-!
# Transfer/Link — two established ends and a network without promises

An `EndState` is one end of a connection with a record of what has passed through it.  A `Link` is
two of them facing each other: in every step one end runs one function, or is given any packet the
other has ever handed to `sendToLayer3` — refused ones included, and any number of times, so that
the network may lose, repeat and reorder as it likes.

The step functions follow the source.  What a packet says (`Emitted`) and what an end is in terms of
the two byte streams of the connection (`EndOk`) connect them to `CumulativeAck.Flow`.
-/

namespace TrivalTcp

open CumulativeAck

/-! ## One end -/

/-- One end of a connection, and what has passed through it since establishment. -/
structure EndState where
  sock : TjuTcp
  /-- The packets handed to `sendToLayer3`. -/
  handed : List Buf
  /-- The chunks `tcp_send_stream` copied into `send_windows`, one after another. -/
  copied : Buf
  /-- The bytes `tcp_send` took with status 0. -/
  accepted : Buf
  /-- The bytes the calls of `tcp_recv` returned. -/
  returned : Buf

/-- What an end does without a packet. -/
inductive Call where
  | send (buffer : Buf)
  | stream
  | timeout
  | recv (len : ℕ)

/-- Run one function of an end.  A timer may expire at any moment. -/
def callStep (a : EndState) : Call → Outcome EndState
  | .send buffer => tcpSend a.sock buffer >>= fun (sock, status) =>
      .ret { a with sock, accepted := if status = 0 then a.accepted ++ buffer else a.accepted }
  | .stream => tcpSendStream a.sock >>= fun r =>
      .ret { a with sock := r.sock, handed := a.handed ++ r.packets, copied := a.copied ++ r.copied }
  | .timeout => timerExpiry a.sock >>= fun (sock, packets) =>
      .ret { a with sock, handed := a.handed ++ packets }
  | .recv len => tcpRecv a.sock len >>= fun (sock, bytes) =>
      .ret { a with sock, returned := a.returned ++ bytes }

/-- `tju_handle_packet` at an end. -/
def packetStep (a : EndState) (pkt : Buf) : Outcome EndState :=
  tjuHandlePacket a.sock pkt >>= fun (sock, packets) =>
    .ret { a with sock, handed := a.handed ++ packets }

/-- **A packet whose lengths are right is processed to its end.** -/
theorem packetStep_eq {pkt : Buf} (h : Sized pkt) (a : EndState) : packetStep a pkt =
    .ret { a with
      sock := (handled a.sock pkt).1
      handed := a.handed ++ (handled a.sock pkt).2 } := by
  rw [packetStep, tjuHandlePacket_eq h]
  rfl

/-! What the functions of an end have done once they have returned. -/

section Calls

variable {a a' : EndState}

theorem callStep_send_eq_ret {buffer : Buf} (h : callStep a (.send buffer) = .ret a') :
    a' = { a with
      sock := a.sock.setSendingBuf (a.sock.sendingBuf ++ buffer)
      accepted := a.accepted ++ buffer } ∨
    a' = { a with sock := { a.sock with sendLock := true } } := by
  obtain ⟨⟨s, status⟩, hsend, hret⟩ := Outcome.bind_eq_ret.mp h
  obtain rfl := Outcome.ret.inj hret
  rcases tcpSend_cases hsend with ⟨rfl, rfl⟩ | ⟨rfl, rfl⟩
  · exact .inl rfl
  · exact .inr rfl

theorem callStep_stream_eq_ret (h : callStep a .stream = .ret a') :
    ∃ r, tcpSendStream a.sock = .ret r ∧
      a' = { a with
        sock := r.sock
        handed := a.handed ++ r.packets
        copied := a.copied ++ r.copied } := by
  obtain ⟨r, hstream, hret⟩ := Outcome.bind_eq_ret.mp h
  exact ⟨r, hstream, (Outcome.ret.inj hret).symm⟩

theorem callStep_timeout_eq_ret (h : callStep a .timeout = .ret a') :
    ∃ s packets, timerExpiry a.sock = .ret (s, packets) ∧
      a' = { a with sock := s, handed := a.handed ++ packets } := by
  obtain ⟨⟨s, packets⟩, hexp, hret⟩ := Outcome.bind_eq_ret.mp h
  exact ⟨s, packets, hexp, (Outcome.ret.inj hret).symm⟩

theorem callStep_recv_eq_ret {len : ℕ} (h : callStep a (.recv len) = .ret a') :
    ∃ bytes rest, a.sock.receivedBuf = bytes ++ rest ∧
      a' = { a with sock := a.sock.setReceivedBuf rest, returned := a.returned ++ bytes } := by
  obtain ⟨⟨s, bytes⟩, hrecv, hret⟩ := Outcome.bind_eq_ret.mp h
  obtain rfl := Outcome.ret.inj hret
  obtain ⟨rest, hbuf, rfl⟩ := tcpRecv_cases hrecv
  exact ⟨bytes, rest, hbuf, rfl⟩

theorem packetStep_eq_ret {pkt : Buf} (h : packetStep a pkt = .ret a') :
    ∃ s packets, tjuHandlePacket a.sock pkt = .ret (s, packets) ∧
      a' = { a with sock := s, handed := a.handed ++ packets } := by
  obtain ⟨⟨s, packets⟩, hhandle, hret⟩ := Outcome.bind_eq_ret.mp h
  exact ⟨s, packets, hhandle, (Outcome.ret.inj hret).symm⟩

end Calls

/-! ## Two ends -/

/-- The two ends. -/
inductive Side where
  | client
  | server
  deriving DecidableEq, Repr

/-- The other end. -/
def Side.other : Side → Side
  | client => server
  | server => client

@[simp] theorem Side.other_other (x : Side) : x.other.other = x := by cases x <;> rfl

theorem Side.other_ne (x : Side) : x.other ≠ x := by cases x <;> nofun

/-- There are two ends. -/
theorem Side.eq_or_other (x y : Side) : y = x ∨ y = x.other := by
  cases x <;> cases y <;> first | exact .inl rfl | exact .inr rfl

/-- Both ends of one connection. -/
abbrev Link := Side → EndState

/-- What can happen on a link. -/
inductive LinkEvent where
  /-- An end runs a function of its own. -/
  | call (x : Side) (c : Call)
  /-- An end is given the `n`-th packet the other has handed on. -/
  | deliver (x : Side) (n : ℕ)

def linkStep (l : Link) : LinkEvent → Outcome Link
  | .call x c => callStep (l x) c >>= fun a => .ret (Function.update l x a)
  | .deliver x n =>
    match (l x.other).handed[n]? with
    | none => .blocked
    | some pkt => packetStep (l x) pkt >>= fun a => .ret (Function.update l x a)

/-- The same on the link. -/
theorem linkStep_deliver_eq {l : Link} {x : Side} {n : ℕ} {pkt : Buf}
    (hpkt : (l x.other).handed[n]? = some pkt) (h : Sized pkt) :
    linkStep l (.deliver x n) = .ret (Function.update l x { l x with
      sock := (handled (l x).sock pkt).1
      handed := (l x).handed ++ (handled (l x).sock pkt).2 }) := by
  rw [linkStep, hpkt]
  dsimp only
  rw [packetStep_eq h]
  rfl

/-- A packet that is processed is long enough to be read. -/
theorem linkStep_deliver {l l' : Link} {x : Side} {n : ℕ}
    (hs : linkStep l (.deliver x n) = .ret l') :
    ∃ pkt, (l x.other).handed[n]? = some pkt ∧ headerLen ≤ pkt.length := by
  rw [linkStep] at hs
  split at hs
  next => nomatch hs
  next pkt hpkt =>
    refine ⟨pkt, hpkt, Nat.not_lt.mp fun hlt => ?_⟩
    rw [packetStep, tjuHandlePacket, if_pos hlt] at hs
    nomatch hs

/-- What `tcp_connect` and `tcp_accept` leave, as far as the transfer depends on it. -/
structure Fresh (s : TjuTcp) : Prop where
  established : s.state = .established
  base : s.base = 0
  nextseq : s.nextseq = 0
  expectSeq : s.expectSeq = 0
  sending : s.sendingBuf = []
  received : s.receivedBuf = []

/-- An end nothing has passed through yet. -/
def EndState.start (s : TjuTcp) : EndState := ⟨s, [], [], [], []⟩

/-- A link at establishment: `send_windows` is what `tcp_socket` allocated. -/
def LinkStart (l : Link) : Prop :=
  ∀ x, ∃ s, Fresh s ∧ s.window.wndSend.sendWindows.size = tcpSendWindowSize ∧
    l x = EndState.start s

/-- An established socket in zeroed memory. -/
def zeroedSock : TjuTcp := { tcpSocket default with state := .established }

theorem fresh_zeroedSock : Fresh zeroedSock := ⟨rfl, rfl, rfl, rfl, rfl, rfl⟩

/-- A link between two such sockets. -/
def zeroedLink : Link := fun _ => .start zeroedSock

theorem linkStart_zeroedLink : LinkStart zeroedLink :=
  fun _ => ⟨zeroedSock, fresh_zeroedSock, rfl, rfl⟩

/-! ## What a packet says -/

/-- Every packet an end hands on is too short to hold a header, or acknowledges what the end has
accepted, or carries a slice of what it sends. -/
def Emitted (fout fin : Flow UInt8) (pkt : Buf) : Prop :=
  pkt.length < headerLen ∨ ∃ (h : TjuHeader) (payload : Buf), pkt = h.bytes ++ payload ∧
    h.hlen.toNat = headerLen ∧ h.plen.toNat = headerLen + payload.length ∧
    if h.flags = Flag.ack then payload = [] ∧ h.seqNum.toNat ∈ fin.acks
    else (h.seqNum.toNat, payload) ∈ fout.data

theorem Emitted.mono {fout fin fout' fin' : Flow UInt8} {pkt : Buf} (h : Emitted fout fin pkt)
    (hd : fout.data ⊆ fout'.data) (ha : fin.acks ⊆ fin'.acks) : Emitted fout' fin' pkt := by
  rcases h with h | ⟨h, payload, rfl, hh, hp, hc⟩
  · exact .inl h
  · refine .inr ⟨h, payload, rfl, hh, hp, ?_⟩
    split_ifs at hc ⊢
    · exact ⟨hc.1, ha hc.2⟩
    · exact hd hc

/-- A packet an end hands on has the right lengths, if it has a header. -/
theorem Emitted.sized {fout fin : Flow UInt8} {pkt : Buf} (h : Emitted fout fin pkt)
    (hlen : headerLen ≤ pkt.length) : Sized pkt := by
  rcases h with hlt | ⟨hdr, data, rfl, hh, hp, -⟩
  · exact absurd hlen (Nat.not_le.mpr hlt)
  · exact sized_bytes hh hp

/-- A header-only packet that is no acknowledgement carries the empty slice. -/
theorem controlPkt_emitted {fout fin : Flow UInt8} (s : TjuTcp) {seq : UInt32} (ack : UInt32)
    {flags : UInt8} (adv : UInt16) (hf : flags ≠ Flag.ack) (hd : (seq.toNat, []) ∈ fout.data) :
    Emitted fout fin (controlPkt s seq ack flags adv) := by
  obtain ⟨h, hpkt, -, -, hseq, hflags, hh, hp⟩ := controlPkt_eq s seq ack flags adv
  refine .inr ⟨h, [], hpkt, by rw [hh]; rfl, by rw [hp]; rfl, ?_⟩
  rw [if_neg (hflags ▸ hf), hseq]
  exact hd

/-- An acknowledgement says what the end has accepted. -/
theorem tcpSendAck_emitted {fout fin : Flow UInt8} (s : TjuTcp)
    (ha : s.expectSeq.toNat ∈ fin.acks) :
    Emitted fout fin (tcpSendAck s) := by
  obtain ⟨h, hpkt, -, -, hseq, hflags, hh, hp⟩ :=
    controlPkt_eq s s.expectSeq s.expectSeq Flag.ack (advWnd s)
  refine .inr ⟨h, [], hpkt, by rw [hh]; rfl, by rw [hp]; rfl, ?_⟩
  rw [if_pos hflags, hseq]
  exact ⟨rfl, ha⟩

/-- **A data packet carries a slice that starts where its chunk does**, however much of the chunk
`plen` has room for. -/
theorem dataPkt_emitted (s : TjuTcp) (seq : UInt32) (adv : UInt16) (buf : Buf) :
    ∃ b, b <+: buf ∧ ∀ fout fin : Flow UInt8, (seq.toNat, b) ∈ fout.data →
      Emitted fout fin (dataPkt s seq adv buf) := by
  rcases dataPkt_eq s seq adv buf with hlt | ⟨h, b, hpkt, hb, -, hseq, hflags, hh, hp⟩
  · exact ⟨buf, List.prefix_rfl, fun _ _ _ => .inl hlt⟩
  · refine ⟨b, hb, fun fout fin hd => .inr ⟨h, b, hpkt, by rw [hh]; rfl, hp, ?_⟩⟩
    rw [if_neg (by rw [hflags]; decide), hseq]
    exact hd

end TrivalTcp
