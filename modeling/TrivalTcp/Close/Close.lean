import TrivalTcp.Kernel.Demux
import TrivalTcp.Transfer.Wire

/-!
# Close/Close — one end of a connection that is closing (`tcp_close`, `tcp_state_close`)

`tcp_state_close` sleeps in two of its branches, with its work half done, and the thread that
receives packets sleeps with it.  So a `Conn` is an end that may sleep: `stateClose` runs the
function up to where it returns or falls asleep, and `wake` runs the rest.  Once it has freed the
socket, nothing that would look at the socket has a meaning.

`onTCPPocket_conn` says that this is what `onTCPPocket` does on a host, as far as its choice of a
socket falls on the connection.
-/

namespace TrivalTcp

/-- Where `tcp_state_close` sleeps. -/
inductive Sleep where
  | closeWait
  | timeWait
  deriving DecidableEq, Repr

/-- An end of a connection that is or has been established. -/
structure Conn extends EndState where
  /-- Where the receiving thread sleeps, if it does. -/
  sleep : Option Sleep
  /-- `tcp_state_close` has freed the socket. -/
  freed : Bool

namespace Conn

variable (c : Conn)

/-- An end nothing has passed through yet. -/
def start (s : TjuTcp) : Conn := ⟨.start s, none, false⟩

/-- The state becomes `state`, and `packets` are handed on. -/
def enter (state : TcpState) (packets : List Buf) : Conn :=
  { c with
    sock := { c.sock with state }
    handed := c.handed ++ packets }

/-- `tcp_state_close`, up to where it returns or sleeps. -/
def stateClose (recvPkt : Buf) : Conn :=
  let flags := getFlags recvPkt
  match c.sock.state with
  | .established =>
    if flags = Flag.finAck then
      { c.enter .closeWait [tcpSendAck c.sock] with sleep := some .closeWait }
    else
      c
  | .finWait1 => if flags = Flag.ack then c.enter .finWait2 [] else c
  | .finWait2 =>
    if flags = Flag.finAck then
      { c.enter .timeWait [tcpSendAck c.sock] with sleep := some .timeWait }
    else
      c
  | .lastAck => if flags = Flag.ack then { c.enter .closed [] with freed := true } else c
  | _ => c

/-- `tcp_state_close`, from where it slept. -/
def wake : Outcome Conn :=
  match c.sleep with
  | some .closeWait => .ret { c.enter .lastAck [tcpSendFinAck c.sock] with sleep := none }
  | some .timeWait => .ret { c with sleep := none, freed := true }
  | none => .blocked

/-- `onTCPPocket`, where the connection is in the table the packet is looked up in. -/
def pocket (pkt : Buf) : Outcome Conn :=
  if c.sleep.isSome then
    .blocked
  else if pkt.length < headerLen then
    .undef
  else if ¬ tcpCheck (bufToPacket pkt) then
    .ret c
  else if c.freed then
    .undef
  else if isFin pkt ∨ c.sock.state ≠ .established then
    .ret (c.stateClose pkt)
  else
    packetStep c.toEndState pkt >>= fun a => .ret { c with toEndState := a }

/-- `tcp_close`, up to the loop that waits for `CLOSED`. -/
def close : Outcome Conn :=
  if c.freed then
    .undef
  else
    .ret { c with
      sock := (tcpClose c.sock).1
      handed := c.handed ++ (tcpClose c.sock).2 }

/-! ## What they can do -/

variable {c} {c' : Conn} {pkt : Buf}

/-- **What `tcp_state_close` does**, state by state. -/
theorem stateClose_cases (c : Conn) (pkt : Buf) :
    (c.sock.state = .established ∧ getFlags pkt = Flag.finAck ∧
      c.stateClose pkt =
        { c.enter .closeWait [tcpSendAck c.sock] with sleep := some .closeWait }) ∨
    (c.sock.state = .finWait1 ∧ getFlags pkt = Flag.ack ∧
      c.stateClose pkt = c.enter .finWait2 []) ∨
    (c.sock.state = .finWait2 ∧ getFlags pkt = Flag.finAck ∧
      c.stateClose pkt = { c.enter .timeWait [tcpSendAck c.sock] with sleep := some .timeWait }) ∨
    (c.sock.state = .lastAck ∧ getFlags pkt = Flag.ack ∧
      c.stateClose pkt = { c.enter .closed [] with freed := true }) ∨
    c.stateClose pkt = c := by
  rw [stateClose]
  split
  next hst =>
    split_ifs with hflags
    · exact .inl ⟨hst, hflags, rfl⟩
    · exact .inr (.inr (.inr (.inr rfl)))
  next hst =>
    split_ifs with hflags
    · exact .inr (.inl ⟨hst, hflags, rfl⟩)
    · exact .inr (.inr (.inr (.inr rfl)))
  next hst =>
    split_ifs with hflags
    · exact .inr (.inr (.inl ⟨hst, hflags, rfl⟩))
    · exact .inr (.inr (.inr (.inr rfl)))
  next hst =>
    split_ifs with hflags
    · exact .inr (.inr (.inr (.inl ⟨hst, hflags, rfl⟩)))
    · exact .inr (.inr (.inr (.inr rfl)))
  next => exact .inr (.inr (.inr (.inr rfl)))

/-- What follows a sleep. -/
theorem wake_cases (h : c.wake = .ret c') :
    (c.sleep = some .closeWait ∧
      c' = { c.enter .lastAck [tcpSendFinAck c.sock] with sleep := none }) ∨
    (c.sleep = some .timeWait ∧ c' = { c with sleep := none, freed := true }) := by
  rw [wake] at h
  split at h
  next hsleep => exact .inl ⟨hsleep, (Outcome.ret.inj h).symm⟩
  next hsleep => exact .inr ⟨hsleep, (Outcome.ret.inj h).symm⟩
  next => nomatch h

/-- **What becomes of a packet**: it is dropped, or `tcp_state_close` or `tju_handle_packet` gets
it. -/
theorem pocket_cases (h : c.pocket pkt = .ret c') :
    c.sleep = none ∧ ((tcpCheck (bufToPacket pkt) = false ∧ c' = c) ∨
      (c.freed = false ∧ (isFin pkt = true ∨ c.sock.state ≠ .established) ∧
        c' = c.stateClose pkt) ∨
      (c.freed = false ∧ isFin pkt = false ∧ c.sock.state = .established ∧
        ∃ a, packetStep c.toEndState pkt = .ret a ∧ c' = { c with toEndState := a })) := by
  rw [pocket] at h
  split_ifs at h with hsleep hlen hcheck hfreed hclose
  all_goals have hawake := Option.not_isSome_iff_eq_none.mp hsleep
  · exact ⟨hawake, .inr (.inl ⟨Bool.eq_false_of_not_eq_true hfreed, hclose,
      (Outcome.ret.inj h).symm⟩)⟩
  · obtain ⟨hfin, hest⟩ := not_or.mp hclose
    obtain ⟨a, ha, hret⟩ := Outcome.bind_eq_ret.mp h
    exact ⟨hawake, .inr (.inr ⟨Bool.eq_false_of_not_eq_true hfreed,
      Bool.eq_false_of_not_eq_true hfin, not_not.mp hest, a, ha, (Outcome.ret.inj hret).symm⟩)⟩
  · exact ⟨hawake, .inl ⟨Bool.eq_false_of_not_eq_true hcheck, (Outcome.ret.inj h).symm⟩⟩

/-- A packet of the transfer goes to `tju_handle_packet`. -/
theorem pocket_transfer (hest : c.sock.state = .established) (hflags : getFlags pkt ≠ Flag.finAck)
    (hcheck : tcpCheck (bufToPacket pkt) = true) (h : c.pocket pkt = .ret c') :
    ∃ a, packetStep c.toEndState pkt = .ret a ∧ c' = { c with toEndState := a } := by
  obtain ⟨-, ⟨hbad, -⟩ | ⟨-, hfin | hne, -⟩ | ⟨-, -, -, hstep⟩⟩ := pocket_cases h
  · nomatch hcheck.symm.trans hbad
  · exact absurd (beq_iff_eq.mp hfin) hflags
  · exact absurd hest hne
  · exact hstep

theorem close_eq_ret (h : c.close = .ret c') : c.freed = false ∧ c' = { c with
    sock := (tcpClose c.sock).1
    handed := c.handed ++ (tcpClose c.sock).2 } := by
  rw [close] at h
  split_ifs at h with hfreed
  exact ⟨Bool.eq_false_of_not_eq_true hfreed, (Outcome.ret.inj h).symm⟩

end Conn

/-! ## The same on a host -/

/-- The rest of what a packet sets off. -/
def Conn.rest (c : Conn) : Outcome Conn := if c.sleep.isSome then c.wake else .ret c

/-- `tcp_state_close` on its own leaves at `c` what `c'` is. -/
structure Conn.Leaves (c c' : Conn) (r : TjuTcp × List Buf × ℤ × Bool) : Prop where
  sock : r.1 = c'.sock
  handed : c.handed ++ r.2.1 = c'.handed
  freed : r.2.2.2 = c'.freed

/-- **`tcp_state_close` is what comes before its sleep and what comes after it.** -/
theorem Conn.stateClose_rest {c c' : Conn} {pkt : Buf} (hawake : c.sleep = none)
    (hfreed : c.freed = false) (h : (c.stateClose pkt).rest = .ret c') :
    c.Leaves c' (tcpStateClose c.sock pkt) := by
  have hsame : ∀ {status : ℤ}, c.rest = .ret c' → c.Leaves c' (c.sock, [], status, false) := by
    intro status hrest
    rw [rest, hawake] at hrest
    obtain rfl := Outcome.ret.inj hrest
    exact ⟨rfl, List.append_nil _, hfreed.symm⟩
  rw [stateClose] at h
  unfold tcpStateClose
  cases hst : c.sock.state with
  | established =>
    rw [hst] at h
    dsimp only at h ⊢
    split_ifs at h ⊢
    · obtain rfl := Outcome.ret.inj h
      exact ⟨rfl, (List.append_assoc c.handed [tcpSendAck c.sock] [tcpSendFinAck c.sock]).symm,
        hfreed.symm⟩
    · exact hsame h
  | finWait1 =>
    rw [hst] at h
    dsimp only at h ⊢
    split_ifs at h ⊢
    · rw [rest, enter, hawake] at h
      obtain rfl := Outcome.ret.inj h
      exact ⟨rfl, rfl, hfreed.symm⟩
    · exact hsame h
  | finWait2 =>
    rw [hst] at h
    dsimp only at h ⊢
    split_ifs at h ⊢
    · obtain rfl := Outcome.ret.inj h
      exact ⟨rfl, rfl, rfl⟩
    · exact hsame h
  | lastAck =>
    rw [hst] at h
    dsimp only at h ⊢
    split_ifs at h ⊢
    · rw [rest, enter, hawake] at h
      obtain rfl := Outcome.ret.inj h
      exact ⟨rfl, rfl, rfl⟩
    · exact hsame h
  | closed | listen | synSent | synRecv | closeWait | closing | timeWait =>
    rw [hst] at h
    exact hsame h

namespace Kernel

variable {k : Kernel} {host : Side} {pkt : Buf} {p : Ptr} {m : SockMem} {c c' : Conn}

/-- **The socket at `p` is the end `c`**, as long as it is not freed. -/
def Shows (k : Kernel) (p : Ptr) (c : Conn) : Prop :=
  c.freed = false ∧ (∃ m, k.heap.sock p = .live m ∧ k.heap.load m = c.sock) ∨
    c.freed = true ∧ k.heap.sock p = .freed

theorem handOn_tcpStateClose (hm : k.heap.sock p = .live m) (hload : k.heap.load m = c.sock)
    (h : c.Leaves c' (TrivalTcp.tcpStateClose c.sock pkt)) : ∃ k' packets status,
      k.handOn host pkt (.tcpStateClose, p) = .ret (k', packets, status) ∧
        c'.handed = c.handed ++ packets ∧ k'.Shows p c' := by
  obtain ⟨hsock, hhanded, hfreed⟩ := h
  have hrun : k.heap.onSock p (fun s => .ret (TrivalTcp.tcpStateClose s pkt)) =
      .ret (k.heap.store p m.ptrs c'.sock, (TrivalTcp.tcpStateClose c.sock pkt).2) := by
    refine Heap.onSock_eq_ret.mpr ⟨m, c'.sock, hm, ?_, rfl⟩
    rw [hload, ← hsock]
  rw [handOn, hrun]
  refine ⟨_, _, _, rfl, hhanded.symm, ?_⟩
  rw [hfreed]
  cases hgone : c'.freed with
  | false => exact .inl ⟨hgone, _, Heap.store_sock_self _ _ _, Heap.load_store_self _ _ _⟩
  | true => exact .inr ⟨hgone, Heap.free_sock_self p⟩

/-- The packet finds the block `received_buf` leads to, where it comes to it. -/
theorem handOn_tjuHandlePacket {a : EndState} (hm : k.heap.sock p = .live m)
    (hload : k.heap.load m = c.sock) (hfreed : c.freed = false)
    (hthere : ¬ (Appends c.sock pkt ∧
      (k.heap.receivedBufs m.ptrs.receivedBufs).Stale m.ptrs.receivedBuf))
    (h : packetStep c.toEndState pkt = .ret a) : ∃ k' packets status,
      k.handOn host pkt (.tjuHandlePacket, p) = .ret (k', packets, status) ∧
        a.handed = c.handed ++ packets ∧ k'.Shows p { c with toEndState := a } := by
  obtain ⟨⟨s, packets⟩, hs, hret⟩ := Outcome.bind_eq_ret.mp h
  obtain rfl := Outcome.ret.inj hret
  obtain ⟨happends, hstale, -⟩ | ⟨-, ⟨arena, b⟩, huse⟩ := packetUse_cases pkt c.sock
    (k.heap.receivedBufs m.ptrs.receivedBufs) m.ptrs.receivedBuf
  · exact absurd ⟨happends, hstale⟩ hthere
  · rw [← hload] at hs huse
    have hrun : k.heap.onSockUsing p (packetUse pkt) (fun s => TrivalTcp.tjuHandlePacket s pkt) =
        .ret (k.heap.storeMoved p m.ptrs arena b s, packets) :=
      Heap.onSockUsing_eq_ret.mpr ⟨m, arena, b, s, hm, huse, hs, rfl⟩
    rw [handOn, hrun]
    exact ⟨_, _, _, rfl, rfl, .inl ⟨hfreed, _, Heap.storeMoved_sock_self _ _ _ _ _,
      Heap.load_storeMoved_self _ _ _ _ _⟩⟩

/-- **What a packet does to a connection is what `onTCPPocket` does** on a host that finds the
connection in its tables, and the block its `received_buf` leads to. -/
theorem onTCPPocket_conn {l i : Fin maxSockSize} {d : Conn} (hlen : headerLen ≤ pkt.length)
    (hcheck : tcpCheck (bufToPacket pkt) = true)
    (hl : tableIndex (calHash (hostIp host) (getDst pkt) 0 0) = some l)
    (hi : tableIndex (addrHash (pktAddrs host pkt).1 (pktAddrs host pkt).2) = some i)
    (hp : (if k.manager.isServer then k.manager.establishedQueue i else k.manager.connectSock i) =
      some p)
    (hm : k.heap.sock p = .live m) (hload : k.heap.load m = c.sock)
    (hthere : ¬ (k.heap.receivedBufs m.ptrs.receivedBufs).Stale m.ptrs.receivedBuf)
    (hconn : c.sock.state ≠ .synSent) (hawake : c.sleep = none) (hfreed : c.freed = false)
    (hpocket : c.pocket pkt = .ret d) (hrest : d.rest = .ret c') : ∃ k' packets status,
      k.onTCPPocket host pkt = .ret (k', packets, status) ∧ c'.handed = c.handed ++ packets ∧
        k'.Shows p c' := by
  have hstate : m.fields.state = c.sock.state := congrArg (fun s => s.state) hload
  have hreceiver : k.receiver host pkt = .ret (some (connHandler c.sock.state pkt, p)) := by
    rw [receiver, if_neg (Nat.not_lt.mpr hlen), if_neg (not_not.mpr hcheck), hl, hi, ← hstate]
    exact choose_conn host hp hm (.inr (.inr (hstate ▸ hconn)))
  rw [onTCPPocket, hreceiver, Outcome.ret_bind, connHandler]
  rw [Conn.pocket, hawake, if_neg (by decide), if_neg (Nat.not_lt.mpr hlen),
    if_neg (not_not.mpr hcheck), hfreed, if_neg (by decide)] at hpocket
  by_cases hclose : isFin pkt = true ∨ c.sock.state ≠ .established
  · rw [if_pos hclose] at hpocket ⊢
    obtain rfl := Outcome.ret.inj hpocket
    exact handOn_tcpStateClose hm hload (Conn.stateClose_rest hawake hfreed hrest)
  · rw [if_neg hclose] at hpocket ⊢
    obtain ⟨a, ha, hret⟩ := Outcome.bind_eq_ret.mp hpocket
    obtain rfl := Outcome.ret.inj hret
    obtain rfl := Outcome.ret.inj hrest
    obtain ⟨k', packets, status, hhand, hhanded, hshows⟩ :=
      handOn_tjuHandlePacket hm hload hfreed (fun h => hthere h.2) ha
    rw [hawake, hfreed] at hshows
    exact ⟨k', packets, status, hhand, hhanded, hshows⟩

end Kernel

/-! ## On a wire -/

namespace Wire

variable (w : Wire Conn) (y : Side)

/-- The end at `y` has become `c`, and what it has newly handed on is on its way. -/
def progress (c : Conn) : Wire Conn := w.put y c (c.handed.drop (w.ends y).handed.length)

variable {w y}

theorem progress_eq {c : Conn} {packets : List Buf} (h : c.handed = (w.ends y).handed ++ packets) :
    w.progress y c = w.put y c packets := by
  rw [progress, h, List.drop_left]

@[simp] theorem progress_ends_self (w : Wire Conn) (y : Side) (c : Conn) :
    (w.progress y c).ends y = c := put_ends_self _ _ _ _

@[simp] theorem progress_ends_other (w : Wire Conn) (y : Side) (c : Conn) :
    (w.progress y c).ends y.other = w.ends y.other := put_ends_other _ _ _ _

/-- Seen from the end that has not moved. -/
@[simp] theorem progress_other_ends (w : Wire Conn) (y : Side) (c : Conn) :
    (w.progress y.other c).ends y = w.ends y := put_other_ends _ _ _ _

end Wire

end TrivalTcp
