import TrivalTcp.Handshake.Recovery
import TrivalTcp.Kernel.Kernel
import TrivalTcp.Transfer.Forged

/-!
# Handshake/OldPackets — packets of the handshake that come again later

Once `tcp_connect` and `tcp_accept` have returned, a packet of the handshake is processed by
`tju_handle_packet`, like any other.  The handshake numbers its packets in its own way, and the
transfer starts again at 0.  `oldPacket_iff` says which packet does harm: the ACK that completed the
handshake, whose sequence number becomes `base`.  The harm is the sender's: the bytes that arrive are
still the bytes that were sent (`oldPacket_delivery`).
-/

namespace TrivalTcp

/-! ## Packets without data at an established socket -/

/-- The transfer stands where it stood. -/
structure SameTransfer (s t : TjuTcp) : Prop where
  base : t.base = s.base
  nextseq : t.nextseq = s.nextseq
  expectSeq : t.expectSeq = s.expectSeq
  received : t.receivedBuf = s.receivedBuf

/-- **Without data, only an ACK can change anything**: its sequence number becomes `base`. -/
theorem sameTransfer_handled (s : TjuTcp) {pkt : Buf} (hp : payload pkt = []) :
    SameTransfer s (handled s pkt).1 ↔ ¬ (getFlags pkt = Flag.ack ∧ getSeq pkt ≠ s.base) := by
  by_cases hack : getFlags pkt = Flag.ack
  · obtain ⟨_, _, _, heq⟩ := handled_ack s hack
    rw [heq, hp, List.append_nil]
    refine ⟨fun h hne => hne.2 h.base, fun h => ⟨?_, rfl, rfl, rfl⟩⟩
    exact not_not.mp fun hne => h ⟨hack, hne⟩
  · have hzero : (.ofNat ([] : Buf).length : UInt32) = 0 := rfl
    refine iff_of_true ?_ fun h => hack h.1
    dsimp only [handled]
    rw [if_neg hack, hp, List.append_nil, hzero, UInt32.add_zero]
    split_ifs
    all_goals exact ⟨rfl, rfl, rfl, rfl⟩

/-! ## The connection -/

/-- `tcp_accept` on a socket: `copied` is the socket as the call found it, `s` as it is when the
call returns.  What the connection has from the one and what it has from the other is as
`Kernel.tcpAcceptBegin` and `Kernel.tcpAcceptEnd` have it; no handshake comes to a buffer. -/
def tcpAccept (copied s : TjuTcp) (junk : TjuSockAddr) : Outcome TjuTcp :=
  if sockqueueIsEmpty s.acceptQueue then
    .blocked
  else
    sockqueuePop s.acceptQueue >>= fun (acceptQueue, sock, _) =>
      .ret (Kernel.acceptConn
        { s.setAcceptQueue acceptQueue with
          toSocketFields := copied.toSocketFields
          sendingBuf := copied.sendingBuf
          receivedBuf := copied.receivedBuf }
        s.bindAddr ((sock.bind fun c => c.bindAddr).getD junk))

/-- **A connection completed** through `tcp_connect` and `tcp_accept`. -/
structure Connection (serverAddr clientAddr : TjuSockAddr) where
  /-- The handshake when `tcp_accept` was called. -/
  called : Pair
  /-- The handshake when both calls return. -/
  pair : Pair
  client : TjuTcp
  conn : TjuTcp
  junk : TjuSockAddr
  reachable : Reachable (pairStep serverAddr clientAddr) (PairStart serverAddr clientAddr) called
  later : ∃ es, run (pairStep serverAddr clientAddr) called es = .ret pair
  connect : tcpConnectEnd pair.client = .ret client
  accept : tcpAccept called.server pair.server junk = .ret conn

/-- A connection's two ends. -/
def connectionLink (client conn : TjuTcp) : Link
  | .client => .start client
  | .server => .start conn

section Connection

variable {serverAddr clientAddr : TjuSockAddr}

def Connection.link (o : Connection serverAddr clientAddr) : Link := connectionLink o.client o.conn

theorem Connection.pairOk (o : Connection serverAddr clientAddr) :
    PairOk serverAddr clientAddr o.pair := by
  obtain ⟨es, hrun⟩ := o.later
  exact PairOk.of_reachable (o.reachable.after hrun)

/-- A waiting client's call does not return. -/
theorem PairOk.completed {w : Pair} (h : PairOk serverAddr clientAddr w) {s : TjuTcp}
    (hs : tcpConnectEnd w.client = .ret s) :
    Completed w.client ∧ s = ((w.client.setExpectSeq 0).setBase 0).setNextseq 0 := by
  rw [tcpConnectEnd] at hs
  split_ifs at hs with hest
  refine ⟨h.client.resolve_left fun hc => ?_, (Outcome.ret.inj hs).symm⟩
  nomatch hc.state.symm.trans hest

/-- **The two ends are a link at establishment.** -/
theorem Connection.linkStart (o : Connection serverAddr clientAddr) : LinkStart o.link := by
  intro x
  cases x with
  | client =>
    obtain ⟨hc, hclient⟩ := o.pairOk.completed o.connect
    refine ⟨o.client, ?_, ?_, rfl⟩
    · rw [hclient]
      exact ⟨hc.state, rfl, rfl, rfl, hc.sending, hc.received⟩
    · rw [hclient]
      exact hc.size
  | server =>
    have hcalled := (PairOk.of_reachable o.reachable).server
    have hserver := o.pairOk.server
    have haccept := o.accept
    rw [tcpAccept] at haccept
    split_ifs at haccept
    obtain ⟨_, -, hret⟩ := Outcome.bind_eq_ret.mp haccept
    have hconn := (Outcome.ret.inj hret).symm
    refine ⟨o.conn, ?_, ?_, rfl⟩
    · rw [hconn]
      exact ⟨rfl, rfl, rfl, rfl, hcalled.sending, hcalled.received⟩
    · rw [hconn]
      exact hserver.size

end Connection

/-- A handshake between two sockets in zeroed memory, run to its end, and what follows. -/
def afterHandshake {α : Type} (f : Pair → TjuTcp → TjuTcp → Outcome α) : Outcome α :=
  run (pairStep sampleServer (sampleClient false)) samplePair
    [.deliverServer 0, .deliverClient 0, .deliverServer 1] >>= fun w =>
  tcpConnectEnd w.client >>= fun client => tcpAccept w.server w.server default >>= f w client

theorem exists_connection {α : Type} {f : Pair → TjuTcp → TjuTcp → Outcome α} {a : α}
    (h : afterHandshake f = .ret a) :
    ∃ o : Connection sampleServer (sampleClient false), f o.pair o.client o.conn = .ret a := by
  obtain ⟨w, hw, h⟩ := Outcome.bind_eq_ret.mp h
  obtain ⟨client, hclient, h⟩ := Outcome.bind_eq_ret.mp h
  obtain ⟨conn, hconn, h⟩ := Outcome.bind_eq_ret.mp h
  have hreach := Reachable.after (.init pairStart_samplePair) hw
  exact ⟨⟨w, w, client, conn, default, hreach, ⟨[], rfl⟩, hclient, hconn⟩, h⟩

/-! ## What comes again -/

/-- The packets of the handshake an end was sent. -/
def oldPackets (w : Pair) : Side → List Buf
  | .client => w.toClient
  | .server => w.toServer

/-- What can happen to the connection. -/
inductive OldEvent where
  | link (e : LinkEvent)
  /-- An end is given the `n`-th packet of the handshake it was sent. -/
  | replay (x : Side) (n : ℕ)

def oldStep (w : Pair) (l : Link) : OldEvent → Outcome Link
  | .link e => linkStep l e
  | .replay x n =>
    match (oldPackets w x)[n]? with
    | none => .blocked
    | some pkt => packetStep (l x) pkt >>= fun a => .ret (Function.update l x a)

/-- If a packet of the handshake comes again, it is processed and changes nothing. -/
def Undisturbed (w : Pair) (l : Link) (e : OldEvent) : Prop :=
  ∀ x n pkt, e = .replay x n → (oldPackets w x)[n]? = some pkt →
    ∃ l', oldStep w l e = .ret l' ∧ SameTransfer (l x).sock (l' x).sock

/-- The packet that comes again is an ACK, and its sequence number is not `base`. -/
def ObeysOldAck (w : Pair) (l : Link) (e : OldEvent) : Prop :=
  ∃ x n pkt, e = .replay x n ∧ (oldPackets w x)[n]? = some pkt ∧
    getFlags pkt = Flag.ack ∧ getSeq pkt ≠ (l x).sock.base

theorem obeysOldAck_replay (w : Pair) (l : Link) (x : Side) (n : ℕ) :
    ObeysOldAck w l (.replay x n) ↔
      ∃ pkt ∈ (oldPackets w x)[n]?, getFlags pkt = Flag.ack ∧ getSeq pkt ≠ (l x).sock.base := by
  constructor
  · rintro ⟨_, _, pkt, he, hpkt, hack⟩
    obtain ⟨rfl, rfl⟩ := OldEvent.replay.inj he
    exact ⟨pkt, hpkt, hack⟩
  · exact fun ⟨pkt, hpkt, hack⟩ => ⟨x, n, pkt, rfl, hpkt, hack⟩

instance (w : Pair) (l : Link) (e : OldEvent) : Decidable (ObeysOldAck w l e) :=
  match e with
  | .link _ => .isFalse fun ⟨_, _, _, he, _⟩ => OldEvent.noConfusion he
  | .replay x n => decidable_of_iff' _ (obeysOldAck_replay w l x n)

section Replay

variable {serverAddr clientAddr : TjuSockAddr} {w : Pair}

/-- The packets of a handshake carry no data. -/
theorem PairOk.old (h : PairOk serverAddr clientAddr w) {x : Side} {pkt : Buf}
    (hpkt : pkt ∈ oldPackets w x) : Sized pkt ∧ payload pkt = [] := by
  cases x with
  | client =>
    obtain ⟨_, _, hbuilt⟩ := h.toClient pkt hpkt
    exact ⟨hbuilt.sized, hbuilt.payload⟩
  | server =>
    obtain ⟨_, _, -, hbuilt⟩ := h.toServer pkt hpkt
    exact ⟨hbuilt.sized, hbuilt.payload⟩

/-- **What a packet that comes again does.** -/
theorem oldStep_replay {l : Link} {x : Side} {n : ℕ} {pkt : Buf} (hsized : Sized pkt)
    (hpkt : (oldPackets w x)[n]? = some pkt) : ∃ l', oldStep w l (.replay x n) = .ret l' ∧
      (l' x).sock = (handled (l x).sock pkt).1 := by
  rw [oldStep, hpkt]
  dsimp only
  rw [packetStep_eq hsized]
  exact ⟨_, rfl, by rw [Function.update_self]⟩

/-- **One packet that comes again** leaves the transfer alone exactly when it is not an ACK with
another sequence number than `base`. -/
theorem undisturbed_iff (h : PairOk serverAddr clientAddr w) (l : Link) (e : OldEvent) :
    Undisturbed w l e ↔ ¬ ObeysOldAck w l e := by
  constructor
  · rintro hsame ⟨x, n, pkt, rfl, hpkt, hbad⟩
    obtain ⟨hsized, hnil⟩ := h.old (List.mem_of_getElem? hpkt)
    obtain ⟨l', hstep, htransfer⟩ := hsame x n pkt rfl hpkt
    obtain ⟨l'', hstep', hsock⟩ := oldStep_replay (l := l) hsized hpkt
    obtain rfl := Outcome.ret.inj (hstep.symm.trans hstep')
    rw [hsock] at htransfer
    exact (sameTransfer_handled _ hnil).mp htransfer hbad
  · rintro hgood x n pkt rfl hpkt
    obtain ⟨hsized, hnil⟩ := h.old (List.mem_of_getElem? hpkt)
    obtain ⟨l', hstep, hsock⟩ := oldStep_replay (l := l) hsized hpkt
    refine ⟨l', hstep, ?_⟩
    rw [hsock]
    exact (sameTransfer_handled _ hnil).mpr fun hbad => hgood ⟨x, n, pkt, rfl, hpkt, hbad⟩

/-- **Exactly when packets of the handshake do no harm.**  In every run of a connection completed
through `tcp_connect` and `tcp_accept`, packets of its handshake that come again change nothing **if
and only if** none of them is an ACK with another sequence number than `base` then has. -/
theorem oldPacket_iff (o : Connection serverAddr clientAddr) (es : List OldEvent) :
    EveryStep (oldStep o.pair) (Undisturbed o.pair) o.link es ↔
      EveryStep (oldStep o.pair) (fun l e => ¬ ObeysOldAck o.pair l e) o.link es :=
  everyStep_congr (I := fun _ => True) (fun _ _ _ _ _ => trivial)
    (fun l e _ => undisturbed_iff o.pairOk l e) trivial es

end Replay

/-- While bytes are sent and acknowledged, the SYN and the SYN|ACK come again, and nothing changes. -/
theorem oldPacket_iff_syns : ∃ o : Connection sampleServer (sampleClient false),
    EveryStep (oldStep o.pair) (Undisturbed o.pair) o.link
      [.link (.call .server (.send [7])), .link (.call .server .stream),
        .link (.deliver .client 0), .replay .client 0, .link (.deliver .server 0),
        .replay .server 0] := by
  have hrun : (afterHandshake fun w client conn =>
      .ret (decide (EveryStep (oldStep w) (fun l e => ¬ ObeysOldAck w l e) (connectionLink client conn)
        [.link (.call .server (.send [7])), .link (.call .server .stream),
          .link (.deliver .client 0), .replay .client 0, .link (.deliver .server 0),
          .replay .server 0]))) = .ret true := by decide
  obtain ⟨o, ho⟩ := exists_connection hrun
  exact ⟨o, (oldPacket_iff o _).mpr (of_decide_eq_true (Outcome.ret.inj ho))⟩

/-- **The ACK of the handshake comes again**: the server has sent one byte, which has been
acknowledged, and `base` goes from 1 to 23. -/
theorem oldPacket_disturbs :
    ∃ (o : Connection sampleServer (sampleClient false)) (es : List LinkEvent)
    (l l' : Link), run linkStep o.link es = .ret l ∧ oldStep o.pair l (.replay .server 1) = .ret l' ∧
      (l .server).sock.base = 1 ∧ (l .server).sock.nextseq = 1 ∧ (l' .server).sock.base = 23 := by
  let es : List LinkEvent := [.call .server (.send [7]), .call .server .stream, .deliver .client 0,
    .deliver .server 0]
  have hrun : (afterHandshake fun w client conn =>
      run linkStep (connectionLink client conn) es >>= fun l =>
      oldStep w l (.replay .server 1) >>= fun l' => .ret
        ((l .server).sock.base, (l .server).sock.nextseq, (l' .server).sock.base)) =
      .ret (1, 1, 23) := by decide
  obtain ⟨o, ho⟩ := exists_connection hrun
  obtain ⟨l, hl, ho⟩ := Outcome.bind_eq_ret.mp ho
  obtain ⟨l', hl', hret⟩ := Outcome.bind_eq_ret.mp ho
  obtain ⟨hbase, hnext, hbase'⟩ : _ ∧ _ ∧ _ := by simpa using hret
  exact ⟨o, es, l, l', hl, hl', hbase, hnext, hbase'⟩

/-- **To an end, a packet of the handshake that comes again is a packet without data**, and it may as
well have been made up. -/
theorem oldStep_forged (h : PairOk serverAddr clientAddr w) {l l' : Link} {e : OldEvent}
    (hs : oldStep w l e = .ret l') : ∃ e', forgedStep l e' = .ret l' := by
  cases e with
  | link e => exact ⟨.link e, hs⟩
  | replay x n =>
    rw [oldStep] at hs
    split at hs
    next => contradiction
    next pkt hpkt =>
      obtain ⟨hsized, hnil⟩ := h.old (List.mem_of_getElem? hpkt)
      exact ⟨.forge x pkt, (if_pos (hsized.hollow hnil)).trans hs⟩

/-- **From the handshake on, what arrives is what was sent.**  On a connection completed through
`tcp_connect` and `tcp_accept`, whatever packets of the handshake come again, what an established end
has returned to its caller, followed by what it still holds, is exactly the first `expect_seq` bytes
the other end has sent. -/
theorem oldPacket_delivery (o : Connection serverAddr clientAddr) {es : List OldEvent} {l : Link}
    (hrun : run (oldStep o.pair) o.link es = .ret l) (x : Side)
    (hx : (l x).sock.state = .established) :
    (l x).sock.expectSeq ≤ (l x.other).sock.nextseq ∧
      (l x).returned ++ (l x).sock.receivedBuf
        = (l x.other).copied.take (l x).sock.expectSeq.toNat := by
  have hreach : Reachable forgedStep LinkStart l := by
    refine run_invariant (fun e _ s s' hs hstep => ?_) (.init o.linkStart) hrun
    obtain ⟨e', he'⟩ := oldStep_forged o.pairOk hstep
    exact hs.step e' he'
  exact forged_delivery hreach x hx

/-- Between two bytes of the server, the ACK of the handshake comes again: both bytes arrive. -/
theorem oldPacket_delivery_two :
    ∃ (o : Connection sampleServer (sampleClient false)) (es : List OldEvent) (l : Link),
    run (oldStep o.pair) o.link es = .ret l ∧ 2 ≤ (l .server).sock.nextseq ∧
      [] ++ [7, 8] = (l .server).copied.take 2 := by
  let es : List OldEvent := [.link (.call .server (.send [7])), .link (.call .server .stream),
    .link (.deliver .client 0), .replay .server 1, .link (.call .server (.send [8])),
    .link (.call .server .stream), .link (.deliver .client 1)]
  have hrun : (afterHandshake fun w client conn =>
      run (oldStep w) (connectionLink client conn) es >>= fun l => .ret
        ((l .client).sock.state, (l .client).returned, (l .client).sock.receivedBuf,
          (l .client).sock.expectSeq)) = .ret (.established, [], [7, 8], 2) := by decide
  obtain ⟨o, ho⟩ := exists_connection hrun
  obtain ⟨l, hl, hret⟩ := Outcome.bind_eq_ret.mp ho
  obtain ⟨hst, hret', hbuf, hexp⟩ : _ ∧ _ ∧ _ ∧ _ := by simpa using hret
  obtain ⟨hle, hbytes⟩ := oldPacket_delivery o hl .client hst
  rw [hret', hbuf, hexp] at hbytes
  exact ⟨o, es, l, hl, hexp ▸ hle, hbytes⟩

end TrivalTcp
