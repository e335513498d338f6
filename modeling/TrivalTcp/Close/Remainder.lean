import TrivalTcp.Close.Justified
import TrivalTcp.Handshake.Agreement

/-!
# Close/Remainder — what a closing end has not sent

`tcp_close` sends its FIN|ACK at once and does not wait for the sender thread: what is in
`sending_buf` then is behind the FIN|ACK, if it is sent at all, and the other end does not take data
any more when it comes.  Everything before it is ahead of the FIN|ACK on a channel that keeps order.
So the other end has, when it leaves `ESTABLISHED`, what was accepted by `tcp_send` up to the rest
that was in `sending_buf`.

The chunks of the sender thread are sent here: where one does not fit into a packet or finds the
window closed, it is gone, closing or not.
-/

namespace TrivalTcp

open InOrder

/-! ## The system -/

/-- Two ends, one of which may have called `tcp_close`. -/
structure Ending where
  wire : Wire Conn
  /-- The end that closes, as `tcp_close` found it. -/
  atClose : Option EndState

/-- What can happen.  The closer sends, the other end receives. -/
inductive EndingEvent where
  | send (buffer : Buf)
  | stream
  /-- The armed timer of the closer runs out. -/
  | expire
  | close
  | recv (len : ℕ)
  /-- An end is given the first packet on its way to it. -/
  | deliver (y : Side)
  /-- A sleep of `tcp_state_close` is over. -/
  | wake (y : Side)

/-- A function of an end that is not about closing. -/
def Conn.call (c : Conn) (f : Call) : Outcome Conn :=
  if c.freed then
    .undef
  else
    callStep c.toEndState f >>= fun a => .ret { c with toEndState := a }

/-- The end at `y` has become `c`. -/
def Ending.progress (w : Ending) (y : Side) (c : Conn) : Ending :=
  { w with wire := w.wire.progress y c }

/-- The closer is at `x`.  Its application is in `tcp_close` once it has called it; its sender
thread goes on. -/
def endingStep (x : Side) (w : Ending) : EndingEvent → Outcome Ending
  | .send buffer =>
    if w.atClose.isSome then
      .blocked
    else
      (w.wire.ends x).call (.send buffer) >>= fun c => .ret (w.progress x c)
  | .stream =>
    if w.atClose.isSome ∨ ChunkFits (w.wire.ends x).sock then
      (w.wire.ends x).call .stream >>= fun c => .ret (w.progress x c)
    else
      .blocked
  | .expire =>
    if (w.wire.ends x).sock.rttTimer.armed ∧ ¬ GivesUp (w.wire.ends x).sock then
      (w.wire.ends x).call .timeout >>= fun c => .ret (w.progress x c)
    else
      .blocked
  | .close =>
    if w.atClose.isSome then
      .blocked
    else
      (w.wire.ends x).close >>= fun c =>
        .ret { w.progress x c with atClose := some (w.wire.ends x).toEndState }
  | .recv len => (w.wire.ends x.other).call (.recv len) >>= fun c => .ret (w.progress x.other c)
  | .deliver y =>
    match w.wire.channel y with
    | [] => .blocked
    | pkt :: rest => (w.wire.ends y).pocket pkt >>= fun c =>
        .ret { w with wire := (w.wire.setChannel y rest).progress y c }
  | .wake y => (w.wire.ends y).wake >>= fun c => .ret (w.progress y c)

/-- Two established ends, no timer running and nothing on its way. -/
structure EndingStart (w : Ending) : Prop where
  pipe : PipeStart ⟨fun y => (w.wire.ends y).toEndState, w.wire.channel⟩
  sleep : ∀ y, (w.wire.ends y).sleep = none
  atClose : w.atClose = none

/-! ## Before `tcp_close` -/

/-- **Nothing that was accepted is lost**: it has been sent, or it is in `sending_buf`. -/
def Accounted (a : EndState) : Prop := a.copied ++ a.sock.sendingBuf = a.accepted

section Accounted

variable {a a' : EndState}

theorem Accounted.send (h : Accounted a) {buffer : Buf} (hs : callStep a (.send buffer) = .ret a') :
    Accounted a' := by
  rcases callStep_send_eq_ret hs with rfl | rfl
  · exact (List.append_assoc _ _ _).symm.trans (congrArg (· ++ buffer) h)
  · exact h

theorem Accounted.stream (h : Accounted a) (hfits : ChunkFits a.sock)
    (hs : callStep a .stream = .ret a') :
    Accounted a' := by
  obtain ⟨r, hstream, rfl⟩ := callStep_stream_eq_ret hs
  by_cases hne : a.sock.sendingBuf = []
  · rw [tcpSendStream_empty hne] at hstream
    obtain rfl := Outcome.ret.inj hstream
    change a.copied ++ [] ++ a.sock.sendingBuf = a.accepted
    rw [List.append_nil]
    exact h
  · obtain ⟨-, _, _, _, rfl⟩ := tcpSendStream_chunk hne (hfits.resolve_left hne).2 hstream
    exact (List.append_nil _).trans h

/-- A timer that runs out, short of giving up, leaves the state and what is to be sent. -/
theorem timeout_leaves (hgive : ¬ GivesUp a.sock) (hs : callStep a .timeout = .ret a') :
    a'.sock.state = a.sock.state ∧ a'.sock.sendingBuf = a.sock.sendingBuf ∧
      a'.copied = a.copied ∧ a'.accepted = a.accepted := by
  obtain ⟨s, packets, hexp, rfl⟩ := callStep_timeout_eq_ret hs
  rcases timerExpiry_frame hexp with ⟨hg, -⟩ | ⟨-, _, _, _, _, _, _, _, rfl⟩
  · exact absurd hg hgive
  · exact ⟨rfl, rfl, rfl, rfl⟩

theorem Accounted.timeout (h : Accounted a) (hgive : ¬ GivesUp a.sock)
    (hs : callStep a .timeout = .ret a') :
    Accounted a' := by
  obtain ⟨-, hbuf, hcopied, haccepted⟩ := timeout_leaves hgive hs
  rw [Accounted, hbuf, hcopied, haccepted]
  exact h

theorem Accounted.ack (h : Accounted a) {p : Buf} (hp : ToSender p)
    (hs : packetStep a p = .ret a') :
    Accounted a' := by
  obtain ⟨src, seq, hbuilt⟩ := hp
  rw [packetStep_eq hbuilt.sized] at hs
  obtain rfl := Outcome.ret.inj hs
  obtain ⟨_, _, _, hack⟩ := handled_ack a.sock hbuilt.flags
  rw [Accounted, hack]
  exact h

end Accounted

/-! ## The three stretches of a run -/

/-- Before `tcp_close`. -/
structure Flowing (x : Side) (w : Wire Conn) : Prop where
  pipe : PipeOk (w.ends x).toEndState (w.ends x.other).toEndState (w.channel x.other) (w.channel x)
  accounted : Accounted (w.ends x).toEndState
  sleep : ∀ y, (w.ends y).sleep = none

/-- **The FIN|ACK is on its way**, and all that `tcp_close` found sent is ahead of it. -/
structure Announced (a : EndState) (b : Conn) (toReceiver : List Buf) : Prop where
  receiving : Receiving b.toEndState
  sleep : b.sleep = none
  channel : ∃ ahead fin behind, toReceiver = ahead ++ fin :: behind ∧ (∀ p ∈ ahead, ToReceiver p) ∧
    getFlags fin = Flag.finAck ∧ tcpCheck (bufToPacket fin) = true ∧
    drain (received b.toEndState) (ahead.filterMap slice) = a.copied
  short : a.copied.length < 2 ^ 32
  accounted : Accounted a

/-- **The FIN|ACK has arrived.** -/
structure Arrived (a : EndState) (b : Conn) : Prop where
  left : b.sock.state ≠ .established
  received : received b.toEndState ++ a.sock.sendingBuf = a.accepted

/-- After `tcp_close`, which found the closer as `a`. -/
def Leaving (x : Side) (a : EndState) (w : Wire Conn) : Prop :=
  Announced a (w.ends x.other) (w.channel x.other) ∨ Arrived a (w.ends x.other)

/-- What holds along a run. -/
def EndingOk (x : Side) (w : Ending) : Prop :=
  match w.atClose with
  | none => Flowing x w.wire
  | some a => Leaving x a w.wire

/-! ## Steps of the closer -/

section Closer

variable {x : Side} {w : Wire Conn} {c : Conn} {a : EndState}

theorem Conn.call_eq_ret {c c' : Conn} {f : Call} (h : c.call f = .ret c') :
    ∃ a, callStep c.toEndState f = .ret a ∧ c' = { c with toEndState := a } := by
  rw [Conn.call] at h
  split_ifs at h
  obtain ⟨a, ha, hret⟩ := Outcome.bind_eq_ret.mp h
  exact ⟨a, ha, (Outcome.ret.inj hret).symm⟩

/-- The closer goes on before `tcp_close`. -/
theorem Flowing.closer (h : Flowing x w) (hsleep : c.sleep = none)
    (haccounted : Accounted c.toEndState) (toSender : List Buf)
    (hok : SenderOk (w.ends x).toEndState c.toEndState (w.ends x.other).toEndState
      (w.channel x.other) toSender) : Flowing x ((w.setChannel x toSender).progress x c) := by
  obtain ⟨packets, hhanded, hpipe⟩ := hok
  rw [Wire.progress_eq (w := w.setChannel x toSender) hhanded]
  refine ⟨?_, ?_, fun y => ?_⟩
  · simpa using hpipe
  · rw [Wire.put_ends_self]
    exact haccounted
  · rcases x.eq_or_other y with rfl | rfl
    · rw [Wire.put_ends_self]
      exact hsleep
    · rw [Wire.put_ends_other]
      exact h.sleep x.other

/-- The other end goes on before the FIN|ACK is sent. -/
theorem Flowing.peer (h : Flowing x w) (hsleep : c.sleep = none) (toReceiver : List Buf)
    (hok : ReceiverOk (w.ends x).toEndState (w.ends x.other).toEndState c.toEndState toReceiver
      (w.channel x)) : Flowing x ((w.setChannel x.other toReceiver).progress x.other c) := by
  obtain ⟨packets, hhanded, hpipe⟩ := hok
  rw [Wire.progress_eq (w := w.setChannel x.other toReceiver) hhanded]
  refine ⟨?_, ?_, fun y => ?_⟩
  · simpa using hpipe
  · rw [Wire.put_other_ends]
    exact h.accounted
  · rcases x.eq_or_other y with rfl | rfl
    · rw [Wire.put_other_ends]
      exact h.sleep y
    · rw [Wire.put_ends_self]
      exact hsleep

end Closer

/-! ## Steps of the other end -/

section Peer

variable {a : EndState} {b b' : Conn} {toReceiver rest : List Buf} {p : Buf}

/-- What `tcp_state_close` does to an end changes nothing about what it has received. -/
theorem received_stateClose (b : Conn) (p : Buf) :
    received (b.stateClose p).toEndState = received b.toEndState := by
  rcases b.stateClose_cases p with ⟨-, -, heq⟩ | ⟨-, -, heq⟩ | ⟨-, -, heq⟩ | ⟨-, -, heq⟩ | heq
  all_goals rw [heq]
  all_goals rfl

/-- More may be sent behind the FIN|ACK. -/
theorem Announced.behind (h : Announced a b toReceiver) (packets : List Buf) :
    Announced a b (toReceiver ++ packets) := by
  obtain ⟨ahead, fin, behind, rfl, hchannel⟩ := h.channel
  refine ⟨h.receiving, h.sleep, ⟨ahead, fin, behind ++ packets, ?_, hchannel⟩, h.short, h.accounted⟩
  rw [List.append_assoc, List.cons_append]

theorem Announced.recv (h : Announced a b toReceiver) {c : EndState} {len : ℕ}
    (hs : callStep b.toEndState (.recv len) = .ret c) :
    Announced a { b with toEndState := c } toReceiver := by
  obtain ⟨hreceiving, hgot, -⟩ := h.receiving.recv hs
  obtain ⟨ahead, fin, behind, hsplit, hahead, hflags, hcheck, hdrain⟩ := h.channel
  refine ⟨hreceiving, h.sleep, ⟨ahead, fin, behind, hsplit, hahead, hflags, hcheck, ?_⟩, h.short,
    h.accounted⟩
  rw [← hdrain, ← hgot]

/-- **A packet that is ahead of the FIN|ACK** is taken or skipped. -/
theorem Receiving.deliver {b b' : EndState} (h : Receiving b) (hp : ToReceiver p)
    (hlt : ∀ s, slice p = some s → (accept (received b) s).length < 2 ^ 32)
    (hs : packetStep b p = .ret b') :
    Receiving b' ∧ received b' = drain (received b) (slice p).toList := by
  rcases hp with ⟨src, seq, data, hbuilt⟩ | ⟨src, hbuilt⟩
  · obtain ⟨hreceiving, hgot, -⟩ :=
      h.deliver_data hbuilt (hlt _ hbuilt.slice_data) hs
    rw [hbuilt.slice_data]
    exact ⟨hreceiving, hgot⟩
  · obtain ⟨hreceiving, hgot, -⟩ := h.deliver_ack hbuilt hs
    rw [hbuilt.slice_ack]
    exact ⟨hreceiving, hgot⟩

theorem ToReceiver.passes (h : ToReceiver p) :
    getFlags p ≠ Flag.finAck ∧ tcpCheck (bufToPacket p) = true := by
  rcases h with ⟨_, _, _, hbuilt⟩ | ⟨_, hbuilt⟩
  · exact ⟨hbuilt.flags ▸ by decide, hbuilt.check⟩
  · exact ⟨hbuilt.flags ▸ by decide, hbuilt.check⟩

theorem ToSender.passes (h : ToSender p) :
    getFlags p ≠ Flag.finAck ∧ tcpCheck (bufToPacket p) = true := by
  obtain ⟨_, _, hbuilt⟩ := h
  exact ⟨hbuilt.flags ▸ by decide, hbuilt.check⟩

/-- **The other end is given the first packet on its way to it**: it goes on receiving, until the
packet is the FIN|ACK. -/
theorem Announced.deliver (h : Announced a b (p :: rest)) (hs : b.pocket p = .ret b') :
    Announced a b' rest ∨ Arrived a b' := by
  have hest := h.receiving.state
  obtain ⟨ahead, fin, behind, hsplit, hahead, hflags, hcheck, hdrain⟩ := h.channel
  cases ahead with
  | nil =>
    obtain ⟨rfl, -⟩ := List.cons.inj hsplit
    obtain ⟨-, ⟨hbad, -⟩ | ⟨-, -, rfl⟩ | ⟨-, hfin, -⟩⟩ := Conn.pocket_cases hs
    · exact absurd (hcheck.symm.trans hbad) (by decide)
    · refine .inr ⟨?_, ?_⟩
      · rw [Conn.stateClose, hest, hflags]
        intro hopen
        contradiction
      · have hgot : received b.toEndState = a.copied := hdrain
        rw [received_stateClose, hgot]
        exact h.accounted
    · rw [isFin, hflags] at hfin
      exact absurd hfin (by decide)
  | cons q ahead =>
    obtain ⟨rfl, rfl⟩ := List.cons.inj hsplit
    have hp := hahead p List.mem_cons_self
    obtain ⟨hnofin, hpasses⟩ := hp.passes
    obtain ⟨c, hc, rfl⟩ := Conn.pocket_transfer hest hnofin hpasses hs
    have hdrain' : drain (drain (received b.toEndState) (slice p).toList)
        (ahead.filterMap slice) = a.copied := by
      rw [← hdrain, ← drain_append]
      congr 1
      cases hslice : slice p with
      | none => exact (List.filterMap_cons_none hslice).symm
      | some s => exact (List.filterMap_cons_some hslice).symm
    have hlt : ∀ s, slice p = some s → (accept (received b.toEndState) s).length < 2 ^ 32 := by
      intro s hslice
      rw [hslice] at hdrain'
      have hle := (prefix_drain (accept (received b.toEndState) s) (ahead.filterMap slice)).length_le
      exact (hle.trans_eq (congrArg List.length hdrain')).trans_lt h.short
    obtain ⟨hreceiving, hgot⟩ := h.receiving.deliver hp hlt hc
    refine .inl ⟨hreceiving, h.sleep, ⟨ahead, fin, behind, rfl,
      fun r hr => hahead r (List.mem_cons_of_mem _ hr), hflags, hcheck, ?_⟩, h.short, h.accounted⟩
    exact hgot ▸ hdrain'

theorem Arrived.recv (h : Arrived a b) {c : EndState} {len : ℕ}
    (hs : callStep b.toEndState (.recv len) = .ret c) : Arrived a { b with toEndState := c } := by
  obtain ⟨hgot, -, rest, hsock⟩ := callStep_recv hs
  refine ⟨?_, ?_⟩
  · change c.sock.state ≠ .established
    rw [hsock]
    exact h.left
  · exact hgot ▸ h.received

theorem Arrived.deliver (h : Arrived a b) (hs : b.pocket p = .ret b') : Arrived a b' := by
  obtain ⟨-, ⟨-, rfl⟩ | ⟨-, -, rfl⟩ | ⟨-, -, hest, -⟩⟩ := Conn.pocket_cases hs
  · exact h
  · exact ⟨(b.goes_stateClose p).left h.left, (received_stateClose b p).symm ▸ h.received⟩
  · exact absurd hest h.left

theorem Arrived.wake (h : Arrived a b) (hs : b.wake = .ret b') : Arrived a b' := by
  rcases Conn.wake_cases hs with ⟨-, rfl⟩ | ⟨-, rfl⟩
  · exact ⟨nofun, h.received⟩
  · exact ⟨h.left, h.received⟩

end Peer

/-! ## Both together -/

section Step

variable {x : Side} {w w' : Ending} {e : EndingEvent} {a : EndState}

/-- Nothing the closer does changes what the other end will receive. -/
theorem Leaving.closer {w : Wire Conn} (h : Leaving x a w) (c : Conn) :
    Leaving x a (w.progress x c) := by
  rw [Leaving, Wire.progress_ends_other, Wire.progress, Wire.put_channel_other]
  exact h.imp_left fun hann => hann.behind _

/-- **`tcp_close` is called**: its FIN|ACK is behind everything sent so far. -/
theorem Flowing.close (h : Flowing x w.wire) {c : Conn} (hs : (w.wire.ends x).close = .ret c) :
    EndingOk x { w.progress x c with atClose := some (w.wire.ends x).toEndState } := by
  obtain ⟨-, rfl⟩ := Conn.close_eq_ret hs
  have hpipe := h.pipe
  have hfin := controlPkt_built (tcpClose (w.wire.ends x).sock).1
    (tcpClose (w.wire.ends x).sock).1.expectSeq (tcpClose (w.wire.ends x).sock).1.expectSeq
    Flag.finAck 0
  have hout := filterMap_sendToLayer3_control (tcpClose (w.wire.ends x).sock).1
    (tcpClose (w.wire.ends x).sock).1.expectSeq (tcpClose (w.wire.ends x).sock).1.expectSeq
    Flag.finAck 0
  refine .inl ?_
  dsimp only [Ending.progress]
  rw [Wire.progress_eq rfl, Wire.put_ends_other, Wire.put_channel_other]
  refine ⟨hpipe.receiving, h.sleep x.other, ⟨_, _, [], ?_, hpipe.data, hfin.flags, hfin.check,
    hpipe.balanced.drains⟩, ?_, h.accounted⟩
  · exact congrArg (w.wire.channel x.other ++ ·) hout
  · rw [← hpipe.sending.nextseq]
    exact UInt32.toNat_lt _

/-- **A step before `tcp_close`**, or the call itself. -/
theorem Flowing.step (hopen : w.atClose = none) (h : Flowing x w.wire)
    (hs : endingStep x w e = .ret w') : EndingOk x w' := by
  have hok : ∀ {v : Ending}, v.atClose = none → Flowing x v.wire → EndingOk x v := by
    intro v hv hflow
    rw [EndingOk, hv]
    exact hflow
  have hself : w.wire.setChannel x (w.wire.channel x) = w.wire := w.wire.setChannel_self x
  have hother : w.wire.setChannel x.other (w.wire.channel x.other) = w.wire :=
    w.wire.setChannel_self x.other
  have hawake := h.sleep x
  cases e with
  | send buffer =>
    rw [endingStep, hopen, if_neg (by decide)] at hs
    obtain ⟨c, hcall, hret⟩ := Outcome.bind_eq_ret.mp hs
    obtain rfl := Outcome.ret.inj hret
    obtain ⟨a, ha, rfl⟩ := Conn.call_eq_ret hcall
    have hflow := h.closer (c := { w.wire.ends x with toEndState := a }) hawake
      (h.accounted.send ha) _ (h.pipe.send ha)
    rw [hself] at hflow
    exact hok hopen hflow
  | stream =>
    rw [endingStep, hopen] at hs
    split_ifs at hs with hguard
    obtain ⟨c, hcall, hret⟩ := Outcome.bind_eq_ret.mp hs
    obtain rfl := Outcome.ret.inj hret
    obtain ⟨a, ha, rfl⟩ := Conn.call_eq_ret hcall
    have hfits := hguard.resolve_left (by decide)
    have hflow := h.closer (c := { w.wire.ends x with toEndState := a }) hawake
      (h.accounted.stream hfits ha) _ (h.pipe.stream hfits ha)
    rw [hself] at hflow
    exact hok hopen hflow
  | expire =>
    rw [endingStep] at hs
    split_ifs at hs with hguard
    obtain ⟨c, hcall, hret⟩ := Outcome.bind_eq_ret.mp hs
    obtain rfl := Outcome.ret.inj hret
    obtain ⟨a, ha, rfl⟩ := Conn.call_eq_ret hcall
    have hest := (timeout_leaves hguard.2 ha).1.trans h.pipe.sending.state
    have hflow := h.closer (c := { w.wire.ends x with toEndState := a }) hawake
      (h.accounted.timeout hguard.2 ha) _ (h.pipe.expire hguard.1 hest ha)
    rw [hself] at hflow
    exact hok hopen hflow
  | close =>
    rw [endingStep, hopen, if_neg (by decide)] at hs
    obtain ⟨c, hclose, hret⟩ := Outcome.bind_eq_ret.mp hs
    obtain rfl := Outcome.ret.inj hret
    exact h.close hclose
  | recv len =>
    obtain ⟨c, hcall, hret⟩ := Outcome.bind_eq_ret.mp hs
    obtain rfl := Outcome.ret.inj hret
    obtain ⟨b, hb, rfl⟩ := Conn.call_eq_ret hcall
    have hflow := h.peer (c := { w.wire.ends x.other with toEndState := b }) (h.sleep x.other) _
      (h.pipe.recv hb)
    rw [hother] at hflow
    exact hok hopen hflow
  | deliver y =>
    rw [endingStep] at hs
    split at hs
    next => contradiction
    next pkt rest hchannel =>
      obtain ⟨c, hpocket, hret⟩ := Outcome.bind_eq_ret.mp hs
      obtain rfl := Outcome.ret.inj hret
      have hpipe := h.pipe
      refine hok hopen ?_
      rcases x.eq_or_other y with rfl | rfl
      · rw [hchannel] at hpipe
        have hp := hpipe.acks pkt List.mem_cons_self
        obtain ⟨a, ha, rfl⟩ := Conn.pocket_transfer hpipe.sending.state hp.passes.1 hp.passes.2
          hpocket
        exact h.closer (c := { w.wire.ends y with toEndState := a }) hawake
          (h.accounted.ack hp ha) rest (hpipe.deliver_sender ha)
      · rw [hchannel] at hpipe
        have hp := hpipe.data pkt List.mem_cons_self
        obtain ⟨b, hb, rfl⟩ := Conn.pocket_transfer hpipe.receiving.state hp.passes.1 hp.passes.2
          hpocket
        exact h.peer (c := { w.wire.ends x.other with toEndState := b }) (h.sleep x.other) rest
          (hpipe.deliver_receiver hb)
  | wake y =>
    obtain ⟨c, hwake, -⟩ := Outcome.bind_eq_ret.mp hs
    rw [Conn.wake, h.sleep y] at hwake
    contradiction

/-- **A step after `tcp_close`.** -/
theorem Leaving.step (hclosed : w.atClose = some a) (h : Leaving x a w.wire)
    (hs : endingStep x w e = .ret w') : EndingOk x w' := by
  have hok : ∀ {v : Ending}, v.atClose = some a → Leaving x a v.wire → EndingOk x v := by
    intro v hv hleaving
    rw [EndingOk, hv]
    exact hleaving
  cases e with
  | send buffer =>
    rw [endingStep, hclosed] at hs
    contradiction
  | stream =>
    rw [endingStep, hclosed, if_pos (.inl rfl)] at hs
    obtain ⟨c, -, hret⟩ := Outcome.bind_eq_ret.mp hs
    obtain rfl := Outcome.ret.inj hret
    exact hok hclosed (h.closer c)
  | expire =>
    rw [endingStep] at hs
    split_ifs at hs
    obtain ⟨c, -, hret⟩ := Outcome.bind_eq_ret.mp hs
    obtain rfl := Outcome.ret.inj hret
    exact hok hclosed (h.closer c)
  | close =>
    rw [endingStep, hclosed] at hs
    contradiction
  | recv len =>
    obtain ⟨c, hcall, hret⟩ := Outcome.bind_eq_ret.mp hs
    obtain rfl := Outcome.ret.inj hret
    obtain ⟨b, hb, rfl⟩ := Conn.call_eq_ret hcall
    refine hok hclosed ?_
    rw [Leaving, Ending.progress, Wire.progress_ends_self, Wire.progress, Wire.put_channel_self]
    exact h.imp (fun hann => hann.recv hb) fun harr => harr.recv hb
  | deliver y =>
    rw [endingStep] at hs
    split at hs
    next => contradiction
    next pkt rest hchannel =>
      obtain ⟨c, hpocket, hret⟩ := Outcome.bind_eq_ret.mp hs
      obtain rfl := Outcome.ret.inj hret
      refine hok hclosed ?_
      rcases x.eq_or_other y with rfl | rfl
      · refine Leaving.closer ?_ c
        rw [Leaving, Wire.setChannel_channel_other]
        exact h
      · rw [Leaving, hchannel] at h
        rw [Leaving, Wire.progress_ends_self, Wire.progress, Wire.put_channel_self,
          Wire.setChannel_channel_self]
        rcases h with hann | harr
        · exact hann.deliver hpocket
        · exact .inr (harr.deliver hpocket)
  | wake y =>
    obtain ⟨c, hwake, hret⟩ := Outcome.bind_eq_ret.mp hs
    obtain rfl := Outcome.ret.inj hret
    refine hok hclosed ?_
    rcases x.eq_or_other y with rfl | rfl
    · exact h.closer c
    · rw [Leaving, Ending.progress, Wire.progress_ends_self, Wire.progress, Wire.put_channel_self]
      rcases h with hann | harr
      · rw [Conn.wake, hann.sleep] at hwake
        contradiction
      · exact .inr (harr.wake hwake)

theorem endingOk_start (h : EndingStart w) : EndingOk x w := by
  obtain ⟨s, hs, -, hx⟩ := h.pipe.ends x
  have hend : (w.wire.ends x).toEndState = .start s := hx
  have hest : (w.wire.ends x).sock.state = .established := by
    rw [hend]
    exact hs.established
  rw [EndingOk, h.atClose]
  refine ⟨wireOk_start h.pipe hest, ?_, h.sleep⟩
  rw [Accounted, hend]
  exact hs.sending

/-- One step. -/
theorem EndingOk.step (h : EndingOk x w) (hs : endingStep x w e = .ret w') : EndingOk x w' := by
  rw [EndingOk] at h
  split at h
  next hopen => exact Flowing.step hopen h hs
  next a hclosed => exact Leaving.step hclosed h hs

end Step

/-- **What `tcp_close` finds in `sending_buf` is what the other end misses.**  When the other end
has left `ESTABLISHED`, it has received everything that `tcp_send` had accepted, up to what was left
in `sending_buf` when `tcp_close` was called. -/
theorem received_at_close {x : Side} {w : Ending} (h : Reachable (endingStep x) EndingStart w)
    (hleft : (w.wire.ends x.other).sock.state ≠ .established) : ∃ a, w.atClose = some a ∧
      received (w.wire.ends x.other).toEndState ++ a.sock.sendingBuf = a.accepted := by
  have hok : EndingOk x w := h.invariant (fun _ => endingOk_start) fun _ _ _ hw hs => hw.step hs
  rw [EndingOk] at hok
  split at hok
  next => exact absurd hok.pipe.receiving.state hleft
  next a hclosed =>
    rcases hok with hann | harr
    · exact absurd hann.receiving.state hleft
    · exact ⟨a, hclosed, harr.received⟩

/-- Two ends in zeroed memory with nothing between them. -/
def zeroedEnding : Ending := ⟨⟨fun _ => .start zeroedSock, fun _ => []⟩, none⟩

theorem endingStart_zeroedEnding : EndingStart zeroedEnding :=
  ⟨pipeStart_zeroedWire, fun _ => rfl, rfl⟩

/-- Two bytes are sent and a third is not when the client closes: the server gets two. -/
theorem received_at_close_two : ∃ w, Reachable (endingStep .client) EndingStart w ∧
    (w.wire.ends .server).sock.state = .closeWait ∧
      ∃ a, w.atClose = some a ∧ received (w.wire.ends .server).toEndState ++ a.sock.sendingBuf =
        a.accepted := by
  have hrun : (run (endingStep .client) zeroedEnding [.send [1, 2], .stream, .send [3], .close,
      .deliver .server, .deliver .server] >>= fun w => .ret (w.wire.ends .server).sock.state) =
      .ret .closeWait := rfl
  obtain ⟨w, hw, hret⟩ := Outcome.bind_eq_ret.mp hrun
  have hst := Outcome.ret.inj hret
  have hreach := Reachable.after (.init endingStart_zeroedEnding) hw
  refine ⟨w, hreach, hst, received_at_close hreach fun hest => ?_⟩
  nomatch hst.symm.trans hest

/-- **A byte that `tcp_send` has accepted does not arrive** when `tcp_close` comes before the sender
thread. -/
theorem not_received_at_close : ∃ w a, Reachable (endingStep .client) EndingStart w ∧
    (w.wire.ends .server).sock.state = .closeWait ∧ w.atClose = some a ∧ a.accepted = [7] ∧
      received (w.wire.ends .server).toEndState = [] := by
  have hrun : (run (endingStep .client) zeroedEnding [.send [7], .close, .deliver .server] >>=
      fun w => .ret ((w.wire.ends .server).sock.state, w.atClose.map fun a => a.accepted,
        received (w.wire.ends .server).toEndState)) = .ret (.closeWait, some [7], []) := rfl
  obtain ⟨w, hw, hret⟩ := Outcome.bind_eq_ret.mp hrun
  obtain ⟨hst, hrest⟩ := Prod.mk.inj (Outcome.ret.inj hret)
  obtain ⟨hclose, hgot⟩ := Prod.mk.inj hrest
  obtain ⟨a, ha, haccepted⟩ := Option.map_eq_some_iff.mp hclose
  exact ⟨w, a, Reachable.after (.init endingStart_zeroedEnding) hw, hst, ha, haccepted, hgot⟩

end TrivalTcp
