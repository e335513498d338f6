import TrivalTcp.Close.Close
import TrivalTcp.Transfer.Pipe
import TrivalTcp.Transfer.Replies

/-!
# Close/Justified — what the states of a closing connection say about the other end

`tcp_state_close` takes any ACK for the ACK of its FIN|ACK, and the comment above it says that a
check is missing.  So an acknowledgement of data that is still on its way when `tcp_close` is called
can move the closer to `FIN_WAIT_2` before the other end has seen its FIN|ACK (`Premature`), and
another one can close the other end.  `justified_iff`: nothing else goes wrong, in whatever order
the packets are delivered.
-/

namespace TrivalTcp

/-! ## The system -/

/-- What can happen. -/
inductive TeardownEvent where
  /-- The closer calls `tcp_close`. -/
  | close
  /-- An end is given the `n`-th packet on its way to it. -/
  | deliver (y : Side) (n : ℕ)
  /-- A sleep of `tcp_state_close` is over. -/
  | wake (y : Side)

/-- The closer is at `x`. -/
def teardownStep (x : Side) (w : Wire Conn) : TeardownEvent → Outcome (Wire Conn)
  | .close =>
    if (w.ends x).sock.state = .established then
      (w.ends x).close >>= fun c => .ret (w.progress x c)
    else
      .blocked
  | .deliver y n =>
    match (w.channel y)[n]? with
    | none => .blocked
    | some pkt => (w.ends y).pocket pkt >>= fun c => .ret ((w.takeOff y n).progress y c)
  | .wake y => (w.ends y).wake >>= fun c => .ret (w.progress y c)

/-- Two established ends, and packets between them that are no FIN|ACK, have the right lengths and
pass `tcp_check`: data and acknowledgements, as many as one likes. -/
structure Backlog (w : Wire Conn) : Prop where
  ends : ∀ y, ∃ s : TjuTcp, s.state = .established ∧ w.ends y = .start s
  sized : ∀ y, ∀ p ∈ w.channel y, Sized p
  check : ∀ y, ∀ p ∈ w.channel y, tcpCheck (bufToPacket p) = true
  notFin : ∀ y, ∀ p ∈ w.channel y, getFlags p ≠ Flag.finAck

/-- **The states are justified**: the closer has gone on only if the other end has left
`ESTABLISHED` — which it does when it processes the FIN|ACK —, and the other end is `CLOSED` only if
the closer has gone on to `TIME_WAIT`, which it does when it processes the other FIN|ACK. -/
structure Justified (x : Side) (w : Wire Conn) : Prop where
  closer : (w.ends x).sock.state = .finWait2 ∨ (w.ends x).sock.state = .timeWait →
    (w.ends x.other).sock.state ≠ .established
  peer : (w.ends x.other).sock.state = .closed → (w.ends x).sock.state = .timeWait

/-- **An ACK comes too early**: to the closer in `FIN_WAIT_1` while the other end is still
`ESTABLISHED`, or to the other end in `LAST_ACK` while the closer is not yet in `TIME_WAIT`. -/
def Premature (x : Side) (w : Wire Conn) : TeardownEvent → Prop
  | .deliver y n => ∃ pkt, (w.channel y)[n]? = some pkt ∧ getFlags pkt = Flag.ack ∧
      (y = x ∧ (w.ends x).sock.state = .finWait1 ∧
          (w.ends x.other).sock.state = .established ∨
        y = x.other ∧ (w.ends x.other).sock.state = .lastAck ∧
          (w.ends x).sock.state ≠ .timeWait)
  | _ => False

instance (x : Side) (w : Wire Conn) : ∀ e, Decidable (Premature x w e)
  | .close | .wake _ => isFalse id
  | .deliver y n =>
    match hpkt : (w.channel y)[n]? with
    | none => isFalse (by simp [Premature, hpkt])
    | some pkt =>
      decidable_of_iff (getFlags pkt = Flag.ack ∧
        (y = x ∧ (w.ends x).sock.state = .finWait1 ∧ (w.ends x.other).sock.state = .established ∨
          y = x.other ∧ (w.ends x.other).sock.state = .lastAck ∧
            (w.ends x).sock.state ≠ .timeWait))
        (by simp [Premature, hpkt])

/-! ## What is on its way -/

/-- A packet `sender` has sent: it is a FIN|ACK only if `sender` has left `ESTABLISHED`. -/
structure InFlight (sender : Conn) (p : Buf) : Prop where
  sized : Sized p
  check : tcpCheck (bufToPacket p) = true
  fin : getFlags p = Flag.finAck → sender.sock.state ≠ .established

theorem Built.inFlight {p : Buf} {src : UInt16} {seq : UInt32} {flags : UInt8} {data : Buf}
    (h : Built p src seq flags data) {c : Conn}
    (hfin : flags = Flag.finAck → c.sock.state ≠ .established) : InFlight c p :=
  ⟨h.sized, h.check, fun hflags => hfin (h.flags.symm.trans hflags)⟩

theorem IsReply.inFlight {p : Buf} (h : IsReply p) (c : Conn) : InFlight c p := by
  obtain ⟨s, rfl | rfl⟩ := h
  · exact (controlPkt_built _ _ _ _ _).inFlight (fun h => absurd h (by decide))
  · exact (controlPkt_built _ _ _ _ _).inFlight (fun h => absurd h (by decide))

/-- **How an end goes on**: it does not come back to `ESTABLISHED`, and what it hands on may be on
its way from there. -/
structure Conn.Goes (c c' : Conn) : Prop where
  left : c.sock.state ≠ .established → c'.sock.state ≠ .established
  handed : ∃ packets, c'.handed = c.handed ++ packets ∧ ∀ p ∈ packets, InFlight c' p

section Goes

variable {c c' : Conn} {pkt : Buf}

/-- Nothing is handed on. -/
theorem Conn.Goes.quiet (hleft : c.sock.state ≠ .established → c'.sock.state ≠ .established)
    (hhanded : c'.handed = c.handed) : c.Goes c' :=
  ⟨hleft, [], hhanded.trans (List.append_nil _).symm, nofun⟩

/-- One packet is handed on. -/
theorem Conn.Goes.one {p : Buf} (hstate : c'.sock.state ≠ .established)
    (hhanded : c'.handed = c.handed ++ [p]) (hp : InFlight c' p) : c.Goes c' :=
  ⟨fun _ => hstate, [p], hhanded, fun _ hq => List.mem_singleton.mp hq ▸ hp⟩

theorem Conn.goes_stateClose (c : Conn) (pkt : Buf) : c.Goes (c.stateClose pkt) := by
  rcases c.stateClose_cases pkt with ⟨-, -, heq⟩ | ⟨-, -, heq⟩ | ⟨-, -, heq⟩ | ⟨-, -, heq⟩ | heq
  · rw [heq]
    exact .one nofun rfl (IsReply.inFlight ⟨_, .inl rfl⟩ _)
  · rw [heq]
    exact .quiet (fun _ => nofun) (List.append_nil _)
  · rw [heq]
    exact .one nofun rfl (IsReply.inFlight ⟨_, .inl rfl⟩ _)
  · rw [heq]
    exact .quiet (fun _ => nofun) (List.append_nil _)
  · rw [heq]
    exact .quiet id rfl

theorem Conn.goes_pocket (hp : Sized pkt) (hs : c.pocket pkt = .ret c') : c.Goes c' := by
  obtain ⟨-, ⟨-, rfl⟩ | ⟨-, -, rfl⟩ | ⟨-, -, -, a, ha, rfl⟩⟩ := Conn.pocket_cases hs
  · exact .quiet id rfl
  · exact c.goes_stateClose pkt
  · rw [packetStep_eq hp] at ha
    obtain rfl := Outcome.ret.inj ha
    refine ⟨fun hne => (handled_state c.sock hp).symm ▸ hne, _, rfl, fun p hmem => ?_⟩
    rcases handled_reply c.sock pkt with hnil | ⟨-, r, hr, hreply⟩
    · rw [hnil] at hmem
      nomatch hmem
    · rw [hr] at hmem
      exact List.mem_singleton.mp hmem ▸ hreply.inFlight _

theorem Conn.goes_wake (hs : c.wake = .ret c') : c.Goes c' := by
  rcases Conn.wake_cases hs with ⟨-, rfl⟩ | ⟨-, rfl⟩
  · exact .one nofun rfl ((controlPkt_built _ _ _ _ _).inFlight fun _ => nofun)
  · exact .quiet id rfl

theorem Conn.goes_close (hs : c.close = .ret c') : c.Goes c' := by
  obtain ⟨-, rfl⟩ := Conn.close_eq_ret hs
  exact .one nofun rfl ((controlPkt_built _ _ _ _ _).inFlight fun _ => nofun)

end Goes

/-- Everything on its way may be. -/
def Carrying (w : Wire Conn) : Prop := ∀ y, ∀ p ∈ w.channel y, InFlight (w.ends y.other) p

theorem Carrying.takeOff {w : Wire Conn} (h : Carrying w) (y : Side) (n : ℕ) :
    Carrying (w.takeOff y n) := by
  intro z p hp
  rcases y.eq_or_other z with rfl | rfl
  · rw [Wire.takeOff, Wire.setChannel_channel_self] at hp
    exact h z p (List.mem_of_mem_eraseIdx hp)
  · rw [Wire.takeOff, Wire.setChannel_channel_other] at hp
    exact h y.other p hp

theorem Carrying.progress {w : Wire Conn} (h : Carrying w) {y : Side} {c : Conn}
    (hc : (w.ends y).Goes c) : Carrying (w.progress y c) := by
  obtain ⟨packets, hhanded, hpackets⟩ := hc.handed
  rw [Wire.progress_eq hhanded]
  intro z p hp
  rcases y.eq_or_other z with rfl | rfl
  · rw [Wire.put_channel_self] at hp
    rw [Wire.put_ends_other]
    exact h z p hp
  · rw [Wire.put_channel_other] at hp
    rw [Side.other_other, Wire.put_ends_self]
    rcases List.mem_append.mp hp with hp | hp
    · obtain ⟨hsized, hcheck, hfin⟩ := h y.other p hp
      rw [Side.other_other] at hfin
      exact ⟨hsized, hcheck, fun hflags => hc.left (hfin hflags)⟩
    · obtain ⟨q, hq, hout⟩ := List.mem_filterMap.mp hp
      rw [sendToLayer3] at hout
      split_ifs at hout
      exact Option.some.inj hout ▸ hpackets q hq

/-! ## Where the two ends are -/

/-- Where an end is in its teardown. -/
def Conn.stage (c : Conn) : TcpState × Option Sleep × Bool := (c.sock.state, c.sleep, c.freed)

/-- The way of the closer. -/
def closerStages : List (TcpState × Option Sleep × Bool) :=
  [(.established, none, false), (.finWait1, none, false), (.finWait2, none, false),
    (.timeWait, some .timeWait, false), (.timeWait, none, true)]

/-- The way of the other end. -/
def peerStages : List (TcpState × Option Sleep × Bool) :=
  [(.established, none, false), (.closeWait, some .closeWait, false), (.lastAck, none, false),
    (.closed, none, true)]

section Stage

variable {c c' : Conn} {pkt : Buf}

theorem Conn.stage_eq {state : TcpState} {sleep : Option Sleep} {freed : Bool} :
    c.stage = (state, sleep, freed) ↔
      c.sock.state = state ∧ c.sleep = sleep ∧ c.freed = freed := by
  rw [stage, Prod.mk.injEq, Prod.mk.injEq]

/-- **What a packet can move**, and where to. -/
theorem Conn.pocket_stage (hs : c.pocket pkt = .ret c') :
    c'.stage = c.stage ∨
    (c.stage = (.established, none, false) ∧ getFlags pkt = Flag.finAck ∧
      c'.stage = (.closeWait, some .closeWait, false)) ∨
    (c.stage = (.finWait1, none, false) ∧ getFlags pkt = Flag.ack ∧
      c'.stage = (.finWait2, none, false)) ∨
    (c.stage = (.finWait2, none, false) ∧ getFlags pkt = Flag.finAck ∧
      c'.stage = (.timeWait, some .timeWait, false)) ∨
    (c.stage = (.lastAck, none, false) ∧ getFlags pkt = Flag.ack ∧
      c'.stage = (.closed, none, true)) := by
  obtain ⟨hawake, ⟨-, rfl⟩ | ⟨hfreed, -, rfl⟩ | ⟨-, -, -, a, ha, rfl⟩⟩ := Conn.pocket_cases hs
  · exact .inl rfl
  · rcases c.stateClose_cases pkt with ⟨hst, hflags, heq⟩ | ⟨hst, hflags, heq⟩ |
      ⟨hst, hflags, heq⟩ | ⟨hst, hflags, heq⟩ | heq
    all_goals rw [heq]
    · exact .inr (.inl ⟨stage_eq.mpr ⟨hst, hawake, hfreed⟩, hflags,
        stage_eq.mpr ⟨rfl, rfl, hfreed⟩⟩)
    · exact .inr (.inr (.inl ⟨stage_eq.mpr ⟨hst, hawake, hfreed⟩, hflags,
        stage_eq.mpr ⟨rfl, hawake, hfreed⟩⟩))
    · exact .inr (.inr (.inr (.inl ⟨stage_eq.mpr ⟨hst, hawake, hfreed⟩, hflags,
        stage_eq.mpr ⟨rfl, rfl, hfreed⟩⟩)))
    · exact .inr (.inr (.inr (.inr ⟨stage_eq.mpr ⟨hst, hawake, hfreed⟩, hflags,
        stage_eq.mpr ⟨rfl, hawake, rfl⟩⟩)))
    · exact .inl rfl
  · refine .inl ?_
    rw [stage, stage, packetStep_state ha]

/-- The end of a sleep. -/
theorem Conn.wake_stage (hs : c.wake = .ret c') :
    (c.sleep = some .closeWait ∧ c'.stage = (.lastAck, none, c.freed)) ∨
    (c.sleep = some .timeWait ∧ c'.stage = (c.sock.state, none, true)) := by
  rcases Conn.wake_cases hs with ⟨hsleep, rfl⟩ | ⟨hsleep, rfl⟩
  · exact .inl ⟨hsleep, rfl⟩
  · exact .inr ⟨hsleep, rfl⟩

/-- An end that is awake and has left `ESTABLISHED` gives its packets to `tcp_state_close`. -/
theorem Conn.pocket_eq_stateClose {state : TcpState} (h : c.stage = (state, none, false))
    (hleft : state ≠ .established) (hp : Sized pkt) (hcheck : tcpCheck (bufToPacket pkt) = true) :
    c.pocket pkt = .ret (c.stateClose pkt) := by
  obtain ⟨rfl, hawake, hfreed⟩ := stage_eq.mp h
  rw [pocket, hawake, if_neg (by decide), if_neg (Nat.not_lt.mpr hp.header_le),
    if_neg (not_not.mpr hcheck), hfreed, if_neg (by decide), if_pos (.inr hleft)]

end Stage

/-- **The closer and the other end.** -/
structure Ends (a b : Conn) : Prop where
  closer : a.stage ∈ closerStages
  peer : b.stage ∈ peerStages
  left : b.sock.state ≠ .established → a.sock.state ≠ .established
  ahead : a.sock.state = .finWait2 ∨ a.sock.state = .timeWait → b.sock.state ≠ .established
  closed : b.sock.state = .closed → a.sock.state = .timeWait

namespace Ends

variable {a a' b b' : Conn} {pkt : Buf}

/-- Where no state changes, nothing does. -/
theorem still_closer (h : Ends a b) (hmem : a'.stage ∈ closerStages)
    (hstate : a'.sock.state = a.sock.state) : Ends a' b := by
  refine ⟨hmem, h.peer, ?_, ?_, ?_⟩
  · rw [hstate]
    exact h.left
  · rw [hstate]
    exact h.ahead
  · rw [hstate]
    exact h.closed

theorem still_peer (h : Ends a b) (hstage : b'.stage = b.stage) : Ends a b' := by
  have hstate : b'.sock.state = b.sock.state := congrArg Prod.fst hstage
  refine ⟨h.closer, hstage ▸ h.peer, ?_, ?_, ?_⟩
  · rw [hstate]
    exact h.left
  · rw [hstate]
    exact h.ahead
  · rw [hstate]
    exact h.closed

/-- The closer calls `tcp_close`. -/
theorem close (h : Ends a b) (hest : a.sock.state = .established) (hs : a.close = .ret a') :
    Ends a' b := by
  obtain ⟨-, rfl⟩ := Conn.close_eq_ret hs
  have hmem := h.closer
  rw [Conn.stage, hest] at hmem
  obtain ⟨hsleep, hfreed⟩ : a.sleep = none ∧ a.freed = false := by simpa [closerStages] using hmem
  refine ⟨?_, h.peer, fun _ => nofun, ?_, fun hclosed => ?_⟩
  · change (TcpState.finWait1, a.sleep, a.freed) ∈ closerStages
    rw [hsleep, hfreed]
    decide
  · rintro (hst | hst)
    · nomatch hst
    · nomatch hst
  · nomatch hest.symm.trans (h.closed hclosed)

/-- **The closer is given a packet**, which is no ACK that comes too early. -/
theorem deliver_closer (h : Ends a b) (hp : InFlight b pkt)
    (hgood : getFlags pkt = Flag.ack → a.sock.state = .finWait1 → b.sock.state ≠ .established)
    (hs : a.pocket pkt = .ret a') : Ends a' b := by
  rcases Conn.pocket_stage hs with hsame | ⟨hst, hflags, -⟩ | ⟨hst, hflags, hstage⟩ |
    ⟨hst, hflags, hstage⟩ | ⟨hst, -⟩
  · exact h.still_closer (hsame ▸ h.closer) (congrArg Prod.fst hsame)
  · exact absurd (Conn.stage_eq.mp hst).1 (h.left (hp.fin hflags))
  · obtain ⟨hfin, -⟩ := Conn.stage_eq.mp hst
    obtain ⟨hstate, -⟩ := Conn.stage_eq.mp hstage
    refine ⟨?_, h.peer, fun _ hest => ?_, fun _ => hgood hflags hfin, fun hclosed => ?_⟩
    · rw [hstage]
      decide
    · nomatch hstate.symm.trans hest
    · nomatch hfin.symm.trans (h.closed hclosed)
  · obtain ⟨hstate, -⟩ := Conn.stage_eq.mp hstage
    refine ⟨?_, h.peer, fun _ hest => ?_, fun _ => hp.fin hflags, fun _ => hstate⟩
    · rw [hstage]
      decide
    · nomatch hstate.symm.trans hest
  · have hmem := h.closer
    rw [hst] at hmem
    exact absurd hmem (by decide)

/-- **The other end is given a packet**, which is no ACK that comes too early. -/
theorem deliver_peer (h : Ends a b) (hp : InFlight a pkt)
    (hgood : getFlags pkt = Flag.ack → b.sock.state = .lastAck → a.sock.state = .timeWait)
    (hs : b.pocket pkt = .ret b') : Ends a b' := by
  have hmem := h.peer
  rcases Conn.pocket_stage hs with hsame | ⟨-, hflags, hstage⟩ | ⟨hst, -⟩ | ⟨hst, -⟩ |
    ⟨hst, hflags, hstage⟩
  · exact h.still_peer hsame
  · obtain ⟨hstate, -⟩ := Conn.stage_eq.mp hstage
    refine ⟨h.closer, ?_, fun _ => hp.fin hflags, fun _ hest => ?_, fun hclosed => ?_⟩
    · rw [hstage]
      decide
    · nomatch hstate.symm.trans hest
    · nomatch hstate.symm.trans hclosed
  · rw [hst] at hmem
    exact absurd hmem (by decide)
  · rw [hst] at hmem
    exact absurd hmem (by decide)
  · obtain ⟨hlast, -⟩ := Conn.stage_eq.mp hst
    obtain ⟨hstate, -⟩ := Conn.stage_eq.mp hstage
    have htime := hgood hflags hlast
    refine ⟨h.closer, ?_, fun _ hest => ?_, fun _ hest => ?_, fun _ => htime⟩
    · rw [hstage]
      decide
    · nomatch htime.symm.trans hest
    · nomatch hstate.symm.trans hest

/-- The closer wakes. -/
theorem wake_closer (h : Ends a b) (hs : a.wake = .ret a') : Ends a' b := by
  have hmem := h.closer
  rcases Conn.wake_stage hs with ⟨hsleep, -⟩ | ⟨hsleep, hstage⟩
  · rw [Conn.stage, hsleep] at hmem
    simp [closerStages] at hmem
  · rw [Conn.stage, hsleep] at hmem
    obtain ⟨hst, -⟩ : a.sock.state = .timeWait ∧ a.freed = false := by
      simpa [closerStages] using hmem
    refine h.still_closer ?_ (congrArg Prod.fst hstage)
    rw [hstage, hst]
    decide

/-- The other end wakes. -/
theorem wake_peer (h : Ends a b) (hs : b.wake = .ret b') : Ends a b' := by
  have hmem := h.peer
  rcases Conn.wake_stage hs with ⟨hsleep, hstage⟩ | ⟨hsleep, -⟩
  · rw [Conn.stage, hsleep] at hmem
    obtain ⟨hst, hfreed⟩ : b.sock.state = .closeWait ∧ b.freed = false := by
      simpa [peerStages] using hmem
    have hleft : b.sock.state ≠ .established := fun hest => nomatch hst.symm.trans hest
    have hstate : b'.sock.state = .lastAck := congrArg Prod.fst hstage
    refine ⟨h.closer, ?_, fun _ => h.left hleft, fun _ hest => ?_, fun hclosed => ?_⟩
    · rw [hstage, hfreed]
      decide
    · nomatch hstate.symm.trans hest
    · nomatch hstate.symm.trans hclosed
  · rw [Conn.stage, hsleep] at hmem
    simp [peerStages] at hmem

end Ends

/-- **What holds as long as no ACK comes too early.** -/
structure TeardownOk (x : Side) (w : Wire Conn) : Prop where
  ends : Ends (w.ends x) (w.ends x.other)
  carrying : Carrying w

section Wire

variable {x : Side} {w w' : Wire Conn} {e : TeardownEvent}

theorem teardownOk_backlog (h : Backlog w) : TeardownOk x w := by
  have hend : ∀ y, (w.ends y).stage = (.established, none, false) := by
    intro y
    obtain ⟨s, hest, hy⟩ := h.ends y
    rw [hy]
    exact Conn.stage_eq.mpr ⟨hest, rfl, rfl⟩
  have hest : ∀ y, (w.ends y).sock.state = .established := fun y => (Conn.stage_eq.mp (hend y)).1
  refine ⟨⟨?_, ?_, fun hne => absurd (hest _) hne, ?_, fun hclosed => ?_⟩, fun y p hp => ?_⟩
  · rw [hend]
    decide
  · rw [hend]
    decide
  · rw [hest]
    rintro (hst | hst)
    · nomatch hst
    · nomatch hst
  · nomatch (hest _).symm.trans hclosed
  · exact ⟨h.sized y p hp, h.check y p hp, fun hflags => absurd hflags (h.notFin y p hp)⟩

theorem TeardownOk.justified (h : TeardownOk x w) : Justified x w := ⟨h.ends.ahead, h.ends.closed⟩

/-- **One step, in which no ACK comes too early.** -/
theorem TeardownOk.step (h : TeardownOk x w) (hgood : ¬ Premature x w e)
    (hs : teardownStep x w e = .ret w') : TeardownOk x w' := by
  cases e with
  | close =>
    rw [teardownStep] at hs
    split_ifs at hs with hest
    obtain ⟨c, hclose, hret⟩ := Outcome.bind_eq_ret.mp hs
    obtain rfl := Outcome.ret.inj hret
    refine ⟨?_, h.carrying.progress (Conn.goes_close hclose)⟩
    rw [Wire.progress_ends_self, Wire.progress_ends_other]
    exact h.ends.close hest hclose
  | deliver y n =>
    rw [teardownStep] at hs
    split at hs
    next => nomatch hs
    next pkt hpkt =>
      obtain ⟨c, hpocket, hret⟩ := Outcome.bind_eq_ret.mp hs
      obtain rfl := Outcome.ret.inj hret
      have hp := h.carrying y pkt (List.mem_of_getElem? hpkt)
      refine ⟨?_, (h.carrying.takeOff y n).progress (Conn.goes_pocket hp.sized hpocket)⟩
      rcases x.eq_or_other y with rfl | rfl
      · rw [Wire.progress_ends_self, Wire.progress_ends_other]
        exact h.ends.deliver_closer hp
          (fun hflags hfin hest => hgood ⟨pkt, hpkt, hflags, .inl ⟨rfl, hfin, hest⟩⟩) hpocket
      · rw [Wire.progress_ends_self, Wire.progress_other_ends]
        rw [Side.other_other] at hp
        refine h.ends.deliver_peer hp (fun hflags hlast => ?_) hpocket
        by_contra htime
        exact hgood ⟨pkt, hpkt, hflags, .inr ⟨rfl, hlast, htime⟩⟩
  | wake y =>
    obtain ⟨c, hwake, hret⟩ := Outcome.bind_eq_ret.mp hs
    obtain rfl := Outcome.ret.inj hret
    refine ⟨?_, h.carrying.progress (Conn.goes_wake hwake)⟩
    rcases x.eq_or_other y with rfl | rfl
    · rw [Wire.progress_ends_self, Wire.progress_ends_other]
      exact h.ends.wake_closer hwake
    · rw [Wire.progress_ends_self, Wire.progress_other_ends]
      exact h.ends.wake_peer hwake

/-- **An ACK that comes too early leaves a state that is not justified.** -/
theorem TeardownOk.premature (h : TeardownOk x w) (hbad : Premature x w e) :
    ∃ w', teardownStep x w e = .ret w' ∧ ¬ Justified x w' := by
  cases e with
  | close => exact hbad.elim
  | wake y => exact hbad.elim
  | deliver y n =>
    obtain ⟨pkt, hpkt, hflags, hcases⟩ := hbad
    obtain ⟨hsized, hcheck, -⟩ := h.carrying y pkt (List.mem_of_getElem? hpkt)
    have hstep : ∀ {state : TcpState}, (w.ends y).stage = (state, none, false) →
        state ≠ .established → teardownStep x w (.deliver y n) =
          .ret ((w.takeOff y n).progress y ((w.ends y).stateClose pkt)) := by
      intro state hstage hleft
      rw [teardownStep, hpkt]
      dsimp only
      rw [Conn.pocket_eq_stateClose hstage hleft hsized hcheck]
      rfl
    rcases hcases with ⟨rfl, hfin, hest⟩ | ⟨rfl, hlast, htime⟩
    · have hmem := h.ends.closer
      rw [Conn.stage, hfin] at hmem
      obtain ⟨hsleep, hfreed⟩ : (w.ends y).sleep = none ∧ (w.ends y).freed = false := by
        simpa [closerStages] using hmem
      refine ⟨_, hstep (Conn.stage_eq.mpr ⟨hfin, hsleep, hfreed⟩) (by decide), fun hjust => ?_⟩
      refine hjust.closer (.inl ?_) ?_
      · rw [Wire.progress_ends_self, Conn.stateClose, hfin, hflags]
        rfl
      · rw [Wire.progress_ends_other]
        exact hest
    · have hmem := h.ends.peer
      rw [Conn.stage, hlast] at hmem
      obtain ⟨hsleep, hfreed⟩ :
          (w.ends x.other).sleep = none ∧ (w.ends x.other).freed = false := by
        simpa [peerStages] using hmem
      refine ⟨_, hstep (Conn.stage_eq.mpr ⟨hlast, hsleep, hfreed⟩) (by decide),
        fun hjust => htime ?_⟩
      have hclosed := hjust.peer
      rw [Wire.progress_ends_self, Wire.progress_other_ends, Conn.stateClose, hlast,
        hflags] at hclosed
      exact hclosed rfl

end Wire

/-- **The states are justified along a run exactly when no ACK comes too early.**  The closer is in
`FIN_WAIT_2` or `TIME_WAIT` only after the other end has left `ESTABLISHED`, and the other end is
`CLOSED` only after the closer has taken its FIN|ACK, whatever is on its way and in whatever order
it is delivered — as long as no ACK reaches the closer in `FIN_WAIT_1` or the other end in
`LAST_ACK` before that. -/
theorem justified_iff {x : Side} {w : Wire Conn} (h : Backlog w) (es : List TeardownEvent) :
    Along (teardownStep x) (Justified x) w es ↔
      EveryStep (teardownStep x) (fun w e => ¬ Premature x w e) w es :=
  along_iff_everyStep (I := TeardownOk x) (fun _ hw => hw.justified)
    (fun _ _ _ hw hgood hs => hw.step hgood hs)
    (fun _ _ hw hbad => hw.premature (not_not.mp hbad)) (teardownOk_backlog h) es

/-- The server has taken a byte from the client, and its acknowledgement is on its way. -/
def ackedByte : Wire Conn where
  ends
    | .client => .start (zeroedSock.setNextseq 1)
    | .server => .start (zeroedSock.setExpectSeq 1)
  channel
    | .client => [tcpSendAck (zeroedSock.setExpectSeq 1)]
    | .server => []

theorem backlog_ackedByte : Backlog ackedByte := by
  have hack : IsReply (tcpSendAck (zeroedSock.setExpectSeq 1)) := ⟨_, .inl rfl⟩
  obtain ⟨hsized, hcheck, -⟩ := hack.inFlight (.start zeroedSock)
  refine ⟨fun y => ?_, fun y p hp => ?_, fun y p hp => ?_, fun y p hp => ?_⟩
  all_goals cases y
  · exact ⟨_, rfl, rfl⟩
  · exact ⟨_, rfl, rfl⟩
  · exact List.mem_singleton.mp hp ▸ hsized
  · nomatch hp
  · exact List.mem_singleton.mp hp ▸ hcheck
  · nomatch hp
  · exact List.mem_singleton.mp hp ▸ hack.spec.2.2.1
  · nomatch hp

/-- The client closes, and the acknowledgement of its byte takes it to `FIN_WAIT_2` while the server
is still `ESTABLISHED`. -/
theorem not_justified_ackedByte : Backlog ackedByte ∧
    ¬ Along (teardownStep .client) (Justified .client) ackedByte [.close, .deliver .client 0] := by
  refine ⟨backlog_ackedByte, fun halong => ?_⟩
  have hrun : (run (teardownStep .client) ackedByte [.close, .deliver .client 0] >>= fun w =>
      .ret ((w.ends .client).sock.state, (w.ends .server).sock.state)) =
      .ret (.finWait2, .established) := rfl
  obtain ⟨w, hw, hret⟩ := Outcome.bind_eq_ret.mp hrun
  obtain ⟨hclient, hserver⟩ := Prod.mk.inj (Outcome.ret.inj hret)
  exact (halong.last hw).closer (.inl hclient) hserver

/-- The acknowledgement of the byte comes before `tcp_close`, and the teardown goes through. -/
theorem justified_iff_ackedByte : Along (teardownStep .client) (Justified .client) ackedByte
    [.deliver .client 0, .close, .deliver .server 0, .wake .server, .deliver .client 0,
      .deliver .client 0, .deliver .server 0, .wake .client] :=
  (justified_iff backlog_ackedByte _).mpr (by decide)

end TrivalTcp
