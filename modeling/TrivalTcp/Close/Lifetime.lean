import TrivalTcp.Close.Remainder
import TrivalTcp.Transfer.Forged

/-!
# Close/Lifetime — a connection from establishment to its end

Everything at once: each end may run any of its functions at any moment, `tcp_close` included and as
often as one likes, timers run out, `tcp_state_close` sleeps and wakes, and the network loses,
repeats and reorders the packets and makes up packets without data, FIN|ACKs among them.

* `lifetime_delivery` — in every state of both ends, what one application has been given comes from
  what the other has sent, in order and without a gap as `tcp_send_stream` has taken it.

A closing end has thrown away what it held (`tcp_close` frees `received_buf`), and never gives out
anything else instead.
-/

namespace TrivalTcp

open CumulativeAck

/-! ## The system -/

/-- Both ends of a connection. -/
abbrev Life := Side → Conn

/-- The same without what only matters to closing. -/
def Life.ends (w : Life) : Link := fun x => (w x).toEndState

inductive LifeEvent where
  | call (x : Side) (f : Call)
  /-- The application calls `tcp_close`. -/
  | close (x : Side)
  /-- A sleep of `tcp_state_close` is over. -/
  | wake (x : Side)
  /-- An end is given the `n`-th packet the other has handed on. -/
  | deliver (x : Side) (n : ℕ)
  /-- An end is given a packet without data that nobody has sent. -/
  | forge (x : Side) (pkt : Buf)

def lifeStep (w : Life) : LifeEvent → Outcome Life
  | .call x f => (w x).call f >>= fun c => .ret (Function.update w x c)
  | .close x => (w x).close >>= fun c => .ret (Function.update w x c)
  | .wake x => (w x).wake >>= fun c => .ret (Function.update w x c)
  | .deliver x n =>
    match (w x.other).handed[n]? with
    | none => .blocked
    | some pkt => (w x).pocket pkt >>= fun c => .ret (Function.update w x c)
  | .forge x pkt =>
    if Hollow pkt then (w x).pocket pkt >>= fun c => .ret (Function.update w x c) else .blocked

/-- Two ends at establishment. -/
def LifeStart (w : Life) : Prop :=
  LinkStart w.ends ∧ ∀ x, (w x).sleep = none ∧ (w x).freed = false

theorem Life.ends_update (w : Life) (x : Side) (c : Conn) :
    Life.ends (Function.update w x c) = Function.update w.ends x c.toEndState := by
  funext y
  by_cases hy : y = x
  · rw [hy, Life.ends, Function.update_self, Function.update_self]
  · rw [Life.ends, Function.update_of_ne hy, Function.update_of_ne hy, Life.ends]

/-! ## What an end does -/

/-- **An end has got no byte from nowhere**: it is established, and `EndOk` knows its bytes, or it
has no byte it had not before. -/
def KeepsBytes (a b : EndState) : Prop :=
  b.sock.state = .established ∨
    b.returned ++ b.sock.receivedBuf <+: a.returned ++ a.sock.receivedBuf

/-- **What `tcp_send` has accepted and what has become of it**: it is copied into `send_windows`, it
waits, or it is gone. -/
def CarriesBytes (a : EndState) : Prop := (a.copied ++ a.sock.sendingBuf).Sublist a.accepted

/-- **What any step of an end comes to**, in terms of the two flows it takes part in. -/
structure EndMoves (a b : EndState) (fout fin : Flow UInt8) : Prop where
  reaches : Reaches b fout fin
  keeps : KeepsBytes a b
  carries : CarriesBytes a → CarriesBytes b

section Ends

variable {a b : EndState} {fout fin : Flow UInt8} {c c' : Conn} {pkt : Buf}

/-- The bytes stay where they are. -/
theorem KeepsBytes.of_eq (hreturned : b.returned = a.returned)
    (hreceived : b.sock.receivedBuf = a.sock.receivedBuf) : KeepsBytes a b := by
  have hsame : b.returned ++ b.sock.receivedBuf = a.returned ++ a.sock.receivedBuf := by
    rw [hreturned, hreceived]
  exact .inr (hsame ▸ List.prefix_rfl)

/-- The bytes an end holds are thrown away. -/
theorem KeepsBytes.of_nil (hreturned : b.returned = a.returned) (hnil : b.sock.receivedBuf = []) :
    KeepsBytes a b := by
  refine .inr ?_
  rw [hreturned, hnil, List.append_nil]
  exact List.prefix_append _ _

theorem CarriesBytes.of_eq (h : CarriesBytes a) (hcopied : b.copied = a.copied)
    (hsending : b.sock.sendingBuf = a.sock.sendingBuf) (haccepted : b.accepted = a.accepted) :
    CarriesBytes b := by
  rw [CarriesBytes, hcopied, hsending, haccepted]
  exact h

/-- **A function of an end** gives out what the end has. -/
theorem callStep_keeps {f : Call} (hs : callStep a f = .ret b) : KeepsBytes a b := by
  cases f with
  | send buffer =>
    rcases callStep_send_eq_ret hs with rfl | rfl
    · exact .of_eq rfl rfl
    · exact .of_eq rfl rfl
  | stream =>
    obtain ⟨r, hstream, rfl⟩ := callStep_stream_eq_ret hs
    obtain ⟨_, _, _, -, -, hsock⟩ := tcpSendStream_frame hstream
    exact .of_eq rfl (by rw [hsock]; rfl)
  | timeout =>
    obtain ⟨s, packets, hexpiry, rfl⟩ := callStep_timeout_eq_ret hs
    rcases timerExpiry_frame hexpiry with ⟨-, rfl⟩ | ⟨-, _, _, _, _, _, _, _, rfl⟩
    · exact .of_nil rfl rfl
    · exact .of_eq rfl rfl
  | recv len =>
    obtain ⟨bytes, rest, hbuf, rfl⟩ := callStep_recv_eq_ret hs
    refine .inr ?_
    rw [hbuf, ← List.append_assoc]
    exact List.prefix_rfl

/-- **A function of an end** takes its bytes to `send_windows` in order.  A chunk that finds the
window closed is gone. -/
theorem callStep_carries {f : Call} (hs : callStep a f = .ret b) (h : CarriesBytes a) :
    CarriesBytes b := by
  cases f with
  | send buffer =>
    rcases callStep_send_eq_ret hs with rfl | rfl
    · rw [CarriesBytes] at h ⊢
      change (a.copied ++ (a.sock.sendingBuf ++ buffer)).Sublist (a.accepted ++ buffer)
      rw [← List.append_assoc]
      exact h.append (List.Sublist.refl _)
    · exact h.of_eq rfl rfl rfl
  | stream =>
    obtain ⟨r, hstream, rfl⟩ := callStep_stream_eq_ret hs
    obtain ⟨_, _, _, -, -, hsock⟩ := tcpSendStream_frame hstream
    have hcopied : r.copied = a.sock.sendingBuf ∨ r.copied = [] := by
      rcases tcpSendStream_cases hstream with ⟨-, rfl⟩ | ⟨-, -, hchunk⟩
      · exact .inr rfl
      · rcases sendChunk_cases hchunk with ⟨-, rfl⟩ | ⟨-, -, _, _, -, -, rfl⟩
        · exact .inr rfl
        · exact .inl rfl
    have hleft : (a.copied ++ r.copied ++ r.sock.sendingBuf).Sublist
        (a.copied ++ a.sock.sendingBuf) := by
      rw [hsock]
      change (a.copied ++ r.copied ++ []).Sublist _
      rw [List.append_nil]
      rcases hcopied with hcopied | hcopied
      · rw [hcopied]
      · rw [hcopied, List.append_nil]
        exact List.sublist_append_left _ _
    exact hleft.trans h
  | timeout =>
    obtain ⟨s, packets, hexpiry, rfl⟩ := callStep_timeout_eq_ret hs
    rcases timerExpiry_frame hexpiry with ⟨-, rfl⟩ | ⟨-, _, _, _, _, _, _, _, rfl⟩
    · exact h.of_eq rfl rfl rfl
    · exact h.of_eq rfl rfl rfl
  | recv len =>
    obtain ⟨bytes, rest, -, rfl⟩ := callStep_recv_eq_ret hs
    exact h.of_eq rfl rfl rfl

theorem callStep_moves (h : EndOk a fout fin) {f : Call} (hs : callStep a f = .ret b) :
    EndMoves a b fout fin :=
  ⟨callStep_reaches h hs, callStep_keeps hs, callStep_carries hs⟩

/-- **A packet that `tju_handle_packet` gets** changes the bytes only of an established end. -/
theorem packetStep_moves (hest : a.sock.state = .established) (hs : packetStep a pkt = .ret b)
    (hreaches : Reaches b fout fin) : EndMoves a b fout fin := by
  obtain ⟨s, packets, hhandle, rfl⟩ := packetStep_eq_ret hs
  obtain ⟨_, _, _, _, _, _, rfl⟩ := tjuHandlePacket_frame hhandle
  exact ⟨hreaches, .inl hest, fun h => h.of_eq rfl rfl rfl⟩

namespace Conn

/-- An end that is no longer established answers for none of the bytes it holds. -/
theorem leave (h : EndOk c.toEndState fout fin) {state : TcpState} (hstate : state ≠ .established)
    (receivedBuf : Buf) :
    EndOk { c.toEndState with sock := { c.sock with state, receivedBuf } } fout fin :=
  h.sock ⟨rfl, rfl, rfl, rfl, fun he => absurd he hstate⟩

theorem stateClose_reaches (h : EndOk c.toEndState fout fin) (pkt : Buf) :
    Reaches (c.stateClose pkt).toEndState fout fin := by
  rcases c.stateClose_cases pkt with ⟨-, -, heq⟩ | ⟨-, -, heq⟩ | ⟨-, -, heq⟩ | ⟨-, -, heq⟩ | heq
  all_goals rw [heq]
  · exact (leave h (by decide) _).emitAck c.sock rfl
  · exact h.quiet ⟨rfl, rfl, rfl, rfl, nofun⟩
  · exact (leave h (by decide) _).emitAck c.sock rfl
  · exact h.quiet ⟨rfl, rfl, rfl, rfl, nofun⟩
  · exact h.reaches

theorem stateClose_moves (h : EndOk c.toEndState fout fin) (pkt : Buf) :
    EndMoves c.toEndState (c.stateClose pkt).toEndState fout fin := by
  refine ⟨stateClose_reaches h pkt, ?_, fun hcarries => ?_⟩
  all_goals
    rcases c.stateClose_cases pkt with ⟨-, -, heq⟩ | ⟨-, -, heq⟩ | ⟨-, -, heq⟩ | ⟨-, -, heq⟩ | heq
  all_goals rw [heq]
  all_goals first | exact .of_eq rfl rfl | exact hcarries.of_eq rfl rfl rfl

theorem wake_moves (h : EndOk c.toEndState fout fin) (hs : c.wake = .ret c') :
    EndMoves c.toEndState c'.toEndState fout fin := by
  rcases wake_cases hs with ⟨-, rfl⟩ | ⟨-, rfl⟩
  · refine ⟨?_, .of_eq rfl rfl, fun h => h.of_eq rfl rfl rfl⟩
    exact (leave h (by decide) _).emitControl _ _ _ _ (by decide)
  · exact ⟨h.reaches, .of_eq rfl rfl, fun h => h.of_eq rfl rfl rfl⟩

/-- **`tcp_close`** throws away what the end holds, and nothing else. -/
theorem close_moves (h : EndOk c.toEndState fout fin) (hs : c.close = .ret c') :
    EndMoves c.toEndState c'.toEndState fout fin := by
  obtain ⟨-, rfl⟩ := close_eq_ret hs
  refine ⟨?_, .of_nil rfl rfl, fun h => h.of_eq rfl rfl rfl⟩
  exact (leave h (by decide) _).emitControl _ _ _ _ (by decide)

theorem pocket_moves (h : EndOk c.toEndState fout fin)
    (hstep : ∀ a, packetStep c.toEndState pkt = .ret a → Reaches a fout fin)
    (hs : c.pocket pkt = .ret c') : EndMoves c.toEndState c'.toEndState fout fin := by
  obtain ⟨-, ⟨-, rfl⟩ | ⟨-, -, rfl⟩ | ⟨-, -, hest, a, ha, rfl⟩⟩ := pocket_cases hs
  · exact ⟨h.reaches, .of_eq rfl rfl, id⟩
  · exact stateClose_moves h pkt
  · exact packetStep_moves hest ha (hstep a ha)

end Conn

end Ends

/-! ## Both ends -/

/-- **The invariant**: both ends follow two flows, and no end has a byte its flow has not
delivered. -/
structure LifeOk (w : Life) (f : Side → Flow UInt8) : Prop where
  delivers : ∀ x, Delivers (f x)
  simulates : Simulates w.ends f
  kept : ∀ x, (w x).returned ++ (w x).sock.receivedBuf <+: (f x.other).got
  carries : ∀ x, CarriesBytes (w x).toEndState

section Life

variable {w w' : Life} {f : Side → Flow UInt8}

theorem LifeOk.start (h : LifeStart w) : LifeOk w fun _ => Flow.initial := by
  refine ⟨fun _ => safe_initial.delivers, simulates_start h.1, fun x => ?_, fun x => ?_⟩
  all_goals
    obtain ⟨s, hs, -, hx⟩ := h.1 x
    replace hx : (w x).toEndState = .start s := hx
    rw [hx]
  · change [] ++ s.receivedBuf <+: []
    rw [hs.received]
    exact List.prefix_rfl
  · change ([] ++ s.sendingBuf).Sublist []
    rw [hs.sending]
    exact List.Sublist.refl _

/-- **One end has moved.** -/
theorem LifeOk.update (h : LifeOk w f) {x : Side} {c : Conn}
    (hc : EndMoves (w x).toEndState c.toEndState (f x) (f x.other)) :
    ∃ f', LifeOk (Function.update w x c) f' := by
  obtain ⟨f', hsteps, hsim⟩ := h.simulates.update hc.reaches
  rw [← Life.ends_update] at hsim
  refine ⟨f', fun y => (hsteps y).delivers (h.delivers y), hsim, fun y => ?_, fun y => ?_⟩
  · by_cases hy : y = x
    · subst hy
      rw [Function.update_self]
      rcases hc.keeps with hest | hkept
      · have hself := hsim y
        rw [Life.ends, Function.update_self] at hself
        exact hself.received hest ▸ List.prefix_rfl
      · exact (hkept.trans (h.kept y)).trans (hsteps y.other).got_grows
    · rw [Function.update_of_ne hy]
      exact (h.kept y).trans (hsteps y.other).got_grows
  · by_cases hy : y = x
    · subst hy
      rw [Function.update_self]
      exact hc.carries (h.carries y)
    · rw [Function.update_of_ne hy]
      exact h.carries y

/-- A number has been made up. -/
theorem LifeOk.forge (h : LifeOk w f) (x : Side) (n : ℕ) :
    ∃ f', n ∈ (f' x).acks ∧ LifeOk w f' := by
  obtain ⟨f', hforge, hmem, hothers, hsim⟩ := h.simulates.forge x n
  have hgot : ∀ y, (f' y).got = (f y).got := fun y => by
    by_cases hy : y = x
    · exact hy ▸ hforge.got_eq
    · rw [hothers y hy]
  refine ⟨f', hmem, fun y => ?_, hsim, fun y => hgot y.other ▸ h.kept y, h.carries⟩
  by_cases hy : y = x
  · exact hy ▸ hforge.delivers (h.delivers x)
  · exact (hothers y hy).symm ▸ h.delivers y

theorem LifeOk.step (h : LifeOk w f) {e : LifeEvent} (hs : lifeStep w e = .ret w') :
    ∃ f', LifeOk w' f' := by
  cases e with
  | call x g =>
    obtain ⟨c, hc, hret⟩ := Outcome.bind_eq_ret.mp hs
    obtain rfl := Outcome.ret.inj hret
    obtain ⟨a, ha, rfl⟩ := Conn.call_eq_ret hc
    exact h.update (callStep_moves (h.simulates x) ha)
  | close x =>
    obtain ⟨c, hc, hret⟩ := Outcome.bind_eq_ret.mp hs
    obtain rfl := Outcome.ret.inj hret
    exact h.update (Conn.close_moves (h.simulates x) hc)
  | wake x =>
    obtain ⟨c, hc, hret⟩ := Outcome.bind_eq_ret.mp hs
    obtain rfl := Outcome.ret.inj hret
    exact h.update (Conn.wake_moves (h.simulates x) hc)
  | deliver x n =>
    rw [lifeStep] at hs
    split at hs
    next => contradiction
    next pkt hpkt =>
      obtain ⟨c, hc, hret⟩ := Outcome.bind_eq_ret.mp hs
      obtain rfl := Outcome.ret.inj hret
      refine h.update (Conn.pocket_moves (h.simulates x) (fun a ha => ?_) hc)
      obtain ⟨s, packets, hhandle, rfl⟩ := packetStep_eq_ret ha
      have hpeer := h.simulates.peer x
      have hlt : (f x.other).stream.length < 2 ^ 32 := by
        rw [hpeer.stream, hpeer.nextseq]
        exact UInt32.toNat_lt _
      exact tjuHandlePacket_reaches (h.simulates x) (h.delivers x.other) hlt
        (hpeer.handed pkt (List.mem_of_getElem? hpkt)) hhandle
  | forge x pkt =>
    rw [lifeStep] at hs
    split_ifs at hs with hpkt
    obtain ⟨c, hc, hret⟩ := Outcome.bind_eq_ret.mp hs
    obtain rfl := Outcome.ret.inj hret
    obtain ⟨g, hseq, hg⟩ := h.forge x (getSeq pkt).toNat
    have hstep : ∀ a, packetStep (w x).toEndState pkt = .ret a → Reaches a (g x) (g x.other) :=
      fun a ha => packetStep_hollow (hg.simulates x) hpkt hseq ha
    exact hg.update (Conn.pocket_moves (hg.simulates x) hstep hc)

theorem LifeOk.of_reachable (h : Reachable lifeStep LifeStart w) : ∃ f, LifeOk w f := by
  have hinit : ∀ w, LifeStart w → ∃ f, LifeOk w f := fun _ h0 => ⟨_, LifeOk.start h0⟩
  refine h.invariant hinit fun w e w' hw hs => ?_
  obtain ⟨f, hok⟩ := hw
  exact hok.step hs

/-- **What the invariant says of the bytes.** -/
theorem LifeOk.bytes (h : LifeOk w f) (x : Side) :
    (w x).returned ++ (w x).sock.receivedBuf <+: (w x.other).copied ∧
      ((w x.other).copied ++ (w x.other).sock.sendingBuf).Sublist (w x.other).accepted ∧
      ((w x).sock.state = .established →
        (w x).returned ++ (w x).sock.receivedBuf =
          (w x.other).copied.take (w x).sock.expectSeq.toNat) := by
  have hend := h.simulates x
  have hpeer := h.simulates.peer x
  have hstream : (f x.other).stream = (w x.other).copied := hpeer.stream
  refine ⟨?_, h.carries x.other, fun hest => ?_⟩
  · rw [← hstream]
    exact (h.kept x).trans (h.delivers x.other).delivered
  · have hgot : (f x.other).got = (w x).returned ++ (w x).sock.receivedBuf := hend.received hest
    have hlen : (f x.other).got.length = (w x).sock.expectSeq.toNat := hend.expectSeq
    rw [← hgot, ← hlen, ← hstream]
    exact (h.delivers x.other).got_eq_take

end Life

/-- **Delivery over the whole life of a connection.**  Whatever the two ends do, closing included,
whatever the network does to their packets, and whatever packets without data it makes up, what an
end has returned to its caller, followed by what it still holds, is a prefix of what
`tcp_send_stream` has copied at the other end; and that, followed by what waits there, is what
`tcp_send` has accepted without the chunks that are gone.  An end that is established has every
byte up to `expect_seq`. -/
theorem lifetime_delivery {w : Life} (h : Reachable lifeStep LifeStart w) (x : Side) :
    (w x).returned ++ (w x).sock.receivedBuf <+: (w x.other).copied ∧
      ((w x.other).copied ++ (w x.other).sock.sendingBuf).Sublist (w x.other).accepted ∧
      ((w x).sock.state = .established →
        (w x).returned ++ (w x).sock.receivedBuf =
          (w x.other).copied.take (w x).sock.expectSeq.toNat) := by
  obtain ⟨f, hok⟩ := LifeOk.of_reachable h
  exact hok.bytes x

/-- The two ends of `zeroedLink`. -/
def zeroedLife : Life := fun _ => .start zeroedSock

theorem lifeStart_zeroedLife : LifeStart zeroedLife :=
  ⟨linkStart_zeroedLink, fun _ => ⟨rfl, rfl⟩⟩

/-- The client sends three bytes and closes, and the server, its own FIN|ACK sent, still reads
them. -/
theorem lifetime_delivery_three : ∃ w, Reachable lifeStep LifeStart w ∧
    (w .server).sock.state = .lastAck ∧ [1, 2] ++ [3] <+: (w .client).copied ∧
    (w .client).copied.Sublist (w .client).accepted := by
  have hrun : (run lifeStep zeroedLife [.call .client (.send [1, 2, 3]), .call .client .stream,
      .deliver .server 0, .close .client, .forge .server (controlPkt zeroedSock 1000 0 Flag.ack 0),
      .deliver .server 1, .wake .server, .call .server (.recv 2)] >>= fun w =>
        .ret ((w .server).sock.state, (w .server).returned, (w .server).sock.receivedBuf)) =
      .ret (.lastAck, [1, 2], [3]) := by decide
  obtain ⟨w, hw, hret⟩ := Outcome.bind_eq_ret.mp hrun
  obtain ⟨hst, hret', hbuf⟩ : _ ∧ _ ∧ _ := by simpa using hret
  have hreach : Reachable lifeStep LifeStart w := Reachable.after (.init lifeStart_zeroedLife) hw
  obtain ⟨hbytes, hcarries, -⟩ := lifetime_delivery hreach .server
  rw [hret', hbuf] at hbytes
  exact ⟨w, hreach, hst, hbytes, (List.sublist_append_left _ _).trans hcarries⟩

end TrivalTcp
