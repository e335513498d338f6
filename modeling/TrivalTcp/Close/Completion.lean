import TrivalTcp.Close.Close

/-!
# Close/Completion — the closing handshake never ends with both sockets in `CLOSED`

The end that calls `tcp_close` first walks through `FIN_WAIT_1`, `FIN_WAIT_2` and `TIME_WAIT`, where
`tcp_state_close` frees its socket without setting the state the call waits for.  Only `LAST_ACK`
leads to `CLOSED`, and an end that has closed first never gets there (`Active`): whatever follows
the first call, one of the two is left in a state that is not `CLOSED`.
-/

namespace TrivalTcp

/-! ## The system -/

/-- Two ends, and which of them have called `tcp_close`.  The call waits for `CLOSED`, so that an
end calls it once. -/
structure Closing where
  wire : Wire Conn
  called : Side → Bool

/-- What can happen. -/
inductive ClosingEvent where
  | close (x : Side)
  /-- An end is given the first packet on its way to it. -/
  | deliver (x : Side)
  /-- A sleep of `tcp_state_close` is over. -/
  | wake (x : Side)

def closingStep (w : Closing) : ClosingEvent → Outcome Closing
  | .close x =>
    if w.called x then
      .blocked
    else
      (w.wire.ends x).close >>= fun c =>
        .ret ⟨w.wire.progress x c, Function.update w.called x true⟩
  | .deliver x =>
    match w.wire.channel x with
    | [] => .blocked
    | pkt :: rest => (w.wire.ends x).pocket pkt >>= fun c =>
        .ret { w with wire := (w.wire.setChannel x rest).progress x c }
  | .wake x => (w.wire.ends x).wake >>= fun c => .ret { w with wire := w.wire.progress x c }

/-- Two established ends with nothing outstanding, and nothing on its way. -/
structure ClosingStart (w : Closing) : Prop where
  ends : ∀ x, ∃ s : TjuTcp, s.state = .established ∧ s.sendingBuf = [] ∧ s.base = s.nextseq ∧
    w.wire.ends x = .start s
  empty : ∀ x, w.wire.channel x = []
  called : ∀ x, w.called x = false

/-! ## The end that closes first -/

/-- An end on the way of the one that closes first. -/
structure Active (c : Conn) : Prop where
  state : c.sock.state = .finWait1 ∨ c.sock.state = .finWait2 ∨ c.sock.state = .timeWait
  sleep : c.sleep ≠ some .closeWait

section Active

variable {c c' : Conn} {pkt : Buf}

/-- It is in no state beside the way. -/
theorem Active.state_ne (h : Active c) {state : TcpState}
    (hoff : state ≠ .finWait1 ∧ state ≠ .finWait2 ∧ state ≠ .timeWait) : c.sock.state ≠ state := by
  rintro rfl
  rcases h.state with hst | hst | hst
  · exact hoff.1 hst
  · exact hoff.2.1 hst
  · exact hoff.2.2 hst

theorem Active.not_closed (h : Active c) : c.sock.state ≠ .closed := h.state_ne (by decide)

theorem Active.not_established (h : Active c) :
    c.sock.state ≠ .established := h.state_ne (by decide)

/-- **No packet leads off that way.** -/
theorem Active.stateClose (h : Active c) (pkt : Buf) : Active (c.stateClose pkt) := by
  rcases c.stateClose_cases pkt with ⟨hst, -⟩ | ⟨-, -, heq⟩ | ⟨-, -, heq⟩ | ⟨hst, -⟩ | heq
  · exact absurd hst h.not_established
  · exact heq ▸ ⟨.inr (.inl rfl), h.sleep⟩
  · exact heq ▸ ⟨.inr (.inr rfl), nofun⟩
  · exact absurd hst (h.state_ne (by decide))
  · rw [heq]
    exact h

theorem Active.pocket (h : Active c) (hs : c.pocket pkt = .ret c') : Active c' := by
  obtain ⟨-, ⟨-, rfl⟩ | ⟨-, -, rfl⟩ | ⟨-, -, hest, -⟩⟩ := Conn.pocket_cases hs
  · exact h
  · exact h.stateClose pkt
  · exact absurd hest h.not_established

theorem Active.wake (h : Active c) (hs : c.wake = .ret c') : Active c' := by
  rcases Conn.wake_cases hs with ⟨hsleep, -⟩ | ⟨-, rfl⟩
  · exact absurd hsleep h.sleep
  · exact ⟨h.state, nofun⟩

theorem active_close (hsleep : c.sleep = none) (hs : c.close = .ret c') : Active c' := by
  obtain ⟨-, rfl⟩ := Conn.close_eq_ret hs
  refine ⟨.inl rfl, ?_⟩
  rw [hsleep]
  nofun

end Active

/-! ## The two together -/

/-- Nobody has called `tcp_close`. -/
structure Untouched (w : Closing) : Prop where
  called : ∀ x, w.called x = false
  empty : ∀ x, w.wire.channel x = []
  sleep : ∀ x, (w.wire.ends x).sleep = none

/-- Nobody has called `tcp_close`, or there is an end that was the first to do so. -/
def ClosingOk (w : Closing) : Prop :=
  Untouched w ∨ ∃ x, w.called x = true ∧ Active (w.wire.ends x)

theorem closingOk_start {w : Closing} (h : ClosingStart w) : ClosingOk w := by
  refine .inl ⟨h.called, h.empty, fun x => ?_⟩
  obtain ⟨s, -, -, -, hx⟩ := h.ends x
  rw [hx]
  rfl

/-- The first thing to happen is a call. -/
theorem Untouched.step {w w' : Closing} (h : Untouched w) {e : ClosingEvent}
    (hs : closingStep w e = .ret w') : ClosingOk w' := by
  cases e with
  | close x =>
    rw [closingStep, h.called x, if_neg (by decide)] at hs
    obtain ⟨c, hclose, hret⟩ := Outcome.bind_eq_ret.mp hs
    obtain rfl := Outcome.ret.inj hret
    refine .inr ⟨x, Function.update_self _ _ _, ?_⟩
    rw [Wire.progress_ends_self]
    exact active_close (h.sleep x) hclose
  | deliver x =>
    rw [closingStep, h.empty x] at hs
    contradiction
  | wake x =>
    obtain ⟨c, hwake, -⟩ := Outcome.bind_eq_ret.mp hs
    rw [Conn.wake, h.sleep x] at hwake
    contradiction

/-- **The end that closed first stays on its way.** -/
theorem active_step {w w' : Closing} {x : Side} (hcalled : w.called x = true)
    (h : Active (w.wire.ends x)) {e : ClosingEvent} (hs : closingStep w e = .ret w') :
    w'.called x = true ∧ Active (w'.wire.ends x) := by
  cases e with
  | close y =>
    rw [closingStep] at hs
    split_ifs at hs with hy
    obtain ⟨c, -, hret⟩ := Outcome.bind_eq_ret.mp hs
    obtain rfl := Outcome.ret.inj hret
    have hne : x ≠ y := fun heq => hy (heq ▸ hcalled)
    obtain rfl := (y.eq_or_other x).resolve_left hne
    refine ⟨(Function.update_of_ne hne _ _).trans hcalled, ?_⟩
    rw [Wire.progress_ends_other]
    exact h
  | deliver y =>
    rw [closingStep] at hs
    split at hs
    next => nomatch hs
    next pkt rest hchannel =>
      obtain ⟨c, hpocket, hret⟩ := Outcome.bind_eq_ret.mp hs
      obtain rfl := Outcome.ret.inj hret
      refine ⟨hcalled, ?_⟩
      rcases y.eq_or_other x with rfl | rfl
      · rw [Wire.progress_ends_self]
        exact h.pocket hpocket
      · rw [Wire.progress_ends_other]
        exact h
  | wake y =>
    obtain ⟨c, hwake, hret⟩ := Outcome.bind_eq_ret.mp hs
    obtain rfl := Outcome.ret.inj hret
    refine ⟨hcalled, ?_⟩
    rcases y.eq_or_other x with rfl | rfl
    · rw [Wire.progress_ends_self]
      exact h.wake hwake
    · rw [Wire.progress_ends_other]
      exact h

/-- One step of the two. -/
theorem ClosingOk.step {w w' : Closing} (h : ClosingOk w) {e : ClosingEvent}
    (hs : closingStep w e = .ret w') : ClosingOk w' := by
  rcases h with h | ⟨x, hcalled, hactive⟩
  · exact h.step hs
  · exact .inr ⟨x, active_step hcalled hactive hs⟩

/-- Once somebody has called `tcp_close`, there is an end that was the first to do so. -/
theorem active_of_called {w : Closing} (h : Reachable closingStep ClosingStart w)
    (hcalled : ∃ x, w.called x = true) : ∃ x, w.called x = true ∧ Active (w.wire.ends x) := by
  have hok : ClosingOk w := h.invariant (fun _ => closingOk_start) fun _ _ _ hw hs => hw.step hs
  refine hok.resolve_left fun huntouched => ?_
  obtain ⟨x, hx⟩ := hcalled
  nomatch hx.symm.trans (huntouched.called x)

/-- Wherever a run goes from there, that end is not in `CLOSED`. -/
theorem Active.run_not_closed {w w' : Closing} {x : Side} (hcalled : w.called x = true)
    (h : Active (w.wire.ends x)) {es : List ClosingEvent} (hr : run closingStep w es = .ret w') :
    (w'.wire.ends x).sock.state ≠ .closed := by
  have hend : w'.called x = true ∧ Active (w'.wire.ends x) :=
    run_invariant (I := fun w => w.called x = true ∧ Active (w.wire.ends x))
      (fun _ _ _ _ hw hs => active_step hw.1 hw.2 hs) ⟨hcalled, h⟩ hr
  exact hend.2.not_closed

/-- **The closing handshake never completes.**  Once one of two established ends has called
`tcp_close`, no packets, no ends of sleeps and no further call lead to a state in which both sockets
are `CLOSED`. -/
theorem never_both_closed {w : Closing} (h : Reachable closingStep ClosingStart w)
    (hcalled : ∃ x, w.called x = true) : ¬ ∃ es w', run closingStep w es = .ret w' ∧
      ∀ x, (w'.wire.ends x).sock.state = .closed := by
  rintro ⟨es, w', hrun, hclosed⟩
  obtain ⟨x, hx, hactive⟩ := active_of_called h hcalled
  exact hactive.run_not_closed hx hrun (hclosed x)

/-- Two ends in zeroed memory with nothing between them. -/
def zeroedClosing : Closing := ⟨⟨fun _ => .start zeroedSock, fun _ => []⟩, fun _ => false⟩

theorem closingStart_zeroedClosing : ClosingStart zeroedClosing :=
  ⟨fun _ => ⟨zeroedSock, rfl, rfl, rfl, rfl⟩, fun _ => rfl, fun _ => rfl⟩

/-- The client closes, and every packet is delivered. -/
def clientCloses : List ClosingEvent :=
  [.close .client, .deliver .server, .wake .server, .deliver .client, .deliver .client,
    .deliver .server, .wake .client]

/-- It closes, and nothing leads to `CLOSED` on both sides any more. -/
theorem never_both_closed_client : ∃ w, closingStep zeroedClosing (.close .client) = .ret w ∧
    ¬ ∃ es w', run closingStep w es = .ret w' ∧ ∀ x, (w'.wire.ends x).sock.state = .closed := by
  have hclose : ∃ w, closingStep zeroedClosing (.close .client) = .ret w ∧
      w.called .client = true := ⟨_, rfl, rfl⟩
  obtain ⟨w, hw, hcalled⟩ := hclose
  exact ⟨w, hw, never_both_closed (.step _ (.init closingStart_zeroedClosing) hw) ⟨_, hcalled⟩⟩

/-- **The four packets are exchanged without a loss**, the server is `CLOSED`, the client's socket
has been freed in `TIME_WAIT`, nothing is on its way, and nothing will change that. -/
theorem timeWait_forever : ∃ w, Reachable closingStep ClosingStart w ∧ w.called .client = true ∧
    (w.wire.ends .client).sock.state = .timeWait ∧ (w.wire.ends .server).sock.state = .closed ∧
    (∀ x, w.wire.channel x = []) ∧
    ¬ ∃ es w', run closingStep w es = .ret w' ∧ ∀ x, (w'.wire.ends x).sock.state = .closed := by
  have hrun : (run closingStep zeroedClosing clientCloses >>= fun w => .ret (w.called .client,
      (w.wire.ends .client).sock.state, (w.wire.ends .server).sock.state, w.wire.channel .client,
      w.wire.channel .server)) = .ret (true, .timeWait, .closed, [], []) := rfl
  obtain ⟨w, hw, hret⟩ := Outcome.bind_eq_ret.mp hrun
  obtain ⟨hcalled, hclient, hserver, hempty⟩ : _ ∧ _ ∧ _ ∧ _ := by simpa using hret
  have hreach := Reachable.after (.init closingStart_zeroedClosing) hw
  refine ⟨w, hreach, hcalled, hclient, hserver, fun x => ?_, ?_⟩
  · cases x with
    | client => exact hempty.1
    | server => exact hempty.2
  · rintro ⟨es, w', hrun', hclosed⟩
    obtain ⟨x, hx, hactive⟩ := active_of_called hreach ⟨_, hcalled⟩
    exact hactive.run_not_closed hx hrun' (hclosed x)

end TrivalTcp
