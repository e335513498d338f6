import TrivalTcp.Transfer.Chunk
import TrivalTcp.Transfer.StaleAck

/-!
# Transfer/InFlight — how much may be unacknowledged when the timer runs out

A timeout retransmits everything from `base` to `nextseq` in one packet, and `tcp_retransmit_timer`
ends the process where that is more than `MAX_LEN` bytes.  The sender thread has no such limit: it
asks only whether the first byte of its chunk lies in the window.  `neverAborts_iff` says which
steps let more than `MAX_LEN` bytes be unacknowledged; the other exit, on a negative length, is out
of reach (`SendOk.base_le`).
-/

namespace TrivalTcp

/-! ## One end -/

/-- The bytes that are sent and not acknowledged, as `tcp_retransmit_timer` counts them. -/
def inFlight (s : TjuTcp) : ℕ := (s.nextseq - s.base).toNat

theorem inFlight_congr {s t : TjuTcp} (h : t.window = s.window) : inFlight t = inFlight s := by
  rw [inFlight, inFlight, TjuTcp.nextseq, TjuTcp.base, h]

/-- **When `tcp_retransmit_timer` ends the process.** -/
theorem tcpRetransmitTimer_exits_iff (s : TjuTcp) :
    tcpRetransmitTimer s = .exit ↔ maxLen < inFlight s := by
  rw [tcpRetransmitTimer, inFlight]
  dsimp only
  split_ifs with hneg hlong
  · exact ⟨fun _ => lt_of_lt_of_le (by decide) hneg, fun _ => rfl⟩
  · exact ⟨fun _ => hlong, fun _ => rfl⟩
  · exact ⟨False.elim, fun h => absurd h hlong⟩
  · exact ⟨False.elim, fun h => absurd h hlong⟩

/-- **A chunk that is sent is in flight.** -/
theorem inFlight_sentChunk {s : TjuTcp} (hlt : inFlight s + s.sendingBuf.length < 2 ^ 32) :
    inFlight (sentChunk (s.setSendingBuf []) s.sendingBuf).sock =
      inFlight s + s.sendingBuf.length := by
  obtain ⟨_, _, _, heq⟩ := sentChunk_sendingBuf s
  rw [heq]
  exact toNat_add_sub hlt

theorem state_spillStream {s : TjuTcp} {r : Sent} (hs : spillStream s = .ret r) :
    r.sock.state = s.state := by
  by_cases htakes : TakesChunk s
  · obtain rfl := Outcome.ret.inj ((spillStream_takes htakes).symm.trans hs)
    obtain ⟨_, _, _, heq⟩ := sentChunk_sendingBuf s
    rw [heq]
    rfl
  · obtain rfl := spillStream_idle htakes hs
    rfl

/-- Of packets, only an ACK changes what is in flight. -/
theorem inFlight_packet {s t : TjuTcp} {pkt : Buf} {packets : List Buf}
    (hs : tjuHandlePacket s pkt = .ret (t, packets)) :
    inFlight t = (s.nextseq - if getFlags pkt = Flag.ack then getSeq pkt else s.base).toNat := by
  rw [inFlight, TjuTcp.nextseq, TjuTcp.base, tjuHandlePacket_wndSend hs]
  rfl

/-! ## The link -/

/-- No end that is established would end its process if it retransmitted now. -/
def NeverAborts (l : Link) : Prop :=
  ∀ x, (l x).sock.state = .established → tcpRetransmitTimer (l x).sock ≠ .exit

/-- A step, and where the sender thread copies past the end of `send_windows` what it leaves then. -/
def spillStep (l : Link) : LinkEvent → Outcome Link
  | .call x .stream => spillStream (l x).sock >>= fun r =>
      .ret (Function.update l x { l x with
        sock := r.sock
        handed := (l x).handed ++ r.packets
        copied := (l x).copied ++ r.copied })
  | e => linkStep l e

/-- The step leaves no end that would end its process. -/
def StaysAlive (l : Link) (e : LinkEvent) : Prop := ∀ l', spillStep l e = .ret l' → NeverAborts l'

/-- **More than `MAX_LEN` bytes are about to be in flight**: an established end takes a chunk that
makes them so many, or is given an ACK, late enough, that they are. -/
def Overfills (l : Link) : LinkEvent → Prop
  | .call x .stream => (l x).sock.state = .established ∧ TakesChunk (l x).sock ∧
      maxLen < inFlight (l x).sock + (l x).sock.sendingBuf.length
  | .deliver x n => (l x).sock.state = .established ∧ ∃ pkt, (l x.other).handed[n]? = some pkt ∧
      IsAck pkt ∧ maxLen < ((l x).sock.nextseq - getSeq pkt).toNat
  | _ => False

instance (l : Link) : ∀ e, Decidable (Overfills l e)
  | .call _ .stream => inferInstanceAs (Decidable (_ ∧ _ ∧ _))
  | .call _ (.send _) | .call _ .timeout | .call _ (.recv _) => isFalse id
  | .deliver x n =>
    match hpkt : (l x.other).handed[n]? with
    | none => isFalse (by simp [Overfills, hpkt])
    | some pkt =>
      decidable_of_iff ((l x).sock.state = .established ∧ IsAck pkt ∧
        maxLen < ((l x).sock.nextseq - getSeq pkt).toNat) (by simp [Overfills, hpkt])

theorem neverAborts_le {l : Link} (h : NeverAborts l) {x : Side}
    (hst : (l x).sock.state = .established) : inFlight (l x).sock ≤ maxLen :=
  Nat.not_lt.mp fun hlt => h x hst ((tcpRetransmitTimer_exits_iff _).mpr hlt)

/-- The end at `x` has become `a`. -/
theorem NeverAborts.update {l : Link} (h : NeverAborts l) {x : Side} {a : EndState}
    (ha : a.sock.state = .established → inFlight a.sock ≤ maxLen) :
    NeverAborts (Function.update l x a) := by
  refine (Function.forall_update_iff l (p := fun _ b => b.sock.state = .established →
    tcpRetransmitTimer b.sock ≠ .exit)).mpr ⟨fun hst hexit => ?_, fun y _ => h y⟩
  exact Nat.not_lt.mpr (ha hst) ((tcpRetransmitTimer_exits_iff _).mp hexit)

theorem not_neverAborts_update {l : Link} {x : Side} {a : EndState}
    (hst : a.sock.state = .established) (hlt : maxLen < inFlight a.sock) :
    ¬ NeverAborts (Function.update l x a) := by
  intro h
  have hx := h x
  rw [Function.update_self] at hx
  exact hx hst ((tcpRetransmitTimer_exits_iff _).mpr hlt)

section Step

variable {l l' : Link}

/-- **Where a step returns**, that is what it leaves. -/
theorem spillStep_of_ret {e : LinkEvent} (hs : linkStep l e = .ret l') : spillStep l e = .ret l' := by
  cases e with
  | deliver x n => exact hs
  | call x c =>
    cases c with
    | send buffer | timeout | recv len => exact hs
    | stream =>
      obtain ⟨a, hcall, hret⟩ := Outcome.bind_eq_ret.mp hs
      obtain ⟨r, hstream, rfl⟩ := callStep_stream_eq_ret hcall
      exact Outcome.bind_eq_ret.mpr ⟨r, spillStream_of_ret hstream, hret⟩

theorem length_sendingBuf_of_reachable (h : Reachable linkStep LinkStart l) (x : Side) :
    (l x).sock.sendingBuf.length ≤ intMax := by
  refine h.invariant (I := fun l => ∀ x, (l x).sock.sendingBuf.length ≤ intMax) (fun l h0 y => ?_)
    (fun l e l' ih hs => ?_) x
  · obtain ⟨s, hs, -, hy⟩ := h0 y
    rw [hy]
    exact (congrArg List.length hs.sending).trans_le (Nat.zero_le _)
  · rcases linkStep_cases hs with ⟨y, c, a, rfl, hcall, rfl⟩ | ⟨y, n, pkt, a, rfl, -, hpkt, rfl⟩
    · exact (Function.forall_update_iff l (p := fun _ b => b.sock.sendingBuf.length ≤ intMax)).mpr
        ⟨length_sendingBuf_callStep hcall (ih y), fun z _ => ih z⟩
    · have hend : endStep (l y) (.packet pkt) = .ret a := hpkt
      exact (Function.forall_update_iff l (p := fun _ b => b.sock.sendingBuf.length ≤ intMax)).mpr
        ⟨length_sendingBuf_le hend (ih y), fun z _ => ih z⟩

/-- The bytes in flight at an established end and its next chunk are far from wrapping round. -/
theorem inFlight_add_lt (hreach : Reachable linkStep LinkStart l) (h : NeverAborts l) {x : Side}
    (hst : (l x).sock.state = .established) :
    inFlight (l x).sock + (l x).sock.sendingBuf.length < 2 ^ 32 := by
  have hle := neverAborts_le h hst
  have hlen := length_sendingBuf_of_reachable hreach x
  rw [maxLen] at hle
  rw [intMax] at hlen
  omega

/-- **A step that does not overfill** leaves every end short of the limit. -/
theorem staysAlive_of_not_overfills (hreach : Reachable linkStep LinkStart l) (h : NeverAborts l)
    {e : LinkEvent} (he : ¬ Overfills l e) : StaysAlive l e := by
  intro l' hs
  have hquiet : ∀ l', linkStep l e = .ret l' → (∀ x, e ≠ .call x .stream) → NeverAborts l' := by
    intro l' hs hno
    rcases linkStep_cases hs with ⟨x, c, a, rfl, hcall, rfl⟩ | ⟨x, n, pkt, a, rfl, hmem, hpkt, rfl⟩
    · have hc : c ≠ .stream := fun hc => hno x (congrArg _ hc)
      obtain ⟨hwindow, -, hst⟩ := callStep_quiet hc hcall
      refine h.update fun hst' => ?_
      rw [inFlight_congr hwindow]
      exact neverAborts_le h (hst hst')
    · obtain ⟨t, packets, hhandle, rfl⟩ := packetStep_eq_ret hpkt
      have hstate := tjuHandlePacket_state hhandle
      refine h.update fun hst => ?_
      have hst' : (l x).sock.state = .established := hstate.symm.trans hst
      have hlong : headerLen ≤ pkt.length := Nat.not_lt.mp fun hlt => by
        rw [tjuHandlePacket, if_pos hlt] at hhandle
        contradiction
      rw [inFlight_packet hhandle]
      split_ifs with hack
      · exact Nat.not_lt.mp fun hlt => he ⟨hst', pkt, hmem, ⟨hlong, hack⟩, hlt⟩
      · exact neverAborts_le h hst'
  cases e with
  | deliver x n => exact hquiet l' hs fun _ => LinkEvent.noConfusion
  | call x c =>
    cases c with
    | send buffer | timeout | recv len => exact hquiet l' hs (by simp)
    | stream =>
      obtain ⟨r, hstream, hret⟩ := Outcome.bind_eq_ret.mp hs
      obtain rfl := Outcome.ret.inj hret
      have hstate := state_spillStream hstream
      refine h.update fun hst => ?_
      have hst' : (l x).sock.state = .established := hstate.symm.trans hst
      by_cases htakes : TakesChunk (l x).sock
      · obtain rfl := Outcome.ret.inj ((spillStream_takes htakes).symm.trans hstream)
        change inFlight (sentChunk _ _).sock ≤ maxLen
        rw [inFlight_sentChunk (inFlight_add_lt hreach h hst')]
        exact Nat.not_lt.mp fun hlt => he ⟨hst', htakes, hlt⟩
      · obtain rfl := spillStream_idle htakes hstream
        exact neverAborts_le h hst'

/-- **A step that overfills** leaves a state in which a timeout would end the process. -/
theorem aborts_of_overfills (hreach : Reachable linkStep LinkStart l) (h : NeverAborts l)
    {e : LinkEvent} (he : Overfills l e) : ¬ StaysAlive l e := by
  intro hstays
  cases e with
  | call x c =>
    cases c with
    | stream =>
      obtain ⟨hst, htakes, hlt⟩ := he
      have hstream := spillStream_takes htakes
      refine not_neverAborts_update ?_ ?_ (hstays _ (Outcome.bind_eq_ret.mpr ⟨_, hstream, rfl⟩))
      · exact (state_spillStream hstream).trans hst
      · exact hlt.trans_eq (inFlight_sentChunk (inFlight_add_lt hreach h hst)).symm
    | send buffer | timeout | recv len => exact he.elim
  | deliver x n =>
    obtain ⟨hst, pkt, hmem, ⟨hlong, hack⟩, hlt⟩ := he
    obtain ⟨f, -, hf⟩ := Simulates.of_reachable hreach
    have hsized := ((hf.peer x).handed pkt (List.mem_of_getElem? hmem)).sized hlong
    obtain ⟨⟨t, packets⟩, hhandle⟩ : ∃ r, tjuHandlePacket (l x).sock pkt = .ret r :=
      ⟨_, tjuHandlePacket_eq hsized _⟩
    have hpacket : packetStep (l x) pkt = .ret _ := Outcome.bind_eq_ret.mpr ⟨_, hhandle, rfl⟩
    refine not_neverAborts_update ?_ ?_ (hstays _ (linkStep_packet hmem hpacket))
    · exact (tjuHandlePacket_state hhandle).trans hst
    · have hflight := inFlight_packet hhandle
      rw [if_pos hack] at hflight
      exact hlt.trans_eq hflight.symm

end Step

theorem neverAborts_start {l : Link} (h : LinkStart l) : NeverAborts l := by
  intro x _ hexit
  obtain ⟨s, hs, -, hx⟩ := h x
  rw [tcpRetransmitTimer_exits_iff, hx] at hexit
  have hzero : inFlight (EndState.start s).sock = 0 := by
    have hsub : inFlight (EndState.start s).sock = (s.nextseq - s.base).toNat := rfl
    rw [hsub, hs.nextseq, hs.base]
    rfl
  rw [hzero] at hexit
  exact absurd hexit (Nat.not_lt_zero _)

/-- **Exactly when a timeout never ends the process.**  In every run of a link no step leaves an
established end that would exit in `tcp_retransmit_timer` **if and only if** no step makes more than
`MAX_LEN` bytes be in flight: no chunk is taken that does, and no ACK is that late. -/
theorem neverAborts_iff {l : Link} (h : LinkStart l) (es : List LinkEvent) :
    EveryStep linkStep StaysAlive l es ↔ EveryStep linkStep (fun l e => ¬ Overfills l e) l es :=
  everyStep_iff_everyStep (I := fun l => Reachable linkStep LinkStart l ∧ NeverAborts l)
    (fun _ e l' hI he hs => ⟨hI.1.step e hs,
      staysAlive_of_not_overfills hI.1 hI.2 he l' (spillStep_of_ret hs)⟩)
    (fun _ _ hI => ⟨fun hstays he => aborts_of_overfills hI.1 hI.2 he hstays,
      staysAlive_of_not_overfills hI.1 hI.2⟩)
    ⟨.init h, neverAborts_start h⟩ es

/-- A run in which three bytes are sent and acknowledged. -/
theorem neverAborts_iff_three : EveryStep linkStep StaysAlive zeroedLink
    [.call .client (.send [1, 2, 3]), .call .client .stream, .deliver .server 0,
      .deliver .client 0] :=
  (neverAborts_iff linkStart_zeroedLink _).mpr (by decide)

/-- The client sends one byte, the timer runs out for the first time, the byte is acknowledged; then
the client sends 1024 bytes twice. -/
def twiceUnacknowledged : List LinkEvent :=
  [.call .client (.send [7]), .call .client .stream, .call .client .timeout, .deliver .server 0,
    .deliver .client 0, .call .client (.send (.replicate 1024 0)), .call .client .stream,
    .call .client (.send (.replicate 1024 0)), .call .client .stream]

/-- **A timeout that ends the process**: the timer is running, and when it runs out the process
exits. -/
theorem neverAborts_fails_twice : LinkStart zeroedLink ∧
    ¬ Along linkStep NeverAborts zeroedLink twiceUnacknowledged ∧
    ∃ l, run linkStep zeroedLink twiceUnacknowledged = .ret l ∧
      (l .client).sock.rttTimer.armed = true ∧ timerExpiry (l .client).sock = .exit := by
  have hrun : (run linkStep zeroedLink twiceUnacknowledged >>= fun l =>
      .ret ((l .client).sock.state, inFlight (l .client).sock, (l .client).sock.rttTimer.armed,
        match timerExpiry (l .client).sock with | .exit => true | _ => false)) =
      .ret (.established, 2048, true, true) := by decide +kernel
  obtain ⟨l, hl, hret⟩ := Outcome.bind_eq_ret.mp hrun
  obtain ⟨hst, hret⟩ := Prod.mk.inj (Outcome.ret.inj hret)
  obtain ⟨hflight, hret⟩ := Prod.mk.inj hret
  obtain ⟨harmed, hexit⟩ := Prod.mk.inj hret
  refine ⟨linkStart_zeroedLink, fun h => ?_, l, hl, harmed, ?_⟩
  · have hle := neverAborts_le (h.last hl) hst
    rw [hflight] at hle
    exact absurd hle (by decide)
  · cases hcall : timerExpiry (l .client).sock with
    | exit => rfl
    | ret r | blocked | undef =>
      rw [hcall] at hexit
      exact absurd hexit Bool.false_ne_true

end TrivalTcp
