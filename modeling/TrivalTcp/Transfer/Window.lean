import TrivalTcp.Transfer.Delivery

/-!
# Transfer/Window — what changes the send window, and where it is read and written

Two things change `wnd_send`: the sender thread when it gives a chunk sequence numbers (`Sends`),
and a packet that arrives.  Everything else an end does leaves it as it is (`callStep_quiet`).

`send_windows` has `TCP_SEND_WINDOW_SIZE` bytes and is indexed by sequence numbers, which only grow:
`inBounds_iff` says that a connection stays inside exactly as long as all its chunks together do.
-/

namespace TrivalTcp

/-- Adding to a sequence number adds to its distance. -/
theorem toNat_add_sub {a b : UInt32} {n : ℕ} (h : (a - b).toNat + n < 2 ^ 32) :
    (a + .ofNat n - b).toNat = (a - b).toNat + n := by
  rw [UInt32.toNat_sub] at h ⊢
  rw [UInt32.toNat_sub, UInt32.toNat_add, UInt32.toNat_ofNat']
  omega

/-! ## The sender thread -/

/-- The next iteration of the sender thread takes a chunk and finds the window open. -/
def TakesChunk (s : TjuTcp) : Prop := s.sendingBuf ≠ [] ∧ s.sendLock = false ∧ WindowOpen s

/-- It does, and there is room in `send_windows`: the chunk gets its sequence numbers. -/
def Sends (s : TjuTcp) : Prop :=
  TakesChunk s ∧ s.nextseq.toNat + s.sendingBuf.length ≤ s.window.wndSend.sendWindows.size

instance (s : TjuTcp) : Decidable (TakesChunk s) := inferInstanceAs (Decidable (_ ∧ _ ∧ _))

instance (s : TjuTcp) : Decidable (Sends s) := inferInstanceAs (Decidable (_ ∧ _))

section Thread

variable {s : TjuTcp}

/-- **An iteration that sends its chunk.** -/
theorem tcpSendStream_sends (h : Sends s) :
    tcpSendStream s = .ret (sentChunk (s.setSendingBuf []) s.sendingBuf) := by
  obtain ⟨⟨hne, hlock, hopen⟩, hroom⟩ := h
  have hopen' : WindowOpen (s.setSendingBuf []) := hopen
  have hroom' : (s.setSendingBuf []).nextseq.toNat + s.sendingBuf.length ≤
      (s.setSendingBuf []).window.wndSend.sendWindows.size := hroom
  rw [tcpSendStream_eq hne hlock, sendChunk_open hopen' hroom']

/-- An iteration that sends nothing only empties the buffer, if that. -/
theorem tcpSendStream_idle (h : ¬ Sends s) {r : Sent} (hs : tcpSendStream s = .ret r) :
    r = ⟨s.setSendingBuf [], [], []⟩ := by
  rcases tcpSendStream_cases hs with ⟨hnil, rfl⟩ | ⟨hne, hlock, hchunk⟩
  · rw [← hnil]
    rfl
  · rcases sendChunk_cases hchunk with ⟨-, rfl⟩ | ⟨hopen, hroom, -⟩
    · rfl
    · exact absurd ⟨⟨hne, hlock, hopen⟩, hroom⟩ h

/-- A chunk that does not fit into `send_windows` is copied past its end. -/
theorem tcpSendStream_undef (h : TakesChunk s) (hroom : ¬ Sends s) : tcpSendStream s = .undef := by
  obtain ⟨hne, hlock, hopen⟩ := h
  have hopen' : WindowOpen (s.setSendingBuf []) := hopen
  have hbeyond : (s.setSendingBuf []).window.wndSend.sendWindows.size <
      (s.setSendingBuf []).nextseq.toNat + s.sendingBuf.length :=
    Nat.not_le.mp fun hle => hroom ⟨⟨hne, hlock, hopen⟩, hle⟩
  rw [tcpSendStream_eq hne hlock, sendChunk, if_pos hopen', if_pos hbeyond]

/-- An iteration as it goes on where the copy reaches past the end of `send_windows`: the bytes
behind the end are written over, and the chunk is sent all the same. -/
def spillStream (s : TjuTcp) : Outcome Sent :=
  if TakesChunk s then .ret (sentChunk (s.setSendingBuf []) s.sendingBuf) else tcpSendStream s

theorem spillStream_takes (h : TakesChunk s) :
    spillStream s = .ret (sentChunk (s.setSendingBuf []) s.sendingBuf) := if_pos h

/-- **Where an iteration returns**, that is what it does. -/
theorem spillStream_of_ret {r : Sent} (hs : tcpSendStream s = .ret r) :
    spillStream s = .ret r := by
  by_cases htakes : TakesChunk s
  · by_cases hsends : Sends s
    · rw [spillStream_takes htakes, ← hs, tcpSendStream_sends hsends]
    · rw [tcpSendStream_undef htakes hsends] at hs
      contradiction
  · rw [spillStream, if_neg htakes, hs]

/-- An iteration that takes no chunk hands nothing on. -/
theorem spillStream_idle (h : ¬ TakesChunk s) {r : Sent} (hs : spillStream s = .ret r) :
    r = ⟨s.setSendingBuf [], [], []⟩ := by
  rw [spillStream, if_neg h] at hs
  exact tcpSendStream_idle (fun hsends => h hsends.1) hs

end Thread

/-! ## Everything else -/

section Quiet

variable {s t : TjuTcp} {packets : List Buf}

/-- **A timer that runs out leaves the window as it is**, and opens no connection. -/
theorem timerExpiry_quiet (hs : timerExpiry s = .ret (t, packets)) :
    t.window = s.window ∧ (t.state = .established → s.state = .established) := by
  rcases timerExpiry_frame hs with ⟨-, rfl⟩ | ⟨-, _, _, _, _, _, _, _, rfl⟩
  · exact ⟨rfl, fun hest => TcpState.noConfusion hest⟩
  · exact ⟨rfl, id⟩

/-- **Only the sender thread sends new data**: no other call changes the window. -/
theorem callStep_quiet {a a' : EndState} {c : Call} (hc : c ≠ .stream)
    (hs : callStep a c = .ret a') :
    a'.sock.window = a.sock.window ∧ a'.copied = a.copied ∧
      (a'.sock.state = .established → a.sock.state = .established) := by
  cases c with
  | send buffer =>
    rcases callStep_send_eq_ret hs with rfl | rfl
    · exact ⟨rfl, rfl, id⟩
    · exact ⟨rfl, rfl, id⟩
  | stream => exact absurd rfl hc
  | timeout =>
    obtain ⟨t, packets, hexp, rfl⟩ := callStep_timeout_eq_ret hs
    obtain ⟨hwindow, hst⟩ := timerExpiry_quiet hexp
    exact ⟨hwindow, rfl, hst⟩
  | recv len =>
    obtain ⟨bytes, rest, -, rfl⟩ := callStep_recv_eq_ret hs
    exact ⟨rfl, rfl, id⟩

/-- `sending_len` is an `int`: `tcp_send` takes no more than one can count. -/
theorem length_sendingBuf_callStep {a a' : EndState} {c : Call} (hs : callStep a c = .ret a')
    (h : a.sock.sendingBuf.length ≤ intMax) : a'.sock.sendingBuf.length ≤ intMax := by
  cases c with
  | send buffer =>
    obtain ⟨⟨t, status⟩, hsend, hret⟩ := Outcome.bind_eq_ret.mp hs
    obtain rfl := Outcome.ret.inj hret
    rw [tcpSend] at hsend
    split_ifs at hsend with hlock hmax
    · obtain ⟨rfl, -⟩ := Prod.mk.inj (Outcome.ret.inj hsend)
      exact List.length_append.trans_le (Nat.not_lt.mp hmax)
    · obtain ⟨rfl, -⟩ := Prod.mk.inj (Outcome.ret.inj hsend)
      exact h
  | stream =>
    obtain ⟨r, hstream, rfl⟩ := callStep_stream_eq_ret hs
    obtain ⟨_, _, _, -, -, hsock⟩ := tcpSendStream_frame hstream
    exact (congrArg (fun t : TjuTcp => t.sendingBuf.length) hsock).trans_le (Nat.zero_le _)
  | timeout =>
    obtain ⟨t, packets, hexp, rfl⟩ := callStep_timeout_eq_ret hs
    rcases timerExpiry_frame hexp with ⟨-, rfl⟩ | ⟨-, _, _, _, _, _, _, _, rfl⟩
    · exact h
    · exact h
  | recv len =>
    obtain ⟨bytes, rest, -, rfl⟩ := callStep_recv_eq_ret hs
    exact h

end Quiet

/-! ## The link -/

section Link

variable {l l' : Link}

/-- **What a step of a link is**: one end makes a call or processes a packet. -/
theorem linkStep_cases {e : LinkEvent} (hs : linkStep l e = .ret l') :
    (∃ x c a, e = .call x c ∧ callStep (l x) c = .ret a ∧ l' = Function.update l x a) ∨
    (∃ x n pkt a, e = .deliver x n ∧ (l x.other).handed[n]? = some pkt ∧
      packetStep (l x) pkt = .ret a ∧ l' = Function.update l x a) := by
  cases e with
  | call x c =>
    obtain ⟨a, hcall, hret⟩ := Outcome.bind_eq_ret.mp hs
    exact .inl ⟨x, c, a, rfl, hcall, (Outcome.ret.inj hret).symm⟩
  | deliver x n =>
    rw [linkStep] at hs
    split at hs
    next => contradiction
    next pkt hpkt =>
      obtain ⟨a, hpacket, hret⟩ := Outcome.bind_eq_ret.mp hs
      exact .inr ⟨x, n, pkt, a, rfl, hpkt, hpacket, (Outcome.ret.inj hret).symm⟩

theorem linkStep_call {x : Side} {c : Call} {a : EndState} (h : callStep (l x) c = .ret a) :
    linkStep l (.call x c) = .ret (Function.update l x a) :=
  Outcome.bind_eq_ret.mpr ⟨a, h, rfl⟩

theorem linkStep_packet {x : Side} {n : ℕ} {pkt : Buf} {a : EndState}
    (hpkt : (l x.other).handed[n]? = some pkt) (h : packetStep (l x) pkt = .ret a) :
    linkStep l (.deliver x n) = .ret (Function.update l x a) := by
  rw [linkStep, hpkt]
  exact Outcome.bind_eq_ret.mpr ⟨a, h, rfl⟩

/-- The send window of an end, against what it has copied there. -/
structure SendOk (a : EndState) : Prop where
  nextseq : a.sock.nextseq.toNat = a.copied.length
  base_le : a.sock.base ≤ a.sock.nextseq
  size : a.sock.window.wndSend.sendWindows.size = tcpSendWindowSize
  copied_le : a.copied.length ≤ tcpSendWindowSize

/-- What has been copied has found room. -/
theorem copied_le_of_reachable (h : Reachable linkStep LinkStart l) (x : Side) :
    (l x).copied.length ≤ tcpSendWindowSize := by
  induction h generalizing x with
  | init h =>
    obtain ⟨s, -, -, hx⟩ := h x
    rw [hx]
    exact Nat.zero_le _
  | @step l l' e h hs ih =>
    obtain ⟨f, -, hf⟩ := Simulates.of_reachable h
    revert x
    rcases linkStep_cases hs with ⟨y, c, a, rfl, hcall, rfl⟩ | ⟨y, n, pkt, a, rfl, -, hpkt, rfl⟩
    · refine (Function.forall_update_iff l
        (p := fun _ b => b.copied.length ≤ tcpSendWindowSize)).mpr ⟨?_, fun z _ => ih z⟩
      by_cases hc : c = .stream
      · rw [hc] at hcall
        obtain ⟨r, hstream, rfl⟩ := callStep_stream_eq_ret hcall
        by_cases hsends : Sends (l y).sock
        · obtain rfl := Outcome.ret.inj (hstream.symm.trans (tcpSendStream_sends hsends))
          have hroom := hsends.2
          rw [← (hf y).nextseq, (hf y).size] at hroom
          exact List.length_append.trans_le hroom
        · obtain rfl := tcpSendStream_idle hsends hstream
          exact (congrArg List.length (List.append_nil (l y).copied)).trans_le (ih y)
      · rw [(callStep_quiet hc hcall).2.1]
        exact ih y
    · refine (Function.forall_update_iff l
        (p := fun _ b => b.copied.length ≤ tcpSendWindowSize)).mpr ⟨?_, fun z _ => ih z⟩
      obtain ⟨s, packets, -, rfl⟩ := packetStep_eq_ret hpkt
      exact ih y

/-- **On a link, `nextseq` counts what has been copied, and `base` is never beyond it.** -/
theorem SendOk.of_reachable (h : Reachable linkStep LinkStart l) (x : Side) : SendOk (l x) := by
  obtain ⟨f, hsafe, hf⟩ := Simulates.of_reachable h
  have hend := hf x
  refine ⟨hend.nextseq.symm, ?_, hend.size, copied_le_of_reachable h x⟩
  rw [UInt32.le_iff_toNat_le, ← hend.base, ← hend.nextseq, ← hend.stream]
  exact (hsafe x).base_le.trans (hsafe x).got_le

end Link

/-! ## Inside `send_windows` -/

/-- The timer, if it runs out now, makes `tcp_retransmit_timer` copy out of `send_windows`. -/
def Retransmits (s : TjuTcp) : Prop :=
  s.state = .established ∧ s.finishedHandshake ≠ 0 ∧ ¬ s.timeoutCounts > retransmitLimit ∧
    (s.nextseq - s.base).toNat ≤ maxLen

instance (s : TjuTcp) : Decidable (Retransmits s) := inferInstanceAs (Decidable (_ ∧ _ ∧ _ ∧ _))

/-- Where a call copies into `send_windows` or out of it, and how many bytes. -/
def accesses (s : TjuTcp) : Call → List (ℕ × ℕ)
  | .stream => if TakesChunk s then [(s.nextseq.toNat, s.sendingBuf.length)] else []
  | .timeout => if Retransmits s then [(s.base.toNat, (s.nextseq - s.base).toNat)] else []
  | _ => []

/-- Every copy of the step stays inside the bytes `tcp_socket` has allocated. -/
def InBounds (l : Link) (e : LinkEvent) : Prop :=
  ∀ x c, e = .call x c → ∀ a ∈ accesses (l x).sock c, a.1 + a.2 ≤ tcpSendWindowSize

/-- An end takes a chunk that, after all the chunks before it, comes to more than
`TCP_SEND_WINDOW_SIZE` bytes. -/
def Outgrows (l : Link) : LinkEvent → Prop
  | .call x .stream => TakesChunk (l x).sock ∧
      tcpSendWindowSize < (l x).copied.length + (l x).sock.sendingBuf.length
  | _ => False

instance (l : Link) : ∀ e, Decidable (Outgrows l e)
  | .call _ .stream => inferInstanceAs (Decidable (_ ∧ _))
  | .call _ (.send _) | .call _ .timeout | .call _ (.recv _) | .deliver _ _ =>
    inferInstanceAs (Decidable False)

/-- **One step stays inside** unless it takes such a chunk; a retransmission always does. -/
theorem inBounds_step {l : Link} (h : Reachable linkStep LinkStart l) (e : LinkEvent) :
    InBounds l e ↔ ¬ Outgrows l e := by
  cases e with
  | deliver x n => exact ⟨fun _ => id, fun _ _ _ he => LinkEvent.noConfusion he⟩
  | call x c =>
    have hok := SendOk.of_reachable h x
    have hcall : InBounds l (.call x c) ↔
        ∀ a ∈ accesses (l x).sock c, a.1 + a.2 ≤ tcpSendWindowSize := by
      constructor
      · exact fun hin => hin x c rfl
      · rintro hin y d he
        obtain ⟨rfl, rfl⟩ := LinkEvent.call.inj he
        exact hin
    rw [hcall]
    cases c with
    | stream =>
      by_cases htakes : TakesChunk (l x).sock
      · rw [accesses, if_pos htakes, List.forall_mem_singleton, hok.nextseq]
        exact ⟨fun hle hout => Nat.not_lt.mpr hle hout.2,
          fun hout => Nat.not_lt.mp fun hlt => hout ⟨htakes, hlt⟩⟩
      · rw [accesses, if_neg htakes]
        exact ⟨fun _ hout => htakes hout.1, fun _ _ hmem => absurd hmem List.not_mem_nil⟩
    | timeout =>
      refine ⟨fun _ => id, fun _ => ?_⟩
      by_cases hretr : Retransmits (l x).sock
      · have hle := UInt32.le_iff_toNat_le.mp hok.base_le
        have hcopied := hok.copied_le
        rw [← hok.nextseq] at hcopied
        rw [accesses, if_pos hretr, List.forall_mem_singleton,
          UInt32.toNat_sub_of_le _ _ hok.base_le]
        dsimp only
        omega
      · rw [accesses, if_neg hretr]
        exact fun _ hmem => absurd hmem List.not_mem_nil
    | send buffer | recv len => exact ⟨fun _ => id, fun _ _ hmem => absurd hmem List.not_mem_nil⟩

/-- **Exactly when `send_windows` is never indexed out of range.**  In every run of a link all
copies stay inside **if and only if** no end ever takes a chunk that makes all its chunks together
more than `TCP_SEND_WINDOW_SIZE` bytes: nothing is ever taken out again, whatever has been
acknowledged. -/
theorem inBounds_iff {l : Link} (h : LinkStart l) (es : List LinkEvent) :
    EveryStep linkStep InBounds l es ↔ EveryStep linkStep (fun l e => ¬ Outgrows l e) l es :=
  everyStep_congr (I := Reachable linkStep LinkStart) (fun _ e _ hl hs => hl.step e hs)
    (fun _ e hl => inBounds_step hl e) (.init h) es

/-- A run that sends one byte twice, the second time because the timer runs out. -/
theorem inBounds_iff_retransmit : EveryStep linkStep InBounds zeroedLink
    [.call .client (.send [7]), .call .client .stream, .call .client .timeout,
      .call .client .timeout] :=
  (inBounds_iff linkStart_zeroedLink _).mpr (by decide)

/-- **A copy past the end of `send_windows`**: one byte is sent, then `sending_buf` is filled, and
all of it is copied to offset 1. -/
theorem inBounds_fails_second : LinkStart zeroedLink ∧ ¬ EveryStep linkStep InBounds zeroedLink
    [.call .client (.send [7]), .call .client .stream,
      .call .client (.send (.replicate tcpSendBufferSize 0)), .call .client .stream] := by
  refine ⟨linkStart_zeroedLink, fun h => ?_⟩
  have hrun : (run linkStep zeroedLink
      [.call .client (.send [7]), .call .client .stream] >>= fun l =>
      .ret ((l .client).sock.sendLock, (l .client).sock.sendingBuf,
        (l .client).sock.sendingCapacity, (l .client).sock.nextseq,
        decide (WindowOpen (l .client).sock)))
      = .ret (false, [], tcpSendBufferSize, 1, true) := by decide
  obtain ⟨l, hl, hret⟩ := Outcome.bind_eq_ret.mp hrun
  obtain ⟨hlock, hempty, hcap, hnext, hopen⟩ : _ ∧ _ ∧ _ ∧ _ ∧ _ := by simpa using hret
  generalize hbuf : List.replicate tcpSendBufferSize (0 : UInt8) = buf at h
  have hlen : buf.length = tcpSendBufferSize := hbuf ▸ List.length_replicate
  have hsend : callStep (l .client) (.send buf) = .ret { l .client with
      sock := (l .client).sock.setSendingBuf buf
      accepted := (l .client).accepted ++ buf } := by
    have hsum : ((l .client).sock.sendingBuf ++ buf) = buf := by rw [hempty]; rfl
    have hmax : (l .client).sock.sendingBuf.length + buf.length ≤ intMax := by
      rw [hempty, hlen]
      decide
    have hroom : (l .client).sock.sendingBuf.length + buf.length ≤
        (l .client).sock.sendingCapacity := by
      rw [hempty, hlen, hcap]
      decide
    rw [callStep, tcpSend_accepts hlock hmax hroom, hsum]
    rfl
  have hsplit : EveryStep linkStep InBounds zeroedLink
      ([.call .client (.send [7]), .call .client .stream] ++
        [.call .client (.send buf), .call .client .stream]) := h
  have hlast := (hsplit.after hl).2 _ (linkStep_call hsend)
  have hin := hlast.1 .client .stream rfl (1, buf.length)
  rw [Function.update_self] at hin
  have hne : buf ≠ [] := by
    rw [← List.length_pos_iff, hlen]
    decide
  have htakes : TakesChunk ((l .client).sock.setSendingBuf buf) := ⟨hne, hlock, hopen⟩
  rw [accesses, if_pos htakes] at hin
  have hle := hin (List.mem_singleton.mpr (Prod.ext (congrArg UInt32.toNat hnext).symm rfl))
  rw [hlen] at hle
  exact absurd hle (by decide)

end TrivalTcp
