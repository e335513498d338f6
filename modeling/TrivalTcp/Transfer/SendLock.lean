import TrivalTcp.Transfer.Transfer

/-!
# Transfer/SendLock — who holds `send_lock`

Two functions take `send_lock`: `tcp_send` and an iteration of `tcp_send_stream`.  The second gives
it back in every case, the first only when it takes the buffer.  `leavesUsable_iff` says of whole
runs of the two **exactly** when the lock is free after every call.
-/

namespace TrivalTcp

/-! ## Calls -/

/-- A call that takes the lock. -/
inductive SendOp where
  | send (buffer : Buf)
  | stream

/-- The socket a call leaves, and the returned status; an iteration of `tcp_send_stream` returns
none, which is 0 here. -/
def sendCall (s : TjuTcp) : SendOp → Outcome (TjuTcp × ℤ)
  | .send buffer => tcpSend s buffer
  | .stream => tcpSendStream s >>= fun r => .ret (r.sock, 0)

def sendStep (s : TjuTcp) (op : SendOp) : Outcome TjuTcp := sendCall s op >>= fun r => .ret r.1

/-- Whatever the call about to be made returns, it has given the lock back; if it returns -1, it has
left the buffer and the lock as they were; and a `tcp_send` for which there is room succeeds
next. -/
def LeavesUsable (s : TjuTcp) (op : SendOp) : Prop := ∀ t status, sendCall s op = .ret (t, status) →
  t.sendLock = false ∧
  (status = -1 → t.sendingBuf = s.sendingBuf ∧ t.sendLock = s.sendLock) ∧
  ∀ buffer : Buf, t.sendingBuf.length + buffer.length ≤ t.sendingCapacity →
    ∃ u, tcpSend t buffer = .ret (u, 0)

/-- The call about to be made is a `tcp_send` of more than there is room for. -/
def Refuses (s : TjuTcp) (op : SendOp) : Prop := ∃ buffer : Buf, op = .send buffer ∧
  s.sendingCapacity < s.sendingBuf.length + buffer.length ∧
  s.sendingBuf.length + buffer.length ≤ intMax

/-! ## One call -/

/-- The lock is free, and `sending_capacity` is an `int`. -/
structure Unlocked (s : TjuTcp) : Prop where
  free : s.sendLock = false
  capacity : s.sendingCapacity ≤ intMax

section Call

variable {s t : TjuTcp} {op : SendOp} {status : ℤ}

/-- **A refused `tcp_send` keeps the lock.** -/
theorem tcpSend_refuses {buffer : Buf} (hlock : s.sendLock = false)
    (hroom : s.sendingCapacity < s.sendingBuf.length + buffer.length)
    (hmax : s.sendingBuf.length + buffer.length ≤ intMax) :
    tcpSend s buffer = .ret ({ s with sendLock := true }, -1) := by
  rw [tcpSend, hlock, if_neg (by decide), if_neg hmax.not_gt, if_neg hroom.not_ge]

/-- Once it is kept, `tcp_send` waits for ever. -/
theorem tcpSend_blocked (hlock : s.sendLock = true) (buffer : Buf) :
    tcpSend s buffer = .blocked := by
  rw [tcpSend, if_pos hlock]

namespace Unlocked

/-- A buffer for which there is room is taken. -/
theorem accepts (h : Unlocked s) {buffer : Buf}
    (hroom : s.sendingBuf.length + buffer.length ≤ s.sendingCapacity) :
    ∃ u, tcpSend s buffer = .ret (u, 0) :=
  ⟨_, tcpSend_accepts h.free (hroom.trans h.capacity) hroom⟩

/-- **A call that is not refused gives the lock back**, and returns 0. -/
theorem sendCall (h : Unlocked s) (hop : ¬ Refuses s op)
    (hs : sendCall s op = .ret (t, status)) : Unlocked t ∧ status = 0 := by
  cases op with
  | send buffer =>
    have hsend : tcpSend s buffer = .ret (t, status) := hs
    rw [tcpSend, h.free, if_neg (by decide)] at hsend
    split_ifs at hsend with hmax hroom
    · obtain ⟨rfl, rfl⟩ := Prod.mk.inj (Outcome.ret.inj hsend)
      exact ⟨⟨h.free, h.capacity⟩, rfl⟩
    · exact absurd ⟨buffer, rfl, not_le.mp hroom, not_lt.mp hmax⟩ hop
  | stream =>
    obtain ⟨r, hstream, hret⟩ := Outcome.bind_eq_ret.mp hs
    obtain ⟨rfl, rfl⟩ := Prod.mk.inj (Outcome.ret.inj hret)
    obtain ⟨_, _, _, -, -, hsock⟩ := tcpSendStream_frame hstream
    refine ⟨?_, rfl⟩
    rw [hsock]
    exact ⟨h.free, h.capacity⟩

theorem sendStep (h : Unlocked s) (hop : ¬ Refuses s op) (hs : sendStep s op = .ret t) :
    Unlocked t := by
  obtain ⟨⟨u, status⟩, hcall, hret⟩ := Outcome.bind_eq_ret.mp hs
  obtain rfl := Outcome.ret.inj hret
  exact (h.sendCall hop hcall).1

/-- **One call** leaves the socket usable exactly if it is not refused. -/
theorem leavesUsable_step (h : Unlocked s) (op : SendOp) : LeavesUsable s op ↔ ¬ Refuses s op := by
  constructor
  · rintro husable ⟨buffer, rfl, hroom, hmax⟩
    have hfree : true = false := (husable _ _ (tcpSend_refuses h.free hroom hmax)).1
    exact absurd hfree (by decide)
  · intro hop t status hs
    obtain ⟨ht, rfl⟩ := h.sendCall hop hs
    exact ⟨ht.free, fun hfail => absurd hfail (by decide), fun _ => ht.accepts⟩

end Unlocked

end Call

/-! ## Every run -/

/-- **Exactly when a socket stays usable.**  Along every run of `tcp_send` calls and iterations of
`tcp_send_stream` that finds the lock free, each call has given the lock back when it returns, a
call that returns -1 has changed nothing, and a `tcp_send` for which there is room succeeds, **if
and only if** no `tcp_send` is refused. -/
theorem leavesUsable_iff {s : TjuTcp} (hlock : s.sendLock = false)
    (hcapacity : s.sendingCapacity ≤ intMax) (ops : List SendOp) :
    EveryStep sendStep LeavesUsable s ops ↔ EveryStep sendStep (fun s op => ¬ Refuses s op) s ops :=
  everyStep_iff_everyStep (I := Unlocked) (fun _ _ _ h hop hs => h.sendStep hop hs)
    (fun _ op h => h.leavesUsable_step op) ⟨hlock, hcapacity⟩ ops

/-- One byte is sent on a new socket. -/
theorem leavesUsable_iff_byte :
    EveryStep sendStep LeavesUsable (tcpSocket default) [.send [7]] := by
  refine (leavesUsable_iff rfl (by decide) [.send [7]]).mpr ⟨?_, fun _ _ => trivial⟩
  rintro ⟨buffer, hop, hroom, -⟩
  obtain rfl := SendOp.send.inj hop
  exact absurd hroom (by decide)

/-- **A refused send locks the socket up**: 176001 bytes do not fit into the buffer of a new socket,
the lock stays held, and the next `tcp_send` of one byte, for which there is room, never returns. -/
theorem leavesUsable_fails_long :
    ∃ s, tcpSend (tcpSocket default) (.replicate 176001 0) = .ret (s, -1) ∧
      s.sendLock = true ∧ tcpSend s [7] = .blocked ∧
      ¬ LeavesUsable (tcpSocket default) (.send (.replicate 176001 0)) := by
  generalize hbuffer : List.replicate 176001 (0 : UInt8) = buffer
  have hlength : buffer.length = 176001 := hbuffer ▸ List.length_replicate
  have hroom : (tcpSocket default).sendingCapacity <
      (tcpSocket default).sendingBuf.length + buffer.length := by
    rw [hlength]
    decide
  have hmax : (tcpSocket default).sendingBuf.length + buffer.length ≤ intMax := by
    rw [hlength]
    decide
  have hunlocked : Unlocked (tcpSocket default) := ⟨rfl, by decide⟩
  refine ⟨_, tcpSend_refuses rfl hroom hmax, rfl, tcpSend_blocked rfl [7], fun husable => ?_⟩
  exact (hunlocked.leavesUsable_step _).mp husable ⟨buffer, rfl, hroom, hmax⟩

end TrivalTcp
