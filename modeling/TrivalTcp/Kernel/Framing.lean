import TrivalTcp.Foundations.Run
import TrivalTcp.Packet.Codec

/-!
# Kernel/Framing — packets out of datagrams

`receive_thread` takes datagrams out of a UDP socket.  It peeks at a header, believes its `plen`,
and reads datagrams into one buffer until that many bytes have come.  A datagram that is just as
long as its `plen` says goes through whole (`run_receiveStep`); `frames_iff` says that no other does
— each of them stalls the thread, is merged with what follows, or is handed on cut short.

The socket is a queue of datagrams.  Peeking reads a prefix of the first; reading takes the first
out and keeps as much of it as there is room for.
-/

namespace TrivalTcp

/-! ## The thread -/

/-- The inner loop of `receive_thread`: `pkt` is filled with datagrams until it holds `plen` bytes,
and what a datagram has beyond that is lost. -/
def receivePlen (plen : ℕ) : List Buf → Buf → Outcome (Buf × List Buf)
  | [], pkt => if pkt.length < plen then .blocked else .ret (pkt, [])
  | d :: queue, pkt =>
    if pkt.length < plen then receivePlen plen queue (pkt ++ d.take (plen - pkt.length))
    else .ret (pkt, d :: queue)

/-- One iteration of `receive_thread`: the packet it has for `onTCPPocket`, if any, and the
datagrams that are left. -/
def receiveOnce : List Buf → Outcome (Option Buf × List Buf)
  | [] => .blocked
  | d :: queue =>
    let hdr := d.take headerLen
    if hdr.length ≥ headerLen then
      receivePlen (getPlen hdr).toNat (d :: queue) [] >>= fun (pkt, queue) => .ret (some pkt, queue)
    else
      -- a datagram that has only been peeked at stays
      .ret (none, d :: queue)

/-- One iteration on a host, where `onPocket` is what becomes of a packet. -/
def receiveStep {σ : Type} (onPocket : σ → Buf → Outcome σ) (s : List Buf × σ) (_ : Unit) :
    Outcome (List Buf × σ) :=
  receiveOnce s.1 >>= fun (pkt, queue) =>
    match pkt with
    | none => .ret (queue, s.2)
    | some pkt => onPocket s.2 pkt >>= fun k => .ret (queue, k)

/-- A datagram that holds a header, and is as long as it says. -/
def WellFramed (d : Buf) : Prop := headerLen ≤ d.length ∧ (getPlen d).toNat = d.length

instance (d : Buf) : Decidable (WellFramed d) := inferInstanceAs (Decidable (_ ∧ _))

/-! ## One iteration -/

section Once

variable {d : Buf} {queue : List Buf}

/-- A peek sees the length field. -/
theorem getPlen_take (d : Buf) : getPlen (d.take headerLen) = getPlen d := by
  rw [getPlen, getPlen, get16, get16, Bytes.sub, Bytes.sub, List.drop_take, List.take_take]
  rfl

theorem receivePlen_done {plen : ℕ} {pkt : Buf} (h : plen ≤ pkt.length) :
    receivePlen plen queue pkt = .ret (pkt, queue) := by
  cases queue with
  | nil => rw [receivePlen, if_neg (Nat.not_lt.mpr h)]
  | cons d queue => rw [receivePlen, if_neg (Nat.not_lt.mpr h)]

/-- The first datagram of a packet. -/
theorem receivePlen_first {plen : ℕ} (h : 0 < plen) :
    receivePlen plen (d :: queue) [] = receivePlen plen queue (d.take plen) := if_pos h

theorem receiveOnce_long (h : headerLen ≤ d.length) : receiveOnce (d :: queue) =
    receivePlen (getPlen d).toNat (d :: queue) [] >>= fun (pkt, queue) =>
      .ret (some pkt, queue) := by
  have hhdr : (d.take headerLen).length ≥ headerLen := by
    rw [List.length_take, Nat.min_eq_left h]
  dsimp only [receiveOnce]
  rw [if_pos hhdr, getPlen_take]

/-- **A datagram too short to hold a header is never taken out.** -/
theorem receiveOnce_short (h : d.length < headerLen) :
    receiveOnce (d :: queue) = .ret (none, d :: queue) := by
  have hhdr : ¬ (d.take headerLen).length ≥ headerLen := by
    rw [List.length_take]
    omega
  dsimp only [receiveOnce]
  rw [if_neg hhdr]

/-- Nor is one that claims to be empty. -/
theorem receiveOnce_zero (h : headerLen ≤ d.length) (hplen : (getPlen d).toNat = 0) :
    receiveOnce (d :: queue) = .ret (some [], d :: queue) := by
  rw [receiveOnce_long h, hplen, receivePlen_done (Nat.zero_le _)]
  rfl

/-- One that is long enough is taken out, and cut to the length it claims. -/
theorem receiveOnce_cut (h : headerLen ≤ d.length) (hpos : 0 < (getPlen d).toNat)
    (hplen : (getPlen d).toNat ≤ d.length) :
    receiveOnce (d :: queue) = .ret (some (d.take (getPlen d).toNat), queue) := by
  have hfull : (getPlen d).toNat ≤ (d.take (getPlen d).toNat).length := by
    rw [List.length_take, Nat.min_eq_left hplen]
  rw [receiveOnce_long h, receivePlen_first hpos, receivePlen_done hfull]
  rfl

/-- **A well-framed datagram goes through whole.** -/
theorem receiveOnce_wellFramed (h : WellFramed d) :
    receiveOnce (d :: queue) = .ret (some d, queue) := by
  have hpos : 0 < (getPlen d).toNat := by
    rw [h.2]
    exact lt_of_lt_of_le (by decide) h.1
  rw [receiveOnce_cut h.1 hpos h.2.le, h.2, List.take_length]

/-- One that claims to be longer than it is makes the thread wait for more. -/
theorem receiveOnce_over (h : headerLen ≤ d.length) (hplen : d.length < (getPlen d).toNat) :
    receiveOnce [d] = .blocked := by
  have hpos : 0 < (getPlen d).toNat := Nat.zero_lt_of_lt hplen
  have hmore : (d.take (getPlen d).toNat).length < (getPlen d).toNat :=
    (List.length_take_le' _ _).trans_lt hplen
  rw [receiveOnce_long h, receivePlen_first hpos, receivePlen, if_pos hmore]
  rfl

/-- **What an iteration does with the last datagram**: it leaves it, or takes it out and hands it on
up to the length it claims. -/
theorem receiveOnce_last {pkt : Option Buf} (hs : receiveOnce [d] = .ret (pkt, queue)) :
    queue = [d] ∨ (queue = [] ∧ pkt = some (d.take (getPlen d).toNat)) := by
  by_cases h : headerLen ≤ d.length
  · rcases Nat.eq_zero_or_pos (getPlen d).toNat with hzero | hpos
    · rw [receiveOnce_zero h hzero] at hs
      exact .inl (Prod.mk.inj (Outcome.ret.inj hs)).2.symm
    · rcases Nat.lt_or_ge d.length (getPlen d).toNat with hover | hcut
      · rw [receiveOnce_over h hover] at hs
        contradiction
      · rw [receiveOnce_cut h hpos hcut] at hs
        obtain ⟨rfl, rfl⟩ := Prod.mk.inj (Outcome.ret.inj hs)
        exact .inr ⟨rfl, rfl⟩
  · rw [receiveOnce_short (Nat.not_le.mp h)] at hs
    exact .inl (Prod.mk.inj (Outcome.ret.inj hs)).2.symm

end Once

/-! ## Queues that are framed -/

/-- **Well-framed datagrams are handed on one by one**, whatever becomes of them. -/
theorem run_receiveStep {σ : Type} (onPocket : σ → Buf → Outcome σ) {queue : List Buf}
    (h : ∀ d ∈ queue, WellFramed d) (rest : List Buf) (k : σ) :
    run (receiveStep onPocket) (queue ++ rest, k) (.replicate queue.length ()) =
      run onPocket k queue >>= fun k => .ret (rest, k) := by
  induction queue generalizing k with
  | nil => rfl
  | cons d queue ih =>
    have hd := h d List.mem_cons_self
    have hstep : receiveStep onPocket (d :: queue ++ rest, k) () =
        onPocket k d >>= fun k => .ret (queue ++ rest, k) := by
      rw [receiveStep, List.cons_append, receiveOnce_wellFramed hd]
      rfl
    rw [List.length_cons, List.replicate_succ, run_cons, hstep, run_cons]
    cases onPocket k d with
    | ret k' => exact ih (fun d hmem => h d (List.mem_cons_of_mem _ hmem)) k'
    | blocked | exit | undef => rfl

/-- The packets handed to `onTCPPocket`, in order. -/
def handOver (handed : List Buf) (pkt : Buf) : Outcome (List Buf) := .ret (handed ++ [pkt])

theorem run_handOver (queue handed : List Buf) :
    run handOver handed queue = .ret (handed ++ queue) := by
  induction queue generalizing handed with
  | nil => rw [run_nil, List.append_nil]
  | cons d queue ih =>
    rw [run_cons, handOver, Outcome.ret_bind, ih, List.append_assoc]
    rfl

/-- The thread gets through the queue and is back at its peek, having handed on just the well-framed
datagrams. -/
def Frames (queue : List Buf) : Prop :=
  ∃ n, run (receiveStep handOver) (queue, []) (.replicate n ()) =
    .ret ([], queue.filter fun d => WellFramed d)

/-- **A well-framed queue is got through**, packet by packet. -/
theorem frames_of_wellFramed {queue : List Buf} (h : ∀ d ∈ queue, WellFramed d) : Frames queue := by
  have hall : (queue.filter fun d => WellFramed d) = queue :=
    List.filter_eq_self.mpr fun d hd => decide_eq_true (h d hd)
  have hrun := run_receiveStep handOver h [] []
  rw [List.append_nil, run_handOver] at hrun
  exact ⟨queue.length, hrun.trans (by rw [hall]; rfl)⟩

/-- The thread while `d` is the last datagram: it is taken out only with a packet, and then more
packets have been handed on than there are datagrams before it. -/
def Behind (before : List Buf) (d : Buf) (s : List Buf × List Buf) : Prop :=
  (∃ left, s.1 = left ++ [d] ∧ (∀ x ∈ left, WellFramed x) ∧
      before.length ≤ s.2.length + left.length) ∨
    (s.1 = [] ∧ before.length < s.2.length)

theorem behind_step {before : List Buf} {d : Buf} {s s' : List Buf × List Buf}
    (h : Behind before d s) (hs : receiveStep handOver s () = .ret s') : Behind before d s' := by
  obtain ⟨⟨pkt, queue⟩, honce, hret⟩ := Outcome.bind_eq_ret.mp hs
  rcases h with ⟨left, hqueue, hleft, hlen⟩ | ⟨hqueue, -⟩
  · rw [hqueue] at honce
    cases left with
    | nil =>
      rw [List.length_nil, Nat.add_zero] at hlen
      rcases receiveOnce_last honce with rfl | ⟨rfl, rfl⟩
      · refine .inl ⟨[], ?_⟩
        cases pkt with
        | none =>
          obtain rfl := Outcome.ret.inj hret
          exact ⟨rfl, hleft, hlen⟩
        | some pkt =>
          obtain rfl := Outcome.ret.inj hret
          exact ⟨rfl, hleft, hlen.trans (by simp)⟩
      · obtain rfl := Outcome.ret.inj hret
        exact .inr ⟨rfl, hlen.trans_lt (by simp)⟩
    | cons x left =>
      rw [List.cons_append, receiveOnce_wellFramed (hleft x List.mem_cons_self)] at honce
      obtain ⟨rfl, rfl⟩ := Prod.mk.inj (Outcome.ret.inj honce)
      obtain rfl := Outcome.ret.inj hret
      refine .inl ⟨left, rfl, fun y hy => hleft y (List.mem_cons_of_mem _ hy), hlen.trans ?_⟩
      simp
      omega
  · rw [hqueue] at honce
    contradiction

/-- **A last datagram that is framed is well framed.** -/
theorem wellFramed_of_frames {before : List Buf} {d : Buf} (hbefore : ∀ x ∈ before, WellFramed x)
    (h : Frames (before ++ [d])) : WellFramed d := by
  obtain ⟨n, hrun⟩ := h
  have hstart : Behind before d (before ++ [d], []) :=
    .inl ⟨before, rfl, hbefore, Nat.le_add_left _ _⟩
  have hend := run_invariant (I := Behind before d)
    (fun _ _ _ _ hI hs => behind_step hI hs) hstart hrun
  rcases hend with ⟨left, hqueue, -⟩ | ⟨-, hlen⟩
  · exact absurd hqueue.symm (List.append_ne_nil_of_right_ne_nil left (List.cons_ne_nil d []))
  · by_contra hd
    have hfilter : ((before ++ [d]).filter fun d => WellFramed d).length = before.length := by
      rw [List.filter_append, List.filter_singleton, decide_eq_false hd, cond_false,
        List.append_nil, List.filter_eq_self.mpr fun x hx => decide_eq_true (hbefore x hx)]
    exact absurd hfilter hlen.ne'

/-- **Exactly when framing is right.**  As the datagrams come in one by one, the thread gets through
all that have come, hands on the well-framed ones and drops the others **if and only if** there are
no others. -/
theorem frames_iff (queue : List Buf) :
    (∀ come, come <+: queue → Frames come) ↔ ∀ d ∈ queue, WellFramed d := by
  constructor
  · intro h
    induction queue using List.reverseRecOn with
    | nil => exact fun d hd => absurd hd List.not_mem_nil
    | append_singleton before d ih =>
      have hbefore := ih fun come hcome => h come (hcome.trans (List.prefix_append before [d]))
      have hd := wellFramed_of_frames hbefore (h _ List.prefix_rfl)
      rintro x hx
      rcases List.mem_append.mp hx with hx | hx
      · exact hbefore x hx
      · exact List.mem_singleton.mp hx ▸ hd
  · intro h come hcome
    exact frames_of_wellFramed fun d hd => h d (hcome.subset hd)

/-- A datagram too short to hold a header is peeked at again and again. -/
theorem run_receiveStep_short {σ : Type} (onPocket : σ → Buf → Outcome σ) {d : Buf}
    (h : d.length < headerLen) (queue : List Buf) (k : σ) (n : ℕ) :
    run (receiveStep onPocket) (d :: queue, k) (.replicate n ()) = .ret (d :: queue, k) := by
  have hstep : receiveStep onPocket (d :: queue, k) () = .ret (d :: queue, k) := by
    rw [receiveStep, receiveOnce_short h]
    rfl
  induction n with
  | zero => rfl
  | succ n ih => rw [List.replicate_succ, run_cons, hstep, Outcome.ret_bind, ih]

/-- **One byte stops the thread for good**: the packet that has come behind it is never handed
on. -/
theorem frames_fails_short :
    WellFramed (createPacketBuf 5678 1234 0 0 22 25 Flag.noFlag 100 0 [1, 2, 3]) ∧
      ¬ Frames [[0], createPacketBuf 5678 1234 0 0 22 25 Flag.noFlag 100 0 [1, 2, 3]] := by
  refine ⟨by decide, ?_⟩
  rintro ⟨n, hrun⟩
  rw [run_receiveStep_short _ (by decide)] at hrun
  exact absurd (Prod.mk.inj (Outcome.ret.inj hrun)).1 (List.cons_ne_nil _ _)

end TrivalTcp
