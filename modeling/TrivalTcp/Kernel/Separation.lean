import TrivalTcp.Kernel.Demux

/-!
# Kernel/Separation — which sockets of a host share their objects

`tcp_accept` copies pointers, so the connections of a listening socket share its windows, its timer,
its queues and its `sending_buf`; its `received_buf` they share until one of them moves it or frees
it.  That is all the sharing there is.  The calls alone say who shares (`origin`), and:

* `share_iff_origin` — two sockets have either all of their objects in common or none, and all of
  them exactly when the same `tcp_socket` has made them;
* `separation_run` — a socket sees nothing of what happens to sockets of another origin.
-/

namespace TrivalTcp

variable {host : Side}

/-! ## Origins -/

/-- Where a socket comes from once an event has happened. -/
def originAfter (f : Ptr → Ptr) : HostEvent → Ptr → Ptr
  | .socket p _ => Function.update f p p
  | .accept l p => Function.update f p (f l)
  | _ => f

/-- **The `tcp_socket` a socket comes from**, read off the calls. -/
def origin (es : List HostEvent) : Ptr → Ptr := es.foldl originAfter id

/-- The pointers of every socket are those of its origin. -/
def HasOrigins (f : Ptr → Ptr) (h : Heap) : Prop :=
  ∀ p m, h.sock p = .live m → m.ptrs.toObjPtrs = .own (f p)

theorem originAfter_of_not_makesSocket {e : HostEvent} (he : makesSocket e = false)
    (f : Ptr → Ptr) : originAfter f e = f := by
  cases e with
  | socket | accept => contradiction
  | _ => rfl

theorem HasOrigins.step {f : Ptr → Ptr} {w w' : Host} {e : HostEvent}
    (h : HasOrigins f w.kernel.heap) (hs : hostStep host w e = .ret w') :
    HasOrigins (originAfter f e) w'.kernel.heap := by
  rcases hostStep_heap hs with ⟨p, junk, rfl, -, heq⟩ | ⟨l, p, m', rfl, hl, -, heq⟩ | ⟨he, heff⟩
  · rw [heq]
    intro q m hq
    change m.ptrs.toObjPtrs = .own (Function.update f p p q)
    by_cases hqp : q = p
    · rw [hqp, Heap.store_sock_self] at hq
      obtain rfl := Cell.live.inj hq
      rw [hqp, Function.update_self]
      rfl
    · rw [Heap.store_sock_of_ne hqp] at hq
      rw [Function.update_of_ne hqp]
      exact h q m hq
  · rw [heq]
    intro q m hq
    change m.ptrs.toObjPtrs = .own (Function.update f p (f l) q)
    by_cases hqp : q = p
    · rw [hqp, copy_sock_self] at hq
      obtain rfl := Cell.live.inj hq
      rw [hqp, Function.update_self]
      exact h l _ hl
    · rw [copy_sock_of_ne _ hqp] at hq
      rw [Function.update_of_ne hqp]
      exact h q m hq
  · rw [originAfter_of_not_makesSocket he]
    intro q m hq
    obtain ⟨m', hq', hptrs, -⟩ := heff.ptrs hq
    exact hptrs.trans (h q m' hq')

theorem HasOrigins.run {f : Ptr → Ptr} {w w' : Host} {es : List HostEvent}
    (h : HasOrigins f w.kernel.heap) (hr : run (hostStep host) w es = .ret w') :
    HasOrigins (es.foldl originAfter f) w'.kernel.heap := by
  induction es generalizing f w with
  | nil =>
    obtain rfl : w = w' := by simpa using hr
    exact h
  | cons e es ih =>
    obtain ⟨w₁, hs, hr⟩ := Outcome.bind_eq_ret.mp hr
    exact ih (h.step hs) hr

/-- No two pointers of one kind are the same, wherever `received_buf` leads. -/
def ObjPtrs.Disjoint (a b : ObjPtrs) : Prop :=
  a.wndSend ≠ b.wndSend ∧ a.wndRecv ≠ b.wndRecv ∧ a.rttTimer ≠ b.rttTimer ∧
    a.synQueue ≠ b.synQueue ∧ a.acceptQueue ≠ b.acceptQueue ∧ a.sendingBuf ≠ b.sendingBuf ∧
    a.receivedBufs ≠ b.receivedBufs

/-- **Who shares with whom.**  In every run of a host, two sockets share their windows, their timer,
their queues and their `sending_buf` if the same `tcp_socket` has made them, be it through any chain
of `tcp_accept`s.  Otherwise they share none of these, nor any block their `received_buf` can lead
to. -/
theorem share_iff_origin {w w' : Host} {es : List HostEvent} (h0 : HostStart w)
    (hr : run (hostStep host) w es = .ret w') {p q : Ptr} {m m' : SockMem}
    (hp : w'.kernel.heap.sock p = .live m) (hq : w'.kernel.heap.sock q = .live m') :
    (origin es p = origin es q → m.ptrs.toObjPtrs = m'.ptrs.toObjPtrs) ∧
      (origin es p ≠ origin es q → m.ptrs.toObjPtrs.Disjoint m'.ptrs.toObjPtrs) := by
  have hstart : HasOrigins id w.kernel.heap := fun p m hp => absurd hp h0.noSock
  have horigins := hstart.run hr
  rw [horigins p m hp, horigins q m' hq]
  exact ⟨congrArg ObjPtrs.own, fun hne => ⟨hne, hne, hne, hne, hne, hne, hne⟩⟩

/-- A server accepts a client, and makes another socket. -/
def threeSocketEvents : List HostEvent := acceptEvents ++ [.socket 2 default]

/-- The connection shares with the listening socket, and the other socket with neither. -/
theorem share_iff_origin_three : ∃ w m₀ m₁ m₂,
    run (hostStep .server) zeroedHost threeSocketEvents = .ret w ∧
      w.kernel.heap.sock 0 = .live m₀ ∧ w.kernel.heap.sock 1 = .live m₁ ∧
      w.kernel.heap.sock 2 = .live m₂ ∧ m₀.ptrs.toObjPtrs = m₁.ptrs.toObjPtrs ∧
      m₁.ptrs.toObjPtrs.Disjoint m₂.ptrs.toObjPtrs := by
  have hrun : (run (hostStep .server) zeroedHost threeSocketEvents >>= fun w =>
      w.kernel.heap.deref 0 >>= fun _ => w.kernel.heap.deref 1 >>= fun _ =>
        w.kernel.heap.deref 2 >>= fun _ => .ret ()) = .ret () := by decide
  obtain ⟨w, hw, hrun⟩ := Outcome.bind_eq_ret.mp hrun
  obtain ⟨m₀, h₀, hrun⟩ := Outcome.bind_eq_ret.mp hrun
  obtain ⟨m₁, h₁, hrun⟩ := Outcome.bind_eq_ret.mp hrun
  obtain ⟨m₂, h₂, -⟩ := Outcome.bind_eq_ret.mp hrun
  rw [Heap.deref_eq_ret] at h₀ h₁ h₂
  exact ⟨w, m₀, m₁, m₂, hw, h₀, h₁, h₂,
    (share_iff_origin hostStart_zeroedHost hw h₀ h₁).1 (by decide),
    (share_iff_origin hostStart_zeroedHost hw h₁ h₂).2 (by decide)⟩

/-! ## What happens to other sockets -/

/-- An event touches neither the socket at `q` nor one that shares its objects. -/
def Elsewhere (host : Side) (q : Ptr) (m : SockMem) (w : Host) (e : HostEvent) : Prop :=
  q ∉ touched host w e ∧
    ∀ p ∈ touched host w e, ∀ m', w.kernel.heap.sock p = .live m' →
      m'.ptrs.toObjPtrs ≠ m.ptrs.toObjPtrs

/-- An event is elsewhere if the sockets it touches have another origin. -/
theorem HasOrigins.elsewhere {f : Ptr → Ptr} {w : Host} (h : HasOrigins f w.kernel.heap) {q : Ptr}
    {m : SockMem} (hq : w.kernel.heap.sock q = .live m) {e : HostEvent}
    (he : ∀ p ∈ touched host w e, f p ≠ f q) : Elsewhere host q m w e := by
  refine ⟨fun hmem => he q hmem rfl, fun p hp m' hm' heq => he p hp ?_⟩
  rw [h p m' hm', h q m hq] at heq
  exact ObjPtrs.own_injective heq

/-- **One step elsewhere** leaves a socket as it was, and what its pointers lead to. -/
theorem separation_step {w w' : Host} {e : HostEvent} (hsep : Separate w.kernel.heap)
    (hs : hostStep host w e = .ret w') {q : Ptr} {m : SockMem}
    (hq : w.kernel.heap.sock q = .live m) (he : Elsewhere host q m w e) :
    w'.kernel.heap.sock q = .live m ∧ w'.kernel.heap.load m = w.kernel.heap.load m := by
  obtain ⟨o, ho, hused⟩ := hsep q m hq
  rcases hostStep_heap hs with ⟨p, junk, rfl, hp, heq⟩ | ⟨l, p, m', rfl, -, hp, heq⟩ | ⟨-, heff⟩
  · have hqp : q ≠ p := he.1
    rw [heq]
    have hop : o ≠ p := fun hop => hused (hop ▸ hp)
    refine ⟨(Heap.store_sock_of_ne hqp _ _).trans hq, ?_⟩
    rw [← Heap.storeMoved_same]
    exact (load_storeMoved_other ho rfl hop).trans (load_allocBuffers ho hop)
  · have hqp : q ≠ p := fun hqp => he.1 (.inr hqp)
    rw [heq]
    exact ⟨(copy_sock_of_ne _ hqp _).trans hq, rfl⟩
  · exact heff.frame hsep ⟨hq, he.1, he.2⟩

/-- **Sockets of different origins do not interfere.**  In every run of a host whose steps all touch
other sockets than one at hand and those it shares its objects with, that socket stays bit for bit
what it was, and so does everything its pointers lead to. -/
theorem separation_run {w w' : Host} (hw : Reachable (hostStep host) HostStart w)
    {es : List HostEvent} (hr : run (hostStep host) w es = .ret w') {q : Ptr} {m : SockMem}
    (hq : w.kernel.heap.sock q = .live m)
    (hes : EveryStep (hostStep host) (Elsewhere host q m) w es) :
    w'.kernel.heap.sock q = .live m ∧ w'.kernel.heap.load m = w.kernel.heap.load m := by
  induction es generalizing w with
  | nil =>
    obtain rfl : w = w' := by simpa using hr
    exact ⟨hq, rfl⟩
  | cons e es ih =>
    obtain ⟨w₁, hs, hr⟩ := Outcome.bind_eq_ret.mp hr
    obtain ⟨hq₁, hload⟩ := separation_step (separate_of_reachable hw) hs hq hes.1
    obtain ⟨hq', hload'⟩ := ih (hw.step e hs) hr hq₁ (hes.2 w₁ hs)
    exact ⟨hq', hload'.trans hload⟩

/-- The connection sends a byte, and the third socket of that server is as it was. -/
theorem separation_run_three : ∃ w w' m, Reachable (hostStep .server) HostStart w ∧
    run (hostStep .server) w [.call 1 (.send [7]), .call 1 .stream] = .ret w' ∧
      w'.kernel.heap.sock 2 = .live m ∧ w'.kernel.heap.load m = w.kernel.heap.load m := by
  have hrun : (run (hostStep .server) zeroedHost threeSocketEvents >>= fun w =>
      w.kernel.heap.deref 2 >>= fun _ =>
        run (hostStep .server) w [.call 1 (.send [7]), .call 1 .stream] >>= fun _ =>
          .ret ()) = .ret () := by decide
  obtain ⟨w, hw, hrun⟩ := Outcome.bind_eq_ret.mp hrun
  obtain ⟨m, hm, hrun⟩ := Outcome.bind_eq_ret.mp hrun
  obtain ⟨w', hw', -⟩ := Outcome.bind_eq_ret.mp hrun
  rw [Heap.deref_eq_ret] at hm
  have hstart : HasOrigins id zeroedHost.kernel.heap :=
    fun p m hp => absurd hp hostStart_zeroedHost.noSock
  have horigins := hstart.run hw
  have htouched : ∀ p ∈ ({1} : Set Ptr), origin threeSocketEvents p ≠ origin threeSocketEvents 2 :=
    fun p hp => hp ▸ by decide
  have hreach := Reachable.after (.init hostStart_zeroedHost) hw
  have hfirst : Elsewhere .server 2 m w (.call 1 (.send [7])) := horigins.elsewhere hm htouched
  have hes : EveryStep (hostStep .server) (Elsewhere .server 2 m) w
      [.call 1 (.send [7]), .call 1 .stream] := by
    refine ⟨hfirst, fun w₁ hs => ⟨?_, fun _ _ => trivial⟩⟩
    exact (horigins.step hs).elsewhere
      (separation_step (separate_of_reachable hreach) hs hm hfirst).1 htouched
  obtain ⟨hlive, hload⟩ := separation_run hreach hw' hm hes
  exact ⟨w, w', m, hreach, hw', hlive, hload⟩

end TrivalTcp
