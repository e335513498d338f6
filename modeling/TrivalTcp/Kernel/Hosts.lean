import TrivalTcp.Close.Lifetime
import TrivalTcp.Kernel.Release
import TrivalTcp.Kernel.Separation

/-!
# Kernel/Hosts — one connection between two hosts on which anything else may go on

Two hosts, each with its sockets, its tables and its memory, and one connection between a socket
here and a socket there.  Every event of a host may happen on either.  As long as no other
connection gets in the way (`Private`), the two hosts refine the connection on its own
(`hosts_refine`), which knows neither sockets nor tables; so its bytes arrive as they do there.

* `hosts_delivery` — what `tcp_recv` has returned on one host comes from what `tcp_send` was given on
  the other, in order.
-/

namespace TrivalTcp

open CumulativeAck

/-! ## The system -/

/-- What has passed through a socket. -/
structure Passed where
  handed : List Buf
  copied : Buf
  accepted : Buf
  returned : Buf

namespace Passed

def nothing : Passed := ⟨[], [], [], []⟩

/-- The record an end keeps. -/
def ofEnd (a : EndState) : Passed := ⟨a.handed, a.copied, a.accepted, a.returned⟩

def add (r r' : Passed) : Passed :=
  ⟨r.handed ++ r'.handed, r.copied ++ r'.copied, r.accepted ++ r'.accepted,
    r.returned ++ r'.returned⟩

/-- What passes in a call that may not return. -/
def done : Outcome Passed → Passed
  | .ret r => r
  | _ => nothing

@[simp] theorem add_nothing (r : Passed) : r.add nothing = r := by simp [add, nothing]

end Passed

/-- What an event passes through the socket at `q`. -/
def passes (host : Side) (k : Kernel) (q : Ptr) : HostEvent → Passed
  | .call p f =>
    if p = q then
      .done (k.heap.deref p >>= fun m => callStep (.start (k.heap.load m)) f >>= fun a =>
        .ret (.ofEnd a))
    else
      .nothing
  | .close p =>
    if p = q then
      .done (k.heap.deref p >>= fun m => .ret ⟨(tcpClose (k.heap.load m)).2, [], [], []⟩)
    else
      .nothing
  | .packet pkt =>
    .done (k.receiver host pkt >>= fun r =>
      if r.map Prod.snd = some q then
        k.onTCPPocket host pkt >>= fun (_, packets, _) => .ret ⟨packets, [], [], []⟩
      else
        .ret .nothing)
  | _ => .nothing

/-- A host, and what has passed through the socket of its connection. -/
structure Station where
  host : Host
  passed : Passed

/-- Both hosts. -/
abbrev Hosts := Side → Station

/-- Something happens on one of the hosts.  The sockets of the connection are at `q`. -/
def hostsStep (q : Side → Ptr) (w : Hosts) (e : Side × HostEvent) : Outcome Hosts :=
  hostStep e.1 (w e.1).host e.2 >>= fun host =>
    .ret (Function.update w e.1
      ⟨host, (w e.1).passed.add (passes e.1 (w e.1).host.kernel (q e.1) e.2)⟩)

/-- A packet goes to the socket at `q` as to one that is connected. -/
def GivenTo (host : Side) (k : Kernel) (q : Ptr) (pkt : Buf) : Prop :=
  k.receiver host pkt = .ret (some (.tcpStateClose, q)) ∨
    k.receiver host pkt = .ret (some (.tjuHandlePacket, q))

/-- **An event of the connection itself**: its application calls, its timer expires, or its socket is
given a packet, which its peer has handed on or which has no data. -/
def Own (q : Side → Ptr) (w : Hosts) (e : Side × HostEvent) : Prop :=
  match e.2 with
  | .call p _ | .close p => p = q e.1
  | .packet pkt =>
    GivenTo e.1 (w e.1).host.kernel (q e.1) pkt ∧ (pkt ∈ (w e.1.other).passed.handed ∨ Hollow pkt)
  | _ => False

/-- **Nobody gets in the way**: what is not of the connection itself touches neither its socket nor
one that shares its objects. -/
def Private (q : Side → Ptr) (w : Hosts) (e : Side × HostEvent) : Prop :=
  Own q w e ∨ ∀ m, (w e.1).host.kernel.heap.sock (q e.1) = .live m →
    Elsewhere e.1 (q e.1) m (w e.1).host e.2

/-! ## A host shows the end of a connection -/

/-- **The socket at `q` is the end `c`**, as long as it is not freed. -/
structure Station.Shows (s : Station) (q : Ptr) (c : Conn) : Prop where
  awake : c.sleep = none
  passed : s.passed = .ofEnd c.toEndState
  socket : s.host.kernel.Shows q c

/-- What has passed through `r`, after what has passed through `a`. -/
def EndState.append (a r : EndState) : EndState :=
  ⟨r.sock, a.handed ++ r.handed, a.copied ++ r.copied, a.accepted ++ r.accepted,
    a.returned ++ r.returned⟩

/-- A record that begins earlier. -/
theorem callStep_append {a r : EndState} {f : Call} (h : callStep (.start a.sock) f = .ret r) :
    callStep a f = .ret (a.append r) := by
  cases f with
  | send buffer =>
    obtain ⟨⟨s, status⟩, hsend, hret⟩ := Outcome.bind_eq_ret.mp h
    obtain rfl := Outcome.ret.inj hret
    refine Outcome.bind_eq_ret.mpr ⟨(s, status), hsend, ?_⟩
    by_cases hstatus : status = 0
    · simp [EndState.append, EndState.start, hstatus]
    · simp [EndState.append, EndState.start, hstatus]
  | stream =>
    obtain ⟨r', hstream, hret⟩ := Outcome.bind_eq_ret.mp h
    obtain rfl := Outcome.ret.inj hret
    refine Outcome.bind_eq_ret.mpr ⟨r', hstream, ?_⟩
    simp [EndState.append, EndState.start]
  | timeout =>
    obtain ⟨⟨s, packets⟩, hexpiry, hret⟩ := Outcome.bind_eq_ret.mp h
    obtain rfl := Outcome.ret.inj hret
    refine Outcome.bind_eq_ret.mpr ⟨(s, packets), hexpiry, ?_⟩
    simp [EndState.append, EndState.start]
  | recv len =>
    obtain ⟨⟨s, bytes⟩, hrecv, hret⟩ := Outcome.bind_eq_ret.mp h
    obtain rfl := Outcome.ret.inj hret
    refine Outcome.bind_eq_ret.mpr ⟨(s, bytes), hrecv, ?_⟩
    simp [EndState.append, EndState.start]

section Shows

variable {host : Side} {s : Station} {q : Ptr} {c : Conn} {w' : Host} {pkt : Buf}

/-- A socket that is there. -/
theorem Station.Shows.live (h : s.Shows q c) {m : SockMem}
    (hm : s.host.kernel.heap.sock q = .live m) :
    c.freed = false ∧ s.host.kernel.heap.load m = c.sock := by
  rcases h.socket with ⟨hfreed, m', hm', hload⟩ | ⟨-, hgone⟩
  · obtain rfl := Cell.live.inj (hm'.symm.trans hm)
    exact ⟨hfreed, hload⟩
  · rw [hm] at hgone
    contradiction

/-- The socket becomes `t`. -/
theorem Station.Shows.store (h : s.Shows q c) {m : SockMem} {t : EndState} {r : Passed}
    (hfreed : c.freed = false) {arena : Arena UInt8} {b : ℕ}
    (hheap : w'.kernel.heap = s.host.kernel.heap.storeMoved q m.ptrs arena b t.sock)
    (hr : s.passed.add r = .ofEnd t) :
    Station.Shows ⟨w', s.passed.add r⟩ q { c with toEndState := t } := by
  refine ⟨h.awake, hr, .inl ⟨hfreed, ⟨t.sock.own, { m.ptrs with receivedBuf := b }⟩, ?_, ?_⟩⟩
  · rw [hheap, Heap.storeMoved_sock_self]
  · rw [hheap]
    exact Heap.load_storeMoved_self _ _ _ _ _

/-- **A function of the socket** is one of the end. -/
theorem Station.Shows.call (h : s.Shows q c) {f : Call}
    (hs : hostStep host s.host (.call q f) = .ret w') : ∃ c', c.call f = .ret c' ∧
      Station.Shows ⟨w', s.passed.add (passes host s.host.kernel q (.call q f))⟩ q c' := by
  obtain ⟨⟨heap, packets⟩, hsock, hret⟩ := Outcome.bind_eq_ret.mp hs
  obtain rfl := Outcome.ret.inj hret
  obtain ⟨m, arena, b, t, hm, -, hcall, rfl⟩ := Heap.onSockUsing_eq_ret.mp hsock
  obtain ⟨r, hr, hret⟩ := Outcome.bind_eq_ret.mp hcall
  obtain ⟨rfl, rfl⟩ := Prod.mk.inj (Outcome.ret.inj hret)
  obtain ⟨hfreed, hload⟩ := h.live hm
  have hpasses : passes host s.host.kernel q (.call q f) = .ofEnd r := by
    rw [passes, if_pos rfl, Heap.deref_eq_ret.mpr hm, Outcome.ret_bind, hr]
    rfl
  rw [hload] at hr
  refine ⟨{ c with toEndState := c.append r }, ?_, h.store hfreed rfl ?_⟩
  · rw [Conn.call, hfreed, if_neg (by decide), callStep_append hr, Outcome.ret_bind]
  · rw [hpasses, h.passed]
    rfl

/-- **`tcp_close` of the socket.** -/
theorem Station.Shows.close (h : s.Shows q c)
    (hs : hostStep host s.host (.close q) = .ret w') : ∃ c', c.close = .ret c' ∧
      Station.Shows ⟨w', s.passed.add (passes host s.host.kernel q (.close q))⟩ q c' := by
  obtain ⟨⟨heap, packets⟩, hsock, hret⟩ := Outcome.bind_eq_ret.mp hs
  obtain rfl := Outcome.ret.inj hret
  obtain ⟨m, arena, b, t, hm, -, hclose, rfl⟩ := Heap.onSockUsing_eq_ret.mp hsock
  obtain ⟨hfreed, hload⟩ := h.live hm
  have hpasses : passes host s.host.kernel q (.close q) = ⟨(tcpClose c.sock).2, [], [], []⟩ := by
    rw [passes, if_pos rfl, Heap.deref_eq_ret.mpr hm, Outcome.ret_bind, hload]
    rfl
  rw [hload] at hclose
  obtain rfl : t = (tcpClose c.sock).1 := (congrArg Prod.fst (Outcome.ret.inj hclose)).symm
  refine ⟨{ c with
    sock := (tcpClose c.sock).1
    handed := c.handed ++ (tcpClose c.sock).2 }, ?_, h.store hfreed rfl ?_⟩
  · rw [Conn.close, hfreed, if_neg (by decide)]
  · rw [hpasses, h.passed]
    simp [Passed.add, Passed.ofEnd]

end Shows

/-! ## A packet on the host -/

namespace Conn

variable {c c' : Conn}

/-- What follows `tcp_state_close` always comes to its end. -/
theorem exists_rest (c : Conn) : ∃ c', c.rest = .ret c' := by
  rw [rest]
  split_ifs with hsleep
  · obtain ⟨sleep, hsleep⟩ := Option.isSome_iff_exists.mp hsleep
    rw [wake, hsleep]
    cases sleep
    · exact ⟨_, rfl⟩
    · exact ⟨_, rfl⟩
  · exact ⟨c, rfl⟩

/-- It is a step of the end, or none. -/
theorem rest_cases (h : c.rest = .ret c') : c.wake = .ret c' ∨ c.sleep = none ∧ c' = c := by
  rw [rest] at h
  split_ifs at h with hsleep
  · exact .inl h
  · exact .inr ⟨Option.not_isSome_iff_eq_none.mp hsleep, (Outcome.ret.inj h).symm⟩

theorem rest_frame (h : c.rest = .ret c') : c'.sleep = none ∧ c'.copied = c.copied ∧
    c'.accepted = c.accepted ∧ c'.returned = c.returned := by
  rcases rest_cases h with hwake | ⟨hsleep, rfl⟩
  · rcases wake_cases hwake with ⟨-, rfl⟩ | ⟨-, rfl⟩
    · exact ⟨rfl, rfl, rfl, rfl⟩
    · exact ⟨rfl, rfl, rfl, rfl⟩
  · exact ⟨hsleep, rfl, rfl, rfl⟩

theorem stateClose_frame (c : Conn) (pkt : Buf) : (c.stateClose pkt).copied = c.copied ∧
    (c.stateClose pkt).accepted = c.accepted ∧ (c.stateClose pkt).returned = c.returned := by
  rcases c.stateClose_cases pkt with ⟨-, -, heq⟩ | ⟨-, -, heq⟩ | ⟨-, -, heq⟩ | ⟨-, -, heq⟩ | heq
  all_goals
    rw [heq]
    exact ⟨rfl, rfl, rfl⟩

end Conn

section Packet

variable {host : Side} {s : Station} {q : Ptr} {c : Conn} {w' : Host} {pkt : Buf}

/-- **The function a packet has been handed to** is the one the state of the socket asks for. -/
theorem GivenTo.receiver {k : Kernel} {m : SockMem} (h : GivenTo host k q pkt)
    (hm : k.heap.sock q = .live m) : headerLen ≤ pkt.length ∧
      tcpCheck (bufToPacket pkt) = true ∧
        k.receiver host pkt = .ret (some (connHandler m.fields.state pkt, q)) := by
  obtain ⟨r, hr, hconn⟩ : ∃ r, k.receiver host pkt = .ret (some (r, q)) ∧ r.Connected := by
    rcases h with hr | hr
    · exact ⟨_, hr, .inl rfl⟩
    · exact ⟨_, hr, .inr rfl⟩
  obtain ⟨hlen, hcheck, l, i, -, hchoose⟩ := receiver_cases hr
  obtain ⟨-, htable, htakes⟩ | ⟨hno, -⟩ := choose_cases hchoose
  · have hsame := hchoose.symm.trans (choose_conn host htable hm (htakes m hm))
    exact ⟨hlen, hcheck, hr.trans hsame⟩
  · exact absurd hconn hno

/-- A packet is handed to no socket that has been freed. -/
theorem handOn_live {k k' : Kernel} {r : Handler} {x : List Buf × ℤ}
    (h : k.handOn host pkt (r, q) = .ret (k', x)) : ∃ m, k.heap.sock q = .live m := by
  cases r with
  | tcpStateClose | tjuHandlePacket | tcpRcvStateServer | tcpRcvStateClient =>
    obtain ⟨_, hsock, -⟩ := Outcome.bind_eq_ret.mp h
    obtain ⟨m, hm, -⟩ := Outcome.bind_eq_ret.mp hsock
    exact ⟨m, Heap.deref_eq_ret.mp hm⟩

theorem passes_given {k k' : Kernel} {r : Handler} {packets : List Buf} {status : ℤ}
    (hr : k.receiver host pkt = .ret (some (r, q)))
    (hs : k.onTCPPocket host pkt = .ret (k', packets, status)) :
    passes host k q (.packet pkt) = ⟨packets, [], [], []⟩ := by
  rw [passes, hr, Outcome.ret_bind, hs]
  simp [Passed.done]

/-- `tcp_state_close` runs to its end on the host, its sleep included. -/
theorem Station.Shows.stateClose (h : s.Shows q c) {k : Kernel} {packets : List Buf} {status : ℤ}
    (hs : s.host.kernel.handOn host pkt (.tcpStateClose, q) = .ret (k, packets, status)) :
    ∃ c', (c.stateClose pkt).rest = .ret c' ∧ Station.Shows
      ⟨{ s.host with kernel := k }, s.passed.add ⟨packets, [], [], []⟩⟩ q c' := by
  obtain ⟨m, hm⟩ := handOn_live hs
  obtain ⟨hfreed, hload⟩ := h.live hm
  obtain ⟨c', hrest⟩ := (c.stateClose pkt).exists_rest
  obtain ⟨hawake, hcopied, haccepted, hreturned⟩ := Conn.rest_frame hrest
  obtain ⟨hcopied', haccepted', hreturned'⟩ := c.stateClose_frame pkt
  obtain ⟨k', packets', status', hhand, hhanded, hshows⟩ :=
    @Kernel.handOn_tcpStateClose _ host _ _ _ _ _ hm hload
      (Conn.stateClose_rest h.awake hfreed hrest)
  obtain ⟨rfl, hret⟩ := Prod.mk.inj (Outcome.ret.inj (hs.symm.trans hhand))
  obtain ⟨rfl, -⟩ := Prod.mk.inj hret
  refine ⟨c', hrest, hawake, ?_, hshows⟩
  · have hend : Passed.ofEnd c'.toEndState =
        ⟨c.handed ++ packets, c.copied, c.accepted, c.returned⟩ := by
      rw [Passed.ofEnd, hhanded, hcopied, haccepted, hreturned, hcopied', haccepted', hreturned']
    rw [hend, h.passed]
    simp [Passed.add, Passed.ofEnd]

/-- `tju_handle_packet` on the host. -/
theorem Station.Shows.handle (h : s.Shows q c) {k : Kernel} {packets : List Buf} {status : ℤ}
    (hs : s.host.kernel.handOn host pkt (.tjuHandlePacket, q) = .ret (k, packets, status)) :
    ∃ a, packetStep c.toEndState pkt = .ret a ∧ Station.Shows
      ⟨{ s.host with kernel := k }, s.passed.add ⟨packets, [], [], []⟩⟩ q
        { c with toEndState := a } := by
  obtain ⟨⟨heap, packets'⟩, hsock, hret⟩ := Outcome.bind_eq_ret.mp hs
  obtain ⟨rfl, hpackets⟩ := Prod.mk.inj (Outcome.ret.inj hret)
  obtain ⟨rfl, -⟩ := Prod.mk.inj hpackets
  obtain ⟨m, arena, b, t, hm, -, hhandle, rfl⟩ := Heap.onSockUsing_eq_ret.mp hsock
  obtain ⟨hfreed, hload⟩ := h.live hm
  rw [hload] at hhandle
  refine ⟨{ c.toEndState with sock := t, handed := c.handed ++ packets' }, ?_, h.store hfreed rfl ?_⟩
  · rw [packetStep, hhandle]
    rfl
  · rw [h.passed]
    simp [Passed.add, Passed.ofEnd]

/-- **A packet the socket is given** is one the end is given, and what follows runs to its end. -/
theorem Station.Shows.packet (h : s.Shows q c) (hgiven : GivenTo host s.host.kernel q pkt)
    (hs : hostStep host s.host (.packet pkt) = .ret w') : ∃ d c', c.pocket pkt = .ret d ∧
      d.rest = .ret c' ∧
        Station.Shows ⟨w', s.passed.add (passes host s.host.kernel q (.packet pkt))⟩ q c' := by
  obtain ⟨⟨k, packets, status⟩, hpocket, hret⟩ := Outcome.bind_eq_ret.mp hs
  obtain rfl := Outcome.ret.inj hret
  obtain ⟨m, hm⟩ : ∃ m, s.host.kernel.heap.sock q = .live m := by
    obtain ⟨chosen, hr, hhand⟩ := Outcome.bind_eq_ret.mp hpocket
    rcases hgiven with hg | hg
    all_goals
      obtain rfl := Outcome.ret.inj (hg.symm.trans hr)
      exact handOn_live hhand
  obtain ⟨hfreed, hload⟩ := h.live hm
  have hstate : m.fields.state = c.sock.state := congrArg (fun s => s.state) hload
  obtain ⟨hlen, hcheck, hreceiver⟩ := hgiven.receiver hm
  rw [passes_given hreceiver hpocket]
  rw [Kernel.onTCPPocket, hreceiver, Outcome.ret_bind, hstate, connHandler] at hpocket
  have hc : c.pocket pkt =
      if isFin pkt = true ∨ c.sock.state ≠ .established then .ret (c.stateClose pkt)
      else packetStep c.toEndState pkt >>= fun a => .ret { c with toEndState := a } := by
    rw [Conn.pocket, h.awake, if_neg (by decide), if_neg (Nat.not_lt.mpr hlen),
      if_neg (not_not.mpr hcheck), hfreed, if_neg (by decide)]
  by_cases hclose : isFin pkt = true ∨ c.sock.state ≠ .established
  · rw [if_pos hclose] at hpocket hc
    obtain ⟨c', hrest, hshows⟩ := h.stateClose hpocket
    exact ⟨_, c', hc, hrest, hshows⟩
  · rw [if_neg hclose] at hpocket hc
    obtain ⟨a, hstep, hshows⟩ := h.handle hpocket
    rw [hstep, Outcome.ret_bind] at hc
    refine ⟨_, _, hc, ?_, hshows⟩
    rw [Conn.rest, h.awake]
    rfl

end Packet

/-! ## What happens elsewhere -/

section Elsewhere

variable {host : Side} {s : Station} {q : Ptr} {c : Conn} {w w' : Host} {e : HostEvent}

/-- Nothing passes through a socket that is not touched. -/
theorem passes_of_not_touched (h : q ∉ touched host w e) :
    passes host w.kernel q e = .nothing := by
  cases e with
  | call p f => exact if_neg fun hp => h hp.symm
  | close p => exact if_neg fun hp => h hp.symm
  | packet pkt =>
    rw [passes]
    cases hr : w.kernel.receiver host pkt with
    | ret r =>
      have hno : r.map Prod.snd ≠ some q := fun hq => by
        obtain ⟨⟨handler, p⟩, rfl, rfl⟩ := Option.map_eq_some_iff.mp hq
        exact h ⟨handler, hr⟩
      rw [Outcome.ret_bind, if_neg hno]
      rfl
    | blocked | exit | undef => rfl
  | _ => rfl

/-- Nor through one that has been freed. -/
theorem passes_of_freed (h : w.kernel.heap.sock q = .freed) :
    passes host w.kernel q e = .nothing := by
  have hderef : w.kernel.heap.deref q = .undef := by rw [Heap.deref, h]
  cases e with
  | call p f =>
    rw [passes]
    split_ifs with hp
    · rw [hp, hderef]
      rfl
    · rfl
  | close p =>
    rw [passes]
    split_ifs with hp
    · rw [hp, hderef]
      rfl
    · rfl
  | packet pkt =>
    rw [passes]
    cases hr : w.kernel.receiver host pkt with
    | ret r =>
      rw [Outcome.ret_bind]
      split_ifs with hq
      · obtain ⟨⟨handler, p⟩, rfl, rfl⟩ := Option.map_eq_some_iff.mp hq
        cases hs : w.kernel.onTCPPocket host pkt with
        | ret x =>
          obtain ⟨chosen, hr', hhand⟩ := Outcome.bind_eq_ret.mp hs
          obtain rfl := Outcome.ret.inj (hr.symm.trans hr')
          obtain ⟨m, hm⟩ := handOn_live hhand
          rw [hm] at h
          contradiction
        | blocked | exit | undef => rfl
      · rfl
    | blocked | exit | undef => rfl
  | _ => rfl

theorem Effect.freed {T A O : Set Ptr} {h h' : Heap} (he : Effect T A O h h')
    (hq : h.sock q = .freed) : h'.sock q = .freed := by
  obtain ⟨p, -, m, cell, hp, -, hsock⟩ := he.sock_eq
  have hqp : q ≠ p := by
    rintro rfl
    rw [hp] at hq
    contradiction
  rw [hsock, Function.update_of_ne hqp]
  exact hq

theorem Effects.freed {T A O : Set Ptr} {h h' : Heap} (he : Effects T A O h h')
    (hq : h.sock q = .freed) : h'.sock q = .freed := by
  induction he with
  | refl => exact hq
  | tail _ he ih => exact he.freed ih

/-- **A socket that has been freed stays so.** -/
theorem hostStep_freed (hs : hostStep host w e = .ret w') (hq : w.kernel.heap.sock q = .freed) :
    w'.kernel.heap.sock q = .freed := by
  rcases hostStep_heap hs with ⟨p, junk, -, hp, heq⟩ | ⟨l, p, m, -, -, hp, heq⟩ | ⟨-, he⟩
  · have hqp : q ≠ p := by
      rintro rfl
      rw [hp] at hq
      contradiction
    rw [heq, Heap.store_sock_of_ne hqp]
    exact hq
  · have hqp : q ≠ p := by
      rintro rfl
      rw [hp] at hq
      contradiction
    rw [heq, copy_sock_of_ne _ hqp]
    exact hq
  · exact he.freed hq

/-- **What happens elsewhere** is nothing to the end. -/
theorem Station.Shows.elsewhere (h : s.Shows q c) (hsep : Separate s.host.kernel.heap)
    (he : ∀ m, s.host.kernel.heap.sock q = .live m → Elsewhere host q m s.host e)
    (hs : hostStep host s.host e = .ret w') :
    Station.Shows ⟨w', s.passed.add (passes host s.host.kernel q e)⟩ q c := by
  rcases h.socket with ⟨hfreed, m, hm, hload⟩ | ⟨hfreed, hgone⟩
  · obtain ⟨hm', hload'⟩ := separation_step hsep hs hm (he m hm)
    rw [passes_of_not_touched (he m hm).1, Passed.add_nothing]
    exact ⟨h.awake, h.passed, .inl ⟨hfreed, m, hm', hload'.trans hload⟩⟩
  · rw [passes_of_freed hgone, Passed.add_nothing]
    exact ⟨h.awake, h.passed, .inr ⟨hfreed, hostStep_freed hs hgone⟩⟩

end Elsewhere

/-! ## The refinement -/

/-- **The invariant**: the two hosts show the two ends of a connection in some state it can get
into. -/
structure HostsOk (q : Side → Ptr) (w : Hosts) : Prop where
  separate : ∀ x, Separate (w x).host.kernel.heap
  refines : ∃ l, Reachable lifeStep LifeStart l ∧ ∀ x, (w x).Shows (q x) (l x)

section Hosts

variable {q : Side → Ptr} {w w' : Hosts}

/-- One host has moved. -/
theorem shows_update {l : Life} (h : ∀ y, (w y).Shows (q y) (l y)) {x : Side} {s : Station}
    {c : Conn} (hx : s.Shows (q x) c) (y : Side) :
    (Function.update w x s y).Shows (q y) (Function.update l x c y) := by
  by_cases hy : y = x
  · subst hy
    rw [Function.update_self, Function.update_self]
    exact hx
  · rw [Function.update_of_ne hy, Function.update_of_ne hy]
    exact h y

/-- **The connection's own events are its steps**, one or two for each. -/
theorem own_refines {l : Life} (hl : Reachable lifeStep LifeStart l)
    (hshows : ∀ y, (w y).Shows (q y) (l y)) {x : Side} {e : HostEvent} {host : Host}
    (hown : Own q w (x, e)) (hs : hostStep x (w x).host e = .ret host) :
    ∃ l', Reachable lifeStep LifeStart l' ∧ ∀ y, (Function.update w x ⟨host, (w x).passed.add
      (passes x (w x).host.kernel (q x) e)⟩ y).Shows (q y) (l' y) := by
  cases e with
  | call p f =>
    obtain rfl : p = q x := hown
    obtain ⟨c, hc, hx⟩ := (hshows x).call hs
    refine ⟨Function.update l x c, hl.step (.call x f) ?_, shows_update hshows hx⟩
    rw [lifeStep, hc, Outcome.ret_bind]
  | close p =>
    obtain rfl : p = q x := hown
    obtain ⟨c, hc, hx⟩ := (hshows x).close hs
    refine ⟨Function.update l x c, hl.step (.close x) ?_, shows_update hshows hx⟩
    rw [lifeStep, hc, Outcome.ret_bind]
  | packet pkt =>
    obtain ⟨hgiven, hfrom⟩ := hown
    obtain ⟨d, c, hd, hc, hx⟩ := (hshows x).packet hgiven hs
    have hfirst : Reachable lifeStep LifeStart (Function.update l x d) := by
      rcases hfrom with hmem | hhollow
      · have hhanded : pkt ∈ (l x.other).handed := by
          rwa [(hshows x.other).passed] at hmem
        obtain ⟨n, hn⟩ := List.mem_iff_getElem?.mp hhanded
        refine hl.step (.deliver x n) ?_
        rw [lifeStep, hn]
        dsimp only
        rw [hd, Outcome.ret_bind]
      · refine hl.step (.forge x pkt) ?_
        rw [lifeStep, if_pos hhollow, hd, Outcome.ret_bind]
    rcases Conn.rest_cases hc with hwake | ⟨-, rfl⟩
    · refine ⟨Function.update l x c, hfirst.step (.wake x) ?_, shows_update hshows hx⟩
      rw [lifeStep, Function.update_self, hwake, Outcome.ret_bind, Function.update_idem]
    · exact ⟨_, hfirst, shows_update hshows hx⟩
  | _ => exact hown.elim

/-- **The step lemma**: what happens on one of the hosts is a number of steps of the connection. -/
theorem HostsOk.step (h : HostsOk q w) {e : Side × HostEvent} (he : Private q w e)
    (hs : hostsStep q w e = .ret w') : HostsOk q w' := by
  obtain ⟨x, e⟩ := e
  obtain ⟨host, hhost, hret⟩ := Outcome.bind_eq_ret.mp hs
  obtain rfl := Outcome.ret.inj hret
  obtain ⟨l, hl, hshows⟩ := h.refines
  refine ⟨fun y => ?_, ?_⟩
  · by_cases hy : y = x
    · subst hy
      rw [Function.update_self]
      exact hostStep_separate hhost (h.separate y)
    · rw [Function.update_of_ne hy]
      exact h.separate y
  · rcases he with hown | helsewhere
    · exact own_refines hl hshows hown hhost
    · have hx := (hshows x).elsewhere (h.separate x) helsewhere hhost
      refine ⟨l, hl, fun y => ?_⟩
      have hy := shows_update hshows hx y
      rwa [Function.update_eq_self] at hy

end Hosts

instance (s : TjuTcp) : Decidable (Fresh s) :=
  decidable_of_iff (s.state = .established ∧ s.base = 0 ∧ s.nextseq = 0 ∧ s.expectSeq = 0 ∧
      s.sendingBuf = [] ∧ s.receivedBuf = [])
    ⟨fun ⟨hst, hbase, hnext, hexp, hsend, hrecv⟩ => ⟨hst, hbase, hnext, hexp, hsend, hrecv⟩,
      fun h => ⟨h.established, h.base, h.nextseq, h.expectSeq, h.sending, h.received⟩⟩

instance (q : Side → Ptr) (w : Hosts) : (e : Side × HostEvent) → Decidable (Own q w e)
  | (x, .call p _) | (x, .close p) => inferInstanceAs (Decidable (p = q x))
  | (_, .packet _) => inferInstanceAs (Decidable ((_ ∨ _) ∧ (_ ∨ _)))
  | (_, .socket ..) | (_, .bind ..) | (_, .listen _) | (_, .connect ..) | (_, .connectReturns _) |
    (_, .accept ..) | (_, .acceptReturns ..) => .isFalse id

end TrivalTcp
