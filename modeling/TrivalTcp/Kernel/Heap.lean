import Mathlib.Logic.Function.Basic
import TrivalTcp.Foundations.Arena
import TrivalTcp.Socket.Socket

/-!
# Kernel/Heap — sockets in memory, and the objects their pointers lead to

In memory a `tju_tcp_t` is its own fields and its pointers.  Code that runs on one socket sees a
`TjuTcp`: `load` follows the pointers, `store` writes back what stands behind them.  Two sockets
with the same pointers see each other's writes.

All pointers but one are what `tcp_socket` has made them for as long as the socket lasts, and a copy
of the socket has them too (`ObjPtrs`).  The exception is `received_buf`: `tju_handle_packet` moves
the block it leads to with every packet it appends, `tcp_close` frees it, and either is done to the
one socket at hand.  A copy of that socket then holds a pointer to memory that is gone, and what it
does with it next is undefined (`BufUse`, `onSockUsing`).
-/

namespace TrivalTcp

/-- An address. -/
abbrev Ptr := ℕ

/-- The pointers a `tju_tcp_t` has from its `tcp_socket` on. -/
structure ObjPtrs where
  wndSend : Ptr
  wndRecv : Ptr
  rttTimer : Ptr
  synQueue : Ptr
  acceptQueue : Ptr
  sendingBuf : Ptr
  /-- Where the blocks are that `received_buf` can come to lead to.  Those of one `tcp_socket` are no
  other's, as all are new when they are allocated. -/
  receivedBufs : Ptr
  deriving DecidableEq, Repr

/-- The pointers of a `tju_tcp_t`. -/
structure SockPtrs extends ObjPtrs where
  /-- The block `received_buf` leads to. -/
  receivedBuf : ℕ
  deriving DecidableEq, Repr

/-- What a `tju_tcp_t` holds itself. -/
structure OwnFields extends SocketFields where
  sendingLen : ℕ
  receivedLen : ℕ

/-- What a socket holds itself. -/
def TjuTcp.own (s : TjuTcp) : OwnFields :=
  ⟨s.toSocketFields, s.sendingBuf.length, s.receivedBuf.length⟩

/-- What the memory of a `tju_tcp_t` holds. -/
structure SockMem where
  fields : OwnFields
  ptrs : SockPtrs

/-- The memory of one socket.  Memory that has been freed is not handed out again: what an old
pointer reads there is undefined either way. -/
inductive Cell where
  | unused
  | live (m : SockMem)
  | freed

/-- The memory: a store for the sockets and one for each kind of object they point to, as no object
is reached through pointers of two kinds. -/
structure Heap where
  sock : Ptr → Cell
  wndSend : Ptr → SenderWindow
  wndRecv : Ptr → ReceiverWindow
  rttTimer : Ptr → RttTimer
  synQueue : Ptr → SockQueue ConnSock
  acceptQueue : Ptr → SockQueue ConnSock
  sendingBuf : Ptr → Block UInt8
  receivedBufs : Ptr → Arena UInt8

/-! ## What is done with `received_buf` -/

/-- What a function does with the block `received_buf` leads to. -/
inductive BufUse where
  /-- Nothing. -/
  | keep
  /-- It reads from it and writes to it. -/
  | access
  | realloc (size : ℕ)
  /-- It frees it, and `received_buf` becomes `NULL`. -/
  | free
  deriving DecidableEq, Repr

namespace BufUse

/-- The blocks and the pointer after it. -/
def run (a : Arena UInt8) (b : ℕ) : BufUse → Outcome (Arena UInt8 × ℕ)
  | keep => .ret (a, b)
  | access => if a.live b then .ret (a, b) else .undef
  | realloc size => a.realloc b size
  | free => a.free b >>= fun a => .ret (a, Arena.null)

end BufUse

/-! ## Loads and stores -/

/-- The pointers to the objects `tcp_socket` allocates for the socket at `o`: in their stores, they
get its address. -/
def ObjPtrs.own (o : Ptr) : ObjPtrs := ⟨o, o, o, o, o, o, o⟩

/-- The block `tcp_socket` allocates for `received_buf`. -/
def firstReceived : Arena UInt8 × ℕ := Arena.empty.malloc tcpRecvBufferSize

/-- The pointers `tcp_socket` gives a socket at `o`. -/
def SockPtrs.made (o : Ptr) : SockPtrs := ⟨.own o, firstReceived.2⟩

namespace Heap

variable (h : Heap)

/-- Follow a pointer to a socket. -/
def deref (p : Ptr) : Outcome SockMem :=
  match h.sock p with
  | .unused | .freed => .undef
  | .live m => .ret m

/-- A socket with what its pointers lead to. -/
def load (m : SockMem) : TjuTcp where
  toSocketFields := m.fields.toSocketFields
  sendingBuf := (h.sendingBuf m.ptrs.sendingBuf).read 0 m.fields.sendingLen
  receivedBuf :=
    (h.receivedBufs m.ptrs.receivedBufs).read m.ptrs.receivedBuf m.fields.receivedLen
  window := ⟨h.wndSend m.ptrs.wndSend, h.wndRecv m.ptrs.wndRecv⟩
  rttTimer := h.rttTimer m.ptrs.rttTimer
  synQueue := h.synQueue m.ptrs.synQueue
  acceptQueue := h.acceptQueue m.ptrs.acceptQueue

/-- Write a socket back to `p`, through its pointers. -/
def store (p : Ptr) (ptrs : SockPtrs) (s : TjuTcp) : Heap where
  sock := Function.update h.sock p (.live ⟨s.own, ptrs⟩)
  wndSend := Function.update h.wndSend ptrs.wndSend s.window.wndSend
  wndRecv := Function.update h.wndRecv ptrs.wndRecv s.window.wndRecv
  rttTimer := Function.update h.rttTimer ptrs.rttTimer s.rttTimer
  synQueue := Function.update h.synQueue ptrs.synQueue s.synQueue
  acceptQueue := Function.update h.acceptQueue ptrs.acceptQueue s.acceptQueue
  sendingBuf := Function.update h.sendingBuf ptrs.sendingBuf
    ((h.sendingBuf ptrs.sendingBuf).write 0 s.sendingBuf)
  receivedBufs := Function.update h.receivedBufs ptrs.receivedBufs
    ((h.receivedBufs ptrs.receivedBufs).write ptrs.receivedBuf s.receivedBuf)

/-- The same once `received_buf` leads to the block `b` of `arena`. -/
def storeMoved (p : Ptr) (ptrs : SockPtrs) (arena : Arena UInt8) (b : ℕ) (s : TjuTcp) : Heap :=
  { h with receivedBufs := Function.update h.receivedBufs ptrs.receivedBufs arena }.store p
    { ptrs with receivedBuf := b } s

/-- Run a function on the socket at `p` that leaves the block of its `received_buf` alone. -/
def onSock {α : Type} (p : Ptr) (f : TjuTcp → Outcome (TjuTcp × α)) : Outcome (Heap × α) :=
  h.deref p >>= fun m => f (h.load m) >>= fun (s, a) => .ret (h.store p m.ptrs s, a)

/-- Run a function on the socket at `p` that does with the block of its `received_buf` what `use`
says. -/
def onSockUsing {α : Type} (p : Ptr) (use : TjuTcp → BufUse)
    (f : TjuTcp → Outcome (TjuTcp × α)) : Outcome (Heap × α) :=
  h.deref p >>= fun m =>
    (use (h.load m)).run (h.receivedBufs m.ptrs.receivedBufs) m.ptrs.receivedBuf >>=
      fun (arena, b) => f (h.load m) >>= fun (s, a) => .ret (h.storeMoved p m.ptrs arena b s, a)

/-- The buffers `tcp_socket` allocates for the socket at `p`. -/
def allocBuffers (p : Ptr) : Heap :=
  { h with
    sendingBuf := Function.update h.sendingBuf p ⟨tcpSendBufferSize, fun _ => default⟩
    receivedBufs := Function.update h.receivedBufs p firstReceived.1 }

/-- `tcp_socket`, in unused memory. -/
def tcpSocket (p : Ptr) (junk : TjuTcp) : Outcome Heap :=
  match h.sock p with
  | .unused => .ret ((h.allocBuffers p).store p (.made p) (TrivalTcp.tcpSocket junk))
  | _ => .blocked

/-- The socket at `p` is in state `v`. -/
def isIn (p : Ptr) (v : TcpState) : Bool :=
  match h.sock p with
  | .live m => decide (m.fields.state = v)
  | _ => false

/-- `free`, of a socket. -/
def free (p : Ptr) : Heap := { h with sock := Function.update h.sock p .freed }

/-! ## Loads after stores -/

variable {h}

theorem deref_eq_ret {p : Ptr} {m : SockMem} : h.deref p = .ret m ↔ h.sock p = .live m := by
  rw [deref]
  cases h.sock p with
  | live m' => simp
  | unused => simp
  | freed => simp

/-- **What follows a pointer is defined** where the pointer leads to a socket and what is done with
it is. -/
theorem deref_bind_defined_iff {α : Type} {p : Ptr} {f : SockMem → Outcome α} :
    h.deref p >>= f ≠ .undef ↔ ∃ m, h.sock p = .live m ∧ f m ≠ .undef := by
  rw [deref]
  cases h.sock p with
  | live m' => simp
  | unused => simp
  | freed => simp

theorem onSock_eq_ret {α : Type} {p : Ptr} {f : TjuTcp → Outcome (TjuTcp × α)} {h' : Heap} {a : α} :
    h.onSock p f = .ret (h', a) ↔
      ∃ m s, h.sock p = .live m ∧ f (h.load m) = .ret (s, a) ∧ h' = h.store p m.ptrs s := by
  constructor
  · intro hs
    obtain ⟨m, hm, hs⟩ := Outcome.bind_eq_ret.mp hs
    obtain ⟨⟨s, a'⟩, hf, hs⟩ := Outcome.bind_eq_ret.mp hs
    obtain ⟨rfl, rfl⟩ := Prod.mk.inj (Outcome.ret.inj hs)
    exact ⟨m, s, deref_eq_ret.mp hm, hf, rfl⟩
  · rintro ⟨m, s, hm, hf, rfl⟩
    exact Outcome.bind_eq_ret.mpr ⟨m, deref_eq_ret.mpr hm, Outcome.bind_eq_ret.mpr ⟨_, hf, rfl⟩⟩

theorem onSockUsing_eq_ret {α : Type} {p : Ptr} {use : TjuTcp → BufUse}
    {f : TjuTcp → Outcome (TjuTcp × α)} {h' : Heap} {a : α} :
    h.onSockUsing p use f = .ret (h', a) ↔ ∃ m arena b s, h.sock p = .live m ∧
      (use (h.load m)).run (h.receivedBufs m.ptrs.receivedBufs) m.ptrs.receivedBuf =
        .ret (arena, b) ∧
      f (h.load m) = .ret (s, a) ∧ h' = h.storeMoved p m.ptrs arena b s := by
  constructor
  · intro hs
    obtain ⟨m, hm, hs⟩ := Outcome.bind_eq_ret.mp hs
    obtain ⟨⟨arena, b⟩, huse, hs⟩ := Outcome.bind_eq_ret.mp hs
    obtain ⟨⟨s, a'⟩, hf, hs⟩ := Outcome.bind_eq_ret.mp hs
    obtain ⟨rfl, rfl⟩ := Prod.mk.inj (Outcome.ret.inj hs)
    exact ⟨m, arena, b, s, deref_eq_ret.mp hm, huse, hf, rfl⟩
  · rintro ⟨m, arena, b, s, hm, huse, hf, rfl⟩
    exact Outcome.bind_eq_ret.mpr ⟨m, deref_eq_ret.mpr hm, Outcome.bind_eq_ret.mpr
      ⟨_, huse, Outcome.bind_eq_ret.mpr ⟨_, hf, rfl⟩⟩⟩

theorem live_of_isIn {p : Ptr} {v : TcpState} (hin : h.isIn p v = true) :
    ∃ m, h.sock p = .live m ∧ m.fields.state = v := by
  rw [isIn] at hin
  split at hin
  next m hm => exact ⟨m, hm, of_decide_eq_true hin⟩
  next => contradiction

theorem state_of_isIn {p : Ptr} {v : TcpState} {m : SockMem} (hin : h.isIn p v = true)
    (hm : h.sock p = .live m) : m.fields.state = v := by
  obtain ⟨m', hm', hv⟩ := live_of_isIn hin
  obtain rfl := Cell.live.inj (hm.symm.trans hm')
  exact hv

theorem store_sock_self (p : Ptr) (ptrs : SockPtrs) (s : TjuTcp) :
    (h.store p ptrs s).sock p = .live ⟨s.own, ptrs⟩ := Function.update_self _ _ _

theorem store_sock_of_ne {p q : Ptr} (hne : q ≠ p) (ptrs : SockPtrs) (s : TjuTcp) :
    (h.store p ptrs s).sock q = h.sock q := Function.update_of_ne hne _ _

theorem storeMoved_sock_self (p : Ptr) (ptrs : SockPtrs) (arena : Arena UInt8) (b : ℕ)
    (s : TjuTcp) : (h.storeMoved p ptrs arena b s).sock p =
      .live ⟨s.own, { ptrs with receivedBuf := b }⟩ := Function.update_self _ _ _

theorem storeMoved_sock_of_ne {p q : Ptr} (hne : q ≠ p) (ptrs : SockPtrs) (arena : Arena UInt8)
    (b : ℕ) (s : TjuTcp) : (h.storeMoved p ptrs arena b s).sock q = h.sock q :=
  Function.update_of_ne hne _ _

/-- Where `received_buf` stays where it is. -/
theorem storeMoved_same (p : Ptr) (ptrs : SockPtrs) (s : TjuTcp) :
    h.storeMoved p ptrs (h.receivedBufs ptrs.receivedBufs) ptrs.receivedBuf s =
      h.store p ptrs s := by
  rw [storeMoved, Function.update_eq_self]

theorem free_sock_self (p : Ptr) : (h.free p).sock p = .freed := Function.update_self _ _ _

theorem free_sock_of_ne {p q : Ptr} (hne : q ≠ p) : (h.free p).sock q = h.sock q :=
  Function.update_of_ne hne _ _

/-- **What is stored in a socket is what is read there.** -/
@[simp] theorem load_store_self (p : Ptr) (ptrs : SockPtrs) (s : TjuTcp) :
    (h.store p ptrs s).load ⟨s.own, ptrs⟩ = s := by
  simp [load, store, TjuTcp.own, Block.read_write]

@[simp] theorem load_storeMoved_self (p : Ptr) (ptrs : SockPtrs) (arena : Arena UInt8) (b : ℕ)
    (s : TjuTcp) :
    (h.storeMoved p ptrs arena b s).load ⟨s.own, { ptrs with receivedBuf := b }⟩ = s :=
  load_store_self _ _ _

/-- **A store reaches every socket with the same pointers.** -/
theorem load_store_window {m : SockMem} {ptrs : SockPtrs}
    (hptrs : m.ptrs.toObjPtrs = ptrs.toObjPtrs) (p : Ptr) (s : TjuTcp) :
    ((h.store p ptrs s).load m).window = s.window := by
  obtain ⟨fields, ⟨objs, b⟩⟩ := m
  subst hptrs
  simp [load, store]

end Heap

end TrivalTcp
