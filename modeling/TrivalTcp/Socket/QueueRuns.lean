import TrivalTcp.Foundations.BoundedFifo
import TrivalTcp.Socket.SockQueue

/-!
# Socket/QueueRuns — what the socket queues are after any sequence of calls

* `acceptQueue_fifo` — a queue that is only pushed to and popped from, as `accept_queue` is, is a
  `BoundedFifo` of `MAX_QUEUE` sockets, call by call;
* `sockqueueRemove_iff` — `sockqueue_remove` takes out one socket **exactly** as long as no call
  removes at index 0 from a queue that holds sockets: that call drops the list and leaves `size`.
-/

namespace TrivalTcp

open BoundedFifo hiding run

variable {α : Type}

/-! ## Pushing and popping -/

/-- One call on a queue that is only pushed to and popped from: the queue, what was copied into
`*sock`, and the returned status. -/
def serve (q : SockQueue α) : Op α → Outcome (SockQueue α × Option α × ℤ)
  | .push sock => .ret ((sockqueuePush q sock).1, none, (sockqueuePush q sock).2)
  | .pop => sockqueuePop q

/-- The calls one after another: the queue, and what each call gave. -/
def serveAll : SockQueue α → List (Op α) → Outcome (SockQueue α × List (Option α × ℤ))
  | q, [] => .ret (q, [])
  | q, op :: ops =>
    serve q op >>= fun (q', result) =>
      serveAll q' ops >>= fun (q'', results) => .ret (q'', result :: results)

/-- The queue that holds the items of a FIFO. -/
def ofFifo (f : BoundedFifo α maxQueue) : SockQueue α := ⟨f.items.length, f.items⟩

/-- An answer as the code gives it: what is copied into `*sock`, and the status. -/
def queueResult : Answer α → Option α × ℤ
  | .full => (none, -1)
  | .stored position => (none, position)
  | .none => (none, -1)
  | .item sock => (some sock, 0)

theorem ofFifo_empty : ofFifo (empty : BoundedFifo α maxQueue) = sockqueueInit := rfl

theorem ofFifo_eq {f : BoundedFifo α maxQueue} {nodes : List α} (h : f.items = nodes) :
    ofFifo f = ⟨nodes.length, nodes⟩ := by
  rw [ofFifo, h]

section Step

variable (f : BoundedFifo α maxQueue)

/-- **Pushing to the code's queue**: refused at 1024 sockets, otherwise stored behind the last. -/
theorem sockqueuePush_ofFifo (sock : α) : sockqueuePush (ofFifo f) sock =
    if f.items.length = maxQueue then (ofFifo f, -1)
    else (⟨f.items.length + 1, f.items ++ [sock]⟩, (f.items.length : ℤ)) := by
  by_cases hfull : f.items.length = maxQueue
  · rw [if_pos hfull, sockqueuePush, if_pos (by exact hfull)]
  · have hsize : (ofFifo f).size ≠ maxQueue := hfull
    rw [if_neg hfull]
    refine Prod.ext (sockqueuePush_queue hsize sock) ?_
    by_cases hnil : f.items = []
    · rw [sockqueuePush_index_nil hsize hnil, hnil]
      rfl
    · exact sockqueuePush_index hsize hnil sock

/-- **Popping from the code's queue**: the first socket, or -1 when there is none. -/
theorem sockqueuePop_ofFifo : sockqueuePop (ofFifo f) =
    match f.items with
    | [] => .ret (ofFifo f, none, -1)
    | sock :: rest => .ret (⟨rest.length, rest⟩, some sock, 0) := by
  cases hitems : f.items with
  | nil =>
    rw [ofFifo_eq hitems]
    rfl
  | cons sock rest =>
    rw [ofFifo_eq hitems]
    rfl

/-- **One call** on the code's queue is the operation of the FIFO. -/
theorem serve_ofFifo (op : Op α) :
    serve (ofFifo f) op = .ret (ofFifo (f.apply op).1, queueResult (f.apply op).2) := by
  cases op with
  | push sock =>
    rw [serve, sockqueuePush_ofFifo, BoundedFifo.apply]
    rcases f.length_le.lt_or_eq with hlt | hfull
    · obtain ⟨g, hg, hpush⟩ := push_of_lt hlt sock
      rw [if_neg hlt.ne, hpush, ofFifo_eq hg, List.length_append]
      rfl
    · rw [if_pos hfull, push_of_full hfull]
      rfl
  | pop =>
    rw [serve, sockqueuePop_ofFifo, BoundedFifo.apply]
    cases hitems : f.items with
    | nil =>
      rw [pop_of_nil hitems]
      rfl
    | cons sock rest =>
      obtain ⟨g, hg, hpop⟩ := pop_of_cons hitems
      rw [hpop, ofFifo_eq hg]
      rfl

/-- **All calls.** -/
theorem serveAll_ofFifo (ops : List (Op α)) : serveAll (ofFifo f) ops =
    .ret (ofFifo (BoundedFifo.run f ops).1, (BoundedFifo.run f ops).2.map queueResult) := by
  induction ops generalizing f with
  | nil => rfl
  | cons op ops ih =>
    rw [serveAll, serve_ofFifo, Outcome.ret_bind]
    dsimp only
    rw [ih, Outcome.ret_bind, BoundedFifo.run_cons]
    rfl

end Step

/-- **The accept queue is a bounded FIFO.**  After any pushes and pops from `sockqueue_init` on,
each call has given what a FIFO of 1024 sockets answers, `size` counts the nodes, and what has been
popped, followed by what is there, is what has been accepted.  The next push is refused exactly at
1024 sockets and otherwise returns the new socket's position; the next pop fails exactly on the
empty queue. -/
theorem acceptQueue_fifo (ops : List (Op α)) : ∃ (f : BoundedFifo α maxQueue)
    (answers : List (Answer α)) (q : SockQueue α),
    BoundedFifo.run empty ops = (f, answers) ∧
      serveAll sockqueueInit ops = .ret (q, answers.map queueResult) ∧
      q.nodes = f.items ∧ q.size = q.nodes.length ∧ q.size ≤ 1024 ∧
      popped answers ++ q.nodes = taken ops answers ∧
      (∀ sock, sockqueuePush q sock = if q.nodes.length = 1024 then (q, -1)
        else (⟨q.nodes.length + 1, q.nodes ++ [sock]⟩, (q.nodes.length : ℤ))) ∧
      sockqueuePop q = match q.nodes with
        | [] => .ret (q, none, -1)
        | sock :: rest => .ret (⟨rest.length, rest⟩, some sock, 0) := by
  refine ⟨_, _, ofFifo (BoundedFifo.run empty ops).1, rfl, ?_, rfl, rfl, ?_, ?_, ?_, ?_⟩
  · rw [← ofFifo_empty, serveAll_ofFifo]
  · exact (BoundedFifo.run empty ops).1.length_le
  · exact popped_append_items empty ops
  · exact sockqueuePush_ofFifo _
  · exact sockqueuePop_ofFifo _

/-! ## Removing by position -/

/-- What can be asked of a socket queue. -/
inductive QueueOp (α : Type) where
  | push (sock : α)
  | pop
  | remove (index : ℤ)

def queueStep (q : SockQueue α) : QueueOp α → Outcome (SockQueue α)
  | .push sock => .ret (sockqueuePush q sock).1
  | .pop => sockqueuePop q >>= fun r => .ret r.1
  | .remove index => sockqueueRemove q index >>= fun r => .ret r.1

/-- **Removal by position**: the `i`-th socket comes out and the others keep their order, with
`size` the number of those; where there is no `i`-th socket, -1 and nothing changes. -/
def RemovesAt (q : SockQueue α) (i : ℕ) : Prop :=
  sockqueueRemove q i = match q.nodes[i]? with
    | some sock => .ret (⟨(q.nodes.eraseIdx i).length, q.nodes.eraseIdx i⟩, some sock, 0)
    | none => .ret (q, none, -1)

/-- The step about to be taken removes as a list would, if it removes at an index from 0 on. -/
def RemovesOne (q : SockQueue α) (op : QueueOp α) : Prop := ∀ i : ℕ, op = .remove i → RemovesAt q i

/-- The step about to be taken removes at index 0 from a queue that holds sockets. -/
def DropsAll (q : SockQueue α) (op : QueueOp α) : Prop := op = .remove 0 ∧ q.nodes ≠ []

/-- `size` counts the nodes. -/
def InStep (q : SockQueue α) : Prop := q.size = q.nodes.length

section Removal

variable {q q' : SockQueue α} {i : ℕ}

/-- The walk and the unlinking take out the node behind the one they reach. -/
theorem unlinkBehind_eq (l : List α) (n : ℕ) :
    unlinkBehind l n = l[n + 1]?.map fun sock => (sock, l.eraseIdx (n + 1)) := by
  induction l generalizing n with
  | nil => rfl
  | cons node rest ih =>
    cases n with
    | zero =>
      cases rest with
      | nil => rfl
      | cons next tail => rfl
    | succ n =>
      rw [unlinkBehind, ih, Option.map_map]
      rfl

/-- On a queue that says it is empty nothing is removed. -/
theorem sockqueueRemove_of_size (h : q.size = 0) (index : ℤ) :
    sockqueueRemove q index = .ret (q, none, -1) := by
  rw [sockqueueRemove, if_pos]
  exact beq_iff_eq.mpr h

/-- **Away from index 0** the list loses its `i`-th socket, and `size` goes down by one. -/
theorem sockqueueRemove_at (hsize : q.size ≠ 0) (hne : q.nodes ≠ []) (hi : i ≠ 0) :
    sockqueueRemove q i = match q.nodes[i]? with
      | some sock => .ret (⟨q.size - 1, q.nodes.eraseIdx i⟩, some sock, 0)
      | none => .ret (q, none, -1) := by
  obtain ⟨n, rfl⟩ := Nat.exists_eq_succ_of_ne_zero hi
  obtain ⟨node, rest, hcons⟩ := List.exists_cons_of_ne_nil hne
  have hempty : sockqueueIsEmpty q = false := beq_false_of_ne hsize
  have hwalk : (((n + 1 : ℕ) : ℤ) - 1).toNat = n := by omega
  rw [sockqueueRemove, hempty, hcons]
  dsimp only
  rw [if_neg (by decide), if_neg (by omega), hwalk, unlinkBehind_eq]
  cases (node :: rest)[n + 1]? with
  | none => rfl
  | some sock => rfl

theorem removesAt_of_getElem {sock : α} (h : q.nodes[i]? = some sock) : RemovesAt q i ↔
    sockqueueRemove q i =
      .ret (⟨(q.nodes.eraseIdx i).length, q.nodes.eraseIdx i⟩, some sock, 0) := by
  rw [RemovesAt, h]

theorem removesAt_of_le (h : q.nodes.length ≤ i) :
    RemovesAt q i ↔ sockqueueRemove q i = .ret (q, none, -1) := by
  rw [RemovesAt, List.getElem?_eq_none h]

/-- Inside the list: not at index 0, and not where `size` has lost count. -/
theorem removesAt_iff_of_lt (h : i < q.nodes.length) :
    RemovesAt q i ↔ i ≠ 0 ∧ q.size = q.nodes.length := by
  have hpos : 0 < q.nodes.length := Nat.zero_lt_of_lt h
  have hne : q.nodes ≠ [] := List.length_pos_iff.mp hpos
  rw [removesAt_of_getElem (List.getElem?_eq_getElem h)]
  by_cases hsize : q.size = 0
  · rw [sockqueueRemove_of_size hsize]
    constructor
    · intro hret
      have hstatus : (-1 : ℤ) = 0 := congrArg (·.2.2) (Outcome.ret.inj hret)
      exact absurd hstatus (by decide)
    · rintro ⟨-, hcount⟩
      exact absurd (hcount ▸ hsize) hpos.ne'
  by_cases hi : i = 0
  · subst hi
    obtain ⟨node, rest, hcons⟩ := List.exists_cons_of_ne_nil hne
    rw [Int.natCast_zero, sockqueueRemove_zero hsize hcons]
    refine ⟨fun hret => absurd ?_ hsize, fun hcond => absurd rfl hcond.1⟩
    obtain ⟨hcount, hnil⟩ := SockQueue.mk.inj (congrArg (·.1) (Outcome.ret.inj hret))
    rw [hcount, ← hnil]
    rfl
  · rw [sockqueueRemove_at hsize hne hi, List.getElem?_eq_getElem h, List.length_eraseIdx_of_lt h]
    constructor
    · intro hret
      have hcount : q.size - 1 = q.nodes.length - 1 :=
        congrArg (·.1.size) (Outcome.ret.inj hret)
      exact ⟨hi, by omega⟩
    · rintro ⟨-, hcount⟩
      rw [hcount]

/-- Beyond the list: unless `size` promises sockets and there are none. -/
theorem removesAt_iff_of_le (h : q.nodes.length ≤ i) :
    RemovesAt q i ↔ (q.nodes = [] → q.size = 0) := by
  rw [removesAt_of_le h]
  constructor
  · exact sockqueueRemove_eq_ret
  · intro hempty
    by_cases hsize : q.size = 0
    · exact sockqueueRemove_of_size hsize i
    · exact sockqueueRemove_beyond hsize (mt hempty hsize) (Int.ofNat_le.mpr h)

/-- **Exactly when a removal is one**, whatever queue it is asked of. -/
theorem removesAt_iff (q : SockQueue α) (i : ℕ) : RemovesAt q i ↔
    (i < q.nodes.length → i ≠ 0 ∧ q.size = q.nodes.length) ∧ (q.nodes = [] → q.size = 0) := by
  rcases Nat.lt_or_ge i q.nodes.length with hlt | hle
  · have hne : q.nodes ≠ [] := List.length_pos_iff.mp (Nat.zero_lt_of_lt hlt)
    rw [removesAt_iff_of_lt hlt]
    exact ⟨fun h => ⟨fun _ => h, fun hnil => absurd hnil hne⟩, fun h => h.1 hlt⟩
  · rw [removesAt_iff_of_le hle]
    exact ⟨fun h => ⟨fun hlt => absurd hlt hle.not_gt, h⟩, fun h => h.2⟩

/-- Where `size` counts the nodes, only index 0 is wrong. -/
theorem InStep.removesOne_iff (h : InStep q) (op : QueueOp α) :
    RemovesOne q op ↔ ¬ DropsAll q op := by
  constructor
  · rintro hone ⟨rfl, hne⟩
    have hlt : 0 < q.nodes.length := List.length_pos_iff.mpr hne
    exact ((removesAt_iff q 0).mp (hone 0 rfl)).1 hlt |>.1 rfl
  · rintro hdrops i rfl
    refine (removesAt_iff q i).mpr ⟨fun hlt => ⟨?_, h⟩, fun hnil => ?_⟩
    · rintro rfl
      exact hdrops ⟨rfl, List.length_pos_iff.mp hlt⟩
    · have hcount : q.size = q.nodes.length := h
      rw [hcount, hnil]
      rfl

theorem InStep.push (h : InStep q) (sock : α) : InStep (sockqueuePush q sock).1 := by
  by_cases hfull : q.size = maxQueue
  · rw [sockqueuePush, if_pos hfull]
    exact h
  · rw [sockqueuePush_queue hfull]
    refine Eq.trans ?_ List.length_append.symm
    exact congrArg (· + 1) h

theorem InStep.pop (h : InStep q) {sock : Option α} {st : ℤ}
    (hpop : sockqueuePop q = .ret (q', sock, st)) : InStep q' := by
  by_cases hempty : sockqueueIsEmpty q = true
  · rw [sockqueuePop, if_pos hempty] at hpop
    obtain ⟨rfl, -⟩ := Prod.mk.inj (Outcome.ret.inj hpop)
    exact h
  · obtain ⟨size, node, rest, rfl, rfl, -⟩ :=
      sockqueuePop_eq_ret (Bool.eq_false_iff.mpr hempty) hpop
    exact Nat.succ.inj h

theorem InStep.remove (h : InStep q) {index : ℤ} {sock : Option α} {st : ℤ}
    (hdrops : ¬ DropsAll q (.remove index))
    (hremove : sockqueueRemove q index = .ret (q', sock, st)) : InStep q' := by
  have hcount : q.size = q.nodes.length := h
  rcases sockqueueRemove_cases hremove with rfl | ⟨rfl, rfl⟩ | ⟨hsize, hlength, -⟩
  · exact h
  · have hnil : q.nodes = [] := by
      by_contra hne
      exact hdrops ⟨rfl, hne⟩
    rw [hnil] at hcount
    exact hcount
  · rw [InStep]
    omega

/-- **One call** keeps `size` in step with the list, unless it drops the list. -/
theorem InStep.queueStep (h : InStep q) {op : QueueOp α} (hdrops : ¬ DropsAll q op)
    (hs : queueStep q op = .ret q') : InStep q' := by
  cases op with
  | push sock =>
    obtain rfl := Outcome.ret.inj hs
    exact h.push sock
  | pop =>
    obtain ⟨⟨t, sock, st⟩, hpop, hret⟩ := Outcome.bind_eq_ret.mp hs
    obtain rfl := Outcome.ret.inj hret
    exact h.pop hpop
  | remove index =>
    obtain ⟨⟨t, sock, st⟩, hremove, hret⟩ := Outcome.bind_eq_ret.mp hs
    obtain rfl := Outcome.ret.inj hret
    exact h.remove hdrops hremove

end Removal

/-- **Exactly when `sockqueue_remove` removes one socket.**  Over every sequence of pushes, pops and
removals from `sockqueue_init` on, each removal takes out the socket at its index **if and only if**
no removal is at index 0 of a queue that holds sockets; and in every state such a sequence ends in,
whatever it has done, the next one does so exactly where its index is not 0 and `size` counts the
nodes, or its index lies beyond nodes that `size` does not promise in vain. -/
theorem sockqueueRemove_iff (ops : List (QueueOp α)) :
    (EveryStep queueStep RemovesOne sockqueueInit ops ↔
      EveryStep queueStep (fun q op => ¬ DropsAll q op) sockqueueInit ops) ∧
    ∀ q : SockQueue α, run queueStep sockqueueInit ops = .ret q → ∀ i : ℕ, RemovesAt q i ↔
      (i < q.nodes.length → i ≠ 0 ∧ q.size = q.nodes.length) ∧ (q.nodes = [] → q.size = 0) := by
  refine ⟨?_, fun q _ i => removesAt_iff q i⟩
  have hgood : ∀ (q : SockQueue α) (op : QueueOp α) (q' : SockQueue α), InStep q →
      ¬ DropsAll q op → queueStep q op = .ret q' → InStep q' := fun _ _ _ h => h.queueStep
  have hstart : InStep (sockqueueInit : SockQueue α) := rfl
  exact everyStep_iff_everyStep hgood (fun q op h => h.removesOne_iff op) hstart ops

/-- The second of three sockets is removed from a queue that is otherwise in order. -/
theorem sockqueueRemove_iff_second : RemovesAt (⟨3, [1, 2, 3]⟩ : SockQueue ℕ) 1 :=
  ((sockqueueRemove_iff [.push 1, .push 2, .push 3]).2 ⟨3, [1, 2, 3]⟩ rfl 1).mpr
    ⟨fun _ => ⟨by decide, rfl⟩, fun h => absurd h (List.cons_ne_nil 1 [2, 3])⟩

/-- **Two sockets are queued and the first is removed**: the second goes too, and `size` says 2. -/
theorem sockqueueRemove_drops :
    run queueStep sockqueueInit [.push 1, .push 2] = .ret (⟨2, [1, 2]⟩ : SockQueue ℕ) ∧
      sockqueueRemove (⟨2, [1, 2]⟩ : SockQueue ℕ) 0 = .ret (⟨2, []⟩, some 1, 0) ∧
      ¬ RemovesAt (⟨2, [1, 2]⟩ : SockQueue ℕ) 0 := by
  refine ⟨rfl, rfl, fun h => ?_⟩
  exact ((removesAt_iff _ 0).mp h).1 (by decide) |>.1 rfl

end TrivalTcp
