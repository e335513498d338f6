import TrivalTcp.Foundations.BoundedFifo
import TrivalTcp.Foundations.Ring
import TrivalTcp.Transfer.Transfer

/-!
# Chan/Queue — the circular buffer under a channel (`queue.c`)

`next` is where the first item stands, and `size` how many there are; both are `int`s, and the next
free place is computed without a division.

* `queue_fifo` — after any sequence of calls a queue is a `BoundedFifo` of `capacity` items, call by
  call: no sum overflows, no access is out of bounds, and nothing is read that has not been written.
-/

namespace TrivalTcp

open BoundedFifo (Op Answer)

variable {α : Type}

/-- `queue_t`.  A cell of `data` that has never been written holds nothing. -/
structure Queue (α : Type) where
  size : ℕ
  next : ℕ
  capacity : ℕ
  data : List (Option α)
  deriving DecidableEq, Repr

/-- `queue_at_capacity`. -/
def queueAtCapacity (queue : Queue α) : Bool := decide (queue.capacity ≤ queue.size)

/-- `queue_init`, as long as there is memory.  `none` is `NULL`. -/
def queueInit (capacity : ℕ) : Option (Queue α) :=
  if intMax / 8 < capacity then
    none
  else
    some { size := 0, next := 0, capacity, data := List.replicate capacity none }

/-- `queue_add`: the queue, and the returned status. -/
def queueAdd (queue : Queue α) (value : α) : Outcome (Queue α × ℤ) :=
  if queueAtCapacity queue then
    .ret (queue, -1)
  else
    let pos := queue.next + queue.size
    -- the sum of two `int`s
    if intMax < pos then
      .undef
    else
      let pos := if queue.capacity ≤ pos then pos - queue.capacity else pos
      if queue.data.length ≤ pos then
        .undef
      else
        .ret ({ queue with data := queue.data.set pos (some value), size := queue.size + 1 }, 0)

/-- `data[next]`. -/
def queueHead (queue : Queue α) : Outcome α :=
  match queue.data[queue.next]? with
  -- past the end, or never written
  | none | some none => .undef
  | some (some value) => .ret value

/-- `queue_remove`: the queue, and the item.  `none` is `NULL`. -/
def queueRemove (queue : Queue α) : Outcome (Queue α × Option α) :=
  if 0 < queue.size then
    queueHead queue >>= fun value =>
      let next := queue.next + 1
      let next := if queue.capacity ≤ next then next - queue.capacity else next
      .ret ({ queue with next, size := queue.size - 1 }, some value)
  else
    .ret (queue, none)

/-- `queue_peek`. -/
def queuePeek (queue : Queue α) : Outcome (Option α) :=
  if queue.size = 0 then .ret none else queueHead queue >>= fun value => .ret (some value)

/-! ## What each call does -/

/-- **The queue holds these items**, the first at `next`. -/
structure Queue.Holds (queue : Queue α) (items : List α) : Prop where
  size : queue.size = items.length
  length_data : queue.data.length = queue.capacity
  capacity_le : queue.capacity ≤ intMax / 8
  ring : Ring.Holds queue.data queue.next items

theorem holds_queueInit {capacity : ℕ} {queue : Queue α} (h : queueInit capacity = some queue) :
    queue.Holds [] ∧ queue.capacity = capacity := by
  rw [queueInit] at h
  split_ifs at h with hcap
  obtain rfl := Option.some.inj h
  exact ⟨⟨rfl, List.length_replicate, Nat.le_of_not_lt hcap, .empty capacity⟩, rfl⟩

namespace Queue.Holds

variable {queue : Queue α} {items rest : List α} {value : α}

theorem length_le (h : queue.Holds items) : items.length ≤ queue.capacity :=
  h.length_data ▸ h.ring.room

theorem atCapacity_iff (h : queue.Holds items) :
    queueAtCapacity queue = true ↔ items.length = queue.capacity := by
  rw [queueAtCapacity, decide_eq_true_iff, h.size]
  exact ⟨fun hle => Nat.le_antisymm h.length_le hle, Nat.le_of_eq ∘ Eq.symm⟩

theorem queueAdd_of_full (h : queue.Holds items) (hfull : items.length = queue.capacity)
    (value : α) : queueAdd queue value = .ret (queue, -1) :=
  if_pos (h.atCapacity_iff.mpr hfull)

/-- **An item is added** behind the last, as long as there is room. -/
theorem queueAdd_of_lt (h : queue.Holds items) (hroom : items.length < queue.capacity) (value : α) :
    ∃ queue' : Queue α, queueAdd queue value = .ret (queue', 0) ∧
      queue'.Holds (items ++ [value]) ∧ queue'.capacity = queue.capacity := by
  have hplace : items.length < queue.data.length := h.length_data ▸ hroom
  have hnext := h.ring.head_lt_of_lt hplace
  have hpos := Ring.slot_lt hnext hplace.le
  have hcap : ¬ queueAtCapacity queue = true := fun hc => hroom.ne (h.atCapacity_iff.mp hc)
  have hsum : ¬ intMax < queue.next + queue.size := by
    have hle := h.capacity_le
    rw [h.length_data] at hnext
    rw [h.size]
    simp only [intMax] at hle ⊢
    omega
  refine ⟨{ queue with
    data := queue.data.set (Ring.slot queue.data.length queue.next items.length) (some value)
    size := queue.size + 1 }, ?_, ⟨?_, ?_, h.capacity_le, h.ring.push hplace value⟩, rfl⟩
  · rw [queueAdd, if_neg hcap]
    dsimp only
    rw [if_neg hsum, ← h.length_data, h.size]
    exact if_neg hpos.not_ge
  · rw [List.length_append, List.length_singleton]
    exact congrArg (· + 1) h.size
  · exact List.length_set.trans h.length_data

theorem queueHead_of_cons (h : queue.Holds (value :: rest)) : queueHead queue = .ret value := by
  rw [queueHead, h.ring.getElem?_head]

theorem queueRemove_of_nil (h : queue.Holds []) : queueRemove queue = .ret (queue, none) :=
  if_neg (by rw [h.size]; exact Nat.lt_irrefl 0)

/-- **The first item is removed.** -/
theorem queueRemove_of_cons (h : queue.Holds (value :: rest)) :
    ∃ queue' : Queue α, queueRemove queue = .ret (queue', some value) ∧ queue'.Holds rest ∧
      queue'.capacity = queue.capacity := by
  refine ⟨{ queue with
    next := Ring.slot queue.data.length queue.next 1
    size := queue.size - 1 }, ?_, ⟨?_, h.length_data, h.capacity_le, h.ring.pop⟩, rfl⟩
  · rw [queueRemove, if_pos (by rw [h.size]; exact Nat.succ_pos _), h.queueHead_of_cons, h.length_data]
    rfl
  · exact congrArg (· - 1) h.size

theorem queuePeek_eq (h : queue.Holds items) : queuePeek queue = .ret items.head? := by
  cases items with
  | nil => exact if_pos h.size
  | cons value rest =>
    rw [queuePeek, if_neg (by rw [h.size]; exact Nat.succ_ne_zero _), h.queueHead_of_cons]
    rfl

end Queue.Holds

/-! ## Any sequence of calls -/

/-- What a call returns. -/
inductive QueueReply (α : Type) where
  | added (status : ℤ)
  | removed (value : Option α)
  deriving DecidableEq, Repr

namespace Queue

/-- One call of `queue_add` or `queue_remove`. -/
def serve (queue : Queue α) : Op α → Outcome (Queue α × QueueReply α)
  | .push value => queueAdd queue value >>= fun (queue, status) => .ret (queue, .added status)
  | .pop => queueRemove queue >>= fun (queue, value) => .ret (queue, .removed value)

/-- The calls one after another. -/
def serveAll : Queue α → List (Op α) → Outcome (Queue α × List (QueueReply α))
  | queue, [] => .ret (queue, [])
  | queue, op :: ops =>
    queue.serve op >>= fun (queue, reply) =>
      queue.serveAll ops >>= fun (queue, replies) => .ret (queue, reply :: replies)

/-- What a FIFO answers, as the code returns it. -/
def reply : Answer α → QueueReply α
  | .full => .added (-1)
  | .stored _ => .added 0
  | .none => .removed none
  | .item value => .removed (some value)

variable {capacity : ℕ}

/-- The queue holds what the FIFO does. -/
structure Refines (queue : Queue α) (f : BoundedFifo α capacity) : Prop where
  holds : queue.Holds f.items
  capacity : queue.capacity = capacity

namespace Refines

variable {queue : Queue α} {f : BoundedFifo α capacity}

/-- **One call** is the operation of the FIFO. -/
theorem serve (h : queue.Refines f) (op : Op α) : ∃ queue' : Queue α,
    queue.serve op = .ret (queue', reply (f.apply op).2) ∧ queue'.Refines (f.apply op).1 := by
  cases op with
  | push value =>
    rcases f.length_le.lt_or_eq with hroom | hfull
    · obtain ⟨g, hg, hpush⟩ := BoundedFifo.push_of_lt hroom value
      obtain ⟨queue', hadd, hholds, hcap⟩ := h.holds.queueAdd_of_lt (h.capacity ▸ hroom) value
      refine ⟨queue', ?_, ?_⟩
      · rw [Queue.serve, hadd, BoundedFifo.apply, hpush]
        rfl
      · rw [BoundedFifo.apply, hpush]
        exact ⟨hg ▸ hholds, hcap.trans h.capacity⟩
    · refine ⟨queue, ?_, ?_⟩
      · rw [Queue.serve, h.holds.queueAdd_of_full (hfull.trans h.capacity.symm), BoundedFifo.apply,
          BoundedFifo.push_of_full hfull]
        rfl
      · rwa [BoundedFifo.apply, BoundedFifo.push_of_full hfull]
  | pop =>
    cases hitems : f.items with
    | nil =>
      have hnil : queue.Holds [] := hitems ▸ h.holds
      refine ⟨queue, ?_, ?_⟩
      · rw [Queue.serve, hnil.queueRemove_of_nil, BoundedFifo.apply, BoundedFifo.pop_of_nil hitems]
        rfl
      · rwa [BoundedFifo.apply, BoundedFifo.pop_of_nil hitems]
    | cons value rest =>
      obtain ⟨g, hg, hpop⟩ := BoundedFifo.pop_of_cons hitems
      have hcons : queue.Holds (value :: rest) := hitems ▸ h.holds
      obtain ⟨queue', hremove, hholds, hcap⟩ := hcons.queueRemove_of_cons
      refine ⟨queue', ?_, ?_⟩
      · rw [Queue.serve, hremove, BoundedFifo.apply, hpop]
        rfl
      · rw [BoundedFifo.apply, hpop]
        exact ⟨hg ▸ hholds, hcap.trans h.capacity⟩

/-- **All calls.** -/
theorem serveAll (h : queue.Refines f) (ops : List (Op α)) : ∃ queue' : Queue α,
    queue.serveAll ops = .ret (queue', (BoundedFifo.run f ops).2.map reply) ∧
      queue'.Refines (BoundedFifo.run f ops).1 := by
  induction ops generalizing queue f with
  | nil => exact ⟨queue, rfl, h⟩
  | cons op ops ih =>
    obtain ⟨queue₁, hserve, h₁⟩ := h.serve op
    obtain ⟨queue', hall, h'⟩ := ih h₁
    refine ⟨queue', ?_, h'⟩
    rw [Queue.serveAll, hserve, Outcome.ret_bind]
    dsimp only
    rw [hall, Outcome.ret_bind, BoundedFifo.run_cons]
    rfl

end Refines

end Queue

/-- **The circular buffer is a bounded FIFO.**  After any calls on a queue that `queue_init` has
returned, each call has returned what a FIFO of `capacity` items answers, none has overflowed an
`int`, left the array or read a cell that was never written; what has been removed, followed by what
is there, is what has been added; `queue_peek` gives the first item, and `queue_at_capacity` says
whether there is room. -/
theorem queue_fifo {capacity : ℕ} {queue : Queue α} (h : queueInit capacity = some queue)
    (ops : List (Op α)) : ∃ (f : BoundedFifo α capacity) (answers : List (Answer α))
      (queue' : Queue α),
    BoundedFifo.run .empty ops = (f, answers) ∧
      queue.serveAll ops = .ret (queue', answers.map Queue.reply) ∧
      queue'.size = f.items.length ∧
      BoundedFifo.popped answers ++ f.items = BoundedFifo.taken ops answers ∧
      queuePeek queue' = .ret f.items.head? ∧
      (queueAtCapacity queue' = true ↔ f.items.length = capacity) := by
  obtain ⟨hempty, hcap⟩ := holds_queueInit h
  have hstart : queue.Refines (.empty : BoundedFifo α capacity) := ⟨hempty, hcap⟩
  obtain ⟨queue', hall, hrefines⟩ := hstart.serveAll ops
  refine ⟨_, _, queue', rfl, hall, hrefines.holds.size, BoundedFifo.popped_append_items .empty ops,
    hrefines.holds.queuePeek_eq, ?_⟩
  rw [hrefines.holds.atCapacity_iff, hrefines.capacity]

/-- Three items go through a queue of two places, and the third is refused until one has left. -/
theorem queue_fifo_wraps : ∃ queue queue' : Queue ℕ, queueInit 2 = some queue ∧
    queue.serveAll [.push 7, .push 8, .push 9, .pop, .push 9, .pop] =
      .ret (queue', [.added 0, .added 0, .added (-1), .removed (some 7), .added 0,
        .removed (some 8)]) ∧
    queuePeek queue' = .ret (some 9) := by
  obtain ⟨f, answers, queue', hrun, hall, -, -, hpeek, -⟩ :=
    queue_fifo (rfl : queueInit 2 = some (⟨0, 0, 2, [none, none]⟩ : Queue ℕ))
      [.push 7, .push 8, .push 9, .pop, .push 9, .pop]
  obtain ⟨rfl, rfl⟩ := Prod.mk.inj hrun
  exact ⟨_, queue', rfl, hall, hpeek⟩

end TrivalTcp
