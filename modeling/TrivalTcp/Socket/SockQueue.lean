import TrivalTcp.Foundations.Run
import TrivalTcp.Packet.Consts

/-!
# Socket/SockQueue — the queues of half-open and of completed connections (`sockqueue.c`)

A queue is a linked list with a separately kept `size`.  The list is modelled by the list of its
nodes' `data`; `size` is a field of its own, because `sockqueue_remove` does not always keep the two
in step.  A `NULL` node that is dereferenced is undefined behaviour.
-/

namespace TrivalTcp

/-- `sock_queue`: the nodes from `base` on, and the `size` field. -/
structure SockQueue (α : Type) where
  size : ℕ
  nodes : List α
  deriving DecidableEq, Repr, Inhabited

variable {α : Type}

/-- `sockqueue_init`. -/
def sockqueueInit : SockQueue α := ⟨0, []⟩

/-- `sockqueue_is_empty`: it reads `size`, not the list. -/
def sockqueueIsEmpty (q : SockQueue α) : Bool := q.size == 0

/-- `sockqueue_push`: the new queue and the returned position. -/
def sockqueuePush (q : SockQueue α) (sock : α) : SockQueue α × ℤ :=
  if q.size = maxQueue then
    (q, -1)
  else
    match q.nodes with
    | [] => (⟨q.size + 1, [sock]⟩, 0)
    | node :: rest => (⟨q.size + 1, node :: rest ++ [sock]⟩, q.size)

/-- `sockqueue_pop`: the new queue, what was copied into `*sock`, and the returned status. -/
def sockqueuePop (q : SockQueue α) : Outcome (SockQueue α × Option α × ℤ) :=
  if sockqueueIsEmpty q then
    .ret (q, none, -1)
  else
    match q.nodes with
    | [] => .undef
    | node :: rest => .ret (⟨q.size - 1, rest⟩, some node, 0)

/-- The loop of `sockqueue_remove` and the unlinking after it: walk `steps` nodes on, then take out
the node behind the one reached.  `none` when the walk or the node behind it runs off the list. -/
def unlinkBehind : List α → ℕ → Option (α × List α)
  | [], _ => none
  | [_], 0 => none
  | prev :: node :: rest, 0 => some (node, prev :: rest)
  | node :: rest, steps + 1 => (unlinkBehind rest steps).map fun (data, rest') =>
      (data, node :: rest')

/-- `sockqueue_remove`.  At index 0 the whole list is dropped and `size` stays; an index below 0
behaves as 1, since the loop is not entered. -/
def sockqueueRemove (q : SockQueue α) (index : ℤ) : Outcome (SockQueue α × Option α × ℤ) :=
  if sockqueueIsEmpty q then
    .ret (q, none, -1)
  else
    match q.nodes with
    | [] => .undef
    | node :: rest =>
      if index = 0 then
        .ret (⟨q.size, []⟩, some node, 0)
      else
        match unlinkBehind (node :: rest) (index - 1).toNat with
        | none => .ret (q, none, -1)
        | some (data, nodes) => .ret (⟨q.size - 1, nodes⟩, some data, 0)

/-! ## Node by node

`sockqueue_remove` once more, with every pointer it follows: a `sock_node*` is the list of the nodes
from there on, `NULL` the empty list. -/

/-- `node->next`. -/
def nextNode : List α → Outcome (List α)
  | [] => .undef
  | _ :: next => .ret next

/-- `*node->data`. -/
def nodeData : List α → Outcome α
  | [] => .undef
  | data :: _ => .ret data

/-- The loop of `sockqueue_remove`: `node = node->next`, that many times, or `none` once that is
`NULL`. -/
def walkNodes : List α → ℕ → Outcome (Option (List α))
  | node, 0 => .ret (some node)
  | node, steps + 1 =>
    nextNode node >>= fun next =>
      match next with
      | [] => .ret none
      | _ :: _ => walkNodes next steps

/-- `sockqueue_remove`, pointer by pointer. -/
def sockqueueRemoveNodes (q : SockQueue α) (index : ℤ) : Outcome (SockQueue α × Option α × ℤ) :=
  if sockqueueIsEmpty q then
    .ret (q, none, -1)
  else if index = 0 then
    nodeData q.nodes >>= fun data => .ret (⟨q.size, []⟩, some data, 0)
  else
    walkNodes q.nodes (index - 1).toNat >>= fun prev =>
      match prev with
      | none => .ret (q, none, -1)
      | some prev =>
        nextNode prev >>= fun node =>
          match node with
          | [] => .ret (q, none, -1)
          | _ :: _ =>
            nextNode node >>= fun next =>
              nodeData node >>= fun data =>
                -- what stands before `node` stays, and `prev->next = node->next`
                let front := q.nodes.take (q.nodes.length - node.length)
                .ret (⟨q.size - 1, front ++ next⟩, some data, 0)

/-! ## What they do to the nodes -/

section Nodes

variable {q : SockQueue α}

theorem sockqueuePush_queue (h : q.size ≠ maxQueue) (sock : α) :
    (sockqueuePush q sock).1 = ⟨q.size + 1, q.nodes ++ [sock]⟩ := by
  obtain ⟨size, nodes⟩ := q
  rw [sockqueuePush, if_neg h]
  cases nodes <;> rfl

/-- The first node gets position 0. -/
theorem sockqueuePush_index_nil (h : q.size ≠ maxQueue) (hnil : q.nodes = []) (sock : α) :
    (sockqueuePush q sock).2 = 0 := by
  rw [sockqueuePush, if_neg h, hnil]

/-- Every later node gets `size`, which is its position only where `size` counts the nodes. -/
theorem sockqueuePush_index (h : q.size ≠ maxQueue) (hne : q.nodes ≠ []) (sock : α) :
    (sockqueuePush q sock).2 = q.size := by
  obtain ⟨node, rest, hcons⟩ := List.exists_cons_of_ne_nil hne
  rw [sockqueuePush, if_neg h, hcons]

/-- A queue that is not empty and can be popped has a first node. -/
theorem sockqueuePop_eq_ret {q' : SockQueue α} {sock : Option α} {st : ℤ}
    (hne : sockqueueIsEmpty q = false) (h : sockqueuePop q = .ret (q', sock, st)) :
    ∃ size node rest, q = ⟨size + 1, node :: rest⟩ ∧ q' = ⟨size, rest⟩ ∧ sock = some node := by
  obtain ⟨size, nodes⟩ := q
  rw [sockqueuePop, hne] at h
  obtain ⟨size, rfl⟩ := Nat.exists_eq_succ_of_ne_zero (ne_of_beq_false hne)
  cases nodes with
  | nil => nomatch h
  | cons node rest =>
    obtain ⟨rfl, hrest⟩ := Prod.mk.inj (Outcome.ret.inj h)
    exact ⟨size, node, rest, rfl, rfl, (Prod.mk.inj hrest).1.symm⟩

/-- Unlinking behind the last node but one takes out the last. -/
theorem unlinkBehind_last (x : α) (xs : List α) (y : α) :
    unlinkBehind (x :: (xs ++ [y])) xs.length = some (y, x :: xs) := by
  induction xs generalizing x with
  | nil => rfl
  | cons z zs ih =>
    rw [List.length_cons, List.cons_append, unlinkBehind, ih z]
    rfl

/-- Unlinking behind the last node, or further on, finds nothing. -/
theorem unlinkBehind_beyond {l : List α} {n : ℕ} (h : l.length ≤ n + 1) :
    unlinkBehind l n = none := by
  induction l generalizing n with
  | nil => rfl
  | cons x xs ih =>
    rw [List.length_cons] at h
    cases n with
    | zero =>
      obtain rfl : xs = [] := List.length_eq_zero_iff.mp (by omega)
      rfl
    | succ n => rw [unlinkBehind, ih (by omega), Option.map_none]

/-- **At index 0 the whole list goes**, and `size` stays. -/
theorem sockqueueRemove_zero (hsize : q.size ≠ 0) {node : α} {rest : List α}
    (hnodes : q.nodes = node :: rest) :
    sockqueueRemove q 0 = .ret (⟨q.size, []⟩, some node, 0) := by
  have hempty : sockqueueIsEmpty q = false := beq_false_of_ne hsize
  rw [sockqueueRemove, hempty, hnodes]
  rfl

/-- At the last index, not 0, the last node goes. -/
theorem sockqueueRemove_last (hsize : q.size ≠ 0) {xs : List α} {y : α} (hne : xs ≠ [])
    (hnodes : q.nodes = xs ++ [y]) :
    sockqueueRemove q xs.length = .ret (⟨q.size - 1, xs⟩, some y, 0) := by
  have hempty : sockqueueIsEmpty q = false := beq_false_of_ne hsize
  obtain ⟨x, xs, rfl⟩ := List.exists_cons_of_ne_nil hne
  have hindex : (((x :: xs).length : ℤ) - 1).toNat = xs.length := by
    rw [List.length_cons]
    omega
  rw [sockqueueRemove, hempty, hnodes, List.cons_append]
  dsimp only
  rw [if_neg (by decide), if_neg (by rw [List.length_cons]; omega), hindex, unlinkBehind_last]

/-- Past the last index nothing goes. -/
theorem sockqueueRemove_beyond (hsize : q.size ≠ 0) (hne : q.nodes ≠ []) {index : ℤ}
    (hindex : q.nodes.length ≤ index) : sockqueueRemove q index = .ret (q, none, -1) := by
  have hempty : sockqueueIsEmpty q = false := beq_false_of_ne hsize
  obtain ⟨node, rest, hcons⟩ := List.exists_cons_of_ne_nil hne
  rw [hcons, List.length_cons] at hindex
  rw [sockqueueRemove, hempty, hcons]
  dsimp only
  rw [if_neg (by decide), if_neg (by omega), unlinkBehind_beyond]
  rw [List.length_cons]
  omega

/-- A removal returns unless it finds no nodes where `size` promises some. -/
theorem sockqueueRemove_returns (h : q.nodes = [] → q.size = 0) (index : ℤ) :
    ∃ r, sockqueueRemove q index = .ret r := by
  by_cases hsize : q.size = 0
  · refine ⟨(q, none, -1), ?_⟩
    have hempty : sockqueueIsEmpty q = true := beq_iff_eq.mpr hsize
    rw [sockqueueRemove, hempty]
    rfl
  · obtain ⟨node, rest, hcons⟩ := List.exists_cons_of_ne_nil (mt h hsize)
    have hempty : sockqueueIsEmpty q = false := beq_false_of_ne hsize
    rw [sockqueueRemove, hempty, hcons]
    dsimp only
    rw [if_neg (by decide)]
    split_ifs
    · exact ⟨_, rfl⟩
    · split
      · exact ⟨_, rfl⟩
      · exact ⟨_, rfl⟩

/-- There a removal follows `NULL`. -/
theorem sockqueueRemove_eq_undef (hnil : q.nodes = []) (hsize : q.size ≠ 0) (index : ℤ) :
    sockqueueRemove q index = .undef := by
  have hempty : sockqueueIsEmpty q = false := beq_false_of_ne hsize
  rw [sockqueueRemove, hempty, hnil]
  rfl

theorem sockqueueRemove_eq_ret {index : ℤ} {r : SockQueue α × Option α × ℤ}
    (h : sockqueueRemove q index = .ret r) : q.nodes = [] → q.size = 0 := by
  intro hnil
  by_contra hsize
  nomatch h.symm.trans (sockqueueRemove_eq_undef hnil hsize index)

/-- What is left after an unlinking: one node less, and never nothing. -/
theorem unlinkBehind_eq_some {l rest : List α} {n : ℕ} {data : α}
    (h : unlinkBehind l n = some (data, rest)) : rest.length + 1 = l.length ∧ rest ≠ [] := by
  induction l generalizing n data rest with
  | nil => contradiction
  | cons x xs ih =>
    cases n with
    | zero =>
      cases xs with
      | nil => contradiction
      | cons y ys =>
        obtain ⟨-, rfl⟩ := Prod.mk.inj (Option.some.inj h)
        exact ⟨rfl, List.cons_ne_nil x ys⟩
    | succ n =>
      rw [unlinkBehind, Option.map_eq_some_iff] at h
      obtain ⟨⟨data', rest'⟩, htail, heq⟩ := h
      obtain ⟨-, rfl⟩ := Prod.mk.inj heq
      exact ⟨congrArg (· + 1) (ih htail).1, List.cons_ne_nil x rest'⟩

/-- **What a removal leaves of a queue**: all of it, an empty list with the `size` it had, or one
socket less. -/
theorem sockqueueRemove_cases {q' : SockQueue α} {index : ℤ} {removed : Option α} {st : ℤ}
    (h : sockqueueRemove q index = .ret (q', removed, st)) :
    q' = q ∨ (index = 0 ∧ q' = ⟨q.size, []⟩) ∨
      (q'.size + 1 = q.size ∧ q'.nodes.length + 1 = q.nodes.length ∧ q'.nodes ≠ []) := by
  by_cases hsize : q.size = 0
  · have hempty : sockqueueIsEmpty q = true := beq_iff_eq.mpr hsize
    rw [sockqueueRemove, if_pos hempty] at h
    exact .inl (Prod.mk.inj (Outcome.ret.inj h)).1.symm
  obtain ⟨node, rest, hnodes⟩ := List.exists_cons_of_ne_nil (mt (sockqueueRemove_eq_ret h) hsize)
  have hempty : ¬ sockqueueIsEmpty q = true := fun he => hsize (beq_iff_eq.mp he)
  rw [sockqueueRemove, if_neg hempty, hnodes] at h
  dsimp only at h
  split_ifs at h with hindex
  · exact .inr (.inl ⟨hindex, (Prod.mk.inj (Outcome.ret.inj h)).1.symm⟩)
  · split at h
    next => exact .inl (Prod.mk.inj (Outcome.ret.inj h)).1.symm
    next data nodes hunlink =>
      obtain ⟨rfl, -⟩ := Prod.mk.inj (Outcome.ret.inj h)
      obtain ⟨hlength, hne⟩ := unlinkBehind_eq_some hunlink
      exact .inr (.inr ⟨Nat.succ_pred_eq_of_ne_zero hsize, hnodes ▸ hlength, hne⟩)

/-- Where the walk ends, and what is unlinked there. -/
theorem walkNodes_cases {l : List α} (h : l ≠ []) (n : ℕ) :
    (walkNodes l n = .ret none ∧ unlinkBehind l n = none) ∨
    (∃ x, walkNodes l n = .ret (some [x]) ∧ unlinkBehind l n = none) ∨
    (∃ front x y rest, l = front ++ x :: y :: rest ∧ walkNodes l n = .ret (some (x :: y :: rest)) ∧
      unlinkBehind l n = some (y, front ++ x :: rest)) := by
  induction n generalizing l with
  | zero =>
    match l with
    | [] => exact absurd rfl h
    | [x] => exact .inr (.inl ⟨x, rfl, rfl⟩)
    | x :: y :: rest => exact .inr (.inr ⟨[], x, y, rest, rfl, rfl, rfl⟩)
  | succ n ih =>
    match l with
    | [] => exact absurd rfl h
    | [x] => exact .inl ⟨rfl, rfl⟩
    | z :: w :: tail =>
      have hwalk : walkNodes (z :: w :: tail) (n + 1) = walkNodes (w :: tail) n := rfl
      rw [hwalk, unlinkBehind]
      rcases ih (List.cons_ne_nil w tail) with ⟨hw, hu⟩ | ⟨x, hw, hu⟩ | ⟨front, x, y, rest, hl, hw, hu⟩
      · exact .inl ⟨hw, by rw [hu]; rfl⟩
      · exact .inr (.inl ⟨x, hw, by rw [hu]; rfl⟩)
      · exact .inr (.inr ⟨z :: front, x, y, rest, by rw [hl]; rfl, hw, by rw [hu]; rfl⟩)

/-- **Following the pointers is what `sockqueueRemove` says.** -/
theorem sockqueueRemoveNodes_eq (q : SockQueue α) (index : ℤ) :
    sockqueueRemoveNodes q index = sockqueueRemove q index := by
  rw [sockqueueRemoveNodes, sockqueueRemove]
  by_cases hempty : sockqueueIsEmpty q = true
  · rw [if_pos hempty, if_pos hempty]
  rw [if_neg hempty, if_neg hempty]
  by_cases hnil : q.nodes = []
  · rw [hnil]
    by_cases hindex : index = 0
    · rw [if_pos hindex]
      rfl
    · rw [if_neg hindex]
      cases (index - 1).toNat with
      | zero => rfl
      | succ n => rfl
  obtain ⟨node, rest, hcons⟩ := List.exists_cons_of_ne_nil hnil
  rw [hcons]
  dsimp only
  by_cases hindex : index = 0
  · rw [if_pos hindex, if_pos hindex]
    rfl
  · rw [if_neg hindex, if_neg hindex]
    rcases walkNodes_cases (List.cons_ne_nil node rest) (index - 1).toNat with ⟨hw, hu⟩ |
      ⟨x, hw, hu⟩ | ⟨front, x, y, tail, hl, hw, hu⟩
    · rw [hw, hu]
      rfl
    · rw [hw, hu]
      rfl
    · have hfront : (front ++ x :: y :: tail).take
          ((front ++ x :: y :: tail).length - (y :: tail).length) = front ++ [x] := by
        rw [List.append_cons front x, List.length_append, Nat.add_sub_cancel, List.take_left]
      rw [hw, hu, hl]
      dsimp only [nextNode, nodeData, Outcome.ret_bind]
      rw [hfront, List.append_assoc]
      rfl

end Nodes

end TrivalTcp
