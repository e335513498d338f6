import Mathlib.Data.List.Basic
import Mathlib.Order.Nat
import Mathlib.Tactic.Common

/-!
# Foundations/BoundedFifo — a queue that holds so many items and no more

What a bounded queue is for: items leave it in the order in which they came, each once, and no item
is taken while `cap` are held.  An `Answer` is what an operation tells its caller.  The law of the
queue over a whole history is one equation, `popped_append_items`: what has left, followed by what
is there, is what has been taken.
-/

/-- A queue of at most `cap` items. -/
structure BoundedFifo (α : Type*) (cap : ℕ) where
  items : List α
  length_le : items.length ≤ cap

namespace BoundedFifo

variable {α : Type*} {cap : ℕ}

@[ext] theorem ext {f g : BoundedFifo α cap} (h : f.items = g.items) : f = g := by
  cases f
  cases g
  cases h
  rfl

/-- The queue that holds nothing. -/
def empty : BoundedFifo α cap := ⟨[], Nat.zero_le cap⟩

@[simp] theorem items_empty : (empty : BoundedFifo α cap).items = [] := rfl

/-! ## Operations -/

/-- What can be asked of a queue. -/
inductive Op (α : Type*) where
  | push (a : α)
  | pop

/-- What the queue answers. -/
inductive Answer (α : Type*) where
  /-- There is no room. -/
  | full
  /-- The item stands at this position. -/
  | stored (position : ℕ)
  /-- There is nothing. -/
  | none
  /-- The first item, which has left. -/
  | item (a : α)

variable (f : BoundedFifo α cap)

def push (a : α) : BoundedFifo α cap × Answer α :=
  if h : f.items.length < cap then
    (⟨f.items ++ [a], by rw [List.length_append]; exact h⟩, .stored f.items.length)
  else
    (f, .full)

def pop : BoundedFifo α cap × Answer α :=
  match h : f.items with
  | [] => (f, .none)
  | a :: rest => (⟨rest, (Nat.le_succ _).trans (by simpa [h] using f.length_le)⟩, .item a)

def apply : Op α → BoundedFifo α cap × Answer α
  | .push a => f.push a
  | .pop => f.pop

/-- The queue after all the operations, and what each was answered. -/
def run : BoundedFifo α cap → List (Op α) → BoundedFifo α cap × List (Answer α)
  | f, [] => (f, [])
  | f, op :: ops => ((run (f.apply op).1 ops).1, (f.apply op).2 :: (run (f.apply op).1 ops).2)

@[simp] theorem run_nil : run f [] = (f, []) := rfl

theorem run_cons (op : Op α) (ops : List (Op α)) : run f (op :: ops) =
    ((run (f.apply op).1 ops).1, (f.apply op).2 :: (run (f.apply op).1 ops).2) := rfl

variable {f}

theorem push_of_lt (h : f.items.length < cap) (a : α) : ∃ g : BoundedFifo α cap,
    g.items = f.items ++ [a] ∧ f.push a = (g, .stored f.items.length) :=
  ⟨_, rfl, dif_pos h⟩

theorem push_of_full (h : f.items.length = cap) (a : α) : f.push a = (f, .full) :=
  dif_neg h.ge.not_gt

theorem pop_of_nil (h : f.items = []) : f.pop = (f, .none) := by
  rw [pop]
  split
  next => rfl
  next hcons => exact absurd (h.symm.trans hcons) (List.cons_ne_nil _ _).symm

theorem pop_of_cons {a : α} {rest : List α} (h : f.items = a :: rest) :
    ∃ g : BoundedFifo α cap, g.items = rest ∧ f.pop = (g, .item a) := by
  rw [pop]
  split
  next hnil => exact absurd (hnil.symm.trans h) (List.cons_ne_nil _ _).symm
  next b tail hcons =>
    obtain ⟨rfl, rfl⟩ := List.cons.inj (h.symm.trans hcons)
    exact ⟨_, rfl, rfl⟩

/-! ## Histories -/

/-- The items that have left. -/
def popped : List (Answer α) → List α
  | [] => []
  | .item a :: answers => a :: popped answers
  | _ :: answers => popped answers

/-- The items that have been taken: those pushed and not refused. -/
def taken : List (Op α) → List (Answer α) → List α
  | .push a :: ops, .stored _ :: answers => a :: taken ops answers
  | _ :: ops, _ :: answers => taken ops answers
  | _, _ => []

/-- **First in, first out.**  What has left, followed by what is there, is what was there, followed
by what has been taken. -/
theorem popped_append_items (f : BoundedFifo α cap) (ops : List (Op α)) :
    popped (run f ops).2 ++ (run f ops).1.items = f.items ++ taken ops (run f ops).2 := by
  induction ops generalizing f with
  | nil => exact (List.append_nil _).symm
  | cons op ops ih =>
    rw [run_cons]
    cases op with
    | push a =>
      rcases f.length_le.lt_or_eq with hlt | hfull
      · obtain ⟨g, hg, hpush⟩ := push_of_lt hlt a
        have hrest := ih g
        rw [hg, List.append_assoc] at hrest
        rw [apply, hpush]
        exact hrest
      · rw [apply, push_of_full hfull a]
        exact ih f
    | pop =>
      match hitems : f.items with
      | [] =>
        have hrest := ih f
        rw [hitems] at hrest
        rw [apply, pop_of_nil hitems]
        exact hrest
      | a :: rest =>
        obtain ⟨g, hg, hpop⟩ := pop_of_cons hitems
        have hrest := ih g
        rw [hg] at hrest
        rw [apply, hpop]
        exact congrArg (a :: ·) hrest

end BoundedFifo
