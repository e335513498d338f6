import Mathlib.Data.List.Basic
import Mathlib.Order.Nat
import Mathlib.Tactic.Common

/-!
# Foundations/Ring — a list that goes round in an array

The items of a queue stand one after another in an array, from `head` on, and go on at the beginning
where the array ends.  `slot` is where each of them stands: one comparison and one subtraction, since
a list no longer than the array goes round at most once.
-/

namespace Ring

variable {α : Type*} {cap head i j : ℕ}

/-- Where the `i`th item stands, from `head` on. -/
def slot (cap head i : ℕ) : ℕ := if cap ≤ head + i then head + i - cap else head + i

theorem slot_zero (h : head < cap) : slot cap head 0 = head := if_neg h.not_ge

theorem slot_lt (h : head < cap) (hi : i ≤ cap) : slot cap head i < cap := by
  rw [slot]
  split_ifs <;> omega

/-- **No two items stand in one place.** -/
theorem slot_ne (hj : j < cap) (hij : i < j) : slot cap head i ≠ slot cap head j := by
  rw [slot, slot]
  split_ifs <;> omega

/-- Counting from the next place, each item is one nearer. -/
theorem slot_slot_one (h : head < cap) (hi : i + 1 ≤ cap) :
    slot cap (slot cap head 1) i = slot cap head (i + 1) := by
  simp only [slot]
  split_ifs <;> omega

/-- **The items stand in the array**, from `head` on.  What the other places hold is not said. -/
structure Holds (cells : List (Option α)) (head : ℕ) (items : List α) : Prop where
  room : items.length ≤ cells.length
  head_lt : cells ≠ [] → head < cells.length
  cell : ∀ i a, items[i]? = some a → cells[slot cells.length head i]? = some (some a)

namespace Holds

variable {cells : List (Option α)} {items rest : List α} {a : α}

/-- An array nothing has been written to. -/
theorem empty (cap : ℕ) : Holds (List.replicate cap (none : Option α)) 0 [] where
  room := Nat.zero_le _
  head_lt h := List.length_pos_iff.mpr h
  cell i a h := by
    rw [List.getElem?_nil] at h
    contradiction

theorem head_lt_of_lt (h : Holds cells head items) (hroom : i < cells.length) :
    head < cells.length :=
  h.head_lt (List.length_pos_iff.mp (Nat.zero_lt_of_lt hroom))

/-- **One more item** goes behind the last, where there is a place for it. -/
theorem push (h : Holds cells head items) (hroom : items.length < cells.length) (a : α) :
    Holds (cells.set (slot cells.length head items.length) (some a)) head (items ++ [a]) where
  room := by
    rw [List.length_append, List.length_set]
    exact hroom
  head_lt _ := by
    rw [List.length_set]
    exact h.head_lt_of_lt hroom
  cell i b hb := by
    rw [List.length_set]
    rcases Nat.lt_or_ge i items.length with hi | hi
    · rw [List.getElem?_append_left hi] at hb
      rw [List.getElem?_set_ne (slot_ne hroom hi).symm]
      exact h.cell i b hb
    · obtain ⟨hlt, -⟩ := List.getElem?_eq_some_iff.mp hb
      rw [List.length_append, List.length_singleton] at hlt
      obtain rfl : i = items.length := by omega
      obtain rfl : a = b := by simpa using hb
      exact List.getElem?_set_self (slot_lt (h.head_lt_of_lt hroom) hroom.le)

/-- The first item stands at `head`. -/
theorem getElem?_head (h : Holds cells head (a :: rest)) : cells[head]? = some (some a) := by
  have hfirst := h.cell 0 a rfl
  rwa [slot_zero (h.head_lt_of_lt (Nat.lt_of_lt_of_le (Nat.succ_pos _) h.room))] at hfirst

/-- **The first item leaves**, and the array starts one place further on. -/
theorem pop (h : Holds cells head (a :: rest)) : Holds cells (slot cells.length head 1) rest := by
  have hpos : 0 < cells.length := Nat.lt_of_lt_of_le (Nat.succ_pos _) h.room
  have hlt := h.head_lt_of_lt hpos
  refine ⟨Nat.le_of_succ_le h.room, fun _ => slot_lt hlt hpos, fun i b hb => ?_⟩
  obtain ⟨hi, -⟩ := List.getElem?_eq_some_iff.mp hb
  rw [slot_slot_one hlt (Nat.le_trans (Nat.succ_le_succ hi.le) h.room)]
  exact h.cell (i + 1) b hb

end Holds

end Ring
