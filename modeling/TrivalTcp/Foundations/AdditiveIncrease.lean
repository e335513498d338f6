import Mathlib.Algebra.Order.Ring.Int
import Mathlib.Logic.Function.Iterate
import Mathlib.Tactic.Linarith
import Mathlib.Tactic.Ring

/-!
# Foundations/AdditiveIncrease — a window that grows by its share of a constant

A window `x` grows by `K / x`, rounded down, at every step.  The larger it is the less it grows, and
two bounds follow for any number of steps from any positive window:

* `iterate_grow_le` — it never passes `K + 1`, unless it starts beyond: below `K` a step is bounded
  by the chord from 1 to `K`, and beyond `K` there is none;
* `iterate_grow_le_add` — with `K = d * d`, as many steps as `d` fits into `x` add at most `d`.
-/

namespace AdditiveIncrease

/-- One step. -/
def grow (K x : ℤ) : ℤ := x + K / x

section Step

variable {K x y : ℤ}

theorem le_grow (hK : 0 ≤ K) (hx : 0 ≤ x) : x ≤ grow K x :=
  le_add_of_nonneg_right (Int.ediv_nonneg hK hx)

/-- Beyond `K` there is nothing to add. -/
theorem grow_of_lt (hK : 0 ≤ K) (hx : K < x) : grow K x = x := by
  rw [grow, Int.ediv_eq_zero_of_lt hK hx, add_zero]

/-- **A step stays below the fixed points**, or at the one it stands on. -/
theorem grow_le (hK : 0 ≤ K) (hx : 0 < x) : grow K x ≤ max x (K + 1) := by
  rcases lt_or_ge K x with hlt | hle
  · rw [grow_of_lt hK hlt]
    exact le_max_left x (K + 1)
  · refine le_max_of_le_right ?_
    have hshare : x * (K / x) ≤ K := Int.mul_ediv_self_le hx.ne'
    have hone : 1 ≤ K / x := (Int.le_ediv_iff_mul_le hx).mpr (by rwa [one_mul])
    -- both factors are at least 1, so their sum is at most their product and 1
    have hchord : 0 ≤ (x - 1) * (K / x - 1) :=
      mul_nonneg (sub_nonneg.mpr hx) (sub_nonneg.mpr hone)
    rw [grow]
    linarith only [hshare, hchord, (by ring : (x - 1) * (K / x - 1) = x * (K / x) - x - K / x + 1)]

/-- A larger window has the smaller share. -/
theorem share_antitone (hK : 0 ≤ K) (hx : 0 < x) (hxy : x ≤ y) : K / y ≤ K / x := by
  rw [Int.le_ediv_iff_mul_le hx]
  have hy : 0 < y := hx.trans_le hxy
  calc K / y * x ≤ K / y * y := mul_le_mul_of_nonneg_left hxy (Int.ediv_nonneg hK hy.le)
    _ = y * (K / y) := mul_comm _ _
    _ ≤ K := Int.mul_ediv_self_le hy.ne'

/-- The share of a square is at most the side, once the window is. -/
theorem share_le {d : ℤ} (hd : 0 < d) (hx : d ≤ x) : d * d / x ≤ d := by
  have hshare := share_antitone (mul_nonneg hd.le hd.le) hd hx
  rwa [Int.mul_ediv_cancel d hd.ne'] at hshare

end Step

/-! ## Any number of steps -/

section Run

variable {K x : ℤ} (hK : 0 ≤ K) (hx : 0 < x)

include hK hx

theorem le_iterate_grow (n : ℕ) : x ≤ (grow K)^[n] x := by
  induction n with
  | zero => exact le_rfl
  | succ n ih =>
    rw [Function.iterate_succ_apply']
    exact ih.trans (le_grow hK (hx.le.trans ih))

/-- **The window never passes `K + 1`**, unless it starts beyond. -/
theorem iterate_grow_le (n : ℕ) : (grow K)^[n] x ≤ max x (K + 1) := by
  induction n with
  | zero => exact le_max_left x (K + 1)
  | succ n ih =>
    rw [Function.iterate_succ_apply']
    refine (grow_le hK (hx.trans_le (le_iterate_grow hK hx n))).trans ?_
    exact max_le ih (le_max_right x (K + 1))

/-- Every step adds at most what the first one adds. -/
theorem iterate_grow_le_add_mul (n : ℕ) : (grow K)^[n] x ≤ x + n * (K / x) := by
  induction n with
  | zero => rw [Function.iterate_zero, id, Nat.cast_zero, zero_mul, add_zero]
  | succ n ih =>
    have hshare := share_antitone hK hx (le_iterate_grow hK hx n)
    rw [Function.iterate_succ_apply', grow, Nat.cast_succ, add_mul, one_mul]
    linarith only [ih, hshare]

end Run

/-- **One window of steps adds at most one `d`.** -/
theorem iterate_grow_le_add {d x : ℤ} (hd : 0 ≤ d) (hx : 0 < x) {n : ℕ} (hn : n * d ≤ x) :
    (grow (d * d))^[n] x ≤ x + d := by
  refine (iterate_grow_le_add_mul (mul_nonneg hd hd) hx n).trans (add_le_add_right ?_ x)
  refine le_of_mul_le_mul_right ?_ hx
  calc n * (d * d / x) * x = n * (x * (d * d / x)) := by ring
    _ ≤ n * (d * d) := mul_le_mul_of_nonneg_left (Int.mul_ediv_self_le hx.ne') (Nat.cast_nonneg n)
    _ = d * (n * d) := by ring
    _ ≤ d * x := mul_le_mul_of_nonneg_left hn hd

end AdditiveIncrease
