import Mathlib.Algebra.Order.Ring.Int
import Mathlib.Data.Rat.Lemmas
import Mathlib.Tactic.Common

/-!
# Foundations/Truncate — the conversion of a fraction to an integer

C converts a floating value to an integer type by dropping the fraction, whatever the sign.  Where
floating values are read as exact rationals this is `truncate`.
-/

/-- `q` without its fraction. -/
def truncate (q : ℚ) : ℤ := q.num.tdiv q.den

/-- **A quotient of integers, truncated, is their integer quotient.** -/
theorem truncate_div (a : ℤ) {b : ℤ} (hb : 0 < b) : truncate (a / b) = a.tdiv b := by
  obtain ⟨c, hnum, hden⟩ := Rat.exists_eq_mul_div_num_and_eq_mul_div_den a hb.ne'
  generalize (a / b : ℚ) = q at hnum hden ⊢
  have hc : 0 < c := by
    by_contra hc
    have hle := mul_nonpos_of_nonpos_of_nonneg (not_lt.mp hc) (Int.natCast_nonneg q.den)
    exact absurd hb (hden ▸ hle).not_gt
  rw [hnum, hden, Int.mul_tdiv_mul_of_pos _ _ hc, truncate]
