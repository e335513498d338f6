import Mathlib.Algebra.Order.Ring.Int
import Mathlib.Algebra.Ring.Divisibility.Basic

/-!
# Foundations/SignedRemainder — the remainder of a signed word

C's `%` rounds the quotient toward zero, so a remainder has the sign of what is divided.  For a
word read as a signed number that is its top bit, and `tmod_toInt_nonneg_iff` says **exactly** which
words leave a remainder that can be an index: those in the lower half of the range, and the
multiples of the divisor.
-/

namespace SignedRemainder

variable {w n : ℕ}

/-- **The sign of a truncating remainder**, which has none where the division leaves nothing. -/
theorem tmod_nonneg_iff {a : ℤ} : 0 ≤ a.tmod n ↔ 0 ≤ a ∨ (n : ℤ) ∣ a := by
  constructor
  · intro h
    rcases Int.le_total 0 a with hpos | hneg
    · exact .inl hpos
    · have hle : 0 ≤ (-a).tmod n := Int.tmod_nonneg n (Int.neg_nonneg_of_nonpos hneg)
      rw [Int.neg_tmod] at hle
      have hzero : a.tmod n = 0 := le_antisymm (Int.neg_nonneg.mp hle) h
      exact .inr (Int.dvd_iff_tmod_eq_zero.mpr hzero)
  · rintro (hpos | hdvd)
    · exact Int.tmod_nonneg n hpos
    · exact (Int.dvd_iff_tmod_eq_zero.mp hdvd).ge

/-- What divides the range divides a word as it divides the signed number: the two differ by the
range at most. -/
theorem dvd_toInt_iff (hn : n ∣ 2 ^ w) (x : BitVec w) : (n : ℤ) ∣ x.toInt ↔ n ∣ x.toNat := by
  have hrange : (n : ℤ) ∣ ((2 ^ w : ℕ) : ℤ) := Int.natCast_dvd_natCast.mpr hn
  by_cases hlow : 2 * x.toNat < 2 ^ w
  · rw [BitVec.toInt_eq_toNat_cond, if_pos hlow, Int.natCast_dvd_natCast]
  · rw [BitVec.toInt_eq_toNat_cond, if_neg hlow, dvd_sub_left hrange, Int.natCast_dvd_natCast]

/-- **Exactly which words leave a remainder that is not negative.** -/
theorem tmod_toInt_nonneg_iff (hn : n ∣ 2 ^ w) (x : BitVec w) :
    0 ≤ x.toInt.tmod n ↔ 2 * x.toNat < 2 ^ w ∨ n ∣ x.toNat := by
  rw [tmod_nonneg_iff, BitVec.toInt_pos_iff, dvd_toInt_iff hn]

end SignedRemainder
