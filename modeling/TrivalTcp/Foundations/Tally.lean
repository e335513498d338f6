import Mathlib.Algebra.BigOperators.Group.Finset.Piecewise
import Mathlib.Data.Fintype.Card

/-!
# Foundations/Tally — how many places of a table hold a value of a kind

Where something is used up only when a place comes to hold a value of a kind, the number of such
places bounds the use — and as long as one place holds another value, the bound is below the size of
the table.  `total` adds up what the places are worth, which need not be a number.
-/

universe u v

variable {ι : Type u} {α : Type v} [Fintype ι] {p : α → Prop} [DecidablePred p] {f : ι → α} {i : ι}

/-- The number of places that hold a value of the kind `p`. -/
def tally (p : α → Prop) [DecidablePred p] (f : ι → α) : ℕ :=
  (Finset.univ.filter fun i => p (f i)).card

/-- **One place is still free.** -/
theorem tally_lt (h : ¬ p (f i)) : tally p f < Fintype.card ι := by
  rw [tally, ← Finset.card_univ]
  refine Finset.card_lt_card (Finset.filter_ssubset.mpr ⟨i, Finset.mem_univ i, h⟩)

theorem tally_mono {g : ι → α} (h : ∀ i, p (f i) → p (g i)) : tally p f ≤ tally p g :=
  Finset.card_le_card (Finset.monotone_filter_right _ fun i _ => h i)

theorem tally_eq_zero : tally p f = 0 ↔ ∀ i, ¬ p (f i) := by
  rw [tally, Finset.card_eq_zero, Finset.filter_eq_empty_iff]
  exact forall_congr' fun i => by simp

/-- **Two places of a kind that has one** are the same. -/
theorem tally_le_one (h : tally p f ≤ 1) {j : ι} (hi : p (f i)) (hj : p (f j)) : i = j :=
  Finset.card_le_one.mp h i (Finset.mem_filter.mpr ⟨Finset.mem_univ i, hi⟩) j
    (Finset.mem_filter.mpr ⟨Finset.mem_univ j, hj⟩)

/-- A kind somebody is of is not empty. -/
theorem tally_pos (hi : p (f i)) :
    0 < tally p f :=
  Finset.card_pos.mpr ⟨i, Finset.mem_filter.mpr ⟨Finset.mem_univ i, hi⟩⟩

/-- What all places are worth together. -/
def total {M : Type*} [AddCommMonoid M] (g : α → M) (f : ι → α) : M := ∑ i, g (f i)

variable [DecidableEq ι] {a : α}

/-- **A place enters the kind.** -/
theorem tally_update_enter (h : ¬ p (f i)) (ha : p a) :
    tally p (Function.update f i a) = tally p f + 1 := by
  have hset : (Finset.univ.filter fun j => p (Function.update f i a j))
      = insert i (Finset.univ.filter fun j => p (f j)) := by
    ext j
    rw [Finset.mem_insert, Finset.mem_filter, Finset.mem_filter]
    by_cases hj : j = i
    · rw [hj, Function.update_self]
      simp [ha]
    · rw [Function.update_of_ne hj]
      simp [hj]
  rw [tally, hset, Finset.card_insert_of_notMem (by simp [h]), tally]

/-- A place that changes neither enters nor leaves. -/
theorem tally_update_same (h : p a ↔ p (f i)) : tally p (Function.update f i a) = tally p f := by
  refine congrArg Finset.card (Finset.filter_congr fun j _ => ?_)
  by_cases hj : j = i
  · rw [hj, Function.update_self]
    exact h
  · rw [Function.update_of_ne hj]

/-- **A place leaves the kind.** -/
theorem tally_update_leave (h : p (f i)) (ha : ¬ p a) :
    tally p (Function.update f i a) + 1 = tally p f := by
  have henter := tally_update_enter (f := Function.update f i a) (i := i) (a := f i)
    (by rwa [Function.update_self]) h
  rw [Function.update_idem, Function.update_eq_self] at henter
  exact henter.symm

/-- What one place counts before and after. -/
theorem tally_update (f : ι → α) (i : ι) (a : α) :
    tally p (Function.update f i a) + (if p (f i) then 1 else 0) =
      tally p f + if p a then 1 else 0 := by
  by_cases h : p (f i)
  · by_cases ha : p a
    · rw [tally_update_same (iff_of_true ha h), if_pos h, if_pos ha]
    · rw [if_pos h, if_neg ha, tally_update_leave h ha, add_zero]
  · by_cases ha : p a
    · rw [if_neg h, if_pos ha, tally_update_enter h ha, add_zero]
    · rw [tally_update_same (iff_of_false ha h), if_neg h, if_neg ha]

/-- The same of a kind that is computed. -/
theorem tally_update_toNat (p : α → Bool) (f : ι → α) (i : ι) (a : α) :
    tally (p · = true) (Function.update f i a) + (p (f i)).toNat =
      tally (p · = true) f + (p a).toNat := by
  have hite : ∀ b : Bool, (if b = true then 1 else 0) = b.toNat := Bool.rec rfl rfl
  have hupdate := tally_update (p := (p · = true)) f i a
  rwa [hite, hite] at hupdate

/-- One place is worth one. -/
theorem tally_le_update (f : ι → α) (i : ι) (a : α) :
    tally p f ≤ tally p (Function.update f i a) + 1 := by
  by_cases h : p (f i)
  · by_cases ha : p a
    · rw [tally_update_same (iff_of_true ha h)]
      exact Nat.le_succ _
    · exact (tally_update_leave h ha).ge
  · by_cases ha : p a
    · rw [tally_update_enter h ha]
      omega
    · rw [tally_update_same (iff_of_false ha h)]
      exact Nat.le_succ _

/-- **What one place loses and gains.** -/
theorem total_update {M : Type*} [AddCommMonoid M] (g : α → M) (f : ι → α) (i : ι) (a : α) :
    total g (Function.update f i a) + g (f i) = total g f + g a := by
  have hafter : total g (Function.update f i a) = g a + ∑ j ∈ Finset.univ \ {i}, g (f j) := by
    have hcomp : (fun j => g (Function.update f i a j)) =
        Function.update (fun j => g (f j)) i (g a) := by
      ext j
      rw [Function.apply_update (fun _ => g)]
    rw [total, hcomp, Finset.sum_update_of_mem (Finset.mem_univ i)]
  have hbefore : total g f = g (f i) + ∑ j ∈ Finset.univ \ {i}, g (f j) := by
    rw [Finset.sdiff_singleton_eq_erase]
    exact (Finset.add_sum_erase _ (fun j => g (f j)) (Finset.mem_univ i)).symm
  rw [hafter, hbefore, add_right_comm, add_comm (g a), add_right_comm]
