import Mathlib.Algebra.Order.BigOperators.Group.Finset
import TrivalTcp.Foundations.Tally

/-!
# Foundations/CondVar — threads that sleep until there is something for them

A thread that finds nothing to do goes to sleep on a condition variable, and whoever leaves
something there wakes one.  The system may wake more threads than it was asked to, or wake one for
no reason, and another thread may come first: so a thread that has been woken looks again.

What must never happen is that something lies there and all that could take it are asleep.
`Served n` says it does not, of `n` things: nobody sleeps, or as many are about to look.  Each
operation has its rule, and together they say that a signal for each thing left is enough.
-/

universe u v

/-- **A condition variable**, as the program counters `L` of the threads that use it have it.  To
`rouse` a sleeping thread makes it look again; `looking` is where it does. -/
structure CondVar (L : Type v) where
  rouse : L → Option L
  looking : L → Prop
  decLooking : DecidablePred looking
  looking_of_rouse : ∀ {l l'}, rouse l = some l' → looking l'
  rouse_of_looking : ∀ {l}, looking l → rouse l = none

namespace CondVar

/-- A condition variable from where its threads are: who sleeps does not look, and looks once it is
woken. -/
def ofLooks {L : Type v} (rouse : L → Option L) (looks : L → Bool)
    (hlooks : ∀ l, (rouse l).all (fun l' => looks l' && !looks l) = true) : CondVar L where
  rouse := rouse
  looking l := looks l = true
  decLooking _ := inferInstance
  looking_of_rouse {l l'} h := by
    have hl := hlooks l
    rw [h] at hl
    exact (Bool.and_eq_true_iff.mp hl).1
  rouse_of_looking {l} h := by
    have hl := hlooks l
    cases hrouse : rouse l with
    | none => rfl
    | some l' =>
      rw [hrouse, h] at hl
      exact absurd (Bool.and_eq_true_iff.mp hl).2 Bool.false_ne_true

variable {ι : Type u} {L : Type v} (cv : CondVar L)

instance : DecidablePred cv.looking := cv.decLooking

/-- The thread sleeps. -/
def Asleep (l : L) : Prop := (cv.rouse l).isSome = true

instance (l : L) : Decidable (cv.Asleep l) := inferInstanceAs (Decidable (_ = true))

/-- Where a thread is once it is woken; who does not sleep is where it was. -/
def up (l : L) : L := (cv.rouse l).getD l

variable {cv}

theorem not_asleep_of_looking {l : L} (h : cv.looking l) : ¬ cv.Asleep l := by
  rw [Asleep, cv.rouse_of_looking h]
  exact Bool.false_ne_true

theorem looking_up {l : L} (h : cv.Asleep l) : cv.looking (cv.up l) := by
  obtain ⟨l', hl'⟩ := Option.isSome_iff_exists.mp h
  rw [up, hl']
  exact cv.looking_of_rouse hl'

theorem up_of_not_asleep {l : L} (h : ¬ cv.Asleep l) : cv.up l = l := by
  rw [up, Option.not_isSome_iff_eq_none.mp h]
  rfl

theorem not_asleep_up (l : L) : ¬ cv.Asleep (cv.up l) := by
  by_cases h : cv.Asleep l
  · exact not_asleep_of_looking (looking_up h)
  · rwa [up_of_not_asleep h]

/-! ## Waking -/

section Wake

variable [DecidableEq ι] (cv)

/-- The threads in `woken` are woken. -/
def wake (woken : Finset ι) (pc : ι → L) : ι → L := fun i => if i ∈ woken then cv.up (pc i) else pc i

/-- All threads are woken. -/
def wakeAll (pc : ι → L) : ι → L := fun i => cv.up (pc i)

/-- **What a signal may do**: wake sleeping threads, at least one if there is one. -/
def Signals (woken : Finset ι) (pc : ι → L) : Prop :=
  (∀ i ∈ woken, cv.Asleep (pc i)) ∧ ((∃ i, cv.Asleep (pc i)) → woken.Nonempty)

instance [Fintype ι] (woken : Finset ι) (pc : ι → L) : Decidable (cv.Signals woken pc) :=
  inferInstanceAs (Decidable (_ ∧ (_ → _)))

variable {cv} {woken : Finset ι} {pc : ι → L} {i : ι}

theorem wake_of_mem (h : i ∈ woken) : cv.wake woken pc i = cv.up (pc i) := if_pos h

theorem wake_of_notMem (h : i ∉ woken) : cv.wake woken pc i = pc i := if_neg h

/-- **What a waking may be**: a thread stays where it is, or it slept and looks again. -/
theorem wake_cases (cv : CondVar L) (woken : Finset ι) (pc : ι → L) (i : ι) :
    cv.wake woken pc i = pc i ∨ cv.Asleep (pc i) ∧ cv.wake woken pc i = cv.up (pc i) := by
  by_cases h : i ∈ woken
  · rw [wake_of_mem h]
    by_cases hsleep : cv.Asleep (pc i)
    · exact .inr ⟨hsleep, rfl⟩
    · exact .inl (up_of_not_asleep hsleep)
  · exact .inl (wake_of_notMem h)

/-- Who does not sleep is where it was, whoever is woken. -/
theorem wake_of_not_asleep (h : ¬ cv.Asleep (pc i)) : cv.wake woken pc i = pc i :=
  (cv.wake_cases woken pc i).resolve_right fun hsleep => h hsleep.1

@[simp] theorem wake_empty (cv : CondVar L) (pc : ι → L) : cv.wake ∅ pc = pc :=
  funext fun i => wake_of_notMem (Finset.notMem_empty i)

omit [DecidableEq ι] in
/-- Where nobody sleeps, a signal wakes nobody. -/
theorem signals_empty (h : ∀ i, ¬ cv.Asleep (pc i)) : cv.Signals ∅ pc :=
  ⟨fun _ hi => absurd hi (Finset.notMem_empty _), fun ⟨i, hi⟩ => absurd hi (h i)⟩

/-- To wake all is to wake each. -/
theorem wakeAll_eq (cv : CondVar L) [Fintype ι] (pc : ι → L) :
    cv.wakeAll pc = cv.wake Finset.univ pc :=
  funext fun i => (wake_of_mem (Finset.mem_univ i)).symm

/-- What waking changes for no thread, it does not count differently. -/
theorem tally_wake [Fintype ι] {p : L → Prop} [DecidablePred p]
    (hp : ∀ l, cv.Asleep l → (p (cv.up l) ↔ p l)) (woken : Finset ι) (pc : ι → L) :
    tally p (cv.wake woken pc) = tally p pc := by
  refine congrArg Finset.card (Finset.filter_congr fun i _ => ?_)
  rcases cv.wake_cases woken pc i with heq | ⟨hsleep, heq⟩
  · rw [heq]
  · rw [heq]
    exact hp _ hsleep

theorem total_wake [Fintype ι] {M : Type*} [AddCommMonoid M] {g : L → M}
    (hg : ∀ l, cv.Asleep l → g (cv.up l) = g l) (woken : Finset ι) (pc : ι → L) :
    total g (cv.wake woken pc) = total g pc := by
  refine Finset.sum_congr rfl fun i _ => ?_
  rcases cv.wake_cases woken pc i with heq | ⟨hsleep, heq⟩
  · rw [heq]
  · rw [heq]
    exact hg _ hsleep

/-- What a waking may cost. -/
theorem total_wake_le (cv : CondVar L) [Fintype ι] {g : L → ℕ} {c : ℕ}
    (hg : ∀ l, cv.Asleep l → g (cv.up l) ≤ g l + c) (woken : Finset ι) (pc : ι → L) :
    total g (cv.wake woken pc) ≤ total g pc + Fintype.card ι * c := by
  have hsum : total g (cv.wake woken pc) ≤ ∑ i, (g (pc i) + c) := by
    refine Finset.sum_le_sum fun i _ => ?_
    rcases cv.wake_cases woken pc i with heq | ⟨hsleep, heq⟩
    · rw [heq]
      exact Nat.le_add_right _ _
    · rw [heq]
      exact hg _ hsleep
  rwa [Finset.sum_add_distrib, Finset.sum_const, Finset.card_univ, Nat.nsmul_eq_mul] at hsum

omit [DecidableEq ι] in
/-- There is always somebody to wake, or nobody to be woken. -/
theorem exists_signals (cv : CondVar L) [Fintype ι] (pc : ι → L) : ∃ woken, cv.Signals woken pc := by
  refine ⟨Finset.univ.filter fun i => cv.Asleep (pc i), fun i hi => ?_, fun ⟨i, hi⟩ => ⟨i, ?_⟩⟩
  · exact (Finset.mem_filter.mp hi).2
  · exact Finset.mem_filter.mpr ⟨Finset.mem_univ i, hi⟩

end Wake

/-! ## Nothing is left lying -/

section Served

variable [Fintype ι] (cv)

/-- **`n` things are seen to**: nobody sleeps, or `n` threads are about to look. -/
def Served (n : ℕ) (pc : ι → L) : Prop := (∀ i, ¬ cv.Asleep (pc i)) ∨ n ≤ tally cv.looking pc

variable {cv} {n m : ℕ} {pc : ι → L} {i : ι} {l : L}

theorem served_zero (pc : ι → L) : cv.Served 0 pc := .inr (Nat.zero_le _)

theorem Served.mono (h : cv.Served n pc) (hle : m ≤ n) : cv.Served m pc :=
  h.imp_right hle.trans

/-- **Nobody has fallen asleep, and nobody has stopped looking.** -/
theorem Served.of_forall {pc' : ι → L} (h : cv.Served n pc)
    (hsleep : ∀ i, cv.Asleep (pc' i) → cv.Asleep (pc i))
    (hlook : ∀ i, cv.looking (pc i) → cv.looking (pc' i)) : cv.Served n pc' :=
  h.imp (fun hnone i hi => hnone i (hsleep i hi)) fun hle => hle.trans (tally_mono hlook)

/-- **Who sleeps, sleeps while another looks.** -/
theorem Served.exists_looking (h : cv.Served n pc) (hn : 0 < n) (hi : cv.Asleep (pc i)) :
    ∃ j, cv.looking (pc j) := by
  rcases h with hnone | hle
  · exact absurd hi (hnone i)
  · by_contra hno
    have hzero : tally cv.looking pc = 0 := tally_eq_zero.mpr fun j hj => hno ⟨j, hj⟩
    omega

/-- Where any number of things would be seen to, nobody sleeps. -/
theorem not_asleep_of_served (h : ∀ n, cv.Served n pc) (i : ι) : ¬ cv.Asleep (pc i) := by
  rcases h (Fintype.card ι + 1) with hnone | hle
  · exact hnone i
  · exact absurd (hle.trans (Finset.card_le_univ _)) (Nat.not_succ_le_self _)

/-- **A broadcast** leaves nobody asleep. -/
theorem served_wakeAll (n : ℕ) (pc : ι → L) : cv.Served n (cv.wakeAll pc) :=
  .inl fun i => not_asleep_up (pc i)

variable [DecidableEq ι]

/-- **One thing more, and a signal.** -/
theorem Served.signal {woken : Finset ι} (h : cv.Served n pc) (hs : cv.Signals woken pc) :
    cv.Served (n + 1) (cv.wake woken pc) := by
  by_cases hsleep : ∃ i, cv.Asleep (pc i)
  · obtain ⟨i, hi⟩ := hs.2 hsleep
    have hasleep := hs.1 i hi
    have hle : n ≤ tally cv.looking pc := h.resolve_left fun hnone => hnone i hasleep
    have hmono : tally cv.looking (Function.update pc i (cv.up (pc i)))
        ≤ tally cv.looking (cv.wake woken pc) := by
      refine tally_mono fun j hj => ?_
      by_cases hji : j = i
      · rw [hji, wake_of_mem hi]
        exact looking_up hasleep
      · rw [Function.update_of_ne hji] at hj
        rw [(cv.wake_cases woken pc j).resolve_right fun hw => not_asleep_of_looking hj hw.1]
        exact hj
    rw [tally_update_enter (fun hl => not_asleep_of_looking hl hasleep) (looking_up hasleep)]
      at hmono
    exact .inr (by omega)
  · refine .inl fun i => ?_
    rcases cv.wake_cases woken pc i with heq | ⟨hi, -⟩
    · rw [heq]
      exact fun hi => hsleep ⟨i, hi⟩
    · exact absurd ⟨i, hi⟩ hsleep

/-- A thread that does not fall asleep goes on, and does not stop looking. -/
theorem Served.update (h : cv.Served n pc) (hsleep : cv.Asleep l → cv.Asleep (pc i))
    (hlook : cv.looking (pc i) → cv.looking l) : cv.Served n (Function.update pc i l) := by
  refine h.of_forall (fun j hj => ?_) fun j hj => ?_
  · by_cases hji : j = i
    · rw [hji, Function.update_self] at hj
      exact hji ▸ hsleep hj
    · rwa [Function.update_of_ne hji] at hj
  · by_cases hji : j = i
    · rw [hji, Function.update_self]
      exact hlook (hji ▸ hj)
    · rwa [Function.update_of_ne hji]

/-- **A waking of those who sleep on another variable** does no harm, as long as it neither puts a
thread to sleep nor takes it from where it looks. -/
theorem Served.wake_other {cv' : CondVar L} (h : cv.Served n pc)
    (hsleep : ∀ l, cv'.Asleep l → cv.Asleep (cv'.up l) → cv.Asleep l)
    (hlook : ∀ l, cv'.Asleep l → cv.looking l → cv.looking (cv'.up l)) (woken : Finset ι) :
    cv.Served n (cv'.wake woken pc) := by
  refine h.of_forall (fun i hi => ?_) fun i hi => ?_
  · rcases cv'.wake_cases woken pc i with heq | ⟨hi', heq⟩
    · rwa [heq] at hi
    · exact hsleep _ hi' (heq ▸ hi)
  · rcases cv'.wake_cases woken pc i with heq | ⟨hi', heq⟩
    · rwa [heq]
    · exact heq ▸ hlook _ hi' hi

/-- **A waking for no reason** does no harm. -/
theorem Served.wake (h : cv.Served n pc) (woken : Finset ι) : cv.Served n (cv.wake woken pc) :=
  h.wake_other (fun l _ hl => absurd hl (not_asleep_up l))
    (fun _ hl hlook => absurd hl (not_asleep_of_looking hlook)) woken

/-- **A thread takes one thing**, one that was about to look or another that comes first. -/
theorem Served.take (h : cv.Served (n + 1) pc) (hsleep : ¬ cv.Asleep l) :
    cv.Served n (Function.update pc i l) := by
  rcases h with hnone | hle
  · refine .inl fun j => ?_
    by_cases hji : j = i
    · rwa [hji, Function.update_self]
    · rw [Function.update_of_ne hji]
      exact hnone j
  · exact .inr (Nat.le_of_succ_le_succ (hle.trans (tally_le_update pc i l)))

end Served

end CondVar
