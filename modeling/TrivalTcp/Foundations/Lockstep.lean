import TrivalTcp.Foundations.Run

/-!
# Foundations/Lockstep — two runs that cannot be told apart

`Outcome.Rel R` holds of two outcomes that end in the same way, with values related by `R` if they
are values.  Two systems whose single steps keep states related take the same runs
(`run_rel_filterMap`), also where the first has steps of its own that the second does not see.  A
system that is defined less often (`guarded`) takes the same runs as long as they are defined.
-/

universe u v w

namespace Outcome

variable {α β : Type u}

/-- **Two outcomes that end in the same way.** -/
inductive Rel (R : α → β → Prop) : Outcome α → Outcome β → Prop where
  | ret {a : α} {b : β} (h : R a b) : Rel R (.ret a) (.ret b)
  | blocked : Rel R .blocked .blocked
  | exit : Rel R .exit .exit
  | undef : Rel R .undef .undef

variable {R : α → β → Prop}

@[simp] theorem rel_ret {a : α} {b : β} : Rel R (.ret a) (.ret b) ↔ R a b :=
  ⟨fun h => by cases h; assumption, .ret⟩

/-- **The same carried on.** -/
theorem Rel.bind {γ δ : Type u} {S : γ → δ → Prop} {x : Outcome α} {y : Outcome β}
    {f : α → Outcome γ} {g : β → Outcome δ} (h : Rel R x y)
    (hfg : ∀ a b, R a b → Rel S (f a) (g b)) : Rel S (x >>= f) (y >>= g) := by
  cases h with
  | ret h => exact hfg _ _ h
  | blocked => exact .blocked
  | undef => exact .undef
  | exit => exact .exit

/-- What one returns, the other returns. -/
theorem Rel.of_ret {x : Outcome α} {b : β} (h : Rel R x (.ret b)) : ∃ a, x = .ret a ∧ R a b := by
  cases h with
  | ret h => exact ⟨_, rfl, h⟩

end Outcome

section Lockstep

variable {σ τ : Type u} {ε : Type v} {δ : Type w}
variable {step : σ → ε → Outcome σ} {step' : τ → δ → Outcome τ}

/-- **Runs in lockstep.**  If the steps the second system sees keep states related, and so do those it
does not see while it stands still, then a run and what the second system sees of it end alike. -/
theorem run_rel_filterMap {R : σ → τ → Prop} {seen : ε → Option δ}
    (hseen : ∀ s t e d, R s t → seen e = some d → Outcome.Rel R (step s e) (step' t d))
    (hunseen : ∀ s t e, R s t → seen e = none → ∃ s', step s e = .ret s' ∧ R s' t)
    {s : σ} {t : τ} (h : R s t) (es : List ε) :
    Outcome.Rel R (run step s es) (run step' t (es.filterMap seen)) := by
  induction es generalizing s t with
  | nil => exact .ret h
  | cons e es ih =>
    rw [run_cons]
    cases hd : seen e with
    | none =>
      obtain ⟨s', hs', h'⟩ := hunseen s t e h hd
      rw [List.filterMap_cons_none hd, hs']
      exact ih h'
    | some d =>
      rw [List.filterMap_cons_some hd, run_cons]
      exact (hseen s t e d h hd).bind fun s' t' h' => ih h'

/-- A step that is undefined where `Q` does not hold. -/
def guarded (Q : σ → ε → Prop) [∀ s e, Decidable (Q s e)] (step : σ → ε → Outcome σ) (s : σ)
    (e : ε) : Outcome σ :=
  if ¬ Q s e then .undef else step s e

/-- **A run that keeps to what is defined** is a run of the system that is defined everywhere. -/
theorem run_guarded {Q : σ → ε → Prop} [∀ s e, Decidable (Q s e)] {s : σ} {es : List ε}
    (h : EveryStep (guarded Q step) Q s es) : run (guarded Q step) s es = run step s es := by
  induction es generalizing s with
  | nil => rfl
  | cons e es ih =>
    obtain ⟨hQ, hrest⟩ := h
    have hstep : guarded Q step s e = step s e := if_neg (not_not.mpr hQ)
    rw [run_cons, run_cons, ← hstep]
    cases hs : guarded Q step s e with
    | ret s' => exact ih (hrest s' hs)
    | blocked | exit | undef => rfl

end Lockstep
