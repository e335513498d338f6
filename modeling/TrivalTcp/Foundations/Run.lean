import Mathlib.Data.Nat.Notation
import Mathlib.Logic.Basic
import Mathlib.Tactic.Common

/-!
# Foundations/Run — calls that need not return, and runs made of them

A call into imperative code returns a value, waits for ever, ends the process, or does something
the language leaves undefined.  `Outcome` records which; only a returned value is carried on.  A
system is then a step function `σ → ε → Outcome σ`, and three things are said about its runs:

* `Reachable` — the states some run returns in, with the induction rule `Reachable.invariant`;
* `Along` — a property holds in every state of one run;
* `EveryStep` — a condition holds before every step of one run.

`along_iff_everyStep` is the bridge between the last two: where every step that meets the condition
keeps an invariant and every step that misses it visibly breaks the property, the property holds
along a run **exactly** when the condition does.
-/

universe u v

/-- How a call ends. -/
inductive Outcome (α : Type u) : Type u where
  /-- It returns. -/
  | ret (a : α)
  /-- It waits for something that does not come: a held lock, an endless loop. -/
  | blocked
  /-- It ends the process. -/
  | exit
  /-- It does something the language gives no meaning to. -/
  | undef
  deriving DecidableEq, Repr

namespace Outcome

variable {α β : Type u}

/-- Carry a returned value on; every other ending stands. -/
def bind : Outcome α → (α → Outcome β) → Outcome β
  | ret a, f => f a
  | blocked, _ => blocked
  | exit, _ => exit
  | undef, _ => undef

instance : Monad Outcome where
  pure := ret
  bind := bind

@[simp] theorem pure_eq_ret (a : α) : (pure a : Outcome α) = ret a := rfl

@[simp] theorem ret_bind (a : α) (f : α → Outcome β) : (ret a >>= f) = f a := rfl

@[simp] theorem blocked_bind (f : α → Outcome β) : ((blocked : Outcome α) >>= f) = blocked := rfl

@[simp] theorem exit_bind (f : α → Outcome β) : ((exit : Outcome α) >>= f) = exit := rfl

@[simp] theorem undef_bind (f : α → Outcome β) : ((undef : Outcome α) >>= f) = undef := rfl

/-- **A composite returns exactly when both its halves do.** -/
theorem bind_eq_ret {x : Outcome α} {f : α → Outcome β} {b : β} :
    (x >>= f) = ret b ↔ ∃ a, x = ret a ∧ f a = ret b := by
  cases x <;> simp

theorem ret_ne_undef (a : α) : ret a ≠ undef := by
  simp

theorem blocked_ne_undef : (blocked : Outcome α) ≠ undef := by
  simp

theorem bind_assoc {γ : Type u} (x : Outcome α) (f : α → Outcome β) (g : β → Outcome γ) :
    x >>= f >>= g = x >>= fun a => f a >>= g := by
  cases x <;> rfl

end Outcome

section Run

variable {σ : Type u} {ε : Type v} (step : σ → ε → Outcome σ)

/-- Take the listed steps one after another. -/
def run : σ → List ε → Outcome σ
  | s, [] => .ret s
  | s, e :: es => step s e >>= fun s' => run s' es

@[simp] theorem run_nil (s : σ) : run step s [] = .ret s := rfl

theorem run_cons (s : σ) (e : ε) (es : List ε) :
    run step s (e :: es) = step s e >>= fun s' => run step s' es := rfl

/-- The states some run from an initial state returns in. -/
inductive Reachable (init : σ → Prop) : σ → Prop where
  | init {s : σ} (h : init s) : Reachable init s
  | step {s s' : σ} (e : ε) (h : Reachable init s) (hs : step s e = .ret s') : Reachable init s'

variable {step}

/-- **The invariant rule.**  What holds initially and is kept by every returning step holds of
every reachable state. -/
theorem Reachable.invariant {init I : σ → Prop} {s : σ} (h : Reachable step init s)
    (h0 : ∀ s, init s → I s) (hstep : ∀ s e s', I s → step s e = .ret s' → I s') : I s := by
  induction h with
  | init h => exact h0 _ h
  | step e _ hs ih => exact hstep _ e _ ih hs

/-- Running on from a reachable state stays among the reachable ones. -/
theorem Reachable.after {init : σ → Prop} {s s' : σ} {es : List ε} (h : Reachable step init s)
    (hr : run step s es = .ret s') : Reachable step init s' := by
  induction es generalizing s with
  | nil =>
    obtain rfl : s = s' := by simpa using hr
    exact h
  | cons e es ih =>
    obtain ⟨t, ht, hr⟩ := Outcome.bind_eq_ret.mp hr
    exact ih (h.step e ht) hr

/-- **What every step of a run keeps** holds where the run ends. -/
theorem run_invariant {I : σ → Prop} {s s' : σ} {es : List ε}
    (hstep : ∀ e ∈ es, ∀ s s', I s → step s e = .ret s' → I s') (h : I s)
    (hr : run step s es = .ret s') : I s' := by
  induction es generalizing s with
  | nil =>
    obtain rfl : s = s' := by simpa using hr
    exact h
  | cons e es ih =>
    obtain ⟨t, ht, hr⟩ := Outcome.bind_eq_ret.mp hr
    have hI := hstep e List.mem_cons_self s t h ht
    exact ih (fun e he => hstep e (List.mem_cons_of_mem _ he)) hI hr

/-- **A run is no longer than a measure that every step of it makes smaller.** -/
theorem run_length_le_of {I : σ → Prop} {μ : σ → ℕ} {s s' : σ} {es : List ε}
    (hstep : ∀ e ∈ es, ∀ s s', I s → step s e = .ret s' → I s' ∧ μ s' < μ s) (h : I s)
    (hr : run step s es = .ret s') : es.length + μ s' ≤ μ s := by
  induction es generalizing s with
  | nil =>
    obtain rfl : s = s' := by simpa using hr
    simp
  | cons e es ih =>
    obtain ⟨t, ht, hr⟩ := Outcome.bind_eq_ret.mp hr
    obtain ⟨hI, hlt⟩ := hstep e List.mem_cons_self s t h ht
    have hle := ih (fun e he => hstep e (List.mem_cons_of_mem _ he)) hI hr
    rw [List.length_cons]
    omega

/-- The same where every step there is makes it smaller. -/
theorem run_length_le {I : σ → Prop} {μ : σ → ℕ}
    (hstep : ∀ s e s', I s → step s e = .ret s' → I s' ∧ μ s' < μ s) {s s' : σ} {es : List ε}
    (h : I s) (hr : run step s es = .ret s') : es.length + μ s' ≤ μ s :=
  run_length_le_of (fun e _ s s' => hstep s e s') h hr

variable (step)

/-- `P` holds in every state of the run, the first one included. -/
def Along (P : σ → Prop) : σ → List ε → Prop
  | s, [] => P s
  | s, e :: es => P s ∧ ∀ s', step s e = .ret s' → Along P s' es

/-- `Q` holds before every step of the run, of the state and the step about to be taken. -/
def EveryStep (Q : σ → ε → Prop) : σ → List ε → Prop
  | _, [] => True
  | s, e :: es => Q s e ∧ ∀ s', step s e = .ret s' → EveryStep Q s' es

/-- On a given run, a condition can be evaluated. -/
instance EveryStep.decidable (Q : σ → ε → Prop) [∀ s e, Decidable (Q s e)] :
    ∀ (s : σ) (es : List ε), Decidable (EveryStep step Q s es)
  | _, [] => isTrue trivial
  | s, e :: es =>
    match hs : step s e with
    | .ret s' =>
      have := EveryStep.decidable Q s' es
      decidable_of_iff (Q s e ∧ EveryStep step Q s' es) (by simp [EveryStep, hs])
    | .blocked | .exit | .undef => decidable_of_iff (Q s e) (by simp [EveryStep, hs])

variable {step}

theorem Along.head {P : σ → Prop} {s : σ} {es : List ε} (h : Along step P s es) : P s := by
  cases es with
  | nil => exact h
  | cons e es => exact h.1

/-- A property that holds along a returning run holds where it ends. -/
theorem Along.last {P : σ → Prop} {s s' : σ} {es : List ε} (h : Along step P s es)
    (hr : run step s es = .ret s') : P s' := by
  induction es generalizing s with
  | nil =>
    obtain rfl : s = s' := by simpa using hr
    exact h
  | cons e es ih =>
    obtain ⟨t, ht, hr⟩ := Outcome.bind_eq_ret.mp hr
    exact ih (h.2 t ht) hr

/-- **What every step that meets a condition keeps** holds where a run of such steps ends. -/
theorem EveryStep.invariant {I : σ → Prop} {Q : σ → ε → Prop}
    (good : ∀ s e s', I s → Q s e → step s e = .ret s' → I s') {s s' : σ} {es : List ε} (h : I s)
    (hQ : EveryStep step Q s es) (hr : run step s es = .ret s') : I s' := by
  induction es generalizing s with
  | nil =>
    obtain rfl : s = s' := by simpa using hr
    exact h
  | cons e es ih =>
    obtain ⟨t, ht, hr⟩ := Outcome.bind_eq_ret.mp hr
    exact ih (good s e t h hQ.1 ht) (hQ.2 t ht) hr

theorem EveryStep.mono {P Q : σ → ε → Prop} (hPQ : ∀ s e, P s e → Q s e) {s : σ} {es : List ε}
    (h : EveryStep step P s es) : EveryStep step Q s es := by
  induction es generalizing s with
  | nil => trivial
  | cons e es ih => exact ⟨hPQ s e h.1, fun s' hs => ih (h.2 s' hs)⟩

/-- What holds at every step of a run holds at the steps after its first part. -/
theorem EveryStep.after {Q : σ → ε → Prop} {s s' : σ} {es rest : List ε}
    (h : EveryStep step Q s (es ++ rest)) (hr : run step s es = .ret s') :
    EveryStep step Q s' rest := by
  induction es generalizing s with
  | nil =>
    obtain rfl : s = s' := by simpa using hr
    exact h
  | cons e es ih =>
    obtain ⟨t, ht, hr⟩ := Outcome.bind_eq_ret.mp hr
    exact ih (h.2 t ht) hr

/-- **A property holds along a run exactly when a condition holds at its steps** — provided the
steps that meet the condition keep an invariant implying the property, and a step that misses it
returns in a state where the property fails.  The runs may be restricted, here to steps in `R`. -/
theorem along_iff_everyStep_of {I P : σ → Prop} {R Q : σ → ε → Prop} (hP : ∀ s, I s → P s)
    (good : ∀ s e s', I s → R s e → Q s e → step s e = .ret s' → I s')
    (bad : ∀ s e, I s → R s e → ¬ Q s e → ∃ s', step s e = .ret s' ∧ ¬ P s') {s : σ} (h : I s)
    {es : List ε} (hR : EveryStep step R s es) : Along step P s es ↔ EveryStep step Q s es := by
  induction es generalizing s with
  | nil => exact ⟨fun _ => trivial, fun _ => hP s h⟩
  | cons e es ih =>
    constructor
    · rintro ⟨-, hrest⟩
      have hQ : Q s e := by
        by_contra hQ
        obtain ⟨s', hs, hn⟩ := bad s e h hR.1 hQ
        exact hn (hrest s' hs).head
      exact ⟨hQ, fun s' hs => (ih (good s e s' h hR.1 hQ hs) (hR.2 s' hs)).mp (hrest s' hs)⟩
    · rintro ⟨hQ, hrest⟩
      exact ⟨hP s h, fun s' hs => (ih (good s e s' h hR.1 hQ hs) (hR.2 s' hs)).mpr (hrest s' hs)⟩

/-- **Two conditions hold at every step of the same runs** — provided they say the same of every step
an invariant allows, and the steps that meet them keep the invariant. -/
theorem everyStep_iff_everyStep {I : σ → Prop} {P Q : σ → ε → Prop}
    (good : ∀ s e s', I s → Q s e → step s e = .ret s' → I s')
    (hPQ : ∀ s e, I s → (P s e ↔ Q s e)) {s : σ} (h : I s) (es : List ε) :
    EveryStep step P s es ↔ EveryStep step Q s es := by
  induction es generalizing s with
  | nil => exact Iff.rfl
  | cons e es ih =>
    rw [EveryStep, EveryStep, hPQ s e h]
    exact and_congr_right fun hQ => forall₂_congr fun s' hs => ih (good s e s' h hQ hs)

/-- The same where every step keeps the invariant. -/
theorem everyStep_congr {I : σ → Prop} {P Q : σ → ε → Prop}
    (hstep : ∀ s e s', I s → step s e = .ret s' → I s') (hPQ : ∀ s e, I s → (P s e ↔ Q s e)) {s : σ}
    (h : I s) (es : List ε) : EveryStep step P s es ↔ EveryStep step Q s es :=
  everyStep_iff_everyStep (fun s e s' hI _ => hstep s e s' hI) hPQ h es

/-- What holds at every step holds at every step of a run. -/
theorem everyStep_of_forall {Q : σ → ε → Prop} (h : ∀ s e, Q s e) (s : σ) (es : List ε) :
    EveryStep step Q s es := by
  induction es generalizing s with
  | nil => trivial
  | cons e es ih => exact ⟨h s e, fun s' _ => ih s'⟩

/-- The same for all runs. -/
theorem along_iff_everyStep {I P : σ → Prop} {Q : σ → ε → Prop} (hP : ∀ s, I s → P s)
    (good : ∀ s e s', I s → Q s e → step s e = .ret s' → I s')
    (bad : ∀ s e, I s → ¬ Q s e → ∃ s', step s e = .ret s' ∧ ¬ P s') {s : σ} (h : I s)
    (es : List ε) : Along step P s es ↔ EveryStep step Q s es :=
  along_iff_everyStep_of hP (fun s e s' hI _ => good s e s' hI)
    (fun s e hI _ => bad s e hI) h (everyStep_of_forall (fun _ _ => trivial) s es)

end Run
