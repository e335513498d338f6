import Mathlib.Logic.Function.Basic

/-!
# Foundations/LastEntry — tables without keys

A table that is only ever overwritten holds in each place what was written there last.  Kept as a
log of all writes, the newest first, it is read by `List.lookup`: a write to the table is an entry
in the log.
-/

universe u v

variable {κ : Type u} {α : Type v} [DecidableEq κ]

/-- What was written to `i` last. -/
def lastAt (log : List (κ × α)) (i : κ) : Option α := log.lookup i

/-- **Writing to a table is adding to its log.** -/
theorem lastAt_cons (i : κ) (a : α) (log : List (κ × α)) :
    lastAt ((i, a) :: log) = Function.update (lastAt log) i (some a) := by
  funext j
  rw [lastAt, List.lookup_cons]
  by_cases hji : j = i
  · rw [beq_iff_eq.mpr hji, hji, Function.update_self]
  · rw [beq_false_of_ne hji, Function.update_of_ne hji, lastAt]

/-- A table holds nothing that was not written. -/
theorem mem_of_lastAt {log : List (κ × α)} {i : κ} {a : α} (h : lastAt log i = some a) :
    (i, a) ∈ log := by
  obtain ⟨newer, older, hlog, -⟩ := List.lookup_eq_some_iff.mp h
  rw [hlog]
  exact List.mem_append_right newer List.mem_cons_self

/-- Where something was written, something was written last. -/
theorem exists_lastAt {log : List (κ × α)} {i : κ} {a : α} (h : (i, a) ∈ log) :
    ∃ b, lastAt log i = some b := by
  induction log with
  | nil => exact absurd h List.not_mem_nil
  | cons e log ih =>
    rw [lastAt_cons]
    by_cases hi : i = e.1
    · exact ⟨e.2, by rw [hi, Function.update_self]⟩
    · rw [Function.update_of_ne hi]
      refine ih ((List.mem_cons.mp h).resolve_left fun he => hi ?_)
      exact congrArg Prod.fst he
