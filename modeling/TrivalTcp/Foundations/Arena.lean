import TrivalTcp.Foundations.Bytes
import TrivalTcp.Foundations.Run

/-!
# Foundations/Arena — blocks that are allocated, moved and freed

An `Arena` is the memory behind one family of pointers.  A pointer is the number of a block, and 0
is `NULL`.  `malloc` numbers the blocks in order, `realloc` moves one, and the number of a block that
has been moved or freed is not used again: what holds on to it is **stale**, and to free, move or
look into a stale block is undefined.

`realloc` of nothing at all frees, as in the GNU library: it returns `NULL`.
-/

universe u

/-- The blocks of one family of pointers. -/
structure Arena (α : Type u) where
  /-- The number of the newest block. -/
  newest : ℕ
  block : ℕ → Block α
  live : ℕ → Bool

namespace Arena

/-- `NULL`. -/
def null : ℕ := 0

variable {α : Type u} (a : Arena α)

/-- A pointer to a block that is gone. -/
def Stale (b : ℕ) : Prop := b ≠ null ∧ a.live b = false

instance (b : ℕ) : Decidable (a.Stale b) := inferInstanceAs (Decidable (_ ∧ _))

/-- A new block that starts with what `old` holds. -/
def fill (old : Block α) (size : ℕ) : Arena α × ℕ :=
  (⟨a.newest + 1, Function.update a.block (a.newest + 1) ⟨size, old.cell⟩,
    Function.update a.live (a.newest + 1) true⟩, a.newest + 1)

/-- `malloc`. -/
def malloc [Inhabited α] (size : ℕ) : Arena α × ℕ := a.fill ⟨0, fun _ => default⟩ size

/-- `free`. -/
def free (b : ℕ) : Outcome (Arena α) :=
  if b = null then .ret a
  else if a.live b = false then .undef
  else .ret { a with live := Function.update a.live b false }

/-- `realloc`. -/
def realloc [Inhabited α] (b size : ℕ) : Outcome (Arena α × ℕ) :=
  if b = null then
    .ret (a.malloc size)
  else
    a.free b >>= fun freed => .ret (if size = 0 then (freed, null) else freed.fill (a.block b) size)

/-- Nothing has been allocated. -/
def empty [Inhabited α] : Arena α := ⟨null, fun _ => ⟨0, fun _ => default⟩, fun _ => false⟩

/-- The first `n` cells of a block. -/
def read (b n : ℕ) : List α := (a.block b).read 0 n

/-- `xs` is written to the beginning of a block. -/
def write (b : ℕ) (xs : List α) : Arena α :=
  { a with block := Function.update a.block b ((a.block b).write 0 xs) }

variable {a}

@[simp] theorem length_read (b n : ℕ) : (a.read b n).length = n := Block.length_read _ _ _

/-- **What has been written is read back.** -/
@[simp] theorem read_write (b : ℕ) (xs : List α) : (a.write b xs).read b xs.length = xs := by
  simp only [read, write, Function.update_self]
  exact Block.read_write _ _ _

/-- **`free` needs a block that is not stale**, and nothing else. -/
theorem free_cases (b : ℕ) :
    (a.Stale b ∧ a.free b = .undef) ∨ (¬ a.Stale b ∧ ∃ freed, a.free b = .ret freed) := by
  rw [free, Stale]
  by_cases hb : b = null
  · rw [if_pos hb]
    exact .inr ⟨fun hstale => hstale.1 hb, _, rfl⟩
  · rw [if_neg hb]
    cases hlive : a.live b with
    | false => exact .inl ⟨⟨hb, rfl⟩, rfl⟩
    | true => exact .inr ⟨fun hstale => Bool.noConfusion hstale.2, _, rfl⟩

/-- **`realloc` needs what `free` does.** -/
theorem realloc_cases [Inhabited α] (b size : ℕ) :
    (a.Stale b ∧ a.realloc b size = .undef) ∨ (¬ a.Stale b ∧ ∃ r, a.realloc b size = .ret r) := by
  rw [realloc]
  by_cases hb : b = null
  · rw [if_pos hb]
    exact .inr ⟨fun hstale => hstale.1 hb, _, rfl⟩
  · rw [if_neg hb]
    rcases a.free_cases b with ⟨hstale, hfree⟩ | ⟨hstale, freed, hfree⟩
    · rw [hfree]
      exact .inl ⟨hstale, rfl⟩
    · rw [hfree]
      exact .inr ⟨hstale, _, rfl⟩

end Arena
