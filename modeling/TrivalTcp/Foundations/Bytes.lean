import Mathlib.Data.List.Basic
import Mathlib.Data.List.Induction
import Mathlib.Tactic.Common
import Mathlib.Tactic.Ring

/-!
# Foundations/Bytes — big-endian numerals, slices of buffers, blocks of memory

Three small theories that byte-level code rests on.

* `Bytes.ofNat n v` writes `v` in `n` bytes, most significant first; `Bytes.toNat` reads it back.
  The two are inverse up to truncation (`toNat_ofNat`, `ofNat_toNat`).
* `Bytes.sub msg off n` is the slice a `memcpy` out of a buffer reads, `Bytes.overwrite dst off src`
  the buffer a `memcpy` into it leaves, and `Bytes.zeroFrom l k` a buffer of which only the first `k`
  bytes have been written.
* A `Block` is an allocated piece of memory of which only a prefix need have been written.
  `Block.Holds` says which prefix, `holds_write` extends it, `read_of_holds` reads out of it.
-/

namespace Bytes

/-! ## Big-endian numerals -/

/-- `v` in `n` bytes, most significant first; higher digits are cut off. -/
def ofNat : ℕ → ℕ → List UInt8
  | 0, _ => []
  | n + 1, v => ofNat n (v / 256) ++ [UInt8.ofNat v]

/-- The number a list of bytes spells, most significant first. -/
def toNat (l : List UInt8) : ℕ := l.foldl (fun acc b => acc * 256 + b.toNat) 0

@[simp] theorem length_ofNat (n v : ℕ) : (ofNat n v).length = n := by
  induction n generalizing v with
  | zero => rfl
  | succ n ih => simp [ofNat, ih]

@[simp] theorem toNat_nil : toNat [] = 0 := rfl

theorem toNat_concat (l : List UInt8) (b : UInt8) : toNat (l ++ [b]) = toNat l * 256 + b.toNat := by
  simp [toNat]

/-- **Reading back what was written**, up to the digits that did not fit. -/
theorem toNat_ofNat (n v : ℕ) : toNat (ofNat n v) = v % 256 ^ n := by
  induction n generalizing v with
  | zero => simp [ofNat, Nat.mod_one]
  | succ n ih =>
    have hb : (UInt8.ofNat v).toNat = v % 256 := by simp
    rw [ofNat, toNat_concat, ih, hb, Nat.pow_succ, Nat.mul_comm (256 ^ n) 256, Nat.mod_mul]
    ring

theorem toNat_lt (l : List UInt8) : toNat l < 256 ^ l.length := by
  induction l using List.reverseRecOn with
  | nil => simp
  | append_singleton l b ih =>
    rw [toNat_concat, List.length_append, List.length_singleton, Nat.pow_succ]
    have := b.toNat_lt
    omega

/-- **Writing back what was read.** -/
theorem ofNat_toNat (l : List UInt8) : ofNat l.length (toNat l) = l := by
  induction l using List.reverseRecOn with
  | nil => rfl
  | append_singleton l b ih =>
    have hb := b.toNat_lt
    have hdiv : (toNat l * 256 + b.toNat) / 256 = toNat l := by omega
    have hmod : UInt8.ofNat (toNat l * 256 + b.toNat) = b := by
      apply UInt8.toNat_inj.mp
      rw [UInt8.toNat_ofNat']
      omega
    rw [toNat_concat, List.length_append, List.length_singleton, ofNat, hdiv, ih, hmod]

/-- Numerals of one length are determined by their value. -/
theorem toNat_inj {l m : List UInt8} (h : l.length = m.length) : toNat l = toNat m ↔ l = m := by
  refine ⟨fun hv => ?_, fun hl => hl ▸ rfl⟩
  rw [← ofNat_toNat l, ← ofNat_toNat m, hv, h]

/-! ## Slices -/

/-- The `n` bytes of `msg` from offset `off`. -/
def sub (msg : List UInt8) (off n : ℕ) : List UInt8 := (msg.drop off).take n

/-- A slice that starts past a prefix is a slice of the rest. -/
theorem sub_append_right {a b : List UInt8} {off n : ℕ} (h : a.length ≤ off) :
    sub (a ++ b) off n = sub b (off - a.length) n := by
  rw [sub, List.drop_append, List.drop_eq_nil_of_le h, List.nil_append, sub]

/-- A slice that covers exactly a prefix is that prefix. -/
theorem sub_append_left {a b : List UInt8} {n : ℕ} (h : a.length = n) : sub (a ++ b) 0 n = a := by
  subst h
  simp [sub]

theorem length_sub {msg : List UInt8} {off n : ℕ} (h : off + n ≤ msg.length) :
    (sub msg off n).length = n := by
  simp only [sub, List.length_take, List.length_drop]
  omega

/-- A slice spells a number of its own length. -/
theorem toNat_sub_lt {msg : List UInt8} {off n : ℕ} (h : off + n ≤ msg.length) :
    toNat (sub msg off n) < 256 ^ n := by
  have hlt := toNat_lt (sub msg off n)
  rwa [length_sub h] at hlt

/-- Writing back what was read from a slice. -/
theorem ofNat_toNat_sub {msg : List UInt8} {off n : ℕ} (h : off + n ≤ msg.length) :
    ofNat n (toNat (sub msg off n)) = sub msg off n := by
  have hback := ofNat_toNat (sub msg off n)
  rwa [length_sub h] at hback

/-- Changing a byte outside a slice leaves the slice alone. -/
theorem sub_set_outside {msg : List UInt8} {off n i : ℕ} (b : UInt8) (h : i < off ∨ off + n ≤ i) :
    sub (msg.set i b) off n = sub msg off n := by
  refine List.ext_getElem? fun j => ?_
  rw [sub, sub]
  by_cases hj : j < n
  · rw [List.getElem?_take_of_lt hj, List.getElem?_take_of_lt hj, List.getElem?_drop,
      List.getElem?_drop, List.getElem?_set_ne (by omega)]
  · rw [List.getElem?_eq_none (by simp; omega), List.getElem?_eq_none (by simp; omega)]

/-- Changing a byte of a buffer changes that byte of the slice it lies in. -/
theorem sub_set_inside {msg : List UInt8} {off n i : ℕ} (b : UInt8) (h : off ≤ i) :
    sub (msg.set i b) off n = (sub msg off n).set (i - off) b := by
  obtain ⟨j, rfl⟩ := Nat.exists_eq_add_of_le h
  rw [sub, sub, List.drop_set, if_neg (by omega), Nat.add_sub_cancel_left, List.take_set]

/-- A longer slice is two shorter ones in a row. -/
theorem sub_add (msg : List UInt8) (off m n : ℕ) :
    sub msg off (m + n) = sub msg off m ++ sub msg (off + m) n := by
  rw [sub, sub, sub, List.take_add, List.drop_drop]

theorem toNat_append (l m : List UInt8) : toNat (l ++ m) = toNat l * 256 ^ m.length + toNat m := by
  induction m using List.reverseRecOn with
  | nil => simp
  | append_singleton m b ih =>
    rw [← List.append_assoc, toNat_concat, toNat_concat, ih, List.length_append,
      List.length_singleton, Nat.pow_succ]
    ring

/-- `dst` after `src` has been copied over it at offset `off`. -/
def overwrite (dst : List UInt8) (off : ℕ) (src : List UInt8) : List UInt8 :=
  dst.take off ++ (src ++ dst.drop (off + src.length))

/-- Copying over exactly the tail of a buffer replaces that tail. -/
theorem overwrite_tail {a b src : List UInt8} (h : src.length = b.length) :
    overwrite (a ++ b) a.length src = a ++ src := by
  simp [overwrite, h]

/-- What is copied up to the end of a buffer stands behind what the buffer starts with. -/
theorem overwrite_to_end {dst src : List UInt8} {off : ℕ} (h : dst.length ≤ off + src.length) :
    overwrite dst off src = dst.take off ++ src := by
  rw [overwrite, List.drop_eq_nil_of_le h, List.append_nil]

/-! ## Zeroed buffers -/

/-- `l` with zeros from offset `k` on. -/
def zeroFrom (l : List UInt8) (k : ℕ) : List UInt8 := l.take k ++ List.replicate (l.length - k) 0

@[simp] theorem length_zeroFrom (l : List UInt8) (k : ℕ) : (zeroFrom l k).length = l.length := by
  rw [zeroFrom, List.length_append, List.length_take, List.length_replicate]
  omega

theorem getElem_zeroFrom {l : List UInt8} {k i : ℕ} (hi : i < (zeroFrom l k).length)
    (hl : i < l.length) : (zeroFrom l k)[i] = if i < k then l[i] else 0 := by
  by_cases hk : i < k
  · have htake : i < (l.take k).length := by
      rw [List.length_take]
      omega
    simp only [zeroFrom, List.getElem_append_left htake, List.getElem_take, if_pos hk]
  · have htake : (l.take k).length ≤ i := by
      rw [List.length_take]
      omega
    simp only [zeroFrom, List.getElem_append_right htake, List.getElem_replicate, if_neg hk]

/-- **Zeros cannot be told from the buffer** exactly where the buffer has zeros. -/
theorem take_zeroFrom_eq_iff (l : List UInt8) (k n : ℕ) : (zeroFrom l k).take n = l.take n ↔
    ∀ i (hi : i < l.length), k ≤ i → i < n → l[i] = 0 := by
  have hlength : ((zeroFrom l k).take n).length = (l.take n).length := by
    rw [List.length_take, List.length_take, length_zeroFrom]
  rw [List.ext_getElem_iff, and_iff_right hlength]
  constructor
  · intro h i hi hk hn
    have htake : i < (l.take n).length := by
      rw [List.length_take]
      omega
    have hbyte := h i (hlength ▸ htake) htake
    rw [List.getElem_take, List.getElem_take, getElem_zeroFrom _ hi, if_neg hk.not_gt] at hbyte
    exact hbyte.symm
  · intro h i hzero htake
    have hmin := htake
    rw [List.length_take] at hmin
    rw [List.getElem_take, List.getElem_take, getElem_zeroFrom _ (by omega)]
    by_cases hk : i < k
    · rw [if_pos hk]
    · rw [if_neg hk, h i (by omega) (Nat.not_lt.mp hk) (by omega)]

end Bytes

/-! ## Blocks of memory -/

/-- An allocated block: its size, and what stands at each offset. -/
structure Block (α : Type*) where
  /-- The number of cells allocated. -/
  size : ℕ
  /-- The content of each cell. -/
  cell : ℕ → α
  deriving Inhabited

namespace Block

variable {α : Type*}

/-- The `n` cells from offset `off`. -/
def read (b : Block α) (off n : ℕ) : List α := (List.range n).map fun i => b.cell (off + i)

/-- `b` after `xs` has been copied into it at offset `off`. -/
def write (b : Block α) (off : ℕ) (xs : List α) : Block α where
  size := b.size
  cell i := if off ≤ i then (xs[i - off]?).getD (b.cell i) else b.cell i

@[simp] theorem size_write (b : Block α) (off : ℕ) (xs : List α) : (b.write off xs).size = b.size :=
  rfl

@[simp] theorem length_read (b : Block α) (off n : ℕ) : (b.read off n).length = n := by
  simp [read]

/-- **What has been copied is read back.** -/
theorem read_write (b : Block α) (off : ℕ) (xs : List α) :
    (b.write off xs).read off xs.length = xs := by
  refine List.ext_getElem (length_read _ _ _) fun i h1 h2 => ?_
  simp [read, write, List.getElem?_eq_getElem h2]

/-- The block starts with `xs`. -/
def Holds (b : Block α) (xs : List α) : Prop := ∀ i (h : i < xs.length), b.cell i = xs[i]

theorem holds_nil (b : Block α) : b.Holds [] := fun i h => absurd h (Nat.not_lt_zero i)

/-- **Copying right behind what a block starts with extends it.** -/
theorem holds_write {b : Block α} {xs : List α} (h : b.Holds xs) (ys : List α) :
    (b.write xs.length ys).Holds (xs ++ ys) := by
  intro i hi
  rw [List.length_append] at hi
  by_cases hlt : i < xs.length
  · simp [write, Nat.not_le.mpr hlt, h i hlt, List.getElem_append_left hlt]
  · have hle : xs.length ≤ i := Nat.not_lt.mp hlt
    have hy : i - xs.length < ys.length := by omega
    simp [write, hle, List.getElem_append_right hle, List.getElem?_eq_getElem hy]

/-- **Reading inside what a block starts with** reads a slice of it. -/
theorem read_of_holds {b : Block α} {xs : List α} (h : b.Holds xs) {off n : ℕ}
    (hle : off + n ≤ xs.length) : b.read off n = (xs.drop off).take n := by
  refine List.ext_getElem (by simp; omega) fun i h1 h2 => ?_
  have hi : i < n := by simpa using h1
  have hx := h (off + i) (by omega)
  simpa [read] using hx

end Block
