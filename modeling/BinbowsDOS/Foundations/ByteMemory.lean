import Mathlib.Data.Nat.Basic
import Mathlib.Tactic.Common
import Mathlib.Data.UInt

/-!
# Byte memory

A byte-addressed memory with one writing primitive, `blit`: put `n` given bytes at an
address. A fill, a little-endian store and a block transfer from a device are all blits, so
one pair of lemmas (`blit_apply_of_mem`, `blit_apply_of_not_mem`) is the whole frame theory.

Reads are little-endian numerals of any width (`loadLE`). Two memories, or two places of one
memory, are compared by `AgreeOn`, the relation under which every read of a range is
determined (`loadLE_congr`) and which every blit of equal bytes preserves (`AgreeOn.blit`).

Nothing here knows about allocators or devices: addresses are plain natural numbers, and a
bound on the address space is the user's business.
-/

/-- A byte-addressed memory. -/
abbrev ByteMem := ℕ → UInt8

namespace ByteMem

/-- Put the `n` bytes `f 0, …, f (n - 1)` at address `a`. -/
def blit (m : ByteMem) (a n : ℕ) (f : ℕ → UInt8) : ByteMem := fun x ↦
  if a ≤ x ∧ x < a + n then f (x - a) else m x

/-- Write one byte. -/
def store8 (m : ByteMem) (a : ℕ) (v : UInt8) : ByteMem := m.blit a 1 fun _ ↦ v

/-- Fill `n` bytes from `a` with one value. -/
def fill (m : ByteMem) (a n : ℕ) (v : UInt8) : ByteMem := m.blit a n fun _ ↦ v

/-- Write the low `w` bytes of `v` at `a`, least significant byte first. -/
def storeLE (m : ByteMem) (a w v : ℕ) : ByteMem :=
  m.blit a w fun i ↦ UInt8.ofNat (v / 256 ^ i)

/-- Read `w` bytes at `a`, least significant byte first. -/
def loadLE (m : ByteMem) (a : ℕ) : ℕ → ℕ
  | 0 => 0
  | w + 1 => (m a).toNat + 256 * loadLE m (a + 1) w

variable {m m' : ByteMem} {a b n w x : ℕ} {f : ℕ → UInt8}

/-! ### Blits -/

theorem blit_apply_of_mem (h₁ : a ≤ x) (h₂ : x < a + n) : m.blit a n f x = f (x - a) :=
  if_pos ⟨h₁, h₂⟩

theorem blit_apply_of_not_mem (h : x < a ∨ a + n ≤ x) : m.blit a n f x = m x :=
  if_neg (by omega)

@[simp]
theorem blit_zero : m.blit a 0 f = m := by
  funext x
  exact blit_apply_of_not_mem (by omega)

@[simp]
theorem blit_apply_add (h : b < n) : m.blit a n f (a + b) = f b := by
  rw [blit_apply_of_mem (by omega) (by omega), Nat.add_sub_cancel_left]

/-- Two adjacent blits are one. -/
theorem blit_blit_append {k : ℕ} :
    (m.blit a n f).blit (a + n) k (fun i ↦ f (n + i)) = m.blit a (n + k) f := by
  funext x
  by_cases h₁ : a + n ≤ x ∧ x < a + n + k
  · rw [blit_apply_of_mem h₁.1 h₁.2, blit_apply_of_mem (by omega) (by omega)]
    exact congrArg f (by omega)
  · rw [blit_apply_of_not_mem (by omega)]
    by_cases h₂ : a ≤ x ∧ x < a + n
    · rw [blit_apply_of_mem h₂.1 h₂.2, blit_apply_of_mem h₂.1 (by omega)]
    · rw [blit_apply_of_not_mem (by omega), blit_apply_of_not_mem (by omega)]

theorem blit_congr {g : ℕ → UInt8} (h : ∀ i < n, f i = g i) : m.blit a n f = m.blit a n g := by
  funext x
  simp only [blit]
  split
  · exact h _ (by omega)
  · rfl

theorem store8_of_ne {v : UInt8} (h : x ≠ a) : m.store8 a v x = m x :=
  blit_apply_of_not_mem (by omega)

/-- One byte more behind a blit. -/
theorem store8_blit : (m.blit a n f).store8 (a + n) (f n) = m.blit a (n + 1) f := by
  rw [← blit_blit_append]
  exact blit_congr fun i hi ↦ congrArg f (by omega)

/-- One byte more that is written first. -/
theorem blit_store8 : (m.store8 (a + n) (f n)).blit a n f = m.blit a (n + 1) f := by
  rw [← store8_blit]
  funext x
  by_cases h : a ≤ x ∧ x < a + n
  · rw [blit_apply_of_mem h.1 h.2, store8_of_ne (by omega), blit_apply_of_mem h.1 h.2]
  · rw [blit_apply_of_not_mem (by omega), store8, store8, blit, blit,
      blit_apply_of_not_mem (by omega)]

theorem storeLE_apply_of_not_mem {v : ℕ} (h : x < a ∨ a + w ≤ x) : m.storeLE a w v x = m x :=
  blit_apply_of_not_mem h

/-! ### Agreement of ranges -/

/-- The `n` bytes of `m` at `a` are those of `m'` at `b`. -/
def AgreeOn (m : ByteMem) (a : ℕ) (m' : ByteMem) (b n : ℕ) : Prop :=
  ∀ i < n, m (a + i) = m' (b + i)

/-- Equal blits at equal offsets keep two ranges in agreement. -/
theorem AgreeOn.blit (h : AgreeOn m a m' b n) (off k : ℕ) (f : ℕ → UInt8) :
    AgreeOn (m.blit (a + off) k f) a (m'.blit (b + off) k f) b n := by
  intro i hi
  by_cases hx : off ≤ i ∧ i < off + k
  · rw [blit_apply_of_mem (by omega) (by omega), blit_apply_of_mem (by omega) (by omega)]
    exact congrArg f (by omega)
  · rw [blit_apply_of_not_mem (by omega), blit_apply_of_not_mem (by omega)]
    exact h i hi

/-- Blitting the same bytes over the whole of two ranges makes them agree. -/
theorem agreeOn_blit_blit (f : ℕ → UInt8) : AgreeOn (m.blit a n f) a (m'.blit b n f) b n := by
  intro i hi
  rw [blit_apply_add hi, blit_apply_add hi]

/-! ### Little-endian numerals -/

theorem loadLE_congr (h : AgreeOn m a m' b w) : m.loadLE a w = m'.loadLE b w := by
  induction w generalizing a b with
  | zero => rfl
  | succ w ih =>
    have h₀ : m a = m' b := h 0 (by omega)
    have hrest : AgreeOn m (a + 1) m' (b + 1) w := by
      intro i hi
      have := h (i + 1) (by omega)
      rwa [Nat.add_assoc, Nat.add_comm 1 i, Nat.add_assoc, Nat.add_comm 1 i]
    rw [loadLE, loadLE, h₀, ih hrest]

theorem loadLE_lt : m.loadLE a w < 256 ^ w := by
  induction w generalizing a with
  | zero => simp [loadLE]
  | succ w ih =>
    have h₁ := ih (a := a + 1)
    have h₂ := (m a).toNat_lt
    rw [loadLE, Nat.pow_succ]
    omega

/-- A range that spells the digits of `v` reads back as `v`. -/
theorem loadLE_of_digits {v : ℕ} (h : ∀ i < w, m (a + i) = UInt8.ofNat (v / 256 ^ i)) :
    m.loadLE a w = v % 256 ^ w := by
  induction w generalizing a v with
  | zero => simp [loadLE, Nat.mod_one]
  | succ w ih =>
    have h₀ : m a = UInt8.ofNat v := by simpa using h 0 (by omega)
    have hrest : m.loadLE (a + 1) w = v / 256 % 256 ^ w := ih fun i hi ↦ by
      have := h (i + 1) (by omega)
      rw [Nat.add_assoc, Nat.add_comm 1 i, this, Nat.pow_succ, Nat.mul_comm, Nat.div_div_eq_div_mul]
    rw [loadLE, h₀, hrest, Nat.pow_succ, Nat.mul_comm (256 ^ w) 256, Nat.mod_mul]
    simp

/-- The bytes of what is read are those of memory. -/
theorem ofNat_loadLE_div {i : ℕ} (hi : i < w) :
    UInt8.ofNat (m.loadLE a w / 256 ^ i) = m (a + i) := by
  induction w generalizing a i with
  | zero => omega
  | succ w ih =>
    have hlow := (m a).toNat_lt
    rw [loadLE]
    cases i with
    | zero =>
      rw [Nat.pow_zero, Nat.div_one, ← UInt8.toNat_inj, UInt8.toNat_ofNat',
        Nat.add_mul_mod_self_left, Nat.mod_eq_of_lt hlow]
      rfl
    | succ i =>
      rw [Nat.pow_succ', ← Nat.div_div_eq_div_mul, Nat.add_mul_div_left _ _ (by decide),
        Nat.div_eq_of_lt hlow, Nat.zero_add, ih (by omega), Nat.add_assoc, Nat.add_comm 1]

theorem loadLE_storeLE_self (v : ℕ) : (m.storeLE a w v).loadLE a w = v % 256 ^ w :=
  loadLE_of_digits fun i hi ↦ by rw [storeLE, blit_apply_add hi]

/-- A read sees through a blit of a disjoint range. -/
theorem loadLE_blit_of_disjoint (h : b + w ≤ a ∨ a + n ≤ b) :
    (m.blit a n f).loadLE b w = m.loadLE b w :=
  loadLE_congr fun i hi ↦ blit_apply_of_not_mem (by omega)

theorem loadLE_storeLE_of_disjoint {k v : ℕ} (h : b + w ≤ a ∨ a + k ≤ b) :
    (m.storeLE a k v).loadLE b w = m.loadLE b w :=
  loadLE_blit_of_disjoint h

end ByteMem
