import Mathlib.Data.Nat.Bitwise
import Mathlib.Tactic.Common

/-!
# Unsigned machine words as natural numbers

A 32-bit unsigned quantity is a natural number below `2 ^ 32`; an operation that can leave that
range is followed by `u32`, and subtraction is `sub32`. The mask and shift idioms of C are
read back as division and remainder.
-/

/-- Truncation to 32 bits. -/
def u32 (x : ℕ) : ℕ := x % 2 ^ 32

/-- Truncation to 16 bits. -/
def u16 (x : ℕ) : ℕ := x % 2 ^ 16

/-- Truncation to 8 bits. -/
def u8 (x : ℕ) : ℕ := x % 2 ^ 8

/-- 32-bit subtraction, which wraps around below zero. -/
def sub32 (x y : ℕ) : ℕ := u32 (x + 2 ^ 32 - y)

variable {x y k n : ℕ}

theorem u32_lt (x : ℕ) : u32 x < 2 ^ 32 := Nat.mod_lt _ (by decide)

theorem u32_of_lt (h : x < 2 ^ 32) : u32 x = x := Nat.mod_eq_of_lt h

theorem u8_lt (x : ℕ) : u8 x < 2 ^ 8 := Nat.mod_lt _ (by decide)

theorem u8_le (x : ℕ) : u8 x ≤ x := Nat.mod_le _ _

theorem sub32_of_le (hyx : y ≤ x) (hx : x < 2 ^ 32) : sub32 x y = x - y := by
  rw [sub32, u32]
  omega

/-- Clearing the low `k` bits of an `n`-bit word is rounding down to a multiple of `2 ^ k`. -/
theorem and_two_pow_sub_two_pow (hx : x < 2 ^ n) (hk : k ≤ n) :
    x &&& (2 ^ n - 2 ^ k) = x / 2 ^ k * 2 ^ k := by
  have hmask : 2 ^ n - 2 ^ k = (2 ^ (n - k) - 1) * 2 ^ k := by
    rw [Nat.sub_mul, ← Nat.pow_add, Nat.one_mul, Nat.sub_add_cancel hk]
  refine Nat.eq_of_testBit_eq ?_
  intro i
  rw [Nat.testBit_and, hmask, Nat.testBit_mul_two_pow, Nat.testBit_mul_two_pow,
    Nat.testBit_two_pow_sub_one, Nat.testBit_div_two_pow]
  by_cases hki : k ≤ i
  · rcases Nat.lt_or_ge i n with hin | hout
    · have : i - k < n - k := by omega
      simp [hki, this, Nat.sub_add_cancel hki]
    · have hbit : x.testBit i = false :=
        Nat.testBit_lt_two_pow (lt_of_lt_of_le hx (Nat.pow_le_pow_right (by decide) hout))
      simp [hki, hbit, Nat.sub_add_cancel hki]
  · simp [hki]

theorem shiftRight_and_mask (x s k : ℕ) : (x >>> s) &&& (2 ^ k - 1) = x / 2 ^ s % 2 ^ k := by
  rw [Nat.shiftRight_eq_div_pow, Nat.and_two_pow_sub_one_eq_mod]

/-- `(size + alignment - 1) & ~(alignment - 1)` on 32-bit words. -/
def alignUp (size alignment : ℕ) : ℕ := u32 (size + alignment - 1) &&& (2 ^ 32 - alignment)

theorem alignUp_eight (size : ℕ) : alignUp size 8 = (size + 7) % 2 ^ 32 / 8 * 8 :=
  and_two_pow_sub_two_pow (n := 32) (k := 3) (u32_lt _) (by decide)
