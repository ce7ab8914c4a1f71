import Mathlib.Tactic.Common

/-!
# Bits of a byte

A register of eight flags. Programs set and clear a flag with `|` and `&` and a one that is shifted
to it; the shift is one of 32-bit integers, whose count the processor takes modulo 32, so a count
from 8 on may change nothing. A byte is known by its flags (`bit_ext`).
-/

/-- A flag of the register. -/
def bit (v : UInt8) (i : ℕ) : Bool := v.toBitVec.getLsbD i

/-- `v | (1 << i)` -/
def withBit (v : UInt8) (i : ℕ) : UInt8 := (v.toUInt32 ||| 1 <<< UInt32.ofNat i).toUInt8

/-- `v & ~(1 << i)` -/
def withoutBit (v : UInt8) (i : ℕ) : UInt8 := (v.toUInt32 &&& ~~~(1 <<< UInt32.ofNat i)).toUInt8

/-- The lowest flag that is set. -/
def lowestBit (v : UInt8) : Option ℕ := (List.range 8).find? fun i ↦ bit v i

variable {v w : UInt8} {i k : ℕ}

/-- Two registers with the same flags. -/
theorem bit_ext (h : ∀ k < 8, bit v k = bit w k) : v = w :=
  UInt8.toBitVec_inj.1 (BitVec.eq_of_getLsbD_eq h)

@[simp]
theorem bit_zero (k : ℕ) : bit 0 k = false := by
  simp [bit]

theorem getLsbD_one_shiftLeft (i : ℕ) (hk : k < 32) :
    ((1 : UInt32) <<< UInt32.ofNat i).toBitVec.getLsbD k = decide (i % 32 = k) := by
  rw [Bool.eq_iff_iff]
  simp
  omega

theorem bit_withBit (hk : k < 8) : bit (withBit v i) k = (bit v k || decide (i % 32 = k)) := by
  rw [bit, withBit, ← getLsbD_one_shiftLeft i (show k < 32 by omega), UInt32.toBitVec_toUInt8,
    UInt32.toBitVec_or, UInt8.toBitVec_toUInt32, BitVec.getLsbD_setWidth, BitVec.getLsbD_or,
    BitVec.getLsbD_setWidth, decide_eq_true hk, decide_eq_true (show k < 32 by omega),
    Bool.true_and, Bool.true_and, bit]

theorem bit_withoutBit (hk : k < 8) :
    bit (withoutBit v i) k = (bit v k && !decide (i % 32 = k)) := by
  rw [bit, withoutBit, ← getLsbD_one_shiftLeft i (show k < 32 by omega), UInt32.toBitVec_toUInt8,
    UInt32.toBitVec_and, UInt32.toBitVec_not, UInt8.toBitVec_toUInt32, BitVec.getLsbD_setWidth,
    BitVec.getLsbD_and, BitVec.getLsbD_not, BitVec.getLsbD_setWidth, decide_eq_true hk,
    decide_eq_true (show k < 32 by omega), Bool.true_and, Bool.true_and, Bool.true_and, bit]

theorem bit_and_not (hk : k < 8) : bit (w &&& ~~~v) k = (bit w k && !bit v k) := by
  rw [bit, UInt8.toBitVec_and, UInt8.toBitVec_not, BitVec.getLsbD_and, BitVec.getLsbD_not,
    decide_eq_true hk, Bool.true_and, bit, bit]

theorem bit_single (hi : i < 8) (hk : k < 8) : bit (withBit 0 i) k = decide (i = k) := by
  rw [bit_withBit hk, bit_zero, Bool.false_or, Nat.mod_eq_of_lt (by omega)]

/-- A single flag, unless it is one of the masked ones. -/
theorem withBit_zero_and_not (hi : i < 8) :
    withBit 0 i &&& ~~~v = if bit v i then 0 else withBit 0 i := by
  refine bit_ext fun k hk ↦ ?_
  rw [bit_and_not hk, bit_single hi hk]
  rcases eq_or_ne i k with rfl | hne
  · cases hv : bit v i
    · simp [bit_single hi hk]
    · simp
  · cases hv : bit v i
    · simp [bit_single hi hk, hne]
    · simp [hne]

/-! ### The lowest flag -/

theorem lowestBit_zero : lowestBit 0 = none := rfl

/-- A register with one flag: it is the lowest one, and without it the register is empty. -/
theorem lowestBit_single : ∀ i < 8, lowestBit (withBit 0 i) = some i ∧
    withoutBit (withBit 0 i) i = 0 := by
  decide
