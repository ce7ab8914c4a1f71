import Mathlib.Data.UInt
import Mathlib.Tactic.Common

/-!
# A stack of words in a wrapping memory

Bytes at 32-bit addresses; the address after the last one is zero. A stack grows downwards: a word
is pushed below the words that are there. `Stacked` lists the words from the top of the stack down
to a region of bytes that a program leaves alone, so that a push puts a word in front of the list
(`Stacked.push`), while the region stays what it is.
-/

/-- Bytes at 32-bit addresses. -/
abbrev WordMem := UInt32 → UInt8

/-- The word at an address, its low byte first. -/
def loadWord (m : WordMem) (a : UInt32) : UInt32 :=
  UInt32.ofNat ((m a).toNat + 256 * (m (a + 1)).toNat + 256 ^ 2 * (m (a + 2)).toNat +
    256 ^ 3 * (m (a + 3)).toNat)

/-- The memory after a word has been stored. -/
def storeWord (m : WordMem) (a v : UInt32) : WordMem := fun x ↦
  if (x - a).toNat < 4 then UInt8.ofNat (v.toNat / 256 ^ (x - a).toNat) else m x

/-- From `a` on there are these words, and then `len` bytes as they are in `m₀`. -/
def Stacked (m₀ : WordMem) (len : ℕ) (m : WordMem) : UInt32 → List UInt32 → Prop
  | a, [] => ∀ i < len, m (a + UInt32.ofNat i) = m₀ (a + UInt32.ofNat i)
  | a, w :: ws => loadWord m a = w ∧ Stacked m₀ len m (a + 4) ws

variable {m m' m₀ : WordMem} {a v w : UInt32} {ws : List UInt32} {i len : ℕ}

/-! ### Words -/

theorem storeWord_apply (hi : i < 4) :
    storeWord m a v (a + UInt32.ofNat i) = UInt8.ofNat (v.toNat / 256 ^ i) := by
  have hoffset : (a + UInt32.ofNat i - a).toNat = i := by
    rw [UInt32.add_comm, UInt32.add_sub_cancel, UInt32.toNat_ofNat']
    exact Nat.mod_eq_of_lt (by omega)
  rw [storeWord, hoffset, if_pos hi]

/-- Beside the word. -/
theorem storeWord_apply_of_ge {x : UInt32} (h : 4 ≤ (x - a).toNat) : storeWord m a v x = m x :=
  if_neg (Nat.not_lt.2 h)

/-- Behind the word, as far as the addresses go. -/
theorem storeWord_apply_add (hi : 4 + i < 2 ^ 32) :
    storeWord m a v (a + UInt32.ofNat (4 + i)) = m (a + UInt32.ofNat (4 + i)) := by
  refine storeWord_apply_of_ge ?_
  rw [UInt32.add_comm, UInt32.add_sub_cancel, UInt32.toNat_ofNat']
  omega

theorem loadWord_storeWord : loadWord (storeWord m a v) a = v := by
  have hlt := v.toNat_lt
  have h₀ : storeWord m a v a = UInt8.ofNat (v.toNat / 256 ^ 0) := by
    have happly : storeWord m a v (a + UInt32.ofNat 0) = _ := storeWord_apply (by decide)
    rwa [show UInt32.ofNat 0 = 0 from rfl, UInt32.add_zero] at happly
  have h₁ : storeWord m a v (a + 1) = UInt8.ofNat (v.toNat / 256 ^ 1) := storeWord_apply (by decide)
  have h₂ : storeWord m a v (a + 2) = UInt8.ofNat (v.toNat / 256 ^ 2) := storeWord_apply (by decide)
  have h₃ : storeWord m a v (a + 3) = UInt8.ofNat (v.toNat / 256 ^ 3) := storeWord_apply (by decide)
  rw [loadWord, h₀, h₁, h₂, h₃, ← UInt32.toNat_inj, UInt32.toNat_ofNat', UInt8.toNat_ofNat',
    UInt8.toNat_ofNat', UInt8.toNat_ofNat', UInt8.toNat_ofNat']
  omega

/-- A word is its four bytes. -/
theorem loadWord_congr (h : ∀ i < 4, m (a + UInt32.ofNat i) = m' (a + UInt32.ofNat i)) :
    loadWord m a = loadWord m' a := by
  have h₀ : m a = m' a := by
    have hbyte := h 0 (by decide)
    rwa [show UInt32.ofNat 0 = 0 from rfl, UInt32.add_zero] at hbyte
  have h₁ : m (a + 1) = m' (a + 1) := h 1 (by decide)
  have h₂ : m (a + 2) = m' (a + 2) := h 2 (by decide)
  have h₃ : m (a + 3) = m' (a + 3) := h 3 (by decide)
  rw [loadWord, loadWord, h₀, h₁, h₂, h₃]

/-! ### The stack -/

namespace Stacked

/-- Only the bytes from the top on matter. -/
theorem congr (h : Stacked m₀ len m a ws)
    (hbytes : ∀ i < 4 * ws.length + len, m' (a + UInt32.ofNat i) = m (a + UInt32.ofNat i)) :
    Stacked m₀ len m' a ws := by
  induction ws generalizing a with
  | nil => exact fun i hi ↦ (hbytes i (by omega)).trans (h i hi)
  | cons w ws ih =>
    rw [List.length_cons] at hbytes
    refine ⟨(loadWord_congr fun i hi ↦ hbytes i (by omega)).trans h.1, ih h.2 fun i hi ↦ ?_⟩
    have hbyte := hbytes (4 + i) (by omega)
    rwa [UInt32.ofNat_add, ← UInt32.add_assoc] at hbyte

/-- The bytes below the stack that a push writes. -/
theorem push (h : Stacked m₀ len m a ws) (hroom : 4 * ws.length + 4 + len ≤ 2 ^ 32) (v : UInt32) :
    Stacked m₀ len (storeWord m (a - 4) v) (a - 4) (v :: ws) := by
  refine ⟨loadWord_storeWord, ?_⟩
  rw [UInt32.sub_add_cancel]
  refine h.congr fun i hi ↦ ?_
  have haddr : a + UInt32.ofNat i = a - 4 + UInt32.ofNat (4 + i) := by
    rw [UInt32.ofNat_add, ← UInt32.add_assoc]
    exact congrArg (· + UInt32.ofNat i) (UInt32.sub_add_cancel a 4).symm
  rw [haddr]
  exact storeWord_apply_add (by omega)

/-- The words by their number. -/
theorem load {k : ℕ} (h : Stacked m₀ len m a ws) (hk : ws[k]? = some w) :
    loadWord m (a + UInt32.ofNat (4 * k)) = w := by
  induction ws generalizing a k with
  | nil => cases hk
  | cons v ws ih =>
    cases k with
    | zero =>
      obtain rfl := Option.some.inj hk
      rw [Nat.mul_zero, show UInt32.ofNat 0 = 0 from rfl, UInt32.add_zero]
      exact h.1
    | succ k =>
      have hload := ih h.2 (k := k) hk
      rwa [UInt32.add_assoc, UInt32.add_comm 4, show (4 : UInt32) = UInt32.ofNat 4 from rfl,
        ← UInt32.ofNat_add] at hload

/-- The bytes behind the words. -/
theorem behind (h : Stacked m₀ len m a ws) (hi : i < len) :
    m (a + UInt32.ofNat (4 * ws.length + i)) = m₀ (a + UInt32.ofNat (4 * ws.length + i)) := by
  induction ws generalizing a with
  | nil =>
    rw [List.length_nil, Nat.mul_zero, Nat.zero_add]
    exact h i hi
  | cons w ws ih =>
    have hrest := ih h.2
    rwa [UInt32.add_assoc, show (4 : UInt32) = UInt32.ofNat 4 from rfl, ← UInt32.ofNat_add,
      show 4 + (4 * ws.length + i) = 4 * (w :: ws).length + i by
        rw [List.length_cons]; omega] at hrest

end Stacked
