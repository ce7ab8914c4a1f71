import BinbowsDOS.Foundations.ByteMemory
import BinbowsDOS.Foundations.MachineWord

/-!
# Copying and comparing blocks of memory

`memcpy` and `memmove` of `mem.c`, byte by byte and in place. What both are to do is one blit of the
old bytes (`ByteMem.moved`). Going up is safe as long as the destination does not lie ahead of the
source within its range, since then no byte is overwritten before it is read; going down is safe
in the other case.

`memcmp` orders blocks like the lists of their bytes (`memcmp_eq`), so it finds no difference after
a copy to a place that does not overlap (`memcmp_memmove`).

A `size_t` and a pointer have 32 bits, so the sum of a pointer and an index may wrap.
-/

/-- All bytes at once: those at `dest` become the ones that were at `src`. -/
def ByteMem.moved (m : ByteMem) (dest src n : ℕ) : ByteMem := m.blit dest n fun i ↦ m (src + i)

/-- `for (i = 0; i < n; i++) pdest[i] = psrc[i];`: the loop's first `n` iterations. -/
def copyUp (dest src : ℕ) : ℕ → ByteMem → ByteMem
  | 0, m => m
  | n + 1, m =>
    let m := copyUp dest src n m
    m.store8 (u32 (dest + n)) (m (u32 (src + n)))

/-- `for (i = n; i > 0; i--) pdest[i - 1] = psrc[i - 1];` -/
def copyDown (dest src : ℕ) : ℕ → ByteMem → ByteMem
  | 0, m => m
  | n + 1, m => copyDown dest src n (m.store8 (u32 (dest + n)) (m (u32 (src + n))))

/-- `memcpy`: the pointer it returns, and memory. -/
def memcpy (dest src n : ℕ) (m : ByteMem) : ℕ × ByteMem := (dest, copyUp dest src n m)

/-- `memmove`: the pointer it returns, and memory. -/
def memmove (dest src n : ℕ) (m : ByteMem) : ℕ × ByteMem :=
  if dest < src then (dest, copyUp dest src n m)
  else if src < dest then (dest, copyDown dest src n m)
  else (dest, m)

variable {m : ByteMem} {dest src n x : ℕ}

/-! ### The two directions -/

theorem moved_self : m.moved dest dest n = m := by
  funext x
  rw [ByteMem.moved, ByteMem.blit]
  split
  · exact congrArg m (by omega)
  · rfl

/-- Upwards, if the destination is below the source or behind it. -/
theorem copyUp_eq_moved (hdest : dest + n ≤ 2 ^ 32) (hsrc : src + n ≤ 2 ^ 32)
    (h : dest ≤ src ∨ src + n ≤ dest) : copyUp dest src n m = m.moved dest src n := by
  induction n with
  | zero => exact ByteMem.blit_zero.symm
  | succ n ih =>
    -- the byte read next has not been overwritten
    have hunread : m.moved dest src n (src + n) = m (src + n) :=
      ByteMem.blit_apply_of_not_mem (by omega)
    rw [copyUp, ih (by omega) (by omega) (by omega), u32_of_lt (by omega), u32_of_lt (by omega),
      hunread]
    exact ByteMem.store8_blit (f := fun i ↦ m (src + i))

/-- Downwards, if the destination is above the source or before it. -/
theorem copyDown_eq_moved (hdest : dest + n ≤ 2 ^ 32) (hsrc : src + n ≤ 2 ^ 32)
    (h : src ≤ dest ∨ dest + n ≤ src) : copyDown dest src n m = m.moved dest src n := by
  induction n generalizing m with
  | zero => exact ByteMem.blit_zero.symm
  | succ n ih =>
    rw [copyDown, u32_of_lt (by omega), u32_of_lt (by omega), ih (by omega) (by omega) (by omega)]
    have hunread : ∀ i < n, m.store8 (dest + n) (m (src + n)) (src + i) = m (src + i) :=
      fun i hi ↦ ByteMem.store8_of_ne (by omega)
    rw [ByteMem.moved, ByteMem.blit_congr hunread]
    exact ByteMem.blit_store8 (f := fun i ↦ m (src + i))

/-- **`memmove` moves all bytes at once**, whether the ranges overlap or not. -/
theorem memmove_eq_moved (hdest : dest + n ≤ 2 ^ 32) (hsrc : src + n ≤ 2 ^ 32) :
    memmove dest src n m = (dest, m.moved dest src n) := by
  rw [memmove]
  split_ifs with hup hdown
  · rw [copyUp_eq_moved hdest hsrc (Or.inl hup.le)]
  · rw [copyDown_eq_moved hdest hsrc (Or.inl hdown.le)]
  · obtain rfl : src = dest := Nat.le_antisymm (Nat.le_of_not_lt hup) (Nat.le_of_not_lt hdown)
    rw [moved_self]

/-- **`memmove`** is right for every overlap, and `memcpy` does the same if there is none. -/
theorem memmove_correct (hdest : dest + n ≤ 2 ^ 32) (hsrc : src + n ≤ 2 ^ 32) :
    (∀ i < n, (memmove dest src n m).2 (dest + i) = m (src + i)) ∧
      (∀ x, x < dest ∨ dest + n ≤ x → (memmove dest src n m).2 x = m x) ∧
      (dest + n ≤ src ∨ src + n ≤ dest → memcpy dest src n m = memmove dest src n m) := by
  rw [memmove_eq_moved hdest hsrc]
  refine ⟨fun i hi ↦ ?_, fun x hx ↦ ?_, ?_⟩
  · exact ByteMem.blit_apply_add (f := fun i ↦ m (src + i)) hi
  · exact ByteMem.blit_apply_of_not_mem (f := fun i ↦ m (src + i)) hx
  intro hdisjoint
  rw [memcpy, copyUp_eq_moved hdest hsrc (hdisjoint.imp_left fun h ↦ by omega)]

/-- Two overlapping ranges, the upper one of which is the destination. -/
theorem memmove_correct_overlapping :
    ((memmove 0x1001 0x1000 2 fun a ↦ UInt8.ofNat a).2 0x1002 = 1) ∧
      (memmove 0x1001 0x1000 2 fun a ↦ UInt8.ofNat a).2 0x1000 = 0 := by
  have hdest : 0x1001 + 2 ≤ 2 ^ 32 := by decide
  have hsrc : 0x1000 + 2 ≤ 2 ^ 32 := by decide
  obtain ⟨hcopied, hrest, -⟩ := memmove_correct (m := fun a ↦ UInt8.ofNat a) hdest hsrc
  exact ⟨hcopied 1 (by decide), hrest 0x1000 (by decide)⟩

/-! ### Comparing -/

/-- The loop of `memcmp` from index `i` on, with `n` iterations to go. -/
def memcmpLoop (s₁ s₂ : ℕ) (m : ByteMem) (i : ℕ) : ℕ → Int32
  | 0 => 0
  | n + 1 =>
    if m (u32 (s₁ + i)) ≠ m (u32 (s₂ + i)) then
      if m (u32 (s₁ + i)) < m (u32 (s₂ + i)) then -1 else 1
    else memcmpLoop s₁ s₂ m (i + 1) n

/-- `memcmp` -/
def memcmp (s₁ s₂ n : ℕ) (m : ByteMem) : Int32 := memcmpLoop s₁ s₂ m 0 n

/-- The `n` bytes from index `i` on. -/
def ByteMem.block (m : ByteMem) (s i n : ℕ) : List UInt8 :=
  (List.range' i n).map fun i ↦ m (u32 (s + i))

/-- The number for an order. -/
def orderResult : Ordering → Int32
  | .lt => -1
  | .eq => 0
  | .gt => 1

variable {s₁ s₂ i : ℕ}

theorem ByteMem.block_succ {s : ℕ} :
    m.block s i (n + 1) = m (u32 (s + i)) :: m.block s (i + 1) n := rfl

theorem memcmpLoop_eq :
    memcmpLoop s₁ s₂ m i n = orderResult (compare (m.block s₁ i n) (m.block s₂ i n)) := by
  induction n generalizing i with
  | zero => rfl
  | succ n ih =>
    rw [memcmpLoop, ih, ByteMem.block_succ, ByteMem.block_succ, List.compare_cons_cons]
    have hcompare : ∀ a b : UInt8,
        compare a b = if a < b then .lt else if a = b then .eq else .gt := fun _ _ ↦ rfl
    rw [hcompare]
    by_cases heq : m (u32 (s₁ + i)) = m (u32 (s₂ + i))
    · rw [if_neg (not_not.2 heq), if_neg (heq ▸ UInt8.lt_irrefl _), if_pos heq]
      rfl
    · rw [if_pos heq, if_neg heq]
      split_ifs
      · rfl
      · rfl

/-- **`memcmp`** compares the two blocks lexicographically. -/
theorem memcmp_eq :
    memcmp s₁ s₂ n m = orderResult (compare (m.block s₁ 0 n) (m.block s₂ 0 n)) := memcmpLoop_eq

theorem memcmp_eq_zero_iff :
    memcmp s₁ s₂ n m = 0 ↔ ∀ i < n, m (u32 (s₁ + i)) = m (u32 (s₂ + i)) := by
  have hzero : ∀ o, orderResult o = 0 ↔ o = .eq := by
    intro o
    cases o <;> decide
  have hmem : ∀ i, i ∈ List.range' 0 n ↔ i < n := fun i ↦ by
    rw [← List.range_eq_range', List.mem_range]
  rw [memcmp_eq, hzero, Std.LawfulEqCmp.compare_eq_iff_eq, ByteMem.block, ByteMem.block,
    List.map_inj_left]
  exact forall_congr' fun i ↦ imp_congr_left (hmem i)

/-- No difference between the two ranges is left by a copy if they do not overlap. -/
theorem memcmp_memmove (hdest : dest + n ≤ 2 ^ 32) (hsrc : src + n ≤ 2 ^ 32)
    (h : dest + n ≤ src ∨ src + n ≤ dest) :
    memcmp dest src n (memmove dest src n m).2 = 0 := by
  rw [memcmp_eq_zero_iff, memmove_eq_moved hdest hsrc]
  intro i hi
  show m.moved dest src n (u32 (dest + i)) = m.moved dest src n (u32 (src + i))
  rw [u32_of_lt (by omega), u32_of_lt (by omega), ByteMem.moved, ByteMem.blit_apply_add hi,
    ByteMem.blit_apply_of_not_mem (by omega)]
