import BinbowsDOS.Heap.FirstFit

/-!
# The free list is canonical

`insert_free_block_sorted` keeps the list sorted and merges in both directions, so the list is a
function of the region and of the blocks handed out: the unused cells of the coalesced arena
with those used cells (`eq_of_mem_used_iff`). Nothing else about the history of a heap shows in
its free list, and no history fragments it for good.
-/

open Arena

/-- `kfree` on these pointers, one after the other. -/
def kfrees : List ℕ → Heap → Option Heap
  | [], h => some h
  | p :: ps, h => (kfree p h).bind (kfrees ps)

namespace HeapInv

variable {lo hi n : ℕ} {h h₁ h₂ : Heap} {cells cells₁ cells₂ : List Cell}

/-- Two heaps with the same blocks handed out have the same cells. -/
theorem cells_eq (hinv₁ : HeapInv lo hi h₁ cells₁) (hinv₂ : HeapInv lo hi h₂ cells₂)
    (hlive : ∀ c, c ∈ h₁.liveBlocks ↔ c ∈ h₂.liveBlocks) : cells₁ = cells₂ := by
  refine eq_of_mem_used_iff hinv₁.tiles hinv₁.coalesced hinv₂.tiles hinv₂.coalesced ?_
  intro c
  rw [← hinv₁.liveBlocks_perm.mem_iff, hlive, hinv₂.liveBlocks_perm.mem_iff]

/-- With nothing handed out there is one cell. -/
theorem eq_singleton (hinv : HeapInv lo hi h cells) (hlt : lo < hi) (hlive : h.live = []) :
    cells = [⟨lo, hi - lo, false⟩] := by
  have hnone : cells.filter Cell.used = [] := by
    refine List.eq_nil_iff_forall_not_mem.2 ?_
    intro c hc
    have hmem := hinv.ledger.mem_iff.2 (List.mem_map_of_mem hc)
    simp [hlive] at hmem
  rw [eq_layout hinv.tiles hinv.coalesced, hnone, layout, if_neg hlt.ne]

/-- All blocks can be freed, in any order. -/
theorem kfrees_spec {ps : List ℕ} (hinv : HeapInv lo hi h cells) (hps : ps.Perm h.live) :
    ∃ h' cells', kfrees ps h = some h' ∧ HeapInv lo hi h' cells' ∧ h'.live = [] := by
  induction ps generalizing h cells with
  | nil => exact ⟨h, cells, rfl, hinv, hps.nil_eq.symm⟩
  | cons p ps ih =>
    obtain ⟨hp, hrest⟩ := List.cons_perm_iff_perm_erase.1 hps
    obtain ⟨c, hc, hu, rfl⟩ := hinv.exists_cell hp
    obtain ⟨xs, ys, rfl⟩ := List.append_of_mem hc
    obtain ⟨h₁, hfree, hinv₁, hlive₁, -⟩ := hinv.kfree_spec hu
    obtain ⟨h', cells', hfrees, hinv', hlive'⟩ := ih hinv₁ (hlive₁ ▸ hrest)
    refine ⟨h', cells', ?_, hinv', hlive'⟩
    rw [kfrees, hfree, Option.bind_some, hfrees]

/-- Freeing what was just allocated restores the list. -/
theorem kfree_kmalloc (hinv : HeapInv lo hi h cells) (n : ℕ) :
    ∃ p h' h'', kmalloc n h = some (p, h') ∧ kfree p h' = some h'' ∧
      h''.FreeChain .head (unused cells) := by
  cases hsome : allocate n cells with
  | none => exact ⟨0, h, h, hinv.kmalloc_of_none hsome, if_pos rfl, hinv.chain⟩
  | some r =>
    obtain ⟨h', hcall, hinv', -⟩ := hinv.kmalloc_of_some hsome
    obtain ⟨h'', hfree, hinv'', -⟩ := hinv'.kfree_of_allocate hinv.tiles hinv.coalesced hsome
    exact ⟨r.1, h', h'', hcall, hfree, hinv''.chain⟩

end HeapInv

section Run

variable {base size : ℕ} {mem mem' : ByteMem} {h h₁ h₂ : Heap}

/-- The free list at the start: the whole region as one block. -/
def initialFree (base size : ℕ) : List Cell :=
  [⟨alignUp base 8, base + size - alignUp base 8, false⟩]

/-- **The free list is canonical.** Two runs on one region that end with the same blocks handed
out end with the same free list. Freeing all blocks of a run, in any order, restores the list
that initialization set up, and freeing what was just allocated restores the list before. -/
theorem free_list_canonical (hbase : 0x100000 ≤ base) (hend : base + size ≤ 2 ^ 32)
    (hacc : RegionAccepted base size) (hrun₁ : HeapReach base size mem h₁)
    (hrun₂ : HeapReach base size mem' h₂)
    (hlive : ∀ c, c ∈ h₁.liveBlocks ↔ c ∈ h₂.liveBlocks) :
    (∃ free, h₁.FreeChain .head free ∧ h₂.FreeChain .head free) ∧
      ((initAllocatorRegion base size (Heap.boot mem)).FreeChain .head (initialFree base size) ∧
        ∀ ps : List ℕ, ps.Perm h₁.live →
          ∃ h', kfrees ps h₁ = some h' ∧ h'.FreeChain .head (initialFree base size)) ∧
      ∀ n, ∃ p h' h'' free, h₁.FreeChain .head free ∧ kmalloc n h₁ = some (p, h') ∧
        kfree p h' = some h'' ∧ h''.FreeChain .head free := by
  obtain ⟨⟨cells₁, hinv₁⟩, -⟩ := hrun₁.exists_inv hbase hend hacc
  obtain ⟨⟨cells₂, hinv₂⟩, -⟩ := hrun₂.exists_inv hbase hend hacc
  refine ⟨⟨unused cells₁, hinv₁.chain, ?_⟩, ⟨?_, ?_⟩, ?_⟩
  · rw [hinv₁.cells_eq hinv₂ hlive]
    exact hinv₂.chain
  · exact (initAllocatorRegion_spec hbase hend hacc mem).chain
  · intro ps hps
    have hlt : alignedStart base < base + size := by
      have := alignedStart_bounds hend hacc
      omega
    obtain ⟨h', cells', hfrees, hinv', hlive'⟩ := hinv₁.kfrees_spec hps
    have hchain := hinv'.chain
    rw [hinv'.eq_singleton hlt hlive'] at hchain
    exact ⟨h', hfrees, hchain⟩
  · intro n
    obtain ⟨p, h', h'', hcall, hfree, hchain⟩ := hinv₁.kfree_kmalloc n
    exact ⟨p, h', h'', unused cells₁, hinv₁.chain, hcall, hfree, hchain⟩

/-- A heap on which 24 bytes were allocated and freed, next to one fresh from initialization. -/
theorem free_list_canonical_fresh :
    ∃ p h h', kmalloc 24 (Heap.fresh 0x1000) = some (p, h) ∧ kfree p h = some h' ∧
      ∃ free, h'.FreeChain .head free ∧ (Heap.fresh 0x1000).FreeChain .head free := by
  have hinv : HeapInv 0x100000 (0x100000 + 0x1000) (Heap.fresh 0x1000)
      [⟨0x100000, 0x1000, false⟩] := Heap.fresh_inv (by decide) (by decide)
  have hsome : allocate 24 [⟨0x100000, 0x1000, false⟩] =
      some (0x100008, [⟨0x100000, 32, true⟩, ⟨0x100020, 0xFE0, false⟩]) := by decide
  obtain ⟨h, hcall, hinv', hlive, -⟩ := hinv.kmalloc_of_some hsome
  obtain ⟨h', hfree, -, hlive', -⟩ := hinv'.kfree_of_allocate hinv.tiles hinv.coalesced hsome
  have hrun : HeapReach 0x100000 0x1000 (fun _ ↦ 0) h' :=
    .tail (.tail .refl (.malloc (n := 24) (by decide) hcall))
      (.free (by simp [hlive]) hfree)
  have hempty : h'.live = (Heap.fresh 0x1000).live := by
    rw [hlive', hlive, List.erase_cons_head]
  obtain ⟨hsame, -⟩ := free_list_canonical le_rfl (by decide) (by decide) hrun
    (Heap.fresh_reach 0x1000) fun c ↦ by
      rw [Heap.liveBlocks, Heap.liveBlocks, hempty]
      rfl
  exact ⟨0x100008, h, h', hcall, hfree, hsame⟩

end Run
