import BinbowsDOS.Heap.Invariant
import Mathlib.Logic.Relation

/-!
# Runs of the allocator

A run starts with `init_allocator_region` and is any sequence of `kmalloc` calls, of `kfree`
calls on pointers handed out and not freed since, and of stores by the clients of the heap into
bytes that are theirs. `HeapReach.exists_inv` carries the invariant along every run, and the
representation theorem `heap_tiled_of_run` reads it off without naming cells: the free list, the
blocks handed out, and how together they cut the region.
-/

open Arena

/-- A block handed out, as a header plus its recorded size. -/
def Heap.liveBlock (h : Heap) (p : ℕ) : Cell :=
  ⟨p - headerSize, headerSize + h.size (p - headerSize), true⟩

/-- The blocks handed out. -/
def Heap.liveBlocks (h : Heap) : List Cell := h.live.map h.liveBlock

/-- A byte the clients of a heap region may store to: outside the region, or in the payload of
a block they hold. -/
def Heap.ClientByte (lo hi : ℕ) (h : Heap) (x : ℕ) : Prop :=
  (x < lo ∨ hi ≤ x) ∨ ∃ p ∈ h.live, p ≤ x ∧ x < p + h.size (p - headerSize)

/-- One step of a run on the region `[lo, hi)`. -/
inductive HeapStep (lo hi : ℕ) : Heap → Heap → Prop
  /-- A call of `kmalloc`. -/
  | malloc {h h' : Heap} {n p : ℕ} (hn : n < 2 ^ 32) (hcall : kmalloc n h = some (p, h')) :
    HeapStep lo hi h h'
  /-- A call of `kfree` on a pointer that is held. -/
  | free {h h' : Heap} {p : ℕ} (hp : p ∈ h.live) (hcall : kfree p h = some h') :
    HeapStep lo hi h h'
  /-- A client changes bytes of its own. -/
  | client {h : Heap} {mem : ByteMem} (hmem : ∀ x, ¬ h.ClientByte lo hi x → mem x = h.mem x) :
    HeapStep lo hi h { h with mem := mem }

/-- The states of the runs on the region that `initAllocatorRegion base size` sets up. -/
def HeapReach (base size : ℕ) (mem : ByteMem) (h : Heap) : Prop :=
  Relation.ReflTransGen (HeapStep (alignedStart base) (base + size))
    (initAllocatorRegion base size (Heap.boot mem)) h

section Step

variable {lo hi : ℕ} {h h' : Heap} {cells : List Cell} {c : Cell}

theorem Cell.ptr_sub_headerSize (c : Cell) : c.ptr - headerSize = c.addr :=
  Nat.add_sub_cancel ..

theorem HeapInv.liveBlock_ptr (hinv : HeapInv lo hi h cells) (hc : c ∈ cells)
    (hu : c.used = true) : h.liveBlock c.ptr = c := by
  rw [Heap.liveBlock, c.ptr_sub_headerSize]
  refine Cell.ext rfl ?_ hu.symm
  rw [← hinv.recorded c hc hu, Nat.add_comm]

/-- The blocks handed out are the used cells. -/
theorem HeapInv.liveBlocks_perm (hinv : HeapInv lo hi h cells) :
    h.liveBlocks.Perm (cells.filter Cell.used) := by
  have hmap : ((cells.filter Cell.used).map Cell.ptr).map h.liveBlock =
      cells.filter Cell.used := by
    rw [List.map_map]
    conv_rhs => rw [← List.map_id (cells.filter Cell.used)]
    refine List.map_congr_left ?_
    intro c hc
    exact hinv.liveBlock_ptr (List.mem_filter.1 hc).1 (List.mem_filter.1 hc).2
  exact hmap ▸ hinv.ledger.map h.liveBlock

/-- No header byte is a client's. -/
theorem HeapInv.not_clientByte_header (hinv : HeapInv lo hi h cells) (hc : c ∈ cells) {x : ℕ}
    (h₁ : c.addr ≤ x) (h₂ : x < c.addr + 8) : ¬ h.ClientByte lo hi x := by
  have hhead := hinv.eight_le hc
  have hbounds := hinv.tiles.bounds hc
  rintro (hout | ⟨p, hp, h₃, h₄⟩)
  · omega
  · obtain ⟨d, hd, hu, rfl⟩ := hinv.exists_cell hp
    have hrec := hinv.recorded_eq hd hu
    rw [d.ptr_sub_headerSize, d.ptr_eq] at h₄
    rw [d.ptr_eq] at h₃
    rcases eq_or_ne c.addr d.addr with heq | heq
    · omega
    · rcases hinv.tiles.disjoint hc hd heq with hlt | hlt <;> omega

/-- **One step keeps the invariant**, and the record of writes only grows. -/
theorem HeapStep.exists_inv (hstep : HeapStep lo hi h h') (hinv : HeapInv lo hi h cells) :
    (∃ cells', HeapInv lo hi h' cells') ∧ ∀ x, h.written x = true → h'.written x = true := by
  cases hstep with
  | @malloc _ n p hn hcall =>
    rcases eq_or_ne n 0 with hzero | hzero
    · rw [kmalloc, if_pos hzero] at hcall
      obtain ⟨-, rfl⟩ := Prod.mk.inj (Option.some.inj hcall)
      exact ⟨⟨cells, hinv⟩, fun _ hx ↦ hx⟩
    · rcases hinv.kmalloc_spec hzero with ⟨hnone, -⟩ |
        ⟨xs, c, ys, h₁, -, -, -, -, hsome, hinv₁, -, hw, -⟩
      · rw [hnone] at hcall
        obtain ⟨-, rfl⟩ := Prod.mk.inj (Option.some.inj hcall)
        exact ⟨⟨cells, hinv⟩, fun _ hx ↦ hx⟩
      · rw [hsome] at hcall
        obtain ⟨-, rfl⟩ := Prod.mk.inj (Option.some.inj hcall)
        exact ⟨⟨_, hinv₁⟩, hw.kept⟩
  | @free _ p hp hcall =>
    obtain ⟨c, hc, hu, rfl⟩ := hinv.exists_cell hp
    obtain ⟨xs, ys, rfl⟩ := List.append_of_mem hc
    obtain ⟨h₁, hfree, hinv₁, -, hw⟩ := hinv.kfree_spec hu
    rw [hfree] at hcall
    obtain rfl := Option.some.inj hcall
    exact ⟨⟨_, hinv₁⟩, hw.kept⟩
  | @client mem hmem =>
    exact ⟨⟨cells, hinv.of_headers fun c hc x h₁ h₂ ↦
      hmem x (hinv.not_clientByte_header hc h₁ h₂)⟩, fun _ hx ↦ hx⟩

end Step

section Run

variable {base size : ℕ} {mem : ByteMem} {h : Heap}

/-- **Every run keeps the invariant**, and records every write since initialization. -/
theorem HeapReach.exists_inv (hbase : 0x100000 ≤ base) (hend : base + size ≤ 2 ^ 32)
    (hacc : RegionAccepted base size) (hrun : HeapReach base size mem h) :
    (∃ cells, HeapInv (alignedStart base) (base + size) h cells) ∧
      ∀ x, (initAllocatorRegion base size (Heap.boot mem)).written x = true →
        h.written x = true := by
  induction hrun with
  | refl => exact ⟨⟨_, initAllocatorRegion_spec hbase hend hacc mem⟩, fun _ hx ↦ hx⟩
  | tail _ hstep ih =>
    obtain ⟨⟨cells, hinv⟩, hkept⟩ := ih
    obtain ⟨hinv', hkept'⟩ := hstep.exists_inv hinv
    exact ⟨hinv', fun x hx ↦ hkept' x (hkept x hx)⟩

/-- Under the invariant no call of the allocator runs forever. -/
theorem HeapInv.kmalloc_isSome {lo hi n : ℕ} {cells : List Cell} (hinv : HeapInv lo hi h cells) :
    (kmalloc n h).isSome := by
  rcases eq_or_ne n 0 with hzero | hzero
  · simp [kmalloc, hzero]
  · rcases hinv.kmalloc_spec hzero with ⟨hnone, -⟩ | ⟨_, _, _, _, -, -, -, -, hsome, -⟩
    · simp [hnone]
    · simp [hsome]

theorem HeapInv.kfree_isSome {lo hi p : ℕ} {cells : List Cell} (hinv : HeapInv lo hi h cells)
    (hp : p ∈ h.live) : (kfree p h).isSome := by
  obtain ⟨c, hc, hu, rfl⟩ := hinv.exists_cell hp
  obtain ⟨xs, ys, rfl⟩ := List.append_of_mem hc
  obtain ⟨h₁, hfree, -⟩ := hinv.kfree_spec hu
  simp [hfree]

/-- **The heap representation invariant.** In every state of every run the free list is finite
and null-terminated, its blocks are in strictly increasing order and no block of it ends where
the next one starts; the free blocks and the blocks handed out, each a header plus its recorded
size, tile the aligned region; and every call the clients may make next returns. -/
theorem heap_tiled_of_run (hbase : 0x100000 ≤ base) (hend : base + size ≤ 2 ^ 32)
    (hacc : RegionAccepted base size) (hrun : HeapReach base size mem h) :
    (∃ free : List Cell, h.FreeChain .head free ∧
      free.Pairwise (fun c d ↦ c.addr < d.addr) ∧
      free.IsChain (fun c d ↦ c.addr + c.len ≠ d.addr) ∧
      ∃ cells : List Cell, cells.Perm (free ++ h.liveBlocks) ∧
        Tiles (alignUp base 8) (base + size) cells) ∧
      (∀ n, (kmalloc n h).isSome) ∧ ∀ p ∈ h.live, (kfree p h).isSome := by
  obtain ⟨⟨cells, hinv⟩, -⟩ := hrun.exists_inv hbase hend hacc
  have hpair := pairwise_unused hinv.tiles hinv.coalesced
  refine ⟨⟨unused cells, hinv.chain, hpair.imp fun hlt ↦ by omega,
    (hpair.imp fun hlt ↦ by omega).isChain, cells, ?_, hinv.tiles⟩,
    fun n ↦ hinv.kmalloc_isSome, fun p hp ↦ hinv.kfree_isSome hp⟩
  exact (perm_unused_append_used cells).trans (hinv.liveBlocks_perm.symm.append_left _)

/-- A request that is served from the last cell, the only one that is not used. -/
theorem HeapInv.kmalloc_of_last {lo hi n : ℕ} {xs : List Cell} {c : Cell} {cells : List Cell}
    (hinv : HeapInv lo hi h (xs ++ [c])) (hn : n ≠ 0) (hxs : unused xs = [])
    (hfit : requestSize n + 8 ≤ c.len) (hcells : carve (requestSize n) xs c [] = cells)
    (hc : c.used = false) :
    ∃ h', kmalloc n h = some (c.ptr, h') ∧ HeapInv lo hi h' cells ∧ h'.live = c.ptr :: h.live := by
  have honly : unused (xs ++ [c]) = [c] := by
    rw [unused_append, hxs, unused_cons_of_unused hc]
    rfl
  rcases hinv.kmalloc_spec hn with ⟨-, hnone⟩ |
    ⟨xs', d, ys, h', hsplit, hd, -, -, hcall, hinv', hlive, -, -⟩
  · have hlt := hnone c (by rw [honly]; exact List.mem_singleton_self c)
    omega
  have hsame : unused xs' ++ d :: unused ys = [c] := by
    rw [← honly, hsplit, unused_append, unused_cons_of_unused hd]
  obtain ⟨hxs', hrest⟩ | ⟨-, hnil⟩ := List.append_eq_singleton_iff.1 hsame
  · obtain ⟨rfl, hys⟩ := List.cons.inj hrest
    rcases ys.eq_nil_or_concat' with rfl | ⟨ys, e, rfl⟩
    · obtain ⟨rfl, -⟩ := List.append_inj' hsplit rfl
      exact ⟨h', hcall, hcells ▸ hinv', hlive⟩
    · -- the cell would come twice
      have hassoc : xs ++ [d] = (xs' ++ d :: ys) ++ [e] := by
        rw [hsplit, List.append_assoc, List.cons_append]
      obtain ⟨-, hlast⟩ := List.append_inj' hassoc rfl
      rw [unused_append, ← List.singleton_inj.1 hlast, unused_cons_of_unused hd] at hys
      exact absurd hys (List.append_ne_nil_of_right_ne_nil _ (List.cons_ne_nil _ _))
  · cases hnil

/-- Two blocks are taken from a fresh page and given back. The second one is merged with what is
free on both sides of it. -/
theorem heap_tiled_after_merge : ∃ h₁ h₂ h₃ h₄,
    kmalloc 24 (initAllocatorRegion 0x100000 0x1000 (Heap.boot fun _ ↦ 0)) = some (0x100008, h₁) ∧
      kmalloc 40 h₁ = some (0x100028, h₂) ∧ kfree 0x100008 h₂ = some h₃ ∧
      h₃.FreeChain .head [⟨0x100000, 32, false⟩, ⟨0x100050, 0xFB0, false⟩] ∧
      kfree 0x100028 h₃ = some h₄ ∧ h₄.live = [] ∧
      ∃ free cells, h₄.FreeChain .head free ∧ free.IsChain (fun c d ↦ c.addr + c.len ≠ d.addr) ∧
        cells.Perm free ∧ Tiles 0x100000 0x101000 cells := by
  have hinv : HeapInv (alignedStart 0x100000) (0x100000 + 0x1000)
      (initAllocatorRegion 0x100000 0x1000 (Heap.boot fun _ ↦ 0))
      ([] ++ [⟨0x100000, 0x1000, false⟩]) :=
    initAllocatorRegion_spec (by decide) (by decide) (by decide) fun _ ↦ 0
  obtain ⟨h₁, hcall₁, hinv₁, hlive₁⟩ := hinv.kmalloc_of_last (n := 24) (by decide) rfl (by decide)
    (show _ = [⟨0x100000, 32, true⟩] ++ [⟨0x100020, 0xFE0, false⟩] from rfl) rfl
  obtain ⟨h₂, hcall₂, hinv₂, hlive₂⟩ := hinv₁.kmalloc_of_last (n := 40) (by decide) rfl (by decide)
    (show _ = [] ++ ⟨0x100000, 32, true⟩ :: [⟨0x100020, 48, true⟩, ⟨0x100050, 0xFB0, false⟩]
      from rfl) rfl
  obtain ⟨h₃, hcall₃, hinv₃, hlive₃, -⟩ := hinv₂.kfree_spec rfl
  have hcells₃ : HeapInv (alignedStart 0x100000) (0x100000 + 0x1000) h₃
      ([⟨0x100000, 32, false⟩] ++ ⟨0x100020, 48, true⟩ :: [⟨0x100050, 0xFB0, false⟩]) := hinv₃
  obtain ⟨h₄, hcall₄, -, hlive₄, -⟩ := hcells₃.kfree_spec rfl
  have hempty : h₄.live = [] := by
    rw [hlive₄, hlive₃, hlive₂, hlive₁]
    rfl
  have hheld : 0x100008 ∈ h₂.live := hinv₂.ptr_mem_live List.mem_cons_self rfl
  have hheld' : 0x100028 ∈ h₃.live := hcells₃.ptr_mem_live (c := ⟨0x100020, 48, true⟩) (by simp) rfl
  have hrun : HeapReach 0x100000 0x1000 (fun _ ↦ 0) h₄ :=
    .tail (.tail (.tail (.tail .refl (.malloc (by decide) hcall₁)) (.malloc (by decide) hcall₂))
      (.free hheld hcall₃)) (.free hheld' hcall₄)
  obtain ⟨⟨free, hchain, -, hapart, cells, hperm, htiles⟩, -⟩ :=
    heap_tiled_of_run (by decide) (by decide) (by decide) hrun
  rw [Heap.liveBlocks, hempty, List.map_nil, List.append_nil] at hperm
  exact ⟨h₁, h₂, h₃, h₄, hcall₁, hcall₂, hcall₃, hcells₃.chain, hcall₄, hempty, free, cells, hchain,
    hapart, hperm, htiles⟩

end Run
