import BinbowsDOS.Heap.FirstFit
import Mathlib.Data.Set.Function

/-!
# Requests and the bytes of the clients

`kmalloc` reads nothing but headers. So what the clients have stored in their blocks decides
neither the pointer it returns nor any byte it writes: two heaps with the same cells still agree
after a request wherever they agreed before it (`HeapInv.kmalloc_eqOn`).

First fit also fixes the order of what it hands out. A request that is at least as large as an
earlier one gets a higher address, as long as nothing is freed in between (`ShortBelow`).
-/

open Arena

namespace Heap

variable {h k : Heap} {S : Set ℕ} {a w v n block : ℕ} {cur : Cursor}

theorem store_eqOn (hS : Set.EqOn h.mem k.mem S) :
    Set.EqOn (h.store a w v).mem (k.store a w v).mem S := by
  intro x hx
  change (h.mem.blit a w fun i ↦ UInt8.ofNat (v / 256 ^ i)) x =
    (k.mem.blit a w fun i ↦ UInt8.ofNat (v / 256 ^ i)) x
  by_cases hin : a ≤ x ∧ x < a + w
  · rw [ByteMem.blit_apply_of_mem hin.1 hin.2, ByteMem.blit_apply_of_mem hin.1 hin.2]
  · rw [ByteMem.blit_apply_of_not_mem (by omega), ByteMem.blit_apply_of_not_mem (by omega)]
    exact hS hx

theorem assign_eqOn (hS : Set.EqOn h.mem k.mem S) :
    Set.EqOn (h.assign cur v).mem (k.assign cur v).mem S := by
  cases cur with
  | head => exact hS
  | next b => exact store_eqOn hS

theorem memsetPage_eqOn (hS : Set.EqOn h.mem k.mem S) :
    Set.EqOn (Heap.memsetPage a v n h).mem (Heap.memsetPage a v n k).mem S := by
  induction n with
  | zero => exact hS
  | succ n ih => exact store_eqOn ih

/-- The header of a block, as a set of addresses. -/
def header (block : ℕ) : Set ℕ := {x | block ≤ x ∧ x < block + 8}

theorem size_eq_of_eqOn (hS : Set.EqOn h.mem k.mem S) (hblock : header block ⊆ S) :
    h.size block = k.size block :=
  ByteMem.loadLE_congr fun i hi ↦ hS (hblock ⟨by omega, by omega⟩)

theorem next_eq_of_eqOn (hS : Set.EqOn h.mem k.mem S) (hblock : header block ⊆ S) :
    h.next block = k.next block :=
  ByteMem.loadLE_congr fun i hi ↦ hS (hblock ⟨by omega, by omega⟩)

/-- Detaching a block reads its header only. -/
theorem detachBlock_eqOn (hS : Set.EqOn h.mem k.mem S) (hblock : header block ⊆ S) :
    Set.EqOn (detachBlock n cur block h).mem (detachBlock n cur block k).mem S := by
  rw [detachBlock, detachBlock, size_eq_of_eqOn hS hblock]
  split
  · have h₁ := store_eqOn (a := u32 (block + headerSize + n)) (w := 4)
      (v := sub32 (sub32 (k.size block) n) headerSize) hS
    have hnext := next_eq_of_eqOn h₁ hblock
    refine store_eqOn (assign_eqOn ?_)
    change Set.EqOn (Heap.setNext _ _ (Heap.next (h.store _ 4 _) block)).mem _ S
    rw [hnext]
    exact store_eqOn h₁
  · rw [next_eq_of_eqOn hS hblock]
    exact assign_eqOn hS

/-- So does taking it. -/
theorem takeBlock_eqOn (cur : Cursor) (hS : Set.EqOn h.mem k.mem S) (hblock : header block ⊆ S) :
    Set.EqOn (takeBlock n cur block h).2.mem (takeBlock n cur block k).2.mem S :=
  memsetPage_eqOn (detachBlock_eqOn hS hblock)

end Heap

/-! ### The order of the blocks -/

section Order

variable {lo hi m n p q K : ℕ} {cells cells' cells₁ : List Cell}

/-- Every unused cell below `p` is shorter than `K`. -/
def ShortBelow (p K : ℕ) (cells : List Cell) : Prop := ∀ d ∈ unused cells, d.ptr < p → d.len < K

theorem mem_unused_carve {xs ys : List Cell} {c d : Cell} (hd : d ∈ unused (carve n xs c ys)) :
    d ∈ unused (xs ++ ys) ∨ c.addr + (n + 8) = d.addr ∧ d.len + (n + 8) = c.len := by
  rw [unused_carve, List.mem_append, List.mem_append] at hd
  rw [unused_append, List.mem_append]
  rcases hd with hmem | hmem | hmem
  · exact Or.inl (Or.inl hmem)
  · obtain ⟨-, haddr, hlen, -⟩ := of_mem_remainder hmem
    exact Or.inr ⟨haddr.symm, hlen⟩
  · exact Or.inl (Or.inr hmem)

/-- What is free below a block that was just handed out was too short for it. -/
theorem shortBelow_of_allocate (ht : Tiles lo hi cells) (h : allocate n cells = some (p, cells')) :
    ShortBelow p (requestSize n + 8) cells' := by
  obtain ⟨-, xs, c, ys, rfl, -, -, hfirst, rfl, rfl⟩ := allocate_eq_some.1 h
  intro d hd hlt
  rw [d.ptr_eq, c.ptr_eq] at hlt
  rcases mem_unused_carve hd with hmem | ⟨haddr, -⟩
  · rw [unused_append, List.mem_append] at hmem
    rcases hmem with hmem | hmem
    · exact hfirst d hmem
    · have := ht.around.2 d (mem_unused.1 hmem).1
      omega
  · omega

/-- It stays too short. -/
theorem ShortBelow.after_allocate (hs : ShortBelow p K cells)
    (h : allocate m cells = some (q, cells')) : ShortBelow p K cells' := by
  obtain ⟨-, xs, c, ys, rfl, hc, -, -, -, rfl⟩ := allocate_eq_some.1 h
  intro d hd hlt
  rcases mem_unused_carve hd with hmem | ⟨haddr, hlen⟩
  · refine hs d ?_ hlt
    rw [unused_append, List.mem_append] at hmem
    rw [unused_append, unused_cons_of_unused hc, List.mem_append, List.mem_cons]
    exact hmem.imp_right Or.inr
  · rw [d.ptr_eq] at hlt
    have := hs c (mem_unused.2 ⟨by simp, hc⟩) (by rw [c.ptr_eq]; omega)
    omega

/-- A later request that is as large comes to lie higher. -/
theorem ShortBelow.le_of_allocate (hs : ShortBelow p (requestSize n + 8) cells)
    (hle : requestSize n ≤ requestSize m) (h : allocate m cells = some (q, cells')) : p ≤ q := by
  obtain ⟨-, xs, c, ys, rfl, hc, hfit, -, rfl, -⟩ := allocate_eq_some.1 h
  by_contra hlt
  have := hs c (mem_unused.2 ⟨by simp, hc⟩) (by omega)
  omega

end Order

/-! ### Two heaps with the same cells -/

namespace HeapInv

variable {lo hi n p : ℕ} {h h' k k' : Heap} {cells cells' : List Cell} {S : Set ℕ}

/-- A request that is served takes the first block that fits. -/
theorem kmalloc_eq_takeBlock {xs ys : List Cell} {c : Cell} (hinv : HeapInv lo hi h (xs ++ c :: ys))
    (hn : n ≠ 0) (hc : c.used = false) (hfit : requestSize n + 8 ≤ c.len)
    (hfirst : ∀ d ∈ unused xs, d.len < requestSize n + 8) :
    kmalloc n h = some (takeBlock (requestSize n) (Cursor.head.after (unused xs)) c.addr h) := by
  have hchain := hinv.chain
  have hlen := hinv.unused_length_lt
  rw [unused_append, unused_cons_of_unused hc] at hchain hlen
  have hnull : ¬ h.freeListHead = 0 := by
    cases hxs : unused xs with
    | nil =>
      rw [hxs] at hchain
      rw [show h.freeListHead = c.addr from hchain.1]
      exact hchain.2.1
    | cons d ds =>
      rw [hxs] at hchain
      rw [show h.freeListHead = d.addr from hchain.1]
      exact hchain.2.1
  rw [kmalloc, if_neg hn, if_neg hnull]
  exact Heap.kmallocWalk_of_first hchain (by simp at hlen; omega) hfirst hfit

/-- **The clients' bytes do not matter to `kmalloc`.** -/
theorem kmalloc_eqOn (hinv : HeapInv lo hi h cells) (hinv' : HeapInv lo hi k cells)
    (hS : Set.EqOn h.mem k.mem S) (hclient : ∀ x, ¬ Client lo hi cells x → x ∈ S)
    (hsome : allocate n cells = some (p, cells')) (hh : kmalloc n h = some (p, h'))
    (hk : kmalloc n k = some (p, k')) : Set.EqOn h'.mem k'.mem S := by
  obtain ⟨hn, xs, c, ys, rfl, hc, hfit, hfirst, -, -⟩ := allocate_eq_some.1 hsome
  have hcm : c ∈ xs ++ c :: ys := by simp
  have hblock : Heap.header c.addr ⊆ S := fun x hx ↦
    hclient x fun hx' ↦ hinv.not_clientByte_header hcm hx.1 hx.2 (hinv.clientByte_iff.2 hx')
  rw [hinv.kmalloc_eq_takeBlock hn hc hfit hfirst] at hh
  rw [hinv'.kmalloc_eq_takeBlock hn hc hfit hfirst] at hk
  have htake := Heap.takeBlock_eqOn (n := requestSize n) (Cursor.head.after (unused xs)) hS hblock
  rw [Option.some.inj hh, Option.some.inj hk] at htake
  exact htake

end HeapInv

/-! ### Freeing -/

namespace Heap

variable {h k : Heap} {S : Set ℕ} {b : Cell} {xs ys : List Cell} {block prev v : ℕ}

theorem next_setSize_self : (h.setSize block v).next block = h.next block :=
  ByteMem.loadLE_storeLE_of_disjoint (by omega)

/-- Forward coalescing reads the headers of the block and of its successor. -/
theorem mergeNext_eqOn (hS : Set.EqOn h.mem k.mem S) (hblock : header block ⊆ S)
    (hnext : h.next block ≠ 0 → header (h.next block) ⊆ S) :
    Set.EqOn (mergeNext block h).mem (mergeNext block k).mem S := by
  rw [mergeNext, mergeNext, ← next_eq_of_eqOn hS hblock, ← size_eq_of_eqOn hS hblock]
  split_ifs with hmerge
  · have h₁ : Set.EqOn
        (h.setSize block (u32 (h.size block + headerSize + h.size (h.next block)))).mem
        (k.setSize block (u32 (h.size block + headerSize + h.size (h.next block)))).mem S :=
      store_eqOn hS
    dsimp only
    rw [← size_eq_of_eqOn hS (hnext hmerge.1), next_setSize_self, next_setSize_self,
      ← next_eq_of_eqOn hS hblock, next_eq_of_eqOn h₁ (hnext hmerge.1)]
    exact store_eqOn h₁
  · exact hS

/-- Backward coalescing reads the headers of both blocks. -/
theorem mergePrev_eqOn (hS : Set.EqOn h.mem k.mem S) (hprev : header prev ⊆ S)
    (hblock : header block ⊆ S) :
    Set.EqOn (mergePrev prev block h).mem (mergePrev prev block k).mem S := by
  rw [mergePrev, mergePrev, ← size_eq_of_eqOn hS hprev]
  split_ifs
  · have h₁ : Set.EqOn (h.setSize prev (u32 (h.size prev + headerSize + h.size block))).mem
        (k.setSize prev (u32 (h.size prev + headerSize + h.size block))).mem S := store_eqOn hS
    dsimp only
    rw [← size_eq_of_eqOn hS hblock, next_eq_of_eqOn h₁ hblock]
    exact store_eqOn h₁
  · exact hS

/-- `insert_free_block_sorted` without its walks, on a list that it keeps in order. -/
theorem insertFreeBlockSorted_eq (hc : h.FreeChain .head (xs ++ ys))
    (hb : h.size b.addr + headerSize = b.len) (ho : Ordered (xs ++ b :: ys))
    (hlen : xs.length < listFuel) :
    insertFreeBlockSorted b.addr h = some (match xs.getLast? with
      | none => mergeNext b.addr ((h.setNext b.addr (h.deref (Cursor.head.after xs))).assign
          (Cursor.head.after xs) b.addr)
      | some p => mergePrev p.addr b.addr (mergeNext b.addr ((h.setNext b.addr
          (h.deref (Cursor.head.after xs))).assign (Cursor.head.after xs) b.addr))) := by
  have hpoint : insertionPoint b.addr listFuel .head h = some (Cursor.head.after xs) := by
    refine insertionPoint_eq hc hlen ?_ ?_
    · intro d hd
      have := ho.header_end_le hd
      omega
    · intro d hd
      have := ho.stop_le_addr hd
      omega
  have hlinked := link_spec hc hb ho
  have hnull : b.addr ≠ 0 := (ho.addr_pos b (by simp)).ne'
  rw [insertFreeBlockSorted, if_neg hnull, hpoint]
  simp only [Option.bind_eq_bind, Option.bind_some]
  generalize (h.setNext b.addr (h.deref (Cursor.head.after xs))).assign (Cursor.head.after xs)
    b.addr = h₁ at hlinked
  rcases List.eq_nil_or_concat' xs with rfl | ⟨zs, p, rfl⟩
  · rfl
  · obtain ⟨b', rest, hfuse, hb'⟩ := exists_fuse_eq_cons b ys
    have hchain : (mergeNext b.addr h₁).FreeChain .head (zs ++ p :: b' :: rest) := by
      have hchain := (mergeNext_fuses hlinked ho).1
      rwa [hfuse, List.append_assoc] at hchain
    have ho' : Ordered (zs ++ p :: b' :: rest) := by
      have ho' := ho.fuse
      rwa [hfuse, List.append_assoc] at ho'
    rw [List.length_append, List.length_singleton] at hlen
    have hpred := (mergePrev_fuses hchain ho' (by omega)).1
    rw [hb'] at hpred
    rw [Cursor.after_append_singleton, if_neg (fun hcon ↦ Cursor.noConfusion hcon), hpred,
      Option.bind_some, List.getLast?_append, List.getLast?_singleton]
    rfl

/-- What a list of blocks starts with. -/
theorem deref_eq_of_freeChain {cur : Cursor} {cs : List Cell} (hc : h.FreeChain cur cs) :
    h.deref cur = (cs.head?.map Cell.addr).getD 0 := by
  cases cs with
  | nil => exact hc
  | cons c cs => exact hc.1

theorem insertFreeBlockSorted_eqOn {h' k' : Heap} (hc : h.FreeChain .head (xs ++ ys))
    (hc' : k.FreeChain .head (xs ++ ys)) (hb : h.size b.addr + headerSize = b.len)
    (hb' : k.size b.addr + headerSize = b.len) (ho : Ordered (xs ++ b :: ys))
    (hlen : xs.length < listFuel) (hS : Set.EqOn h.mem k.mem S)
    (hheaders : ∀ d ∈ xs ++ b :: ys, header d.addr ⊆ S)
    (hh : insertFreeBlockSorted b.addr h = some h')
    (hk : insertFreeBlockSorted b.addr k = some k') : Set.EqOn h'.mem k'.mem S := by
  have hderef : h.deref (Cursor.head.after xs) = k.deref (Cursor.head.after xs) := by
    rw [deref_eq_of_freeChain (freeChain_append.1 hc).2,
      deref_eq_of_freeChain (freeChain_append.1 hc').2]
  have hlinked := (freeChain_append.1 (link_spec hc hb ho)).2
  have h₁ : Set.EqOn ((h.setNext b.addr (h.deref (Cursor.head.after xs))).assign
        (Cursor.head.after xs) b.addr).mem
      ((k.setNext b.addr (k.deref (Cursor.head.after xs))).assign
        (Cursor.head.after xs) b.addr).mem S := by
    rw [hderef]
    exact assign_eqOn (store_eqOn hS)
  rw [insertFreeBlockSorted_eq hc hb ho hlen] at hh
  rw [insertFreeBlockSorted_eq hc' hb' ho hlen] at hk
  generalize (h.setNext b.addr (h.deref (Cursor.head.after xs))).assign (Cursor.head.after xs)
    b.addr = h₂ at hlinked h₁ hh
  generalize (k.setNext b.addr (k.deref (Cursor.head.after xs))).assign (Cursor.head.after xs)
    b.addr = k₂ at h₁ hk
  have hmerge : Set.EqOn (mergeNext b.addr h₂).mem (mergeNext b.addr k₂).mem S := by
    refine mergeNext_eqOn h₁ (hheaders b (by simp)) fun hne ↦ ?_
    have hnext : h₂.next b.addr = _ := deref_eq_of_freeChain hlinked.2.2.2
    cases ys with
    | nil => exact absurd hnext hne
    | cons g gs =>
      rw [hnext]
      exact hheaders g (by simp)
  rw [← Option.some.inj hh, ← Option.some.inj hk]
  rcases List.eq_nil_or_concat' xs with rfl | ⟨zs, p, rfl⟩
  · exact hmerge
  · rw [List.getLast?_append, List.getLast?_singleton]
    exact mergePrev_eqOn hmerge (hheaders p (by simp)) (hheaders b (by simp))

end Heap

namespace HeapInv

variable {lo hi : ℕ} {h h' k k' : Heap} {cells : List Cell} {c : Cell} {S : Set ℕ}

/-- **Nor do they matter to `kfree`.** -/
theorem kfree_eqOn (hinv : HeapInv lo hi h cells) (hinv' : HeapInv lo hi k cells)
    (hS : Set.EqOn h.mem k.mem S) (hclient : ∀ x, ¬ Client lo hi cells x → x ∈ S) (hc : c ∈ cells)
    (hu : c.used = true) (hh : kfree c.ptr h = some h') (hk : kfree c.ptr k = some k') :
    Set.EqOn h'.mem k'.mem S := by
  have hheader : ∀ d ∈ cells, Heap.header d.addr ⊆ S := fun d hd x hx ↦
    hclient x fun hx' ↦ hinv.not_clientByte_header hd hx.1 hx.2 (hinv.clientByte_iff.2 hx')
  obtain ⟨xs, ys, rfl⟩ := List.append_of_mem hc
  have hord := hinv.ordered_retag
  have hfree : unused (xs ++ { c with used := false } :: ys) =
      unused xs ++ { c with used := false } :: unused ys := by
    rw [unused_append, unused_cons_of_unused rfl]
  have hchain := hinv.chain
  have hchain' := hinv'.chain
  rw [unused_append, unused_cons_of_used hu] at hchain hchain'
  have hord' : Heap.Ordered (unused xs ++ { c with used := false } :: unused ys) :=
    hfree ▸ hord.sublist List.filter_sublist
  have hlen : (unused xs).length < listFuel := by
    have := hinv.unused_length_lt
    rw [unused_append, List.length_append] at this
    omega
  have hptr : sub32 c.ptr headerSize = c.addr := by
    have := hord.stop_le { c with used := false } (by simp)
    have hlen : 8 ≤ c.len := hinv.eight_le hc
    show (c.addr + 8 + 2 ^ 32 - 8) % 2 ^ 32 = c.addr
    simp only at this
    omega
  have hnull : c.ptr ≠ 0 := Nat.succ_ne_zero _
  rw [kfree, if_neg hnull, hptr, Option.bind_eq_bind, Option.bind_eq_some_iff] at hh hk
  obtain ⟨h₁, hh₁, hh⟩ := hh
  obtain ⟨k₁, hk₁, hk⟩ := hk
  have hmem : Set.EqOn h₁.mem k₁.mem S := by
    refine Heap.insertFreeBlockSorted_eqOn (b := { c with used := false }) hchain hchain'
      (hinv.recorded c hc hu) (hinv'.recorded c hc hu) hord' hlen hS ?_ hh₁ hk₁
    intro d hd
    rw [List.mem_append, List.mem_cons] at hd
    rcases hd with h₂ | rfl | h₂
    · exact hheader d (by simp [(mem_unused.1 h₂).1])
    · exact hheader c hc
    · exact hheader d (by simp [(mem_unused.1 h₂).1])
  rw [← Option.some.inj hh, ← Option.some.inj hk]
  exact hmem

end HeapInv
