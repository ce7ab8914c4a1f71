import BinbowsDOS.Foundations.Trace
import BinbowsDOS.Heap.Clients
import BinbowsDOS.Heap.LiveData

/-!
# The heap with interrupts

`kmalloc` and `kfree` mask interrupts while they are at the free list. `kmalloc` lets them in again
before it clears the block that it has taken, a byte at a time, so a handler may find any number of
blocks half cleared when it calls the allocator itself.

A call takes effect in its masked part. Every interleaving of calls is matched by the run of whole
calls in the order of these parts, which returns the same pointers and leaves the same memory, but
for the bytes that are still to be cleared (`matched_by_whole_calls`). Until a call returns, other
calls may come, and the block that it has taken is clear when it does (`clear_when_returned`).
-/

open Arena

/-- The loop of `kmalloc`, up to `restore_flags`. -/
def lockedWalk (size : ℕ) : ℕ → Cursor → Heap → Option (ℕ × Heap)
  | 0, _, _ => none
  | fuel + 1, current, h =>
    let block := h.deref current
    if block = 0 then some (0, h)
    else if size ≤ h.size block then
      let result := u32 (block + headerSize)
      some (result, { detachBlock size current block h with
        live := result :: (detachBlock size current block h).live })
    else lockedWalk size fuel (.next block) h

/-- `kmalloc` up to `restore_flags`. -/
def kmallocLocked (size : ℕ) (h : Heap) : Option (ℕ × Heap) :=
  if size = 0 then some (0, h)
  else if h.freeListHead = 0 then some (0, h)
  else lockedWalk (requestSize size) listFuel .head h

/-- A `memset_page` of `kmalloc` under way. -/
structure Clearing where
  ptr : ℕ
  size : ℕ
  /-- The bytes that are cleared. -/
  done : ℕ

/-- The heap and the calls of `kmalloc` that have not returned. -/
structure BusyHeap where
  heap : Heap
  clearings : List Clearing

/-- What happens to a heap. -/
inductive HeapEvent
  /-- The masked part of `kmalloc(n)`, with the pointer that the call is going to return. -/
  | malloc (n p : ℕ)
  /-- A byte of this block is cleared. -/
  | clear (p : ℕ)
  /-- `kmalloc` returns. -/
  | ret (p : ℕ)
  /-- The masked part of `kfree(p)`. -/
  | free (p : ℕ)
  /-- A client changes bytes of its own. -/
  | client

/-- The whole call that an event stands for. -/
def HeapEvent.call : HeapEvent → Option HeapEvent
  | clear _ => none
  | ret _ => none
  | e => some e

namespace BusyHeap

variable {lo hi : ℕ}

/-- A byte that `kmalloc` has still to clear. -/
def Uncleared (s : BusyHeap) (x : ℕ) : Prop :=
  ∃ c ∈ s.clearings, c.ptr + c.done ≤ x ∧ x < c.ptr + c.size

/-- A byte outside the region, or in a block that `kmalloc` has returned. -/
def Held (lo hi : ℕ) (s : BusyHeap) (x : ℕ) : Prop :=
  (x < lo ∨ hi ≤ x) ∨ ∃ p ∈ s.heap.live, (∀ c ∈ s.clearings, c.ptr ≠ p) ∧
    p ≤ x ∧ x < p + s.heap.size (p - headerSize)

/-- An event among the calls of any number of contexts. -/
def Step (lo hi : ℕ) : HeapEvent → BusyHeap → BusyHeap → Prop
  | .malloc n p, s, s' => ∃ h', kmallocLocked n s.heap = some (p, h') ∧
      s' = ⟨h', if p = 0 then s.clearings else ⟨p, requestSize n, 0⟩ :: s.clearings⟩
  | .clear p, s, s' => ∃ before c after, s.clearings = before ++ c :: after ∧ c.ptr = p ∧
      c.done < c.size ∧
      s' = ⟨s.heap.store (p + c.done) 1 0, before ++ { c with done := c.done + 1 } :: after⟩
  | .ret p, s, s' => ∃ before c after, s.clearings = before ++ c :: after ∧ c.ptr = p ∧
      c.done = c.size ∧ s' = ⟨s.heap, before ++ after⟩
  | .free p, s, s' => p ∈ s.heap.live ∧ (∀ c ∈ s.clearings, c.ptr ≠ p) ∧
      ∃ h', kfree p s.heap = some h' ∧ s' = ⟨h', s.clearings⟩
  | .client, s, s' => ∃ mem : ByteMem, (∀ x, ¬ s.Held lo hi x → mem x = s.heap.mem x) ∧
      s' = ⟨{ s.heap with mem := mem }, s.clearings⟩

/-- A call of `kmalloc` that is going to return `p` has still to clear `m` bytes there. -/
def Pending (p m : ℕ) (s : BusyHeap) : Prop := ∃ c ∈ s.clearings, c.ptr = p ∧ c.size = m

end BusyHeap

/-- An event among whole calls. -/
def Heap.Call (lo hi : ℕ) : HeapEvent → Heap → Heap → Prop
  | .malloc n p, h, h' => kmalloc n h = some (p, h')
  | .free p, h, h' => p ∈ h.live ∧ kfree p h = some h'
  | .client, h, h' => ∃ mem : ByteMem, (∀ x, ¬ h.ClientByte lo hi x → mem x = h.mem x) ∧
      h' = { h with mem := mem }
  | _, _, _ => False

/-! ### The masked part of `kmalloc` -/

namespace Heap

variable {h k : Heap} {n : ℕ} {cur : Cursor} {c : Cell} {xs ys cs : List Cell}

theorem lockedWalk_of_forall_lt {fuel : ℕ} (hc : h.FreeChain cur cs) (hfuel : cs.length < fuel)
    (hall : ∀ c ∈ cs, c.len < n + headerSize) : lockedWalk n fuel cur h = some (0, h) := by
  induction cs generalizing cur fuel with
  | nil =>
    obtain ⟨fuel, rfl⟩ := Nat.exists_eq_succ_of_ne_zero (by omega : fuel ≠ 0)
    exact if_pos hc
  | cons c cs ih =>
    obtain ⟨fuel, rfl⟩ := Nat.exists_eq_succ_of_ne_zero (by omega : fuel ≠ 0)
    obtain ⟨hptr, hnull, hsize, hrest⟩ := hc
    have hlt := hall c (by simp)
    rw [lockedWalk, hptr, if_neg hnull, if_neg (by omega)]
    exact ih hrest (by simpa using hfuel) fun d hd ↦ hall d (List.mem_cons_of_mem c hd)

theorem lockedWalk_of_first {fuel : ℕ} (hc : h.FreeChain cur (xs ++ c :: ys))
    (hfuel : xs.length < fuel) (hxs : ∀ d ∈ xs, d.len < n + headerSize)
    (hfit : n + headerSize ≤ c.len) :
    lockedWalk n fuel cur h = some (u32 (c.addr + headerSize),
      { detachBlock n (cur.after xs) c.addr h with
        live := u32 (c.addr + headerSize) :: (detachBlock n (cur.after xs) c.addr h).live }) := by
  induction xs generalizing cur fuel with
  | nil =>
    obtain ⟨fuel, rfl⟩ := Nat.exists_eq_succ_of_ne_zero (by omega : fuel ≠ 0)
    obtain ⟨hptr, hnull, hsize, -⟩ := hc
    rw [lockedWalk, hptr, if_neg hnull, if_pos (by omega)]
    rfl
  | cons d xs ih =>
    obtain ⟨fuel, rfl⟩ := Nat.exists_eq_succ_of_ne_zero (by omega : fuel ≠ 0)
    obtain ⟨hptr, hnull, hsize, hrest⟩ := hc
    have hlt := hxs d (by simp)
    rw [lockedWalk, hptr, if_neg hnull, if_neg (by omega)]
    exact ih hrest (by simpa using hfuel) fun e he ↦ hxs e (List.mem_cons_of_mem d he)

end Heap

namespace HeapInv

variable {lo hi n p : ℕ} {h k : Heap} {cells cells' : List Cell}

/-- The invariant does not see what the clients store, nor the record of writes. -/
theorem of_client (hinv : HeapInv lo hi h cells) (hhead : k.freeListHead = h.freeListHead)
    (hlive : k.live = h.live) (hmem : ∀ x, ¬ Client lo hi cells x → k.mem x = h.mem x) :
    HeapInv lo hi k cells := by
  have hclient := hinv.client hmem
  exact ⟨hclient.base_le, hclient.stop_le, hclient.tiles, hclient.coalesced, hclient.aligned,
    hclient.header_le, hclient.chain.move hhead fun _ _ ↦ ⟨rfl, rfl⟩, hclient.recorded,
    hlive ▸ hclient.ledger⟩

/-- The free list of two heaps with the same cells starts alike. -/
theorem freeListHead_eq (hinv : HeapInv lo hi h cells) (hinv' : HeapInv lo hi k cells) :
    h.freeListHead = k.freeListHead := by
  have hhead : h.deref .head = _ := Heap.deref_eq_of_freeChain hinv.chain
  have hhead' : k.deref .head = _ := Heap.deref_eq_of_freeChain hinv'.chain
  exact hhead.trans hhead'.symm

theorem kmallocLocked_of_none (hinv : HeapInv lo hi h cells) (hnone : allocate n cells = none) :
    kmallocLocked n h = some (0, h) := by
  rw [kmallocLocked]
  split_ifs with hn
  · rfl
  · rfl
  · rcases hinv.kmalloc_spec hn with ⟨-, hall⟩ | ⟨xs, c, ys, h', hcells, hc, hfit, hfirst, -⟩
    · exact Heap.lockedWalk_of_forall_lt hinv.chain hinv.unused_length_lt hall
    · rw [allocate_eq_some.2 ⟨hn, xs, c, ys, hcells, hc, hfit, hfirst, rfl, rfl⟩] at hnone
      cases hnone

/-- **The masked part** of a request that is served: the block is detached, and all that a whole
call does besides is to clear it. -/
theorem kmallocLocked_of_first {xs ys : List Cell} {c : Cell}
    (hinv : HeapInv lo hi h (xs ++ c :: ys)) (hn : n ≠ 0) (hc : c.used = false)
    (hfit : requestSize n + 8 ≤ c.len) (hfirst : ∀ d ∈ unused xs, d.len < requestSize n + 8) :
    ∃ h₁ h₂, kmallocLocked n h = some (c.ptr, h₁) ∧ kmalloc n h = some (c.ptr, h₂) ∧
      h₁.mem = (detachBlock (requestSize n) (Cursor.head.after (unused xs)) c.addr h).mem ∧
      (∀ x, x < c.ptr ∨ c.ptr + requestSize n ≤ x → h₂.mem x = h₁.mem x) ∧
      HeapInv lo hi h₁ (carve (requestSize n) xs c ys) ∧ h₁.live = c.ptr :: h.live := by
  have hsome : allocate n (xs ++ c :: ys) = some (c.ptr, carve (requestSize n) xs c ys) :=
    allocate_eq_some.2 ⟨hn, xs, c, ys, rfl, hc, hfit, hfirst, rfl, rfl⟩
  obtain ⟨h₂, hcall, hinv₂, hlive₂, -, -⟩ := hinv.kmalloc_of_some hsome
  have htake := hinv.kmalloc_eq_takeBlock hn hc hfit hfirst
  have hchain := hinv.chain
  have hlen := hinv.unused_length_lt
  rw [unused_append, unused_cons_of_unused hc] at hchain hlen
  have hnull : h.freeListHead ≠ 0 := by
    intro hnull
    have hhead : h.deref .head = _ := Heap.deref_eq_of_freeChain hchain
    cases hxs : unused xs with
    | nil =>
      rw [hxs] at hhead hchain
      exact hchain.2.1 (hhead.symm.trans hnull)
    | cons d ds =>
      rw [hxs] at hhead hchain
      exact hchain.2.1 (hhead.symm.trans hnull)
  have hlocked : lockedWalk (requestSize n) listFuel .head h = _ :=
    Heap.lockedWalk_of_first hchain (by simp at hlen; omega) hfirst hfit
  have hptr : u32 (c.addr + headerSize) = c.ptr := by
    rw [htake] at hcall
    exact (Prod.mk.inj (Option.some.inj hcall)).1
  rw [hptr] at hlocked
  have htaken : h₂ = { Heap.memsetPage c.ptr 0 (requestSize n)
      (detachBlock (requestSize n) (Cursor.head.after (unused xs)) c.addr h) with
      live := c.ptr ::
        (detachBlock (requestSize n) (Cursor.head.after (unused xs)) c.addr h).live } := by
    rw [htake, takeBlock, hptr] at hcall
    exact (Prod.mk.inj (Option.some.inj hcall)).2.symm
  have hmem : ∀ x, x < c.ptr ∨ c.ptr + requestSize n ≤ x → h₂.mem x =
      (detachBlock (requestSize n) (Cursor.head.after (unused xs)) c.addr h).mem x := by
    intro x hx
    rw [htaken]
    dsimp only
    rw [Heap.mem_memsetPage]
    exact ByteMem.blit_apply_of_not_mem hx
  refine ⟨{ detachBlock (requestSize n) (Cursor.head.after (unused xs)) c.addr h with
    live := c.ptr :: (detachBlock (requestSize n) (Cursor.head.after (unused xs)) c.addr h).live },
    h₂, ?_, hcall, rfl, hmem, ?_, ?_⟩
  · rw [kmallocLocked, if_neg hn, if_neg hnull]
    exact hlocked
  · refine hinv₂.of_client ?_ ?_ fun x hx ↦ ?_
    · rw [htaken]
      dsimp only
      exact Heap.freeListHead_memsetPage.symm
    · rw [htaken]
    · refine (hmem x ?_).symm
      by_contra hin
      exact hx (client_of_allocate hsome (by omega) (by omega))
  · rw [htaken] at hlive₂
    exact hlive₂

end HeapInv

/-! ### Matching -/

/-- The heap with interrupts and the one of whole calls have the same cells and the same bytes, but
for those that are still to be cleared. -/
structure Matches (lo hi : ℕ) (s : BusyHeap) (k : Heap) (cells : List Cell) : Prop where
  inv : HeapInv lo hi s.heap cells
  inv' : HeapInv lo hi k cells
  live : s.heap.live = k.live
  mem : Set.EqOn s.heap.mem k.mem {x | ¬ s.Uncleared x}
  zero : ∀ c ∈ s.clearings, ∀ x, c.ptr ≤ x → x < c.ptr + c.size → k.mem x = 0
  held : ∀ c ∈ s.clearings, ∃ d ∈ cells, d.used = true ∧ d.ptr = c.ptr ∧
    c.ptr + c.size ≤ d.addr + d.len
  nodup : (s.clearings.map Clearing.ptr).Nodup

namespace Matches

variable {lo hi n p x : ℕ} {s s' : BusyHeap} {k : Heap} {cells cells' : List Cell} {c : Clearing}
  {e : HeapEvent}

/-- The bytes of a block that is being cleared are payload. -/
theorem client (hm : Matches lo hi s k cells) (hc : c ∈ s.clearings) (h₁ : c.ptr ≤ x)
    (h₂ : x < c.ptr + c.size) : Client lo hi cells x := by
  obtain ⟨d, hd, hu, hptr, hlen⟩ := hm.held c hc
  exact .inr ⟨d, hd, hu, by omega, by omega⟩

theorem client_of_uncleared (hm : Matches lo hi s k cells) (hx : s.Uncleared x) :
    Client lo hi cells x := by
  obtain ⟨c, hc, h₁, h₂⟩ := hx
  exact hm.client hc (by omega) h₂

theorem mem_live (hm : Matches lo hi s k cells) (hc : c ∈ s.clearings) : c.ptr ∈ s.heap.live := by
  obtain ⟨d, hd, hu, hptr, -⟩ := hm.held c hc
  exact hptr ▸ hm.inv.ptr_mem_live hd hu

/-- Nobody holds it yet. -/
theorem not_held (hm : Matches lo hi s k cells) (hc : c ∈ s.clearings) (h₁ : c.ptr ≤ x)
    (h₂ : x < c.ptr + c.size) : ¬ s.Held lo hi x := by
  obtain ⟨d, hd, hu, hptr, hlen⟩ := hm.held c hc
  have hcover : d.Covers x := by
    rw [d.ptr_eq] at hptr
    exact ⟨by omega, by omega⟩
  rintro (hout | ⟨q, hq, hne, h₃, h₄⟩)
  · have hbounds := hm.inv.tiles.bounds hd
    have h₅ := hcover.1
    have h₆ := hcover.2
    omega
  · obtain ⟨d', hd', hu', rfl⟩ := hm.inv.exists_cell hq
    have hrec := hm.inv.recorded_eq hd' hu'
    rw [d'.ptr_sub_headerSize, d'.ptr_eq] at h₄
    rw [d'.ptr_eq] at h₃
    have hsame := hm.inv.tiles.eq_of_covers hd hd' hcover ⟨by omega, by omega⟩
    exact hne c hc (by rw [← hsame, hptr])

theorem client_of_held (hm : Matches lo hi s k cells) (hx : s.Held lo hi x) :
    k.ClientByte lo hi x := by
  rw [hm.inv'.clientByte_iff, ← hm.inv.clientByte_iff]
  exact hx.imp_right fun ⟨q, hq, _, h₁, h₂⟩ ↦ ⟨q, hq, h₁, h₂⟩

/-- The used cells after an allocation. -/
theorem mem_of_allocate {d : Cell} (hsome : allocate n cells = some (p, cells')) (hd : d ∈ cells)
    (hu : d.used = true) : d ∈ cells' := by
  obtain ⟨e, -, -, -, hperm⟩ := exists_grantedCell hsome
  have hmem : d ∈ cells'.filter Cell.used :=
    hperm.mem_iff.2 (List.mem_cons_of_mem _ (List.mem_filter.2 ⟨hd, hu⟩))
  exact (List.mem_filter.1 hmem).1

/-- **The masked part of `kmalloc`.** -/
theorem malloc (hm : Matches lo hi s k cells) (h : BusyHeap.Step lo hi (.malloc n p) s s') :
    ∃ k' cells', kmalloc n k = some (p, k') ∧ Matches lo hi s' k' cells' := by
  obtain ⟨h', hcall, rfl⟩ := h
  cases hsome : allocate n cells with
  | none =>
    rw [hm.inv.kmallocLocked_of_none hsome] at hcall
    obtain ⟨rfl, rfl⟩ := Prod.mk.inj (Option.some.inj hcall)
    exact ⟨k, cells, hm.inv'.kmalloc_of_none hsome, hm⟩
  | some r =>
    obtain ⟨q, cells'⟩ := r
    obtain ⟨k₂, hk₂, hinvk, hlivek, hkeep, hzero⟩ := hm.inv'.kmalloc_of_some hsome
    obtain ⟨hn, xs, c, ys, rfl, hc, hfit, hfirst, rfl, rfl⟩ := allocate_eq_some.1 hsome
    obtain ⟨h₁, -, hlocked, -, hmem₁, -, hinv₁, hlive₁⟩ :=
      hm.inv.kmallocLocked_of_first hn hc hfit hfirst
    obtain ⟨k₁, k₂', -, hwhole, hmemk₁, hmemk₂, -, -⟩ :=
      hm.inv'.kmallocLocked_of_first hn hc hfit hfirst
    obtain rfl : k₂ = k₂' := (Prod.mk.inj (Option.some.inj (hk₂.symm.trans hwhole))).2
    rw [hlocked] at hcall
    obtain ⟨rfl, rfl⟩ := Prod.mk.inj (Option.some.inj hcall)
    have hne : c.ptr ≠ 0 := Nat.succ_ne_zero _
    have hblock : Heap.header c.addr ⊆ {x | ¬ s.Uncleared x} := fun x hx hx' ↦
      hm.inv.not_clientByte_header (by simp) hx.1 hx.2
        (hm.inv.clientByte_iff.2 (hm.client_of_uncleared hx'))
    have hdetach : Set.EqOn h₁.mem k₁.mem {x | ¬ s.Uncleared x} := by
      rw [hmem₁, hmemk₁]
      exact Heap.detachBlock_eqOn hm.mem hblock
    refine ⟨k₂, _, hk₂, hinv₁, hinvk, ?_, ?_, ?_, ?_, ?_⟩
    · rw [hlive₁, hlivek, hm.live]
    · intro x hx
      rw [if_neg hne] at hx
      have hout : x < c.ptr ∨ c.ptr + requestSize n ≤ x := by
        by_contra hin
        exact hx ⟨⟨c.ptr, requestSize n, 0⟩, List.mem_cons_self, by simp only; omega,
          by simp only; omega⟩
      rw [hmemk₂ x hout]
      exact hdetach fun ⟨d, hd, hd'⟩ ↦ hx ⟨d, List.mem_cons_of_mem _ hd, hd'⟩
    · intro d hd x h₁ h₂
      rw [if_neg hne, List.mem_cons] at hd
      rcases hd with rfl | hd
      · obtain ⟨i, rfl⟩ := Nat.exists_eq_add_of_le h₁
        exact hzero i (by simp only at h₂; omega)
      · rw [hkeep x (hm.client hd h₁ h₂)]
        exact hm.zero d hd x h₁ h₂
    · intro d hd
      rw [if_neg hne, List.mem_cons] at hd
      rcases hd with rfl | hd
      · obtain ⟨e, hu, hptr, hlen, hperm⟩ := exists_grantedCell hsome
        have hmem := hperm.mem_iff.2 List.mem_cons_self
        exact ⟨e, (List.mem_filter.1 hmem).1, hu, hptr, hlen⟩
      · obtain ⟨e, he, hu, hptr, hlen⟩ := hm.held d hd
        exact ⟨e, mem_of_allocate hsome he hu, hu, hptr, hlen⟩
    · rw [if_neg hne, List.map_cons, List.nodup_cons]
      refine ⟨fun hin ↦ ?_, hm.nodup⟩
      obtain ⟨d, hd, hptr⟩ := List.mem_map.1 hin
      have hnodup := hinv₁.live_nodup
      rw [hlive₁, List.nodup_cons] at hnodup
      have hmem := hm.mem_live hd
      rw [hptr] at hmem
      exact hnodup.1 hmem

/-- **A byte is cleared.** -/
theorem clear (hm : Matches lo hi s k cells) (h : BusyHeap.Step lo hi (.clear p) s s') :
    Matches lo hi s' k cells := by
  obtain ⟨before, c, after, hsplit, rfl, hlt, rfl⟩ := h
  have hc : c ∈ s.clearings := by simp [hsplit]
  have hmem : ∀ x, x ≠ c.ptr + c.done → (s.heap.store (c.ptr + c.done) 1 0).mem x = s.heap.mem x :=
    fun x hx ↦ ByteMem.storeLE_apply_of_not_mem (by omega)
  have hbyte : (s.heap.store (c.ptr + c.done) 1 0).mem (c.ptr + c.done) = 0 := by
    show (s.heap.mem.storeLE (c.ptr + c.done) 1 0) (c.ptr + c.done) = 0
    rw [ByteMem.storeLE, ByteMem.blit_apply_of_mem le_rfl (by omega), Nat.zero_div]
    rfl
  -- the other blocks, and this one with its new bound
  have hold : ∀ d ∈ before ++ { c with done := c.done + 1 } :: after,
      ∃ d' ∈ s.clearings, d'.ptr = d.ptr ∧ d'.size = d.size := by
    intro d hd
    rw [List.mem_append, List.mem_cons] at hd
    rcases hd with hd | rfl | hd
    · exact ⟨d, by simp [hsplit, hd], rfl, rfl⟩
    · exact ⟨c, hc, rfl, rfl⟩
    · exact ⟨d, by simp [hsplit, hd], rfl, rfl⟩
  refine ⟨hm.inv.of_client rfl rfl fun x hx ↦ hmem x ?_, hm.inv', hm.live, ?_, ?_, ?_, ?_⟩
  · rintro rfl
    exact hx (hm.client hc (by omega) (by omega))
  · intro x hx
    by_cases hxc : x = c.ptr + c.done
    · rw [hxc]
      exact hbyte.trans (hm.zero c hc _ (by omega) (by omega)).symm
    · refine (hmem x hxc).trans (hm.mem ?_)
      rintro ⟨d, hd, h₁, h₂⟩
      refine hx ?_
      rw [hsplit, List.mem_append, List.mem_cons] at hd
      rcases hd with hd | rfl | hd
      · exact ⟨d, by simp [hd], h₁, h₂⟩
      · exact ⟨{ d with done := d.done + 1 }, by simp, by simp only; omega, h₂⟩
      · exact ⟨d, by simp [hd], h₁, h₂⟩
  · intro d hd x h₁ h₂
    obtain ⟨d', hd', hptr, hsize⟩ := hold d hd
    exact hm.zero d' hd' x (by omega) (by omega)
  · intro d hd
    obtain ⟨d', hd', hptr, hsize⟩ := hold d hd
    obtain ⟨e, he, hu, heptr, hlen⟩ := hm.held d' hd'
    exact ⟨e, he, hu, heptr.trans hptr, by omega⟩
  · have hnodup := hm.nodup
    rw [hsplit, List.map_append, List.map_cons] at hnodup
    rw [List.map_append, List.map_cons]
    exact hnodup

/-- **`kmalloc` returns.** -/
theorem ret (hm : Matches lo hi s k cells) (h : BusyHeap.Step lo hi (.ret p) s s') :
    Matches lo hi s' k cells := by
  obtain ⟨before, c, after, hsplit, rfl, hdone, rfl⟩ := h
  have hsub : ∀ d ∈ before ++ after, d ∈ s.clearings := fun d hd ↦ by
    rw [hsplit, List.mem_append, List.mem_cons]
    exact (List.mem_append.1 hd).imp_right Or.inr
  refine ⟨hm.inv, hm.inv', hm.live, fun x hx ↦ hm.mem ?_, fun d hd ↦ hm.zero d (hsub d hd),
    fun d hd ↦ hm.held d (hsub d hd), ?_⟩
  · rintro ⟨d, hd, h₁, h₂⟩
    refine hx ?_
    rw [hsplit, List.mem_append, List.mem_cons] at hd
    rcases hd with hd | rfl | hd
    · exact ⟨d, by simp [hd], h₁, h₂⟩
    · omega
    · exact ⟨d, by simp [hd], h₁, h₂⟩
  · have hnodup := hm.nodup
    rw [hsplit, List.map_append, List.map_cons] at hnodup
    rw [List.map_append]
    exact hnodup.sublist (List.Sublist.append_left (List.sublist_cons_self _ _) _)

/-- **The clients store.** -/
theorem store (hm : Matches lo hi s k cells) (h : BusyHeap.Step lo hi .client s s') :
    ∃ k', Heap.Call lo hi .client k k' ∧ Matches lo hi s' k' cells := by
  classical
  obtain ⟨mem, hmem, rfl⟩ := h
  have hheld : ∀ x, ¬ Client lo hi cells x → ¬ s.Held lo hi x := fun x hx hx' ↦
    hx (hm.inv'.clientByte_iff.1 (hm.client_of_held hx'))
  have hsame : ∀ x, ¬ s.Held lo hi x →
      (if s.Uncleared x then k.mem x else mem x) = k.mem x := by
    intro x hx
    split_ifs with hun
    · rfl
    · exact (hmem x hx).trans (hm.mem hun)
  refine ⟨{ k with mem := fun x ↦ if s.Uncleared x then k.mem x else mem x },
    ⟨_, fun x hx ↦ hsame x fun hx' ↦ hx (hm.client_of_held hx'), rfl⟩,
    hm.inv.of_client rfl rfl fun x hx ↦ hmem x (hheld x hx),
    hm.inv'.of_client rfl rfl fun x hx ↦ hsame x (hheld x hx), hm.live, ?_, ?_, hm.held, hm.nodup⟩
  · intro x hx
    exact (if_neg hx).symm
  · intro c hc x h₁ h₂
    exact (hsame x (hm.not_held hc h₁ h₂)).trans (hm.zero c hc x h₁ h₂)

/-- The used cells after a block has been given back. -/
theorem mem_release {xs ys : List Cell} {d e : Cell} (he : e ∈ xs ++ d :: ys) (hu : e.used = true)
    (hne : e ≠ d) : e ∈ release xs d ys := by
  have hmem : e ∈ (release xs d ys).filter Cell.used := by
    rw [release, filter_used_coalesce]
    refine List.mem_filter.2 ⟨?_, hu⟩
    rw [List.mem_append, List.mem_cons] at he ⊢
    rcases he with he | he | he
    · exact .inl he
    · exact absurd he hne
    · exact .inr (.inr he)
  exact (List.mem_filter.1 hmem).1

/-- **The masked part of `kfree`.** -/
theorem free (hm : Matches lo hi s k cells) (h : BusyHeap.Step lo hi (.free p) s s') :
    ∃ k' cells', Heap.Call lo hi (.free p) k k' ∧ Matches lo hi s' k' cells' := by
  obtain ⟨hlive, hreturned, h', hcall, rfl⟩ := h
  obtain ⟨d, hd, hu, rfl⟩ := hm.inv.exists_cell hlive
  obtain ⟨d', hd', hu', hptr, k', hk', hw⟩ := hm.inv'.kfree_writesOnly (hm.live ▸ hlive)
  obtain rfl : d' = d := hm.inv.tiles.eq_of_addr_eq hd' hd (Nat.add_right_cancel hptr)
  obtain ⟨xs, ys, rfl⟩ := List.append_of_mem hd
  obtain ⟨h₁, hh₁, hinv, hlive₁, -⟩ := hm.inv.kfree_spec hu
  obtain ⟨k₁, hk₁, hinv', hlive₁', -⟩ := hm.inv'.kfree_spec hu
  obtain rfl := Option.some.inj (hcall.symm.trans hh₁)
  obtain rfl := Option.some.inj (hk'.symm.trans hk₁)
  have hother : ∀ c ∈ s.clearings, ∃ e ∈ xs ++ d' :: ys, e.used = true ∧ e ≠ d' ∧
      e.ptr = c.ptr ∧ c.ptr + c.size ≤ e.addr + e.len := fun c hc ↦ by
    obtain ⟨e, he, heu, heptr, hlen⟩ := hm.held c hc
    exact ⟨e, he, heu, fun heq ↦ hreturned c hc (by rw [← heptr, heq]), heptr, hlen⟩
  refine ⟨k', _, ⟨hm.live ▸ hlive, hk'⟩, hinv, hinv', ?_, ?_, ?_, ?_, hm.nodup⟩
  · rw [hlive₁, hlive₁', hm.live]
  · exact hm.inv.kfree_eqOn hm.inv' hm.mem
      (fun x hx hx' ↦ hx (hm.client_of_uncleared hx')) hd hu hcall hk'
  · intro c hc x h₂ h₃
    obtain ⟨e, he, heu, hne, heptr, hlen⟩ := hother c hc
    have hcover : e.Covers x := by
      rw [e.ptr_eq] at heptr
      exact ⟨by omega, by omega⟩
    rw [hw.mem x fun hx ↦ ?_]
    · exact hm.zero c hc x h₂ h₃
    · rcases hx with hvacant | hcover'
      · exact hm.inv.not_vacant he heu hcover hvacant
      · exact hne (hm.inv.tiles.eq_of_covers he hd hcover hcover')
  · intro c hc
    obtain ⟨e, he, heu, hne, heptr, hlen⟩ := hother c hc
    exact ⟨e, mem_release he heu hne, heu, heptr, hlen⟩

/-- **One event** is the whole call it stands for, or none. -/
theorem simulates : Simulates (BusyHeap.Step lo hi) (Heap.Call lo hi) HeapEvent.call
    fun s k ↦ ∃ cells, Matches lo hi s k cells := by
  rintro e s s' k ⟨cells, hm⟩ hstep
  cases e with
  | malloc n p =>
    obtain ⟨k', cells', hcall, hm'⟩ := hm.malloc hstep
    exact ⟨k', ⟨k', hcall, rfl⟩, cells', hm'⟩
  | clear p => exact ⟨k, rfl, cells, hm.clear hstep⟩
  | ret p => exact ⟨k, rfl, cells, hm.ret hstep⟩
  | free p =>
    obtain ⟨k', cells', hcall, hm'⟩ := hm.free hstep
    exact ⟨k', ⟨k', hcall, rfl⟩, cells', hm'⟩
  | client =>
    obtain ⟨k', hcall, hm'⟩ := hm.store hstep
    exact ⟨k', ⟨k', hcall, rfl⟩, cells, hm'⟩

end Matches

/-! ### Runs -/

section Run

variable {base size : ℕ} {mem : ByteMem} {s s' : BusyHeap} {es : List HeapEvent} {p : ℕ}

theorem matches_fresh (hbase : 0x100000 ≤ base) (hend : base + size ≤ 2 ^ 32)
    (hacc : RegionAccepted base size) :
    Matches (alignedStart base) (base + size)
      ⟨initAllocatorRegion base size (Heap.boot mem), []⟩
      (initAllocatorRegion base size (Heap.boot mem))
      [⟨alignedStart base, base + size - alignedStart base, false⟩] where
  inv := initAllocatorRegion_spec hbase hend hacc mem
  inv' := initAllocatorRegion_spec hbase hend hacc mem
  live := rfl
  mem _ _ := rfl
  zero _ hc := by cases hc
  held _ hc := by cases hc
  nodup := List.nodup_nil

/-- Some bytes of the block that was taken last are cleared. -/
theorem exists_cleared {lo hi n d : ℕ} {h : Heap} {cells : List Cell}
    (hinv : HeapInv lo hi h cells) (hblock : ∀ x, p ≤ x → x < p + size → Client lo hi cells x)
    (hn : d + n ≤ size) (cs : List Clearing) : ∃ h', HeapInv lo hi h' cells ∧
      Trace (BusyHeap.Step lo hi) (List.replicate n (.clear p)) ⟨h, ⟨p, size, d⟩ :: cs⟩
        ⟨h', ⟨p, size, d + n⟩ :: cs⟩ := by
  induction n generalizing h d with
  | zero => exact ⟨h, hinv, rfl⟩
  | succ n ih =>
    have hbyte : HeapInv lo hi (h.store (p + d) 1 0) cells := by
      refine hinv.of_client rfl rfl fun x hx ↦ ByteMem.storeLE_apply_of_not_mem ?_
      by_contra hin
      exact hx (hblock x (by omega) (by omega))
    obtain ⟨h', hinv', htrace⟩ := ih hbyte (d := d + 1) (by omega)
    rw [show d + 1 + n = d + (n + 1) by omega] at htrace
    exact ⟨h', hinv', _, ⟨[], ⟨p, size, d⟩, cs, rfl, rfl, by simp only; omega, rfl⟩, htrace⟩

/-- What comes between the masked part and the return of a call: after ten bytes a handler takes a
block of its own, clears it and gives it back. -/
def handledBetween : List HeapEvent :=
  List.replicate 10 (.clear 0x100008) ++ (.malloc 16 0x100028 ::
    (List.replicate 16 (.clear 0x100028) ++ (.ret 0x100028 :: .free 0x100028 ::
      List.replicate 14 (.clear 0x100008))))

/-- A call on a page at one megabyte that is interrupted by a handler. -/
theorem exists_interrupted_call : ∃ s s',
    Trace (BusyHeap.Step (alignedStart 0x100000) (0x100000 + 0x1000))
        (.malloc 24 0x100008 :: handledBetween)
        ⟨initAllocatorRegion 0x100000 0x1000 (Heap.boot fun _ ↦ 0), []⟩ s ∧
      BusyHeap.Step (alignedStart 0x100000) (0x100000 + 0x1000) (.ret 0x100008) s s' := by
  have hinv : HeapInv (alignedStart 0x100000) (0x100000 + 0x1000)
      (initAllocatorRegion 0x100000 0x1000 (Heap.boot fun _ ↦ 0))
      ([] ++ ⟨0x100000, 0x1000, false⟩ :: []) :=
    initAllocatorRegion_spec (by decide) (by decide) (by decide) fun _ ↦ 0
  obtain ⟨h₁, -, hlocked₁, -, -, -, hinv₁, -⟩ :=
    hinv.kmallocLocked_of_first (n := 24) (by decide) rfl (by decide) fun _ hd ↦ by cases hd
  have hcells₁ : HeapInv (alignedStart 0x100000) (0x100000 + 0x1000) h₁
      ([⟨0x100000, 32, true⟩] ++ ⟨0x100020, 0xFE0, false⟩ :: []) := hinv₁
  obtain ⟨h₂, hinv₂, hclear₂⟩ := exists_cleared (p := 0x100008) (n := 10) (d := 0) hcells₁
    (fun x hx hx' ↦ .inr ⟨⟨0x100000, 32, true⟩, by simp, rfl, hx, hx'⟩)
    (show 0 + 10 ≤ 24 by decide) []
  obtain ⟨h₃, -, hlocked₃, -, -, -, hinv₃, -⟩ :=
    hinv₂.kmallocLocked_of_first (n := 16) (by decide) rfl (by decide) fun _ hd ↦ by cases hd
  have hcells₃ : HeapInv (alignedStart 0x100000) (0x100000 + 0x1000) h₃
      ([⟨0x100000, 32, true⟩] ++ ⟨0x100020, 24, true⟩ :: [⟨0x100038, 0xFC8, false⟩]) := hinv₃
  obtain ⟨h₄, hinv₄, hclear₄⟩ := exists_cleared (p := 0x100028) (n := 16) (d := 0) hcells₃
    (fun x hx hx' ↦ .inr ⟨⟨0x100020, 24, true⟩, by simp, rfl, hx, hx'⟩)
    (show 0 + 16 ≤ 16 by decide) [⟨0x100008, 24, 10⟩]
  obtain ⟨h₅, hfree₅, hinv₅, -⟩ := hinv₄.kfree_spec rfl
  have hcells₅ : HeapInv (alignedStart 0x100000) (0x100000 + 0x1000) h₅
      [⟨0x100000, 32, true⟩, ⟨0x100020, 0xFE0, false⟩] := hinv₅
  have hheld : 0x100028 ∈ h₄.live :=
    hinv₄.ptr_mem_live (c := ⟨0x100020, 24, true⟩) (by simp) rfl
  obtain ⟨h₆, -, hclear₆⟩ := exists_cleared (p := 0x100008) (n := 14) (d := 10) hcells₅
    (fun x hx hx' ↦ .inr ⟨⟨0x100000, 32, true⟩, by simp, rfl, hx, hx'⟩)
    (show 10 + 14 ≤ 24 by decide) []
  have hreturned : ∀ c ∈ [(⟨0x100008, 24, 10⟩ : Clearing)], c.ptr ≠ 0x100028 := by simp
  refine ⟨⟨h₆, [⟨0x100008, 24, 24⟩]⟩, ⟨h₆, []⟩, ⟨_, ⟨h₁, hlocked₁, rfl⟩, hclear₂.append
    ⟨_, ⟨h₃, hlocked₃, rfl⟩, hclear₄.append ⟨_, ⟨[], _, _, rfl, rfl, rfl, rfl⟩, _,
      ⟨hheld, hreturned, h₅, hfree₅, rfl⟩, hclear₆⟩⟩⟩, [], _, [], rfl, rfl, rfl, rfl⟩

/-- **Calls take effect one after the other.** Whatever calls of `kmalloc` and `kfree` interrupt one
another on a region that `init_allocator_region` has set up, the whole calls in the order of their
masked parts return the same pointers and leave the same heap, but for the bytes that are still to
be cleared; in between the heap invariant holds, and every call of the allocator ends. -/
theorem matched_by_whole_calls (hbase : 0x100000 ≤ base) (hend : base + size ≤ 2 ^ 32)
    (hacc : RegionAccepted base size)
    (h : Trace (BusyHeap.Step (alignedStart base) (base + size)) es
      ⟨initAllocatorRegion base size (Heap.boot mem), []⟩ s) :
    ∃ k, Trace (Heap.Call (alignedStart base) (base + size)) (es.filterMap HeapEvent.call)
        (initAllocatorRegion base size (Heap.boot mem)) k ∧
      s.heap.freeListHead = k.freeListHead ∧ s.heap.live = k.live ∧
      (∀ x, ¬ s.Uncleared x → s.heap.mem x = k.mem x) ∧
      (∃ cells, HeapInv (alignedStart base) (base + size) s.heap cells) ∧
      (∀ n, (kmallocLocked n s.heap).isSome) ∧ ∀ p ∈ s.heap.live, (kfree p s.heap).isSome := by
  obtain ⟨k, htrace, cells, hm⟩ :=
    Matches.simulates.exists_trace h ⟨_, matches_fresh hbase hend hacc⟩
  refine ⟨k, htrace, hm.inv.freeListHead_eq hm.inv', hm.live, fun x hx ↦ hm.mem hx,
    ⟨cells, hm.inv⟩, fun n ↦ ?_, fun p hp ↦ hm.inv.kfree_isSome hp⟩
  cases hsome : allocate n cells with
  | none => rw [hm.inv.kmallocLocked_of_none hsome, Option.isSome_some]
  | some r =>
    obtain ⟨hn, xs, c, ys, rfl, hc, hfit, hfirst, -, -⟩ := allocate_eq_some.1 hsome
    obtain ⟨h₁, -, hlocked, -⟩ := hm.inv.kmallocLocked_of_first hn hc hfit hfirst
    rw [hlocked, Option.isSome_some]

/-- A call that is interrupted by a handler while it clears. -/
theorem matched_by_whole_calls_interrupted : ∃ s k,
    Trace (BusyHeap.Step (alignedStart 0x100000) (0x100000 + 0x1000))
        (.malloc 24 0x100008 :: handledBetween)
        ⟨initAllocatorRegion 0x100000 0x1000 (Heap.boot fun _ ↦ 0), []⟩ s ∧
      Trace (Heap.Call (alignedStart 0x100000) (0x100000 + 0x1000))
        [.malloc 24 0x100008, .malloc 16 0x100028, .free 0x100028]
        (initAllocatorRegion 0x100000 0x1000 (Heap.boot fun _ ↦ 0)) k ∧
      s.heap.freeListHead = k.freeListHead ∧ s.heap.live = k.live := by
  obtain ⟨s, -, htrace, -⟩ := exists_interrupted_call
  obtain ⟨k, hcalls, hhead, hlive, -⟩ :=
    matched_by_whole_calls (by decide) (by decide) (by decide) htrace
  exact ⟨s, k, htrace, hcalls, hhead, hlive⟩

/-! ### What a call returns -/

theorem BusyHeap.Pending.step {lo hi m : ℕ} {e : HeapEvent} (hs : s.Pending p m)
    (h : BusyHeap.Step lo hi e s s') (hne : e ≠ .ret p) : s'.Pending p m := by
  obtain ⟨c, hc, hptr, hsize⟩ := hs
  cases e with
  | malloc n q =>
    obtain ⟨h', -, rfl⟩ := h
    refine ⟨c, ?_, hptr, hsize⟩
    dsimp only
    split_ifs
    · exact hc
    · exact List.mem_cons_of_mem _ hc
  | clear q =>
    obtain ⟨before, d, after, hsplit, rfl, -, rfl⟩ := h
    rw [hsplit, List.mem_append, List.mem_cons] at hc
    rcases hc with hc | rfl | hc
    · exact ⟨c, by simp [hc], hptr, hsize⟩
    · exact ⟨{ c with done := c.done + 1 }, by simp, hptr, hsize⟩
    · exact ⟨c, by simp [hc], hptr, hsize⟩
  | ret q =>
    obtain ⟨before, d, after, hsplit, rfl, -, rfl⟩ := h
    rw [hsplit, List.mem_append, List.mem_cons] at hc
    rcases hc with hc | rfl | hc
    · exact ⟨c, by simp [hc], hptr, hsize⟩
    · exact absurd (congrArg HeapEvent.ret hptr) hne
    · exact ⟨c, by simp [hc], hptr, hsize⟩
  | free q =>
    obtain ⟨-, -, h', -, rfl⟩ := h
    exact ⟨c, hc, hptr, hsize⟩
  | client =>
    obtain ⟨mem', -, rfl⟩ := h
    exact ⟨c, hc, hptr, hsize⟩

/-- A call is under way from its masked part until it returns. -/
theorem BusyHeap.Pending.trace {lo hi m : ℕ} (hs : s.Pending p m)
    (h : Trace (BusyHeap.Step lo hi) es s s') (hes : HeapEvent.ret p ∉ es) : s'.Pending p m := by
  induction es generalizing s with
  | nil =>
    cases h
    exact hs
  | cons e es ih =>
    obtain ⟨u, hstep, hrest⟩ := h
    rw [List.mem_cons, not_or] at hes
    exact ih (hs.step hstep (Ne.symm hes.1)) hrest hes.2

/-- **A block is clear when `kmalloc` returns it**, over the request as `kmalloc` has rounded it,
and no other call has been given any byte of it since. -/
theorem clear_when_returned {n : ℕ} {fs : List HeapEvent} (hbase : 0x100000 ≤ base)
    (hend : base + size ≤ 2 ^ 32) (hacc : RegionAccepted base size)
    (h : Trace (BusyHeap.Step (alignedStart base) (base + size)) (es ++ .malloc n p :: fs)
      ⟨initAllocatorRegion base size (Heap.boot mem), []⟩ s) (hfs : HeapEvent.ret p ∉ fs)
    (hret : BusyHeap.Step (alignedStart base) (base + size) (.ret p) s s') :
    (∀ i < requestSize n, s'.heap.mem (p + i) = 0) ∧ p ∈ s'.heap.live ∧
      requestSize n ≤ s'.heap.size (p - headerSize) ∧
      ∀ q ∈ s'.heap.live, q ≠ p → ∀ i < requestSize n,
        p + i < q ∨ q + s'.heap.size (q - headerSize) ≤ p + i := by
  obtain ⟨k, -, cells, hm⟩ := Matches.simulates.exists_trace h ⟨_, matches_fresh hbase hend hacc⟩
  obtain ⟨u, -, v, hmalloc, hrest⟩ := Trace.of_append h
  have hm' := hm.ret hret
  obtain ⟨before, c, after, hsplit, rfl, hdone, rfl⟩ := hret
  have hc : c ∈ s.clearings := by simp [hsplit]
  obtain ⟨e, he, hu, heptr, hlen⟩ := hm.held c hc
  have hrec := hm.inv.recorded_eq he hu
  rw [e.ptr_eq] at heptr
  -- the call that returns is the one whose masked part the event was
  have hpending : v.Pending c.ptr (requestSize n) := by
    obtain ⟨h', -, rfl⟩ := hmalloc
    exact ⟨⟨c.ptr, requestSize n, 0⟩, by simp [← heptr], rfl, rfl⟩
  obtain ⟨d, hd, hdptr, hdsize⟩ := hpending.trace hrest hfs
  obtain rfl : d = c := List.inj_on_of_nodup_map hm.nodup hd hc hdptr
  rw [← hdsize]
  have hcover : ∀ i < d.size, e.Covers (d.ptr + i) := fun i hi ↦ ⟨by omega, by omega⟩
  refine ⟨fun i hi ↦ ?_, hm.mem_live hc, ?_, fun q hq hne i hi ↦ ?_⟩
  · refine (hm.mem ?_).trans (hm.zero d hc _ (by omega) (by omega))
    -- another block that is being cleared is somewhere else
    rintro ⟨b, hb, h₁, h₂⟩
    obtain ⟨f, hf, hfu, hfptr, hflen⟩ := hm.held b hb
    have hsame : f = e := by
      rw [f.ptr_eq] at hfptr
      exact hm.inv.tiles.eq_of_covers hf he ⟨by omega, by omega⟩ (hcover i hi)
    obtain rfl : b = d := by
      refine List.inj_on_of_nodup_map hm.nodup hb hc ?_
      rw [← hfptr, hsame, e.ptr_eq, heptr]
    omega
  · show d.size ≤ s.heap.size (d.ptr - headerSize)
    rw [show d.ptr - headerSize = e.addr by rw [← heptr]; rfl]
    omega
  · obtain ⟨f, hf, hfu, rfl⟩ := hm.inv.exists_cell hq
    have hrec' := hm.inv.recorded_eq hf hfu
    have hnot : ¬ f.Covers (d.ptr + i) := fun hf' ↦
      hne (by rw [hm.inv.tiles.eq_of_covers hf he hf' (hcover i hi), e.ptr_eq, heptr])
    rw [f.ptr_sub_headerSize, f.ptr_eq]
    dsimp only
    by_contra hin
    exact hnot ⟨by omega, by omega⟩

/-- The block of the call that was interrupted. -/
theorem clear_when_returned_interrupted : ∃ s s',
    Trace (BusyHeap.Step (alignedStart 0x100000) (0x100000 + 0x1000))
        (.malloc 24 0x100008 :: handledBetween)
        ⟨initAllocatorRegion 0x100000 0x1000 (Heap.boot fun _ ↦ 0), []⟩ s ∧
      BusyHeap.Step (alignedStart 0x100000) (0x100000 + 0x1000) (.ret 0x100008) s s' ∧
      0x100008 ∈ s'.heap.live ∧ ∀ i < 24, s'.heap.mem (0x100008 + i) = 0 := by
  obtain ⟨s, s', htrace, hret⟩ := exists_interrupted_call
  have hsplit : Trace (BusyHeap.Step (alignedStart 0x100000) (0x100000 + 0x1000))
      ([] ++ .malloc 24 0x100008 :: handledBetween) _ s := htrace
  obtain ⟨hzero, hlive, -⟩ := clear_when_returned (by decide) (by decide) (by decide) hsplit
    (by simp [handledBetween]) hret
  exact ⟨s, s', htrace, hret, hlive, hzero⟩

end Run
