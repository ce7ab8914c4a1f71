import BinbowsDOS.Heap.Insertion

/-!
# The heap invariant

`HeapInv lo hi h cells`: the region `[lo, hi)` is tiled by `cells`, of which the unused ones
are, in order, the free list, and the used ones are the blocks handed out; no two unused cells
touch. Each allocator function is described once by what it does to the cells:

* `initAllocatorRegion_spec` — one unused cell;
* `kmalloc_spec` — the first unused cell that fits is carved (`carve`), or none fits;
* `kfree_spec` — the cell is retagged and the arena coalesced.

Nothing after this module unfolds the allocator.
-/

open Arena

/-- The pointer handed out for a cell. -/
def Cell.ptr (c : Cell) : ℕ := c.addr + headerSize

theorem Cell.ptr_eq (c : Cell) : c.ptr = c.addr + 8 := rfl

/-- **The heap invariant.** -/
structure HeapInv (lo hi : ℕ) (h : Heap) (cells : List Cell) : Prop where
  /-- The region starts at or above one megabyte. -/
  base_le : 0x100000 ≤ lo
  /-- The region ends inside the address space. -/
  stop_le : hi ≤ 2 ^ 32
  /-- The cells tile the region. -/
  tiles : Tiles lo hi cells
  /-- Adjacent unused cells are merged. -/
  coalesced : Coalesced cells
  /-- Headers are aligned. -/
  aligned : ∀ c ∈ cells, c.addr % 8 = 0
  /-- Every cell has room for its header. -/
  header_le : ∀ c ∈ cells, headerSize ≤ c.len
  /-- The free list is the unused cells in address order. -/
  chain : h.FreeChain .head (unused cells)
  /-- The header of a block handed out records its size. -/
  recorded : ∀ c ∈ cells, c.used = true → h.size c.addr + headerSize = c.len
  /-- The used cells are the blocks handed out. -/
  ledger : h.live.Perm ((cells.filter Cell.used).map Cell.ptr)

namespace HeapInv

variable {lo hi : ℕ} {h h' : Heap} {cells xs ys : List Cell} {c d : Cell} {n x : ℕ}

theorem ordered (hi' : HeapInv lo hi h cells) : Heap.Ordered cells where
  aligned := hi'.aligned
  header_le := hi'.header_le
  stop_le c hc := (hi'.tiles.bounds hc).2.2.trans hi'.stop_le
  addr_pos c hc := by
    have := (hi'.tiles.bounds hc).1
    have := hi'.base_le
    omega
  pairwise := hi'.tiles.pairwise

theorem eight_le (hi' : HeapInv lo hi h cells) (hc : c ∈ cells) : 8 ≤ c.len := hi'.header_le c hc

theorem recorded_eq (hi' : HeapInv lo hi h cells) (hc : c ∈ cells) (hu : c.used = true) :
    h.size c.addr + 8 = c.len := hi'.recorded c hc hu

theorem base_le_addr (hi' : HeapInv lo hi h cells) (hc : c ∈ cells) : 0x100000 ≤ c.addr :=
  hi'.base_le.trans (hi'.tiles.bounds hc).1

/-- The walks have fuel for every cell of the region. -/
theorem length_lt_listFuel (hi' : HeapInv lo hi h cells) : cells.length < listFuel := by
  have hlen : cells.length * 8 ≤ hi - lo := hi'.tiles.length_mul_le hi'.header_le
  have := hi'.base_le
  have := hi'.stop_le
  show cells.length < 2 ^ 29
  omega

theorem unused_length_lt (hi' : HeapInv lo hi h cells) : (unused cells).length < listFuel :=
  (List.length_filter_le ..).trans_lt hi'.length_lt_listFuel

theorem disjoint_covers (hi' : HeapInv lo hi h cells) (hc : c ∈ cells) (hd : d ∈ cells)
    (hne : c.addr ≠ d.addr) (hx : c.Covers x) : ¬ d.Covers x := by
  rcases hi'.tiles.disjoint hc hd hne with hlt | hlt
  · exact fun hdx ↦ by have := hx.2; have := hdx.1; omega
  · exact fun hdx ↦ by have := hx.1; have := hdx.2; omega

/-- A pointer of the ledger is the pointer of a used cell. -/
theorem exists_cell (hi' : HeapInv lo hi h cells) {p : ℕ} (hp : p ∈ h.live) :
    ∃ c ∈ cells, c.used = true ∧ c.ptr = p := by
  obtain ⟨c, hc, rfl⟩ := List.mem_map.1 (hi'.ledger.mem_iff.1 hp)
  exact ⟨c, (List.mem_filter.1 hc).1, (List.mem_filter.1 hc).2, rfl⟩

theorem ptr_mem_live (hi' : HeapInv lo hi h cells) (hc : c ∈ cells) (hu : c.used = true) :
    c.ptr ∈ h.live :=
  hi'.ledger.mem_iff.2 (List.mem_map_of_mem (List.mem_filter.2 ⟨hc, hu⟩))

theorem live_nodup (hi' : HeapInv lo hi h cells) : h.live.Nodup := by
  refine hi'.ledger.nodup_iff.2 ?_
  have hnodup : ((cells.filter Cell.used).map Cell.addr).Nodup :=
    Heap.addr_nodup (hi'.ordered.sublist List.filter_sublist)
  rw [List.Nodup, List.pairwise_map] at hnodup ⊢
  exact hnodup.imp fun {a b} hab heq ↦ hab (Nat.add_right_cancel heq)

/-- The invariant reads the block headers only. -/
theorem of_headers (hi' : HeapInv lo hi h cells) {mem : ByteMem}
    (hmem : ∀ c ∈ cells, ∀ x, c.addr ≤ x → x < c.addr + 8 → mem x = h.mem x) :
    HeapInv lo hi { h with mem := mem } cells := by
  have hsize : ∀ c ∈ cells, Heap.size { h with mem := mem } c.addr = h.size c.addr := fun c hc ↦
    ByteMem.loadLE_congr fun i hi ↦ hmem c hc _ (by omega) (by omega)
  have hnext : ∀ c ∈ cells, Heap.next { h with mem := mem } c.addr = h.next c.addr := fun c hc ↦
    ByteMem.loadLE_congr fun i hi ↦ hmem c hc _ (by omega) (by omega)
  exact ⟨hi'.base_le, hi'.stop_le, hi'.tiles, hi'.coalesced, hi'.aligned, hi'.header_le,
    hi'.chain.move rfl fun c hc ↦
      ⟨hsize c (mem_unused.1 hc).1, hnext c (mem_unused.1 hc).1⟩,
    fun c hc hu ↦ by rw [hsize c hc]; exact hi'.recorded c hc hu, hi'.ledger⟩

end HeapInv

/-! ### Initialization -/

/-- The start of the usable region. -/
def alignedStart (regionBase : ℕ) : ℕ := alignUp regionBase alignSize

/-- An accepted region has room for a header and a byte behind its aligned start. -/
theorem alignedStart_bounds {base size : ℕ} (hend : base + size ≤ 2 ^ 32)
    (hacc : RegionAccepted base size) :
    base ≤ alignedStart base ∧ alignedStart base % 8 = 0 ∧
      alignedStart base + 8 < base + size ∧
      sub32 (alignedStart base) base = alignedStart base - base := by
  have halign : alignedStart base = (base + 7) % 2 ^ 32 / 8 * 8 := alignUp_eight base
  have hacc' : ¬ size ≤ u32 (8 + sub32 (alignedStart base) base) := hacc
  simp only [sub32, u32] at *
  omega

/-- **`init_allocator_region`** turns an accepted region into one free block. -/
theorem initAllocatorRegion_spec {base size : ℕ} (hbase : 0x100000 ≤ base)
    (hend : base + size ≤ 2 ^ 32) (hacc : RegionAccepted base size) (mem : ByteMem) :
    HeapInv (alignedStart base) (base + size) (initAllocatorRegion base size (Heap.boot mem))
      [⟨alignedStart base, base + size - alignedStart base, false⟩] := by
  obtain ⟨hle, hmod, hlt, hsub⟩ := alignedStart_bounds hend hacc
  have hsize : sub32 (sub32 size (sub32 (alignedStart base) base)) headerSize =
      base + size - alignedStart base - 8 := by
    rw [hsub, sub32_of_le (x := size) (by omega) (by omega), sub32_of_le (y := headerSize)]
    · simp only [headerSize]
      omega
    · simp only [headerSize]
      omega
    · omega
  rw [initAllocatorRegion, if_pos hacc]
  change HeapInv _ _ ((Heap.setSize ({ Heap.boot mem with freeListHead := alignedStart base })
    (alignedStart base) (sub32 (sub32 size (sub32 (alignedStart base) base)) headerSize)).setNext
      (alignedStart base) 0) _
  rw [hsize]
  have hlen : 8 ≤ base + size - alignedStart base := by omega
  have htiles : Tiles (alignedStart base) (base + size)
      [⟨alignedStart base, base + size - alignedStart base, false⟩] :=
    ⟨rfl, by simp only; omega, by simp only [tiles_nil, Cell.stop]; omega⟩
  refine ⟨by omega, hend, htiles, List.isChain_singleton _, by simpa using hmod,
    by simpa [headerSize] using hlen, ⟨rfl, by simp only; omega, ?_, ?_⟩, by simp, List.Perm.nil⟩
  · rw [Heap.size_setNext hmod hmod, Heap.size_setSize_self, u32_of_lt (by omega)]
    simp only [headerSize]
    omega
  · show Heap.next _ (alignedStart base) = 0
    exact Heap.next_setNext_self

/-- Initialization records its header as written. -/
theorem written_initAllocatorRegion {base size x : ℕ} (hacc : RegionAccepted base size)
    (h : Heap) (hx : alignedStart base ≤ x ∧ x < alignedStart base + 8) :
    (initAllocatorRegion base size h).written x = true := by
  rw [initAllocatorRegion, if_pos hacc]
  have hor : (alignedStart base + 4 ≤ x ∧ x < alignedStart base + 4 + 4) ∨
      (alignedStart base ≤ x ∧ x < alignedStart base + 4) := by omega
  rcases hor with hx' | hx'
  · exact Bool.or_eq_true_iff.2 (Or.inl (decide_eq_true hx'))
  · exact Bool.or_eq_true_iff.2 (Or.inr (Bool.or_eq_true_iff.2 (Or.inl (decide_eq_true hx'))))

/-! ### `kmalloc` -/

theorem requestSize_mod (n : ℕ) : requestSize n % 8 = 0 := by
  simp only [requestSize, alignSize, alignUp_eight, minAllocSize]
  split <;> omega

theorem minAllocSize_le_requestSize (n : ℕ) : 16 ≤ requestSize n := by
  simp only [requestSize, alignSize, alignUp_eight, minAllocSize]
  split <;> omega

/-- Rounding a request up does not lose any of it, short of the last eight. -/
theorem le_requestSize {n : ℕ} (hn : n ≤ 2 ^ 32 - 8) : n ≤ requestSize n := by
  simp only [requestSize, alignSize, alignUp_eight, minAllocSize]
  split <;> omega

/-- The cells after a request of `n` bytes is served from `c`. -/
def carve (n : ℕ) (xs : List Cell) (c : Cell) (ys : List Cell) : List Cell :=
  xs ++ ⟨c.addr, Heap.grantedSize n c + 8, true⟩ :: (Heap.remainder n c ++ ys)

section Carve

variable {lo hi n : ℕ} {cells xs ys : List Cell} {c d : Cell}

theorem tiles_carve (ht : Tiles lo hi (xs ++ c :: ys)) (hfit : n + 8 ≤ c.len) :
    Tiles lo hi (carve n xs c ys) := by
  rw [carve, Heap.grantedSize, Heap.remainder]
  split
  · exact ht.split (by omega) (by omega) (by omega) true false
  · have := ht.retag true
    rwa [show c.len - 8 + 8 = c.len by omega, List.nil_append]

theorem coalesced_carve (hco : Coalesced (xs ++ c :: ys)) (hc : c.used = false) :
    Coalesced (carve n xs c ys) := by
  obtain ⟨hx, hcy, -⟩ := List.isChain_append.1 hco
  refine (coalesced_append_of_used rfl).2 ⟨hx, ?_⟩
  rw [Heap.remainder]
  split
  · exact (coalesced_cons_congr hc.symm).2 hcy
  · exact List.IsChain.tail hcy

/-- The remainder is an unused cell behind the request. -/
theorem of_mem_remainder (hd : d ∈ Heap.remainder n c) :
    d.used = false ∧ d.addr = c.addr + (n + 8) ∧ d.len + (n + 8) = c.len ∧ 8 ≤ d.len := by
  rw [Heap.remainder] at hd
  split at hd
  · rw [List.mem_singleton] at hd
    subst hd
    refine ⟨rfl, rfl, ?_, ?_⟩
    · simp only
      omega
    · simp only
      omega
  · simp at hd

theorem filter_used_remainder : (Heap.remainder n c).filter Cell.used = [] :=
  List.filter_eq_nil_iff.2 fun d hd ↦ by simp [(of_mem_remainder hd).1]

theorem unused_carve :
    unused (carve n xs c ys) = unused xs ++ (Heap.remainder n c ++ unused ys) := by
  have hrem : unused (Heap.remainder n c) = Heap.remainder n c :=
    List.filter_eq_self.2 fun d hd ↦ by simp [(of_mem_remainder hd).1]
  rw [carve, unused_append, unused_cons_of_used rfl, unused_append, hrem]

theorem filter_used_carve : (carve n xs c ys).filter Cell.used =
    xs.filter Cell.used ++ ⟨c.addr, Heap.grantedSize n c + 8, true⟩ :: ys.filter Cell.used := by
  rw [carve, List.filter_append, List.filter_cons_of_pos rfl, List.filter_append,
    filter_used_remainder, List.nil_append]

theorem forall_mem_carve {P : Cell → Prop} (hold : ∀ d ∈ xs ++ c :: ys, P d)
    (hnew : P ⟨c.addr, Heap.grantedSize n c + 8, true⟩) (hrem : ∀ d ∈ Heap.remainder n c, P d) :
    ∀ d ∈ carve n xs c ys, P d := by
  intro d hd
  rw [carve, List.mem_append, List.mem_cons, List.mem_append] at hd
  rcases hd with h₁ | rfl | h₁ | h₁
  · exact hold d (by simp [h₁])
  · exact hnew
  · exact hrem d h₁
  · exact hold d (by simp [h₁])

/-- Carving puts no other cell into use. -/
theorem mem_of_mem_carve (hd : d ∈ carve n xs c ys) (hu : d.used = true)
    (hne : d.addr ≠ c.addr) : d ∈ xs ++ c :: ys := by
  rw [carve, List.mem_append, List.mem_cons, List.mem_append] at hd
  rcases hd with h₁ | rfl | h₁ | h₁
  · simp [h₁]
  · exact absurd rfl hne
  · rw [(of_mem_remainder h₁).1] at hu
    exact Bool.noConfusion hu
  · simp [h₁]

/-- The first unused cell of at least `m` bytes, with what is around it. -/
theorem exists_first_fit {m : ℕ} (hfit : ∃ c ∈ unused cells, m ≤ c.len) :
    ∃ c xs ys, cells = xs ++ c :: ys ∧ c.used = false ∧ m ≤ c.len ∧
      ∀ d ∈ unused xs, d.len < m := by
  cases hfind : (unused cells).find? fun c ↦ decide (m ≤ c.len) with
  | none =>
    obtain ⟨c, hc, hle⟩ := hfit
    exact absurd (decide_eq_true hle) (List.find?_eq_none.1 hfind c hc)
  | some c =>
    obtain ⟨hle, us, vs, hsplit, hbefore⟩ := List.find?_eq_some_iff_append.1 hfind
    obtain ⟨xs, ys, rfl, rfl, hys⟩ := List.filter_eq_append_iff.1 hsplit
    obtain ⟨zs, ws, rfl, hzs, hcu, rfl⟩ := List.filter_eq_cons_iff.1 hys
    refine ⟨c, xs ++ zs, ws, by simp, by simpa using hcu, by simpa using hle, ?_⟩
    have hnone : unused zs = [] := List.filter_eq_nil_iff.2 hzs
    intro d hd
    rw [unused_append, hnone, List.append_nil] at hd
    simpa using hbefore d hd

end Carve

namespace HeapInv

variable {lo hi : ℕ} {h h' : Heap} {cells xs ys : List Cell} {c d : Cell} {n x : ℕ}

/-- What a write to unused cells and to `c` leaves alone. -/
theorem header_untouched (hi' : HeapInv lo hi h cells) (hcells : cells = xs ++ c :: ys)
    (hw : Heap.WritesOnly (fun x ↦ Heap.InHeader (unused xs) x ∨ c.Covers x) h h')
    (hd : d ∈ cells) (hu : d.used = true) (hne : d.addr ≠ c.addr) :
    h'.size d.addr = h.size d.addr := by
  have hc : c ∈ cells := by simp [hcells]
  refine hw.size_eq ?_
  intro x h₁ h₂
  have hdx : d.Covers x := by
    have := hi'.eight_le hd
    exact ⟨h₁, by omega⟩
  rintro (⟨e, he, h₃, h₄⟩ | hcx)
  · obtain ⟨he', heu⟩ := mem_unused.1 he
    have hemem : e ∈ cells := by simp [hcells, he']
    have hex : e.Covers x := ⟨h₃, by have := hi'.header_le e hemem; omega⟩
    refine hi'.disjoint_covers hd hemem ?_ hdx hex
    intro heq
    rw [hi'.tiles.eq_of_addr_eq hd hemem heq, heu] at hu
    exact Bool.noConfusion hu
  · exact hi'.disjoint_covers hd hc hne hdx hcx

/-- The ledger with the new pointer is that of the cells with the new one. -/
theorem ledger_carve (hi' : HeapInv lo hi h (xs ++ c :: ys)) (hc : c.used = false) :
    (c.ptr :: h.live).Perm (((carve n xs c ys).filter Cell.used).map Cell.ptr) := by
  have hled := hi'.ledger
  rw [List.filter_append, List.filter_cons_of_neg (by simp [hc]), List.map_append] at hled
  rw [filter_used_carve, List.map_append, List.map_cons]
  exact (List.Perm.cons _ hled).trans List.perm_middle.symm

/-- Taking the cell `c` from the free list keeps the invariant. -/
theorem takeBlock_spec (hi' : HeapInv lo hi h (xs ++ c :: ys)) (hc : c.used = false)
    (hn : n % 8 = 0) (hpos : 0 < n) (hfit : n + 8 ≤ c.len) :
    ∃ h', takeBlock n (Cursor.head.after (unused xs)) c.addr h = (c.ptr, h') ∧
      HeapInv lo hi h' (carve n xs c ys) ∧ h'.live = c.ptr :: h.live ∧
      Heap.WritesOnly (fun x ↦ Heap.InHeader (unused xs) x ∨ c.Covers x) h h' ∧
      ∀ i < n, h'.mem (c.ptr + i) = 0 := by
  have hcm : c ∈ xs ++ c :: ys := by simp
  have hbase := hi'.base_le_addr hcm
  have hstop := hi'.ordered.stop_le c hcm
  have hfree : unused (xs ++ c :: ys) = unused xs ++ c :: unused ys := by
    rw [unused_append, unused_cons_of_unused hc]
  have hchain := hi'.chain
  rw [hfree] at hchain
  have hord : Heap.Ordered (unused xs ++ c :: unused ys) :=
    hfree ▸ hi'.ordered.sublist List.filter_sublist
  obtain ⟨hchain₁, hsize₁, hw₁, hlive₁⟩ :=
    Heap.detachBlock_spec hchain hord hn hfit (by omega)
  rw [takeBlock]
  generalize detachBlock n (Cursor.head.after (unused xs)) c.addr h = h₁
    at hchain₁ hsize₁ hw₁ hlive₁
  have hresult : u32 (c.addr + headerSize) = c.ptr := u32_of_lt (show c.addr + 8 < _ by omega)
  rw [hresult]
  have hw₂ : Heap.WritesOnly (fun x ↦ c.addr + 8 ≤ x ∧ x < c.addr + 8 + n) h₁
      (Heap.memsetPage c.ptr 0 n h₁) := Heap.writesOnly_memsetPage fun x h₂ h₃ ↦ ⟨h₂, h₃⟩
  have hw : Heap.WritesOnly (fun x ↦ Heap.InHeader (unused xs) x ∨ c.Covers x) h
      { Heap.memsetPage c.ptr 0 n h₁ with live := c.ptr :: h₁.live } :=
    (hw₁.trans (hw₂.mono fun x hx ↦ Or.inr ⟨by omega, by omega⟩)).withLive _
  -- the clearing of the payload misses every header
  have hheader : ∀ q, q % 8 = 0 → q + 8 ≤ c.addr + 8 ∨ c.addr + 8 + n ≤ q →
      (Heap.memsetPage c.ptr 0 n h₁).size q = h₁.size q ∧
        (Heap.memsetPage c.ptr 0 n h₁).next q = h₁.next q := fun q _ hq ↦
    ⟨hw₂.size_eq fun x h₂ h₃ h₄ ↦ by omega, hw₂.next_eq fun x h₂ h₃ h₄ ↦ by omega⟩
  have htiles := tiles_carve hi'.tiles hfit
  have haround := hi'.tiles.around
  have hca := hi'.aligned c hcm
  have haligned : ∀ d ∈ carve n xs c ys, d.addr % 8 = 0 :=
    forall_mem_carve hi'.aligned hca fun d hd ↦ by
      have := of_mem_remainder hd
      omega
  refine ⟨_, rfl, ⟨hi'.base_le, hi'.stop_le, htiles, coalesced_carve hi'.coalesced hc, haligned,
    forall_mem_carve hi'.header_le (by simp only [headerSize]; omega)
      fun d hd ↦ (of_mem_remainder hd).2.2.2, ?_, ?_, ?_⟩, by rw [hlive₁], hw, ?_⟩
  · rw [unused_carve]
    refine hchain₁.move Heap.freeListHead_memsetPage ?_
    intro d hd
    refine hheader d.addr (haligned d (mem_unused.1 (unused_carve ▸ hd)).1) ?_
    rw [List.mem_append, List.mem_append] at hd
    rcases hd with h₂ | h₂ | h₂
    · have := haround.1 d (mem_unused.1 h₂).1
      have := hi'.eight_le (c := d) (by simp [(mem_unused.1 h₂).1])
      omega
    · have := of_mem_remainder h₂
      omega
    · have := haround.2 d (mem_unused.1 h₂).1
      omega
  · intro d hd hu
    rcases eq_or_ne d.addr c.addr with hdc | hdc
    · have hnew : (⟨c.addr, Heap.grantedSize n c + 8, true⟩ : Cell) ∈ carve n xs c ys := by
        simp [carve]
      rw [htiles.eq_of_addr_eq hd hnew hdc]
      show Heap.size _ c.addr + headerSize = _
      exact congrArg (· + 8) ((hheader c.addr hca (Or.inl (by omega))).1.trans hsize₁)
    · have hdold := mem_of_mem_carve hd hu hdc
      rw [header_untouched hi' rfl hw hdold hu hdc]
      exact hi'.recorded d hdold hu
  · exact hlive₁ ▸ hi'.ledger_carve hc
  · intro i hin
    show (Heap.memsetPage c.ptr 0 n h₁).mem (c.ptr + i) = 0
    rw [Heap.mem_memsetPage]
    exact ByteMem.blit_apply_add hin

/-- **`kmalloc`**: either no unused cell can hold the rounded request and nothing changes, or
the first one that can is carved. -/
theorem kmalloc_spec (hi' : HeapInv lo hi h cells) (hn : n ≠ 0) :
    (kmalloc n h = some (0, h) ∧ ∀ c ∈ unused cells, c.len < requestSize n + 8) ∨
    ∃ xs c ys h', cells = xs ++ c :: ys ∧ c.used = false ∧ requestSize n + 8 ≤ c.len ∧
      (∀ d ∈ unused xs, d.len < requestSize n + 8) ∧ kmalloc n h = some (c.ptr, h') ∧
      HeapInv lo hi h' (carve (requestSize n) xs c ys) ∧ h'.live = c.ptr :: h.live ∧
      Heap.WritesOnly (fun x ↦ Heap.InHeader (unused xs) x ∨ c.Covers x) h h' ∧
      ∀ i < requestSize n, h'.mem (c.ptr + i) = 0 := by
  -- the test for an empty list does what the walk would do at once
  have hwalk : kmalloc n h = kmallocWalk (requestSize n) listFuel .head h := by
    rw [kmalloc, if_neg hn]
    split
    · next hnull =>
      have hfuel : listFuel = (listFuel - 1) + 1 := rfl
      rw [hfuel, kmallocWalk]
      exact (if_pos hnull).symm
    · rfl
  rw [hwalk]
  by_cases hall : ∀ c ∈ unused cells, c.len < requestSize n + headerSize
  · exact Or.inl ⟨Heap.kmallocWalk_of_forall_lt hi'.chain hi'.unused_length_lt hall, hall⟩
  · right
    simp only [not_forall, Nat.not_lt] at hall
    obtain ⟨c, hc, hle⟩ := hall
    obtain ⟨c, xs, ys, rfl, hc, hfit, hfirst⟩ := exists_first_fit ⟨c, hc, hle⟩
    obtain ⟨h', htake, hrest⟩ := takeBlock_spec hi' hc (requestSize_mod n)
      (by have := minAllocSize_le_requestSize n; omega) hfit
    refine ⟨xs, c, ys, h', rfl, hc, hfit, hfirst, ?_, hrest⟩
    have hchain := hi'.chain
    have hlen := hi'.unused_length_lt
    rw [unused_append, unused_cons_of_unused hc] at hchain hlen
    rw [Heap.kmallocWalk_of_first hchain (by simp at hlen; omega) hfirst hfit, htake]

end HeapInv

/-! ### `kfree` -/

/-- The cells after `c` is given back. -/
def release (xs : List Cell) (c : Cell) (ys : List Cell) : List Cell :=
  coalesce (xs ++ { c with used := false } :: ys)

namespace HeapInv

variable {lo hi : ℕ} {h : Heap} {xs ys : List Cell} {c : Cell}

theorem ordered_retag (hi' : HeapInv lo hi h (xs ++ c :: ys)) :
    Heap.Ordered (xs ++ { c with used := false } :: ys) := by
  have hmem : ∀ {P : ℕ → ℕ → Prop}, (∀ d ∈ xs ++ c :: ys, P d.addr d.len) →
      ∀ d ∈ xs ++ { c with used := false } :: ys, P d.addr d.len := by
    intro P hold d hd
    rw [List.mem_append, List.mem_cons] at hd
    rcases hd with h₁ | rfl | h₁
    · exact hold d (by simp [h₁])
    · exact hold c (by simp)
    · exact hold d (by simp [h₁])
  have hord := hi'.ordered
  exact ⟨hmem (P := fun a _ ↦ a % 8 = 0) hord.aligned,
    hmem (P := fun _ l ↦ headerSize ≤ l) hord.header_le,
    hmem (P := fun a l ↦ a + l ≤ 2 ^ 32) hord.stop_le,
    hmem (P := fun a _ ↦ 0 < a) hord.addr_pos, (hi'.tiles.retag false).pairwise⟩

/-- A block still in use is none of the cells whose headers are written, so its size stays
recorded. -/
theorem recorded_release (hi' : HeapInv lo hi h (xs ++ c :: ys)) {h₁ : Heap}
    (hw : Heap.WritesOnly (Heap.InHeader (unused (xs ++ { c with used := false } :: ys))) h h₁) :
    ∀ d ∈ release xs c ys, d.used = true → h₁.size d.addr + headerSize = d.len := by
  intro d hd hu
  have hord := hi'.ordered_retag
  have hretag := hi'.tiles.retag false
  have hd' : d ∈ (xs ++ { c with used := false } :: ys).filter Cell.used := by
    rw [← filter_used_coalesce]
    exact List.mem_filter.2 ⟨hd, hu⟩
  have hdr : d ∈ xs ++ { c with used := false } :: ys := (List.mem_filter.1 hd').1
  have hdold : d ∈ xs ++ c :: ys := by
    rw [List.mem_append, List.mem_cons] at hdr ⊢
    rcases hdr with h₂ | rfl | h₂
    · exact Or.inl h₂
    · exact Bool.noConfusion hu
    · exact Or.inr (Or.inr h₂)
  have hkeep : h₁.size d.addr = h.size d.addr := by
    -- a header that is written belongs to an unused cell `e`, and `d` is used
    refine hw.size_eq ?_
    rintro x h₂ h₃ ⟨e, he, h₄, h₅⟩
    obtain ⟨heu, hefalse⟩ := mem_unused.1 he
    have h₅' : x < e.addr + 8 := h₅
    have h₆ := hord.eight_le hdr
    have h₇ := hord.eight_le heu
    have hne : d.addr ≠ e.addr := by
      intro heq
      rw [hretag.eq_of_addr_eq hdr heu heq, hefalse] at hu
      exact Bool.noConfusion hu
    rcases hretag.disjoint hdr heu hne with h₈ | h₈ <;> omega
  rw [hkeep]
  exact hi'.recorded d hdold hu

/-- The ledger without the freed pointer is that of the cells without the freed one. -/
theorem ledger_release (hi' : HeapInv lo hi h (xs ++ c :: ys)) (hc : c.used = true) :
    (h.live.erase c.ptr).Perm (((release xs c ys).filter Cell.used).map Cell.ptr) := by
  have hled := hi'.ledger
  rw [List.filter_append, List.filter_cons_of_pos hc, List.map_append, List.map_cons] at hled
  rw [release, filter_used_coalesce, List.filter_append, List.filter_cons_of_neg (by simp),
    List.map_append]
  have := (hled.trans List.perm_middle).erase c.ptr
  rwa [List.erase_cons_head] at this

/-- **`kfree`** gives the cell back to the coalesced arena. It writes headers of unused cells
only, counting the one that is freed. -/
theorem kfree_spec (hi' : HeapInv lo hi h (xs ++ c :: ys)) (hc : c.used = true) :
    ∃ h', kfree c.ptr h = some h' ∧ HeapInv lo hi h' (release xs c ys) ∧
      h'.live = h.live.erase c.ptr ∧
      Heap.WritesOnly (Heap.InHeader (unused (xs ++ { c with used := false } :: ys))) h h' := by
  have hcm : c ∈ xs ++ c :: ys := by simp
  have hord := hi'.ordered_retag
  have hfree : unused (xs ++ { c with used := false } :: ys) =
      unused xs ++ { c with used := false } :: unused ys := by
    rw [unused_append, unused_cons_of_unused rfl]
  have hchain := hi'.chain
  rw [unused_append, unused_cons_of_used hc] at hchain
  have hord' : Heap.Ordered (unused xs ++ { c with used := false } :: unused ys) :=
    hfree ▸ hord.sublist List.filter_sublist
  have hlen : (unused xs).length < listFuel := by
    have := hi'.unused_length_lt
    rw [unused_append, List.length_append] at this
    omega
  obtain ⟨h₁, hinsert, hchain₁, hw₁, hlive₁⟩ :=
    Heap.insertFreeBlockSorted_spec (b := { c with used := false }) hchain
      (hi'.recorded c hcm hc) hord' hlen
  have hw : Heap.WritesOnly (Heap.InHeader (unused (xs ++ { c with used := false } :: ys))) h
      { h₁ with live := h₁.live.erase c.ptr } := hfree ▸ hw₁.withLive _
  obtain ⟨hx, hy⟩ := (coalesced_append_of_used hc).1 hi'.coalesced
  have hretag := hi'.tiles.retag false
  -- going back from the pointer to the header does not wrap
  have hptr : sub32 c.ptr headerSize = c.addr := by
    have := hord.stop_le { c with used := false } (by simp)
    have hlen : 8 ≤ c.len := hi'.eight_le hcm
    show (c.addr + 8 + 2 ^ 32 - 8) % 2 ^ 32 = c.addr
    simp only at this
    omega
  have hnull : c.ptr ≠ 0 := Nat.succ_ne_zero _
  refine ⟨{ h₁ with live := h₁.live.erase c.ptr }, ?_, ?_, by rw [hlive₁], hw⟩
  · rw [kfree, if_neg hnull, hptr]
    simp only [hinsert, Option.bind_eq_bind, Option.bind_some]
  · refine ⟨hi'.base_le, hi'.stop_le, hretag.coalesce, coalesced_coalesce _, ?_, ?_, ?_,
      hi'.recorded_release hw, hlive₁ ▸ hi'.ledger_release hc⟩
    · intro d hd
      obtain ⟨e, he, heq, -⟩ := exists_of_mem_coalesce hd
      exact heq ▸ hord.aligned e he
    · intro d hd
      obtain ⟨e, he, -, hle⟩ := exists_of_mem_coalesce hd
      exact (hord.header_le e he).trans hle
    · rw [release, unused_coalesce_retag hretag hx hy rfl]
      exact hchain₁.move rfl fun _ _ ↦ ⟨rfl, rfl⟩

end HeapInv
