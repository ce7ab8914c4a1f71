import BinbowsDOS.Foundations.Gaps
import BinbowsDOS.Heap.FirstFit

/-!
# Where a request is placed

The gaps between the blocks handed out are the blocks of the free list, whatever history of
calls led there (`HeapInv.isGap_iff`). So what `kmalloc` answers can be said without the free
list: which gap it takes, when there is none, and how much of the gap the new block gets.

What it is asked for is another matter. `align_up` wraps for the seven largest requests, which
are then served as requests for the minimum (`requestSize_of_wrap`): the caller gets sixteen
bytes instead of four gigabytes.
-/

open Arena

/-! ### The rounded request -/

section RequestSize

variable {n : ℕ}

theorem requestSize_eq (hn : n ≤ 0xFFFFFFF8) : requestSize n = max 16 ((n + 7) / 8 * 8) := by
  simp only [requestSize, alignSize, alignUp_eight, minAllocSize]
  split <;> omega

/-- The seven largest requests are rounded to the minimum. -/
theorem requestSize_of_wrap (hn : 0xFFFFFFF8 < n) (hn' : n < 2 ^ 32) : requestSize n = 16 := by
  simp only [requestSize, alignSize, alignUp_eight, minAllocSize]
  split <;> omega

end RequestSize

/-! ### The gap a request is placed in -/

section Allocate

variable {lo hi n p : ℕ} {cells cells' : List Cell}

theorem allocate_eq_none (hn : n ≠ 0) :
    allocate n cells = none ↔ ∀ c ∈ unused cells, c.len < requestSize n + 8 := by
  constructor
  · intro hnone c hc
    by_contra hlt
    obtain ⟨d, xs, ys, rfl, hd, hfit, hfirst⟩ := exists_first_fit ⟨c, hc, Nat.not_lt.1 hlt⟩
    rw [allocate_eq_some.2 ⟨hn, xs, d, ys, rfl, hd, hfit, hfirst, rfl, rfl⟩] at hnone
    exact Option.some_ne_none _ hnone
  · intro hall
    cases hsome : allocate n cells with
    | none => rfl
    | some r =>
      obtain ⟨-, xs, c, ys, rfl, hc, hfit, -⟩ := allocate_eq_some.1 hsome
      have := hall c (mem_unused.2 ⟨by simp, hc⟩)
      omega

/-- A request is served from the lowest unused cell that can hold it. -/
theorem exists_lowest_of_allocate (ht : Tiles lo hi cells)
    (h : allocate n cells = some (p, cells')) :
    ∃ c ∈ unused cells, requestSize n + 8 ≤ c.len ∧ c.ptr = p ∧
      grantedCell (requestSize n) c ∈ cells' ∧
      ∀ d ∈ unused cells, requestSize n + 8 ≤ d.len → c.addr ≤ d.addr := by
  obtain ⟨-, xs, c, ys, rfl, hc, hfit, hfirst, rfl, rfl⟩ := allocate_eq_some.1 h
  refine ⟨c, mem_unused.2 ⟨by simp, hc⟩, hfit, rfl, by simp [carve, grantedCell], ?_⟩
  intro d hd hdlen
  rw [unused_append, unused_cons_of_unused hc, List.mem_append, List.mem_cons] at hd
  rcases hd with hd | rfl | hd
  · have := hfirst d hd
    omega
  · exact le_rfl
  · have := ht.around.2 d (mem_unused.1 hd).1
    omega

end Allocate

namespace HeapInv

variable {lo hi a b n p : ℕ} {h h' : Heap} {cells : List Cell}

/-- **The maximal gaps between the blocks handed out are the free blocks.** -/
theorem isGap_iff (hinv : HeapInv lo hi h cells) :
    IsGap lo hi h.liveBlocks a b ↔ ∃ c ∈ unused cells, c.addr = a ∧ c.addr + c.len = b := by
  rw [isGap_congr fun c ↦ hinv.liveBlocks_perm.mem_iff]
  exact Arena.isGap_iff hinv.tiles hinv.coalesced

theorem isGap_of_mem_unused (hinv : HeapInv lo hi h cells) {c : Cell} (hc : c ∈ unused cells) :
    IsGap lo hi h.liveBlocks c.addr (c.addr + c.len) := hinv.isGap_iff.2 ⟨c, hc, rfl, rfl⟩

/-- The size `kmalloc` records in the block it hands out. -/
theorem size_of_granted {cells' : List Cell} {c : Cell} (hinv : HeapInv lo hi h' cells')
    (hc : grantedCell n c ∈ cells') : h'.size c.addr = Heap.grantedSize n c := by
  have hrec := hinv.recorded_eq hc rfl
  simp only [grantedCell] at hrec
  omega

/-- No gap is long enough exactly if the abstract allocator has no block. -/
theorem forall_isGap_iff (hinv : HeapInv lo hi h cells) {m : ℕ} :
    (∀ a b, IsGap lo hi h.liveBlocks a b → b - a < m) ↔ ∀ c ∈ unused cells, c.len < m := by
  constructor
  · intro hall c hc
    have := hall _ _ (hinv.isGap_of_mem_unused hc)
    omega
  · intro hall a b hgap
    obtain ⟨c, hc, rfl, rfl⟩ := hinv.isGap_iff.1 hgap
    have := hall c hc
    omega

end HeapInv

/-! ### First fit -/

/-- `p` is the block for a request of `m` bytes in the lowest gap that can hold it, with the
size that the gap calls for. -/
structure PlacedFirst (lo hi m p : ℕ) (h h' : Heap) (a b : ℕ) : Prop where
  /-- It lies in a maximal gap between the blocks handed out before. -/
  gap : IsGap lo hi h.liveBlocks a b
  /-- The gap has room for the request and its header. -/
  room : m + 8 ≤ b - a
  /-- No lower gap has. -/
  lowest : ∀ a' b', IsGap lo hi h.liveBlocks a' b' → m + 8 ≤ b' - a' → a ≤ a'
  /-- The block starts where the gap does. -/
  start : p = a + 8
  /-- It keeps the request if the rest can hold a header and a minimal payload, else the gap. -/
  size : h'.size a = if m + 32 ≤ b - a then m else b - a - 8

section Run

variable {base size n : ℕ} {mem : ByteMem} {h : Heap}

/-- **First fit.** In every state of every run a request that can be rounded is refused exactly
if no maximal gap between the blocks handed out can hold it with its header; else it is placed
in the lowest gap that can. -/
theorem kmalloc_placed_first (hbase : 0x100000 ≤ base) (hend : base + size ≤ 2 ^ 32)
    (hacc : RegionAccepted base size) (hrun : HeapReach base size mem h) (h₁ : 1 ≤ n)
    (hn : n ≤ 0xFFFFFFF8) :
    ∃ p h', kmalloc n h = some (p, h') ∧
      (p = 0 ↔ ∀ a b, IsGap (alignUp base 8) (base + size) h.liveBlocks a b →
        b - a < max 16 ((n + 7) / 8 * 8) + 8) ∧
      (p ≠ 0 → ∃ a b, PlacedFirst (alignUp base 8) (base + size) (max 16 ((n + 7) / 8 * 8)) p
        h h' a b) := by
  obtain ⟨⟨cells, hinv⟩, -⟩ := hrun.exists_inv hbase hend hacc
  have hnone : allocate n cells = none ↔ ∀ c ∈ unused cells, c.len < requestSize n + 8 :=
    allocate_eq_none (by omega)
  rw [← requestSize_eq hn]
  cases hsome : allocate n cells with
  | none =>
    refine ⟨0, h, hinv.kmalloc_of_none hsome, ?_, fun hne ↦ absurd rfl hne⟩
    exact iff_of_true rfl (hinv.forall_isGap_iff.2 (hnone.1 hsome))
  | some r =>
    obtain ⟨h', hcall, hinv', -⟩ := hinv.kmalloc_of_some hsome
    have hp := hinv.ptr_ne_zero hsome
    obtain ⟨c, hc, hfit, hptr, hgrant, hlow⟩ := exists_lowest_of_allocate hinv.tiles hsome
    refine ⟨r.1, h', hcall, iff_of_false (by omega) fun hall ↦ ?_, fun _ ↦ ?_⟩
    -- a null pointer is returned only if there is no gap
    · rw [hnone.2 (hinv.forall_isGap_iff.1 hall)] at hsome
      exact Option.some_ne_none _ hsome.symm
    · refine ⟨c.addr, c.addr + c.len, hinv.isGap_of_mem_unused hc, by omega, ?_, ?_, ?_⟩
      · intro a' b' hgap hroom
        obtain ⟨d, hd, rfl, rfl⟩ := hinv.isGap_iff.1 hgap
        exact hlow d hd (by omega)
      · rw [← hptr, c.ptr_eq]
      · rw [hinv'.size_of_granted hgrant, Heap.grantedSize, Nat.add_sub_cancel_left]

/-- The hole in front of the blocks is too short for forty bytes, which go behind them. -/
theorem kmalloc_placed_first_holes : ∃ h h', HeapReach 0x100000 0x1000 (fun _ ↦ 0) h ∧
    h.live = [0x100058, 0x100028] ∧ IsGap 0x100000 0x101000 h.liveBlocks 0x100000 0x100020 ∧
      kmalloc 40 h = some (0x100070, h') ∧
      PlacedFirst 0x100000 0x101000 40 0x100070 h h' 0x100068 0x101000 := by
  obtain ⟨h, hrun, hlive, hinv⟩ := Heap.exists_holes
  obtain ⟨p, h', hcall, -, hplaced⟩ := kmalloc_placed_first (n := 40) le_rfl (by decide)
    (by decide) hrun (by decide) (by decide)
  obtain ⟨h'', hcall'⟩ := hinv.kmalloc_behind_holes
  obtain ⟨rfl, rfl⟩ := Prod.mk.inj (Option.some.inj (hcall.symm.trans hcall'))
  obtain ⟨a, b, hab⟩ := hplaced (by decide)
  obtain rfl : a = 0x100068 := Nat.add_right_cancel hab.start.symm
  have hlast : IsGap 0x100000 0x101000 h.liveBlocks 0x100068 0x101000 :=
    hinv.isGap_of_mem_unused (c := ⟨0x100068, 0xF98, false⟩) (by decide)
  obtain ⟨-, rfl⟩ := hab.gap.eq_of_meet hlast (by decide) hab.gap.lt.le
  exact ⟨h, h', hrun, hlive, hinv.isGap_of_mem_unused (c := ⟨0x100000, 32, false⟩) (by decide),
    hcall, hab⟩

/-! ### Enough room -/

/-- What the caller of `kmalloc(n)` relies on when it gets `p`. -/
structure HoldsRequest (lo hi n p : ℕ) (h : Heap) : Prop where
  /-- The pointer is aligned. -/
  aligned : p % 8 = 0
  /-- The recorded size is no less than the request. -/
  size : n ≤ h.size (p - headerSize)
  /-- The bytes asked for lie in the region. -/
  inside : lo ≤ p ∧ p + n ≤ hi
  /-- They overlap no other block handed out. -/
  apart : ∀ q ∈ h.live, q ≠ p →
    p + n ≤ (h.liveBlock q).addr ∨ (h.liveBlock q).addr + (h.liveBlock q).len ≤ p

/-- A block whose recorded size covers the request holds it. -/
theorem HeapInv.holdsRequest {lo hi p : ℕ} {cells : List Cell} (hinv : HeapInv lo hi h cells)
    (hp : p ∈ h.live) (hsize : n ≤ h.size (p - headerSize)) : HoldsRequest lo hi n p h := by
  obtain ⟨c, hc, hu, rfl⟩ := hinv.exists_cell hp
  have hrec := hinv.recorded_eq hc hu
  have haligned := hinv.aligned c hc
  obtain ⟨hlo, -, hhi⟩ := hinv.tiles.bounds hc
  have hsize' := hsize
  rw [c.ptr_sub_headerSize] at hsize'
  refine ⟨?_, hsize, ?_, ?_⟩
  · rw [c.ptr_eq]
    omega
  · rw [c.ptr_eq]
    omega
  · intro q hq hne
    obtain ⟨d, hd, hdu, rfl⟩ := hinv.exists_cell hq
    have hcd : c.addr ≠ d.addr := fun heq ↦ hne (congrArg (· + 8) heq.symm)
    rw [hinv.liveBlock_ptr hd hdu, c.ptr_eq]
    rcases hinv.tiles.disjoint hc hd hcd with hlt | hlt
    · exact Or.inl (by omega)
    · exact Or.inr (by omega)

/-- **When `kmalloc` under-allocates.** In every state of every run the block `kmalloc(n)`
returns holds the request, except that the seven largest requests get a block of the minimum
size wherever there is a gap for one. -/
theorem kmalloc_holdsRequest_iff (hbase : 0x100000 ≤ base) (hend : base + size ≤ 2 ^ 32)
    (hacc : RegionAccepted base size) (hrun : HeapReach base size mem h) (hn : n < 2 ^ 32) :
    ∃ p h', kmalloc n h = some (p, h') ∧
      ((p ≠ 0 → HoldsRequest (alignUp base 8) (base + size) n p h') ↔
        n ≤ 0xFFFFFFF8 ∨
          ∀ a b, IsGap (alignUp base 8) (base + size) h.liveBlocks a b → b - a < 24) := by
  obtain ⟨⟨cells, hinv⟩, -⟩ := hrun.exists_inv hbase hend hacc
  cases hsome : allocate n cells with
  | none =>
    refine ⟨0, h, hinv.kmalloc_of_none hsome, iff_of_true (fun hne ↦ absurd rfl hne) ?_⟩
    rcases Nat.lt_or_ge 0xFFFFFFF8 n with hlt | hle
    · right
      rw [allocate_eq_none (by omega), requestSize_of_wrap hlt hn] at hsome
      exact hinv.forall_isGap_iff.2 hsome
    · exact Or.inl hle
  | some r =>
    obtain ⟨h', hcall, hinv', hlive, -⟩ := hinv.kmalloc_of_some hsome
    have hp := hinv.ptr_ne_zero hsome
    obtain ⟨c, hc, hfit, hptr, hgrant, -⟩ := exists_lowest_of_allocate hinv.tiles hsome
    have hsize : h'.size (r.1 - headerSize) = Heap.grantedSize (requestSize n) c := by
      rw [← hptr, c.ptr_sub_headerSize]
      exact hinv'.size_of_granted hgrant
    refine ⟨r.1, h', hcall, ?_⟩
    rcases Nat.lt_or_ge 0xFFFFFFF8 n with hlt | hle
    · -- the request wrapped: the block is far smaller
      rw [requestSize_of_wrap hlt hn] at hfit hsize
      refine iff_of_false (fun hholds ↦ ?_) (not_or.2 ⟨by omega, fun hall ↦ ?_⟩)
      · have := (hholds (by omega)).inside
        have := (hinv.tiles.bounds (mem_unused.1 hc).1)
        have := hinv.base_le
        omega
      · have := hinv.forall_isGap_iff.1 hall c hc
        omega
    · refine iff_of_true (fun _ ↦ hinv'.holdsRequest (by simp [hlive]) ?_) (Or.inl hle)
      rw [hsize]
      exact (le_requestSize hle).trans (le_grantedSize hfit)

/-- Twenty-four bytes go into the hole in front of the blocks. -/
theorem kmalloc_holdsRequest_holes : ∃ h h', HeapReach 0x100000 0x1000 (fun _ ↦ 0) h ∧
    h.live = [0x100058, 0x100028] ∧ kmalloc 24 h = some (0x100008, h') ∧
      HoldsRequest 0x100000 0x101000 24 0x100008 h' := by
  obtain ⟨h, hrun, hlive, hinv⟩ := Heap.exists_holes
  obtain ⟨p, h', hcall, hiff⟩ := kmalloc_holdsRequest_iff (n := 24) le_rfl (by decide) (by decide)
    hrun (by decide)
  have hsome : allocate 24 pageWithHoles = some (0x100008, [⟨0x100000, 32, true⟩,
      ⟨0x100020, 48, true⟩, ⟨0x100050, 24, true⟩, ⟨0x100068, 0xF98, false⟩]) := by decide
  obtain ⟨h'', hcall', -⟩ := hinv.kmalloc_of_some hsome
  obtain ⟨rfl, rfl⟩ := Prod.mk.inj (Option.some.inj (hcall.symm.trans hcall'))
  exact ⟨h, h', hrun, hlive, hcall, hiff.2 (Or.inl (by decide)) (by decide)⟩

/-- A request of all but one byte of the address space is granted on a fresh heap. -/
theorem kmalloc_max_fresh :
    HeapReach 0x100000 0x1000 (fun _ ↦ 0) (Heap.fresh 0x1000) ∧
      ∃ p h', kmalloc 0xFFFFFFFF (Heap.fresh 0x1000) = some (p, h') ∧ p ≠ 0 ∧
        ¬ HoldsRequest 0x100000 0x101000 0xFFFFFFFF p h' := by
  have hsome : allocate 0xFFFFFFFF [⟨0x100000, 0x1000, false⟩] =
      some (0x100008, [⟨0x100000, 24, true⟩, ⟨0x100018, 0xFE8, false⟩]) := by decide
  obtain ⟨h', hcall, -⟩ := (Heap.fresh_inv (by decide) (by decide)).kmalloc_of_some hsome
  refine ⟨Heap.fresh_reach _, 0x100008, h', hcall, by decide, ?_⟩
  intro hholds
  have := hholds.inside.2
  omega

end Run
