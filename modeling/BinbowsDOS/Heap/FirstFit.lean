import BinbowsDOS.Heap.Run

/-!
# First fit on cells

The abstract allocator: a state is a list of cells, `allocate` carves the first unused cell that
fits, and giving the block back restores the list one had (`kfree_of_allocate`). The C functions
refine it under the heap invariant, so two heaps with the same cells answer every request
alike, and a caller that frees in the opposite order of its requests leaves the cells as it
found them.

The bytes that belong to the clients of a heap, `Arena.Client`, are a function of the cells too;
neither call touches one.
-/

open Arena

/-- The first unused cell that can hold `n` bytes, with what is before and after it. -/
def firstFit (n : ℕ) : List Cell → Option (List Cell × Cell × List Cell)
  | [] => none
  | c :: cells =>
    if c.used = false ∧ n + headerSize ≤ c.len then some ([], c, cells)
    else (firstFit n cells).map fun r ↦ (c :: r.1, r.2.1, r.2.2)

/-- `kmalloc` on cells: the pointer and the cells after a request of `n` bytes. -/
def allocate (n : ℕ) (cells : List Cell) : Option (ℕ × List Cell) :=
  if n = 0 then none
  else (firstFit (requestSize n) cells).map fun r ↦
    (r.2.1.ptr, carve (requestSize n) r.1 r.2.1 r.2.2)

/-- Requests served one after the other, on cells. -/
def allocates : List ℕ → List Cell → Option (List Cell)
  | [], cells => some cells
  | n :: ns, cells => (allocate n cells).bind fun r ↦ allocates ns r.2

/-- `kmalloc` serves these requests one after the other. -/
def Heap.serves : List ℕ → Heap → Bool
  | [], _ => true
  | n :: ns, h => match kmalloc n h with
    | some (p, h') => p ≠ 0 && h'.serves ns
    | none => false

/-- A byte outside the region or in the payload of a used cell. -/
def Arena.Client (lo hi : ℕ) (cells : List Cell) (x : ℕ) : Prop :=
  (x < lo ∨ hi ≤ x) ∨ ∃ c ∈ cells, c.used = true ∧ c.ptr ≤ x ∧ x < c.addr + c.len

section FirstFit

variable {n p lo hi x : ℕ} {cells cells' xs ys : List Cell} {c : Cell}

theorem firstFit_eq_some :
    firstFit n cells = some (xs, c, ys) ↔
      cells = xs ++ c :: ys ∧ c.used = false ∧ n + 8 ≤ c.len ∧
        ∀ d ∈ unused xs, d.len < n + 8 := by
  induction cells generalizing xs with
  | nil => simp [firstFit]
  | cons e cells ih =>
    rw [firstFit]
    -- induction on the cells; the first one is taken or is in front of the one taken
    by_cases hfit : e.used = false ∧ n + headerSize ≤ e.len
    · rw [if_pos hfit]
      constructor
      · intro heq
        obtain ⟨rfl, rfl, rfl⟩ : [] = xs ∧ e = c ∧ cells = ys := by simpa using heq
        exact ⟨rfl, hfit.1, hfit.2, by simp⟩
      · rintro ⟨heq, -, -, hfirst⟩
        cases xs with
        | nil =>
          obtain ⟨rfl, rfl⟩ := List.cons.inj heq
          rfl
        | cons f xs =>
          obtain ⟨rfl, -⟩ := List.cons.inj heq
          have := hfirst e (mem_unused.2 ⟨by simp, hfit.1⟩)
          have hlen : n + 8 ≤ e.len := hfit.2
          omega
    · rw [if_neg hfit, Option.map_eq_some_iff]
      constructor
      · rintro ⟨⟨us, d, vs⟩, hsome, heq⟩
        obtain ⟨rfl, rfl, rfl⟩ : e :: us = xs ∧ d = c ∧ vs = ys := by simpa using heq
        obtain ⟨rfl, hd, hlen, hfirst⟩ := ih.1 hsome
        refine ⟨rfl, hd, hlen, ?_⟩
        intro f hf
        obtain ⟨hmem, hfu⟩ := mem_unused.1 hf
        rcases List.mem_cons.1 hmem with rfl | hmem
        · exact Nat.not_le.1 (not_and.1 hfit hfu)
        · exact hfirst f (mem_unused.2 ⟨hmem, hfu⟩)
      · rintro ⟨heq, hc, hlen, hfirst⟩
        cases xs with
        | nil =>
          obtain ⟨rfl, -⟩ := List.cons.inj heq
          exact absurd ⟨hc, hlen⟩ hfit
        | cons f xs =>
          obtain ⟨rfl, rfl⟩ := List.cons.inj heq
          refine ⟨(xs, c, ys), ih.2 ⟨rfl, hc, hlen, fun d hd ↦ hfirst d ?_⟩, rfl⟩
          exact mem_unused.2 ⟨List.mem_cons_of_mem _ (mem_unused.1 hd).1, (mem_unused.1 hd).2⟩

/-- An allocation carves some cell. -/
theorem allocate_eq_some :
    allocate n cells = some (p, cells') ↔
      n ≠ 0 ∧ ∃ xs c ys, cells = xs ++ c :: ys ∧ c.used = false ∧ requestSize n + 8 ≤ c.len ∧
        (∀ d ∈ unused xs, d.len < requestSize n + 8) ∧ c.ptr = p ∧
        carve (requestSize n) xs c ys = cells' := by
  rw [allocate]
  rcases eq_or_ne n 0 with hn | hn
  · simp [hn]
  · rw [if_neg hn, Option.map_eq_some_iff]
    constructor
    · rintro ⟨⟨xs, c, ys⟩, hsome, heq⟩
      obtain ⟨hp, hcells⟩ := Prod.mk.inj heq
      obtain ⟨hsplit, hc, hlen, hfirst⟩ := firstFit_eq_some.1 hsome
      exact ⟨hn, xs, c, ys, hsplit, hc, hlen, hfirst, hp, hcells⟩
    · rintro ⟨-, xs, c, ys, hsplit, hc, hlen, hfirst, rfl, rfl⟩
      exact ⟨(xs, c, ys), firstFit_eq_some.2 ⟨hsplit, hc, hlen, hfirst⟩, rfl⟩

/-! ### The cells after an allocation -/

/-- The block an allocation adds. -/
def grantedCell (n : ℕ) (c : Cell) : Cell := ⟨c.addr, Heap.grantedSize n c + 8, true⟩

theorem le_grantedSize (hfit : n + 8 ≤ c.len) : n ≤ Heap.grantedSize n c := by
  rw [Heap.grantedSize]
  split <;> omega

/-- An allocation adds one used cell. -/
theorem exists_grantedCell (h : allocate n cells = some (p, cells')) :
    ∃ d : Cell, d.used = true ∧ d.ptr = p ∧ p + requestSize n ≤ d.addr + d.len ∧
      (cells'.filter Cell.used).Perm (d :: cells.filter Cell.used) := by
  obtain ⟨-, xs, c, ys, rfl, hc, hfit, -, rfl, rfl⟩ := allocate_eq_some.1 h
  refine ⟨grantedCell (requestSize n) c, rfl, rfl, ?_, ?_⟩
  · have := le_grantedSize hfit
    rw [c.ptr_eq]
    simp only [grantedCell]
    omega
  · rw [filter_used_carve, List.filter_append, List.filter_cons_of_neg (by simp [hc])]
    exact List.perm_middle

theorem client_iff :
    Client lo hi cells x ↔ (x < lo ∨ hi ≤ x) ∨
      ∃ c ∈ cells.filter Cell.used, c.ptr ≤ x ∧ x < c.addr + c.len := by
  simp only [Client, List.mem_filter, and_assoc]

/-- The clients keep what is theirs. -/
theorem Arena.Client.allocate (h : allocate n cells = some (p, cells'))
    (hx : Client lo hi cells x) : Client lo hi cells' x := by
  obtain ⟨d, -, -, -, hperm⟩ := exists_grantedCell h
  rw [client_iff] at hx ⊢
  refine hx.imp_right fun ⟨c, hc, hcx⟩ ↦ ⟨c, hperm.mem_iff.2 (List.mem_cons_of_mem _ hc), hcx⟩

/-- The block is theirs. -/
theorem client_of_allocate (h : allocate n cells = some (p, cells')) (h₁ : p ≤ x)
    (h₂ : x < p + requestSize n) : Client lo hi cells' x := by
  obtain ⟨d, -, rfl, hlen, hperm⟩ := exists_grantedCell h
  exact client_iff.2 (Or.inr ⟨d, hperm.mem_iff.2 List.mem_cons_self, h₁, by omega⟩)

/-- A byte of an unused cell is not theirs. -/
theorem not_client_of_covers (ht : Tiles lo hi cells) (hc : c ∈ cells) (hu : c.used = false)
    (hx : c.Covers x) : ¬ Client lo hi cells x := by
  have hbounds := ht.bounds hc
  have h₁ := hx.1
  have h₂ := hx.2
  rintro (hout | ⟨d, hd, hdu, h₃, h₄⟩)
  · omega
  · have hne : c.addr ≠ d.addr := by
      intro heq
      rw [ht.eq_of_addr_eq hc hd heq, hdu] at hu
      exact Bool.noConfusion hu
    rw [d.ptr_eq] at h₃
    rcases ht.disjoint hc hd hne with hlt | hlt <;> omega

/-- The block was not theirs before. -/
theorem not_client_of_allocate (ht : Tiles lo hi cells) (h : allocate n cells = some (p, cells'))
    (h₁ : p ≤ x) (h₂ : x < p + requestSize n) : ¬ Client lo hi cells x := by
  obtain ⟨-, xs, c, ys, rfl, hc, hfit, -, rfl, -⟩ := allocate_eq_some.1 h
  rw [c.ptr_eq] at h₁ h₂
  exact not_client_of_covers ht (c := c) (by simp) hc ⟨by omega, by omega⟩

/-- An object no longer than the request is its owner's. -/
theorem client_of_allocate_of_le {m : ℕ} (h : allocate n cells = some (p, cells'))
    (hm : m ≤ requestSize n) (h₁ : p ≤ x) (h₂ : x < p + m) : Client lo hi cells' x :=
  client_of_allocate h h₁ (by omega)

/-- It lies outside everything that was a client's before. -/
theorem outside_of_allocate {m : ℕ} (ht : Tiles lo hi cells)
    (h : allocate n cells = some (p, cells')) (hm : m ≤ requestSize n)
    (hx : Client lo hi cells x) : x < p ∨ p + m ≤ x := by
  by_contra hin
  exact not_client_of_allocate ht h (by omega) (by omega) hx

end FirstFit

/-! ### The C functions refine it -/

namespace HeapInv

variable {lo hi n p x : ℕ} {h : Heap} {cells cells' : List Cell}

theorem clientByte_iff (hinv : HeapInv lo hi h cells) :
    h.ClientByte lo hi x ↔ Client lo hi cells x := by
  refine or_congr_right ⟨fun ⟨p, hp, h₁, h₂⟩ ↦ ?_, fun ⟨c, hc, hu, h₁, h₂⟩ ↦ ?_⟩
  · obtain ⟨c, hc, hu, rfl⟩ := hinv.exists_cell hp
    have hrec := hinv.recorded_eq hc hu
    rw [c.ptr_sub_headerSize, c.ptr_eq] at h₂
    exact ⟨c, hc, hu, h₁, by omega⟩
  · have hrec := hinv.recorded_eq hc hu
    refine ⟨c.ptr, hinv.ptr_mem_live hc hu, h₁, ?_⟩
    rw [c.ptr_sub_headerSize, c.ptr_eq]
    omega

/-- Stores of the clients keep the invariant, and the cells. -/
theorem client (hinv : HeapInv lo hi h cells) {mem : ByteMem}
    (hmem : ∀ x, ¬ Client lo hi cells x → mem x = h.mem x) :
    HeapInv lo hi { h with mem := mem } cells :=
  hinv.of_headers fun _ hc x h₁ h₂ ↦
    hmem x fun hx ↦ hinv.not_clientByte_header hc h₁ h₂ (hinv.clientByte_iff.2 hx)

/-- **`kmalloc` turns a request down** exactly as the abstract allocator does. -/
theorem kmalloc_of_none (hinv : HeapInv lo hi h cells) (hnone : allocate n cells = none) :
    kmalloc n h = some (0, h) := by
  rcases eq_or_ne n 0 with hn | hn
  · rw [kmalloc, if_pos hn]
  · rcases hinv.kmalloc_spec hn with ⟨hcall, -⟩ | ⟨xs, c, ys, h', hcells, hc, hfit, hfirst, -⟩
    · exact hcall
    · rw [allocate_eq_some.2 ⟨hn, xs, c, ys, hcells, hc, hfit, hfirst, rfl, rfl⟩] at hnone
      exact absurd hnone (by simp)

/-- **`kmalloc` serves a request** as the abstract allocator does, clears the block and leaves
the clients' bytes alone. -/
theorem kmalloc_of_some (hinv : HeapInv lo hi h cells)
    (hsome : allocate n cells = some (p, cells')) :
    ∃ h', kmalloc n h = some (p, h') ∧ HeapInv lo hi h' cells' ∧ h'.live = p :: h.live ∧
      (∀ x, Client lo hi cells x → h'.mem x = h.mem x) ∧
      ∀ i < requestSize n, h'.mem (p + i) = 0 := by
  obtain ⟨hn, us, d, vs, hsplit, hd, hfit', hfirst', hp, hcells'⟩ := allocate_eq_some.1 hsome
  rcases hinv.kmalloc_spec hn with ⟨-, hall⟩ |
    ⟨xs, c, ys, h', hcells, hc, hfit, hfirst, hcall, hinv', hlive, hw, hzero⟩
  · have := hall d (mem_unused.2 ⟨by simp [hsplit], hd⟩)
    omega
  · have hsame := allocate_eq_some.2 ⟨hn, xs, c, ys, hcells, hc, hfit, hfirst, rfl, rfl⟩
    obtain ⟨rfl, rfl⟩ := Prod.mk.inj (Option.some.inj (hsome.symm.trans hsame))
    refine ⟨h', hcall, hinv', hlive, fun x hx ↦ hw.mem x ?_, hzero⟩
    rintro (hhead | hcov)
    · obtain ⟨e, he, h₁, h₂⟩ := hhead
      have hemem : e ∈ cells := by simp [hcells, (mem_unused.1 he).1]
      have hlen := hinv.header_le e hemem
      exact not_client_of_covers hinv.tiles hemem (mem_unused.1 he).2 ⟨h₁, by omega⟩ hx
    · exact not_client_of_covers hinv.tiles (by simp [hcells]) hc hcov hx

/-- A pointer handed out is not `NULL`. -/
theorem ptr_ne_zero (hinv : HeapInv lo hi h cells) (hsome : allocate n cells = some (p, cells')) :
    0x100000 < p := by
  obtain ⟨-, xs, c, ys, rfl, -, -, -, rfl, -⟩ := allocate_eq_some.1 hsome
  have := hinv.base_le_addr (c := c) (by simp)
  rw [c.ptr_eq]
  omega

/-- The two allocators serve the same requests. -/
theorem allocate_iff_kmalloc (hinv : HeapInv lo hi h cells) :
    (∃ p cells', allocate n cells = some (p, cells')) ↔
      ∃ p h', kmalloc n h = some (p, h') ∧ p ≠ 0 := by
  constructor
  · rintro ⟨p, cells', hsome⟩
    obtain ⟨h', hcall, -⟩ := hinv.kmalloc_of_some hsome
    have := hinv.ptr_ne_zero hsome
    exact ⟨p, h', hcall, by omega⟩
  · rintro ⟨p, h', hcall, hp⟩
    cases hsome : allocate n cells with
    | none =>
      rw [hinv.kmalloc_of_none hsome] at hcall
      exact absurd (Prod.mk.inj (Option.some.inj hcall)).1.symm hp
    | some r => exact ⟨r.1, r.2, rfl⟩

/-- So they do in a row. -/
theorem serves_iff {ns : List ℕ} (hinv : HeapInv lo hi h cells) :
    h.serves ns = true ↔ (allocates ns cells).isSome = true := by
  induction ns generalizing h cells with
  | nil => simp [Heap.serves, allocates]
  | cons n ns ih =>
    rw [Heap.serves, allocates]
    cases hsome : allocate n cells with
    | none => simp [hinv.kmalloc_of_none hsome]
    | some r =>
      obtain ⟨h', hcall, hinv', -⟩ := hinv.kmalloc_of_some hsome
      have hp := hinv.ptr_ne_zero hsome
      have hne : r.1 ≠ 0 := by omega
      simp [hcall, hne, ih hinv']

/-- The block handed out lies inside the region. -/
theorem ptr_add_le (hinv : HeapInv lo hi h cells) (hsome : allocate n cells = some (p, cells')) :
    p + requestSize n ≤ hi := by
  obtain ⟨-, xs, c, ys, rfl, -, hfit, -, rfl, -⟩ := allocate_eq_some.1 hsome
  have := (hinv.tiles.bounds (c := c) (by simp)).2.2
  rw [c.ptr_eq]
  omega

/-- **`kfree` undoes an allocation**: if the cells are those after a request, giving the block
back leaves those before it. -/
theorem kfree_of_allocate (hinv : HeapInv lo hi h cells') (ht : Tiles lo hi cells)
    (hco : Coalesced cells) (hsome : allocate n cells = some (p, cells')) :
    ∃ h', kfree p h = some h' ∧ HeapInv lo hi h' cells ∧ h'.live = h.live.erase p ∧
      ∀ x, Client lo hi cells' x → h'.mem x = h.mem x := by
  obtain ⟨hn, xs, c, ys, rfl, hc, hfit, -, rfl, rfl⟩ := allocate_eq_some.1 hsome
  have hinv₀ : HeapInv lo hi h (xs ++ grantedCell (requestSize n) c ::
      (Heap.remainder (requestSize n) c ++ ys)) := hinv
  obtain ⟨h', hcall, hinv', hlive, hw⟩ := hinv₀.kfree_spec rfl
  have hcells : release xs (grantedCell (requestSize n) c)
      (Heap.remainder (requestSize n) c ++ ys) = xs ++ c :: ys := by
    refine eq_of_filter_used_eq hinv'.tiles hinv'.coalesced ht hco ?_
    rw [release, filter_used_coalesce, List.filter_append, List.filter_cons_of_neg (by simp),
      List.filter_append, filter_used_remainder, List.filter_append,
      List.filter_cons_of_neg (by simp [hc]), List.nil_append]
  refine ⟨h', hcall, hcells ▸ hinv', hlive, fun x hx ↦ hw.mem x ?_⟩
  intro hhead
  obtain ⟨e, he, h₁, h₂⟩ := hhead
  obtain ⟨hemem, heu⟩ := mem_unused.1 he
  -- the header of the freed block is no payload either
  obtain ⟨e', he', haddr⟩ : ∃ e' ∈ xs ++ grantedCell (requestSize n) c ::
      (Heap.remainder (requestSize n) c ++ ys), e'.addr = e.addr := by
    rw [List.mem_append, List.mem_cons] at hemem
    rcases hemem with hmem | rfl | hmem
    · exact ⟨e, by simp [hmem], rfl⟩
    · exact ⟨grantedCell (requestSize n) c, by simp, rfl⟩
    · exact ⟨e, by simp [List.mem_append.1 hmem], rfl⟩
  exact hinv₀.not_clientByte_header he' (haddr ▸ h₁) (haddr ▸ h₂) (hinv₀.clientByte_iff.2 hx)

end HeapInv

/-! ### A fresh heap -/

/-- A heap of `size` bytes at one megabyte, on blank memory, before the first call. -/
def Heap.fresh (size : ℕ) : Heap := initAllocatorRegion 0x100000 size (Heap.boot fun _ ↦ 0)

theorem Heap.fresh_reach (size : ℕ) : HeapReach 0x100000 size (fun _ ↦ 0) (Heap.fresh size) := .refl

theorem Heap.fresh_inv {size : ℕ} (h₁ : 8 < size) (h₂ : size ≤ 2 ^ 31) :
    HeapInv 0x100000 (0x100000 + size) (Heap.fresh size) [⟨0x100000, size, false⟩] := by
  have haligned : alignedStart 0x100000 = 0x100000 := by decide
  have hacc : RegionAccepted 0x100000 size := by
    refine Nat.not_le.2 ?_
    rw [show u32 (headerSize + sub32 (alignUp 0x100000 alignSize) 0x100000) = 8 by decide]
    exact h₁
  have := initAllocatorRegion_spec le_rfl (by omega) hacc
    fun _ ↦ 0
  rwa [haligned, Nat.add_sub_cancel_left] at this

/-- A page with two blocks in use, a hole in front of them and the rest behind them. -/
def pageWithHoles : List Cell :=
  [⟨0x100000, 32, false⟩, ⟨0x100020, 48, true⟩, ⟨0x100050, 24, true⟩, ⟨0x100068, 0xF98, false⟩]

theorem Heap.exists_holes : ∃ h, HeapReach 0x100000 0x1000 (fun _ ↦ 0) h ∧
    h.live = [0x100058, 0x100028] ∧ HeapInv 0x100000 0x101000 h pageWithHoles := by
  have hinv : HeapInv 0x100000 (0x100000 + 0x1000) (Heap.fresh 0x1000)
      [⟨0x100000, 0x1000, false⟩] := Heap.fresh_inv (by decide) (by decide)
  have hfirst : allocate 24 [⟨0x100000, 0x1000, false⟩] =
      some (0x100008, [⟨0x100000, 32, true⟩, ⟨0x100020, 0xFE0, false⟩]) := by decide
  obtain ⟨h₁, hcall₁, hinv₁, hlive₁, -⟩ := hinv.kmalloc_of_some hfirst
  have hsecond : allocate 40 [⟨0x100000, 32, true⟩, ⟨0x100020, 0xFE0, false⟩] = some (0x100028,
      [⟨0x100000, 32, true⟩, ⟨0x100020, 48, true⟩, ⟨0x100050, 0xFB0, false⟩]) := by decide
  obtain ⟨h₂, hcall₂, hinv₂, hlive₂, -⟩ := hinv₁.kmalloc_of_some hsecond
  have hthird : allocate 16 [⟨0x100000, 32, true⟩, ⟨0x100020, 48, true⟩,
      ⟨0x100050, 0xFB0, false⟩] = some (0x100058, [] ++ ⟨0x100000, 32, true⟩ ::
        [⟨0x100020, 48, true⟩, ⟨0x100050, 24, true⟩, ⟨0x100068, 0xF98, false⟩]) := by decide
  obtain ⟨h₃, hcall₃, hinv₃, hlive₃, -⟩ := hinv₂.kmalloc_of_some hthird
  obtain ⟨h₄, hcall₄, hinv₄, hlive₄, -⟩ := hinv₃.kfree_spec rfl
  have hheld : 0x100008 ∈ h₃.live := hinv₃.ptr_mem_live List.mem_cons_self rfl
  refine ⟨h₄, .tail (.tail (.tail (.tail .refl (.malloc (by decide) hcall₁))
    (.malloc (by decide) hcall₂)) (.malloc (by decide) hcall₃)) (.free hheld hcall₄), ?_, hinv₄⟩
  rw [hlive₄, hlive₃, hlive₂, hlive₁]
  rfl

/-- The hole in front is too short for forty bytes. -/
theorem HeapInv.kmalloc_behind_holes {h : Heap}
    (hinv : HeapInv 0x100000 0x101000 h pageWithHoles) :
    ∃ h', kmalloc 40 h = some (0x100070, h') := by
  have hsome : allocate 40 pageWithHoles = some (0x100070, [⟨0x100000, 32, false⟩,
      ⟨0x100020, 48, true⟩, ⟨0x100050, 24, true⟩, ⟨0x100068, 48, true⟩,
        ⟨0x100098, 0xF68, false⟩]) := by decide
  obtain ⟨h', hcall, -⟩ := hinv.kmalloc_of_some hsome
  exact ⟨h', hcall⟩
