import BinbowsDOS.Fs.FormatMount
import BinbowsDOS.Heap.Placement
import Mathlib.Order.Interval.Set.Basic

/-!
# What the bitmap is written from

`create_bitmap` asks for as many bytes as the bitmap has, `kmalloc` rounds this up to eight, and
`elixir_write_bitmap` writes whole sectors of 512. Where the last two differ, the end of the last
sector comes from behind the block, where the free list keeps a header or another object lies.
`elixir_read_bitmap` asks for whole sectors.

`bitmapContained_iff` says for which sizes of a drive the two agree.
-/

open Arena Prog Kernel

/-- The bytes of the block at a pointer. -/
def Heap.payload (h : Heap) (p : ℕ) : Set ℕ := Set.Ico p (p + h.size (p - headerSize))

/-- `elixir_format`, started in `w`, has written the super block and made the bitmap `b`, and is
about to write it in the state `w'`. -/
structure ReachesWrite {σ : Type} [PortBus σ] (fuel drive : ℕ) (w : Kernel σ) (b : ℕ)
    (w' : Kernel σ) : Prop where
  /-- The heap. -/
  reach : ∃ base size mem, 0x100000 ≤ base ∧ base + size ≤ 2 ^ 32 ∧ RegionAccepted base size ∧
    HeapReach base size mem w.heap
  /-- The calls. -/
  calls : ∃ sb w₁ w₂, Runs (createSuper drive) w sb w₁ ∧ sb ≠ 0 ∧
    Runs (ideWriteSectorsCounted fuel drive elixirSuperblockLba sizeofSuperBlock sb) w₁ 0 w₂ ∧
    Runs (createBitmap drive) w₂ b w' ∧ b ≠ 0

/-- **The bitmap `b` is written from its own buffer**, on a drive at position `d` of channel
`c`. -/
structure BitmapContained (fuel drive c d b : ℕ) (w : Kernel AtaBus) : Prop where
  /-- The bytes handed to the driver lie in the block of the buffer. -/
  inside : Set.Ico (w.mem.get b BlockBitmap.bitmap) (w.mem.get b BlockBitmap.bitmap +
    512 * bitmapSectors (w.mem.get b BlockBitmap.total)) ⊆
      w.heap.payload (w.mem.get b BlockBitmap.bitmap)
  /-- These are what the disk gets. -/
  source : ∀ r w', Attached w drive c d → w.io.FaultFree fuel →
    Runs (elixirWriteBitmap fuel drive b) w r w' →
      ∀ j < bitmapSectors (w.mem.get b BlockBitmap.total),
        (w'.io.unit c d).sectors (elixirBitmapStartLba + j) =
          w.mem.sectorAt (w.mem.get b BlockBitmap.bitmap + 512 * j)
  /-- The bits that stand for no sector are clear on the disk. -/
  clear : ∀ r w', Attached w drive c d → w.io.FaultFree fuel →
    Runs (elixirWriteBitmap fuel drive b) w r w' →
      ∀ i, w.mem.get b BlockBitmap.total ≤ i →
        i < 4096 * bitmapSectors (w.mem.get b BlockBitmap.total) →
        diskBit (w'.io.unit c d).sectors i = false

/-! ### The three roundings -/

section Rounding

variable {n : ℕ}

theorem requestSize_bitmapBytes (h₁ : 32768 ≤ n) (h₂ : n + 7 < 2 ^ 32) :
    requestSize (bitmapBytes n) = (n + 63) / 64 * 8 := by
  rw [requestSize_eq ((bitmapBytes_le n).trans (by decide)), bitmapBytes, u32]
  omega

/-- The request covers the sectors exactly for these sizes. -/
theorem sectors_le_requestSize (h₁ : 32768 ≤ n) (h₂ : n + 7 < 2 ^ 32) :
    512 * bitmapSectors n ≤ requestSize (bitmapBytes n) ↔ n % 4096 = 0 ∨ 4032 < n % 4096 := by
  rw [requestSize_bitmapBytes h₁ h₂, bitmapSectors_eq h₂]
  omega

end Rounding

/-! ### The block -/

section Block

variable {lo hi n p q : ℕ} {cells cells₁ cells₂ : List Cell} {h : Heap}

/-- The size in the header of a block that has just been handed out. -/
theorem HeapInv.size_of_allocate (hinv : HeapInv lo hi h cells₁)
    (halloc : allocate n cells = some (p, cells₁)) : ∃ c ∈ cells, c.used = false ∧ c.ptr = p ∧
      requestSize n + 8 ≤ c.len ∧
      h.size (p - headerSize) = Heap.grantedSize (requestSize n) c := by
  obtain ⟨-, xs, c, ys, rfl, hc, hfit, -, rfl, rfl⟩ := allocate_eq_some.1 halloc
  refine ⟨c, by simp, hc, rfl, hfit, ?_⟩
  have hrec := hinv.recorded_eq (c := grantedCell (requestSize n) c) (by simp [carve, grantedCell])
    rfl
  rw [c.ptr_sub_headerSize]
  exact Nat.add_right_cancel hrec

end Block

section Reaches

variable {σ : Type} [PortBus σ] {w w' : Kernel σ} {fuel drive b : ℕ}

/-- What is in memory when a format gets to the write of its bitmap. -/
theorem ReachesWrite.held (h : ReachesWrite fuel drive w b w') :
    32768 ≤ w.driveSize drive ∧ ∃ lo hi cells cells₁ q cells₂,
      BitmapHeld lo hi (bitmapBytes (w.driveSize drive)) cells b cells₁ q cells₂ w'.heap ∧
      w'.mem.get b BlockBitmap.total = w.driveSize drive ∧
      ∀ i < requestSize (bitmapBytes (w.driveSize drive)), w'.mem (q + i) = 0 := by
  obtain ⟨base, size, mem, hbase, hend, hacc, hreach⟩ := h.reach
  obtain ⟨sb, w₁, w₂, hsuper, hsb, hwrite, hbitmap, hb⟩ := h.calls
  obtain ⟨⟨cells, hinv⟩, -⟩ := hreach.exists_inv hbase hend hacc
  have hdrive : drive < 4 := by
    by_contra hge
    rw [createSuper, if_pos (Nat.le_of_not_lt hge)] at hsuper
    exact hsb (runs_pure.1 hsuper).1.symm
  rcases createSuper_spec hinv hdrive with ⟨-, hrun⟩ |
    ⟨p, cells', h₁, halloc, hinv₁, hmem₁, ⟨-, hrun⟩ | ⟨spb, hspb, hrun, hsector⟩⟩
  · exact absurd (hsuper.unique hrun).1 hsb
  · exact absurd (hsuper.unique hrun).1 hsb
  · obtain ⟨rfl, rfl⟩ := hsuper.unique hrun
    have hs : SuperMade _ _ drive cells w spb sb cells' (w.setHeap h₁) :=
      ⟨hdrive, hspb, halloc, hrun, rfl, hinv₁, hmem₁, hsector⟩
    obtain ⟨hinv₂, hsize⟩ := hs.inv_written hwrite
    rw [← hsize] at hspb ⊢
    rcases createBitmap_spec hinv₂ hdrive with ⟨-, h₃, hrun₃, -⟩ |
      ⟨b', cells₁, q, cells₂, h₃, hrun₃, hheld, -, htotal, hzero⟩
    · exact absurd (hbitmap.unique hrun₃).1 hb
    · obtain ⟨rfl, rfl⟩ := hbitmap.unique hrun₃
      exact ⟨(sectorsPerBlock_bounds hspb).1, _, _, _, _, _, _, hheld, htotal, hzero⟩

end Reaches

/-! ### Sizes that fit -/

section Fits

variable {w w' w'' : Kernel AtaBus} {fuel drive b c d n : ℕ}

/-- A bit on the disk is one in memory. -/
theorem diskBit_of_sectorAt {s : ℕ → Sector} {m : ByteMem} {q i k : ℕ}
    (hsectors : ∀ j < k, s (elixirBitmapStartLba + j) = m.sectorAt (q + 512 * j))
    (hi : i < 4096 * k) : diskBit s i = m.bit q i := by
  rw [diskBit, hsectors _ (by omega), Sector.bytes, dif_pos (by omega), ByteMem.sectorAt,
    ByteMem.bit]
  show (m (q + 512 * (i / 4096) + i % 4096 / 8)).toNat.testBit (i % 8) = _
  rw [show q + 512 * (i / 4096) + i % 4096 / 8 = q + i / 8 by omega]

/-- **Where the roundings agree the bitmap is written from its own buffer.** -/
theorem ReachesWrite.bitmapContained (h : ReachesWrite fuel drive w b w')
    (hfits : n % 4096 = 0 ∨ 4032 < n % 4096) (hn : w.driveSize drive = n) :
    BitmapContained fuel drive c d b w' := by
  obtain ⟨hlarge, lo, hi, cells, cells₁, q, cells₂, hheld, htotal, hzero⟩ := h.held
  rw [hn] at hlarge hheld htotal hzero
  have hlt : n < 2 ^ 32 := hn ▸ w.driveSize_lt drive
  have hbytes : bitmapBytes n ≠ 0 := (allocate_eq_some.1 hheld.buffer).1
  have hsize : n + 7 < 2 ^ 32 := by
    rw [bitmapBytes, u32] at hbytes
    omega
  have hle := (sectors_le_requestSize hlarge hsize).2 hfits
  have hsource : ∀ r w'', Attached w' drive c d → w'.io.FaultFree fuel →
      Runs (elixirWriteBitmap fuel drive b) w' r w'' → ∀ j < bitmapSectors n,
        (w''.io.unit c d).sectors (elixirBitmapStartLba + j) = w'.mem.sectorAt (q + 512 * j) := by
    intro r w'' ha hf hrun j hj
    obtain ⟨err, hwrite, -⟩ := (elixirWriteBitmap_runs hheld.struct_ne hheld.bitmap_eq
      hheld.buffer_ne htotal).1 hrun
    obtain ⟨ph, b', hwrite', hserved⟩ := ideWriteSectorsCounted_spec q ha rfl hf (by omega)
      (bitmapEnd_le n)
    rw [Nat.mul_comm] at hwrite
    obtain ⟨-, rfl⟩ := hwrite.unique hwrite'
    rw [show (w'.setIo b').io.unit c d = _ from hserved.unit_eq]
    dsimp only
    rw [writeRange_apply_add hj]
  have hbitmap : w'.mem.get b BlockBitmap.bitmap = q := hheld.bitmap_eq
  refine ⟨?_, ?_, ?_⟩
  · obtain ⟨e, -, -, -, hfit, hblock⟩ := hheld.inv.size_of_allocate hheld.buffer
    have hgranted := le_grantedSize hfit
    rw [hbitmap, htotal, Heap.payload, hblock]
    exact Set.Ico_subset_Ico_right (by omega)
  · rw [hbitmap, htotal]
    exact hsource
  · rw [htotal]
    intro r w'' ha hf hrun i _ hi'
    rw [diskBit_of_sectorAt (hsource r w'' ha hf hrun) hi', ByteMem.bit, hzero _ (by omega)]
    exact Nat.zero_testBit _

end Fits

/-! ### Sizes that do not -/

section Misfits

variable {n : ℕ}

/-- The cells of a fresh heap of 1 GiB after the requests for a super block and a bitmap's
struct. -/
def formatCells : List Cell :=
  [⟨0x100000, 520, true⟩, ⟨0x100208, 24, true⟩, ⟨0x100220, 0x3FFFFDE0, false⟩]

theorem mem_formatCells {c : Cell} (hc : c ∈ formatCells) (hu : c.used = false) :
    c = ⟨0x100220, 0x3FFFFDE0, false⟩ := by
  simp only [formatCells, List.mem_cons, List.not_mem_nil, or_false] at hc
  rcases hc with rfl | rfl | rfl
  · exact absurd hu (by decide)
  · exact absurd hu (by decide)
  · rfl

theorem allocate_formatCells {k : ℕ} (hk : k ≠ 0) (hle : requestSize k ≤ 2 ^ 29 + 8) :
    allocate k formatCells = some (0x100228, carve (requestSize k)
      [⟨0x100000, 520, true⟩, ⟨0x100208, 24, true⟩] ⟨0x100220, 0x3FFFFDE0, false⟩ []) := by
  refine allocate_eq_some.2 ⟨hk, _, _, _, rfl, rfl, ?_, by simp [unused], rfl, rfl⟩
  show requestSize k + 8 ≤ 0x3FFFFDE0
  omega

/-- Such a heap has room for every bitmap, and splits off just what is asked for. -/
theorem exists_reachesWrite (h₁ : 32768 ≤ n) (h₂ : n + 7 < 2 ^ 32) :
    ∃ b w', ReachesWrite 1 0 (Kernel.blank (Heap.fresh 0x40000000) n) b w' ∧
      w'.heap.size (w'.mem.get b BlockBitmap.bitmap - headerSize) = requestSize (bitmapBytes n) ∧
      w'.mem.get b BlockBitmap.total = n := by
  have hn : (Kernel.blank (Heap.fresh 0x40000000) n).driveSize 0 = n :=
    UInt32.toNat_ofNat_of_lt (show n < 2 ^ 32 by omega)
  have hinv : HeapInv 0x100000 (0x100000 + 0x40000000)
      (Kernel.blank (Heap.fresh 0x40000000) n).heap _ := Heap.fresh_inv (by decide) (by decide)
  obtain ⟨spb, hspb⟩ : ∃ spb, sectorsPerBlock n = some spb := by
    cases hspb : sectorsPerBlock n with
    | none => exact absurd (sectorsPerBlock_eq_none.1 hspb) (by omega)
    | some spb => exact ⟨spb, rfl⟩
  obtain ⟨w₁, hs⟩ := exists_superMade hinv (by decide) (hn.symm ▸ hspb)
    (show allocate sizeofSuperBlock _ =
      some (0x100008, [⟨0x100000, 520, true⟩, ⟨0x100208, 0x3FFFFDF8, false⟩]) from rfl)
  have ha : Attached (Kernel.blank (Heap.fresh 0x40000000) n) 0 0 0 :=
    Kernel.attached_blank _ _ (by decide)
  obtain ⟨_, b', hwrite, -⟩ := ideWriteSectorsCounted_one_spec (hs.attached ha) rfl
    (fun k ↦ show w₁.io.latency k < 1 from hs.io_eq ▸ Nat.one_pos)
    (show elixirSuperblockLba < 2 ^ 28 by decide)
  obtain ⟨hinv₂, hsize⟩ := hs.inv_written hwrite
  rw [hn] at hsize
  have hreq := requestSize_bitmapBytes h₁ h₂
  have hstruct : allocate sizeofBlockBitmap
      [⟨0x100000, 520, true⟩, ⟨0x100208, 0x3FFFFDF8, false⟩] = some (0x100210, formatCells) := rfl
  have hbytes : bitmapBytes n ≠ 0 := by
    rw [bitmapBytes, u32]
    omega
  rcases createBitmap_spec hinv₂ (show 0 < 4 by decide) with ⟨hzero | hrefused, -⟩ |
    ⟨b, cells₁, q, cells₂, h₃, hbitmap, hheld, -, htotal, -⟩
  · omega
  · rw [hsize] at hrefused
    exact absurd hrefused (BitmapAllocated.not_refused
      ⟨hstruct, allocate_formatCells hbytes (by omega)⟩)
  · rw [hsize] at hheld htotal
    refine ⟨b, _, ⟨⟨0x100000, 0x40000000, _, by decide, by decide, by decide, Heap.fresh_reach _⟩,
      0x100008, w₁, _, hs.run, by decide, hwrite, hbitmap, hheld.struct_ne⟩, ?_, htotal⟩
    have hcells := Option.some.inj (hheld.struct.symm.trans hstruct)
    obtain ⟨rfl, rfl⟩ := Prod.mk.inj hcells
    obtain ⟨e, he, hu, -, -, hblock⟩ := hheld.inv.size_of_allocate hheld.buffer
    obtain rfl := mem_formatCells he hu
    show h₃.size (h₃.mem.get _ BlockBitmap.bitmap - headerSize) = _
    rw [hheld.bitmap_eq, hblock, Heap.grantedSize, if_pos]
    show requestSize (bitmapBytes n) + 32 ≤ 0x3FFFFDE0
    omega

end Misfits

/-- **The bitmap is written from its own buffer exactly for the sizes whose bitmap fills whole
sectors up to the allocator's rounding.** A drive of fewer than 32768 or more than 4294967288
sectors is given up before. -/
theorem bitmapContained_iff (n : ℕ) :
    (∀ fuel drive c d w b w', Kernel.driveSize w drive = n → ReachesWrite fuel drive w b w' →
      BitmapContained fuel drive c d b w') ↔
      n < 32768 ∨ 4294967288 < n ∨ n % 4096 = 0 ∨ 4032 < n % 4096 := by
  constructor
  · intro h
    by_contra hn
    obtain ⟨b, w', hreach, hblock, htotal⟩ := exists_reachesWrite (n := n) (by omega) (by omega)
    have hsize : (Kernel.blank (Heap.fresh 0x40000000) n).driveSize 0 = n :=
      UInt32.toNat_ofNat_of_lt (show n < 2 ^ 32 by omega)
    have hinside := (h 1 0 0 0 _ b w' hsize hreach).inside
    rw [Heap.payload, hblock, htotal] at hinside
    have hpos : 0 < bitmapSectors n := by
      rw [bitmapSectors_eq (by omega)]
      omega
    have hend := ((Set.Ico_subset_Ico_iff (by omega)).1 hinside).2
    have hle : 512 * bitmapSectors n ≤ requestSize (bitmapBytes n) := by omega
    have hfits := (sectors_le_requestSize (n := n) (by omega) (by omega)).1 hle
    omega
  · intro hn fuel drive c d w b w' hsize hreach
    obtain ⟨hlarge, _, _, _, _, _, _, hheld, -⟩ := hreach.held
    have hbytes : bitmapBytes (w.driveSize drive) ≠ 0 := (allocate_eq_some.1 hheld.buffer).1
    have hlt := w.driveSize_lt drive
    rw [bitmapBytes, u32] at hbytes
    exact hreach.bitmapContained (by omega) hsize

/-- A drive of 32769 sectors has a bitmap of 4097 bytes, in a block of 4104, and nine sectors of
it are written. -/
theorem not_bitmapContained_32769 :
    ∃ b w', ReachesWrite 1 0 (Kernel.blank (Heap.fresh 0x40000000) 32769) b w' ∧
      w'.heap.size (w'.mem.get b BlockBitmap.bitmap - headerSize) = 4104 ∧
      ¬ BitmapContained 1 0 0 0 b w' := by
  obtain ⟨b, w', hreach, hblock, htotal⟩ := exists_reachesWrite (n := 32769) (by decide) (by decide)
  have hreq : requestSize (bitmapBytes 32769) = 4104 := by decide
  have hsectors : bitmapSectors 32769 = 9 := by decide
  refine ⟨b, w', hreach, hblock.trans hreq, ?_⟩
  intro h
  have hinside := h.inside
  rw [Heap.payload, hblock, htotal, hreq, hsectors] at hinside
  have hle := ((Set.Ico_subset_Ico_iff (by omega)).1 hinside).2
  omega
