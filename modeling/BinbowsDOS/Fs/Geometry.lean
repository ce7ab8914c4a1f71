import BinbowsDOS.Fs.FormatMount
import BinbowsDOS.Ide.Watch
import Mathlib.Order.CompletePartialOrder
import Mathlib.Order.Interval.Set.Disjoint

/-!
# The numbers in the super block

`create_super` divides a drive into blocks and regions. This is the arithmetic of it, for every
size: what the block size says about the drive (`describesDrive_iff`), and where the regions
lie (`regionsFit_of_runs`). The sizes are stored in 16 and 32 bits; the one that does not fit
is the block size of the largest class, 128 sectors of 512 bytes.

The extent of the bitmap is computed twice, from sectors by `create_super` and from bytes by
`elixir_write_bitmap`. The second is taken from the traffic: `sectorsSent` counts the sectors that
go out.
-/

open Prog Kernel

/-! ### The super block of a run -/

section Super

variable {σ : Type} {w w' : Kernel σ} {drive p n spb : ℕ}

/-- A run of `create_super` that returns a super block has computed it from the size of the drive,
whatever the state of the heap. -/
theorem createSuper_load (h : Runs (createSuper drive) w p w') (hp : p ≠ 0) :
    ∃ spb, sectorsPerBlock (w.driveSize drive) = some spb ∧
      SuperBlock.load w'.mem p = superBlockFor (w.driveSize drive) spb := by
  rw [createSuper] at h
  split at h
  case isTrue => exact absurd (runs_pure.1 h).1.symm hp
  case isFalse =>
    rw [runs_get_bind] at h
    obtain ⟨sb, t, -, h⟩ := runs_bind.1 h
    split at h
    case isTrue => exact absurd (runs_pure.1 h).1.symm hp
    case isFalse =>
      rw [runs_bind_of_runs (memset_apply ..)] at h
      cases hspb : sectorsPerBlock (w.driveSize drive) with
      | none =>
        rw [hspb] at h
        exact absurd (runs_pure.1 h).1.symm hp
      | some spb =>
        rw [hspb] at h
        obtain ⟨rfl, rfl⟩ := Prod.mk.inj (Option.some.inj h)
        exact ⟨spb, rfl, load_superMem (w.driveSize_lt drive)⟩

end Super

/-! ### The blocks -/

/-- **The blocks of a super block describe a drive** of `size` sectors with `spb` sectors to the
block: they have that size, and as many of them as fit on the drive. -/
structure DescribesDrive (sb : SuperBlock) (size spb : ℕ) : Prop where
  /-- There is something in a block. -/
  blockSize_pos : 0 < sb.blockSize
  /-- The block size in bytes. -/
  blockSize_eq : sb.blockSize = 512 * spb
  /-- The blocks fit. -/
  le_size : sb.totalBlocks * sb.blockSize ≤ 512 * size
  /-- One more does not. -/
  size_lt : 512 * size < (sb.totalBlocks + 1) * sb.blockSize

section Blocks

variable {σ : Type} {w w' : Kernel σ} {drive p n spb : ℕ}

/-- The largest class is the one whose blocks are too large for their field. -/
theorem sectorsPerBlock_lt (h : sectorsPerBlock n = some spb) : spb < 128 ↔ n < 134217728 := by
  rw [sectorsPerBlock] at h
  split_ifs at h <;> simp only [Option.some.injEq] at h <;> omega

theorem describesDrive_superBlockFor (hspb : sectorsPerBlock n = some spb) :
    DescribesDrive (superBlockFor n spb) n spb ↔ n < 134217728 := by
  obtain ⟨-, h₁, h₂⟩ := sectorsPerBlock_bounds hspb
  have hclass := sectorsPerBlock_lt hspb
  have hsize : (superBlockFor n spb).blockSize = u16 (512 * spb) := rfl
  have hblocks : (superBlockFor n spb).totalBlocks = n / spb := rfl
  constructor
  · intro h
    have heq := h.blockSize_eq
    rw [hsize, u16] at heq
    omega
  · intro hn
    have hfits : u16 (512 * spb) = 512 * spb := by
      rw [u16]
      omega
    have hle : n / spb * spb ≤ n := Nat.div_mul_le_self n spb
    have hlt : n < (n / spb + 1) * spb := by
      rw [Nat.add_one_mul]
      exact Nat.lt_div_mul_add (by omega)
    refine ⟨?_, ?_, ?_, ?_⟩
    · rw [hsize, hfits]
      omega
    · rw [hsize, hfits]
    · rw [hsize, hfits, hblocks, Nat.mul_left_comm]
      exact Nat.mul_le_mul_left 512 hle
    · rw [hsize, hfits, hblocks, Nat.mul_left_comm]
      exact Nat.mul_lt_mul_of_pos_left hlt (by decide)

/-- **The block geometry of a super block is right exactly for drives below 64 GiB.** -/
theorem describesDrive_iff (h : Runs (createSuper drive) w p w') (hp : p ≠ 0)
    (hspb : sectorsPerBlock (w.driveSize drive) = some spb) :
    DescribesDrive (SuperBlock.load w'.mem p) (w.driveSize drive) spb ↔
      w.driveSize drive < 134217728 := by
  obtain ⟨spb', hspb', hload⟩ := createSuper_load h hp
  obtain rfl : spb = spb' := Option.some.inj (hspb.symm.trans hspb')
  rw [hload]
  exact describesDrive_superBlockFor hspb

/-- On a fresh heap `create_super` makes a super block for every drive that is large enough. -/
theorem exists_super_fresh (hheap : w.heap = Heap.fresh 0x10000) (hdrive : drive < 4)
    (hspb : sectorsPerBlock (w.driveSize drive) = some spb) :
    ∃ p w', Runs (createSuper drive) w p w' ∧ p ≠ 0 := by
  have hinv : HeapInv 0x100000 (0x100000 + 0x10000) w.heap _ :=
    hheap ▸ Heap.fresh_inv (by decide) (by decide)
  obtain ⟨w₁, hs⟩ := exists_superMade hinv hdrive hspb (p := 0x100008) rfl
  exact ⟨_, w₁, hs.run, by decide⟩

/-- The one of a drive of 16 MiB describes it. -/
theorem describesDrive_small :
    ∃ p w', Runs (createSuper 0) (Kernel.blank (Heap.fresh 0x10000) 32768) p w' ∧
      DescribesDrive (SuperBlock.load w'.mem p) 32768 2 := by
  have hspb : sectorsPerBlock
      ((Kernel.blank (Heap.fresh 0x10000) 32768).driveSize 0) = some 2 := by decide
  obtain ⟨p, w', hrun, hp⟩ := exists_super_fresh rfl (by decide) hspb
  exact ⟨p, w', hrun, (describesDrive_iff hrun hp hspb).2 (by decide)⟩

/-- The one of a drive of 64 GiB gives its blocks no size. -/
theorem not_describesDrive_large :
    ∃ p w', Runs (createSuper 0) (Kernel.blank (Heap.fresh 0x10000) 134217728) p w' ∧ p ≠ 0 ∧
      (SuperBlock.load w'.mem p).blockSize = 0 ∧
      ¬ DescribesDrive (SuperBlock.load w'.mem p) 134217728 128 := by
  have hspb : sectorsPerBlock
      ((Kernel.blank (Heap.fresh 0x10000) 134217728).driveSize 0) = some 128 := by decide
  obtain ⟨p, w', hrun, hp⟩ := exists_super_fresh rfl (by decide) hspb
  obtain ⟨spb, hspb', hload⟩ := createSuper_load hrun hp
  obtain rfl : 128 = spb := Option.some.inj (hspb.symm.trans hspb')
  have hzero : (SuperBlock.load w'.mem p).blockSize = 0 := by
    rw [hload]
    rfl
  exact ⟨p, w', hrun, hp, hzero, fun h ↦ h.blockSize_pos.ne' hzero⟩

end Blocks

/-! ### The regions -/

/-- **The regions of a super block fit a drive** of `size` sectors with `spb` sectors to the block
and a bitmap of `nb` sectors. -/
structure RegionsFit (sb : SuperBlock) (size spb nb : ℕ) : Prop where
  /-- The bitmap has a bit for every sector. -/
  bitmap_eq : nb = (size + 4095) / 4096
  /-- It comes after the super block. -/
  super_le : 2 ≤ sb.bitmapStartLba
  /-- The inode table comes after it. -/
  bitmap_le : sb.bitmapStartLba + nb ≤ sb.inodeTableLba
  /-- No whole block is left free between them. -/
  inode_lt : sb.inodeTableLba < sb.bitmapStartLba + nb + spb
  /-- The data area comes after the inode table. -/
  data_eq : sb.inodeTableLba + 256 = sb.dataStartLba
  /-- There is a data area. -/
  data_lt : sb.dataStartLba < size
  /-- The bitmap takes the blocks that the super block says. -/
  inode_eq : sb.inodeTableLba = sb.bitmapStartLba + sb.bitmapBlocks * spb
  /-- Nothing that `create_super` adds up wraps. -/
  super_exact : size + 4095 < 2 ^ 32 ∧ nb + spb < 2 ^ 32 ∧ sb.dataStartLba < 2 ^ 32
  /-- Nothing that the bitmap's functions add up or multiply wraps. -/
  bitmap_exact : size + 7 < 2 ^ 32 ∧ (size + 7) / 8 + 511 < 2 ^ 32 ∧ nb * 512 < 2 ^ 32

/-- Super block, bitmap, inode table and data area. -/
def regions (sb : SuperBlock) (size nb : ℕ) : List (Set ℕ) :=
  [Set.Ico 1 2, Set.Ico sb.bitmapStartLba (sb.bitmapStartLba + nb),
    Set.Ico sb.inodeTableLba (sb.inodeTableLba + 256), Set.Ico sb.dataStartLba size]

/-- Regions that fit do not overlap, and they are on the drive. -/
theorem RegionsFit.disjoint {sb : SuperBlock} {size spb nb : ℕ} (h : RegionsFit sb size spb nb) :
    (regions sb size nb).Pairwise Disjoint ∧ ∀ r ∈ regions sb size nb, r ⊆ Set.Iio size := by
  obtain ⟨-, h₁, h₂, -, h₃, h₄, -, -, -⟩ := h
  have hbelow : ∀ {a b c d : ℕ}, b ≤ c → Disjoint (Set.Ico a b) (Set.Ico c d) := fun hbc ↦
    Set.Ico_disjoint_Ico.2 ((min_le_left _ _).trans (hbc.trans (le_max_right _ _)))
  have hinside : ∀ {a b : ℕ}, b ≤ size → Set.Ico a b ⊆ Set.Iio size := fun hb x hx ↦
    hx.2.trans_le hb
  constructor
  · simp only [regions, List.pairwise_cons, List.forall_mem_cons, List.not_mem_nil]
    exact ⟨⟨hbelow h₁, hbelow (by omega), hbelow (by omega), by simp⟩,
      ⟨hbelow h₂, hbelow (by omega), by simp⟩, ⟨hbelow (by omega), by simp⟩, by simp, .nil⟩
  · simp only [regions, List.forall_mem_cons]
    exact ⟨hinside (by omega), hinside (by omega), hinside (by omega), hinside le_rfl, by simp⟩

section Regions

variable {n spb : ℕ}

/-- The two counts of the bitmap's sectors agree. -/
theorem superBitmapSectors_eq (h₁ : 32768 ≤ n) (h₂ : n ≤ 0x0FFFFFFF) :
    superBitmapSectors n = bitmapSectors n := by
  rw [bitmapSectors_eq (by omega), superBitmapSectors, u32]
  split <;> omega

theorem regionsFit_superBlockFor (hspb : sectorsPerBlock n = some spb) (hn : n ≤ 0x0FFFFFFF) :
    RegionsFit (superBlockFor n spb) n spb (bitmapSectors n) := by
  obtain ⟨hlarge, h₁, h₂⟩ := sectorsPerBlock_bounds hspb
  have hsectors := bitmapSectors_eq (n := n) (by omega)
  have hsame := superBitmapSectors_eq hlarge hn
  have hstart : (superBlockFor n spb).bitmapStartLba = 2 := rfl
  have hinode := inodeTableLba_eq (n := n) h₁ h₂
  have hdata := dataStartLba_eq (n := n) h₁ h₂
  -- the blocks of the bitmap hold its sectors, and the last of them is needed
  have hle := Nat.div_mul_le_self (superBitmapSectors n + spb - 1) spb
  have hlt := Nat.lt_div_mul_add (a := superBitmapSectors n + spb - 1) (b := spb) (by omega)
  have hblocks : (superBlockFor n spb).bitmapBlocks = (superBitmapSectors n + spb - 1) / spb := by
    show sub32 (u32 (superBitmapSectors n + spb)) 1 / spb = _
    rw [sub32, u32, u32]
    refine congrArg (· / spb) ?_
    omega
  rw [hsame] at hinode hdata hle hlt hblocks
  refine ⟨hsectors, hstart.ge, ?_, ?_, ?_, ?_, ?_, ?_, ?_⟩
  · rw [hstart, hinode]
    omega
  · rw [hstart, hinode]
    omega
  · rw [hinode, hdata]
    omega
  · rw [hdata]
    omega
  · rw [hinode, hstart, hblocks]
  · rw [hdata]
    omega
  · omega

end Regions

section Written

variable {σ : Type} [PortBus σ] {w w' w₀ w₁ w₂ : Kernel (Watched σ)}
  {drive fuel p b spb : ℕ} {es : List (PortEvent σ)}

/-- A run of `create_bitmap` that returns a bitmap has entered the size of the drive, whatever the
state of the heap. -/
theorem createBitmap_total {σ : Type} {w w' : Kernel σ} (h : Runs (createBitmap drive) w b w')
    (hb : b ≠ 0) : w'.mem.get b BlockBitmap.total = w.driveSize drive := by
  rw [createBitmap] at h
  split at h
  case isTrue => exact absurd (runs_pure.1 h).1.symm hb
  case isFalse =>
    rw [runs_get_bind] at h
    dsimp only at h
    split at h
    case isTrue => exact absurd (runs_pure.1 h).1.symm hb
    case isFalse =>
      obtain ⟨bb, t, -, h⟩ := runs_bind.1 h
      split at h
      case isTrue => exact absurd (runs_pure.1 h).1.symm hb
      case isFalse =>
        rw [runs_bind_of_runs (getField_apply ..), runs_bind_of_runs (memset_apply ..)] at h
        obtain ⟨rfl, rfl⟩ := Prod.mk.inj (Option.some.inj h)
        exact total_countersMem (w.driveSize_lt drive)

/-- The sectors `elixir_write_bitmap` sends when it succeeds. -/
theorem elixirWriteBitmap_sent (h : Runs (elixirWriteBitmap fuel drive b) w 0 w')
    (hes : w.Emits es w') :
    sectorsSent es = bitmapSectors (w.mem.get b BlockBitmap.total) := by
  rw [elixirWriteBitmap] at h
  split at h
  case isTrue => exact absurd (runs_pure.1 h).1 (by decide)
  case isFalse =>
    rw [runs_bind_of_runs (getField_apply ..)] at h
    split at h
    case isTrue => exact absurd (runs_pure.1 h).1 (by decide)
    case isFalse =>
      rw [runs_bind_of_runs (getField_apply ..)] at h
      obtain ⟨err, t, hwrite, h⟩ := runs_bind.1 h
      split at h
      case isTrue => exact absurd (runs_pure.1 h).1 (by decide)
      case isFalse herr =>
        obtain ⟨-, rfl⟩ := runs_pure.1 h
        obtain rfl : err = 0 := not_not.1 herr
        have hpresent : ¬ (3 < drive ∨ (w.ideDevices drive).reserved = 0) := by
          intro habsent
          rw [ideWriteSectorsCounted, runs_get_bind, if_pos habsent] at hwrite
          exact absurd (runs_pure.1 hwrite).1 one_ne_zero
        rw [not_or] at hpresent
        rw [Nat.mul_comm] at hwrite
        obtain ⟨es', hes', hend⟩ := ideWriteSectorsCounted_emits rfl
          (Nat.lt_succ_of_le (Nat.le_of_not_lt hpresent.1)) hpresent.2 hwrite
        obtain rfl : es = es' := hes.unique hes'
        obtain ⟨-, vs, hchunks⟩ := hend.resolve_left (by decide)
        exact hchunks.sectorsSent_eq

/-- **The regions of a file system do not overlap, and they agree with what is written.** -/
theorem regionsFit_of_runs (hsize : w.driveSize drive ≤ 0x0FFFFFFF)
    (hsuper : Runs (createSuper drive) w p w₀) (hp : p ≠ 0)
    (hspb : sectorsPerBlock (w.driveSize drive) = some spb)
    (hsame : w₁.driveSize drive = w.driveSize drive)
    (hbitmap : Runs (createBitmap drive) w₁ b w₂) (hb : b ≠ 0)
    (hwrite : Runs (elixirWriteBitmap fuel drive b) w₂ 0 w') (hes : w₂.Emits es w') :
    RegionsFit (SuperBlock.load w₀.mem p) (w.driveSize drive) spb (sectorsSent es) ∧
      (regions (SuperBlock.load w₀.mem p) (w.driveSize drive) (sectorsSent es)).Pairwise Disjoint ∧
      ∀ r ∈ regions (SuperBlock.load w₀.mem p) (w.driveSize drive) (sectorsSent es),
        r ⊆ Set.Iio (w.driveSize drive) := by
  obtain ⟨spb', hspb', hload⟩ := createSuper_load hsuper hp
  obtain rfl : spb = spb' := Option.some.inj (hspb.symm.trans hspb')
  have hsent : sectorsSent es = bitmapSectors (w.driveSize drive) := by
    rw [elixirWriteBitmap_sent hwrite hes, createBitmap_total hbitmap hb, hsame]
  rw [hload, hsent]
  have hfit := regionsFit_superBlockFor hspb hsize
  exact ⟨hfit, hfit.disjoint⟩

/-- On a blank disk of 32768 sectors, for example. -/
theorem regionsFit_blank :
    ∃ p b w₀ w₂ w' es, Runs (createSuper 0) (watch (Kernel.blank (Heap.fresh 0x10000) 32768)) p w₀ ∧
      Runs (createBitmap 0) (watch (Kernel.blank (Heap.fresh 0x10000) 32768)) b w₂ ∧
      Runs (elixirWriteBitmap 1 0 b) w₂ 0 w' ∧ w₂.Emits es w' ∧
      RegionsFit (SuperBlock.load w₀.mem p) 32768 2 (sectorsSent es) := by
  have hspb : sectorsPerBlock
      ((watch (Kernel.blank (Heap.fresh 0x10000) 32768)).driveSize 0) = some 2 := by decide
  obtain ⟨p, w₀, hsuper, hp⟩ := exists_super_fresh rfl (by decide) hspb
  have hinv : HeapInv 0x100000 (0x100000 + 0x10000)
      (watch (Kernel.blank (Heap.fresh 0x10000) 32768)).heap _ :=
    Heap.fresh_inv (by decide) (by decide)
  rcases createBitmap_spec hinv (show 0 < 4 by decide) with ⟨hzero | hrefused, -⟩ |
    ⟨b, cells₁, q, cells₂, h₂, hbitmap, hheld, -, htotal, -⟩
  · exact absurd hzero (by decide)
  · exact absurd hrefused (BitmapAllocated.not_refused (p := 0x100008) (q := 0x100020) ⟨rfl, rfl⟩)
  · have ha : Attached ((Kernel.blank (Heap.fresh 0x10000) 32768).setHeap h₂) 0 0 0 :=
      (Kernel.attached_blank _ _ (by decide)).setHeap h₂
    obtain ⟨-, b', hplain, -⟩ := ideWriteSectorsCounted_spec q ha rfl (AtaBus.faultFree_blank _)
      (show 0 < bitmapSectors 32768 by decide)
      (show elixirBitmapStartLba + bitmapSectors 32768 ≤ 2 ^ 28 by decide)
    obtain ⟨w', hwatched, -⟩ := (ideWriteSectorsCounted_projects 1 0 elixirBitmapStartLba
      (512 * bitmapSectors 32768) q).lift
        (s := (watch (Kernel.blank (Heap.fresh 0x10000) 32768)).setHeap h₂) hplain
    have hwrite : Runs (elixirWriteBitmap 1 0 b)
        ((watch (Kernel.blank (Heap.fresh 0x10000) 32768)).setHeap h₂) 0 w' := by
      rw [Runs, elixirWriteBitmap, if_neg hheld.struct_ne, bind_apply_of_runs (getField_apply ..),
        show Kernel.mem _ = h₂.mem from rfl, hheld.bitmap_eq, if_neg hheld.buffer_ne,
        bind_apply_of_runs (getField_apply ..), show Kernel.mem _ = h₂.mem from rfl, htotal]
      exact (bind_apply_of_runs hwatched)
    exact ⟨p, b, w₀, _, w', w'.io.log, hsuper, hbitmap, hwrite, rfl, (regionsFit_of_runs (by decide)
      hsuper hp hspb rfl hbitmap hheld.struct_ne hwrite rfl).1⟩

end Written
