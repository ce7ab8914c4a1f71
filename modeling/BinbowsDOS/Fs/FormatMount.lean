import BinbowsDOS.Fs.Attached
import BinbowsDOS.Fs.Ledger

/-!
# Format, then mount

A mount right after a format succeeds and yields the super block that `create_super` computed,
and a format touches no sector but the super block and the bitmap (`mount_of_format`).

What it says there about free space does not hold together, though. The layout puts the
metadata below `s_data_start_lba`, but the bitmap marks none of it, and the count of free blocks
covers the whole drive (`not_metadataReserved`).
-/

open Arena Prog Kernel

/-! ### Mounting a formatted drive -/

section Mount

variable {w w' : Kernel AtaBus} {lo hi fuel drive c d out spb q lba : ℕ} {m : ByteMem}
  {cells : List Cell}

/-- The drive is still attached after a format. -/
theorem Formatted.attached (hfmt : Formatted lo hi drive c d cells w spb q m w')
    (ha : Attached w drive c d) : Attached w' drive c d := by
  obtain ⟨ph, hserved⟩ := hfmt.served
  refine ha.served ?_ ?_ hserved rfl rfl
  · rw [hfmt.rest]; rfl
  · rw [hfmt.rest]; rfl

theorem Formatted.sectors_eq (hfmt : Formatted lo hi drive c d cells w spb q m w') :
    (w'.io.unit c d).sectors = formatSectors (w.io.unit c d).sectors (w.driveSize drive) spb
      fun j ↦ m.sectorAt (q + 512 * j) := by
  obtain ⟨ph, hserved⟩ := hfmt.served
  rw [hserved.unit_eq]

/-- The bitmap that was written covers the drive. -/
theorem Formatted.size_lt (hfmt : Formatted lo hi drive c d cells w spb q m w') :
    w.driveSize drive + 7 < 2 ^ 32 := by
  have hlt := w.driveSize_lt drive
  have hne := hfmt.bytes_ne
  rw [bitmapBytes, u32] at hne
  omega

/-- A formatted drive can be mounted, and the mount yields the super block. -/
theorem Formatted.exists_mount (hfmt : Formatted lo hi drive c d cells w spb q m w')
    (ha : Attached w drive c d) (hf : w.io.FaultFree fuel) (hout : OutPointer lo hi w' out) :
    ∃ w'', Runs (elixirMount fuel drive out) w' 0 w'' ∧
      SuperBlock.load w''.mem (w''.mem.loadLE out 4) = superBlockFor (w.driveSize drive) spb := by
  obtain ⟨p, cells', halloc⟩ := hfmt.room
  obtain ⟨ph, hserved⟩ := hfmt.served
  obtain ⟨w₁, w₂, hread, hsector, hmount⟩ := exists_superRead hfmt.inv
    (hfmt.attached ha) (hserved.faultFree hf).latency_lt halloc
  rw [hfmt.sectors_eq, formatSectors_super] at hsector
  have hload := load_of_sectorAt (w.driveSize_lt drive) hsector
  refine ⟨_, hmount (congrArg SuperBlock.magic hload), ?_⟩
  obtain ⟨-, hptr⟩ := hout.store hfmt.inv hread.inv (fun x hx ↦ hx.allocate halloc)
    (hfmt.inv.ptr_lt halloc)
  rw [mem_setMem, show (w₂.mem.storeLE out 4 p).loadLE out 4 = p from hptr]
  -- the pointer is not stored into the block
  refine (SuperBlock.load_congr (q := p) (sectorAt_eq_iff.2 fun i hi' ↦
    hout.storeLE_apply hfmt.inv ?_)).trans hload
  exact not_client_of_allocate hfmt.inv.tiles halloc (by omega)
    (by rw [show requestSize sizeofSuperBlock = 512 by decide]; omega)

/-- A format changes the super block and the bitmap of its drive only. -/
theorem Formatted.changed (hfmt : Formatted lo hi drive c d cells w spb q m w') {c' d' : ℕ}
    (h : (w'.io.unit c' d').sectors lba ≠ (w.io.unit c' d').sectors lba) :
    (c' = c ∧ d' = d) ∧
      (lba = 1 ∨ 2 ≤ lba ∧ lba ≤ 1 + (w.driveSize drive + 4095) / 4096) := by
  obtain ⟨ph, hserved⟩ := hfmt.served
  by_cases hunit : c' = c ∧ d' = d
  · obtain ⟨rfl, rfl⟩ := hunit
    refine ⟨⟨rfl, rfl⟩, ?_⟩
    rw [hfmt.sectors_eq] at h
    by_contra hout
    refine h (formatSectors_of_not_mem (fun heq ↦ hout (Or.inl heq)) ?_)
    rw [bitmapSectors_eq hfmt.size_lt, elixirBitmapStartLba]
    omega
  · exact absurd (by rw [hserved.elsewhere c' d' hunit]) h

/-- **Format, then mount.** -/
theorem mount_of_format {base size : ℕ} {mem : ByteMem} (hbase : 0x100000 ≤ base)
    (hend : base + size ≤ 2 ^ 32) (hacc : RegionAccepted base size)
    (hreach : HeapReach base size mem w.heap) (ha : Attached w drive c d)
    (hf : w.io.FaultFree fuel) (hformat : Runs (elixirFormat fuel drive) w 0 w')
    (hout : OutPointer (alignedStart base) (base + size) w' out) :
    (∃ w'' p w₁, Runs (elixirMount fuel drive out) w' 0 w'' ∧
      Runs (createSuper drive) w p w₁ ∧ p ≠ 0 ∧
      SuperBlock.load w''.mem (w''.mem.loadLE out 4) = SuperBlock.load w₁.mem p) ∧
    ∀ c' d' lba, (w'.io.unit c' d').sectors lba ≠ (w.io.unit c' d').sectors lba →
      (c' = c ∧ d' = d) ∧
        (lba = 1 ∨ 2 ≤ lba ∧ lba ≤ 1 + (w.driveSize drive + 4095) / 4096) := by
  obtain ⟨⟨cells, hinv⟩, -⟩ := hreach.exists_inv hbase hend hacc
  obtain ⟨spb, p, cells', w₁, w₂, b, cells₁, q, cells₂, w₃, hs, -, -, hfmt⟩ :=
    (elixirFormat_runs hinv hformat).formatted rfl ha hf
  refine ⟨?_, fun c' d' lba h ↦ hfmt.changed h⟩
  obtain ⟨w'', hmount, hload⟩ := hfmt.exists_mount ha hf hout
  have hp := hinv.ptr_ne_zero hs.alloc
  refine ⟨w'', p, w₁, hmount, hs.run, by omega, hload.trans ?_⟩
  exact (load_of_sectorAt (w.driveSize_lt drive) hs.sector).symm

/-- A format of a disk of 32768 sectors succeeds on a fresh heap. -/
theorem exists_format_fresh (hheap : w.heap = Heap.fresh 0x10000)
    (hsize : w.driveSize drive = 32768) (ha : Attached w drive c d) (hf : w.io.FaultFree fuel) :
    ∃ w', Runs (elixirFormat fuel drive) w 0 w' := by
  have hinv : HeapInv 0x100000 (0x100000 + 0x10000) w.heap _ :=
    hheap ▸ Heap.fresh_inv (by decide) (by decide)
  refine exists_format hinv ha hf (show _ = some 2 by rw [hsize]; decide) (p := 0x100008) rfl ?_
  rw [hsize]
  exact BitmapAllocated.not_refused (p := 0x100210) (q := 0x100228) ⟨rfl, rfl⟩

/-- A blank one, for example. -/
theorem exists_format_blank :
    ∃ w', Runs (elixirFormat 1 0) (Kernel.blank (Heap.fresh 0x10000) 32768) 0 w' :=
  exists_format_fresh rfl rfl (Kernel.attached_blank _ _ (by decide)) (AtaBus.faultFree_blank _)

/-- It can be mounted through a pointer below the heap. -/
theorem mount_blank :
    ∃ w' w'', Runs (elixirFormat 1 0) (Kernel.blank (Heap.fresh 0x10000) 32768) 0 w' ∧
      Runs (elixirMount 1 0 0x7000) w' 0 w'' := by
  obtain ⟨w', hformat⟩ := exists_format_blank
  have hout : OutPointer (alignedStart 0x100000) (0x100000 + 0x10000) w' 0x7000 :=
    ⟨by decide, fun x _ hx ↦ Or.inl (Or.inl (hx.trans (by decide)))⟩
  obtain ⟨⟨w'', -, -, hmount, -⟩, -⟩ := mount_of_format
    (by decide) (by decide) (by decide) (Heap.fresh_reach _)
    (Kernel.attached_blank _ _ (by decide)) (AtaBus.faultFree_blank _) hformat hout
  exact ⟨w', w'', hformat, hmount⟩

end Mount

/-! ### Free space -/

section FreeSpace

/-- Bit `i` of the bitmap on a medium. -/
def diskBit (s : ℕ → Sector) (i : ℕ) : Bool :=
  ((s (elixirBitmapStartLba + i / 4096)).bytes (i % 4096 / 8)).toNat.testBit (i % 8)

variable {w w' : Kernel AtaBus} {lo hi fuel buf drive c d spb q n : ℕ} {m : ByteMem}
  {cells : List Cell}

/-- **Metadata is not offered as free space**: the bitmap on the disk marks every sector below
the data area, the free blocks fit into the data area, and `find_next_free_lba`, which reads
into `buf`, answers no sector below it. -/
structure MetadataReserved (fuel buf drive c d spb : ℕ) (w w' : Kernel AtaBus) : Prop where
  /-- The bitmap. -/
  marked : ∀ i < (superBlockFor (w.driveSize drive) spb).dataStartLba,
    diskBit (w'.io.unit c d).sectors i = true
  /-- The super block. -/
  counted : (superBlockFor (w.driveSize drive) spb).freeBlocks * spb ≤
    w.driveSize drive - (superBlockFor (w.driveSize drive) spb).dataStartLba
  /-- The scan. -/
  scanned : ∀ r w'', Runs (findNextFreeLba fuel buf drive) w' r w'' →
    r = uint32Max ∨ (superBlockFor (w.driveSize drive) spb).dataStartLba ≤ r

/-- The inode table starts behind the bitmap, which takes whole blocks. -/
theorem inodeTableLba_eq (h₁ : 2 ≤ spb) (h₂ : spb ≤ 128) :
    (superBlockFor n spb).inodeTableLba = 2 + (superBitmapSectors n + spb - 1) / spb * spb := by
  have hsectors : superBitmapSectors n ≤ 2 ^ 20 := by
    rw [superBitmapSectors, u32]
    split <;> omega
  have hpos : 1 ≤ superBitmapSectors n := by
    rw [superBitmapSectors]
    split <;> omega
  have hsub : sub32 (u32 (superBitmapSectors n + spb)) 1 = superBitmapSectors n + spb - 1 := by
    simp only [sub32, u32]
    omega
  have hle := Nat.div_mul_le_self (superBitmapSectors n + spb - 1) spb
  simp only [superBlockFor, hsub, elixirBitmapStartLba]
  simp only [u32]
  omega

/-- The start of the data area: behind the bitmap, in whole blocks, and the inode table. -/
theorem dataStartLba_eq (h₁ : 2 ≤ spb) (h₂ : spb ≤ 128) :
    (superBlockFor n spb).dataStartLba = 258 + (superBitmapSectors n + spb - 1) / spb * spb := by
  have hsectors : superBitmapSectors n ≤ 2 ^ 20 := by
    rw [superBitmapSectors, u32]
    split <;> omega
  have hle := Nat.div_mul_le_self (superBitmapSectors n + spb - 1) spb
  have hinode := inodeTableLba_eq (n := n) h₁ h₂
  show u32 ((superBlockFor n spb).inodeTableLba + 256) = _
  rw [hinode, u32]
  omega

theorem dataStartLba_bounds (h₁ : 2 ≤ spb) (h₂ : spb ≤ 128) :
    258 + superBitmapSectors n ≤ (superBlockFor n spb).dataStartLba ∧
      (superBlockFor n spb).dataStartLba ≤ 385 + superBitmapSectors n := by
  rw [dataStartLba_eq h₁ h₂]
  have hle := Nat.div_mul_le_self (superBitmapSectors n + spb - 1) spb
  have hlt := Nat.lt_div_mul_add (a := superBitmapSectors n + spb - 1) (b := spb) (by omega)
  omega

theorem superBitmapSectors_le (hn : 32768 ≤ n) (hn' : n < 2 ^ 32) :
    superBitmapSectors n ≤ (n + 4095) / 4096 := by
  rw [superBitmapSectors, u32]
  split <;> omega

/-- The bitmap a format writes is clear. -/
theorem Formatted.diskBit_eq_false (hfmt : Formatted lo hi drive c d cells w spb q m w') {i : ℕ}
    (hi' : i < w.driveSize drive) : diskBit (w'.io.unit c d).sectors i = false := by
  have hsize := hfmt.size_lt
  have hbytes : bitmapBytes (w.driveSize drive) = (w.driveSize drive + 7) / 8 := by
    rw [bitmapBytes, u32]
    omega
  rw [diskBit, hfmt.sectors_eq, formatSectors_bitmap (by rw [bitmapSectors_eq hsize]; omega),
    Sector.bytes, dif_pos (by omega), ByteMem.sectorAt]
  have hzero := hfmt.zero (512 * (i / 4096) + i % 4096 / 8) (by omega)
  rw [Nat.add_assoc, hzero]
  exact Nat.zero_testBit _

/-- The free blocks of a new super block are all blocks of the drive, more than fit behind the
metadata. -/
theorem freeBlocks_overcount (hspb : sectorsPerBlock n = some spb) (hn : n < 2 ^ 32) :
    n - (superBlockFor n spb).dataStartLba < (superBlockFor n spb).freeBlocks * spb := by
  obtain ⟨hlarge, h₁, h₂⟩ := sectorsPerBlock_bounds hspb
  obtain ⟨hstart, -⟩ := dataStartLba_bounds (n := n) h₁ h₂
  have hlt := Nat.lt_div_mul_add (a := n) (b := spb) (by omega)
  show _ < n / spb * spb
  omega

/-- So no state reserves the metadata of such a super block. -/
theorem not_metadataReserved (hspb : sectorsPerBlock (w.driveSize drive) = some spb) :
    ¬ MetadataReserved fuel buf drive c d spb w w' := fun hres ↦
  (freeBlocks_overcount hspb (w.driveSize_lt drive)).not_ge hres.counted

/-- After a format the bits of the metadata are clear. -/
theorem Formatted.diskBit_metadata (hfmt : Formatted lo hi drive c d cells w spb q m w') :
    ∀ i < (superBlockFor (w.driveSize drive) spb).dataStartLba,
      diskBit (w'.io.unit c d).sectors i = false := by
  intro i hi'
  obtain ⟨hlarge, h₁, h₂⟩ := sectorsPerBlock_bounds hfmt.spb_eq
  obtain ⟨-, hstart⟩ := dataStartLba_bounds (n := w.driveSize drive) h₁ h₂
  have hsectors := superBitmapSectors_le hlarge (w.driveSize_lt drive)
  exact hfmt.diskBit_eq_false (by omega)

/-- **No successful format reserves the metadata**: whatever the device does, the free blocks of
the super block do not fit, and on a device without faults every bit of the metadata is clear. -/
theorem not_metadataReserved_of_format {base size : ℕ} {mem : ByteMem} (hbase : 0x100000 ≤ base)
    (hend : base + size ≤ 2 ^ 32) (hacc : RegionAccepted base size)
    (hreach : HeapReach base size mem w.heap) (hformat : Runs (elixirFormat fuel drive) w 0 w') :
    ∃ spb p w₁, sectorsPerBlock (w.driveSize drive) = some spb ∧
      (Runs (createSuper drive) w p w₁ ∧ p ≠ 0 ∧
        SuperBlock.load w₁.mem p = superBlockFor (w.driveSize drive) spb) ∧
      w.driveSize drive - (superBlockFor (w.driveSize drive) spb).dataStartLba <
        (superBlockFor (w.driveSize drive) spb).freeBlocks * spb ∧
      (∀ buf c d, ¬ MetadataReserved fuel buf drive c d spb w w') ∧
      ∀ c d, Attached w drive c d → w.io.FaultFree fuel →
        ∀ i < (superBlockFor (w.driveSize drive) spb).dataStartLba,
          diskBit (w'.io.unit c d).sectors i = false := by
  obtain ⟨⟨cells, hinv⟩, -⟩ := hreach.exists_inv hbase hend hacc
  have hout := elixirFormat_runs hinv hformat
  obtain ⟨spb, p, cells', w₁, hs⟩ := hout.exists_superMade rfl
  have hp := hinv.ptr_ne_zero hs.alloc
  refine ⟨spb, p, w₁, hs.spb_eq,
    ⟨hs.run, by omega, load_of_sectorAt (w.driveSize_lt drive) hs.sector⟩,
    freeBlocks_overcount hs.spb_eq (w.driveSize_lt drive),
    fun buf c d ↦ not_metadataReserved hs.spb_eq, ?_⟩
  intro c d ha hf
  obtain ⟨spb', -, -, -, -, -, -, q, -, w₃, -, -, -, hfmt⟩ := hout.formatted rfl ha hf
  obtain rfl := Option.some.inj (hs.spb_eq.symm.trans hfmt.spb_eq)
  exact hfmt.diskBit_metadata

/-- Not on a blank disk of 32768 sectors, for one. -/
theorem not_metadataReserved_blank :
    ∃ w', Runs (elixirFormat 1 0) (Kernel.blank (Heap.fresh 0x10000) 32768) 0 w' ∧
      ¬ MetadataReserved 1 0x7000 0 0 0 2 (Kernel.blank (Heap.fresh 0x10000) 32768) w' := by
  obtain ⟨w', hformat⟩ := exists_format_blank
  exact ⟨w', hformat, not_metadataReserved (by decide)⟩

/-- There the data area starts at sector 266, and the bits up to it are clear once the disk is
formatted. -/
theorem diskBit_blank :
    ∃ w', Runs (elixirFormat 1 0) (Kernel.blank (Heap.fresh 0x10000) 32768) 0 w' ∧
      ∀ i < 266, diskBit (w'.io.unit 0 0).sectors i = false := by
  obtain ⟨w', hformat⟩ := exists_format_blank
  obtain ⟨spb, -, -, hspb, -, -, -, hbits⟩ := not_metadataReserved_of_format (by decide)
    (show 0x100000 + 0x10000 ≤ 2 ^ 32 by decide) (by decide) (Heap.fresh_reach _) hformat
  obtain rfl : 2 = spb := Option.some.inj hspb
  exact ⟨w', hformat, hbits 0 0 (Kernel.attached_blank _ _ (by decide))
    (AtaBus.faultFree_blank _)⟩

end FreeSpace
