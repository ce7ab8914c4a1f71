import BinbowsDOS.Fs.Outcome
import BinbowsDOS.Ide.SectorTransfer

/-!
# The calls on an attached drive

What a format leaves on the disk, and that a format, a mount and the transfers of a bitmap do
return: the outcomes of the calls with the behaviour of an attached ATA drive put in for the
transfers.
-/

open Arena Prog Kernel

/-! ### Sizes -/

section Sizes

variable {n spb : ℕ}

theorem sectorsPerBlock_bounds (h : sectorsPerBlock n = some spb) :
    32768 ≤ n ∧ 2 ≤ spb ∧ spb ≤ 128 := by
  rw [sectorsPerBlock] at h
  split_ifs at h <;> simp only [Option.some.injEq] at h <;> omega

/-- A bitmap of positive length has a bit for every sector. -/
theorem bitmapBytes_eq (hn : n < 2 ^ 32) (h : bitmapBytes n ≠ 0) : bitmapBytes n = (n + 7) / 8 := by
  simp only [bitmapBytes, u32] at *
  omega

/-- The sectors of a bitmap that does not overflow. -/
theorem bitmapSectors_eq (hn : n + 7 < 2 ^ 32) : bitmapSectors n = (n + 4095) / 4096 := by
  rw [bitmapSectors, bitmapBytes, u32]
  omega

/-- The bitmap ends where a driver of 28-bit addresses still reaches it. -/
theorem bitmapEnd_le (n : ℕ) : elixirBitmapStartLba + bitmapSectors n ≤ 2 ^ 28 := by
  rw [elixirBitmapStartLba, bitmapSectors, bitmapBytes, u32]
  omega

theorem bitmapBytes_le_sectors (n : ℕ) : bitmapBytes n ≤ 512 * bitmapSectors n := by
  rw [bitmapSectors]
  omega

end Sizes

/-! ### Sectors -/

section Sectors

variable {s : ℕ → Sector} {lba n x : ℕ} {f : ℕ → Sector}

theorem writeRange_apply_add {j : ℕ} (hj : j < n) : writeRange s lba n f (lba + j) = f j := by
  rw [writeRange, if_pos (by omega), Nat.add_sub_cancel_left]

theorem writeRange_apply_of_not_mem (hx : x < lba ∨ lba + n ≤ x) : writeRange s lba n f x = s x :=
  if_neg (by omega)

/-- The medium after a format: the super block, and then the sectors of the bitmap. -/
def formatSectors (s : ℕ → Sector) (size spb : ℕ) (bitmap : ℕ → Sector) : ℕ → Sector :=
  writeRange (Function.update s elixirSuperblockLba (superSector size spb)) elixirBitmapStartLba
    (bitmapSectors size) bitmap

variable {size spb : ℕ}

theorem formatSectors_super :
    formatSectors s size spb f elixirSuperblockLba = superSector size spb := by
  rw [formatSectors, writeRange_apply_of_not_mem (Or.inl (by decide)), Function.update_self]

theorem formatSectors_bitmap {j : ℕ} (hj : j < bitmapSectors size) :
    formatSectors s size spb f (elixirBitmapStartLba + j) = f j := writeRange_apply_add hj

/-- A format changes no other sector. -/
theorem formatSectors_of_not_mem (h₁ : x ≠ elixirSuperblockLba)
    (h₂ : x < elixirBitmapStartLba ∨ elixirBitmapStartLba + bitmapSectors size ≤ x) :
    formatSectors s size spb f x = s x := by
  rw [formatSectors, writeRange_apply_of_not_mem h₂, Function.update_of_ne h₁]

theorem formatSectors_behind (h : elixirBitmapStartLba + bitmapSectors size ≤ x) :
    formatSectors s size spb f x = s x :=
  formatSectors_of_not_mem (ne_of_gt (lt_of_lt_of_le (show elixirSuperblockLba < 2 by decide)
    ((Nat.le_add_right ..).trans h))) (Or.inr h)

end Sectors

/-! ### Formatting -/

/-- A format of the drive at position `d` of channel `c` has succeeded, and the bitmap was
written from `q` in the memory `m`. -/
structure Formatted (lo hi drive c d : ℕ) (cells : List Cell) (w : Kernel AtaBus) (spb q : ℕ)
    (m : ByteMem) (w' : Kernel AtaBus) : Prop where
  /-- The drive is large enough. -/
  spb_eq : sectorsPerBlock (w.driveSize drive) = some spb
  /-- There was room for the super block. -/
  room : ∃ p cells', allocate sizeofSuperBlock cells = some (p, cells')
  /-- The bitmap is not empty. -/
  bytes_ne : bitmapBytes (w.driveSize drive) ≠ 0
  /-- It is clear. -/
  zero : ∀ i < bitmapBytes (w.driveSize drive), m (q + i) = 0
  /-- The heap is as before. -/
  inv : HeapInv lo hi w'.heap cells
  /-- The tables are as before. -/
  rest : w' = (w.setHeap w'.heap).setIo w'.io
  /-- The clients' bytes are as before. -/
  mem : ∀ x, Client lo hi cells x → w'.mem x = w.mem x
  /-- The disk. -/
  served : ∃ ph, AtaBus.Served c d w.io { w.io.unit c d with
    sectors := formatSectors (w.io.unit c d).sectors (w.driveSize drive) spb
      fun j ↦ m.sectorAt (q + 512 * j)
    phase := ph
    busy := 0 } w'.io

section Attached

variable {w w' : Kernel AtaBus} {lo hi fuel drive c d out spb p : ℕ} {cells cells' : List Cell}

/-- A drive stays attached while only the heap changes. -/
theorem Attached.setHeap (ha : Attached w drive c d) (h : Heap) :
    Attached (w.setHeap h) drive c d := ha.of_unit rfl rfl ha.ready rfl

theorem SuperMade.attached {w₁ : Kernel AtaBus}
    (hs : SuperMade lo hi drive cells w spb p cells' w₁) (ha : Attached w drive c d) :
    Attached w₁ drive c d := hs.rest ▸ ha.setHeap w₁.heap

/-- The super block is on the disk. -/
theorem SuperMade.written {w₁ w₂ : Kernel AtaBus} {err : ℕ}
    (hs : SuperMade lo hi drive cells w spb p cells' w₁) (ha : Attached w drive c d)
    (hlat : ∀ k, w.io.latency k < fuel)
    (h : Runs (ideWriteSectorsCounted fuel drive elixirSuperblockLba sizeofSuperBlock p)
      w₁ err w₂) :
    err = 0 ∧ ∃ ph b', w₂ = w₁.setIo b' ∧ AtaBus.Served c d w.io { w.io.unit c d with
      sectors := if w.io.refuses (w.io.clock + 1) then (w.io.unit c d).sectors
        else Function.update (w.io.unit c d).sectors elixirSuperblockLba
          (superSector (w.driveSize drive) spb)
      phase := ph
      busy := 0 } b' := by
  have hio := hs.io_eq
  obtain ⟨ph, b', hrun, hserved⟩ := ideWriteSectorsCounted_one_spec (hs.attached ha) rfl
    (fun k ↦ hio ▸ hlat k) (show elixirSuperblockLba < 2 ^ 28 by decide)
  obtain ⟨rfl, rfl⟩ := h.unique hrun
  rw [hio, hs.sector] at hserved
  exact ⟨rfl, ph, b', rfl, hserved⟩

/-- **What a format does** on a drive without faults. -/
theorem FormatOutcome.formatted {r : ℤ} (h : FormatOutcome lo hi fuel drive cells w r w')
    (hr : r = 0) (ha : Attached w drive c d) (hf : w.io.FaultFree fuel) :
    ∃ spb p cells' w₁ w₂ b cells₁ q cells₂ w₃,
      SuperMade lo hi drive cells w spb p cells' w₁ ∧
      (∃ b', w₂ = w₁.setIo b') ∧
      BitmapMade lo hi drive cells' w₂ b cells₁ q cells₂ w₃ ∧
      Formatted lo hi drive c d cells w spb q w₃.mem w' := by
  cases h with
  | refused => simp at hr
  | tooSmall => simp at hr
  | superNotWritten => simp at hr
  | noBitmap => simp at hr
  | @bitmapWritten spb p b q err cells' cells₁ cells₂ w₁ w₂ w₃ w₄ w' hs hwrite hb hwrite' hend =>
    -- the device accepts the super block and is idle for the bitmap
    obtain ⟨-, ph, b', rfl, hserved⟩ := hs.written ha hf.latency_lt hwrite
    rw [hf.accepts, if_neg (by simp)] at hserved
    have hsize : (w₁.setIo b').driveSize drive = w.driveSize drive :=
      driveSize_eq hs.ideDevices_eq drive
    have hb' : BitmapHeld lo hi (bitmapBytes (w.driveSize drive)) cells' b cells₁ q cells₂
        w₃.heap := hsize ▸ hb.held
    have hbytes : bitmapBytes (w.driveSize drive) ≠ 0 := (allocate_eq_some.1 hb'.buffer).1
    have ha₂ : Attached (w₁.setIo b') drive c d :=
      ha.served hs.channels_eq hs.ideDevices_eq hserved rfl rfl
    have ha₃ : Attached w₃ drive c d := hb.rest ▸ ha₂.setHeap w₃.heap
    have hio : w₃.io = b' := hb.io_eq
    have hle := bitmapBytes_le_sectors (w.driveSize drive)
    obtain ⟨ph', b'', hrun, hserved'⟩ := ideWriteSectorsCounted_spec _ ha₃
      (hio ▸ hserved.unit_eq) (hio ▸ hserved.faultFree hf) (by omega)
      (bitmapEnd_le (w.driveSize drive))
    rw [Nat.mul_comm] at hwrite'
    obtain ⟨rfl, rfl⟩ := hwrite'.unique hrun
    refine ⟨spb, p, cells', w₁, _, b, cells₁, q, cells₂, w₃, hs, ⟨b', rfl⟩, hb, hs.spb_eq,
      ⟨p, cells', hs.alloc⟩, hbytes, hsize ▸ hb.zero, hend.inv, ?_, ?_, ph', ?_⟩
    · rw [show w'.io = b'' from hend.io_eq]
      conv_lhs => rw [hend.rest, hb.rest, hs.rest]
      rfl
    · intro x hx
      exact ((hend.mem x hx).trans (hb.mem x (hx.allocate hs.alloc))).trans (hs.mem x hx)
    · rw [show w'.io = b'' from hend.io_eq]
      exact hserved.trans (hio ▸ hserved')

/-- With room for all three blocks a format returns, and succeeds. -/
theorem exists_format (hinv : HeapInv lo hi w.heap cells) (ha : Attached w drive c d)
    (hf : w.io.FaultFree fuel) (hspb : sectorsPerBlock (w.driveSize drive) = some spb)
    (halloc : allocate sizeofSuperBlock cells = some (p, cells'))
    (hroom : ¬ BitmapRefused (bitmapBytes (w.driveSize drive)) cells') :
    ∃ w', Runs (elixirFormat fuel drive) w 0 w' := by
  obtain ⟨w₁, hs⟩ := exists_superMade hinv ha.slot_lt hspb halloc
  have ha₁ := hs.attached ha
  have hio := hs.io_eq
  obtain ⟨_, b', hwrite, hserved⟩ := ideWriteSectorsCounted_one_spec ha₁ rfl
    (fun k ↦ hio ▸ hf.latency_lt k) (show elixirSuperblockLba < 2 ^ 28 by decide)
  have ha₂ : Attached (w₁.setIo b') drive c d := ha₁.served rfl rfl hserved rfl rfl
  obtain ⟨hinv₂, hsize⟩ := hs.inv_written hwrite
  rcases createBitmap_spec hinv₂ ha.slot_lt with ⟨hzero | hrefused, -⟩ |
    ⟨b, cells₁, q, cells₂, h₃, hrun₃, hheld, hmem₃, htotal, hclear⟩
  · have := (sectorsPerBlock_bounds hspb).1
    omega
  · exact absurd (hsize ▸ hrefused) hroom
  · have hbytes := hsize ▸ (allocate_eq_some.1 hheld.buffer).1
    have hle := bitmapBytes_le_sectors (w.driveSize drive)
    obtain ⟨-, b'', hwrite', -⟩ := ideWriteSectorsCounted_spec _ (ha₂.setHeap h₃) rfl
      (hserved.faultFree (hio ▸ hf)) (by omega) (bitmapEnd_le (w.driveSize drive))
    rw [Nat.mul_comm] at hwrite'
    obtain ⟨w', hformat, -⟩ := elixirFormat_of_written hinv hs hwrite
      ⟨hrun₃, rfl, hheld, hmem₃, htotal,
        fun i hi ↦ hclear i (hi.trans_le (bitmapBytes_le_requestSize _))⟩ hwrite'
    exact ⟨w', hformat⟩

/-! ### Mounting -/

/-- With room for the super block a mount reads it. -/
theorem exists_superRead (hinv : HeapInv lo hi w.heap cells) (ha : Attached w drive c d)
    (hlat : ∀ k, w.io.latency k < fuel)
    (halloc : allocate sizeofSuperBlock cells = some (p, cells')) :
    ∃ w₁ w₂, SuperRead lo hi fuel drive cells w p cells' w₁ 0 w₂ ∧
      w₂.mem.sectorAt p = (w.io.unit c d).sectors elixirSuperblockLba ∧
      (w₂.mem.get p sMagic = elixirMagic →
        Runs (elixirMount fuel drive out) w 0 (w₂.setMem (w₂.mem.storeLE out 4 p))) := by
  obtain ⟨h₁, hcall, hinv₁, hmem₁, -⟩ := kmallocK_of_some hinv halloc
  have hp := hinv.ptr_ne_zero halloc
  obtain ⟨ph, k, b', hread, -⟩ := ideReadSectors_spec p (n := 1)
    (ha.setHeap h₁) rfl hlat (by decide) (show elixirSuperblockLba < 2 ^ 28 by decide)
  refine ⟨w.setHeap h₁, _, ⟨ha.slot_lt, halloc, rfl, hmem₁, hread, ?_⟩, ?_, ?_⟩
  · exact HeapInv.readSectors hinv₁ halloc (by decide) hread
  · funext i
    show ByteMem.blit _ _ _ _ _ = _
    rw [ByteMem.blit_apply_add (by omega), sectorStream_of_lt i.isLt, Sector.bytes,
      dif_pos i.isLt]
    rfl
  · intro hmagic
    have hdrive := ha.slot_lt
    rw [elixirMount, if_neg (by omega), runs_bind_of_runs hcall, if_neg (by omega),
      runs_bind_of_runs hread, if_neg (by simp), runs_bind_of_runs (getField_apply ..),
      if_neg (not_not.2 hmagic)]
    rfl

/-! ### Reading a bitmap -/

/-- With room for it `elixir_read_bitmap` reads a bitmap, as far as its count of sectors fits
into eight bits; the rest of the buffer stays clear. -/
theorem exists_bitmapRead (hinv : HeapInv lo hi w.heap cells) (ha : Attached w drive c d)
    (hlat : ∀ k, w.io.latency k < fuel)
    (hroom : ¬ BitmapRefused (bitmapSectors (w.driveSize drive) * 512) cells) :
    ∃ b cells₁ q cells₂ w₁ w₂ w₃, BitmapRead lo hi fuel drive cells w b cells₁ q cells₂ w₁ 0 w₂ ∧
      (∀ j < bitmapSectors (w.driveSize drive) * 512, w₂.mem (q + j) =
        if j < 512 * u8 (bitmapSectors (w.driveSize drive)) then
          sectorStream (w.io.unit c d).sectors elixirBitmapStartLba j else 0) ∧
      BitmapCounted (w.driveSize drive) b q w₂ w₃ ∧
      Runs (elixirReadBitmap fuel drive out) w 0 (w₃.setMem (w₃.mem.storeLE out 4 b)) := by
  have hle := bitmapSectors_le (w.driveSize drive)
  have hdrive := ha.slot_lt
  rcases allocBitmap_spec hinv (bitmapSectors (w.driveSize drive) * 512) with
    ⟨hrefused, -⟩ | ⟨b, cells₁, q, cells₂, h₁, hcall, hheld, hmem₁, hzero⟩
  · exact absurd hrefused hroom
  · have hreq := le_requestSize (n := bitmapSectors (w.driveSize drive) * 512) (by omega)
    have hsectors := u8_le (bitmapSectors (w.driveSize drive))
    obtain ⟨ph, k, b', hread, -⟩ := ideReadSectors_spec q (ha.setHeap h₁) rfl hlat
      (u8_lt (bitmapSectors (w.driveSize drive))) (show elixirBitmapStartLba < 2 ^ 28 by decide)
    generalize hw₂ : ((w.setHeap h₁).setMem _).setIo b' = w₂ at hread
    -- the read stays inside the buffer, also when its count of sectors was cut to eight bits
    have hbuffer := ideReadSectors_respects _ _ _ _ _ _ _ _ hread
    have hheld₂ : BitmapHeld lo hi (bitmapSectors (w.driveSize drive) * 512) cells b cells₁ q
        cells₂ w₂.heap := by
      rw [hbuffer.heap_eq]
      exact hheld.store fun x _ hx ↦ hbuffer.2 x (by omega)
    obtain ⟨w₃, hcount, hrun⟩ := countBitmap_apply hheld₂ (by omega)
      (size_le_of_bitmapSectors (w.driveSize_lt drive) (allocate_eq_some.1 hheld.buffer).1)
      (w.driveSize_lt drive)
    refine ⟨b, cells₁, q, cells₂, w.setHeap h₁, w₂, w₃, ⟨hdrive, rfl, hmem₁,
      fun i hi' ↦ hzero i (by omega), hread, hheld₂⟩, ?_, hcount, ?_⟩
    · intro j hj
      have hmem₂ : w₂.mem = h₁.mem.blit q (512 * u8 (bitmapSectors (w.driveSize drive)))
          (sectorStream (w.io.unit c d).sectors elixirBitmapStartLba) := by
        rw [← hw₂]
        rfl
      rw [hmem₂]
      by_cases hin : j < 512 * u8 (bitmapSectors (w.driveSize drive))
      · rw [if_pos hin, ByteMem.blit_apply_add hin]
      · rw [if_neg hin, ByteMem.blit_apply_of_not_mem (by omega)]
        exact hzero j (by omega)
    · rw [elixirReadBitmap, if_neg (by omega), runs_get_bind, runs_bind_of_runs hcall,
        if_neg hheld.struct_ne, runs_bind_of_runs (getField_apply ..),
        show (w.setHeap h₁).mem.get b BlockBitmap.bitmap = q from hheld.bitmap_eq,
        runs_bind_of_runs hread, if_neg (by simp)]
      exact hrun

end Attached
