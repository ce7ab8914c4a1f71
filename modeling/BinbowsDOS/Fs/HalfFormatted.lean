import BinbowsDOS.Fs.Attached
import BinbowsDOS.Fs.Ledger

/-!
# Formats that fail halfway

`elixir_format` writes the super block before it asks for the memory of the bitmap. When that
request is turned down it reports a failure, but the super block is on the disk, and the next
mount takes it for a file system. `failsClean_iff` gives the exact condition under which this
happens, on devices that may reject any sector: a rejected sector goes unnoticed by the driver,
so the writes themselves are not what makes a format fail.
-/

open Arena Prog Kernel

/-- The media of all units are as before. -/
def DiskUnchanged (w w' : Kernel AtaBus) : Prop :=
  ∀ c d, (w'.io.unit c d).sectors = (w.io.unit c d).sectors

/-- **A failed format leaves no volume that can be mounted**: the disks are as before, or a
mount of the drive fails. -/
def FailsClean (lo hi fuel drive : ℕ) (w : Kernel AtaBus) : Prop :=
  ∀ w', Runs (elixirFormat fuel drive) w (-1) w' →
    DiskUnchanged w w' ∨
      ∀ out r w'', OutPointer lo hi w' out → Runs (elixirMount fuel drive out) w' r w'' → r = -1

/-- A format of the drive fails after it has put a new super block on the disk. -/
structure HalfFormats (drive : ℕ) (w : Kernel AtaBus) : Prop where
  /-- There is a slot. -/
  drive_lt : drive < 4
  /-- It is in use. -/
  present : (w.ideDevices drive).reserved ≠ 0
  /-- The drive is large enough. -/
  large : 32768 ≤ w.driveSize drive
  /-- The heap has room for the super block. -/
  room : w.heap.serves [sizeofSuperBlock] = true
  /-- It has no room for the bitmap after that. -/
  no_room : w.heap.serves
    [sizeofSuperBlock, sizeofBlockBitmap, bitmapBytes (w.driveSize drive)] = false
  /-- The device takes the super block. -/
  taken : w.io.refuses (w.io.clock + 1) = false
  /-- The disk did not hold it before. -/
  differs : ∀ spb, sectorsPerBlock (w.driveSize drive) = some spb →
    (w.io.unit (w.ideDevices drive).channel (w.ideDevices drive).drive).sectors
      elixirSuperblockLba ≠ superSector (w.driveSize drive) spb

section HalfFormatted

variable {w w' : Kernel AtaBus} {lo hi fuel drive c d : ℕ} {cells : List Cell}

/-- A write to an empty slot does nothing and says so. -/
theorem ideWriteSectorsCounted_absent {σ : Type} [PortBus σ] {w w' : Kernel σ}
    {lba n buf r : ℕ} (habsent : (w.ideDevices drive).reserved = 0)
    (h : Runs (ideWriteSectorsCounted fuel drive lba n buf) w r w') : r = 1 ∧ w' = w := by
  rw [ideWriteSectorsCounted, runs_get_bind, if_pos (Or.inr habsent)] at h
  obtain ⟨rfl, rfl⟩ := runs_pure.1 h
  exact ⟨rfl, rfl⟩

theorem exists_sectorsPerBlock {n : ℕ} (hn : 32768 ≤ n) : ∃ spb, sectorsPerBlock n = some spb := by
  cases hspb : sectorsPerBlock n with
  | none =>
    have := sectorsPerBlock_eq_none.1 hspb
    omega
  | some spb => exact ⟨spb, rfl⟩

/-- The requests of a format on cells. -/
theorem HeapInv.serves_format {h : Heap} (hinv : HeapInv lo hi h cells) {p n : ℕ}
    {cells' : List Cell} (halloc : allocate sizeofSuperBlock cells = some (p, cells')) :
    h.serves [sizeofSuperBlock, sizeofBlockBitmap, n] = false ↔ BitmapRefused n cells' := by
  rw [← Bool.not_eq_true, hinv.serves_iff, bitmapRefused_iff,
    show allocates [sizeofSuperBlock, sizeofBlockBitmap, n] cells =
      allocates [sizeofBlockBitmap, n] cells' by simp only [allocates, halloc, Option.bind_some]]
  simp

/-- A drive is left half formatted. -/
theorem HalfFormats.exists_mountable (hhalf : HalfFormats drive w)
    (hinv : HeapInv lo hi w.heap cells)
    (ha : Attached w drive c d)
    (hlat : ∀ k, w.io.latency k < fuel) :
    ∃ w', Runs (elixirFormat fuel drive) w (-1) w' ∧ ¬ DiskUnchanged w w' ∧
      ∀ out, ∃ w'', Runs (elixirMount fuel drive out) w' 0 w'' := by
  obtain ⟨spb, hspb⟩ := exists_sectorsPerBlock hhalf.large
  obtain ⟨⟨p, cells'⟩, halloc⟩ : ∃ r, allocate sizeofSuperBlock cells = some r := by
    have hroom := hinv.serves_iff.1 hhalf.room
    cases halloc : allocate sizeofSuperBlock cells with
    | none => simp [allocates, halloc] at hroom
    | some r => exact ⟨r, rfl⟩
  obtain ⟨w₁, hs⟩ := exists_superMade hinv hhalf.drive_lt hspb halloc
  have hio := hs.io_eq
  obtain ⟨_, _, hwrite, -⟩ := ideWriteSectorsCounted_one_spec (hs.attached ha) rfl
    (fun k ↦ hio ▸ hlat k) (show elixirSuperblockLba < 2 ^ 28 by decide)
  obtain ⟨-, ph, b', heq, hserved⟩ := hs.written ha hlat hwrite
  rw [heq] at hwrite
  rw [hhalf.taken, if_neg (by simp)] at hserved
  -- the super block is on the disk when the bitmap is refused
  obtain ⟨w', hformat, hend⟩ := elixirFormat_of_refused hinv hs hwrite
    ((hinv.serves_format halloc).1 hhalf.no_room)
  have hio' : w'.io = b' := hend.io_eq
  rw [← hio'] at hserved
  have ha' : Attached w' drive c d := by
    refine ha.served ?_ ?_ hserved rfl rfl
    · rw [hend.rest, hs.rest]; rfl
    · rw [hend.rest, hs.rest]; rfl
  have hsectors : (w'.io.unit c d).sectors = Function.update (w.io.unit c d).sectors
      elixirSuperblockLba (superSector (w.driveSize drive) spb) :=
    congrArg AtaUnit.sectors hserved.unit_eq
  have hsector : (w'.io.unit c d).sectors elixirSuperblockLba =
      superSector (w.driveSize drive) spb := by
    rw [hsectors, Function.update_self]
  have hdiffers := hhalf.differs spb hspb
  rw [ha.channel_eq, ha.drive_eq] at hdiffers
  refine ⟨w', hformat, fun hsame ↦ hdiffers ?_, ?_⟩
  · rw [← hsame, hsector]
  · intro out
    -- a mount has room for the super block, since the format had
    obtain ⟨v₁, v₂, -, hread, hmount⟩ := exists_superRead hend.inv ha'
      (fun k ↦ by rw [hserved.latency_eq]; exact hlat k) halloc
    rw [hsector] at hread
    exact ⟨_, hmount (congrArg SuperBlock.magic (load_of_sectorAt (w.driveSize_lt drive) hread))⟩

/-- Otherwise a format that fails leaves the disks alone. -/
theorem FormatOutcome.diskUnchanged {r : ℤ} (hinv : HeapInv lo hi w.heap cells)
    (h : FormatOutcome lo hi fuel drive cells w r w') (hr : r = -1)
    (hatt : (w.ideDevices drive).reserved ≠ 0 →
      Attached w drive (w.ideDevices drive).channel (w.ideDevices drive).drive)
    (hlat : ∀ k, w.io.latency k < fuel) (hhalf : ¬ HalfFormats drive w) : DiskUnchanged w w' := by
  cases h with
  | refused => exact fun _ _ ↦ rfl
  | tooSmall => exact fun _ _ ↦ rfl
  | @superNotWritten spb p err cells' w₁ w₂ w' hs hwrite herr hend =>
    rcases eq_or_ne (w.ideDevices drive).reserved 0 with hpresent | hpresent
    · have habsent : (w₁.ideDevices drive).reserved = 0 := by
        rw [hs.ideDevices_eq]
        exact hpresent
      obtain ⟨-, rfl⟩ := ideWriteSectorsCounted_absent habsent hwrite
      intro c d
      rw [hend.io_eq, hs.io_eq]
    · exact absurd (hs.written (hatt hpresent) hlat hwrite).1 herr
  | @noBitmap spb p cells' w₁ w₂ w' hs hwrite hrefused hend =>
    have hpresent : (w.ideDevices drive).reserved ≠ 0 := by
      intro hzero
      have habsent : (w₁.ideDevices drive).reserved = 0 := by
        rw [hs.ideDevices_eq]
        exact hzero
      exact absurd (ideWriteSectorsCounted_absent habsent hwrite).1 (by simp)
    obtain ⟨-, ph, b', rfl, hserved⟩ := hs.written (hatt hpresent) hlat hwrite
    have hio : w'.io = b' := hend.io_eq
    intro c d
    rw [hio]
    by_cases hunit : c = (w.ideDevices drive).channel ∧ d = (w.ideDevices drive).drive
    · obtain ⟨rfl, rfl⟩ := hunit
      rw [hserved.unit_eq]
      rcases eq_or_ne (w.io.refuses (w.io.clock + 1)) true with htaken | htaken
      · exact if_pos htaken
      · refine (if_neg htaken).trans (Function.update_eq_self_iff.2 ?_)
        -- a super block that is taken and new makes the drive half formatted
        by_contra hdiffers
        refine hhalf ⟨hs.drive_lt, hpresent, (sectorsPerBlock_bounds hs.spb_eq).1, ?_,
          (hinv.serves_format hs.alloc).2 hrefused, by simpa using htaken, ?_⟩
        · rw [hinv.serves_iff]
          simp [allocates, hs.alloc]
        · intro spb' hspb' heq
          obtain rfl := Option.some.inj (hs.spb_eq.symm.trans hspb')
          exact hdiffers heq.symm
    · rw [hserved.elsewhere c d hunit]
  | @bitmapWritten spb p b q err cells' cells₁ cells₂ w₁ w₂ w₃ w₄ w' hs hwrite hb hwrite' hend =>
    have hdevices : w₃.ideDevices = w.ideDevices := by
      have hports := ideWriteSectorsCounted_respects portAccess_portsOnly _ _ _ _ _ _ _ _ hwrite
      rw [hb.rest]
      exact hports.ideDevices_eq.trans hs.ideDevices_eq
    have hpresent : (w.ideDevices drive).reserved ≠ 0 := by
      intro hzero
      have habsent : (w₁.ideDevices drive).reserved = 0 := by
        rw [hs.ideDevices_eq]
        exact hzero
      exact absurd (ideWriteSectorsCounted_absent habsent hwrite).1 (by simp)
    rw [Nat.mul_comm] at hwrite'
    have herr : err = 0 := ideWriteSectorsCounted_result hs.drive_lt (hdevices ▸ hpresent)
      (bitmapEnd_le (w.driveSize drive)) hwrite'
    rw [if_neg (by simp [herr])] at hr
    exact absurd hr (by decide)

/-- A failed format that leaves a drive that can be mounted is not clean. -/
theorem not_failsClean_of_mountable (hlo : 0x100000 ≤ lo)
    (hformat : Runs (elixirFormat fuel drive) w (-1) w') (hchanged : ¬ DiskUnchanged w w')
    (hmount : ∀ out, ∃ w'', Runs (elixirMount fuel drive out) w' 0 w'') :
    ¬ FailsClean lo hi fuel drive w := by
  intro hclean
  obtain ⟨w'', hrun⟩ := hmount 4
  have hout : OutPointer lo hi w' 4 := ⟨by decide, fun x _ hx ↦ Or.inl (Or.inl (by omega))⟩
  exact absurd (((hclean w' hformat).resolve_left hchanged) 4 0 w'' hout hrun) (by decide)

/-- **When a failed format leaves a volume that can be mounted.** -/
theorem failsClean_iff {base size : ℕ} {mem : ByteMem} (hbase : 0x100000 ≤ base)
    (hend : base + size ≤ 2 ^ 32) (hacc : RegionAccepted base size)
    (hreach : HeapReach base size mem w.heap)
    (hatt : drive < 4 → (w.ideDevices drive).reserved ≠ 0 →
      Attached w drive (w.ideDevices drive).channel (w.ideDevices drive).drive)
    (hlat : ∀ k, w.io.latency k < fuel) :
    FailsClean (alignedStart base) (base + size) fuel drive w ↔ ¬ HalfFormats drive w := by
  obtain ⟨⟨cells, hinv⟩, -⟩ := hreach.exists_inv hbase hend hacc
  constructor
  · intro hclean hhalf
    obtain ⟨w', hformat, hchanged, hmount⟩ :=
      hhalf.exists_mountable hinv (hatt hhalf.drive_lt hhalf.present) hlat
    exact not_failsClean_of_mountable hinv.base_le hformat hchanged hmount hclean
  · intro hhalf w' hformat
    rcases Nat.lt_or_ge drive 4 with hdrive | hdrive
    · left
      exact (elixirFormat_runs hinv hformat).diskUnchanged hinv rfl (hatt hdrive) hlat hhalf
    · have hsuper : createSuper drive w = some (0, w) := by
        rw [createSuper, if_pos (by omega)]
        rfl
      rw [elixirFormat, runs_bind_of_runs hsuper, if_pos rfl] at hformat
      obtain ⟨-, rfl⟩ := runs_pure.1 hformat
      exact Or.inl fun _ _ ↦ rfl

/-- With room for everything a format leaves nothing half done. -/
theorem failsClean_blank :
    FailsClean 0x100000 0x110000 1 0 (Kernel.blank (Heap.fresh 0x10000) 32768) := by
  refine (failsClean_iff (w := Kernel.blank (Heap.fresh 0x10000) 32768)
    (by decide) (show 0x100000 + 0x10000 ≤ 2 ^ 32 by decide) (by decide) (Heap.fresh_reach _)
    (fun _ _ ↦ Kernel.attached_blank _ _ (by decide)) (AtaBus.faultFree_blank _).latency_lt).2 ?_
  intro hhalf
  have hinv : HeapInv 0x100000 (0x100000 + 0x10000)
      (Kernel.blank (Heap.fresh 0x10000) 32768).heap _ := Heap.fresh_inv (by decide) (by decide)
  have hserved := hinv.serves_iff.2 (show (allocates [sizeofSuperBlock, sizeofBlockBitmap,
    bitmapBytes 32768] _).isSome = true by decide +kernel)
  exact Bool.noConfusion (hserved.symm.trans hhalf.no_room)

/-- A heap of 4096 bytes has room for the super block of a disk of 32768 sectors, but not for
its bitmap: the format fails, and the mount succeeds. -/
theorem not_failsClean_smallHeap :
    ¬ FailsClean 0x100000 0x101000 1 0 (Kernel.blank (Heap.fresh 0x1000) 32768) := by
  have hinv : HeapInv 0x100000 (0x100000 + 0x1000)
      (Kernel.blank (Heap.fresh 0x1000) 32768).heap _ := Heap.fresh_inv (by decide) (by decide)
  have hhalf : HalfFormats 0 (Kernel.blank (Heap.fresh 0x1000) 32768) := by
    refine ⟨by decide, by decide, by decide, hinv.serves_iff.2 (by decide +kernel), ?_, rfl, ?_⟩
    · rw [← Bool.not_eq_true, hinv.serves_iff]
      decide +kernel
    · intro spb hspb heq
      obtain rfl : 2 = spb := Option.some.inj hspb
      exact absurd (congrFun heq 0) (by decide +kernel)
  obtain ⟨w', hformat, hchanged, hmount⟩ := hhalf.exists_mountable hinv
    (Kernel.attached_blank _ _ (by decide)) (AtaBus.faultFree_blank _).latency_lt
  exact not_failsClean_of_mountable hinv.base_le hformat hchanged hmount

end HalfFormatted
