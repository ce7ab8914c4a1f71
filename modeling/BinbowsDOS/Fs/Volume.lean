import BinbowsDOS.Foundations.Trace
import BinbowsDOS.Fs.FormatMount
import BinbowsDOS.Fs.RoundTrip
import BinbowsDOS.Ide.Drives

/-!
# Volumes over whole sessions

A session is any sequence of calls of the file system on any drives, of raw writes through the
driver, and of other work on the heap. A volume is the sectors of one drive, and `FsEvent.Acts` says
what each call makes of them and what it may hand out: a format writes the super block and a clear
bitmap, a mount and a reading of the bitmap tell what the volume holds, a raw write replaces its
range, and no call on another drive matters.

Every session acts on every volume in this way, and leaves the heap well formed and the drives ready
(`FsStep.refines`, `sessions_refine`). So a volume that has been formatted stays one, with the same
super block and a clear bitmap, until somebody writes over them.
-/

open Arena Prog Kernel

/-! ### What is on a volume -/

/-- The super block that a sector holds. -/
def SuperBlock.ofSector (t : Sector) : SuperBlock := .load t.bytes 0

/-- A `block_bitmap` with its bits. -/
structure BitmapCopy where
  total : ℕ
  freeCount : ℕ
  usedCount : ℕ
  bits : List Bool

/-- The `block_bitmap` in memory, for a drive of `size` sectors. -/
def BitmapCopy.load (m : ByteMem) (bb size : ℕ) : BitmapCopy where
  total := m.get bb BlockBitmap.total
  freeCount := m.get bb BlockBitmap.freeCount
  usedCount := m.get bb BlockBitmap.usedCount
  bits := (List.range size).map (m.bit (m.get bb BlockBitmap.bitmap))

/-- A bit of the bitmap as far as `elixir_read_bitmap` reads it, with a count of sectors that is cut
to eight bits. -/
def readBit (size : ℕ) (s : ℕ → Sector) (k : ℕ) : Bool :=
  decide (k < 4096 * (bitmapSectors size % 256)) && diskBit s k

/-- The `block_bitmap` of a volume. -/
def BitmapCopy.ofDisk (size : ℕ) (s : ℕ → Sector) : BitmapCopy where
  total := size
  freeCount := size - (List.range size).countP (readBit size s)
  usedCount := (List.range size).countP (readBit size s)
  bits := (List.range size).map (readBit size s)

/-- What a format that returns `r` makes of a volume. -/
inductive Formats (size : ℕ) : ℤ → (ℕ → Sector) → (ℕ → Sector) → Prop
  /-- The super block and a clear bitmap. -/
  | done {s s' bitmap : ℕ → Sector} {spb : ℕ} (hspb : sectorsPerBlock size = some spb)
    (hsize : size + 7 < 2 ^ 32) (hs' : s' = formatSectors s size spb bitmap)
    (hclear : ∀ k < size, diskBit s' k = false) :
    Formats size 0 s s'
  /-- Nothing. -/
  | refused {s : ℕ → Sector} : Formats size (-1) s s
  /-- The super block only. -/
  | half {s s' : ℕ → Sector} {spb : ℕ} (hspb : sectorsPerBlock size = some spb)
    (hs' : s' = Function.update s elixirSuperblockLba (superSector size spb)) :
    Formats size (-1) s s'

/-- A call, with what it returns. -/
inductive FsEvent
  /-- `elixir_format` -/
  | format (drive : ℕ) (r : ℤ)
  /-- `elixir_mount`, with the super block that it hands out -/
  | mount (drive : ℕ) (sb : Option SuperBlock)
  /-- `elixir_read_bitmap`, with the `block_bitmap` that it hands out -/
  | readBitmap (drive : ℕ) (bb : Option BitmapCopy)
  /-- `create_file` -/
  | createFile (drive : ℕ)
  /-- `ide_write_sectors_counted`, with the sectors in memory -/
  | write (drive lba n : ℕ) (f : ℕ → Sector)
  /-- A call of the allocator, or a store by its clients. -/
  | heap

/-- **What a call does to the volume in slot `i`**, of `size` sectors. -/
def FsEvent.Acts (i size : ℕ) : FsEvent → (ℕ → Sector) → (ℕ → Sector) → Prop
  | .format drive r, s, s' => if drive = i then Formats size r s s' else s' = s
  | .mount drive sb, s, s' => s' = s ∧ (drive = i → ∀ x ∈ sb,
      x = .ofSector (s elixirSuperblockLba) ∧ x.magic = elixirMagic)
  | .readBitmap drive bb, s, s' => s' = s ∧ (drive = i → ∀ x ∈ bb, x = .ofDisk size s)
  | .createFile _, s, s' => s' = s
  | .write drive lba n f, s, s' => s' = if drive = i then writeRange s lba n f else s
  | .heap, s, s' => s' = s

/-- A call of the code. The bitmap is read only where the count of its sectors, cut to eight bits,
is not zero: the driver would leave such a transfer in the middle. -/
def FsStep (lo hi fuel : ℕ) : FsEvent → Kernel AtaBus → Kernel AtaBus → Prop
  | .format drive r, w, w' => Runs (elixirFormat fuel drive) w r w'
  | .mount drive sb, w, w' => ∃ out r, OutPointer lo hi w out ∧
      Runs (elixirMount fuel drive out) w r w' ∧
      sb = if r = 0 then some (.load w'.mem (w'.mem.loadLE out 4)) else none
  | .readBitmap drive bb, w, w' => bitmapSectors (w.driveSize drive) % 256 ≠ 0 ∧
      ∃ out r, OutPointer lo hi w out ∧ Runs (elixirReadBitmap fuel drive out) w r w' ∧
        bb = if r = 0 then some (.load w'.mem (w'.mem.loadLE out 4) (w.driveSize drive)) else none
  | .createFile drive, w, w' => ∃ p, Runs (createFile drive) w p w'
  | .write drive lba n f, w, w' => 0 < n ∧ lba + n ≤ 2 ^ 28 ∧
      ∃ data r, f = (fun j ↦ w.mem.sectorAt (data + 512 * j)) ∧
        Runs (ideWriteSectorsCounted fuel drive lba (512 * n) data) w r w'
  | .heap, w, w' => ∃ h, HeapStep lo hi w.heap h ∧ w' = w.setHeap h

/-! ### Calls -/

section Calls

variable {w w' w₁ w₂ w₃ : Kernel AtaBus} {lo hi fuel drive out p q b err : ℕ}
  {cells cells' cells₁ cells₂ : List Cell} {r : ℤ}

/-- **A format** of any drive. -/
theorem FormatOutcome.serves (hinv : HeapInv lo hi w.heap cells) (hd : w.Drives fuel)
    (h : FormatOutcome lo hi fuel drive cells w r w') :
    (∃ cells', HeapInv lo hi w'.heap cells') ∧ (∃ s, Serves drive s w w') ∧
      (w.InUse drive → Formats (w.driveSize drive) r (w.disk drive) (w'.disk drive)) := by
  have hformat := h
  cases h with
  | refused => exact ⟨⟨cells, hinv⟩, ⟨_, hd.serves rfl rfl rfl⟩, fun _ ↦ .refused⟩
  | tooSmall _ _ _ hinv' => exact ⟨⟨_, hinv'⟩, ⟨_, hd.serves rfl rfl rfl⟩, fun _ ↦ .refused⟩
  | superNotWritten hs hwrite herr hend =>
    have h₁ := hd.serves_of_heap (i := drive) hs.rest
    obtain ⟨hused, -, h₂⟩ := (h₁.drives hd).write (n := 1) Nat.one_pos (by decide) hwrite
    have hchain := h₁.trans h₂
    have hend' := (hchain.drives hd).serves_of_heap (i := drive) hend.rest
    refine ⟨⟨_, hend.inv⟩, ⟨_, hchain.trans hend'⟩, fun hi ↦ ?_⟩
    exact absurd (hused.1 ((InUse.congr hs.ideDevices_eq).2 hi)) herr
  | @noBitmap spb p cells' w₁ w₂ w' hs hwrite hrefused hend =>
    have h₁ := hd.serves_of_heap (i := drive) hs.rest
    obtain ⟨-, -, h₂⟩ := (h₁.drives hd).write (n := 1) Nat.one_pos (by decide) hwrite
    have hchain := h₁.trans h₂
    have hend' := (hchain.drives hd).serves_of_heap (i := drive) hend.rest
    refine ⟨⟨_, hend.inv⟩, ⟨_, hchain.trans hend'⟩, fun hi ↦ .half hs.spb_eq ?_⟩
    rw [hend'.disk_eq ((InUse.congr hchain.ideDevices).2 hi), hchain.disk_eq hi, h₁.disk_eq hi]
    funext x
    rcases eq_or_ne x elixirSuperblockLba with rfl | hx
    · rw [Function.update_self, ← hs.sector]
      exact writeRange_apply_add (j := 0) Nat.one_pos
    · rw [Function.update_of_ne hx]
      exact writeRange_apply_of_not_mem (by omega)
  | @bitmapWritten spb p b q err cells' cells₁ cells₂ w₁ w₂ w₃ w₄ w' hs hwrite hb hwrite' hend =>
    have h₁ := hd.serves_of_heap (i := drive) hs.rest
    obtain ⟨-, -, h₂⟩ := (h₁.drives hd).write (n := 1) Nat.one_pos (by decide) hwrite
    have hchain := h₁.trans h₂
    have h₃ := (hchain.drives hd).serves_of_heap (i := drive) hb.rest
    have hchain₃ := hchain.trans h₃
    have hbytes : bitmapBytes (w.driveSize drive) ≠ 0 :=
      driveSize_eq hchain.ideDevices drive ▸ (allocate_eq_some.1 hb.held.buffer).1
    have hsectors := bitmapBytes_le_sectors (w.driveSize drive)
    rw [Nat.mul_comm] at hwrite'
    obtain ⟨hused, -, h₄⟩ := (hchain₃.drives hd).write (by omega)
      (bitmapEnd_le (w.driveSize drive)) hwrite'
    have hchain₄ := hchain₃.trans h₄
    have hend' := (hchain₄.drives hd).serves_of_heap (i := drive) hend.rest
    refine ⟨⟨_, hend.inv⟩, ⟨_, hchain₄.trans hend'⟩, fun hi ↦ ?_⟩
    obtain rfl : err = 0 := hused.1 ((InUse.congr hchain₃.ideDevices).2 hi)
    have hpresent := hd.present drive hi
    obtain ⟨spb, _, _, _, _, _, _, q, _, w₃, -, -, -, hfmt⟩ :=
      hformat.formatted rfl hpresent hd.faultFree
    have hdisk : w'.disk drive = _ :=
      (congrArg (fun a : ℕ × ℕ ↦ (w'.io.unit a.1 a.2).sectors)
        (position_congr (hchain₄.trans hend').ideDevices)).trans hfmt.sectors_eq
    exact .done hfmt.spb_eq hfmt.size_lt hdisk fun k hk ↦ by
      rw [hdisk, ← hfmt.sectors_eq]
      exact hfmt.diskBit_eq_false hk

/-- A sector that has been read into a block. -/
theorem sectorAt_of_read {m : ByteMem} {s : ℕ → Sector} {lba : ℕ}
    (hm : w₂.mem = m.blit p (512 * 1) (sectorStream s lba)) : w₂.mem.sectorAt p = s lba := by
  funext i
  show w₂.mem (p + i) = _
  rw [hm, ByteMem.blit_apply_add (by omega), sectorStream_of_lt i.isLt, Sector.bytes,
    dif_pos i.isLt]

theorem sectorAt_bytes (t : Sector) : ByteMem.sectorAt t.bytes 0 = t := by
  funext i
  show t.bytes (0 + i) = t i
  rw [Nat.zero_add, Sector.bytes, dif_pos i.isLt]

/-- A block that was allocated after a pointer had been handed to the caller. -/
theorem OutPointer.sectorAt_eq (hout : OutPointer lo hi w out) (hinv : HeapInv lo hi w.heap cells)
    (halloc : allocate sizeofSuperBlock cells = some (p, cells')) (m : ByteMem) :
    (m.storeLE out 4 p).sectorAt p = m.sectorAt p := by
  refine sectorAt_eq_iff.2 fun i hi ↦ hout.storeLE_apply hinv ?_
  exact not_client_of_allocate hinv.tiles halloc (by omega)
    (by rw [show requestSize sizeofSuperBlock = 512 by decide]; omega)

theorem SuperRead.io_eq (h : SuperRead lo hi fuel drive cells w p cells' w₁ err w₂) :
    w₁.io = w.io := by
  rw [h.rest]
  rfl

theorem BitmapRead.io_eq (h : BitmapRead lo hi fuel drive cells w b cells₁ q cells₂ w₁ err w₂) :
    w₁.io = w.io := by
  rw [h.rest]
  rfl

/-- **A mount** of any drive. -/
theorem MountOutcome.serves (hinv : HeapInv lo hi w.heap cells) (hd : w.Drives fuel)
    (hout : OutPointer lo hi w out) (h : MountOutcome lo hi fuel drive out cells w r w') :
    (∃ cells', HeapInv lo hi w'.heap cells') ∧ Serves drive (w.disk drive) w w' ∧
      (r = 0 → SuperBlock.load w'.mem (w'.mem.loadLE out 4) =
        .ofSector (w.disk drive elixirSuperblockLba) ∧
        (SuperBlock.load w'.mem (w'.mem.loadLE out 4)).magic = elixirMagic) := by
  cases h with
  | refused => exact ⟨⟨cells, hinv⟩, hd.serves rfl rfl rfl, fun h ↦ absurd h (by decide)⟩
  | failed hread hwhy hend =>
    have h₁ := hd.serves_of_heap (i := drive) hread.rest
    obtain ⟨-, h₂, -⟩ := (h₁.drives hd).read Nat.one_pos (by decide) (by decide) hread.read
    rw [disk_congr h₁.ideDevices hread.io_eq] at h₂
    exact ⟨⟨cells, hend.inv⟩, (h₁.trans h₂).setHeap hend.rest, fun h ↦ absurd h (by decide)⟩
  | @mounted p cells' w₁ w₂ hread hmagic =>
    have h₁ := hd.serves_of_heap (i := drive) hread.rest
    obtain ⟨-, h₂, hmem⟩ := (h₁.drives hd).read Nat.one_pos (by decide) (by decide) hread.read
    rw [disk_congr h₁.ideDevices hread.io_eq] at h₂ hmem
    obtain ⟨hinv', hload⟩ := hout.store hinv hread.inv (fun x hx ↦ hx.allocate hread.alloc)
      (hinv.ptr_lt hread.alloc)
    have hload' : (w₂.mem.storeLE out 4 p).loadLE out 4 = p := hload
    have hsector : (w₂.mem.storeLE out 4 p).sectorAt p = w.disk drive elixirSuperblockLba :=
      (hout.sectorAt_eq hinv hread.alloc _).trans (sectorAt_of_read (hmem rfl))
    refine ⟨⟨cells', hinv'⟩, (h₁.trans h₂).setHeap rfl, fun _ ↦ ?_⟩
    rw [mem_setMem, hload']
    refine ⟨SuperBlock.load_congr (hsector.trans (sectorAt_bytes _).symm), ?_⟩
    refine Eq.trans ?_ hmagic
    exact congrArg SuperBlock.magic (SuperBlock.load_congr (hout.sectorAt_eq hinv hread.alloc _))

/-- What a read leaves in the buffer of a bitmap. -/
theorem BitmapRead.bit_eq {s : ℕ → Sector} {k : ℕ}
    (h : BitmapRead lo hi fuel drive cells w b cells₁ q cells₂ w₁ 0 w₂)
    (hm : w₂.mem = w₁.mem.blit q (512 * u8 (bitmapSectors (w.driveSize drive)))
      (sectorStream s elixirBitmapStartLba)) (hk : k < w.driveSize drive) :
    w₂.mem.bit q k = readBit (w.driveSize drive) s k := by
  have hsize := size_le_of_bitmapSectors (w.driveSize_lt drive)
    (allocate_eq_some.1 h.held.buffer).1
  rw [ByteMem.bit, readBit, hm]
  -- the sectors that are read, counted in bits
  have hiff : k / 8 < 512 * u8 (bitmapSectors (w.driveSize drive)) ↔
      k < 4096 * (bitmapSectors (w.driveSize drive) % 256) := by
    rw [u8]
    omega
  by_cases hin : k < 4096 * (bitmapSectors (w.driveSize drive) % 256)
  · rw [ByteMem.blit_apply_add (hiff.2 hin), decide_eq_true hin, Bool.true_and, diskBit,
      sectorStream, show k / 8 / 512 = k / 4096 by omega, show k / 8 % 512 = k % 4096 / 8 by omega]
  · rw [ByteMem.blit_apply_of_not_mem (Or.inr (by omega)), h.zero _ (by omega),
      decide_eq_false hin, Bool.false_and]
    exact Nat.zero_testBit _

theorem HandsBack.load_eq {σ : Type} {w : Kernel σ} {size : ℕ} {s : ℕ → Sector}
    (h : HandsBack out size (readBit size s) w) :
    BitmapCopy.load w.mem (w.mem.loadLE out 4) size = .ofDisk size s := by
  rw [BitmapCopy.load, BitmapCopy.ofDisk, h.total_eq, h.free_eq, h.used_eq]
  congr 1
  exact List.map_congr_left fun k hk ↦ h.bit_eq k (List.mem_range.1 hk)

/-- **A reading of the bitmap** of any drive. -/
theorem ReadBitmapOutcome.serves (hinv : HeapInv lo hi w.heap cells) (hd : w.Drives fuel)
    (hout : OutPointer lo hi w out) (hcount : bitmapSectors (w.driveSize drive) % 256 ≠ 0)
    (h : ReadBitmapOutcome lo hi fuel drive out cells w r w') :
    (∃ cells', HeapInv lo hi w'.heap cells') ∧ Serves drive (w.disk drive) w w' ∧
      (r = 0 → BitmapCopy.load w'.mem (w'.mem.loadLE out 4) (w.driveSize drive) =
        .ofDisk (w.driveSize drive) (w.disk drive)) := by
  have hpos : 0 < u8 (bitmapSectors (w.driveSize drive)) := Nat.pos_of_ne_zero hcount
  have hlt := u8_lt (bitmapSectors (w.driveSize drive))
  cases h with
  | refused _ hend =>
    exact ⟨⟨cells, hend.inv⟩, hd.serves_of_heap hend.rest, fun h ↦ absurd h (by decide)⟩
  | failed hread _ hend =>
    have h₁ := hd.serves_of_heap (i := drive) hread.rest
    obtain ⟨-, h₂, -⟩ := (h₁.drives hd).read hpos hlt (by decide) hread.read
    rw [disk_congr h₁.ideDevices hread.io_eq] at h₂
    exact ⟨⟨cells, hend.inv⟩, (h₁.trans h₂).setHeap hend.rest, fun h ↦ absurd h (by decide)⟩
  | @read b q cells₁ cells₂ w₁ w₂ w₃ hread hcounted =>
    have h₁ := hd.serves_of_heap (i := drive) hread.rest
    obtain ⟨-, h₂, hmem⟩ := (h₁.drives hd).read hpos hlt (by decide) hread.read
    rw [disk_congr h₁.ideDevices hread.io_eq] at h₂ hmem
    have hheld := hread.held.store fun x hx _ ↦ hcounted.mem x hx
    rw [← heap_setMem, ← hcounted.rest] at hheld
    obtain ⟨hinv', -⟩ := hout.store hinv hheld.inv
      (fun x hx ↦ (hx.allocate hheld.struct).allocate hheld.buffer) (hinv.ptr_lt hheld.struct)
    refine ⟨⟨cells₂, hinv'⟩, ((h₁.trans h₂).setHeap hcounted.rest).setHeap rfl, fun _ ↦ ?_⟩
    exact ((handsBack_of_read hinv hout hread hcounted).congr fun k hk ↦
      hread.bit_eq (hmem rfl) hk).load_eq

end Calls

/-! ### What lasts -/

/-- A raw write that leaves the super block and the bitmap of the volume in slot `i` alone. -/
def FsEvent.Spares (i size : ℕ) : FsEvent → Prop
  | .write drive lba n _ => drive = i →
      lba + n ≤ elixirSuperblockLba ∨ elixirBitmapStartLba + bitmapSectors size ≤ lba
  | _ => True

/-- What the raw writes of a session put on a volume. -/
def FsEvent.rawWrite (i : ℕ) (s : ℕ → Sector) : FsEvent → ℕ → Sector
  | .write drive lba n f => if drive = i then writeRange s lba n f else s
  | _ => s

/-- A volume as a format leaves it. -/
structure IsVolume (size spb : ℕ) (s : ℕ → Sector) : Prop where
  spb_eq : sectorsPerBlock size = some spb
  size_lt : size + 7 < 2 ^ 32
  super : s elixirSuperblockLba = superSector size spb
  clear : ∀ k < size, diskBit s k = false

/-- The `block_bitmap` of an empty volume. -/
def BitmapCopy.clear (size : ℕ) : BitmapCopy := ⟨size, size, 0, List.replicate size false⟩

section Lasting

variable {i size spb x : ℕ} {s s' t t' : ℕ → Sector} {e : FsEvent} {es : List FsEvent}

theorem Formats.isVolume (h : Formats size 0 s s') : ∃ spb, IsVolume size spb s' := by
  cases h with
  | done hspb hsize hs' hclear => exact ⟨_, hspb, hsize, hs' ▸ formatSectors_super, hclear⟩

/-- The bits of a volume are in its first sectors. -/
theorem diskBit_congr (hsize : size + 7 < 2 ^ 32)
    (h : ∀ x, elixirBitmapStartLba ≤ x → x < elixirBitmapStartLba + bitmapSectors size → s' x = s x)
    {k : ℕ} (hk : k < size) : diskBit s' k = diskBit s k := by
  have hin : k / 4096 < bitmapSectors size := by
    rw [bitmapSectors_eq hsize]
    omega
  rw [diskBit, diskBit, h _ (Nat.le_add_right _ _) (by omega)]

theorem Formats.lasts {r : ℤ} (h : Formats size r s s') (hs : IsVolume size spb s) :
    IsVolume size spb s' := by
  cases h with
  | done hspb hsize hs' hclear =>
    obtain rfl := Option.some.inj (hs.spb_eq.symm.trans hspb)
    exact ⟨hspb, hsize, hs' ▸ formatSectors_super, hclear⟩
  | refused => exact hs
  | half hspb hs' =>
    obtain rfl := Option.some.inj (hs.spb_eq.symm.trans hspb)
    refine ⟨hspb, hs.size_lt, by rw [hs', Function.update_self], fun k hk ↦ ?_⟩
    rw [← hs.clear k hk]
    refine diskBit_congr hs.size_lt (fun x hx _ ↦ ?_) hk
    rw [hs', Function.update_of_ne]
    exact ne_of_gt (lt_of_lt_of_le (by decide) hx)

/-- A call keeps a volume, unless it writes over it. -/
theorem FsEvent.Acts.lasts (h : e.Acts i size s s') (hspares : e.Spares i size)
    (hs : IsVolume size spb s) : IsVolume size spb s' := by
  cases e with
  | format drive r =>
    rw [Acts] at h
    split_ifs at h with hdrive
    · exact h.lasts hs
    · exact h ▸ hs
  | mount drive sb => exact h.1 ▸ hs
  | readBitmap drive bb => exact h.1 ▸ hs
  | createFile drive => exact h ▸ hs
  | heap => exact h ▸ hs
  | write drive lba n f =>
    rw [Acts] at h
    split_ifs at h with hdrive
    · have hclear : ∀ x, elixirSuperblockLba ≤ x →
          x < elixirBitmapStartLba + bitmapSectors size → s' x = s x := fun x hx hx' ↦ by
        rw [h]
        refine writeRange_apply_of_not_mem ?_
        have hoff := hspares hdrive
        omega
      refine ⟨hs.spb_eq, hs.size_lt, ?_, fun k hk ↦ ?_⟩
      · rw [hclear _ le_rfl (lt_of_lt_of_le (by decide) (Nat.le_add_right _ _)), hs.super]
      · rw [← hs.clear k hk]
        exact diskBit_congr hs.size_lt (fun x hx ↦ hclear x (le_trans (by decide) hx)) hk
    · exact h ▸ hs

theorem IsVolume.ofSector_eq (hs : IsVolume size spb s) :
    SuperBlock.ofSector (s elixirSuperblockLba) = superBlockFor size spb := by
  refine load_of_sectorAt (by have := hs.size_lt; omega) ?_
  rw [sectorAt_bytes, hs.super]

theorem IsVolume.ofDisk_eq (hs : IsVolume size spb s) :
    BitmapCopy.ofDisk size s = .clear size := by
  have hbits : ∀ k ∈ List.range size, readBit size s k = false := fun k hk ↦ by
    rw [readBit, hs.clear k (List.mem_range.1 hk), Bool.and_false]
  have hcount : (List.range size).countP (readBit size s) = 0 :=
    List.countP_eq_zero.2 fun k hk ↦ by simp [hbits k hk]
  have hmap : (List.range size).map (readBit size s) = List.replicate size false := by
    rw [List.map_congr_left hbits, List.map_const', List.length_range]
  rw [BitmapCopy.ofDisk, hcount, hmap]
  rfl

/-- What calls hand out in the meantime. -/
theorem IsVolume.lasts (hs : IsVolume size spb s) (hspares : ∀ e ∈ es, e.Spares i size)
    (h : Trace (FsEvent.Acts i size) es s s') : IsVolume size spb s' ∧
      (∀ sb, .mount i (some sb) ∈ es → sb = superBlockFor size spb) ∧
      ∀ bb, .readBitmap i (some bb) ∈ es → bb = .clear size := by
  induction es generalizing s with
  | nil =>
    cases h
    exact ⟨hs, fun _ h ↦ absurd h List.not_mem_nil, fun _ h ↦ absurd h List.not_mem_nil⟩
  | cons e es ih =>
    obtain ⟨u, hact, hrest⟩ := h
    obtain ⟨hspare, hspares⟩ := List.forall_mem_cons.1 hspares
    obtain ⟨hs', hmounts, hbitmaps⟩ := ih (hact.lasts hspare hs) hspares hrest
    refine ⟨hs', fun sb hmem ↦ ?_, fun bb hmem ↦ ?_⟩
    · rcases List.mem_cons.1 hmem with rfl | hmem
      · exact ((hact.2 rfl sb rfl).1).trans hs.ofSector_eq
      · exact hmounts sb hmem
    · rcases List.mem_cons.1 hmem with rfl | hmem
      · exact (hact.2 rfl bb rfl).trans hs.ofDisk_eq
      · exact hbitmaps bb hmem

theorem Formats.data {r : ℤ} (hx : x = 0 ∨ elixirBitmapStartLba + bitmapSectors size ≤ x)
    (h : Formats size r s s') : s' x = s x := by
  have hsuper : x ≠ elixirSuperblockLba := by
    rw [elixirBitmapStartLba] at hx
    rw [elixirSuperblockLba]
    omega
  cases h with
  | done hspb hsize hs' =>
    rw [hs', formatSectors_of_not_mem hsuper]
    exact hx.imp_left fun h ↦ h.trans_lt (by decide)
  | refused => rfl
  | half hspb hs' => rw [hs', Function.update_of_ne hsuper]

theorem FsEvent.Acts.data (hx : x = 0 ∨ elixirBitmapStartLba + bitmapSectors size ≤ x)
    (h : e.Acts i size s s') (ht : s x = t x) : s' x = e.rawWrite i t x := by
  cases e with
  | format drive r =>
    rw [Acts] at h
    split_ifs at h with hdrive
    · exact (h.data hx).trans ht
    · exact h ▸ ht
  | mount drive sb => exact h.1 ▸ ht
  | readBitmap drive bb => exact h.1 ▸ ht
  | createFile drive => exact h ▸ ht
  | heap => exact h ▸ ht
  | write drive lba n f =>
    rw [Acts] at h
    rw [h, rawWrite]
    split_ifs with hdrive
    · rw [writeRange, writeRange, ht]
    · exact ht

/-- **Only raw writes change data.** -/
theorem FsEvent.acts_data (hx : x = 0 ∨ elixirBitmapStartLba + bitmapSectors size ≤ x)
    (h : Trace (FsEvent.Acts i size) es s s') (ht : s x = t x) :
    s' x = es.foldl (FsEvent.rawWrite i) t x := by
  induction es generalizing s t with
  | nil =>
    cases h
    exact ht
  | cons e es ih =>
    obtain ⟨u, hact, hrest⟩ := h
    exact ih hrest (hact.data hx ht)

end Lasting

/-! ### Sessions -/

section Sessions

variable {w w' : Kernel AtaBus} {lo hi fuel drive i : ℕ} {cells : List Cell} {e : FsEvent}
  {es : List FsEvent}

/-- A call on one drive, by what it does to this drive. -/
theorem FsEvent.acts_of_serves {s : ℕ → Sector} (hd : w.Drives fuel) (hserves : Serves drive s w w')
    (hself : w.InUse drive → e.Acts drive (w.driveSize drive) (w.disk drive) (w'.disk drive))
    (hother : ∀ i ≠ drive, ∀ size s, e.Acts i size s s) :
    w'.Drives fuel ∧ w'.ideDevices = w.ideDevices ∧
      ∀ i, w.InUse i → e.Acts i (w.driveSize i) (w.disk i) (w'.disk i) := by
  refine ⟨hserves.drives hd, hserves.ideDevices, fun i hi ↦ ?_⟩
  rcases eq_or_ne i drive with rfl | hne
  · exact hself hi
  · rw [hserves.disk_of_ne hd hi hne]
    exact hother i hne _ _

/-- **A call acts on every volume as it should**, and keeps what the next one relies on. -/
theorem FsStep.refines (hinv : HeapInv lo hi w.heap cells) (hd : w.Drives fuel)
    (h : FsStep lo hi fuel e w w') :
    (∃ cells', HeapInv lo hi w'.heap cells') ∧ w'.Drives fuel ∧ w'.ideDevices = w.ideDevices ∧
      ∀ i, w.InUse i → e.Acts i (w.driveSize i) (w.disk i) (w'.disk i) := by
  cases e with
  | format drive r =>
    obtain ⟨hinv', ⟨s, hserves⟩, hformats⟩ := (elixirFormat_runs hinv h).serves hinv hd
    refine ⟨hinv', FsEvent.acts_of_serves hd hserves (fun hi ↦ ?_) fun i hne _ _ ↦ ?_⟩
    · exact (if_pos rfl).mpr (hformats hi)
    · exact (if_neg hne.symm).mpr rfl
  | mount drive sb =>
    obtain ⟨out, r, hout, hrun, rfl⟩ := h
    obtain ⟨hinv', hserves, hload⟩ := (elixirMount_runs hinv hrun).serves hinv hd hout
    refine ⟨hinv', FsEvent.acts_of_serves hd hserves (fun hi ↦ ?_) fun i hne _ _ ↦ ?_⟩
    · refine ⟨hserves.disk_eq hi, fun _ x hx ↦ ?_⟩
      split_ifs at hx with hr
      · obtain rfl := Option.some.inj hx
        exact hload hr
      · cases hx
    · exact ⟨rfl, fun heq ↦ absurd heq hne.symm⟩
  | readBitmap drive bb =>
    obtain ⟨hcount, out, r, hout, hrun, rfl⟩ := h
    obtain ⟨hinv', hserves, hload⟩ :=
      (elixirReadBitmap_runs hinv hrun).serves hinv hd hout hcount
    refine ⟨hinv', FsEvent.acts_of_serves hd hserves (fun hi ↦ ?_) fun i hne _ _ ↦ ?_⟩
    · refine ⟨hserves.disk_eq hi, fun _ x hx ↦ ?_⟩
      split_ifs at hx with hr
      · obtain rfl := Option.some.inj hx
        exact hload hr
      · cases hx
    · exact ⟨rfl, fun heq ↦ absurd heq hne.symm⟩
  | createFile drive =>
    obtain ⟨p, hrun⟩ := h
    obtain ⟨h', hinv', rfl⟩ : ∃ h', (∃ cells', HeapInv lo hi h' cells') ∧ w' = w.setHeap h' := by
      rcases Nat.lt_or_ge drive 4 with hdrive | hdrive
      · rcases createFile_spec hinv hdrive with ⟨-, hfile⟩ | ⟨_, cells', h', -, hfile, hinv'⟩
        · obtain ⟨-, rfl⟩ := hrun.unique hfile
          exact ⟨w'.heap, ⟨cells, hinv⟩, rfl⟩
        · obtain ⟨-, rfl⟩ := hrun.unique hfile
          exact ⟨h', ⟨cells', hinv'⟩, rfl⟩
      · rw [createFile, if_pos hdrive] at hrun
        obtain ⟨-, rfl⟩ := runs_pure.1 hrun
        exact ⟨w.heap, ⟨cells, hinv⟩, rfl⟩
    have hserves : Serves drive (w.disk drive) w (w.setHeap h') := hd.serves_of_heap rfl
    exact ⟨hinv', FsEvent.acts_of_serves hd hserves hserves.disk_eq fun _ _ _ _ ↦ rfl⟩
  | write drive lba n f =>
    obtain ⟨hn, hlba, data, r, rfl, hrun⟩ := h
    obtain ⟨-, hheap, hserves⟩ := hd.write hn hlba hrun
    refine ⟨⟨cells, hheap.symm ▸ hinv⟩,
      FsEvent.acts_of_serves hd hserves (fun hi ↦ ?_) fun i hne _ _ ↦ ?_⟩
    · exact (hserves.disk_eq hi).trans (if_pos rfl).symm
    · exact (if_neg hne.symm).symm
  | heap =>
    obtain ⟨h', hstep, rfl⟩ := h
    have hserves : Serves 0 (w.disk 0) w (w.setHeap h') := hd.serves_of_heap rfl
    exact ⟨(hstep.exists_inv hinv).1,
      FsEvent.acts_of_serves hd hserves hserves.disk_eq fun _ _ _ _ ↦ rfl⟩

/-- What holds between two calls. -/
def FsReady (lo hi fuel : ℕ) (devices : ℕ → IdeDevice) (w : Kernel AtaBus) : Prop :=
  (∃ cells, HeapInv lo hi w.heap cells) ∧ w.Drives fuel ∧ w.ideDevices = devices

theorem FsReady.trace {devices : ℕ → IdeDevice} (hw : FsReady lo hi fuel devices w)
    (h : Trace (FsStep lo hi fuel) es w w') : FsReady lo hi fuel devices w' := by
  refine h.invariant (fun e u u' hu hstep ↦ ?_) hw
  obtain ⟨⟨cells, hinv⟩, hd, hdevices⟩ := hu
  obtain ⟨hinv', hd', hdevices', -⟩ := hstep.refines hinv hd
  exact ⟨hinv', hd', hdevices'.trans hdevices⟩

/-- **The calls of a session act on every volume** one after the other. -/
theorem FsReady.trace_acts (hw : FsReady lo hi fuel w.ideDevices w) (hused : w.InUse i)
    (h : Trace (FsStep lo hi fuel) es w w') :
    Trace (FsEvent.Acts i (w.driveSize i)) es (w.disk i) (w'.disk i) := by
  have hsim : Simulates (FsStep lo hi fuel) (FsEvent.Acts i (w.driveSize i)) some fun u s ↦
      FsReady lo hi fuel w.ideDevices u ∧ s = u.disk i := by
    rintro e u s u' ⟨⟨⟨cells, hinv⟩, hd, hdevices⟩, rfl⟩ hstep
    obtain ⟨hinv', hd', hdevices', hacts⟩ := FsStep.refines hinv hd hstep
    have hact := hacts i ((InUse.congr hdevices).2 hused)
    rw [driveSize_eq hdevices] at hact
    exact ⟨_, ⟨_, hact, rfl⟩, ⟨hinv', hd', hdevices'.trans hdevices⟩, rfl⟩
  obtain ⟨s, htrace, -, rfl⟩ := hsim.exists_trace h ⟨hw, rfl⟩
  rwa [List.filterMap_some] at htrace

/-- With room for a super block a volume is mounted. -/
theorem IsVolume.exists_mount {spb out : ℕ} (hv : IsVolume (w.driveSize i) spb (w.disk i))
    (hinv : HeapInv lo hi w.heap cells) (hd : w.Drives fuel) (hused : w.InUse i)
    (hout : OutPointer lo hi w out) (halloc : ∃ p cells', allocate sizeofSuperBlock cells =
      some (p, cells')) :
    ∃ w', FsStep lo hi fuel (.mount i (some (superBlockFor (w.driveSize i) spb))) w w' := by
  obtain ⟨p, cells', halloc⟩ := halloc
  obtain ⟨w₁, w₂, hread, hsector, hmount⟩ :=
    exists_superRead hinv (hd.present i hused) hd.faultFree.latency_lt halloc
  have hsuper : w₂.mem.sectorAt p = superSector (w.driveSize i) spb := hsector.trans hv.super
  have hmagic := congrArg SuperBlock.magic (load_of_sectorAt (w.driveSize_lt i) hsuper)
  have hrun : Runs (elixirMount fuel i out) w 0 _ := hmount hmagic
  obtain ⟨-, -, hload⟩ := (elixirMount_runs hinv hrun).serves hinv hd hout
  exact ⟨_, out, 0, hout, hrun, congrArg some (hv.ofSector_eq.symm.trans (hload rfl).1.symm)⟩

/-- **Sessions refine volumes.** In every session on fault-free drives, every call acts on the
volume of every drive in use as it should, whatever is done to the other drives, and at the end the
heap and the drives are ready for the next call. -/
theorem sessions_refine {base size : ℕ} {mem : ByteMem} (hbase : 0x100000 ≤ base)
    (hend : base + size ≤ 2 ^ 32) (hacc : RegionAccepted base size)
    (hreach : HeapReach base size mem w.heap) (hd : w.Drives fuel)
    (h : Trace (FsStep (alignedStart base) (base + size) fuel) es w w') :
    (∃ cells, HeapInv (alignedStart base) (base + size) w'.heap cells) ∧ w'.Drives fuel ∧
      ∀ i, w.InUse i → Trace (FsEvent.Acts i (w.driveSize i)) es (w.disk i) (w'.disk i) := by
  obtain ⟨hinv, -⟩ := hreach.exists_inv hbase hend hacc
  have hw : FsReady (alignedStart base) (base + size) fuel w.ideDevices w := ⟨hinv, hd, rfl⟩
  obtain ⟨hinv', hd', -⟩ := hw.trace h
  exact ⟨hinv', hd', fun i hused ↦ hw.trace_acts hused h⟩

/-- **A formatted volume lasts.** After a format that succeeded, while no raw write goes over the
super block or the bitmap, every mount of this drive that hands out a super block hands out the one
of the format, every bitmap that is handed out is clear, and a mount succeeds for as long as the
heap has room for a super block. -/
theorem formatted_volume_lasts {base size : ℕ} {mem : ByteMem} {before after : List FsEvent}
    (hbase : 0x100000 ≤ base) (hend : base + size ≤ 2 ^ 32) (hacc : RegionAccepted base size)
    (hreach : HeapReach base size mem w.heap) (hd : w.Drives fuel)
    (h : Trace (FsStep (alignedStart base) (base + size) fuel)
      (before ++ .format i 0 :: after) w w') (hused : w.InUse i)
    (hspares : ∀ e ∈ after, e.Spares i (w.driveSize i)) :
    ∃ spb, sectorsPerBlock (w.driveSize i) = some spb ∧
      (∀ sb, .mount i (some sb) ∈ after → sb = superBlockFor (w.driveSize i) spb) ∧
      (∀ bb, .readBitmap i (some bb) ∈ after → bb = .clear (w.driveSize i)) ∧
      ∀ out, OutPointer (alignedStart base) (base + size) w' out →
        (∃ p h', kmalloc sizeofSuperBlock w'.heap = some (p, h') ∧ p ≠ 0) →
        ∃ w'', FsStep (alignedStart base) (base + size) fuel
          (.mount i (some (superBlockFor (w.driveSize i) spb))) w' w'' := by
  obtain ⟨hinv, -⟩ := hreach.exists_inv hbase hend hacc
  have hw : FsReady (alignedStart base) (base + size) fuel w.ideDevices w := ⟨hinv, hd, rfl⟩
  obtain ⟨⟨cells, hinv'⟩, hd', hdevices⟩ := hw.trace h
  -- the volume at the end of the format, and after what comes behind it
  obtain ⟨s, -, s', hformat, hafter⟩ := (hw.trace_acts hused h).of_append
  obtain ⟨spb, hvolume⟩ := Formats.isVolume ((if_pos rfl).mp hformat)
  obtain ⟨hlasts, hmounts, hbitmaps⟩ := hvolume.lasts hspares hafter
  refine ⟨spb, hvolume.spb_eq, hmounts, hbitmaps, fun out hout hroom ↦ ?_⟩
  have hsize := driveSize_eq hdevices i
  rw [← hsize] at hlasts ⊢
  exact hlasts.exists_mount hinv' hd' ((InUse.congr hdevices).2 hused) hout
    (hinv'.allocate_iff_kmalloc.2 hroom)

/-- **Data is safe.** Behind the bitmap every drive holds what the raw writes of a session have put
there, and what was there before. -/
theorem data_of_session {base size x : ℕ} {mem : ByteMem} (hbase : 0x100000 ≤ base)
    (hend : base + size ≤ 2 ^ 32) (hacc : RegionAccepted base size)
    (hreach : HeapReach base size mem w.heap) (hd : w.Drives fuel)
    (h : Trace (FsStep (alignedStart base) (base + size) fuel) es w w') (hused : w.InUse i)
    (hx : x = 0 ∨ elixirBitmapStartLba + bitmapSectors (w.driveSize i) ≤ x) :
    w'.disk i x = es.foldl (FsEvent.rawWrite i) (w.disk i) x := by
  obtain ⟨hinv, -⟩ := hreach.exists_inv hbase hend hacc
  have hw : FsReady (alignedStart base) (base + size) fuel w.ideDevices w := ⟨hinv, hd, rfl⟩
  exact FsEvent.acts_data hx (hw.trace_acts hused h) rfl

end Sessions

/-! ### A session on blank disks -/

section Blank

/-- The region of the heap, and the steps on it. -/
abbrev BlankStep : FsEvent → Kernel AtaBus → Kernel AtaBus → Prop :=
  FsStep (alignedStart 0x100000) (0x100000 + 0x10000) 1

/-- Four blank disks. -/
def Kernel.blankDisks : Kernel AtaBus := .blank (Heap.fresh 0x10000) 32768

theorem drives_blankDisks : blankDisks.Drives 1 where
  faultFree := AtaBus.faultFree_blank _
  present i hi := Kernel.attached_blank _ _ hi.1
  apart i j _ _ heq := by
    obtain ⟨hchannel, hdrive⟩ : i / 2 = j / 2 ∧ i % 2 = j % 2 := Prod.mk.inj heq
    omega

/-- Disk 0 is formatted, and two sectors of it are written then. -/
theorem exists_session_blank : ∃ w' f,
    Trace BlankStep ([] ++ .format 0 0 :: [.write 0 5000 2 f]) blankDisks w' ∧
      HeapInv (alignedStart 0x100000) (0x100000 + 0x10000) w'.heap
        [⟨0x100000, 0x10000, false⟩] := by
  have hinv : HeapInv (alignedStart 0x100000) (0x100000 + 0x10000) blankDisks.heap _ :=
    Heap.fresh_inv (by decide) (by decide)
  have hused : blankDisks.InUse 0 := ⟨by decide, by decide⟩
  obtain ⟨w₁, hformat⟩ : ∃ w₁, Runs (elixirFormat 1 0) blankDisks 0 w₁ :=
    exists_format_fresh rfl rfl (Kernel.attached_blank _ _ (by decide)) (AtaBus.faultFree_blank _)
  have houtcome := elixirFormat_runs hinv hformat
  obtain ⟨_, _, _, _, _, _, _, _, _, _, -, -, -, hfmt⟩ :=
    houtcome.formatted rfl (Kernel.attached_blank _ _ (by decide)) (AtaBus.faultFree_blank _)
  obtain ⟨-, ⟨s, hserves⟩, -⟩ := houtcome.serves hinv drives_blankDisks
  have hd₁ := hserves.drives drives_blankDisks
  have hpresent := hd₁.present 0 ((InUse.congr hserves.ideDevices).2 hused)
  obtain ⟨ph, b', hwrite, -⟩ := ideWriteSectorsCounted_spec 0x7000 hpresent rfl hd₁.faultFree
    (show 0 < 2 by decide) (show 5000 + 2 ≤ 2 ^ 28 by decide)
  exact ⟨_, _, ⟨w₁, hformat, _, ⟨by decide, by decide, 0x7000, 0, rfl, hwrite⟩, rfl⟩, hfmt.inv⟩

theorem sessions_refine_blank : ∃ w' f,
    Trace (FsEvent.Acts 0 32768) ([] ++ .format 0 0 :: [.write 0 5000 2 f])
      (blankDisks.disk 0) (Kernel.disk w' 0) := by
  obtain ⟨w', f, htrace, -⟩ := exists_session_blank
  obtain ⟨-, -, hacts⟩ := sessions_refine (by decide) (by decide) (by decide)
    (Heap.fresh_reach _) drives_blankDisks htrace
  exact ⟨w', f, hacts 0 ⟨by decide, by decide⟩⟩

/-- The disk is mounted. -/
theorem formatted_volume_lasts_blank : ∃ w' f w'' spb,
    Trace BlankStep ([] ++ .format 0 0 :: [.write 0 5000 2 f]) blankDisks w' ∧
      BlankStep (.mount 0 (some (superBlockFor 32768 spb))) w' w'' := by
  obtain ⟨w', f, htrace, hinv⟩ := exists_session_blank
  have hspares : ∀ e ∈ [FsEvent.write 0 5000 2 f], e.Spares 0 (blankDisks.driveSize 0) := by
    intro e he
    rw [List.mem_singleton.1 he]
    exact fun _ ↦ .inr (by decide)
  have hout : OutPointer (alignedStart 0x100000) (0x100000 + 0x10000) w' 0x7000 :=
    ⟨by decide, fun x _ hx ↦ .inl (.inl (hx.trans (by decide)))⟩
  obtain ⟨spb, -, -, -, hmount⟩ := formatted_volume_lasts (by decide) (by decide) (by decide)
    (Heap.fresh_reach _) drives_blankDisks htrace ⟨by decide, by decide⟩ hspares
  obtain ⟨w'', hstep⟩ := hmount 0x7000 hout
    (hinv.allocate_iff_kmalloc.1 ⟨0x100008, _, rfl⟩)
  exact ⟨w', f, w'', spb, htrace, hstep⟩

theorem data_of_session_blank : ∃ w' f,
    Trace BlankStep ([] ++ .format 0 0 :: [.write 0 5000 2 f]) blankDisks w' ∧
      Kernel.disk w' 0 5001 = f 1 := by
  obtain ⟨w', f, htrace, -⟩ := exists_session_blank
  have hdata := data_of_session (i := 0) (x := 5001) (by decide) (by decide) (by decide)
    (Heap.fresh_reach _) drives_blankDisks htrace ⟨by decide, by decide⟩ (.inr (by decide))
  exact ⟨w', f, htrace, hdata⟩

end Blank
