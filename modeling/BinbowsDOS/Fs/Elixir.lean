import BinbowsDOS.Foundations.PackedRecord
import BinbowsDOS.Ide.Driver

/-!
# The Elixir file system

`fs/*.c` on the kernel state. The records `struct super_block` (packed), `struct block_bitmap`
and `struct index` (packed) are `RecordField` tables, and every access to one is an access to
memory, as in the source. A pointer is an address and `NULL` is 0; a function that hands an object
back through a pointer stores it there, and nothing stops it from storing at address 0.

Functions that return `NULL` on failure return 0, the others return −1.
-/

/-! ### Records -/

/-- `sizeof(struct super_block)` -/
def sizeofSuperBlock : ℕ := 512

/-- `s_magic` -/
def sMagic : RecordField := ⟨0, 2⟩
/-- `s_free_blocks` -/
def sFreeBlocks : RecordField := ⟨2, 4⟩
/-- `s_block_size` -/
def sBlockSize : RecordField := ⟨6, 2⟩
/-- `s_total_blocks` -/
def sTotalBlocks : RecordField := ⟨8, 4⟩
/-- `s_free_inodes` -/
def sFreeInodes : RecordField := ⟨12, 4⟩
/-- `s_total_inodes` -/
def sTotalInodes : RecordField := ⟨16, 4⟩
/-- `s_bitmap_start_lba` -/
def sBitmapStartLba : RecordField := ⟨20, 4⟩
/-- `s_bitmap_blocks` -/
def sBitmapBlocks : RecordField := ⟨24, 4⟩
/-- `s_inode_table_lba` -/
def sInodeTableLba : RecordField := ⟨28, 4⟩
/-- `s_data_start_lba` -/
def sDataStartLba : RecordField := ⟨32, 4⟩
/-- `s_state` -/
def sState : RecordField := ⟨36, 1⟩
/-- `s_errors` -/
def sErrors : RecordField := ⟨37, 1⟩

/-- `sizeof(struct block_bitmap)` -/
def sizeofBlockBitmap : ℕ := 16

/-- `free_count` -/
def BlockBitmap.freeCount : RecordField := ⟨0, 4⟩
/-- `used_count` -/
def BlockBitmap.usedCount : RecordField := ⟨4, 4⟩
/-- `total` -/
def BlockBitmap.total : RecordField := ⟨8, 4⟩
/-- `bitmap` -/
def BlockBitmap.bitmap : RecordField := ⟨12, 4⟩

/-- `sizeof(struct index)` -/
def sizeofIndex : ℕ := 514

/-- `time_stamp` -/
def Index.timeStamp : RecordField := ⟨0, 1⟩
/-- `type` -/
def Index.type : RecordField := ⟨1, 1⟩
/-- `size` -/
def Index.size : RecordField := ⟨2, 4⟩
/-- `first_block` -/
def Index.firstBlock : RecordField := ⟨6, 4⟩

/-- `ELIXIR_SUPERBLOCK_LBA` -/
def elixirSuperblockLba : ℕ := 1
/-- `ELIXIR_BITMAP_START_LBA` -/
def elixirBitmapStartLba : ℕ := 2
/-- `ELIXIR_MAGIC` -/
def elixirMagic : ℕ := 0xE1F5

/-! ### Memory -/

/-- `memset`: the loop's first `n` iterations. -/
def memsetLoop (s : ℕ) (c : UInt8) : ℕ → ByteMem → ByteMem
  | 0, m => m
  | n + 1, m => (memsetLoop s c n m).store8 (s + n) c

/-- Bit `i` of a buffer: `buf[i / 8] & (1 << i % 8)`. -/
def ByteMem.bit (m : ByteMem) (buf i : ℕ) : Bool := (m (buf + i / 8)).toNat.testBit (i % 8)

section Functions

variable {σ : Type}

/-- A call of `kmalloc`. -/
def kmallocK (size : ℕ) : KernelM σ ℕ := fun w ↦
  (kmalloc size w.heap).map fun r ↦ (r.1, w.setHeap r.2)

/-- A call of `kfree`. -/
def kfreeK (ptr : ℕ) : KernelM σ Unit := fun w ↦
  (kfree ptr w.heap).map fun h ↦ ((), w.setHeap h)

/-- A change of memory. -/
def modifyMem (f : ByteMem → ByteMem) : KernelM σ Unit := modify fun w ↦ w.setMem (f w.mem)

/-- `p->f` -/
def getField (p : ℕ) (f : RecordField) : KernelM σ ℕ := do
  let w ← get
  pure (w.mem.get p f)

/-- `p->f = v` -/
def setField (p : ℕ) (f : RecordField) (v : ℕ) : KernelM σ Unit := modifyMem fun m ↦ m.set p f v

/-- `memset` -/
def memset (s c n : ℕ) : KernelM σ Unit := modifyMem (memsetLoop s (UInt8.ofNat c) n)

/-- `*out = v` for a pointer `v`. -/
def storePointer (out v : ℕ) : KernelM σ Unit := modifyMem fun m ↦ m.storeLE out 4 v

/-! ### `create_super` -/

/-- The block size by drive size, in sectors; `none` for a drive that is too small. -/
def sectorsPerBlock (totalSectors : ℕ) : Option ℕ :=
  if totalSectors < 32768 then none
  else if totalSectors < 131072 then some 2
  else if totalSectors < 524288 then some 4
  else if totalSectors < 2097152 then some 8
  else if totalSectors < 8388608 then some 16
  else if totalSectors < 33554432 then some 32
  else if totalSectors < 134217728 then some 64
  else some 128

/-- The stores of `create_super` once the block size is known. -/
def fillSuper (sb totalSectors spb : ℕ) : KernelM σ Unit := do
  setField sb sMagic elixirMagic
  setField sb sBlockSize (512 * spb)
  setField sb sTotalBlocks (totalSectors / spb)
  let bitmapSizeSectors := u32 (totalSectors + 4095) / 4096
  let bitmapSizeSectors := if bitmapSizeSectors < 1 then 1 else bitmapSizeSectors
  setField sb sBitmapStartLba elixirBitmapStartLba
  setField sb sBitmapBlocks (sub32 (u32 (bitmapSizeSectors + spb)) 1 / spb)
  let bitmapStart ← getField sb sBitmapStartLba
  let bitmapBlocks ← getField sb sBitmapBlocks
  setField sb sInodeTableLba (u32 (bitmapStart + bitmapBlocks * spb))
  let inodeTable ← getField sb sInodeTableLba
  setField sb sDataStartLba (u32 (inodeTable + 256))
  let totalBlocks ← getField sb sTotalBlocks
  setField sb sFreeBlocks totalBlocks
  setField sb sTotalInodes 128
  setField sb sFreeInodes 128
  setField sb sState 1
  setField sb sErrors 0

/-- `create_super` -/
def createSuper (drive : ℕ) : KernelM σ ℕ := do
  if 4 ≤ drive then pure 0
  else do
    let w ← get
    let totalSectors := w.driveSize drive
    let sb ← kmallocK sizeofSuperBlock
    if sb = 0 then pure 0
    else do
      memset sb 0 sizeofSuperBlock
      match sectorsPerBlock totalSectors with
      | none => pure 0
      | some spb => do
        fillSuper sb totalSectors spb
        pure sb

/-! ### `create_bitmap` and `create_file` -/

/-- How `create_bitmap` and `elixir_read_bitmap` allocate a `block_bitmap` with a buffer of `n`
bytes: both or neither. -/
def allocBitmap (n : ℕ) : KernelM σ ℕ := do
  let bb ← kmallocK sizeofBlockBitmap
  if bb = 0 then pure 0
  else do
    let buf ← kmallocK n
    setField bb BlockBitmap.bitmap buf
    let buf ← getField bb BlockBitmap.bitmap
    if buf = 0 then do
      kfreeK bb
      pure 0
    else pure bb

/-- `bitmap_bytes` -/
def bitmapBytes (size : ℕ) : ℕ := u32 (size + 7) / 8

/-- `create_bitmap` -/
def createBitmap (drive : ℕ) : KernelM σ ℕ := do
  if 4 ≤ drive then pure 0
  else do
    let w ← get
    let size := w.driveSize drive
    if size = 0 then pure 0
    else do
      let bb ← allocBitmap (bitmapBytes size)
      if bb = 0 then pure 0
      else do
        let buf ← getField bb BlockBitmap.bitmap
        memset buf 0 (bitmapBytes size)
        setField bb BlockBitmap.total size
        setField bb BlockBitmap.freeCount size
        setField bb BlockBitmap.usedCount 0
        pure bb

/-- `create_file` -/
def createFile (drive : ℕ) : KernelM σ ℕ := do
  if 4 ≤ drive then pure 0
  else do
    let index ← kmallocK sizeofIndex
    if index = 0 then pure 0
    else do
      memset index 0 sizeofIndex
      setField index Index.type 1
      setField index Index.size 0
      setField index Index.firstBlock 0
      setField index Index.timeStamp 0
      pure index

/-! ### The bitmap on disk -/

/-- `kfree(bb->bitmap); kfree(bb);` -/
def freeBitmap (bb : ℕ) : KernelM σ Unit := do
  let buf ← getField bb BlockBitmap.bitmap
  kfreeK buf
  kfreeK bb

/-- The sectors of a bitmap for `size` sectors, as both `elixir_write_bitmap` and
`elixir_read_bitmap` compute them. -/
def bitmapSectors (size : ℕ) : ℕ := (bitmapBytes size + 511) / 512

variable [PortBus σ]

/-- `elixir_write_bitmap` -/
def elixirWriteBitmap (fuel drive bb : ℕ) : KernelM σ ℤ := do
  if bb = 0 then pure (-1)
  else do
    let buf ← getField bb BlockBitmap.bitmap
    if buf = 0 then pure (-1)
    else do
      let size ← getField bb BlockBitmap.total
      let err ← ideWriteSectorsCounted fuel drive elixirBitmapStartLba
        (bitmapSectors size * 512) buf
      if err ≠ 0 then pure (-1) else pure 0

/-- The counting loop of `elixir_read_bitmap`, from bit `i` on with `n` to go. -/
def countLoop (bb : ℕ) : ℕ → ℕ → KernelM σ Unit
  | _, 0 => pure ()
  | i, n + 1 => do
    let buf ← getField bb BlockBitmap.bitmap
    let w ← get
    if w.mem.bit buf i then do
      let used ← getField bb BlockBitmap.usedCount
      setField bb BlockBitmap.usedCount (u32 (used + 1))
    else do
      let free ← getField bb BlockBitmap.freeCount
      setField bb BlockBitmap.freeCount (u32 (free + 1))
    countLoop bb (i + 1) n

/-- `elixir_read_bitmap` -/
def elixirReadBitmap (fuel drive bbOut : ℕ) : KernelM σ ℤ := do
  if 4 ≤ drive then pure (-1)
  else do
    let w ← get
    let size := w.driveSize drive
    let bb ← allocBitmap (bitmapSectors size * 512)
    if bb = 0 then pure (-1)
    else do
      let buf ← getField bb BlockBitmap.bitmap
      let err ← ideReadSectors fuel drive (u8 (bitmapSectors size)) elixirBitmapStartLba buf
      if err ≠ 0 then do
        freeBitmap bb
        pure (-1)
      else do
        setField bb BlockBitmap.total size
        setField bb BlockBitmap.freeCount 0
        setField bb BlockBitmap.usedCount 0
        countLoop bb 0 size
        storePointer bbOut bb
        pure 0

/-! ### `elixir_format` and `elixir_mount` -/

/-- `elixir_format` -/
def elixirFormat (fuel drive : ℕ) : KernelM σ ℤ := do
  let sb ← createSuper drive
  if sb = 0 then pure (-1)
  else do
    let err ← ideWriteSectorsCounted fuel drive elixirSuperblockLba sizeofSuperBlock sb
    if err ≠ 0 then do
      kfreeK sb
      pure (-1)
    else do
      let bb ← createBitmap drive
      if bb = 0 then do
        kfreeK sb
        pure (-1)
      else do
        let err ← elixirWriteBitmap fuel drive bb
        if err ≠ 0 then do
          freeBitmap bb
          kfreeK sb
          pure (-1)
        else do
          freeBitmap bb
          kfreeK sb
          pure 0

/-- `elixir_mount` -/
def elixirMount (fuel drive sbOut : ℕ) : KernelM σ ℤ := do
  if 4 ≤ drive then pure (-1)
  else do
    let sb ← kmallocK sizeofSuperBlock
    if sb = 0 then pure (-1)
    else do
      let err ← ideReadSectors fuel drive 1 elixirSuperblockLba sb
      if err ≠ 0 then do
        kfreeK sb
        pure (-1)
      else do
        let magic ← getField sb sMagic
        if magic ≠ elixirMagic then do
          kfreeK sb
          pure (-1)
        else do
          storePointer sbOut sb
          pure 0

end Functions
