import BinbowsDOS.Fs.Elixir
import BinbowsDOS.Heap.FirstFit
import BinbowsDOS.Ide.Frame

/-!
# Creating the objects of the file system

`create_super`, `create_bitmap` and `create_file` do no I/O: each is a function of the heap, the
memory and the device table. Their specifications say what they do to the cells of the heap and
what the object they hand back contains; all three leave the bytes of the other clients alone.
-/

open Arena Prog Kernel

/-! ### Clearing -/

theorem memsetLoop_eq_fill (s : ℕ) (c : UInt8) (n : ℕ) (m : ByteMem) :
    memsetLoop s c n m = m.fill s n c := by
  induction n with
  | zero => exact ByteMem.blit_zero.symm
  | succ n ih => rw [memsetLoop, ih, ByteMem.fill, ByteMem.store8, ByteMem.blit_blit_append,
      ByteMem.fill]

section Calls

variable {σ : Type} {w : Kernel σ} {lo hi n p : ℕ} {cells cells' : List Cell}

theorem Kernel.driveSize_lt (w : Kernel σ) (drive : ℕ) : w.driveSize drive < 2 ^ 32 :=
  (w.ideDevices drive).size.toNat_lt

theorem kmallocK_of_none (hinv : HeapInv lo hi w.heap cells) (hnone : allocate n cells = none) :
    kmallocK n w = some (0, w) := by
  rw [kmallocK, hinv.kmalloc_of_none hnone]
  rfl

theorem kmallocK_of_some (hinv : HeapInv lo hi w.heap cells)
    (hsome : allocate n cells = some (p, cells')) :
    ∃ h', kmallocK n w = some (p, w.setHeap h') ∧ HeapInv lo hi h' cells' ∧
      (∀ x, Client lo hi cells x → h'.mem x = w.mem x) ∧
      ∀ i < requestSize n, h'.mem (p + i) = 0 := by
  obtain ⟨h', hcall, hinv', -, hmem, hzero⟩ := hinv.kmalloc_of_some hsome
  refine ⟨h', ?_, hinv', hmem, hzero⟩
  rw [kmallocK, hcall]
  rfl

theorem kfreeK_of_allocate (hinv : HeapInv lo hi w.heap cells') (ht : Tiles lo hi cells)
    (hco : Coalesced cells) (hsome : allocate n cells = some (p, cells')) :
    ∃ h', kfreeK p w = some ((), w.setHeap h') ∧ HeapInv lo hi h' cells ∧
      ∀ x, Client lo hi cells' x → h'.mem x = w.mem x := by
  obtain ⟨h', hcall, hinv', -, hmem⟩ := hinv.kfree_of_allocate ht hco hsome
  refine ⟨h', ?_, hinv', hmem⟩
  rw [kfreeK, hcall]
  rfl

theorem setField_apply (p : ℕ) (f : RecordField) (v : ℕ) :
    setField p f v w = some ((), w.setMem (w.mem.set p f v)) := rfl

theorem getField_apply (p : ℕ) (f : RecordField) :
    getField p f w = some (w.mem.get p f, w) := rfl

theorem memset_apply (s c n : ℕ) :
    memset s c n w = some ((), w.setMem (w.mem.fill s n (UInt8.ofNat c))) := by
  rw [← memsetLoop_eq_fill]
  rfl

/-- Stores into a range that belongs to the clients keep the cells. -/
theorem HeapInv.store_range {h : Heap} (hinv : HeapInv lo hi h cells) {m : ByteMem}
    (hm : ∀ x, x < p ∨ p + n ≤ x → m x = h.mem x)
    (hclient : ∀ x, p ≤ x → x < p + n → Client lo hi cells x) :
    HeapInv lo hi { h with mem := m } cells :=
  hinv.client fun x hx ↦ hm x (by
    by_contra hin
    exact hx (hclient x (by omega) (by omega)))

end Calls

/-! ### The super block -/

/-- The sectors of the bitmap of a drive, as `create_super` counts them. -/
def superBitmapSectors (totalSectors : ℕ) : ℕ :=
  if u32 (totalSectors + 4095) / 4096 < 1 then 1 else u32 (totalSectors + 4095) / 4096

/-- The stores of `create_super` as a function of memory. -/
def superMem (sb totalSectors spb : ℕ) (m : ByteMem) : ByteMem :=
  let m := m.set sb sMagic elixirMagic
  let m := m.set sb sBlockSize (512 * spb)
  let m := m.set sb sTotalBlocks (totalSectors / spb)
  let m := m.set sb sBitmapStartLba elixirBitmapStartLba
  let m := m.set sb sBitmapBlocks (sub32 (u32 (superBitmapSectors totalSectors + spb)) 1 / spb)
  let m := m.set sb sInodeTableLba
    (u32 (m.get sb sBitmapStartLba + m.get sb sBitmapBlocks * spb))
  let m := m.set sb sDataStartLba (u32 (m.get sb sInodeTableLba + 256))
  let m := m.set sb sFreeBlocks (m.get sb sTotalBlocks)
  let m := m.set sb sTotalInodes 128
  let m := m.set sb sFreeInodes 128
  let m := m.set sb sState 1
  m.set sb sErrors 0

/-- A super block, field for field. -/
structure SuperBlock where
  /-- `s_magic` -/
  magic : ℕ
  /-- `s_free_blocks` -/
  freeBlocks : ℕ
  /-- `s_block_size` -/
  blockSize : ℕ
  /-- `s_total_blocks` -/
  totalBlocks : ℕ
  /-- `s_free_inodes` -/
  freeInodes : ℕ
  /-- `s_total_inodes` -/
  totalInodes : ℕ
  /-- `s_bitmap_start_lba` -/
  bitmapStartLba : ℕ
  /-- `s_bitmap_blocks` -/
  bitmapBlocks : ℕ
  /-- `s_inode_table_lba` -/
  inodeTableLba : ℕ
  /-- `s_data_start_lba` -/
  dataStartLba : ℕ
  /-- `s_state` -/
  state : ℕ
  /-- `s_errors` -/
  errors : ℕ
deriving DecidableEq, Repr

/-- The super block in memory. -/
def SuperBlock.load (m : ByteMem) (p : ℕ) : SuperBlock where
  magic := m.get p sMagic
  freeBlocks := m.get p sFreeBlocks
  blockSize := m.get p sBlockSize
  totalBlocks := m.get p sTotalBlocks
  freeInodes := m.get p sFreeInodes
  totalInodes := m.get p sTotalInodes
  bitmapStartLba := m.get p sBitmapStartLba
  bitmapBlocks := m.get p sBitmapBlocks
  inodeTableLba := m.get p sInodeTableLba
  dataStartLba := m.get p sDataStartLba
  state := m.get p sState
  errors := m.get p sErrors

/-- The values `create_super` computes for a drive of `totalSectors` sectors. -/
def superBlockFor (totalSectors spb : ℕ) : SuperBlock :=
  let bitmapBlocks := sub32 (u32 (superBitmapSectors totalSectors + spb)) 1 / spb
  { magic := elixirMagic
    freeBlocks := totalSectors / spb
    blockSize := u16 (512 * spb)
    totalBlocks := totalSectors / spb
    freeInodes := 128
    totalInodes := 128
    bitmapStartLba := elixirBitmapStartLba
    bitmapBlocks := bitmapBlocks
    inodeTableLba := u32 (elixirBitmapStartLba + bitmapBlocks * spb)
    dataStartLba := u32 (u32 (elixirBitmapStartLba + bitmapBlocks * spb) + 256)
    state := 1
    errors := 0 }

section Super

variable {m m' : ByteMem} {p q n spb x : ℕ}

theorem sectorsPerBlock_eq_none : sectorsPerBlock n = none ↔ n < 32768 := by
  rw [sectorsPerBlock]
  split_ifs <;> simp_all

/-- The stores stay inside the record. -/
theorem superMem_apply_of_not_mem (hx : x < p ∨ p + 512 ≤ x) : superMem p n spb m x = m x := by
  have hset : ∀ (m : ByteMem) (f : RecordField) (v : ℕ), f.off + f.width ≤ 512 →
      m.set p f v x = m x := fun m f v hf ↦ ByteMem.set_apply_of_not_mem hf hx
  simp (disch := decide) only [superMem, hset]

/-- The record in memory is the one `create_super` computes. -/
theorem load_superMem (hn : n < 2 ^ 32) :
    SuperBlock.load (superMem p n spb m) p = superBlockFor n spb := by
  have hw : ∀ v, u32 v % 256 ^ 4 = u32 v := fun v ↦ Nat.mod_eq_of_lt (u32_lt v)
  have hdiv : n / spb % 256 ^ 4 = n / spb :=
    Nat.mod_eq_of_lt ((Nat.div_le_self n spb).trans_lt hn)
  have hblocks : sub32 (u32 (superBitmapSectors n + spb)) 1 / spb % 256 ^ 4 =
      sub32 (u32 (superBitmapSectors n + spb)) 1 / spb :=
    Nat.mod_eq_of_lt ((Nat.div_le_self _ spb).trans_lt (u32_lt _))
  simp (disch := decide) only [SuperBlock.load, superMem, ByteMem.get_set_self,
    ByteMem.get_set_of_disjoint]
  simp only [show sTotalBlocks.width = 4 from rfl, show sFreeBlocks.width = 4 from rfl,
    show sBitmapBlocks.width = 4 from rfl, show sInodeTableLba.width = 4 from rfl,
    show sDataStartLba.width = 4 from rfl, hw, hdiv, hblocks]
  rfl

/-- The bytes of the record depend on the drive size only, if the rest of it is the same. -/
theorem agreeOn_superMem (h : ByteMem.AgreeOn m p m' q 512) :
    ByteMem.AgreeOn (superMem p n spb m) p (superMem q n spb m') q 512 := by
  have h₀ := ((h.set sMagic (v := elixirMagic) rfl).set sBlockSize (v := 512 * spb) rfl).set
    sTotalBlocks (v := n / spb) rfl
  have h₁ := (h₀.set sBitmapStartLba (v := elixirBitmapStartLba) rfl).set sBitmapBlocks
    (v := sub32 (u32 (superBitmapSectors n + spb)) 1 / spb) rfl
  have h₂ := h₁.set sInodeTableLba (congrArg u32 (congrArg₂ (· + · * spb)
    (ByteMem.get_congr (f := sBitmapStartLba) (by decide) h₁)
    (ByteMem.get_congr (f := sBitmapBlocks) (by decide) h₁)))
  have h₃ := h₂.set sDataStartLba (congrArg (fun v ↦ u32 (v + 256))
    (ByteMem.get_congr (f := sInodeTableLba) (by decide) h₂))
  have h₄ := h₃.set sFreeBlocks (ByteMem.get_congr (f := sTotalBlocks) (by decide) h₃)
  exact (((h₄.set sTotalInodes rfl).set sFreeInodes rfl).set sState rfl).set sErrors rfl

theorem sectorAt_eq_iff : m.sectorAt p = m'.sectorAt q ↔ ByteMem.AgreeOn m p m' q 512 :=
  ⟨fun h i hi ↦ congrFun h ⟨i, hi⟩, fun h ↦ funext fun i ↦ h i i.isLt⟩

/-- The sector `create_super` prepares for a drive of `n` sectors. -/
def superSector (n spb : ℕ) : Sector :=
  (superMem 0 n spb (ByteMem.fill (fun _ ↦ 0) 0 512 0)).sectorAt 0

theorem sectorAt_superMem : (superMem p n spb (m.fill p 512 0)).sectorAt p = superSector n spb :=
  sectorAt_eq_iff.2 (agreeOn_superMem (ByteMem.agreeOn_fill 0))

/-- A sector read back as a super block. -/
theorem SuperBlock.load_congr (h : m.sectorAt p = m'.sectorAt q) :
    SuperBlock.load m p = SuperBlock.load m' q := by
  have hf : ∀ f : RecordField, f.off + f.width ≤ 512 → m.get p f = m'.get q f := fun f hle ↦
    ByteMem.get_congr hle (sectorAt_eq_iff.1 h)
  rw [load, load, hf sMagic (by decide), hf sFreeBlocks (by decide), hf sBlockSize (by decide),
    hf sTotalBlocks (by decide), hf sFreeInodes (by decide), hf sTotalInodes (by decide),
    hf sBitmapStartLba (by decide), hf sBitmapBlocks (by decide), hf sInodeTableLba (by decide),
    hf sDataStartLba (by decide), hf sState (by decide), hf sErrors (by decide)]

/-- The prepared sector holds the computed values. -/
theorem load_of_sectorAt (hn : n < 2 ^ 32) (h : m.sectorAt p = superSector n spb) :
    SuperBlock.load m p = superBlockFor n spb :=
  (SuperBlock.load_congr h).trans (load_superMem hn)

end Super

/-! ### `create_super` -/

section CreateSuper

variable {σ : Type} {w : Kernel σ} {lo hi drive p : ℕ} {cells cells' : List Cell}

/-- **`create_super`**: the request for 512 bytes is turned down, or served; and once it is
served the block stays, whether or not the drive is large enough for a super block. -/
theorem createSuper_spec (hinv : HeapInv lo hi w.heap cells) (hdrive : drive < 4) :
    (allocate sizeofSuperBlock cells = none ∧ createSuper drive w = some (0, w)) ∨
    ∃ p cells' h', allocate sizeofSuperBlock cells = some (p, cells') ∧
      HeapInv lo hi h' cells' ∧ (∀ x, Client lo hi cells x → h'.mem x = w.mem x) ∧
      (sectorsPerBlock (w.driveSize drive) = none ∧
        createSuper drive w = some (0, w.setHeap h') ∨
      ∃ spb, sectorsPerBlock (w.driveSize drive) = some spb ∧
        createSuper drive w = some (p, w.setHeap h') ∧
        h'.mem.sectorAt p = superSector (w.driveSize drive) spb) := by
  rw [createSuper, if_neg (by omega), bind_apply_of_runs get_apply]
  cases halloc : allocate sizeofSuperBlock cells with
  | none =>
    refine Or.inl ⟨rfl, ?_⟩
    rw [bind_apply_of_runs (kmallocK_of_none hinv halloc), if_pos rfl]
    rfl
  | some r =>
    obtain ⟨p, cells'⟩ := r
    right
    obtain ⟨h₁, hcall, hinv₁, hmem₁, -⟩ := kmallocK_of_some hinv halloc
    have hp := hinv.ptr_ne_zero halloc
    have hsize : 512 ≤ requestSize sizeofSuperBlock := by decide
    have hblock : ∀ x, p ≤ x → x < p + 512 → Client lo hi cells' x := fun x ↦
      client_of_allocate_of_le halloc hsize
    have hfresh : ∀ x, Client lo hi cells x → x < p ∨ p + 512 ≤ x := fun x ↦
      outside_of_allocate hinv.tiles halloc hsize
    rw [bind_apply_of_runs hcall, if_neg (by omega), bind_apply_of_runs (memset_apply ..)]
    have hfill : ∀ x, x < p ∨ p + 512 ≤ x → h₁.mem.fill p 512 0 x = h₁.mem x := fun x hx ↦
      ByteMem.blit_apply_of_not_mem hx
    -- the size of the drive is looked at only now, and a drive too small leaves the block allocated
    cases hspb : sectorsPerBlock (w.driveSize drive) with
    | none =>
      refine ⟨p, cells', { h₁ with mem := h₁.mem.fill p 512 0 }, rfl,
        hinv₁.store_range hfill hblock, ?_, Or.inl ⟨rfl, rfl⟩⟩
      intro x hx
      exact (hfill x (hfresh x hx)).trans (hmem₁ x hx)
    | some spb =>
      have hsuper : ∀ x, x < p ∨ p + 512 ≤ x →
          superMem p (w.driveSize drive) spb (h₁.mem.fill p 512 0) x = h₁.mem x := fun x hx ↦
        (superMem_apply_of_not_mem hx).trans (hfill x hx)
      refine ⟨p, cells',
        { h₁ with mem := superMem p (w.driveSize drive) spb (h₁.mem.fill p 512 0) }, rfl,
        hinv₁.store_range hsuper hblock, ?_, Or.inr ⟨spb, rfl, rfl, sectorAt_superMem⟩⟩
      intro x hx
      exact (hsuper x (hfresh x hx)).trans (hmem₁ x hx)

end CreateSuper

/-! ### `create_bitmap` -/

section CreateBitmap

variable {σ : Type} {w : Kernel σ} {lo hi drive n p q : ℕ} {cells cells₁ cells₂ : List Cell}

/-- Two allocations in a row: a `block_bitmap` and its buffer. -/
structure BitmapAllocated (n : ℕ) (cells : List Cell) (p : ℕ) (cells₁ : List Cell) (q : ℕ)
    (cells₂ : List Cell) : Prop where
  /-- The struct. -/
  struct : allocate sizeofBlockBitmap cells = some (p, cells₁)
  /-- The buffer. -/
  buffer : allocate n cells₁ = some (q, cells₂)

/-- The bytes of the struct are the clients' after both allocations. -/
theorem BitmapAllocated.struct_range (hb : BitmapAllocated n cells p cells₁ q cells₂)
    {x : ℕ} (h₁ : p ≤ x) (h₂ : x < p + 16) : Client lo hi cells₁ x ∧ Client lo hi cells₂ x := by
  have hx : Client lo hi cells₁ x := client_of_allocate_of_le hb.struct (by decide) h₁ h₂
  exact ⟨hx, hx.allocate hb.buffer⟩

theorem BitmapAllocated.not_client_struct (hb : BitmapAllocated n cells p cells₁ q cells₂)
    (ht : Tiles lo hi cells) {x : ℕ} (hx : Client lo hi cells x) : x < p ∨ p + 16 ≤ x :=
  outside_of_allocate ht hb.struct (by decide) hx

/-- The buffer takes no byte that was a client's before it. -/
theorem BitmapAllocated.not_client_buffer (hb : BitmapAllocated n cells p cells₁ q cells₂)
    (ht : Tiles lo hi cells₁) {x : ℕ} (hx : Client lo hi cells₁ x) :
    x < q ∨ q + requestSize n ≤ x :=
  outside_of_allocate ht hb.buffer le_rfl hx

/-- One of the two allocations is turned down. -/
def BitmapRefused (n : ℕ) (cells : List Cell) : Prop :=
  allocate sizeofBlockBitmap cells = none ∨
    ∃ p cells₁, allocate sizeofBlockBitmap cells = some (p, cells₁) ∧ allocate n cells₁ = none

/-- A heap that holds a `block_bitmap` at `p` with a buffer of `n` bytes at `q`, allocated in
this order from a heap with the cells `cells`. -/
structure BitmapHeld (lo hi n : ℕ) (cells : List Cell) (p : ℕ) (cells₁ : List Cell) (q : ℕ)
    (cells₂ : List Cell) (h : Heap) : Prop extends BitmapAllocated n cells p cells₁ q cells₂ where
  /-- The cells tiled the region before. -/
  tiles : Tiles lo hi cells
  /-- They were merged. -/
  coalesced : Coalesced cells
  /-- The cells between the two allocations tiled the region. -/
  tiles₁ : Tiles lo hi cells₁
  /-- They were merged. -/
  coalesced₁ : Coalesced cells₁
  /-- Neither pointer is `NULL`. -/
  struct_ne : p ≠ 0
  /-- Neither pointer is `NULL`. -/
  buffer_ne : q ≠ 0
  /-- The heap. -/
  inv : HeapInv lo hi h cells₂
  /-- The struct points to the buffer. -/
  bitmap_eq : h.mem.get p BlockBitmap.bitmap = q

theorem BitmapAllocated.not_refused (hb : BitmapAllocated n cells p cells₁ q cells₂) :
    ¬ BitmapRefused n cells := by
  rintro (hnone | ⟨p', cells', hsome, hnone⟩)
  · rw [hb.struct] at hnone
    simp at hnone
  · obtain ⟨rfl, rfl⟩ := Prod.mk.inj (Option.some.inj (hb.struct.symm.trans hsome))
    rw [hb.buffer] at hnone
    simp at hnone

theorem bitmapRefused_iff :
    BitmapRefused n cells ↔ allocates [sizeofBlockBitmap, n] cells = none := by
  simp only [BitmapRefused, allocates, Option.bind_eq_none_iff, Prod.forall]
  constructor
  · rintro (hnone | ⟨p, cells₁, hsome, hnone⟩) b cells' hb q cells'' hq
    · simp [hnone] at hb
    · obtain ⟨rfl, rfl⟩ := Prod.mk.inj (Option.some.inj (hsome.symm.trans hb))
      simp [hnone] at hq
  · intro h
    cases hsome : allocate sizeofBlockBitmap cells with
    | none => exact Or.inl rfl
    | some r =>
      refine Or.inr ⟨r.1, r.2, rfl, ?_⟩
      cases hbuf : allocate n r.2 with
      | none => rfl
      | some s => exact absurd (h r.1 r.2 hsome s.1 s.2 hbuf) (by simp)

/-- A bitmap that is not turned down has its two blocks. -/
theorem exists_bitmapAllocated (h : ¬ BitmapRefused n cells) :
    ∃ p cells₁ q cells₂, BitmapAllocated n cells p cells₁ q cells₂ := by
  cases hsome : allocate sizeofBlockBitmap cells with
  | none => exact absurd (Or.inl hsome) h
  | some r =>
    cases hbuf : allocate n r.2 with
    | none => exact absurd (Or.inr ⟨r.1, r.2, hsome, hbuf⟩) h
    | some s => exact ⟨r.1, r.2, s.1, s.2, hsome, hbuf⟩

/-- A store to the struct's pointer stays inside the struct. -/
theorem set_bitmap_apply {m : ByteMem} {v x : ℕ} (hx : x < p ∨ p + 16 ≤ x) :
    m.set p BlockBitmap.bitmap v x = m x :=
  ByteMem.set_apply_of_not_mem (by decide) hx

/-- A bitmap one of whose blocks is turned down leaves the heap as it was. -/
theorem allocBitmap_of_refused (hinv : HeapInv lo hi w.heap cells) (h : BitmapRefused n cells) :
    ∃ h', allocBitmap n w = some (0, w.setHeap h') ∧ HeapInv lo hi h' cells ∧
      ∀ x, Client lo hi cells x → h'.mem x = w.mem x := by
  rw [allocBitmap]
  rcases h with hnone | ⟨p, cells₁, halloc, hbuf⟩
  · refine ⟨w.heap, ?_, hinv, fun _ _ ↦ rfl⟩
    rw [bind_apply_of_runs (kmallocK_of_none hinv hnone), if_pos rfl]
    rfl
  · obtain ⟨h₁, hcall₁, hinv₁, hmem₁, -⟩ := kmallocK_of_some hinv halloc
    have hp := hinv.ptr_ne_zero halloc
    -- the null of the refused buffer is stored in the struct before it is tested
    have hinv₂ : HeapInv lo hi { h₁ with mem := h₁.mem.set p BlockBitmap.bitmap 0 } cells₁ :=
      hinv₁.store_range (fun _ ↦ set_bitmap_apply) fun _ ↦
        client_of_allocate_of_le halloc (by decide)
    obtain ⟨h₃, hfree, hinv₃, hmem₃⟩ := kfreeK_of_allocate
      (w := w.setHeap { h₁ with mem := h₁.mem.set p BlockBitmap.bitmap 0 }) hinv₂ hinv.tiles
      hinv.coalesced halloc
    refine ⟨h₃, ?_, hinv₃, ?_⟩
    · have hget : ((w.setHeap h₁).setMem ((w.setHeap h₁).mem.set p BlockBitmap.bitmap 0)).mem.get
          p BlockBitmap.bitmap = 0 := ByteMem.get_set_self.trans (Nat.zero_mod _)
      rw [bind_apply_of_runs hcall₁, if_neg (by omega),
        bind_apply_of_runs (kmallocK_of_none (w := w.setHeap h₁) hinv₁ hbuf),
        bind_apply_of_runs (setField_apply ..), bind_apply_of_runs (getField_apply ..),
        if_pos hget]
      exact bind_apply_of_runs hfree
    · intro x hx
      rw [hmem₃ x (hx.allocate halloc)]
      have hout := outside_of_allocate hinv.tiles halloc (show 16 ≤ _ by decide) hx
      exact (set_bitmap_apply hout).trans (hmem₁ x hx)

/-- A bitmap whose blocks are both served is held afterwards, its buffer cleared. -/
theorem allocBitmap_of_allocated (hinv : HeapInv lo hi w.heap cells)
    (hb : BitmapAllocated n cells p cells₁ q cells₂) :
    ∃ h', allocBitmap n w = some (p, w.setHeap h') ∧
      BitmapHeld lo hi n cells p cells₁ q cells₂ h' ∧
      (∀ x, Client lo hi cells x → h'.mem x = w.mem x) ∧
      ∀ i < requestSize n, h'.mem (q + i) = 0 := by
  obtain ⟨h₁, hcall₁, hinv₁, hmem₁, -⟩ := kmallocK_of_some hinv hb.struct
  obtain ⟨h₂, hcall₂, hinv₂, hmem₂, hzero⟩ :=
    kmallocK_of_some (w := w.setHeap h₁) hinv₁ hb.buffer
  have hp := hinv.ptr_ne_zero hb.struct
  have hq := hinv₁.ptr_ne_zero hb.buffer
  -- the pointer fits its field
  have hq' : q % 256 ^ 4 = q := by
    refine Nat.mod_eq_of_lt ?_
    have := hinv₁.ptr_add_le hb.buffer
    have := hinv₁.stop_le
    have := minAllocSize_le_requestSize n
    omega
  refine ⟨{ h₂ with mem := h₂.mem.set p BlockBitmap.bitmap q }, ?_, ?_, ?_, ?_⟩
  · have hget : ((w.setHeap h₂).setMem ((w.setHeap h₂).mem.set p BlockBitmap.bitmap q)).mem.get
        p BlockBitmap.bitmap = q := ByteMem.get_set_self.trans hq'
    rw [allocBitmap, bind_apply_of_runs hcall₁, if_neg (by omega), bind_apply_of_runs hcall₂,
      setHeap_setHeap, bind_apply_of_runs (setField_apply ..),
      bind_apply_of_runs (getField_apply ..), if_neg (hget.trans_ne (by omega))]
    rfl
  · exact { hb with
      tiles := hinv.tiles
      coalesced := hinv.coalesced
      tiles₁ := hinv₁.tiles
      coalesced₁ := hinv₁.coalesced
      struct_ne := by omega
      buffer_ne := by omega
      inv := hinv₂.store_range (fun _ ↦ set_bitmap_apply) fun x h₃ h₄ ↦ (hb.struct_range h₃ h₄).2
      bitmap_eq := ByteMem.get_set_self.trans hq' }
  · intro x hx
    show h₂.mem.set p BlockBitmap.bitmap q x = w.mem x
    rw [set_bitmap_apply (hb.not_client_struct hinv.tiles hx), hmem₂ x (hx.allocate hb.struct)]
    exact hmem₁ x hx
  · intro i hi'
    refine (set_bitmap_apply ?_).trans (hzero i hi')
    by_contra hin
    have hclient : Client lo hi cells₁ (q + i) := (hb.struct_range (by omega) (by omega)).1
    have := hb.not_client_buffer hinv₁.tiles hclient
    omega

/-- **The allocation of a bitmap**: both blocks, or none. -/
theorem allocBitmap_spec (hinv : HeapInv lo hi w.heap cells) (n : ℕ) :
    (BitmapRefused n cells ∧ ∃ h', allocBitmap n w = some (0, w.setHeap h') ∧
      HeapInv lo hi h' cells ∧ ∀ x, Client lo hi cells x → h'.mem x = w.mem x) ∨
    ∃ p cells₁ q cells₂ h', allocBitmap n w = some (p, w.setHeap h') ∧
      BitmapHeld lo hi n cells p cells₁ q cells₂ h' ∧
      (∀ x, Client lo hi cells x → h'.mem x = w.mem x) ∧
      ∀ i < requestSize n, h'.mem (q + i) = 0 := by
  by_cases hrefused : BitmapRefused n cells
  · exact Or.inl ⟨hrefused, allocBitmap_of_refused hinv hrefused⟩
  · obtain ⟨p, cells₁, q, cells₂, hb⟩ := exists_bitmapAllocated hrefused
    exact Or.inr ⟨p, cells₁, q, cells₂, allocBitmap_of_allocated hinv hb⟩

/-- Stores into the struct, except to its pointer, and into the buffer keep the bitmap held. -/
theorem BitmapHeld.store {h : Heap} (hh : BitmapHeld lo hi n cells p cells₁ q cells₂ h)
    {m : ByteMem}
    (hm : ∀ x, (x < p ∨ p + 12 ≤ x) → (x < q ∨ q + requestSize n ≤ x) → m x = h.mem x) :
    BitmapHeld lo hi n cells p cells₁ q cells₂ { h with mem := m } := by
  have hb := hh.toBitmapAllocated
  have hout : ∀ x, ¬ Client lo hi cells₂ x → m x = h.mem x := by
    refine fun x hx ↦ hm x ?_ ?_
    · by_contra hin
      exact hx (hb.struct_range (by omega) (by omega)).2
    · by_contra hin
      exact hx (client_of_allocate hb.buffer (by omega) (by omega))
  have hptr : m.get p BlockBitmap.bitmap = h.mem.get p BlockBitmap.bitmap := by
    refine ByteMem.loadLE_congr fun i hi' ↦ hm _ (Or.inr ?_) ?_
    · show p + 12 ≤ p + 12 + i
      omega
    · have hi'' : i < 4 := hi'
      refine hb.not_client_buffer hh.tiles₁ (hb.struct_range ?_ ?_).1
      · exact Nat.le_add_right_of_le (Nat.le_add_right _ _)
      · show p + 12 + i < p + 16
        omega
  exact { hh with inv := hh.inv.client hout, bitmap_eq := hptr.trans hh.bitmap_eq }

/-- So do stores into bytes that were the clients' before the bitmap was allocated. -/
theorem BitmapHeld.store_client {h : Heap} (hh : BitmapHeld lo hi n cells p cells₁ q cells₂ h)
    {m : ByteMem} (hm : ∀ x, ¬ Client lo hi cells x → m x = h.mem x) :
    BitmapHeld lo hi n cells p cells₁ q cells₂ { h with mem := m } := by
  have hb := hh.toBitmapAllocated
  have hptr : m.get p BlockBitmap.bitmap = h.mem.get p BlockBitmap.bitmap := by
    refine ByteMem.loadLE_congr fun i hi' ↦ hm _ ?_
    intro hx
    have hi'' : i < 4 := hi'
    have hx' := hb.not_client_struct hh.tiles hx
    change p + 12 + i < p ∨ p + 16 ≤ p + 12 + i at hx'
    omega
  refine { hh with inv := hh.inv.client fun x hx ↦ hm x fun hx' ↦ hx ?_
                   bitmap_eq := hptr.trans hh.bitmap_eq }
  exact (hx'.allocate hb.struct).allocate hb.buffer

/-- **Freeing a bitmap** gives back both blocks. -/
theorem freeBitmap_spec (hh : BitmapHeld lo hi n cells p cells₁ q cells₂ w.heap) :
    ∃ h', freeBitmap p w = some ((), w.setHeap h') ∧ HeapInv lo hi h' cells ∧
      ∀ x, Client lo hi cells x → h'.mem x = w.mem x := by
  obtain ⟨h₁, hfree₁, hinv₁, hmem₁⟩ := kfreeK_of_allocate hh.inv hh.tiles₁ hh.coalesced₁ hh.buffer
  obtain ⟨h₂, hfree₂, hinv₂, hmem₂⟩ := kfreeK_of_allocate (w := w.setHeap h₁) hinv₁ hh.tiles
    hh.coalesced hh.struct
  refine ⟨h₂, ?_, hinv₂, ?_⟩
  · rw [freeBitmap, bind_apply_of_runs (getField_apply ..),
      show w.mem.get p BlockBitmap.bitmap = q from hh.bitmap_eq, bind_apply_of_runs hfree₁]
    exact hfree₂
  · intro x hx
    rw [hmem₂ x (hx.allocate hh.struct)]
    exact hmem₁ x ((hx.allocate hh.struct).allocate hh.buffer)

theorem bitmapBytes_le (size : ℕ) : bitmapBytes size ≤ 2 ^ 29 := by
  rw [bitmapBytes, u32]
  omega

theorem bitmapBytes_le_requestSize (size : ℕ) :
    bitmapBytes size ≤ requestSize (bitmapBytes size) :=
  le_requestSize ((bitmapBytes_le size).trans (by decide))

/-- Memory once the counters of the bitmap at `p` are set, the count of used sectors to 0. -/
def countersMem (p size free : ℕ) (m : ByteMem) : ByteMem :=
  ((m.set p BlockBitmap.total size).set p BlockBitmap.freeCount free).set p
    BlockBitmap.usedCount 0

section Counters

variable {m : ByteMem} {size free x : ℕ}

theorem countersMem_apply_of_not_mem (hx : x < p ∨ p + 12 ≤ x) :
    countersMem p size free m x = m x := by
  rw [countersMem, ByteMem.set_apply_of_not_mem (n := 12) (by decide) hx,
    ByteMem.set_apply_of_not_mem (n := 12) (by decide) hx,
    ByteMem.set_apply_of_not_mem (n := 12) (by decide) hx]

theorem total_countersMem (hsize : size < 2 ^ 32) :
    (countersMem p size free m).get p BlockBitmap.total = size := by
  rw [countersMem, ByteMem.get_set_of_disjoint (by decide), ByteMem.get_set_of_disjoint (by decide),
    ByteMem.get_set_self]
  exact Nat.mod_eq_of_lt hsize

theorem freeCount_countersMem (hfree : free < 2 ^ 32) :
    (countersMem p size free m).get p BlockBitmap.freeCount = free := by
  rw [countersMem, ByteMem.get_set_of_disjoint (by decide), ByteMem.get_set_self]
  exact Nat.mod_eq_of_lt hfree

theorem usedCount_countersMem : (countersMem p size free m).get p BlockBitmap.usedCount = 0 := by
  rw [countersMem, ByteMem.get_set_self, Nat.zero_mod]

theorem bitmap_countersMem : (countersMem p size free m).get p BlockBitmap.bitmap =
    m.get p BlockBitmap.bitmap := by
  rw [countersMem, ByteMem.get_set_of_disjoint (by decide),
    ByteMem.get_set_of_disjoint (by decide), ByteMem.get_set_of_disjoint (by decide)]

end Counters

/-- **`create_bitmap`**: nothing, or a struct for the drive with a cleared buffer. -/
theorem createBitmap_spec (hinv : HeapInv lo hi w.heap cells) (hdrive : drive < 4) :
    ((w.driveSize drive = 0 ∨ BitmapRefused (bitmapBytes (w.driveSize drive)) cells) ∧
      ∃ h', createBitmap drive w = some (0, w.setHeap h') ∧
        HeapInv lo hi h' cells ∧ ∀ x, Client lo hi cells x → h'.mem x = w.mem x) ∨
    ∃ p cells₁ q cells₂ h', createBitmap drive w = some (p, w.setHeap h') ∧
      BitmapHeld lo hi (bitmapBytes (w.driveSize drive)) cells p cells₁ q cells₂ h' ∧
      (∀ x, Client lo hi cells x → h'.mem x = w.mem x) ∧
      h'.mem.get p BlockBitmap.total = w.driveSize drive ∧
      ∀ i < requestSize (bitmapBytes (w.driveSize drive)), h'.mem (q + i) = 0 := by
  rw [createBitmap, if_neg (by omega), bind_apply_of_runs get_apply]
  rcases eq_or_ne (w.driveSize drive) 0 with hzero | hzero
  · rw [if_pos hzero]
    exact Or.inl ⟨Or.inl hzero, w.heap, rfl, hinv, fun _ _ ↦ rfl⟩
  rw [if_neg hzero]
  have hreq := bitmapBytes_le_requestSize (w.driveSize drive)
  rcases allocBitmap_spec hinv (bitmapBytes (w.driveSize drive)) with
    ⟨hrefused, h₁, hcall, hinv₁, hmem₁⟩ | ⟨p, cells₁, q, cells₂, h₁, hcall, hh, hmem₁, hclear⟩
  · refine Or.inl ⟨Or.inr hrefused, h₁, ?_, hinv₁, hmem₁⟩
    rw [bind_apply_of_runs hcall, if_pos rfl]
    rfl
  · right
    generalize hn : bitmapBytes (w.driveSize drive) = n at *
    have hb := hh.toBitmapAllocated
    have hstruct : ∀ x, p ≤ x → x < p + 16 → x < q ∨ q + requestSize n ≤ x := fun x h₂ h₃ ↦
      hb.not_client_buffer hh.tiles₁ (hb.struct_range h₂ h₃).1
    -- the buffer is cleared once more, then the counters are set
    refine ⟨p, cells₁, q, cells₂,
      { h₁ with mem := countersMem p (w.driveSize drive) (w.driveSize drive) (h₁.mem.fill q n 0) },
      ?_, hh.store ?_, ?_, total_countersMem (w.driveSize_lt drive), ?_⟩
    · rw [bind_apply_of_runs hcall, if_neg hh.struct_ne, bind_apply_of_runs (getField_apply ..),
        show (w.setHeap h₁).mem.get p BlockBitmap.bitmap = q from hh.bitmap_eq,
        bind_apply_of_runs (memset_apply ..)]
      rfl
    · intro x h₂ h₃
      rw [countersMem_apply_of_not_mem h₂]
      exact ByteMem.blit_apply_of_not_mem (by omega)
    · intro x hx
      have hp := hb.not_client_struct hinv.tiles hx
      have hq := hb.not_client_buffer hh.tiles₁ (hx.allocate hb.struct)
      show countersMem p (w.driveSize drive) (w.driveSize drive) (h₁.mem.fill q n 0) x = w.mem x
      rw [countersMem_apply_of_not_mem (by omega), ← hmem₁ x hx]
      exact ByteMem.blit_apply_of_not_mem (by omega)
    · intro i hi'
      have hq : q + i < p ∨ p + 12 ≤ q + i := by
        by_contra hin
        have := hstruct (q + i) (by omega) (by omega)
        omega
      show countersMem p (w.driveSize drive) (w.driveSize drive) (h₁.mem.fill q n 0) (q + i) = 0
      rw [countersMem_apply_of_not_mem hq]
      rcases Nat.lt_or_ge i n with hlt | hge
      · exact ByteMem.blit_apply_add hlt
      · exact (ByteMem.blit_apply_of_not_mem (by omega)).trans (hclear i hi')

end CreateBitmap

/-! ### `create_file` -/

section CreateFile

variable {σ : Type} {w : Kernel σ} {lo hi drive : ℕ} {cells : List Cell}

/-- **`create_file`**: nothing, or one block. -/
theorem createFile_spec (hinv : HeapInv lo hi w.heap cells) (hdrive : drive < 4) :
    (allocate sizeofIndex cells = none ∧ createFile drive w = some (0, w)) ∨
    ∃ p cells' h', allocate sizeofIndex cells = some (p, cells') ∧
      createFile drive w = some (p, w.setHeap h') ∧ HeapInv lo hi h' cells' := by
  rw [createFile, if_neg (by omega)]
  cases halloc : allocate sizeofIndex cells with
  | none =>
    refine Or.inl ⟨rfl, ?_⟩
    rw [bind_apply_of_runs (kmallocK_of_none hinv halloc), if_pos rfl]
    rfl
  | some r =>
    obtain ⟨p, cells'⟩ := r
    right
    obtain ⟨h₁, hcall, hinv₁, -, -⟩ := kmallocK_of_some hinv halloc
    have hp := hinv.ptr_ne_zero halloc
    have hblock : ∀ x, p ≤ x → x < p + 514 → Client lo hi cells' x := fun x ↦
      client_of_allocate_of_le halloc (by decide)
    refine ⟨p, cells', { h₁ with mem := ((((h₁.mem.fill p 514 0).set p Index.type 1).set p
      Index.size 0).set p Index.firstBlock 0).set p Index.timeStamp 0 }, rfl, ?_,
      hinv₁.store_range ?_ hblock⟩
    · rw [bind_apply_of_runs hcall, if_neg (by omega), bind_apply_of_runs (memset_apply ..)]
      rfl
    · intro x hx
      rw [ByteMem.set_apply_of_not_mem (by decide) hx, ByteMem.set_apply_of_not_mem (by decide) hx,
        ByteMem.set_apply_of_not_mem (by decide) hx, ByteMem.set_apply_of_not_mem (by decide) hx]
      exact ByteMem.blit_apply_of_not_mem hx

end CreateFile
