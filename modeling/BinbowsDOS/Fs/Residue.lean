import BinbowsDOS.Fs.FormatMount
import BinbowsDOS.Heap.Clients

/-!
# What a format leaves of the past

Two formats of drives of one size need not leave the same metadata. The padding behind the
bitmap and the inode table are never written, so they hold what the disk held before; and the
last sector of the bitmap is written from behind the end of its buffer, so it carries whatever
memory follows the block that `kmalloc` returned. Everything else depends on the size only:
`metadataEqual_iff` says that these two are all there is.
-/

open Arena Prog Kernel

/-- The metadata areas of two media formatted for `n` sectors hold the same bytes. -/
def MetadataEqual (n spb : ℕ) (s₁ s₂ : ℕ → Sector) : Prop :=
  ∀ lba, 1 ≤ lba → lba < (superBlockFor n spb).dataStartLba → s₁ lba = s₂ lba

/-- The three requests of a format for a bitmap of `n` bytes: the bitmap's buffer and the heap
after it. -/
def formatBuffer (n : ℕ) (h : Heap) : Option (ℕ × Heap) := do
  let (_, h) ← kmalloc sizeofSuperBlock h
  let (_, h) ← kmalloc sizeofBlockBitmap h
  kmalloc n h

/-- **The same past**, for drives of `n` sectors with the media `s₁` and `s₂` and the heaps `h₁`
and `h₂`: the media agree between the bitmap and the data area, and the heaps agree behind the
place of the bitmap's buffer, up to the end of its last sector. -/
structure SamePast (n spb : ℕ) (s₁ s₂ : ℕ → Sector) (h₁ h₂ : Heap) : Prop where
  /-- The sectors that are not written. -/
  disk : ∀ lba, elixirBitmapStartLba + bitmapSectors n ≤ lba →
    lba < (superBlockFor n spb).dataStartLba → s₁ lba = s₂ lba
  /-- The bytes behind the buffer. -/
  memory : ∀ q₁ k₁ q₂ k₂, formatBuffer (bitmapBytes n) h₁ = some (q₁, k₁) →
    formatBuffer (bitmapBytes n) h₂ = some (q₂, k₂) →
    ∀ i, bitmapBytes n ≤ i → i < 512 * bitmapSectors n →
      elixirBitmapStartLba + i / 512 < (superBlockFor n spb).dataStartLba →
      k₁.mem (q₁ + i) = k₂.mem (q₂ + i)

/-! ### The memory behind the buffer -/

section Behind

variable {w w₁ w₂ w₃ : Kernel AtaBus} {lo hi drive n spb p b q : ℕ}
  {cells cells' cells₁ cells₂ : List Cell}

/-- `create_super` stores into its block only. -/
theorem SuperMade.exists_kmalloc (hinv : HeapInv lo hi w.heap cells)
    (hs : SuperMade lo hi drive cells w spb p cells' w₁) :
    ∃ h, kmalloc sizeofSuperBlock w.heap = some (p, h) ∧ HeapInv lo hi h cells' ∧
      ∀ x, x < p ∨ p + 512 ≤ x → w₁.mem x = h.mem x := by
  obtain ⟨h, hcall, hinv', -⟩ := hinv.kmalloc_of_some hs.alloc
  have hp := hinv.ptr_ne_zero hs.alloc
  have hdrive := hs.drive_lt
  have hcallK : kmallocK sizeofSuperBlock w = some (p, w.setHeap h) := by
    rw [kmallocK, hcall]
    rfl
  have hrun : createSuper drive w = some (p, (w.setHeap h).setMem
      (superMem p (w.driveSize drive) spb (h.mem.fill p 512 0))) := by
    rw [createSuper, if_neg (by omega), bind_apply_of_runs get_apply, bind_apply_of_runs hcallK,
      if_neg (by omega), bind_apply_of_runs (memset_apply ..), hs.spb_eq]
    rfl
  obtain ⟨-, rfl⟩ := Runs.unique hs.run hrun
  refine ⟨h, hcall, hinv', ?_⟩
  intro x hx
  exact (superMem_apply_of_not_mem hx).trans (ByteMem.blit_apply_of_not_mem hx)

/-- `create_bitmap` stores into its struct and its buffer only. -/
theorem BitmapMade.exists_kmalloc (hinv : HeapInv lo hi w.heap cells) (hdrive : drive < 4)
    (hb : BitmapMade lo hi drive cells w b cells₁ q cells₂ w₃) :
    ∃ h k, kmalloc sizeofBlockBitmap w.heap = some (b, h) ∧ HeapInv lo hi h cells₁ ∧
      kmalloc (bitmapBytes (w.driveSize drive)) h = some (q, k) ∧
      ∀ x, x < b ∨ b + 16 ≤ x → x < q ∨ q + bitmapBytes (w.driveSize drive) ≤ x →
        w₃.mem x = k.mem x := by
  obtain ⟨h, hcall, hinv₁, -⟩ := hinv.kmalloc_of_some hb.held.struct
  obtain ⟨k, hcall', -⟩ := hinv₁.kmalloc_of_some hb.held.buffer
  have hbytes : bitmapBytes (w.driveSize drive) ≠ 0 := (allocate_eq_some.1 hb.held.buffer).1
  have hsize : w.driveSize drive ≠ 0 := fun hzero ↦ hbytes (by rw [hzero]; decide)
  have hcallK : kmallocK sizeofBlockBitmap w = some (b, w.setHeap h) := by
    rw [kmallocK, hcall]
    rfl
  have hcallK' : kmallocK (bitmapBytes (w.driveSize drive)) (w.setHeap h) =
      some (q, w.setHeap k) := by
    rw [kmallocK, heap_setHeap, hcall']
    rfl
  have hq : q % 256 ^ 4 = q := Nat.mod_eq_of_lt (hinv₁.ptr_lt hb.held.buffer)
  have hget : ((w.setHeap k).setMem ((w.setHeap k).mem.set b BlockBitmap.bitmap q)).mem.get b
      BlockBitmap.bitmap = q := ByteMem.get_set_self.trans hq
  have halloc : allocBitmap (bitmapBytes (w.driveSize drive)) w =
      some (b, (w.setHeap k).setMem (k.mem.set b BlockBitmap.bitmap q)) := by
    rw [allocBitmap, bind_apply_of_runs hcallK, if_neg hb.held.struct_ne,
      bind_apply_of_runs hcallK', bind_apply_of_runs (setField_apply ..),
      bind_apply_of_runs (getField_apply ..), if_neg (hget.trans_ne hb.held.buffer_ne)]
    rfl
  have hrun : createBitmap drive w = some (b, (w.setHeap k).setMem
      (countersMem b (w.driveSize drive) (w.driveSize drive)
        ((k.mem.set b BlockBitmap.bitmap q).fill q (bitmapBytes (w.driveSize drive)) 0))) := by
    rw [createBitmap, if_neg (by omega), bind_apply_of_runs get_apply, if_neg hsize,
      bind_apply_of_runs halloc, if_neg hb.held.struct_ne, bind_apply_of_runs (getField_apply ..),
      show ((w.setHeap k).setMem (k.mem.set b BlockBitmap.bitmap q)).mem.get b BlockBitmap.bitmap =
        q from hget, bind_apply_of_runs (memset_apply ..)]
    rfl
  -- this is the run that was assumed
  obtain ⟨-, rfl⟩ := Runs.unique hb.run hrun
  refine ⟨h, k, hcall, hinv₁, hcall', ?_⟩
  intro x hx hx'
  rw [mem_setMem, countersMem_apply_of_not_mem (by omega), ByteMem.fill,
    ByteMem.blit_apply_of_not_mem hx', ByteMem.set_apply_of_not_mem (n := 16) (by decide) hx]

/-- The bitmap's buffer comes to lie above the other two blocks. -/
theorem BitmapAllocated.above (ht : Tiles lo hi cells)
    (halloc : allocate sizeofSuperBlock cells = some (p, cells')) (ht' : Tiles lo hi cells')
    (hb : BitmapAllocated n cells' b cells₁ q cells₂) (ht₁ : Tiles lo hi cells₁)
    (hn : 512 ≤ requestSize n) : p + 512 ≤ q ∧ b + 16 ≤ q := by
  have hsuper : requestSize sizeofSuperBlock = 512 := by decide
  have hstruct : requestSize sizeofBlockBitmap = 16 := by decide
  -- the buffer is outside any block handed out before it
  have hout : ∀ {r m}, r ≤ q → (∀ x, r ≤ x → x < r + m → Client lo hi cells₁ x) → r + m ≤ q := by
    intro r m hle hclient
    by_contra hlt
    exact not_client_of_allocate ht₁ hb.buffer le_rfl (by omega) (hclient q hle (by omega))
  constructor
  · refine hout (((shortBelow_of_allocate ht halloc).after_allocate hb.struct).le_of_allocate
      (hsuper ▸ hn) hb.buffer) ?_
    intro x h₁ h₂
    exact (client_of_allocate_of_le halloc hsuper.ge h₁ h₂).allocate hb.struct
  · refine hout ((shortBelow_of_allocate ht' hb.struct).le_of_allocate
      (hstruct ▸ le_trans (by decide) hn) hb.buffer) ?_
    intro x h₁ h₂
    exact client_of_allocate_of_le hb.struct hstruct.ge h₁ h₂

/-- The bytes behind the buffer, when the bitmap is written, are those that the three requests
alone leave there. -/
theorem exists_formatBuffer (hinv : HeapInv lo hi w.heap cells)
    (hs : SuperMade lo hi drive cells w spb p cells' w₁) (hw₂ : ∃ b', w₂ = w₁.setIo b')
    (hb : BitmapMade lo hi drive cells' w₂ b cells₁ q cells₂ w₃) :
    ∃ k, formatBuffer (bitmapBytes (w.driveSize drive)) w.heap = some (q, k) ∧
      ∀ i, bitmapBytes (w.driveSize drive) ≤ i → w₃.mem (q + i) = k.mem (q + i) := by
  obtain ⟨b', rfl⟩ := hw₂
  have hsize : (w₁.setIo b').driveSize drive = w.driveSize drive :=
    driveSize_eq hs.ideDevices_eq drive
  have hheld := hsize ▸ hb.held
  have hba := hheld.toBitmapAllocated
  obtain ⟨h₁, hcall₁, hinv₁, hmem₁⟩ := hs.exists_kmalloc hinv
  obtain ⟨h₂, h₃, hcall₂, hinv₂, hcall₃, hmem₃⟩ := BitmapMade.exists_kmalloc
    (w := w₁.setIo b') hs.inv hs.drive_lt hb
  obtain ⟨k₂, hcall₂', hkinv₂, -⟩ := hinv₁.kmalloc_of_some hba.struct
  obtain ⟨k₃, hcall₃', -⟩ := hkinv₂.kmalloc_of_some hba.buffer
  rw [hsize] at hcall₃ hmem₃
  -- the heaps differ in the super block at most, before and after each request
  have hblock : ∀ x, ¬ Client lo hi cells' x → x < p ∨ p + 512 ≤ x := by
    intro x hx
    by_contra hin
    exact hx (client_of_allocate_of_le hs.alloc (show 512 ≤ _ by decide) (by omega) (by omega))
  have heq₁ : Set.EqOn w₁.heap.mem h₁.mem {x | x < p ∨ p + 512 ≤ x} := fun x hx ↦ hmem₁ x hx
  have heq₂ := hs.inv.kmalloc_eqOn hinv₁ heq₁ hblock hba.struct hcall₂ hcall₂'
  have heq₃ := hinv₂.kmalloc_eqOn hkinv₂ heq₂
    (fun x hx ↦ hblock x fun hx' ↦ hx (hx'.allocate hba.struct)) hba.buffer hcall₃ hcall₃'
  refine ⟨k₃, ?_, ?_⟩
  · simp only [formatBuffer, hcall₁, hcall₂', hcall₃', Option.bind_eq_bind, Option.bind_some]
  · intro i hi'
    have hle := sectorsPerBlock_bounds hs.spb_eq
    have hbytes := bitmapBytes_eq (w.driveSize_lt drive) (allocate_eq_some.1 hba.buffer).1
    have hreq := le_requestSize (n := bitmapBytes (w.driveSize drive)) (by
      have := bitmapBytes_le (w.driveSize drive)
      omega)
    obtain ⟨hp, hb'⟩ := hba.above hinv.tiles hs.alloc hheld.tiles hheld.tiles₁ (by omega)
    rw [hmem₃ _ (by omega) (by omega)]
    exact heq₃ (Or.inr (by omega))

end Behind

/-! ### Two formats -/

section TwoFormats

variable {w v w' v' : Kernel AtaBus} {drive drive' c d c' d' fuel fuel' lo hi lo' hi' spb spb' : ℕ}
  {q q' n : ℕ} {m m' : ByteMem} {cells cells' : List Cell}

/-- Two bitmap sectors are equal if the bytes behind the buffer are. -/
theorem Formatted.bitmap_eq_iff (hfmt : Formatted lo hi drive c d cells w spb q m w')
    (hfmt' : Formatted lo' hi' drive' c' d' cells' v spb' q' m' v')
    (hsize : v.driveSize drive' = w.driveSize drive) {j : ℕ} :
    m.sectorAt (q + 512 * j) = m'.sectorAt (q' + 512 * j) ↔
      ∀ i, bitmapBytes (w.driveSize drive) ≤ i → i / 512 = j → m (q + i) = m' (q' + i) := by
  rw [sectorAt_eq_iff]
  constructor
  · intro h i _ hij
    have := h (i % 512) (Nat.mod_lt _ (by decide))
    rwa [Nat.add_assoc, Nat.add_assoc, show 512 * j + i % 512 = i by omega] at this
  · intro h i hi'
    rw [Nat.add_assoc, Nat.add_assoc]
    rcases Nat.lt_or_ge (512 * j + i) (bitmapBytes (w.driveSize drive)) with hin | hout
    · rw [hfmt.zero _ hin, hfmt'.zero _ (hsize ▸ hin)]
    · exact h _ hout (by omega)

/-- What two formats have in common. -/
theorem Formatted.metadataEqual_iff_stray (hfmt : Formatted lo hi drive c d cells w spb q m w')
    (hfmt' : Formatted lo' hi' drive' c' d' cells' v spb q' m' v')
    (hw : w.driveSize drive = n) (hv : v.driveSize drive' = n) :
    MetadataEqual n spb (w'.io.unit c d).sectors (v'.io.unit c' d').sectors ↔
      (∀ lba, elixirBitmapStartLba + bitmapSectors n ≤ lba →
        lba < (superBlockFor n spb).dataStartLba →
        (w.io.unit c d).sectors lba = (v.io.unit c' d').sectors lba) ∧
      ∀ i, bitmapBytes n ≤ i → i < 512 * bitmapSectors n →
        elixirBitmapStartLba + i / 512 < (superBlockFor n spb).dataStartLba →
        m (q + i) = m' (q' + i) := by
  have hbitmap : ∀ j, m.sectorAt (q + 512 * j) = m'.sectorAt (q' + 512 * j) ↔
      ∀ i, bitmapBytes n ≤ i → i / 512 = j → m (q + i) = m' (q' + i) := by
    intro j
    rw [← hw]
    exact hfmt.bitmap_eq_iff hfmt' (hv.trans hw.symm)
  have hstart : elixirBitmapStartLba = 2 := rfl
  rw [MetadataEqual, hfmt.sectors_eq, hfmt'.sectors_eq, hw, hv]
  constructor
  · intro h
    constructor
    · intro lba h₁ h₂
      have hlba := h lba (by omega) h₂
      rwa [formatSectors_behind h₁, formatSectors_behind h₁] at hlba
    · intro i h₁ h₂ h₃
      have hlba := h _ (by omega) h₃
      rw [formatSectors_bitmap (by omega), formatSectors_bitmap (by omega)] at hlba
      exact (hbitmap _).1 hlba i h₁ rfl
  -- super block, bitmap, and the sectors behind it
  · rintro ⟨hdisk, hmem⟩ lba h₁ h₂
    rcases h₁.eq_or_lt with rfl | h₁
    · exact formatSectors_super.trans formatSectors_super.symm
    · obtain ⟨j, rfl⟩ : ∃ j, lba = elixirBitmapStartLba + j := Nat.exists_eq_add_of_le (by omega)
      rcases Nat.lt_or_ge j (bitmapSectors n) with hin | hout
      · rw [formatSectors_bitmap hin, formatSectors_bitmap hin]
        exact (hbitmap j).2 fun i hi₁ hi₂ ↦ hmem i hi₁ (by omega) (by rw [hi₂]; exact h₂)
      · rw [formatSectors_behind (by omega), formatSectors_behind (by omega)]
        exact hdisk _ (by omega) h₂

/-- A format of the drive at position `d` of channel `c` that succeeds without faults, from a heap
that some run of the allocator leads to. -/
structure FormatRun (fuel drive c d : ℕ) (w w' : Kernel AtaBus) : Prop where
  /-- The heap. -/
  reach : ∃ base size mem, 0x100000 ≤ base ∧ base + size ≤ 2 ^ 32 ∧ RegionAccepted base size ∧
    HeapReach base size mem w.heap
  /-- The drive. -/
  attached : Attached w drive c d
  /-- The device. -/
  faultFree : w.io.FaultFree fuel
  /-- The call. -/
  run : Runs (elixirFormat fuel drive) w 0 w'

theorem FormatRun.formatted (h : FormatRun fuel drive c d w w') :
    ∃ lo hi cells spb q k m, Formatted lo hi drive c d cells w spb q m w' ∧
      formatBuffer (bitmapBytes (w.driveSize drive)) w.heap = some (q, k) ∧
      ∀ i, bitmapBytes (w.driveSize drive) ≤ i → m (q + i) = k.mem (q + i) := by
  obtain ⟨base, size, mem, hbase, hend, hacc, hreach⟩ := h.reach
  obtain ⟨⟨cells, hinv⟩, -⟩ := hreach.exists_inv hbase hend hacc
  obtain ⟨spb, p, cells', w₁, w₂, b, cells₁, q, cells₂, w₃, hs, hw₂, hb, hfmt⟩ :=
    (elixirFormat_runs hinv h.run).formatted rfl h.attached h.faultFree
  obtain ⟨k, hbuffer, hmem⟩ := exists_formatBuffer hinv hs hw₂ hb
  exact ⟨_, _, cells, spb, q, k, w₃.mem, hfmt, hbuffer, hmem⟩

/-- **What a format does not erase.** -/
theorem metadataEqual_iff (h : FormatRun fuel drive c d w w')
    (h' : FormatRun fuel' drive' c' d' v v') (hw : w.driveSize drive = n)
    (hv : v.driveSize drive' = n) (hspb : sectorsPerBlock n = some spb) :
    MetadataEqual n spb (w'.io.unit c d).sectors (v'.io.unit c' d').sectors ↔
      SamePast n spb (w.io.unit c d).sectors (v.io.unit c' d').sectors w.heap v.heap := by
  obtain ⟨_, _, _, spb₁, q, k, m, hfmt, hbuffer, hmem⟩ := h.formatted
  obtain ⟨_, _, _, spb₂, q', k', m', hfmt', hbuffer', hmem'⟩ := h'.formatted
  have hspb₁ := hfmt.spb_eq
  have hspb₂ := hfmt'.spb_eq
  rw [hw] at hspb₁ hbuffer hmem
  rw [hv] at hspb₂ hbuffer' hmem'
  obtain rfl := Option.some.inj (hspb₁.symm.trans hspb)
  obtain rfl := Option.some.inj (hspb₂.symm.trans hspb)
  rw [hfmt.metadataEqual_iff_stray hfmt' hw hv]
  constructor
  · rintro ⟨hdisk, hmemory⟩
    refine ⟨hdisk, ?_⟩
    intro q₁ k₁ q₂ k₂ h₁ h₂ i hi₁ hi₂ hi₃
    obtain ⟨rfl, rfl⟩ := Prod.mk.inj (Option.some.inj (hbuffer.symm.trans h₁))
    obtain ⟨rfl, rfl⟩ := Prod.mk.inj (Option.some.inj (hbuffer'.symm.trans h₂))
    rw [← hmem i hi₁, ← hmem' i hi₁]
    exact hmemory i hi₁ hi₂ hi₃
  · intro hpast
    refine ⟨hpast.disk, ?_⟩
    intro i hi₁ hi₂ hi₃
    rw [hmem i hi₁, hmem' i hi₁]
    exact hpast.memory q k q' k' hbuffer hbuffer' i hi₁ hi₂ hi₃

end TwoFormats

/-! ### Two disks -/

/-- A kernel with a fresh heap and disks of 32768 sectors that are blank except for the sector
`lba`. -/
def Kernel.stained (lba : ℕ) : Kernel AtaBus :=
  (Kernel.blank (Heap.fresh 0x10000) 32768).setIo
    { AtaBus.blank fun _ ↦ 0 with
      chan := fun _ ↦ ⟨0, 0, 0, 0, 0, fun _ ↦
        { AtaUnit.blank fun _ ↦ 0 with sectors := Function.update (fun _ _ ↦ 0) lba fun _ ↦ 1 }⟩ }

section Stained

theorem Kernel.stained_format (lba : ℕ) : ∃ w', FormatRun 1 0 0 0 (Kernel.stained lba) w' := by
  have ha : Attached (Kernel.stained lba) 0 0 0 :=
    (Kernel.attached_blank (Heap.fresh 0x10000) 32768 (by decide)).of_unit rfl rfl rfl rfl
  have hf : (Kernel.stained lba).io.FaultFree 1 := ⟨fun _ ↦ Nat.one_pos, fun _ ↦ rfl⟩
  obtain ⟨w', hformat⟩ := exists_format_fresh (w := Kernel.stained lba) rfl rfl ha hf
  exact ⟨w', ⟨0x100000, 0x10000, _, by decide, by decide, by decide, Heap.fresh_reach _⟩, ha, hf,
    hformat⟩

theorem Kernel.stained_sectors (lba : ℕ) : ((Kernel.stained lba).io.unit 0 0).sectors =
    Function.update (fun _ _ ↦ 0) lba fun _ ↦ 1 := rfl

/-- A stain in the data area leaves the metadata as it is. -/
theorem metadataEqual_stained :
    ∃ w' v', FormatRun 1 0 0 0 (Kernel.stained 20000) w' ∧
      FormatRun 1 0 0 0 (Kernel.stained 30000) v' ∧
      MetadataEqual 32768 2 (w'.io.unit 0 0).sectors (v'.io.unit 0 0).sectors := by
  obtain ⟨w', hw⟩ := Kernel.stained_format 20000
  obtain ⟨v', hv⟩ := Kernel.stained_format 30000
  refine ⟨w', v', hw, hv, (metadataEqual_iff (n := 32768) hw hv rfl rfl (by decide)).2
    ⟨fun lba _ hlba ↦ ?_, fun q₁ k₁ q₂ k₂ h₁ h₂ i _ _ _ ↦ ?_⟩⟩
  · have hstart : (superBlockFor 32768 2).dataStartLba = 266 := by decide
    rw [Kernel.stained_sectors, Kernel.stained_sectors, Function.update_of_ne (by omega),
      Function.update_of_ne (by omega)]
  · obtain ⟨rfl, rfl⟩ := Prod.mk.inj (Option.some.inj (h₁.symm.trans h₂))
    rfl

/-- A stain in the inode table survives the format. -/
theorem not_metadataEqual_stained :
    ∃ w' v', FormatRun 1 0 0 0 (Kernel.stained 100) w' ∧
      FormatRun 1 0 0 0 (Kernel.stained 30000) v' ∧
      ¬ MetadataEqual 32768 2 (w'.io.unit 0 0).sectors (v'.io.unit 0 0).sectors := by
  obtain ⟨w', hw⟩ := Kernel.stained_format 100
  obtain ⟨v', hv⟩ := Kernel.stained_format 30000
  refine ⟨w', v', hw, hv, ?_⟩
  intro hequal
  obtain ⟨_, _, _, spb₁, _, _, _, hfmt, -⟩ := hw.formatted
  obtain ⟨_, _, _, spb₂, _, _, _, hfmt', -⟩ := hv.formatted
  obtain rfl : 2 = spb₁ := Option.some.inj hfmt.spb_eq
  obtain rfl : 2 = spb₂ := Option.some.inj hfmt'.spb_eq
  have hstray := ((hfmt.metadataEqual_iff_stray hfmt' rfl rfl).1 hequal).1
  have hsector := hstray 100 (by decide) (by decide)
  rw [Kernel.stained_sectors, Kernel.stained_sectors, Function.update_self,
    Function.update_of_ne (by decide)] at hsector
  exact absurd (congrFun hsector 0) (by decide)

end Stained
