import BinbowsDOS.Fs.Attached
import BinbowsDOS.Fs.Ledger

/-!
# A bitmap written and read back

`elixir_write_bitmap` hands its count of sectors on in bytes, `elixir_read_bitmap` in an eight-bit
parameter. From 256 sectors on, which is a drive of a little over half a gigabyte, the second
count is cut short: the reader fetches the count modulo 256 and leaves the rest of its buffer
clear, and the call succeeds all the same. `roundTrips_iff` says which bitmaps survive.
-/

open Arena Prog Kernel

/-- The `block_bitmap` handed back through `out` is that of a drive of `size` sectors with the
bits `bits`. -/
structure HandsBack {σ : Type} (out size : ℕ) (bits : ℕ → Bool) (w : Kernel σ) : Prop where
  /-- The bits. -/
  bit_eq : ∀ i < size,
    w.mem.bit (w.mem.get (w.mem.loadLE out 4) BlockBitmap.bitmap) i = bits i
  /-- `total` -/
  total_eq : w.mem.get (w.mem.loadLE out 4) BlockBitmap.total = size
  /-- `used_count` -/
  used_eq : w.mem.get (w.mem.loadLE out 4) BlockBitmap.usedCount =
    (List.range size).countP fun i ↦ bits i
  /-- `free_count` -/
  free_eq : w.mem.get (w.mem.loadLE out 4) BlockBitmap.freeCount =
    size - w.mem.get (w.mem.loadLE out 4) BlockBitmap.usedCount

/-- **The round trip**: when the bitmap at `bb` is written, what is then read is that bitmap. -/
def RoundTrips (fuel drive bb out : ℕ) (w : Kernel AtaBus) : Prop :=
  ∀ w₁, Runs (elixirWriteBitmap fuel drive bb) w 0 w₁ →
    ∃ w₂, Runs (elixirReadBitmap fuel drive out) w₁ 0 w₂ ∧
      HandsBack out (w.driveSize drive)
        (w.mem.bit (w.mem.get bb BlockBitmap.bitmap)) w₂

section RoundTrip

variable {w w₁ : Kernel AtaBus} {lo hi fuel drive c d bb out : ℕ} {cells : List Cell}

/-- What a read hands back depends on the bits in its buffer. -/
theorem handsBack_of_read {σ : Type} [PortBus σ] {w w₁ w₂ w₃ : Kernel σ} {b q : ℕ}
    {cells₁ cells₂ : List Cell} (hinv : HeapInv lo hi w.heap cells)
    (hout : OutPointer lo hi w out)
    (hread : BitmapRead lo hi fuel drive cells w b cells₁ q cells₂ w₁ 0 w₂)
    (hcount : BitmapCounted (w.driveSize drive) b q w₂ w₃) :
    HandsBack out (w.driveSize drive) (w₂.mem.bit q) (w₃.setMem (w₃.mem.storeLE out 4 b)) := by
  have hheld := hread.held.store fun x hx _ ↦ hcount.mem x hx
  rw [← heap_setMem, ← hcount.rest] at hheld
  have hb := hheld.toBitmapAllocated
  have hle := bitmapSectors_le (w.driveSize drive)
  have hreq := le_requestSize (n := bitmapSectors (w.driveSize drive) * 512) (by omega)
  have hsize := size_le_of_bitmapSectors (w.driveSize_lt drive)
    (allocate_eq_some.1 hb.buffer).1
  obtain ⟨-, hptr⟩ := hout.store hinv hheld.inv
    (fun x hx ↦ (hx.allocate hheld.struct).allocate hheld.buffer) (hinv.ptr_lt hheld.struct)
  have hptr' : (w₃.mem.storeLE out 4 b).loadLE out 4 = b := hptr
  -- the pointer is stored neither into the struct nor into the buffer
  have hstruct : ∀ x, b ≤ x → x < b + 16 → w₃.mem.storeLE out 4 b x = w₃.mem x := fun x h₁ h₂ ↦
    hout.storeLE_apply hinv fun hx ↦ by
      have := hb.not_client_struct hheld.tiles hx
      omega
  have hbuffer : ∀ i < bitmapSectors (w.driveSize drive) * 512,
      w₃.mem.storeLE out 4 b (q + i) = w₂.mem (q + i) := by
    intro i hi'
    rw [hout.storeLE_apply hinv fun hx ↦ by
      have := hb.not_client_buffer hheld.tiles₁ (hx.allocate hb.struct)
      omega]
    refine hcount.mem _ ?_
    by_contra hin
    have := hb.not_client_buffer hheld.tiles₁
      (hb.struct_range (x := q + i) (by omega) (by omega)).1
    omega
  have hget : ∀ f : RecordField, f.off + f.width ≤ 16 →
      (w₃.mem.storeLE out 4 b).get b f = w₃.mem.get b f := fun f hf ↦
    ByteMem.get_congr hf fun i hi' ↦ hstruct _ (by omega) (by omega)
  have hq : w₃.mem.get b BlockBitmap.bitmap = q := hheld.bitmap_eq
  have hbits : w₂.mem.setBits q 0 (w.driveSize drive) =
      (List.range (w.driveSize drive)).countP fun i ↦ w₂.mem.bit q i := by
    rw [ByteMem.setBits, ← List.range_eq_range']
  constructor
  · intro i hi'
    rw [mem_setMem, hptr', hget _ (by decide), hq, ByteMem.bit, hbuffer (i / 8) (by omega),
      ByteMem.bit]
  · rw [mem_setMem, hptr', hget _ (by decide), hcount.total_eq]
  · rw [mem_setMem, hptr', hget _ (by decide), hcount.used_eq, hbits]
  · rw [mem_setMem, hptr', hget _ (by decide), hget _ (by decide), hcount.free_eq, hcount.used_eq]

/-- The bits that come back after a bitmap is written: those in the sectors that are read. -/
theorem exists_writeRead (hinv : HeapInv lo hi w.heap cells) (ha : Attached w drive c d)
    (hf : w.io.FaultFree fuel) (hbb : bb ≠ 0) (hbuf : w.mem.get bb BlockBitmap.bitmap ≠ 0)
    (htotal : w.mem.get bb BlockBitmap.total = w.driveSize drive)
    (hroom : ¬ BitmapRefused (bitmapSectors (w.driveSize drive) * 512) cells)
    (hout : OutPointer lo hi w out) :
    ∃ w₁ w₂ bits, Runs (elixirWriteBitmap fuel drive bb) w 0 w₁ ∧
      Runs (elixirReadBitmap fuel drive out) w₁ 0 w₂ ∧ HandsBack out (w.driveSize drive) bits w₂ ∧
      ∀ i < w.driveSize drive, bits i = if i < 4096 * (bitmapSectors (w.driveSize drive) % 256)
        then w.mem.bit (w.mem.get bb BlockBitmap.bitmap) i else false := by
  obtain ⟨_, _, _, _, hb⟩ := exists_bitmapAllocated hroom
  have hne := (allocate_eq_some.1 hb.buffer).1
  have hsize := size_le_of_bitmapSectors (w.driveSize_lt drive) hne
  generalize hbuf' : w.mem.get bb BlockBitmap.bitmap = buf at *
  obtain ⟨ph, b', hrun, hserved⟩ := ideWriteSectorsCounted_spec _ ha rfl hf
    (by omega) (bitmapEnd_le (w.driveSize drive))
  rw [Nat.mul_comm] at hrun
  have hwrite : Runs (elixirWriteBitmap fuel drive bb) w 0 (w.setIo b') :=
    (elixirWriteBitmap_runs hbb hbuf' hbuf htotal).2 ⟨0, hrun, rfl⟩
  have ha' : Attached (w.setIo b') drive c d := ha.served rfl rfl hserved rfl rfl
  obtain ⟨b, cells₁, q, cells₂, w₁, w₂, w₃, hread, hbytes, hcount, hreadBitmap⟩ :=
    exists_bitmapRead (w := w.setIo b') hinv ha' (hserved.faultFree hf).latency_lt hroom
  refine ⟨w.setIo b', _, w₂.mem.bit q, hwrite, hreadBitmap,
    handsBack_of_read (w := w.setIo b') hinv ⟨hout.ne_zero, hout.client⟩ hread hcount, ?_⟩
  intro i hi'
  rw [ByteMem.bit, hbytes _ (by change i / 8 < bitmapSectors (w.driveSize drive) * 512; omega)]
  -- the sectors that are read, counted in bits
  have hiff : i / 8 < 512 * u8 (bitmapSectors (w.driveSize drive)) ↔
      i < 4096 * (bitmapSectors (w.driveSize drive) % 256) := by
    rw [u8]
    omega
  have hsectors : ((w.setIo b').io.unit c d).sectors = writeRange (w.io.unit c d).sectors
      elixirBitmapStartLba (bitmapSectors (w.driveSize drive))
      fun j ↦ w.mem.sectorAt (buf + 512 * j) := congrArg AtaUnit.sectors hserved.unit_eq
  by_cases hin : i < 4096 * (bitmapSectors (w.driveSize drive) % 256)
  · rw [if_pos hin]
    refine (congrArg (fun v : UInt8 ↦ v.toNat.testBit (i % 8)) (if_pos (hiff.2 hin))).trans ?_
    rw [hsectors, sectorStream, writeRange_apply_add (by omega), Sector.bytes,
      dif_pos (Nat.mod_lt _ (by decide)), ByteMem.sectorAt, ByteMem.bit]
    rw [show buf + 512 * (i / 8 / 512) + i / 8 % 512 = buf + i / 8 by omega]
  · rw [if_neg hin]
    refine (congrArg (fun v : UInt8 ↦ v.toNat.testBit (i % 8))
      (if_neg fun h ↦ hin (hiff.1 h))).trans ?_
    exact Nat.zero_testBit _

theorem HandsBack.congr {σ : Type} {w : Kernel σ} {size : ℕ} {bits bits' : ℕ → Bool}
    (h : HandsBack out size bits w) (hbits : ∀ i < size, bits i = bits' i) :
    HandsBack out size bits' w where
  bit_eq i hi' := (h.bit_eq i hi').trans (hbits i hi')
  total_eq := h.total_eq
  used_eq := h.used_eq.trans (List.countP_congr fun i hi' ↦ by rw [hbits i (List.mem_range.1 hi')])
  free_eq := h.free_eq

/-- A bitmap comes back exactly if its set bits are in the sectors that are read. -/
theorem roundTrips_iff_of_room (hinv : HeapInv lo hi w.heap cells) (ha : Attached w drive c d)
    (hf : w.io.FaultFree fuel) (hbb : bb ≠ 0) (hbuf : w.mem.get bb BlockBitmap.bitmap ≠ 0)
    (htotal : w.mem.get bb BlockBitmap.total = w.driveSize drive)
    (hroom : ¬ BitmapRefused (bitmapSectors (w.driveSize drive) * 512) cells)
    (hout : OutPointer lo hi w out) :
    RoundTrips fuel drive bb out w ↔ ∀ i < w.driveSize drive,
      w.mem.bit (w.mem.get bb BlockBitmap.bitmap) i = true →
        i < 4096 * (bitmapSectors (w.driveSize drive) % 256) := by
  obtain ⟨w₁, w₂, bits, hwrite, hread, hback, hbits⟩ :=
    exists_writeRead hinv ha hf hbb hbuf htotal hroom hout
  constructor
  · intro h i hi' hset
    obtain ⟨w₂', hread', hback'⟩ := h w₁ hwrite
    obtain ⟨-, rfl⟩ := hread.unique hread'
    by_contra hout'
    have hbit := (hback.bit_eq i hi').symm.trans (hback'.bit_eq i hi')
    rw [hbits i hi', if_neg hout', hset] at hbit
    exact Bool.noConfusion hbit
  · intro h w₁' hwrite'
    obtain ⟨-, rfl⟩ := hwrite.unique hwrite'
    refine ⟨w₂, hread, hback.congr ?_⟩
    intro i hi'
    rw [hbits i hi']
    split
    · rfl
    · next hout' => exact (Bool.eq_false_iff.2 fun hset ↦ hout' (h i hi' hset)).symm

/-- **Which bitmaps survive the round trip**: those whose set bits all lie in the first sectors,
as many as the count of sectors is modulo 256. -/
theorem roundTrips_iff {base size : ℕ} {mem : ByteMem} (hbase : 0x100000 ≤ base)
    (hend : base + size ≤ 2 ^ 32) (hacc : RegionAccepted base size)
    (hreach : HeapReach base size mem w.heap) (ha : Attached w drive c d)
    (hf : w.io.FaultFree fuel) (hbb : bb ≠ 0) (hbuf : w.mem.get bb BlockBitmap.bitmap ≠ 0)
    (htotal : w.mem.get bb BlockBitmap.total = w.driveSize drive)
    (hroom : w.heap.serves [sizeofBlockBitmap, bitmapSectors (w.driveSize drive) * 512] = true)
    (hout : OutPointer (alignedStart base) (base + size) w out) :
    RoundTrips fuel drive bb out w ↔ ∀ i < w.driveSize drive,
      w.mem.bit (w.mem.get bb BlockBitmap.bitmap) i = true →
        i < 4096 * (bitmapSectors (w.driveSize drive) % 256) := by
  obtain ⟨⟨cells, hinv⟩, -⟩ := hreach.exists_inv hbase hend hacc
  refine roundTrips_iff_of_room hinv ha hf hbb hbuf htotal ?_ hout
  intro hrefused
  rw [bitmapRefused_iff] at hrefused
  rw [hinv.serves_iff, hrefused] at hroom
  exact Bool.noConfusion hroom

end RoundTrip

/-! ### A bitmap with its first bit set -/

/-- A kernel with blank disks of `size` sectors and, below its heap, a `block_bitmap` for one of
them in which the first sector is used. -/
def Kernel.withBitmap (size : ℕ) : Kernel AtaBus :=
  (Kernel.blank (Heap.fresh 0x40000) size).setMem
    ((((Heap.fresh 0x40000).mem.set 0x1000 BlockBitmap.total size).set 0x1000
      BlockBitmap.bitmap 0x2000).store8 0x2000 1)

section Marked

variable {size x : ℕ}

theorem Kernel.withBitmap_mem (hx : 0x100000 ≤ x) :
    (Kernel.withBitmap size).mem x = (Heap.fresh 0x40000).mem x := by
  show ByteMem.store8 _ _ _ x = _
  rw [ByteMem.store8_of_ne (by omega),
    ByteMem.set_apply_of_not_mem (n := 16) (by decide) (by omega),
    ByteMem.set_apply_of_not_mem (n := 16) (by decide) (by omega)]

theorem Kernel.withBitmap_reach (size : ℕ) :
    HeapReach 0x100000 0x40000 (fun _ ↦ 0) (Kernel.withBitmap size).heap := by
  refine (Heap.fresh_reach 0x40000).tail (.client fun x hx ↦ Kernel.withBitmap_mem ?_)
  by_contra hlt
  exact hx (Or.inl (Or.inl ((Nat.not_le.1 hlt).trans_le (by decide))))

theorem Kernel.withBitmap_inv (size : ℕ) : HeapInv 0x100000 (0x100000 + 0x40000)
    (Kernel.withBitmap size).heap [⟨0x100000, 0x40000, false⟩] :=
  (Heap.fresh_inv (by decide) (by decide)).client fun x hx ↦ Kernel.withBitmap_mem (by
    by_contra hlt
    exact hx (Or.inl (Or.inl (Nat.not_le.1 hlt))))

theorem Kernel.withBitmap_attached (size : ℕ) :
    Attached (Kernel.withBitmap size) 0 0 0 :=
  (Kernel.attached_blank (Heap.fresh 0x40000) size (by decide)).of_unit rfl rfl rfl rfl

theorem Kernel.withBitmap_bitmap (size : ℕ) :
    (Kernel.withBitmap size).mem.get 0x1000 BlockBitmap.bitmap = 0x2000 := by
  refine (ByteMem.loadLE_congr
    fun i hi' ↦ ByteMem.store8_of_ne ?_).trans ByteMem.get_set_self
  have : i < 4 := hi'
  change 0x1000 + 12 + i ≠ 0x2000
  omega

theorem Kernel.withBitmap_total (size : ℕ) :
    (Kernel.withBitmap size).mem.get 0x1000 BlockBitmap.total =
      (Kernel.withBitmap size).driveSize 0 := by
  refine (ByteMem.loadLE_congr
    fun i hi' ↦ ByteMem.store8_of_ne ?_).trans ?_
  · have : i < 4 := hi'
    change 0x1000 + 8 + i ≠ 0x2000
    omega
  · exact (ByteMem.get_set_of_disjoint (by decide)).trans ByteMem.get_set_self

/-- The bitmap of a disk of 40000 sectors comes back. -/
theorem roundTrips_small : RoundTrips 1 0 0x1000 0x7000 (Kernel.withBitmap 40000) := by
  have hbitmap := Kernel.withBitmap_bitmap 40000
  refine (roundTrips_iff (by decide) (by decide) (by decide)
    (Kernel.withBitmap_reach 40000) (Kernel.withBitmap_attached 40000) (AtaBus.faultFree_blank _)
    (by decide) (by rw [hbitmap]; decide) (Kernel.withBitmap_total _) ?_ ?_).2
    fun i hi' _ ↦ ?_
  · rw [(Kernel.withBitmap_inv 40000).serves_iff]
    decide +kernel
  · exact ⟨by decide, fun x _ hx ↦ Or.inl (Or.inl (hx.trans (by decide)))⟩
  · have hsize : (Kernel.withBitmap 40000).driveSize 0 = 40000 := rfl
    rw [hsize] at hi' ⊢
    exact hi'.trans (by decide)

/-- That of a disk of 1044481 sectors takes 256 sectors, none of which is read back. -/
theorem not_roundTrips_large : ¬ RoundTrips 1 0 0x1000 0x7000 (Kernel.withBitmap 1044481) := by
  have hbitmap := Kernel.withBitmap_bitmap 1044481
  rw [roundTrips_iff_of_room (Kernel.withBitmap_inv 1044481) (Kernel.withBitmap_attached 1044481)
    (AtaBus.faultFree_blank _) (by decide) (by rw [hbitmap]; decide)
    (Kernel.withBitmap_total _)
    (by rw [bitmapRefused_iff]; decide +kernel)
    ⟨by decide, fun x _ hx ↦ Or.inl (Or.inl (hx.trans (by decide)))⟩, hbitmap]
  intro h
  have hlt := h 0 (by decide) (by decide)
  exact absurd hlt (by decide)

end Marked
