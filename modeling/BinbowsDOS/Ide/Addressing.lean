import BinbowsDOS.Ide.SectorArray

/-!
# The reach of a read

READ SECTORS takes a 28-bit address. `ide_write_sectors_counted` refuses a larger one;
`ide_read_sectors` has a branch of its own for it, which fills the three address bytes as if they
were the low half of a 48-bit address, clears the head bits and issues the same 28-bit command.
The device reads another sector, and the call returns 0.
-/

open Prog Kernel

/-- What a caller relies on when `ide_read_sectors` returns `r`, having asked for `n` sectors of
the unit at position `d` of channel `c`. -/
structure ReadsSectors (c d n lba buf r : ℕ) (w w' : Kernel AtaBus) : Prop where
  /-- A read that returns 0 has filled the buffer with these sectors. -/
  data : r = 0 → ∀ j < 512 * n, w'.mem (buf + j) = sectorStream (w.io.unit c d).sectors lba j
  /-- An address of more than 28 bits is refused. -/
  refuses : 0x0FFFFFFF < lba → r ≠ 0

/-- **When a read is right.** On a device without faults a read of at least one sector from a
present drive returns, and gives the caller what it asked for exactly if 28 bits can hold the
address. -/
theorem readsSectors_iff {w : Kernel AtaBus} {fuel i c d n : ℕ} (lba buf : ℕ)
    (ha : Attached w i c d) (hf : w.io.FaultFree fuel) (hn : 1 ≤ n) (hn' : n ≤ 255) :
    ∃ r w', ideReadSectors fuel i n lba buf w = some (r, w') ∧
      (ReadsSectors c d n lba buf r w w' ↔ lba ≤ 0x0FFFFFFF) := by
  obtain ⟨k, b', hrun, -, -⟩ := ideReadSectors_address_spec (n := n) buf lba ha rfl hf.latency_lt
    (by omega)
  refine ⟨0, _, hrun, ?_, ?_⟩
  · intro hreads
    by_contra hlt
    exact hreads.refuses (by omega) rfl
  · intro hle
    refine ⟨fun _ j hj ↦ ?_, fun hlt ↦ absurd hle (by omega)⟩
    rw [readAddress_of_lt (by omega)]
    exact ByteMem.blit_apply_add hj

/-- A read of two sectors from a blank disk. -/
theorem readsSectors_blank :
    ∃ r w', ideReadSectors 1 0 2 7 0x200000 (Kernel.blank (Heap.boot fun _ ↦ 7) 40000) =
        some (r, w') ∧
      (ReadsSectors 0 0 2 7 0x200000 r (Kernel.blank (Heap.boot fun _ ↦ 7) 40000) w' ↔
        7 ≤ 0x0FFFFFFF) :=
  readsSectors_iff 7 0x200000 (Kernel.attached_blank _ _ (by decide)) (AtaBus.faultFree_blank _)
    (by decide) (by decide)

/-- Four disks with ones in sector 0 and zeros elsewhere. -/
def Kernel.marked (heap : Heap) (size : ℕ) : Kernel AtaBus :=
  (Kernel.blank heap size).setIo { AtaBus.blank fun _ ↦ 0 with
    chan := fun _ ↦ ⟨0, 0, 0, 0, 0, fun _ ↦ { AtaUnit.blank fun _ ↦ 0 with
      sectors := fun lba _ ↦ if lba = 0 then 1 else 0 }⟩ }

/-- A read of sector 2^28 from such a disk returns 0 and sector 0. -/
theorem not_readsSectors_marked :
    ∃ w', ideReadSectors 1 0 1 0x10000000 0x200000 (Kernel.marked (Heap.boot fun _ ↦ 7) 40000) =
        some (0, w') ∧
      w'.mem 0x200000 = 1 ∧
      ¬ ReadsSectors 0 0 1 0x10000000 0x200000 0 (Kernel.marked (Heap.boot fun _ ↦ 7) 40000)
        w' := by
  have ha : Attached (Kernel.marked (Heap.boot fun _ ↦ 7) 40000) 0 0 0 :=
    (Kernel.attached_blank (Heap.boot fun _ ↦ 7) 40000 (i := 0) (by decide)).of_unit rfl rfl rfl rfl
  have hlat : ∀ k, (Kernel.marked (Heap.boot fun _ ↦ 7) 40000).io.latency k < 1 :=
    fun _ ↦ Nat.one_pos
  obtain ⟨k, b', hrun, -, -⟩ := ideReadSectors_address_spec (n := 1) 0x200000 0x10000000 ha rfl
    hlat (by decide)
  refine ⟨_, hrun, ?_, fun hreads ↦ hreads.refuses (by decide) rfl⟩
  have hread : readAddress 0x10000000 = 0 := by decide
  rw [hread, mem_setIo, mem_setMem]
  exact ByteMem.blit_apply_add (a := 0x200000) (b := 0) (by decide)
