import BinbowsDOS.Heap.Run

/-!
# The linked kernel image and the heap region of `kmain`

Three places speak about the same memory. The linker script loads the image at one megabyte
and marks its end with `__kernel_end`; `kmain` hands the allocator a region; the allocator puts
its first header at the start of that region. The region `kmain` names starts at one megabyte
as well, so the first header is written over the image.
-/

/-- The load address of the linker script. -/
def kernelLoadAddress : ℕ := 0x00100000

/-- `ALIGN(4K)` -/
def alignPage (dot : ℕ) : ℕ := (dot + 4095) / 4096 * 4096

/-- The sizes of the linked output sections. -/
structure KernelSections where
  /-- `.text` -/
  text : ℕ
  /-- `.rodata` -/
  rodata : ℕ
  /-- `.data` -/
  data : ℕ
  /-- `.bss` -/
  bss : ℕ

/-- `__bss_start` -/
def KernelSections.bssStart (s : KernelSections) : ℕ :=
  let dot := alignPage kernelLoadAddress + s.text
  let dot := alignPage dot + s.rodata
  let dot := alignPage dot + s.data
  alignPage dot

/-- `__kernel_end` -/
def KernelSections.kernelEnd (s : KernelSections) : ℕ := alignPage (s.bssStart + s.bss)

/-- An address of the linked image. -/
def KernelSections.InImage (s : KernelSections) (x : ℕ) : Prop :=
  kernelLoadAddress ≤ x ∧ x < s.kernelEnd

/-- The region `kmain` gives the allocator; the product is an `int` read as `uint32_t`. -/
def kmainRegionBase : ℕ := 0x00100000

/-- The size of that region. -/
def kmainRegionSize : ℕ := u32 (2 * 1024 * 1024 * 1024)

/-- The allocator as `kmain` sets it up. -/
def kmainHeap (mem : ByteMem) : Heap :=
  initAllocatorRegion kmainRegionBase kmainRegionSize (Heap.boot mem)

/-- The allocator keeps off the image: it has written no byte of it, and no block it has handed
out contains one. -/
def KernelSections.SparedBy (s : KernelSections) (h : Heap) : Prop :=
  (∀ x, h.written x = true → ¬ s.InImage x) ∧
    ∀ p ∈ h.live, ∀ x, p ≤ x → x < p + h.size (p - headerSize) → ¬ s.InImage x

variable {s : KernelSections} {mem : ByteMem} {h : Heap}

theorem written_kernelLoadAddress_kmainHeap (mem : ByteMem) :
    (kmainHeap mem).written kernelLoadAddress = true :=
  written_initAllocatorRegion (by decide) _ (by decide)

/-- The record of writes of every run that starts in `kmain` contains the load address. -/
theorem written_kernelLoadAddress_of_run (hrun : HeapReach kmainRegionBase kmainRegionSize mem h) :
    h.written kernelLoadAddress = true :=
  (hrun.exists_inv (by decide) (by decide) (by decide)).2 _
    (written_kernelLoadAddress_kmainHeap mem)

/-- **The heap of `kmain` never spares the image**: however large the image is, as soon as it
is not empty, and whatever is allocated and freed, the allocator has written to it. -/
theorem not_sparedBy_of_run (himage : kernelLoadAddress < s.kernelEnd)
    (hrun : HeapReach kmainRegionBase kmainRegionSize mem h) : ¬ s.SparedBy h := fun hspared ↦
  hspared.1 kernelLoadAddress (written_kernelLoadAddress_of_run hrun) ⟨Nat.le_refl _, himage⟩

/-- A run of length zero on an image of four pages. -/
theorem not_sparedBy_initial :
    ¬ KernelSections.SparedBy ⟨4000, 900, 200, 3000⟩ (kmainHeap fun _ ↦ 0) :=
  not_sparedBy_of_run (by decide) .refl

/-- The first thing `kmain` does breaks the separation: with zeroed memory and an image of four
pages, the allocator's first header is in `.text`. -/
theorem kmainHeap_overwrites_text :
    (kmainHeap fun _ ↦ 0).written 0x00100000 = true ∧
      KernelSections.InImage ⟨4000, 900, 200, 3000⟩ 0x00100000 ∧
      ¬ KernelSections.SparedBy ⟨4000, 900, 200, 3000⟩ (kmainHeap fun _ ↦ 0) := by
  have hwritten := written_kernelLoadAddress_kmainHeap fun _ ↦ 0
  have hin : KernelSections.InImage ⟨4000, 900, 200, 3000⟩ 0x00100000 := by
    refine ⟨?_, ?_⟩ <;> decide
  exact ⟨hwritten, hin, fun hspared ↦ hspared.1 _ hwritten hin⟩
