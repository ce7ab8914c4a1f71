import BinbowsDOS.Foundations.ByteMemory
import BinbowsDOS.Foundations.MachineWord

/-!
# The kernel heap allocator

`mem.c`: a first-fit allocator whose free list is threaded through the free memory itself.
A `free_list_block` is an eight-byte header, `size` at offset 0 and `next` at offset 4; the
payload follows, and `next` means something only while the block is on the list.

The functions here are the C functions, on a state that holds the memory and the one static
variable `free_list_head`. A `free_list_block **` is a `Cursor`: the address of the variable
or of some block's `next` field. The three list walks of the source have no bound of their
own, so they run on fuel; `listFuel` is the number of headers a 32-bit address space can
hold, and running out of it (`none`) stands for a walk that never ends.

Interrupt masking (`save_and_cli`, `restore_flags`) and the console messages touch none of
this state and are left out. `free_list_head` is a variable of its own, so the model
describes a heap region that does not contain the allocator's static data.

Two fields of the state are history variables that no function reads: `live`, the pointers
`kmalloc` has returned and `kfree` has not taken back, and `written`, the addresses the
allocator has written.
-/

/-- The allocator's state. -/
structure Heap where
  /-- Memory, by address. -/
  mem : ByteMem
  /-- `free_list_head`; `0` is `NULL`. -/
  freeListHead : ℕ
  /-- History: pointers handed out and not freed since. -/
  live : List ℕ
  /-- History: addresses the allocator has written. -/
  written : ℕ → Bool

/-- `sizeof(free_list_block)`. -/
def headerSize : ℕ := 8

/-- `MIN_ALLOC_SIZE`. -/
def minAllocSize : ℕ := 16

/-- `ALIGN_SIZE`. -/
def alignSize : ℕ := 8

/-- How many block headers fit into a 32-bit address space. -/
def listFuel : ℕ := 2 ^ 29

/-- A `free_list_block **`. -/
inductive Cursor where
  /-- `&free_list_head` -/
  | head
  /-- `&block->next` -/
  | next (block : ℕ)
deriving DecidableEq, Repr

namespace Heap

/-- The state at power-on: `free_list_head` is `NULL` and nothing has happened yet. -/
def boot (mem : ByteMem) : Heap where
  mem := mem
  freeListHead := 0
  live := []
  written _ := false

/-- A store of `w` bytes by the allocator. -/
def store (h : Heap) (a w v : ℕ) : Heap :=
  { h with
    mem := h.mem.storeLE a w v
    written := fun x ↦ decide (a ≤ x ∧ x < a + w) || h.written x }

/-- `block->size` -/
def size (h : Heap) (block : ℕ) : ℕ := h.mem.loadLE block 4

/-- `block->next` -/
def next (h : Heap) (block : ℕ) : ℕ := h.mem.loadLE (block + 4) 4

/-- `block->size = v` -/
def setSize (h : Heap) (block v : ℕ) : Heap := h.store block 4 v

/-- `block->next = v` -/
def setNext (h : Heap) (block v : ℕ) : Heap := h.store (block + 4) 4 v

/-- `*cur` -/
def deref (h : Heap) : Cursor → ℕ
  | .head => h.freeListHead
  | .next block => h.next block

/-- `*cur = v` -/
def assign (h : Heap) (cur : Cursor) (v : ℕ) : Heap :=
  match cur with
  | .head => { h with freeListHead := v }
  | .next block => h.setNext block v

/-- `memset_page`: the loop's first `size` iterations. -/
def memsetPage (ptr value : ℕ) : ℕ → Heap → Heap
  | 0, h => h
  | size + 1, h => (memsetPage ptr value size h).store (ptr + size) 1 value

end Heap

/-! ### Initialization -/

/-- `init_allocator_region` turns the region down when alignment leaves no room for a header
and one byte. -/
def RegionAccepted (regionBase regionSize : ℕ) : Prop :=
  ¬ regionSize ≤ u32 (headerSize + sub32 (alignUp regionBase alignSize) regionBase)

instance (regionBase regionSize : ℕ) : Decidable (RegionAccepted regionBase regionSize) :=
  inferInstanceAs (Decidable (¬ _))

/-- `init_allocator_region` -/
def initAllocatorRegion (regionBase regionSize : ℕ) (h : Heap) : Heap :=
  let alignedStart := alignUp regionBase alignSize
  if RegionAccepted regionBase regionSize then
    let regionSize := sub32 regionSize (sub32 alignedStart regionBase)
    let h := { h with freeListHead := alignedStart }
    let h := h.setSize h.freeListHead (sub32 regionSize headerSize)
    h.setNext h.freeListHead 0
  else h

/-! ### `kmalloc` -/

/-- The size a request is served with: rounded up to the alignment, and at least the minimum. -/
def requestSize (size : ℕ) : ℕ :=
  let size := alignUp size alignSize
  if size < minAllocSize then minAllocSize else size

/-- What `kmalloc` does to the free list once `block` fits: split the block when the remainder
can hold a header and a minimal payload, otherwise unlink it whole. -/
def detachBlock (size : ℕ) (current : Cursor) (block : ℕ) (h : Heap) : Heap :=
  if u32 (size + headerSize + minAllocSize) ≤ h.size block then
    let newBlock := u32 (block + headerSize + size)
    let h := h.setSize newBlock (sub32 (sub32 (h.size block) size) headerSize)
    let h := h.setNext newBlock (h.next block)
    let h := h.assign current newBlock
    h.setSize block size
  else h.assign current (h.next block)

/-- The body of `kmalloc`'s loop once `block` fits: detach it and clear the payload. -/
def takeBlock (size : ℕ) (current : Cursor) (block : ℕ) (h : Heap) : ℕ × Heap :=
  let h := detachBlock size current block h
  let result := u32 (block + headerSize)
  (result, { Heap.memsetPage result 0 size h with live := result :: h.live })

/-- The first-fit walk of `kmalloc`. -/
def kmallocWalk (size : ℕ) : ℕ → Cursor → Heap → Option (ℕ × Heap)
  | 0, _, _ => none
  | fuel + 1, current, h =>
    let block := h.deref current
    if block = 0 then some (0, h)
    else if size ≤ h.size block then some (takeBlock size current block h)
    else kmallocWalk size fuel (.next block) h

/-- `kmalloc` -/
def kmalloc (size : ℕ) (h : Heap) : Option (ℕ × Heap) :=
  if size = 0 then some (0, h)
  else if h.freeListHead = 0 then some (0, h)
  else kmallocWalk (requestSize size) listFuel .head h

/-! ### `kfree` -/

/-- `while (*cur && *cur < block) cur = &(*cur)->next;` -/
def insertionPoint (block : ℕ) : ℕ → Cursor → Heap → Option Cursor
  | 0, _, _ => none
  | fuel + 1, cur, h =>
    if h.deref cur ≠ 0 ∧ h.deref cur < block then
      insertionPoint block fuel (.next (h.deref cur)) h
    else some cur

/-- `while (prev && prev->next != block) prev = prev->next;` -/
def predecessor (block : ℕ) : ℕ → ℕ → Heap → Option ℕ
  | 0, _, _ => none
  | fuel + 1, prev, h =>
    if prev ≠ 0 ∧ h.next prev ≠ block then predecessor block fuel (h.next prev) h
    else some prev

/-- Coalescing forward, with the block after `block`. -/
def mergeNext (block : ℕ) (h : Heap) : Heap :=
  if h.next block ≠ 0 ∧ u32 (block + headerSize + h.size block) = h.next block then
    let h := h.setSize block (u32 (h.size block + headerSize + h.size (h.next block)))
    h.setNext block (h.next (h.next block))
  else h

/-- Coalescing backward, of `block` into the block `prev` before it. -/
def mergePrev (prev block : ℕ) (h : Heap) : Heap :=
  if prev ≠ 0 ∧ u32 (prev + headerSize + h.size prev) = block then
    let h := h.setSize prev (u32 (h.size prev + headerSize + h.size block))
    h.setNext prev (h.next block)
  else h

/-- `insert_free_block_sorted` -/
def insertFreeBlockSorted (block : ℕ) (h : Heap) : Option Heap :=
  if block = 0 then some h
  else do
    let cur ← insertionPoint block listFuel .head h
    let h := h.setNext block (h.deref cur)
    let h := h.assign cur block
    let h := mergeNext block h
    if cur = .head then some h
    else do
      let prev ← predecessor block listFuel h.freeListHead h
      some (mergePrev prev block h)

/-- `kfree` -/
def kfree (ptr : ℕ) (h : Heap) : Option Heap :=
  if ptr = 0 then some h
  else do
    let h ← insertFreeBlockSorted (sub32 ptr headerSize) h
    some { h with live := h.live.erase ptr }
