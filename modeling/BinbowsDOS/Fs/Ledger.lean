import BinbowsDOS.Fs.Outcome
import BinbowsDOS.Ide.SectorArray

/-!
# What the file system leaves allocated

`LeakFree` says of each file-system call what it may do to the blocks handed out by the heap: a
format none, a failed call none, and a call that succeeds adds the blocks of the object it hands
back. All of it is read off the outcomes, so it holds for every device and every point at which
an allocation or a transfer can fail.

There is one exception. `create_super` looks at the drive size after it has allocated the super
block, and on a drive that is too small it returns without it; `leakFree_iff` says that the
calls are free of leaks exactly when this does not happen.
-/

open Arena Prog Kernel

/-- A pointer that the caller of a function may have it store a pointer to: not `NULL`, and four
bytes of the caller's own. -/
structure OutPointer {σ : Type} (lo hi : ℕ) (w : Kernel σ) (out : ℕ) : Prop where
  /-- It is not `NULL`. -/
  ne_zero : out ≠ 0
  /-- The bytes are the caller's. -/
  client : ∀ x, out ≤ x → x < out + 4 → w.heap.ClientByte lo hi x

/-- **No call on `drive` from `w` leaks heap.** -/
structure LeakFree {σ : Type} [PortBus σ] (lo hi fuel drive : ℕ) (w : Kernel σ) : Prop where
  /-- A format adds nothing. -/
  format : ∀ r w', Runs (elixirFormat fuel drive) w r w' →
    w'.heap.liveBlocks.Perm w.heap.liveBlocks
  /-- `create_super` adds the super block. -/
  createSuper : ∀ p w', Runs (createSuper drive) w p w' →
    w'.heap.liveBlocks.Perm
      (if p = 0 then w.heap.liveBlocks else w'.heap.liveBlock p :: w.heap.liveBlocks)
  /-- `create_bitmap` adds the struct and its buffer. -/
  createBitmap : ∀ p w', Runs (createBitmap drive) w p w' →
    w'.heap.liveBlocks.Perm
      (if p = 0 then w.heap.liveBlocks
        else w'.heap.liveBlock (w'.mem.get p BlockBitmap.bitmap) :: w'.heap.liveBlock p ::
          w.heap.liveBlocks)
  /-- `create_file` adds the index. -/
  createFile : ∀ p w', Runs (createFile drive) w p w' →
    w'.heap.liveBlocks.Perm
      (if p = 0 then w.heap.liveBlocks else w'.heap.liveBlock p :: w.heap.liveBlocks)
  /-- A mount adds the super block it hands back. -/
  mount : ∀ out r w', OutPointer lo hi w out → Runs (elixirMount fuel drive out) w r w' →
    w'.heap.liveBlocks.Perm
      (if r = -1 then w.heap.liveBlocks
        else w'.heap.liveBlock (w'.mem.loadLE out 4) :: w.heap.liveBlocks)
  /-- `elixir_read_bitmap` adds the struct it hands back and its buffer. -/
  readBitmap : ∀ out r w', OutPointer lo hi w out → Runs (elixirReadBitmap fuel drive out) w r w' →
    w'.heap.liveBlocks.Perm
      (if r = -1 then w.heap.liveBlocks
        else w'.heap.liveBlock (w'.mem.get (w'.mem.loadLE out 4) BlockBitmap.bitmap) ::
          w'.heap.liveBlock (w'.mem.loadLE out 4) :: w.heap.liveBlocks)

section Blocks

variable {lo hi n p b q : ℕ} {h h' : Heap} {cells cells' cells₁ cells₂ : List Cell}

/-- The same cells are the same blocks. -/
theorem HeapInv.liveBlocks_perm_of_cells (hinv : HeapInv lo hi h cells)
    (hinv' : HeapInv lo hi h' cells) : h'.liveBlocks.Perm h.liveBlocks :=
  hinv'.liveBlocks_perm.trans hinv.liveBlocks_perm.symm

/-- The block at a pointer is the used cell of that pointer. -/
theorem HeapInv.liveBlock_of_filter (hinv : HeapInv lo hi h cells) {d : Cell}
    (hd : d ∈ cells.filter Cell.used) : h.liveBlock d.ptr = d :=
  hinv.liveBlock_ptr (List.mem_filter.1 hd).1 (List.mem_filter.1 hd).2

/-- An allocation adds its block. -/
theorem HeapInv.liveBlocks_perm_of_allocate (hinv : HeapInv lo hi h cells)
    (hinv' : HeapInv lo hi h' cells') (hsome : allocate n cells = some (p, cells')) :
    h'.liveBlocks.Perm (h'.liveBlock p :: h.liveBlocks) := by
  obtain ⟨d, -, rfl, -, hperm⟩ := exists_grantedCell hsome
  rw [hinv'.liveBlock_of_filter (hperm.mem_iff.2 List.mem_cons_self)]
  exact (hinv'.liveBlocks_perm.trans hperm).trans (hinv.liveBlocks_perm.symm.cons d)

/-- So do two. -/
theorem BitmapHeld.liveBlocks_perm (hh : BitmapHeld lo hi n cells b cells₁ q cells₂ h')
    (hinv : HeapInv lo hi h cells) :
    h'.liveBlocks.Perm (h'.liveBlock q :: h'.liveBlock b :: h.liveBlocks) := by
  obtain ⟨d, -, rfl, -, hperm₁⟩ := exists_grantedCell hh.struct
  obtain ⟨e, -, rfl, -, hperm₂⟩ := exists_grantedCell hh.buffer
  have hperm := hperm₂.trans (hperm₁.cons e)
  rw [hh.inv.liveBlock_of_filter (hperm.mem_iff.2 (List.mem_cons_of_mem _ List.mem_cons_self)),
    hh.inv.liveBlock_of_filter (hperm.mem_iff.2 List.mem_cons_self)]
  exact (hh.inv.liveBlocks_perm.trans hperm).trans ((hinv.liveBlocks_perm.symm.cons d).cons e)

end Blocks

section Calls

variable {σ : Type} {w w' : Kernel σ} {lo hi fuel drive out n p : ℕ} {cells : List Cell}

/-- A store through an out pointer misses what is not the caller's. -/
theorem OutPointer.storeLE_apply (hout : OutPointer lo hi w out)
    (hinv : HeapInv lo hi w.heap cells) {m : ByteMem} {x : ℕ} (hx : ¬ Client lo hi cells x) :
    m.storeLE out 4 p x = m x :=
  ByteMem.storeLE_apply_of_not_mem (by
    by_contra hin
    exact hx (hinv.clientByte_iff.1 (hout.client x (by omega) (by omega))))

/-- What is stored through an out pointer keeps the cells, and is read back. -/
theorem OutPointer.store (hout : OutPointer lo hi w out) (hinv : HeapInv lo hi w.heap cells)
    {h : Heap} {cells' : List Cell} (hinv' : HeapInv lo hi h cells')
    (hkeep : ∀ x, Client lo hi cells x → Client lo hi cells' x) (hp : p < 2 ^ 32) :
    HeapInv lo hi { h with mem := h.mem.storeLE out 4 p } cells' ∧
      (h.mem.storeLE out 4 p).loadLE out 4 = p := by
  refine ⟨hinv'.store_range (p := out) (n := 4) (fun x hx ↦ ByteMem.storeLE_apply_of_not_mem hx)
    fun x h₁ h₂ ↦ hkeep x (hinv.clientByte_iff.1 (hout.client x h₁ h₂)), ?_⟩
  rw [ByteMem.loadLE_storeLE_self]
  exact Nat.mod_eq_of_lt hp

/-- A block of the heap has a 32-bit address. -/
theorem HeapInv.ptr_lt {h : Heap} {cells' : List Cell} (hinv : HeapInv lo hi h cells)
    (hsome : allocate n cells = some (p, cells')) : p < 2 ^ 32 := by
  have := hinv.ptr_add_le hsome
  have := hinv.stop_le
  have := minAllocSize_le_requestSize n
  omega

/-- `create_super` gives its block back to nobody if the drive is too small. -/
theorem createSuper_runs (hinv : HeapInv lo hi w.heap cells)
    (h : Runs (createSuper drive) w p w') :
    w'.heap.liveBlocks.Perm
      (if p = 0 then w.heap.liveBlocks else w'.heap.liveBlock p :: w.heap.liveBlocks) ∨
    drive < 4 ∧ w.driveSize drive < 32768 ∧
      ∃ q cells', allocate sizeofSuperBlock cells = some (q, cells') := by
  rcases Nat.lt_or_ge drive 4 with hdrive | hdrive
  · rcases createSuper_spec hinv hdrive with ⟨-, hrun⟩ |
      ⟨q, cells', h', halloc, hinv', -, ⟨hsmall, -⟩ | ⟨spb, -, hrun, -⟩⟩
    · obtain ⟨rfl, rfl⟩ := h.unique hrun
      rw [if_pos rfl]
      exact Or.inl (.refl _)
    · exact Or.inr ⟨hdrive, sectorsPerBlock_eq_none.1 hsmall, q, cells', halloc⟩
    · obtain ⟨rfl, rfl⟩ := h.unique hrun
      have := hinv.ptr_ne_zero halloc
      rw [if_neg (by omega)]
      exact Or.inl (hinv.liveBlocks_perm_of_allocate hinv' halloc)
  · rw [createSuper, if_pos (by omega)] at h
    obtain ⟨rfl, rfl⟩ := runs_pure.1 h
    rw [if_pos rfl]
    exact Or.inl (.refl _)

/-- On a drive that is too small `create_super` fails with one block more than before. -/
theorem createSuper_leaks (hinv : HeapInv lo hi w.heap cells) (hdrive : drive < 4)
    (hsmall : w.driveSize drive < 32768) {cells' : List Cell}
    (halloc : allocate sizeofSuperBlock cells = some (p, cells')) :
    ∃ w', Runs (createSuper drive) w 0 w' ∧ ¬ w'.heap.liveBlocks.Perm w.heap.liveBlocks := by
  rcases createSuper_spec hinv hdrive with ⟨hnone, -⟩ |
    ⟨q, cells₂, h', halloc', hinv', -, ⟨-, hrun⟩ | ⟨spb, hspb, -⟩⟩
  · rw [halloc] at hnone
    simp at hnone
  · refine ⟨_, hrun, ?_⟩
    intro hperm
    have hlen := (hperm.symm.trans (hinv.liveBlocks_perm_of_allocate hinv' halloc')).length_eq
    simp at hlen
  · rw [sectorsPerBlock_eq_none.2 hsmall] at hspb
    simp at hspb

theorem createBitmap_runs (hinv : HeapInv lo hi w.heap cells)
    (h : Runs (createBitmap drive) w p w') :
    w'.heap.liveBlocks.Perm
      (if p = 0 then w.heap.liveBlocks
        else w'.heap.liveBlock (w'.mem.get p BlockBitmap.bitmap) :: w'.heap.liveBlock p ::
          w.heap.liveBlocks) := by
  rcases Nat.lt_or_ge drive 4 with hdrive | hdrive
  · rcases createBitmap_spec hinv hdrive with ⟨-, h', hrun, hinv', -⟩ |
      ⟨b, cells₁, q, cells₂, h', hrun, hheld, -⟩
    · obtain ⟨rfl, rfl⟩ := h.unique hrun
      rw [if_pos rfl]
      exact hinv.liveBlocks_perm_of_cells hinv'
    · obtain ⟨rfl, rfl⟩ := h.unique hrun
      rw [if_neg hheld.struct_ne,
        show (w.setHeap h').mem.get p BlockBitmap.bitmap = q from hheld.bitmap_eq]
      exact hheld.liveBlocks_perm hinv
  · rw [createBitmap, if_pos (by omega)] at h
    obtain ⟨rfl, rfl⟩ := runs_pure.1 h
    rw [if_pos rfl]

theorem createFile_runs (hinv : HeapInv lo hi w.heap cells)
    (h : Runs (createFile drive) w p w') :
    w'.heap.liveBlocks.Perm
      (if p = 0 then w.heap.liveBlocks else w'.heap.liveBlock p :: w.heap.liveBlocks) := by
  rcases Nat.lt_or_ge drive 4 with hdrive | hdrive
  · rcases createFile_spec hinv hdrive with ⟨-, hrun⟩ | ⟨q, cells', h', halloc, hrun, hinv'⟩
    · obtain ⟨rfl, rfl⟩ := h.unique hrun
      rw [if_pos rfl]
    · obtain ⟨rfl, rfl⟩ := h.unique hrun
      have := hinv.ptr_ne_zero halloc
      rw [if_neg (by omega)]
      exact hinv.liveBlocks_perm_of_allocate hinv' halloc
  · rw [createFile, if_pos (by omega)] at h
    obtain ⟨rfl, rfl⟩ := runs_pure.1 h
    rw [if_pos rfl]

variable [PortBus σ] {r : ℤ}

/-- A format leaves the blocks alone, unless `create_super` does not. -/
theorem FormatOutcome.liveBlocks_perm (hinv : HeapInv lo hi w.heap cells)
    (h : FormatOutcome lo hi fuel drive cells w r w') :
    w'.heap.liveBlocks.Perm w.heap.liveBlocks ∨
    drive < 4 ∧ w.driveSize drive < 32768 ∧
      ∃ q cells', allocate sizeofSuperBlock cells = some (q, cells') := by
  cases h with
  | refused => exact Or.inl (.refl _)
  | tooSmall hdrive hsmall halloc =>
    exact Or.inr ⟨hdrive, sectorsPerBlock_eq_none.1 hsmall, _, _, halloc⟩
  | superNotWritten _ _ _ hend => exact Or.inl (hinv.liveBlocks_perm_of_cells hend.inv)
  | noBitmap _ _ _ hend => exact Or.inl (hinv.liveBlocks_perm_of_cells hend.inv)
  | bitmapWritten _ _ _ _ hend => exact Or.inl (hinv.liveBlocks_perm_of_cells hend.inv)

theorem MountOutcome.liveBlocks_perm (hinv : HeapInv lo hi w.heap cells)
    (hout : OutPointer lo hi w out) (h : MountOutcome lo hi fuel drive out cells w r w') :
    w'.heap.liveBlocks.Perm
      (if r = -1 then w.heap.liveBlocks
        else w'.heap.liveBlock (w'.mem.loadLE out 4) :: w.heap.liveBlocks) := by
  cases h with
  | refused => rw [if_pos rfl]
  | failed _ _ hend =>
    rw [if_pos rfl]
    exact hinv.liveBlocks_perm_of_cells hend.inv
  | @mounted p cells' w₁ w₂ hread _ =>
    obtain ⟨hinv', hload⟩ := hout.store hinv hread.inv (fun x hx ↦ hx.allocate hread.alloc)
      (hinv.ptr_lt hread.alloc)
    rw [if_neg (by decide), mem_setMem]
    rw [show (w₂.mem.storeLE out 4 p).loadLE out 4 = p from hload]
    exact hinv.liveBlocks_perm_of_allocate hinv' hread.alloc

theorem ReadBitmapOutcome.liveBlocks_perm (hinv : HeapInv lo hi w.heap cells)
    (hout : OutPointer lo hi w out) (h : ReadBitmapOutcome lo hi fuel drive out cells w r w') :
    w'.heap.liveBlocks.Perm
      (if r = -1 then w.heap.liveBlocks
        else w'.heap.liveBlock (w'.mem.get (w'.mem.loadLE out 4) BlockBitmap.bitmap) ::
          w'.heap.liveBlock (w'.mem.loadLE out 4) :: w.heap.liveBlocks) := by
  cases h with
  | refused _ hend =>
    rw [if_pos rfl]
    exact hinv.liveBlocks_perm_of_cells hend.inv
  | failed _ _ hend =>
    rw [if_pos rfl]
    exact hinv.liveBlocks_perm_of_cells hend.inv
  | @read b q cells₁ cells₂ w₁ w₂ w₃ hread hcount =>
    have hheld := hread.held.store fun x hx _ ↦ hcount.mem x hx
    rw [← heap_setMem, ← hcount.rest] at hheld
    have hheld' := hheld.store_client (m := w₃.mem.storeLE out 4 b)
      fun x hx ↦ hout.storeLE_apply hinv hx
    obtain ⟨-, hload⟩ := hout.store hinv hheld.inv
      (fun x hx ↦ (hx.allocate hheld.struct).allocate hheld.buffer) (hinv.ptr_lt hheld.struct)
    rw [if_neg (by decide), mem_setMem,
      show (w₃.mem.storeLE out 4 b).loadLE out 4 = b from hload,
      show (w₃.mem.storeLE out 4 b).get b BlockBitmap.bitmap = q from hheld'.bitmap_eq]
    exact hheld'.liveBlocks_perm hinv

/-- **The calls are free of leaks exactly when `create_super` is not handed a drive that is too
small** while the heap has room for a super block. -/
theorem leakFree_iff {base size : ℕ} {mem : ByteMem} (hbase : 0x100000 ≤ base)
    (hend : base + size ≤ 2 ^ 32) (hacc : RegionAccepted base size)
    (hreach : HeapReach base size mem w.heap) :
    LeakFree (alignedStart base) (base + size) fuel drive w ↔
      ¬ (drive < 4 ∧ w.driveSize drive < 32768 ∧
        ∃ p h', kmalloc sizeofSuperBlock w.heap = some (p, h') ∧ p ≠ 0) := by
  obtain ⟨⟨cells, hinv⟩, -⟩ := hreach.exists_inv hbase hend hacc
  rw [← hinv.allocate_iff_kmalloc]
  constructor
  · rintro hfree ⟨hdrive, hsmall, p, cells', halloc⟩
    obtain ⟨w', hrun, hleak⟩ := createSuper_leaks hinv hdrive hsmall halloc
    exact hleak (hfree.createSuper 0 w' hrun)
  · intro hlarge
    exact ⟨fun r w' h ↦ ((elixirFormat_runs hinv h).liveBlocks_perm hinv).resolve_right hlarge,
      fun p w' h ↦ (createSuper_runs hinv h).resolve_right hlarge,
      fun p w' h ↦ createBitmap_runs hinv h,
      fun p w' h ↦ createFile_runs hinv h,
      fun out r w' hout h ↦ (elixirMount_runs hinv h).liveBlocks_perm hinv hout,
      fun out r w' hout h ↦ (elixirReadBitmap_runs hinv h).liveBlocks_perm hinv hout⟩

end Calls

/-- The calls on a large enough blank disk are. -/
theorem leakFree_blank :
    LeakFree 0x100000 0x110000 1 0 (Kernel.blank (Heap.fresh 0x10000) 40000) :=
  (leakFree_iff (w := Kernel.blank (Heap.fresh 0x10000) 40000)
    (by decide) (show 0x100000 + 0x10000 ≤ 2 ^ 32 by decide) (by decide) (Heap.fresh_reach _)).2
    fun h ↦ absurd h.2.1 (by decide)

/-- A disk of one hundred sectors is too small for the file system, and trying costs a block. -/
theorem not_leakFree_tooSmall :
    ¬ LeakFree 0x100000 0x110000 1 0 (Kernel.blank (Heap.fresh 0x10000) 100) := by
  intro hfree
  have hinv : HeapInv 0x100000 (0x100000 + 0x10000) (Heap.fresh 0x10000) _ :=
    Heap.fresh_inv (by decide) (by decide)
  obtain ⟨w', hrun, hleak⟩ := createSuper_leaks (w := Kernel.blank (Heap.fresh 0x10000) 100)
    hinv (show 0 < 4 by decide) (by decide) (p := 0x100008) rfl
  exact hleak (hfree.createSuper 0 w' hrun)
