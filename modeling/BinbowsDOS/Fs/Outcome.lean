import BinbowsDOS.Fs.Create

/-!
# The ways a file-system call can end

Each call of the file system that does I/O is taken apart once, for whatever the ports answer:
`FormatOutcome`, `MountOutcome` and `ReadBitmapOutcome` have one constructor for each way out of
the function, with the disk transfers on the way to it and what the heap is like in the end.
What holds of the calls is read off these, with the driver's behaviour on a particular
device put in for the transfers.
-/

open Arena Prog Kernel

/-- Between `w` and `w'` only the heap has changed, and it has the cells `cells` again; the
bytes of their clients are as before. -/
structure HeapRestored {σ : Type} (lo hi : ℕ) (cells : List Cell) (w w' : Kernel σ) : Prop where
  /-- The heap. -/
  inv : HeapInv lo hi w'.heap cells
  /-- Everything else. -/
  rest : w' = w.setHeap w'.heap
  /-- The clients' bytes. -/
  mem : ∀ x, Client lo hi cells x → w'.mem x = w.mem x

/-- `create_super` has made a super block at `p`, in the state `w₁`. -/
structure SuperMade {σ : Type} (lo hi drive : ℕ) (cells : List Cell) (w : Kernel σ) (spb p : ℕ)
    (cells' : List Cell) (w₁ : Kernel σ) : Prop where
  /-- The drive number. -/
  drive_lt : drive < 4
  /-- The drive is large enough. -/
  spb_eq : sectorsPerBlock (w.driveSize drive) = some spb
  /-- The block. -/
  alloc : allocate sizeofSuperBlock cells = some (p, cells')
  /-- The call. -/
  run : createSuper drive w = some (p, w₁)
  /-- What `create_super` changes. -/
  rest : w₁ = w.setHeap w₁.heap
  /-- The heap. -/
  inv : HeapInv lo hi w₁.heap cells'
  /-- The clients' bytes. -/
  mem : ∀ x, Client lo hi cells x → w₁.mem x = w.mem x
  /-- The block's content. -/
  sector : w₁.mem.sectorAt p = superSector (w.driveSize drive) spb

/-- A large enough drive and room for it make a super block. -/
theorem exists_superMade {σ : Type} {w : Kernel σ} {lo hi drive spb p : ℕ}
    {cells cells' : List Cell} (hinv : HeapInv lo hi w.heap cells)
    (hdrive : drive < 4) (hspb : sectorsPerBlock (w.driveSize drive) = some spb)
    (halloc : allocate sizeofSuperBlock cells = some (p, cells')) :
    ∃ w₁, SuperMade lo hi drive cells w spb p cells' w₁ := by
  rcases createSuper_spec hinv hdrive with ⟨hnone, -⟩ |
    ⟨p₁, cells₁, h₁, halloc₁, hinv₁, hmem₁, ⟨hsmall, -⟩ | ⟨spb₁, hspb₁, hrun, hsector⟩⟩
  · rw [halloc] at hnone
    simp at hnone
  · rw [hspb] at hsmall
    simp at hsmall
  · obtain ⟨rfl, rfl⟩ := Prod.mk.inj (Option.some.inj (halloc.symm.trans halloc₁))
    obtain rfl := Option.some.inj (hspb.symm.trans hspb₁)
    exact ⟨_, hdrive, hspb, halloc, hrun, rfl, hinv₁, hmem₁, hsector⟩

/-- `create_bitmap` has made a bitmap at `b` with its buffer at `q`, in the state `w₃`. -/
structure BitmapMade {σ : Type} (lo hi drive : ℕ) (cells : List Cell) (w : Kernel σ) (b : ℕ)
    (cells₁ : List Cell) (q : ℕ) (cells₂ : List Cell) (w₃ : Kernel σ) : Prop where
  /-- The call. -/
  run : createBitmap drive w = some (b, w₃)
  /-- What `create_bitmap` changes. -/
  rest : w₃ = w.setHeap w₃.heap
  /-- The blocks. -/
  held : BitmapHeld lo hi (bitmapBytes (w.driveSize drive)) cells b cells₁ q cells₂ w₃.heap
  /-- The clients' bytes. -/
  mem : ∀ x, Client lo hi cells x → w₃.mem x = w.mem x
  /-- The size in the struct. -/
  total_eq : w₃.mem.get b BlockBitmap.total = w.driveSize drive
  /-- The buffer is clear. -/
  zero : ∀ i < bitmapBytes (w.driveSize drive), w₃.mem (q + i) = 0

section Unchanged

variable {σ : Type} {w w' : Kernel σ} {lo hi drive spb p b q : ℕ}
  {cells cells₁ cells₂ : List Cell}

theorem HeapRestored.io_eq (h : HeapRestored lo hi cells w w') : w'.io = w.io := by
  rw [h.rest]
  rfl

theorem SuperMade.io_eq (h : SuperMade lo hi drive cells w spb p cells₁ w') : w'.io = w.io := by
  rw [h.rest]
  rfl

theorem SuperMade.ideDevices_eq (h : SuperMade lo hi drive cells w spb p cells₁ w') :
    w'.ideDevices = w.ideDevices := by
  rw [h.rest]
  rfl

theorem SuperMade.channels_eq (h : SuperMade lo hi drive cells w spb p cells₁ w') :
    w'.channels = w.channels := by
  rw [h.rest]
  rfl

theorem BitmapMade.io_eq (h : BitmapMade lo hi drive cells w b cells₁ q cells₂ w') :
    w'.io = w.io := by
  rw [h.rest]
  rfl

end Unchanged

section Format

variable {σ : Type} [PortBus σ] {w w' : Kernel σ} {lo hi fuel drive : ℕ} {cells : List Cell} {r : ℤ}

/-- The ways out of `elixir_format`. -/
inductive FormatOutcome (lo hi fuel drive : ℕ) (cells : List Cell) (w : Kernel σ) :
    ℤ → Kernel σ → Prop
  /-- There is no such drive, or no room for the super block. -/
  | refused (hrefused : 4 ≤ drive ∨ allocate sizeofSuperBlock cells = none) :
    FormatOutcome lo hi fuel drive cells w (-1) w
  /-- The drive is too small. The block allocated for the super block stays behind. -/
  | tooSmall {p : ℕ} {cells' : List Cell} {h' : Heap} (hdrive : drive < 4)
    (hsmall : sectorsPerBlock (w.driveSize drive) = none)
    (halloc : allocate sizeofSuperBlock cells = some (p, cells')) (hinv : HeapInv lo hi h' cells') :
    FormatOutcome lo hi fuel drive cells w (-1) (w.setHeap h')
  /-- The super block could not be written. -/
  | superNotWritten {spb p err : ℕ} {cells' : List Cell} {w₁ w₂ w' : Kernel σ}
    (hsuper : SuperMade lo hi drive cells w spb p cells' w₁)
    (hwrite : Runs (ideWriteSectorsCounted fuel drive elixirSuperblockLba sizeofSuperBlock p)
      w₁ err w₂)
    (herr : err ≠ 0) (hend : HeapRestored lo hi cells w₂ w') :
    FormatOutcome lo hi fuel drive cells w (-1) w'
  /-- The super block was written, but there was no room for the bitmap. -/
  | noBitmap {spb p : ℕ} {cells' : List Cell} {w₁ w₂ w' : Kernel σ}
    (hsuper : SuperMade lo hi drive cells w spb p cells' w₁)
    (hwrite : Runs (ideWriteSectorsCounted fuel drive elixirSuperblockLba sizeofSuperBlock p)
      w₁ 0 w₂)
    (hrefused : BitmapRefused (bitmapBytes (w.driveSize drive)) cells')
    (hend : HeapRestored lo hi cells w₂ w') :
    FormatOutcome lo hi fuel drive cells w (-1) w'
  /-- The bitmap was made, and writing it returned `err`. -/
  | bitmapWritten {spb p b q err : ℕ} {cells' cells₁ cells₂ : List Cell}
    {w₁ w₂ w₃ w₄ w' : Kernel σ} (hsuper : SuperMade lo hi drive cells w spb p cells' w₁)
    (hwrite : Runs (ideWriteSectorsCounted fuel drive elixirSuperblockLba sizeofSuperBlock p)
      w₁ 0 w₂)
    (hbitmap : BitmapMade lo hi drive cells' w₂ b cells₁ q cells₂ w₃)
    (hwrite' : Runs (ideWriteSectorsCounted fuel drive elixirBitmapStartLba
      (bitmapSectors (w.driveSize drive) * 512) q) w₃ err w₄)
    (hend : HeapRestored lo hi cells w₄ w') :
    FormatOutcome lo hi fuel drive cells w (if err ≠ 0 then -1 else 0) w'

/-- A format that returned 0 has made a super block. -/
theorem FormatOutcome.exists_superMade (h : FormatOutcome lo hi fuel drive cells w r w')
    (hr : r = 0) : ∃ spb p cells' w₁, SuperMade lo hi drive cells w spb p cells' w₁ := by
  cases h with
  | bitmapWritten hsuper => exact ⟨_, _, _, _, hsuper⟩
  | _ => simp at hr

/-- Writing a bitmap is writing its buffer. -/
theorem elixirWriteBitmap_runs {b q n : ℕ} (hb : b ≠ 0) (hq : w.mem.get b BlockBitmap.bitmap = q)
    (hq0 : q ≠ 0) (hn : w.mem.get b BlockBitmap.total = n) :
    Runs (elixirWriteBitmap fuel drive b) w r w' ↔
      ∃ err, Runs (ideWriteSectorsCounted fuel drive elixirBitmapStartLba (bitmapSectors n * 512) q)
        w err w' ∧ r = if err ≠ 0 then -1 else 0 := by
  rw [elixirWriteBitmap, if_neg hb, runs_bind_of_runs (getField_apply ..), hq, if_neg hq0,
    runs_bind_of_runs (getField_apply ..), hn, runs_bind]
  constructor
  · rintro ⟨err, t, hwrite, h⟩
    rcases eq_or_ne err 0 with herr | herr
    · rw [if_neg (by simp [herr])] at h
      obtain ⟨rfl, rfl⟩ := runs_pure.1 h
      exact ⟨err, hwrite, by simp [herr]⟩
    · rw [if_pos herr] at h
      obtain ⟨rfl, rfl⟩ := runs_pure.1 h
      exact ⟨err, hwrite, by simp [herr]⟩
  · rintro ⟨err, hwrite, rfl⟩
    refine ⟨err, w', hwrite, ?_⟩
    rcases eq_or_ne err 0 with herr | herr
    · rw [if_neg (by simp [herr]), if_neg (by simp [herr])]
      exact runs_pure.2 ⟨rfl, rfl⟩
    · rw [if_pos herr, if_pos herr]
      exact runs_pure.2 ⟨rfl, rfl⟩

/-- The device table is no part of the heap or the ports. -/
theorem Kernel.driveSize_eq {σ : Type} {w w' : Kernel σ} (h : w'.ideDevices = w.ideDevices)
    (drive : ℕ) : w'.driveSize drive = w.driveSize drive := by
  rw [driveSize, h]
  rfl

section Continue

variable {spb p b q err : ℕ} {cells' cells₁ cells₂ : List Cell} {w₁ w₂ w₃ w₄ : Kernel σ}

/-- The heap as a write of the super block leaves it. -/
theorem SuperMade.inv_written (hs : SuperMade lo hi drive cells w spb p cells' w₁) {lba n : ℕ}
    (hwrite : Runs (ideWriteSectorsCounted fuel drive lba n p) w₁ err w₂) :
    HeapInv lo hi w₂.heap cells' ∧ w₂.driveSize drive = w.driveSize drive := by
  have hports := ideWriteSectorsCounted_respects portAccess_portsOnly _ _ _ _ _ _ _ _ hwrite
  exact ⟨hports.heap_eq ▸ hs.inv, driveSize_eq (hports.ideDevices_eq.trans hs.ideDevices_eq) drive⟩

/-- A format whose super block is not written fails. -/
theorem elixirFormat_of_superNotWritten (hinv : HeapInv lo hi w.heap cells)
    (hs : SuperMade lo hi drive cells w spb p cells' w₁)
    (hwrite : Runs (ideWriteSectorsCounted fuel drive elixirSuperblockLba sizeofSuperBlock p)
      w₁ err w₂) (herr : err ≠ 0) :
    ∃ w', Runs (elixirFormat fuel drive) w (-1) w' ∧ HeapRestored lo hi cells w₂ w' := by
  obtain ⟨hinv₂, -⟩ := hs.inv_written hwrite
  have hp := hinv.ptr_ne_zero hs.alloc
  obtain ⟨h₃, hfree, hinv₃, hmem₃⟩ := kfreeK_of_allocate hinv₂ hinv.tiles hinv.coalesced hs.alloc
  refine ⟨w₂.setHeap h₃, ?_, hinv₃, rfl, fun x hx ↦ hmem₃ x (hx.allocate hs.alloc)⟩
  rw [elixirFormat, runs_bind_of_runs hs.run, if_neg (by omega), runs_bind_of_runs hwrite,
    if_pos herr, runs_bind_of_runs hfree]
  exact runs_pure.2 ⟨rfl, rfl⟩

/-- A format whose super block is written, but that has no room for the bitmap, fails. -/
theorem elixirFormat_of_refused (hinv : HeapInv lo hi w.heap cells)
    (hs : SuperMade lo hi drive cells w spb p cells' w₁)
    (hwrite : Runs (ideWriteSectorsCounted fuel drive elixirSuperblockLba sizeofSuperBlock p)
      w₁ 0 w₂) (hrefused : BitmapRefused (bitmapBytes (w.driveSize drive)) cells') :
    ∃ w', Runs (elixirFormat fuel drive) w (-1) w' ∧ HeapRestored lo hi cells w₂ w' := by
  obtain ⟨hinv₂, hsize⟩ := hs.inv_written hwrite
  have hp := hinv.ptr_ne_zero hs.alloc
  rcases createBitmap_spec hinv₂ hs.drive_lt with ⟨-, h₃, hrun₃, hinv₃, hmem₃⟩ |
    ⟨b, cells₁, q, cells₂, h₃, hrun₃, hheld, -⟩
  · obtain ⟨h₄, hfree, hinv₄, hmem₄⟩ := kfreeK_of_allocate (w := w₂.setHeap h₃) hinv₃ hinv.tiles
      hinv.coalesced hs.alloc
    refine ⟨w₂.setHeap h₄, ?_, hinv₄, rfl, ?_⟩
    · rw [elixirFormat, runs_bind_of_runs hs.run, if_neg (by omega), runs_bind_of_runs hwrite,
        if_neg (by simp), runs_bind_of_runs hrun₃, if_pos rfl, runs_bind_of_runs hfree]
      exact runs_pure.2 ⟨rfl, rfl⟩
    · intro x hx
      exact (hmem₄ x (hx.allocate hs.alloc)).trans (hmem₃ x (hx.allocate hs.alloc))
  · rw [hsize] at hheld
    exact absurd hrefused hheld.toBitmapAllocated.not_refused

/-- A format that writes the bitmap returns what came of that, with everything freed. -/
theorem elixirFormat_of_written (hinv : HeapInv lo hi w.heap cells)
    (hs : SuperMade lo hi drive cells w spb p cells' w₁)
    (hwrite : Runs (ideWriteSectorsCounted fuel drive elixirSuperblockLba sizeofSuperBlock p)
      w₁ 0 w₂)
    (hb : BitmapMade lo hi drive cells' w₂ b cells₁ q cells₂ w₃)
    (hwrite' : Runs (ideWriteSectorsCounted fuel drive elixirBitmapStartLba
      (bitmapSectors (w.driveSize drive) * 512) q) w₃ err w₄) :
    ∃ w', Runs (elixirFormat fuel drive) w (if err ≠ 0 then -1 else 0) w' ∧
      HeapRestored lo hi cells w₄ w' := by
  obtain ⟨-, hsize⟩ := hs.inv_written hwrite
  have hp := hinv.ptr_ne_zero hs.alloc
  have hports := ideWriteSectorsCounted_respects portAccess_portsOnly _ _ _ _ _ _ _ _ hwrite'
  have hheld : BitmapHeld lo hi (bitmapBytes (w₂.driveSize drive)) cells' b cells₁ q cells₂
      w₄.heap := hports.heap_eq ▸ hb.held
  -- both ways out free the bitmap and then the super block
  obtain ⟨h₅, hfree₅, hinv₅, hmem₅⟩ := freeBitmap_spec hheld
  obtain ⟨h₆, hfree₆, hinv₆, hmem₆⟩ := kfreeK_of_allocate (w := w₄.setHeap h₅) hinv₅ hinv.tiles
    hinv.coalesced hs.alloc
  have hbitmap : Runs (elixirWriteBitmap fuel drive b) w₃ (if err ≠ 0 then -1 else 0) w₄ :=
    (elixirWriteBitmap_runs hb.held.struct_ne hb.held.bitmap_eq hb.held.buffer_ne
      (hb.total_eq.trans hsize)).2 ⟨err, hwrite', rfl⟩
  refine ⟨w₄.setHeap h₆, ?_, hinv₆, rfl, ?_⟩
  · rw [elixirFormat, runs_bind_of_runs hs.run, if_neg (by omega), runs_bind_of_runs hwrite,
      if_neg (by simp), runs_bind_of_runs hb.run, if_neg hb.held.struct_ne,
      runs_bind_of_runs hbitmap]
    rcases eq_or_ne err 0 with rfl | herr
    · rw [if_neg (by decide), runs_bind_of_runs hfree₅, runs_bind_of_runs hfree₆]
      exact runs_pure.2 ⟨rfl, rfl⟩
    · rw [if_pos herr, if_pos (by decide), runs_bind_of_runs hfree₅, runs_bind_of_runs hfree₆]
      exact runs_pure.2 ⟨rfl, rfl⟩
  · intro x hx
    exact (hmem₆ x (hx.allocate hs.alloc)).trans (hmem₅ x (hx.allocate hs.alloc))

end Continue

/-- **`elixir_format`** ends in one of its ways. -/
theorem elixirFormat_runs (hinv : HeapInv lo hi w.heap cells)
    (h : Runs (elixirFormat fuel drive) w r w') :
    FormatOutcome lo hi fuel drive cells w r w' := by
  rcases Nat.lt_or_ge drive 4 with hdrive | hdrive
  · rcases createSuper_spec hinv hdrive with ⟨hnone, hrun⟩ |
      ⟨p, cells', h₁, halloc, hinv₁, hmem₁, ⟨hsmall, hrun⟩ | ⟨spb, hspb, hrun, hsector⟩⟩
    · rw [elixirFormat, runs_bind_of_runs hrun, if_pos rfl] at h
      obtain ⟨rfl, rfl⟩ := runs_pure.1 h
      exact .refused (Or.inr hnone)
    · rw [elixirFormat, runs_bind_of_runs hrun, if_pos rfl] at h
      obtain ⟨rfl, rfl⟩ := runs_pure.1 h
      exact .tooSmall hdrive hsmall halloc hinv₁
    · have hs : SuperMade lo hi drive cells w spb p cells' (w.setHeap h₁) :=
        ⟨hdrive, hspb, halloc, hrun, rfl, hinv₁, hmem₁, hsector⟩
      have hp := hinv.ptr_ne_zero halloc
      have hformat := h
      -- the run is followed as far as the next transfer, and is then one of the three above
      rw [elixirFormat, runs_bind_of_runs hrun, if_neg (by omega)] at h
      obtain ⟨err, w₂, hwrite, h⟩ := runs_bind.1 h
      rcases eq_or_ne err 0 with rfl | herr
      · obtain ⟨hinv₂, hsize⟩ := hs.inv_written hwrite
        rcases createBitmap_spec hinv₂ hdrive with ⟨hzero | hrefused, -⟩ |
          ⟨b, cells₁, q, cells₂, h₃, hrun₃, hheld, hmem₃, htotal, hzero⟩
        · rw [hsize] at hzero
          simp [sectorsPerBlock, hzero] at hspb
        · rw [hsize] at hrefused
          obtain ⟨w'', hrun', hend⟩ := elixirFormat_of_refused hinv hs hwrite hrefused
          obtain ⟨rfl, rfl⟩ := hformat.unique hrun'
          exact .noBitmap hs hwrite hrefused hend
        · have hb : BitmapMade lo hi drive cells' w₂ b cells₁ q cells₂ (w₂.setHeap h₃) :=
            ⟨hrun₃, rfl, hheld, hmem₃, htotal,
              fun i hi ↦ hzero i (hi.trans_le (bitmapBytes_le_requestSize _))⟩
          rw [if_neg (by simp), runs_bind_of_runs hrun₃, if_neg hheld.struct_ne] at h
          obtain ⟨_, w₄, hwriteBitmap, -⟩ := runs_bind.1 h
          obtain ⟨err, hwrite', -⟩ := (elixirWriteBitmap_runs (w := w₂.setHeap h₃)
            hheld.struct_ne hheld.bitmap_eq hheld.buffer_ne (htotal.trans hsize)).1 hwriteBitmap
          obtain ⟨w'', hrun', hend⟩ := elixirFormat_of_written hinv hs hwrite hb hwrite'
          obtain ⟨rfl, rfl⟩ := hformat.unique hrun'
          exact .bitmapWritten hs hwrite hb hwrite' hend
      · obtain ⟨w'', hrun', hend⟩ := elixirFormat_of_superNotWritten hinv hs hwrite herr
        obtain ⟨rfl, rfl⟩ := hformat.unique hrun'
        exact .superNotWritten hs hwrite herr hend
  · have hrun : createSuper drive w = some (0, w) := by
      rw [createSuper, if_pos hdrive]
      rfl
    rw [elixirFormat, runs_bind_of_runs hrun, if_pos rfl] at h
    obtain ⟨rfl, rfl⟩ := runs_pure.1 h
    exact .refused (Or.inl hdrive)

end Format

/-! ### `elixir_mount` -/

/-- `elixir_mount` has read the super block of a drive into a block at `p`, and the read
returned `err`. -/
structure SuperRead {σ : Type} [PortBus σ] (lo hi fuel drive : ℕ) (cells : List Cell)
    (w : Kernel σ) (p : ℕ) (cells' : List Cell) (w₁ : Kernel σ) (err : ℕ) (w₂ : Kernel σ) :
    Prop where
  /-- The drive number. -/
  drive_lt : drive < 4
  /-- The block. -/
  alloc : allocate sizeofSuperBlock cells = some (p, cells')
  /-- What the allocation changes. -/
  rest : w₁ = w.setHeap w₁.heap
  /-- The clients' bytes. -/
  mem : ∀ x, Client lo hi cells x → w₁.mem x = w.mem x
  /-- The read. -/
  read : Runs (ideReadSectors fuel drive 1 elixirSuperblockLba p) w₁ err w₂
  /-- The heap after it. -/
  inv : HeapInv lo hi w₂.heap cells'

section Mount

variable {σ : Type} [PortBus σ] {w w' : Kernel σ} {lo hi fuel drive out : ℕ} {cells : List Cell}
  {r : ℤ}

/-- The ways out of `elixir_mount`. -/
inductive MountOutcome (lo hi fuel drive out : ℕ) (cells : List Cell) (w : Kernel σ) :
    ℤ → Kernel σ → Prop
  /-- There is no such drive, or no room for the super block. -/
  | refused (hrefused : 4 ≤ drive ∨ allocate sizeofSuperBlock cells = none) :
    MountOutcome lo hi fuel drive out cells w (-1) w
  /-- The read failed, or what was read is no super block. -/
  | failed {p err : ℕ} {cells' : List Cell} {w₁ w₂ w' : Kernel σ}
    (hread : SuperRead lo hi fuel drive cells w p cells' w₁ err w₂)
    (hwhy : err ≠ 0 ∨ w₂.mem.get p sMagic ≠ elixirMagic) (hend : HeapRestored lo hi cells w₂ w') :
    MountOutcome lo hi fuel drive out cells w (-1) w'
  /-- The super block was read and handed out. -/
  | mounted {p : ℕ} {cells' : List Cell} {w₁ w₂ : Kernel σ}
    (hread : SuperRead lo hi fuel drive cells w p cells' w₁ 0 w₂)
    (hmagic : w₂.mem.get p sMagic = elixirMagic) :
    MountOutcome lo hi fuel drive out cells w 0 (w₂.setMem (w₂.mem.storeLE out 4 p))

/-- A read into a block of the heap keeps the cells. -/
theorem HeapInv.readSectors {w₁ w₂ : Kernel σ} {lba n k p err : ℕ} {cells' : List Cell}
    (hinv : HeapInv lo hi w₁.heap cells') (halloc : allocate n cells = some (p, cells'))
    (hk : 512 * k ≤ requestSize n) (hread : Runs (ideReadSectors fuel drive k lba p) w₁ err w₂) :
    HeapInv lo hi w₂.heap cells' := by
  have hbuffer := ideReadSectors_respects _ _ _ _ _ _ _ _ hread
  rw [hbuffer.heap_eq]
  exact hinv.store_range hbuffer.2 fun x h₁ h₂ ↦ client_of_allocate halloc h₁ (by omega)

/-- **`elixir_mount`** ends in one of its ways. -/
theorem elixirMount_runs (hinv : HeapInv lo hi w.heap cells)
    (h : Runs (elixirMount fuel drive out) w r w') :
    MountOutcome lo hi fuel drive out cells w r w' := by
  rw [elixirMount] at h
  rcases Nat.lt_or_ge drive 4 with hdrive | hdrive
  · rw [if_neg (by omega)] at h
    cases halloc : allocate sizeofSuperBlock cells with
    | none =>
      rw [runs_bind_of_runs (kmallocK_of_none hinv halloc), if_pos rfl] at h
      obtain ⟨rfl, rfl⟩ := runs_pure.1 h
      exact .refused (Or.inr halloc)
    | some a =>
      obtain ⟨p, cells'⟩ := a
      obtain ⟨h₁, hcall, hinv₁, hmem₁, -⟩ := kmallocK_of_some hinv halloc
      have hp := hinv.ptr_ne_zero halloc
      rw [runs_bind_of_runs hcall, if_neg (by omega)] at h
      obtain ⟨err, w₂, hread, h⟩ := runs_bind.1 h
      have hinv₂ := HeapInv.readSectors hinv₁ halloc (by decide) hread
      have hsuper : SuperRead lo hi fuel drive cells w p cells' (w.setHeap h₁) err w₂ :=
        ⟨hdrive, halloc, rfl, hmem₁, hread, hinv₂⟩
      obtain ⟨h₃, hfree, hinv₃, hmem₃⟩ := kfreeK_of_allocate hinv₂ hinv.tiles hinv.coalesced halloc
      have hend : HeapRestored lo hi cells w₂ (w₂.setHeap h₃) :=
        ⟨hinv₃, rfl, fun x hx ↦ hmem₃ x (hx.allocate halloc)⟩
      rcases eq_or_ne err 0 with rfl | herr
      · rw [if_neg (by simp), runs_bind_of_runs (getField_apply ..)] at h
        rcases eq_or_ne (w₂.mem.get p sMagic) elixirMagic with hmagic | hmagic
        · rw [if_neg (by simp [hmagic])] at h
          obtain ⟨rfl, rfl⟩ := Prod.mk.inj (Option.some.inj h)
          exact .mounted hsuper hmagic
        · rw [if_pos hmagic, runs_bind_of_runs hfree] at h
          obtain ⟨rfl, rfl⟩ := runs_pure.1 h
          exact .failed hsuper (Or.inr hmagic) hend
      · rw [if_pos herr, runs_bind_of_runs hfree] at h
        obtain ⟨rfl, rfl⟩ := runs_pure.1 h
        exact .failed hsuper (Or.inl herr) hend
  · rw [if_pos (by omega)] at h
    obtain ⟨rfl, rfl⟩ := runs_pure.1 h
    exact .refused (Or.inl (by omega))

end Mount

/-! ### `elixir_read_bitmap` -/

/-- The number of set bits among the `n` bits of a buffer from `i` on. -/
def ByteMem.setBits (m : ByteMem) (buf i n : ℕ) : ℕ := (List.range' i n).countP (m.bit buf)

/-- The fields of the `block_bitmap` at `b` have been filled in for a drive of `size` sectors. -/
structure BitmapCounted {σ : Type} (size b q : ℕ) (w w' : Kernel σ) : Prop where
  /-- Only memory changes. -/
  rest : w' = w.setMem w'.mem
  /-- It changes in the struct, before its pointer. -/
  mem : ∀ x, x < b ∨ b + 12 ≤ x → w'.mem x = w.mem x
  /-- `total` -/
  total_eq : w'.mem.get b BlockBitmap.total = size
  /-- `used_count` -/
  used_eq : w'.mem.get b BlockBitmap.usedCount = w.mem.setBits q 0 size
  /-- `free_count` -/
  free_eq : w'.mem.get b BlockBitmap.freeCount = size - w.mem.setBits q 0 size

section CountLoop

variable {σ : Type} {w : Kernel σ} {lo hi out bb buf i n used free : ℕ} {cells : List Cell}

theorem ByteMem.setBits_succ (m : ByteMem) (buf i n : ℕ) :
    m.setBits buf i (n + 1) = m.setBits buf (i + 1) n + if m.bit buf i then 1 else 0 := by
  rw [setBits, List.range'_succ, List.countP_cons, setBits]

theorem ByteMem.setBits_le (m : ByteMem) (buf i n : ℕ) : m.setBits buf i n ≤ n :=
  (List.countP_le_length ..).trans_eq List.length_range'

theorem ByteMem.setBits_congr {m m' : ByteMem} {buf' : ℕ}
    (h : ∀ j, i ≤ j → j < i + n → m.bit buf j = m'.bit buf' j) :
    m.setBits buf i n = m'.setBits buf' i n :=
  List.countP_congr fun j hj ↦ by
    rw [h j (List.mem_range'_1.1 hj).1 (List.mem_range'_1.1 hj).2]

/-- The counting loop adds up the bits, and changes the two counters only. -/
theorem countLoop_spec (hbuf : w.mem.get bb BlockBitmap.bitmap = buf)
    (hout : ∀ j, i ≤ j → j < i + n → buf + j / 8 < bb ∨ bb + 8 ≤ buf + j / 8)
    (hused : w.mem.get bb BlockBitmap.usedCount = used) (hused' : used + n < 2 ^ 32)
    (hfree : w.mem.get bb BlockBitmap.freeCount = free) (hfree' : free + n < 2 ^ 32) :
    ∃ m', countLoop bb i n w = some ((), w.setMem m') ∧
      (∀ x, x < bb ∨ bb + 8 ≤ x → m' x = w.mem x) ∧
      m'.get bb BlockBitmap.usedCount = used + w.mem.setBits buf i n ∧
      m'.get bb BlockBitmap.freeCount = free + (n - w.mem.setBits buf i n) := by
  induction n generalizing i w used free with
  | zero => exact ⟨w.mem, rfl, fun _ _ ↦ rfl, hused, hfree⟩
  | succ n ih =>
    have hcount : ∀ f : RecordField, f.width = 4 → ∀ v, v < 2 ^ 32 →
        (w.mem.set bb f (u32 v)).get bb f = v := by
      intro f hf v hv
      rw [ByteMem.get_set_self, hf, u32_of_lt hv]
      exact Nat.mod_eq_of_lt hv
    have hle := w.mem.setBits_le buf (i + 1) n
    -- the rest of the loop sees the same bits
    have hrest : ∀ f : RecordField, f.off + f.width ≤ 8 → ∀ v,
        (w.mem.set bb f v).setBits buf (i + 1) n = w.mem.setBits buf (i + 1) n := fun f hf v ↦
      ByteMem.setBits_congr fun j h₁ h₂ ↦ by
        rw [ByteMem.bit, ByteMem.bit,
          ByteMem.set_apply_of_not_mem hf (hout j (by omega) (by omega))]
    rw [ByteMem.setBits_succ, countLoop, bind_apply_of_runs (getField_apply ..), hbuf,
      bind_apply_of_runs get_apply]
    rcases eq_or_ne (w.mem.bit buf i) true with hbit | hbit
    · obtain ⟨m', hrun, hmem, hu, hf⟩ := ih (i := i + 1)
        (w := w.setMem (w.mem.set bb BlockBitmap.usedCount (u32 (used + 1))))
        ((ByteMem.get_set_of_disjoint (by decide)).trans hbuf)
        (fun j h₁ h₂ ↦ hout j (by omega) (by omega))
        (hcount BlockBitmap.usedCount rfl _ (by omega))
        (by omega) ((ByteMem.get_set_of_disjoint (by decide)).trans hfree) (by omega)
      refine ⟨m', ?_, fun x hx ↦ (hmem x hx).trans
        (ByteMem.set_apply_of_not_mem (by decide) hx), ?_, ?_⟩
      · rw [if_pos hbit, bind_apply_of_runs (getField_apply ..), hused]
        exact hrun
      · rw [hu, if_pos hbit, mem_setMem, hrest _ (by decide)]
        omega
      · rw [hf, if_pos hbit, mem_setMem, hrest _ (by decide)]
        omega
    · obtain ⟨m', hrun, hmem, hu, hf⟩ := ih (i := i + 1)
        (w := w.setMem (w.mem.set bb BlockBitmap.freeCount (u32 (free + 1))))
        ((ByteMem.get_set_of_disjoint (by decide)).trans hbuf)
        (fun j h₁ h₂ ↦ hout j (by omega) (by omega))
        ((ByteMem.get_set_of_disjoint (by decide)).trans hused) (by omega)
        (hcount BlockBitmap.freeCount rfl _ (by omega))
        (by omega)
      refine ⟨m', ?_, fun x hx ↦ (hmem x hx).trans
        (ByteMem.set_apply_of_not_mem (by decide) hx), ?_, ?_⟩
      · rw [if_neg hbit, bind_apply_of_runs (getField_apply ..), hfree]
        exact hrun
      · rw [hu, if_neg hbit, mem_setMem, hrest _ (by decide)]
        omega
      · rw [hf, if_neg hbit, mem_setMem, hrest _ (by decide)]
        omega

/-- A bitmap that was not turned down holds all bits of the drive. -/
theorem size_le_of_bitmapSectors {size : ℕ} (hsize : size < 2 ^ 32)
    (h : bitmapSectors size * 512 ≠ 0) : size ≤ 8 * (bitmapSectors size * 512) := by
  simp only [bitmapSectors, bitmapBytes, u32] at *
  omega

theorem bitmapSectors_le (size : ℕ) : bitmapSectors size * 512 ≤ 2 ^ 29 := by
  rw [bitmapSectors, bitmapBytes, u32]
  omega

/-- The end of `elixir_read_bitmap`. -/
theorem countBitmap_apply {size b q n : ℕ} {cells₁ cells₂ : List Cell}
    (hh : BitmapHeld lo hi n cells b cells₁ q cells₂ w.heap) (hn : n ≤ 2 ^ 32 - 8)
    (hsize : size ≤ 8 * n) (hsize' : size < 2 ^ 32) :
    ∃ w₃, BitmapCounted size b q w w₃ ∧
      (do
        setField b BlockBitmap.total size
        setField b BlockBitmap.freeCount 0
        setField b BlockBitmap.usedCount 0
        countLoop b 0 size
        storePointer out b
        pure 0 : KernelM σ ℤ) w = some (0, w₃.setMem (w₃.mem.storeLE out 4 b)) := by
  have hreq := le_requestSize hn
  have hb := hh.toBitmapAllocated
  have hmem : ∀ x, x < b ∨ b + 12 ≤ x → countersMem b size 0 w.mem x = w.mem x := fun x ↦
    countersMem_apply_of_not_mem
  have htotal : (countersMem b size 0 w.mem).get b BlockBitmap.total = size :=
    total_countersMem hsize'
  have hfree : (countersMem b size 0 w.mem).get b BlockBitmap.freeCount = 0 :=
    freeCount_countersMem (by decide)
  have hused : (countersMem b size 0 w.mem).get b BlockBitmap.usedCount = 0 :=
    usedCount_countersMem
  have hbuf : (countersMem b size 0 w.mem).get b BlockBitmap.bitmap = q :=
    bitmap_countersMem.trans hh.bitmap_eq
  generalize hm : countersMem b size 0 w.mem = m at *
  -- the struct holds no byte of the buffer
  have hout : ∀ j, j < size → q + j / 8 < b ∨ b + 16 ≤ q + j / 8 := by
    intro j hj
    by_contra hin
    have := hb.not_client_buffer hh.tiles₁
      (hb.struct_range (x := q + j / 8) (by omega) (by omega)).1
    omega
  have hbits : m.setBits q 0 size = w.mem.setBits q 0 size :=
    ByteMem.setBits_congr fun j _ hj ↦ by
      rw [ByteMem.bit, ByteMem.bit, hmem _ (by have := hout j (by omega); omega)]
  obtain ⟨m', hrun, hmem', hused', hfree'⟩ := countLoop_spec (w := w.setMem m) (n := size) (i := 0)
    hbuf (fun j _ hj ↦ by have := hout j (by omega); omega) hused (by omega) hfree (by omega)
  refine ⟨w.setMem m', ⟨rfl, fun x hx ↦ (hmem' x (by omega)).trans (hmem x hx), ?_, ?_, ?_⟩, ?_⟩
  · rw [← htotal]
    exact ByteMem.loadLE_congr fun i _ ↦ hmem' _ (Or.inr (by
      show b + 8 ≤ b + 8 + i
      omega))
  · rw [mem_setMem, hused', Nat.zero_add, ← hbits]
    rfl
  · rw [mem_setMem, hfree', Nat.zero_add, ← hbits]
    rfl
  · rw [bind_apply_of_runs (setField_apply ..), bind_apply_of_runs (setField_apply ..),
      bind_apply_of_runs (setField_apply ..)]
    simp only [mem_setMem, setMem_setMem] at hrun ⊢
    rw [countersMem] at hm
    rw [hm, bind_apply_of_runs hrun]
    rfl

end CountLoop

/-- `elixir_read_bitmap` has read the bitmap of a drive into a fresh `block_bitmap` at `b`, and
the read returned `err`. -/
structure BitmapRead {σ : Type} [PortBus σ] (lo hi fuel drive : ℕ) (cells : List Cell)
    (w : Kernel σ) (b : ℕ) (cells₁ : List Cell) (q : ℕ) (cells₂ : List Cell) (w₁ : Kernel σ)
    (err : ℕ) (w₂ : Kernel σ) : Prop where
  /-- The drive number. -/
  drive_lt : drive < 4
  /-- What the allocations change. -/
  rest : w₁ = w.setHeap w₁.heap
  /-- The clients' bytes. -/
  mem : ∀ x, Client lo hi cells x → w₁.mem x = w.mem x
  /-- The buffer is clear before the read. -/
  zero : ∀ i < bitmapSectors (w.driveSize drive) * 512, w₁.mem (q + i) = 0
  /-- The read. -/
  read : Runs (ideReadSectors fuel drive (u8 (bitmapSectors (w.driveSize drive)))
    elixirBitmapStartLba q) w₁ err w₂
  /-- The heap after it. -/
  held : BitmapHeld lo hi (bitmapSectors (w.driveSize drive) * 512) cells b cells₁ q cells₂ w₂.heap

section ReadBitmap

variable {σ : Type} [PortBus σ] {w w' : Kernel σ} {lo hi fuel drive out : ℕ} {cells : List Cell}
  {r : ℤ}

/-- The ways out of `elixir_read_bitmap`. -/
inductive ReadBitmapOutcome (lo hi fuel drive out : ℕ) (cells : List Cell) (w : Kernel σ) :
    ℤ → Kernel σ → Prop
  /-- There is no such drive, or no room for the bitmap. -/
  | refused {w' : Kernel σ}
    (hrefused : 4 ≤ drive ∨ BitmapRefused (bitmapSectors (w.driveSize drive) * 512) cells)
    (hend : HeapRestored lo hi cells w w') : ReadBitmapOutcome lo hi fuel drive out cells w (-1) w'
  /-- The read failed. -/
  | failed {b q err : ℕ} {cells₁ cells₂ : List Cell} {w₁ w₂ w' : Kernel σ}
    (hread : BitmapRead lo hi fuel drive cells w b cells₁ q cells₂ w₁ err w₂) (herr : err ≠ 0)
    (hend : HeapRestored lo hi cells w₂ w') :
    ReadBitmapOutcome lo hi fuel drive out cells w (-1) w'
  /-- The bitmap was read, counted and handed out. -/
  | read {b q : ℕ} {cells₁ cells₂ : List Cell} {w₁ w₂ w₃ : Kernel σ}
    (hread : BitmapRead lo hi fuel drive cells w b cells₁ q cells₂ w₁ 0 w₂)
    (hcount : BitmapCounted (w.driveSize drive) b q w₂ w₃) :
    ReadBitmapOutcome lo hi fuel drive out cells w 0 (w₃.setMem (w₃.mem.storeLE out 4 b))

/-- **`elixir_read_bitmap`** ends in one of its ways. -/
theorem elixirReadBitmap_runs (hinv : HeapInv lo hi w.heap cells)
    (h : Runs (elixirReadBitmap fuel drive out) w r w') :
    ReadBitmapOutcome lo hi fuel drive out cells w r w' := by
  rw [elixirReadBitmap] at h
  rcases Nat.lt_or_ge drive 4 with hdrive | hdrive
  · rw [if_neg (by omega), runs_get_bind] at h
    have hle := bitmapSectors_le (w.driveSize drive)
    rcases allocBitmap_spec hinv (bitmapSectors (w.driveSize drive) * 512) with
      ⟨hrefused, h₁, hcall, hinv₁, hmem₁⟩ | ⟨b, cells₁, q, cells₂, h₁, hcall, hheld, hmem₁, hzero⟩
    · rw [runs_bind_of_runs hcall, if_pos rfl] at h
      obtain ⟨rfl, rfl⟩ := runs_pure.1 h
      exact .refused (Or.inr hrefused) ⟨hinv₁, rfl, hmem₁⟩
    · rw [runs_bind_of_runs hcall, if_neg hheld.struct_ne, runs_bind_of_runs (getField_apply ..),
        show (w.setHeap h₁).mem.get b BlockBitmap.bitmap = q from hheld.bitmap_eq] at h
      obtain ⟨err, w₂, hread, h⟩ := runs_bind.1 h
      have hreq := le_requestSize (n := bitmapSectors (w.driveSize drive) * 512) (by omega)
      have hb := hheld.toBitmapAllocated
      have hbuffer := ideReadSectors_respects _ _ _ _ _ _ _ _ hread
      have hheld₂ : BitmapHeld lo hi (bitmapSectors (w.driveSize drive) * 512) cells b cells₁ q
          cells₂ w₂.heap := by
        rw [hbuffer.heap_eq]
        exact hheld.store fun x _ hx ↦ hbuffer.2 x (by rw [u8]; omega)
      have hread' : BitmapRead lo hi fuel drive cells w b cells₁ q cells₂ (w.setHeap h₁) err w₂ :=
        ⟨hdrive, rfl, hmem₁, fun i hi' ↦ hzero i (by omega), hread, hheld₂⟩
      rcases eq_or_ne err 0 with rfl | herr
      · rw [if_neg (by simp)] at h
        obtain ⟨w₃, hcount, hrun⟩ := countBitmap_apply
          hheld₂ (by omega)
          (size_le_of_bitmapSectors (w.driveSize_lt drive)
            (allocate_eq_some.1 hb.buffer).1)
          (w.driveSize_lt drive)
        obtain ⟨rfl, rfl⟩ := Prod.mk.inj (Option.some.inj (hrun.symm.trans h))
        exact .read hread' hcount
      · obtain ⟨h₃, hfree, hinv₃, hmem₃⟩ := freeBitmap_spec hheld₂
        rw [if_pos herr, runs_bind_of_runs hfree] at h
        obtain ⟨rfl, rfl⟩ := runs_pure.1 h
        exact .failed hread' herr ⟨hinv₃, rfl, hmem₃⟩
  · rw [if_pos (by omega)] at h
    obtain ⟨rfl, rfl⟩ := runs_pure.1 h
    exact .refused (Or.inl (by omega)) ⟨hinv, rfl, fun _ _ ↦ rfl⟩

end ReadBitmap
