import BinbowsDOS.Boot.KernelImage
import BinbowsDOS.Boot.Loader

/-!
# What the loader delivers

The buffer grows from `0x500` towards the boot sector at `0x7C00` and its stack below. The
sixtieth sector, pass 59, is stored over both. Up to there the passes are followed one by one
(`AtPass`): pass `k` reads the sector `sectorOf d k`, which is sector `k + 1` unless the disk has
256 heads, in which case `[heads]` is 0 and only head 0 of each cylinder is read.

Nothing clears `.bss`. Its bytes are zero at the entry of the kernel only as far as sectors were
read for them and hold zeros.
-/

namespace BootDisk

variable {d : BootDisk} {k : ℕ}

/-- The number of heads that the loop steps through. -/
def steppedHeads (d : BootDisk) : ℕ := if d.heads = 0 then 1 else d.heads

/-- The sector that pass `k` reads. -/
def sectorOf (d : BootDisk) (k : ℕ) : ℕ :=
  d.lba ((k + 1) / d.sectorsPerTrack / d.steppedHeads)
    ((k + 1) / d.sectorsPerTrack % d.steppedHeads) ((k + 1) % d.sectorsPerTrack + 1)

/-- The passes up to pass `k` all read a sector. -/
def Reads (d : BootDisk) (k : ℕ) : Prop :=
  2 ≤ d.sectorsPerTrack ∧ ∀ j ≤ k, d.sectorOf j < d.total

theorem steppedHeads_pos (d : BootDisk) : 0 < d.steppedHeads := by
  rw [steppedHeads]
  split <;> omega

theorem steppedHeads_le (d : BootDisk) : d.steppedHeads ≤ d.maxHead + 1 := by
  rw [steppedHeads]
  split
  · omega
  · exact u8_le _

/-- With fewer than 256 heads the sectors are read in order. -/
theorem sectorOf_of_lt (hheads : d.maxHead < 255) : d.sectorOf k = k + 1 := by
  have hstep : d.steppedHeads = d.maxHead + 1 := by
    rw [steppedHeads, heads, u8, Nat.mod_eq_of_lt (by omega), if_neg (by omega)]
  rw [sectorOf, hstep, lba, Nat.add_sub_cancel, Nat.div_add_mod', Nat.div_add_mod']

end BootDisk

namespace Loader

variable {d : BootDisk} {noise : StackNoise} {ram : ByteMem} {m : Loader} {k N x o : ℕ}

/-- The machine before pass `k`. -/
structure AtPass (d : BootDisk) (ram : ByteMem) (k : ℕ) (m : Loader) : Prop where
  /-- The buffer's segment. -/
  es : m.es = 0x0050
  /-- The buffer's offset. -/
  bx : m.bx = 512 * k
  /-- The cylinder. -/
  ch : m.ch = (k + 1) / d.sectorsPerTrack / d.steppedHeads
  /-- The head. -/
  dh : m.dh = (k + 1) / d.sectorsPerTrack % d.steppedHeads
  /-- The sector. -/
  cl : m.cl = (k + 1) % d.sectorsPerTrack + 1

/-- `N` sectors have been stored, and nothing else but the stack has changed. -/
structure Holds (d : BootDisk) (ram : ByteMem) (N : ℕ) (m : Loader) : Prop where
  /-- Where they were stored. -/
  stored : ∀ a, a ∈ m.stored ↔ ∃ j < N, a = 0x500 + 512 * j
  /-- The sectors. -/
  loaded : ∀ j < N, ∀ i < 512, m.mem (0x500 + 512 * j + i) = d.data (512 * d.sectorOf j + i)
  /-- The rest of memory. -/
  rest : ∀ x, (x < 0x500 ∨ 0x500 + 512 * N ≤ x) → (x < 0x7BE8 ∨ 0x7C00 ≤ x) →
    m.mem x = (start d ram).mem x

/-- The stack is not where the first 59 sectors go. -/
theorem Holds.pushes (noise : StackNoise) (h : Holds d ram N m) (hN : N ≤ 59) {n : ℕ}
    (hn : n ≤ 24) : Holds d ram N (m.pushes noise n) := by
  refine ⟨h.stored, fun j hj i hi ↦ ?_, fun x h₁ h₂ ↦ ?_⟩
  · rw [← h.loaded j hj i hi]
    exact ByteMem.blit_apply_of_not_mem (by omega)
  · rw [← h.rest x h₁ h₂]
    exact ByteMem.blit_apply_of_not_mem (by omega)

/-! ### One pass -/

theorem div_mod_succ {n b : ℕ} (hb : 0 < b) :
    (n % b + 1 < b ∧ (n + 1) / b = n / b ∧ (n + 1) % b = n % b + 1) ∨
      (n % b + 1 = b ∧ (n + 1) / b = n / b + 1 ∧ (n + 1) % b = 0) := by
  have hn := Nat.mod_add_div n b
  rcases Nat.lt_or_eq_of_le (Nat.succ_le_of_lt (Nat.mod_lt n hb)) with hlt | heq
  · exact Or.inl ⟨hlt, (Nat.div_mod_unique hb).2 ⟨by omega, hlt⟩⟩
  · refine Or.inr ⟨heq, (Nat.div_mod_unique hb).2 ⟨?_, hb⟩⟩
    rw [Nat.mul_add, Nat.mul_one]
    omega

/-- The registers select the sector of the pass. -/
theorem AtPass.readable_iff (h : AtPass d ram k m) (hspt : 2 ≤ d.sectorsPerTrack) :
    (d.Readable m.cylinder m.dh m.sector ↔ d.sectorOf k < d.total) ∧
      d.lba m.cylinder m.dh m.sector = d.sectorOf k := by
  have hlt := d.sectorsPerTrack_lt
  have hmod := Nat.mod_lt (k + 1) (show 0 < d.sectorsPerTrack by omega)
  have hhead := Nat.mod_lt ((k + 1) / d.sectorsPerTrack) d.steppedHeads_pos
  have hheads := d.steppedHeads_le
  have hcl := h.cl
  have hsector : m.sector = (k + 1) % d.sectorsPerTrack + 1 := by
    rw [sector]
    omega
  have hcylinder : m.cylinder = (k + 1) / d.sectorsPerTrack / d.steppedHeads := by
    rw [cylinder, h.ch]
    omega
  rw [BootDisk.Readable, hsector, hcylinder, h.dh]
  refine ⟨⟨fun hread ↦ hread.2.2.2, fun htotal ↦ ⟨by omega, by omega, by omega, htotal⟩⟩, rfl⟩

/-- CH, DH and CL hold the address of the sector that pass `k` reads. -/
structure Selects (d : BootDisk) (k : ℕ) (m : Loader) : Prop where
  /-- The cylinder. -/
  ch : m.ch = (k + 1) / d.sectorsPerTrack / d.steppedHeads
  /-- The head. -/
  dh : m.dh = (k + 1) / d.sectorsPerTrack % d.steppedHeads
  /-- The sector. -/
  cl : m.cl = (k + 1) % d.sectorsPerTrack + 1

/-- **The step of the CHS address** counts one sector on. It ends the loop if the next cylinder
does not fit into its byte. -/
theorem Selects.nextAddress (h : Selects d k m) (hspt : 2 ≤ d.sectorsPerTrack)
    (hcyl : (k + 1) / d.sectorsPerTrack / d.steppedHeads < 256) :
    ((m.nextAddress d).1 = true ↔ (k + 1 + 1) / d.sectorsPerTrack / d.steppedHeads < 256) ∧
      ((m.nextAddress d).1 = true → Selects d (k + 1) (m.nextAddress d).2) := by
  have hlt := d.sectorsPerTrack_lt
  have hheads : d.heads < 256 := u8_lt _
  have hsteps : d.steppedHeads = if d.heads = 0 then 1 else d.heads := rfl
  have hmod := Nat.mod_lt (k + 1) (show 0 < d.sectorsPerTrack by omega)
  have hhead := Nat.mod_lt ((k + 1) / d.sectorsPerTrack) d.steppedHeads_pos
  have hcl := h.cl
  have hdh := h.dh
  have hch := h.ch
  -- the sector and the head do not wrap
  have hu8cl : u8 (m.cl + 1) = m.cl + 1 := Nat.mod_eq_of_lt (by omega)
  have hu8dh : u8 (m.dh + 1) = m.dh + 1 := by
    refine Nat.mod_eq_of_lt ?_
    split at hsteps <;> omega
  have hcases := nextAddress_cases d m
  rw [hu8cl, hu8dh] at hcases
  rcases div_mod_succ (n := k + 1) (b := d.sectorsPerTrack) (by omega) with
    ⟨hsector, hdiv, hmod'⟩ | ⟨hsector, hdiv, hmod'⟩
  · rcases hcases with ⟨-, heq⟩ | ⟨hover, -⟩ | ⟨hover, -⟩
    · rw [heq, hdiv]
      refine ⟨iff_of_true rfl hcyl, fun _ ↦ ⟨?_, ?_, ?_⟩⟩
      · rw [hdiv, ← hch]
      · rw [hdiv, ← hdh]
      · rw [hmod', ← hcl]
    · omega
    · omega
  · rcases div_mod_succ (n := (k + 1) / d.sectorsPerTrack) d.steppedHeads_pos with
      ⟨hstep, hdiv', hmod''⟩ | ⟨hstep, hdiv', hmod''⟩
    · rcases hcases with ⟨hunder, -⟩ | ⟨-, -, heq⟩ | ⟨-, hover, -⟩
      · omega
      · rw [heq, hdiv, hdiv']
        refine ⟨iff_of_true rfl hcyl, fun _ ↦ ⟨?_, ?_, ?_⟩⟩
        · rw [hdiv, hdiv', ← hch]
        · rw [hdiv, hmod'', ← hdh]
        · rw [hmod']
      · split at hsteps <;> omega
    · rcases hcases with ⟨hunder, -⟩ | ⟨-, hunder, -⟩ | ⟨-, -, heq⟩
      · omega
      · split at hsteps <;> omega
      · rw [heq, hdiv, hdiv', ← hch, decide_eq_true_eq]
        have hnext : u8 (m.ch + 1) ≠ 0 ↔ m.ch + 1 < 256 := by
          rw [u8]
          omega
        refine ⟨hnext, fun hgo ↦ ⟨?_, ?_, ?_⟩⟩
        · rw [hdiv, hdiv', ← hch]
          exact Nat.mod_eq_of_lt (hnext.1 hgo)
        · rw [hdiv, hmod'']
        · rw [hmod']

/-- The step of the CHS address. -/
theorem AtPass.nextAddress (h : AtPass d ram k m) (hspt : 2 ≤ d.sectorsPerTrack) (hk : k ≤ 59)
    (m' : Loader) (hes : m'.es = 0x0050) (hbx : m'.bx = 512 * (k + 1)) (hch : m'.ch = m.ch)
    (hdh : m'.dh = m.dh) (hcl : m'.cl = m.cl) :
    (m'.nextAddress d).1 = true ∧ AtPass d ram (k + 1) (m'.nextAddress d).2 := by
  have hselects : Selects d k m' := ⟨hch.trans h.ch, hdh.trans h.dh, hcl.trans h.cl⟩
  have hcyl : ∀ n ≤ 61, n / d.sectorsPerTrack / d.steppedHeads < 256 := fun n hn ↦
    ((Nat.div_le_self ..).trans (Nat.div_le_self ..)).trans_lt (hn.trans_lt (by decide))
  obtain ⟨hgo, hstep⟩ := hselects.nextAddress hspt (hcyl (k + 1) (by omega))
  have hgo := hgo.2 (hcyl (k + 1 + 1) (by omega))
  obtain ⟨hes', hbx'⟩ := nextAddress_buffer d m'
  have hnext := hstep hgo
  exact ⟨hgo, hes'.trans hes, hbx'.trans hbx, hnext.ch, hnext.dh, hnext.cl⟩

/-- **One pass** that reads its sector. -/
theorem AtPass.pass (noise : StackNoise) (h : AtPass d ram k m)
    (hspt : 2 ≤ d.sectorsPerTrack) (hk : k ≤ 59) (hread : d.sectorOf k < d.total) :
    (m.pass d noise).1 = true ∧ AtPass d ram (k + 1) (m.pass d noise).2 ∧
      (m.pass d noise).2.stored = (0x500 + 512 * k) :: m.stored ∧
      (m.pass d noise).2.mem = (m.mem.blit (0x7C00 - 22) 22 (noise m)).blit (0x500 + 512 * k) 512
        fun i ↦ d.data (512 * d.sectorOf k + i) := by
  obtain ⟨hiff, hlba⟩ := h.readable_iff hspt
  have hbuffer : m.buffer = 0x500 + 512 * k := by
    rw [buffer, h.es, h.bx]
  have hbx : ((m.pushes noise 22).readSector d).bx = 512 * k := h.bx
  have hnext := nextBuffer_of_lt (m := (m.pushes noise 22).readSector d) (by omega)
  rw [pass_of_readable (hiff.2 hread)]
  obtain ⟨hmem, hstored⟩ := nextAddress_frame d ((m.pushes noise 22).readSector d).nextBuffer
  obtain ⟨hgo, hat⟩ := h.nextAddress hspt hk ((m.pushes noise 22).readSector d).nextBuffer
    (by rw [hnext]; exact h.es) (by rw [hnext]; simp only [hbx]; omega)
    (by rw [hnext]; simp only [readSector, pushes]) (by rw [hnext]; simp only [readSector, pushes])
    (by rw [hnext]; simp only [readSector, pushes])
  refine ⟨hgo, hat, ?_, ?_⟩
  · rw [hstored, stored_nextBuffer, ← hbuffer]
    rfl
  · rw [hmem, mem_nextBuffer, ← hbuffer, ← hlba]
    rfl

/-- A pass that reads one of the first 59 sectors. -/
theorem Holds.pass (hh : Holds d ram k m) (h : AtPass d ram k m) (hspt : 2 ≤ d.sectorsPerTrack)
    (hk : k < 59) (hread : d.sectorOf k < d.total) : Holds d ram (k + 1) (m.pass d noise).2 := by
  obtain ⟨-, -, hstored, hmem⟩ := h.pass noise hspt (by omega) hread
  have hpushed := hh.pushes noise (n := 22) (by omega) (by omega)
  refine ⟨fun a ↦ ?_, fun j hj i hi ↦ ?_, fun x h₁ h₂ ↦ ?_⟩
  · rw [hstored, List.mem_cons, hh.stored]
    constructor
    · rintro (rfl | ⟨j, hj, rfl⟩)
      · exact ⟨k, by omega, rfl⟩
      · exact ⟨j, by omega, rfl⟩
    · rintro ⟨j, hj, rfl⟩
      rcases Nat.lt_succ_iff_lt_or_eq.1 hj with hlt | rfl
      · exact Or.inr ⟨j, hlt, rfl⟩
      · exact Or.inl rfl
  · rw [hmem]
    rcases Nat.lt_succ_iff_lt_or_eq.1 hj with hlt | rfl
    · rw [ByteMem.blit_apply_of_not_mem (by omega)]
      exact hpushed.loaded j hlt i hi
    · exact ByteMem.blit_apply_add hi
  · rw [hmem, ByteMem.blit_apply_of_not_mem (by omega)]
    exact hpushed.rest x (by omega) h₂

/-! ### The loop -/

/-- **The first passes.** As long as there is a sector to read, `k` passes lead here. -/
theorem exists_atPass (noise : StackNoise) (ram : ByteMem) (hspt : 2 ≤ d.sectorsPerTrack)
    (hk : k ≤ 59) (hread : ∀ j < k, d.sectorOf j < d.total) :
    ∃ m, AtPass d ram k m ∧ Holds d ram k m ∧
      ∀ fuel, loadLoop d noise (fuel + k) (start d ram) = loadLoop d noise fuel m := by
  induction k with
  | zero =>
    have hlt : (0 + 1) / d.sectorsPerTrack = 0 := Nat.div_eq_of_lt (by omega)
    have hmod : (0 + 1) % d.sectorsPerTrack = 1 := Nat.mod_eq_of_lt (by omega)
    refine ⟨start d ram, ⟨rfl, rfl, ?_, ?_, ?_⟩, ⟨by simp [start], by simp, fun _ _ _ ↦ rfl⟩,
      fun _ ↦ rfl⟩
    · rw [hlt, Nat.zero_div]
      rfl
    · rw [hlt, Nat.zero_mod]
      rfl
    · rw [hmod]
      rfl
  | succ k ih =>
    obtain ⟨m, hat, hholds, hrun⟩ := ih (by omega) fun j hj ↦ hread j (by omega)
    obtain ⟨hgo, hat', -⟩ := hat.pass noise hspt (by omega) (hread k (by omega))
    refine ⟨_, hat', hholds.pass hat hspt (by omega) (hread k (by omega)), fun fuel ↦ ?_⟩
    rw [show fuel + (k + 1) = fuel + 1 + k by omega, hrun, loadLoop, if_pos hgo]

/-- A disk with a sixtieth sector to read is read over the boot sector. -/
theorem stored_of_reads (hreads : d.Reads 59)
    (hrun : loadLoop d noise loadFuel (start d ram) = some m) : 0x7B00 ∈ m.stored := by
  obtain ⟨hspt, hread⟩ := hreads
  obtain ⟨m₁, hat, -, hprefix⟩ := exists_atPass noise ram hspt le_rfl
    fun j hj ↦ hread j hj.le
  have hfuel : loadFuel = (loadFuel - 60) + 1 + 59 := by decide
  rw [hfuel, hprefix, loadLoop] at hrun
  obtain ⟨hgo, -, hstored, -⟩ := hat.pass noise hspt le_rfl (hread 59 le_rfl)
  rw [if_pos hgo] at hrun
  exact stored_loadLoop hrun _ (by rw [hstored]; exact List.mem_cons_self)

/-- Otherwise the loop stops before it, with the sectors read and the rest of memory as it was. -/
theorem holds_of_not_reads (hreads : ¬ d.Reads 59)
    (hrun : loadLoop d noise loadFuel (start d ram) = some m) :
    ∃ N ≤ 59, Holds d ram N m ∧ ∀ k, d.Reads k ↔ k < N := by
  by_cases hspt : 2 ≤ d.sectorsPerTrack
  · -- the first pass without a sector
    have hex : ∃ k, d.total ≤ d.sectorOf k := by
      by_contra hall
      exact hreads ⟨hspt, fun j _ ↦ Nat.lt_of_not_le fun hle ↦ hall ⟨j, hle⟩⟩
    have hread : ∀ j < Nat.find hex, d.sectorOf j < d.total := fun j hj ↦
      Nat.lt_of_not_le (Nat.find_min hex hj)
    have hstop := Nat.find_spec hex
    generalize Nat.find hex = N at hread hstop
    have hN : N ≤ 59 := by
      by_contra hlt
      exact hreads ⟨hspt, fun j hj ↦ hread j (by omega)⟩
    obtain ⟨m₁, hat, hholds, hprefix⟩ := exists_atPass noise ram hspt hN hread
    have hfuel : loadFuel = (loadFuel - 60 + (59 - N)) + 1 + N := by
      rw [loadFuel]
      omega
    have hnot : ¬ d.Readable m₁.cylinder m₁.dh m₁.sector := fun h ↦
      absurd ((hat.readable_iff hspt).1.1 h) hstop.not_gt
    rw [hfuel, hprefix, loadLoop, pass_of_not_readable hnot] at hrun
    obtain rfl := Option.some.inj hrun
    refine ⟨N, hN, hholds.pushes noise hN (by decide), fun k ↦ ⟨fun hk ↦ ?_, fun hk ↦ ?_⟩⟩
    · by_contra hle
      exact absurd (hk.2 N (by omega)) hstop.not_gt
    · exact ⟨hspt, fun j hj ↦ hread j (by omega)⟩
  · have hnot : ¬ d.Readable (start d ram).cylinder (start d ram).dh (start d ram).sector := fun h ↦
      hspt h.2.1
    have hfuel : loadFuel = (loadFuel - 1) + 1 := by decide
    rw [hfuel, loadLoop, pass_of_not_readable hnot] at hrun
    obtain rfl := Option.some.inj hrun
    have hstart : Holds d ram 0 (start d ram) := ⟨by simp [start], by simp, fun _ _ _ ↦ rfl⟩
    exact ⟨0, by decide, hstart.pushes noise (by decide) (by decide), fun k ↦
      ⟨fun hk ↦ absurd hk.1 hspt, fun hk ↦ absurd hk (by omega)⟩⟩

/-! ### The entry of the kernel -/

/-- Where the byte at offset `o` of the kernel comes from. -/
def source (o : ℕ) : ℕ := if o < 122880 then 0x500 + o else 0x100000 + o

theorem mem_enterKernel (noise : StackNoise) (m : Loader) (o : ℕ) :
    (m.enterKernel noise).mem (0x100000 + o) = (m.pushes noise 24).mem (source o) := by
  rw [enterKernel]
  show ByteMem.blit _ (0x90000 - 4) 4 _ _ = _
  rw [ByteMem.blit_apply_of_not_mem (by omega)]
  show repMovsd 0x500 0x00100000 30720 (m.pushes noise 24).mem (0x100000 + o) = _
  rw [repMovsd_apply (by decide), source]
  split_ifs with h₁ h₂ h₂
  · exact congrArg _ (by omega)
  · omega
  · omega
  · rfl

/-- A byte of a sector that was read. -/
theorem Holds.kernel_of_lt (h : Holds d ram N m) (hN : N ≤ 59) (ho : o / 512 < N) :
    (m.enterKernel noise).mem (0x100000 + o) = d.data (512 * d.sectorOf (o / 512) + o % 512) := by
  rw [mem_enterKernel, source, if_pos (by omega),
    ← (h.pushes noise hN le_rfl).loaded _ ho _ (Nat.mod_lt _ (by decide))]
  exact congrArg _ (by omega)

/-- A byte that was not read, outside the boot sector and its stack. -/
theorem Holds.kernel_of_ge (h : Holds d ram N m) (hN : N ≤ 59) (ho : 512 * N ≤ o)
    (hout : o < 0x76E8 ∨ 0x7900 ≤ o) :
    (m.enterKernel noise).mem (0x100000 + o) = ram (source o) := by
  have hsource : source o = 0x500 + o ∧ o < 122880 ∨ source o = 0x100000 + o ∧ 122880 ≤ o := by
    rw [source]
    split <;> omega
  rw [mem_enterKernel, (h.pushes noise hN le_rfl).rest _ (by omega) (by omega)]
  exact ByteMem.blit_apply_of_not_mem (by omega)

end Loader

/-! ### The whole boot -/

/-- The kernel was delivered intact: the loader has kept off itself, and at the entry of the kernel
the `L` bytes behind the boot sector of the disk are at one megabyte and `.bss` is zero. -/
structure DeliveredIntact (d : BootDisk) (L : ℕ) (s : KernelSections) (m : Loader) : Prop where
  /-- No sector was stored over the boot sector or the stack of the load loop. -/
  spared : ∀ a ∈ m.stored, ∀ x, a ≤ x → x < a + 512 → ¬ (0x7C00 - 22 ≤ x ∧ x < 0x7E00)
  /-- The image is there. -/
  image : ∀ i < L, m.mem (0x00100000 + i) = d.data (512 + i)
  /-- So is the zeroed `.bss`. -/
  bss : ∀ x, s.bssStart ≤ x → x < s.bssStart + s.bss → m.mem x = 0

/-- What the disk must be like: the sixtieth read fails, and the sectors read before it cover the
image and `.bss` and hold the image and zeros there. -/
structure FitsLoader (d : BootDisk) (L : ℕ) (s : KernelSections) : Prop where
  /-- The buffer does not reach the boot sector. -/
  short : ¬ d.Reads 59
  /-- The image is read. -/
  image : ∀ i < L, d.Reads (i / 512) ∧
    d.data (512 * d.sectorOf (i / 512) + i % 512) = d.data (512 + i)
  /-- `.bss` is read, and zero on the disk. -/
  bss : ∀ o, s.bssStart ≤ 0x00100000 + o → 0x00100000 + o < s.bssStart + s.bss →
    d.Reads (o / 512) ∧ d.data (512 * d.sectorOf (o / 512) + o % 512) = 0

section Delivery

open Loader

variable {d : BootDisk} {L : ℕ} {s : KernelSections} {noise : StackNoise} {ram : ByteMem}
  {m : Loader}

theorem KernelSections.bssStart_aligned (s : KernelSections) :
    s.bssStart % 4096 = 0 ∧ 0x00100000 ≤ s.bssStart := by
  simp only [bssStart, alignPage, kernelLoadAddress]
  omega

theorem not_deliveredIntact_of_reads (hreads : d.Reads 59)
    (hboot : boot d noise ram = some m) : ¬ DeliveredIntact d L s m := by
  obtain ⟨m₁, hrun, hboot'⟩ := boot_ends d noise ram
  obtain rfl := Option.some.inj (hboot'.symm.trans hboot)
  intro h
  have hstored : 0x7B00 ∈ m₁.stored := stored_of_reads hreads hrun
  exact h.spared 0x7B00 hstored 0x7C00 (by decide) (by decide) (by decide)

theorem FitsLoader.deliveredIntact (h : FitsLoader d L s) (noise : StackNoise) (ram : ByteMem) :
    ∃ m, boot d noise ram = some m ∧ DeliveredIntact d L s m := by
  obtain ⟨m, hrun, hboot⟩ := boot_ends d noise ram
  obtain ⟨N, hN, hholds, hreads⟩ := holds_of_not_reads h.short hrun
  refine ⟨_, hboot, ?_, ?_, ?_⟩
  · intro a ha x h₁ h₂
    obtain ⟨j, hj, rfl⟩ := (hholds.stored a).1 ha
    omega
  · intro i hi
    obtain ⟨hread, hdata⟩ := h.image i hi
    rw [hholds.kernel_of_lt hN ((hreads _).1 hread), hdata]
  · intro x h₁ h₂
    obtain ⟨o, rfl⟩ := Nat.exists_eq_add_of_le (s.bssStart_aligned.2.trans h₁)
    obtain ⟨hread, hdata⟩ := h.bss o h₁ h₂
    rw [hholds.kernel_of_lt hN ((hreads _).1 hread), hdata]

/-- **When the loader delivers the kernel intact**: whatever was in memory before and whatever is
left on the stack, exactly if the disk is as `FitsLoader` says. -/
theorem deliveredIntact_iff (d : BootDisk) (L : ℕ) (s : KernelSections) :
    (∀ noise ram, ∃ m, boot d noise ram = some m ∧ DeliveredIntact d L s m) ↔
      FitsLoader d L s := by
  refine ⟨fun hall ↦ ?_, fun h noise ram ↦ h.deliveredIntact noise ram⟩
  have hshort : ¬ d.Reads 59 := by
    intro hreads
    obtain ⟨m, hboot, hintact⟩ := hall (fun _ _ ↦ 0) fun _ ↦ 0
    exact not_deliveredIntact_of_reads hreads hboot hintact
  -- the same boot with every byte of memory set to `v`
  have hrun : ∀ v : UInt8, ∃ N m, N ≤ 59 ∧ Holds d (fun _ ↦ v) N m ∧ (∀ k, d.Reads k ↔ k < N) ∧
      DeliveredIntact d L s (m.enterKernel fun _ _ ↦ 0) := by
    intro v
    obtain ⟨m, hrun, hboot⟩ := boot_ends d (fun _ _ ↦ 0) fun _ ↦ v
    obtain ⟨N, hN, hholds, hreads⟩ := holds_of_not_reads hshort hrun
    obtain ⟨m', hboot', hintact⟩ := hall (fun _ _ ↦ 0) fun _ ↦ v
    obtain rfl := Option.some.inj (hboot.symm.trans hboot')
    exact ⟨N, m, hN, hholds, hreads, hintact⟩
  refine ⟨hshort, ?_, ?_⟩
  · intro i hi
    have hread : d.Reads (i / 512) := by
      -- else the first byte behind the sectors read is not that of the image
      by_contra hnot
      obtain ⟨N, -, -, -, hreads, -⟩ := hrun 0
      rw [hreads] at hnot
      obtain ⟨N', m, hN, hholds, hreads', hintact⟩ := hrun (d.data (512 + 512 * N) + 1)
      have hNN' : N' = N := by
        have h₁ := (hreads N').symm.trans (hreads' N')
        have h₂ := (hreads N).symm.trans (hreads' N)
        omega
      subst hNN'
      have himage := hintact.image (512 * N') (by omega)
      rw [hholds.kernel_of_ge hN le_rfl (by omega)] at himage
      simp at himage
    obtain ⟨N, m, hN, hholds, hreads, hintact⟩ := hrun 0
    have himage := hintact.image i hi
    rw [hholds.kernel_of_lt hN ((hreads _).1 hread)] at himage
    exact ⟨hread, himage⟩
  · intro o h₁ h₂
    obtain ⟨N, m, hN, hholds, hreads, hintact⟩ := hrun 1
    have hread : d.Reads (o / 512) := by
      -- else `.bss` has a byte behind the sectors read and outside the boot sector
      by_contra hnot
      rw [hreads] at hnot
      obtain ⟨haligned, hbase⟩ := s.bssStart_aligned
      obtain ⟨b, hb⟩ := Nat.exists_eq_add_of_le hbase
      have hzero := hintact.bss (0x00100000 + max b (512 * N)) (by omega) (by omega)
      rw [hholds.kernel_of_ge hN (by omega) (by omega)] at hzero
      exact absurd hzero (by decide)
    have hzero := hintact.bss (0x00100000 + o) h₁ h₂
    rw [hholds.kernel_of_lt hN ((hreads _).1 hread)] at hzero
    exact ⟨hread, hzero⟩

/-- A disk of eighty sectors, 63 on a track and sixteen heads: the boot sector and an image of 40000
bytes. -/
def eightySectors : BootDisk where
  sectorsPerTrack := 63
  sectorsPerTrack_lt := by decide
  maxHead := 15
  maxHead_lt := by decide
  total := 80
  data _ := 0x90

/-- Its image is well below the 122880 bytes that the loader copies, and is not delivered. -/
theorem not_deliveredIntact_eighty :
    40000 ≤ 122880 ∧ ∃ m, boot eightySectors (fun _ _ ↦ 0) (fun _ ↦ 0) = some m ∧
      0x7B00 ∈ m.stored ∧ ¬ DeliveredIntact eightySectors 40000 ⟨40000, 0, 0, 0⟩ m := by
  have hreads : eightySectors.Reads 59 := by
    refine ⟨by decide, fun j hj ↦ ?_⟩
    rw [BootDisk.sectorOf_of_lt (by decide)]
    show j + 1 < 80
    omega
  obtain ⟨m, hrun, hboot⟩ := boot_ends eightySectors (fun _ _ ↦ 0) fun _ ↦ 0
  refine ⟨by decide, _, hboot, ?_, not_deliveredIntact_of_reads hreads hboot⟩
  have hstored : 0x7B00 ∈ m.stored := stored_of_reads hreads hrun
  exact hstored

end Delivery
