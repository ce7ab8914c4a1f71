import BinbowsDOS.Boot.Delivery

/-!
# The order in which the loader reads

The first 2048 passes, which fill the megabyte above `0x500` segment by segment. The CHS address
counts sectors, with `[heads]` heads to the cylinder; for a disk of 256 heads that byte is 0, the
head is never stepped, and the loader goes to the next cylinder after each track.

Pass 59 stores its sector over the boot sector and the stack. What comes after it is in the hands of
that sector, so the loader walks in order no further (`walksInOrder_iff`); the passes that are
counted here are those of the loop as it was assembled.
-/

namespace Loader

variable {d : BootDisk} {noise : StackNoise} {ram : ByteMem} {m m' : Loader} {k fuel : ℕ}

/-- `k` passes after which the loop goes on. -/
def passes (d : BootDisk) (noise : StackNoise) : ℕ → Loader → Option Loader
  | 0, m => some m
  | k + 1, m => (passes d noise k m).bind fun m ↦
    if (m.pass d noise).1 then some (m.pass d noise).2 else none

/-- The reads of the first `k` passes succeed. -/
def EarlierReadsSucceed (d : BootDisk) (noise : StackNoise) (ram : ByteMem) (k : ℕ) : Prop :=
  ∀ j < k, ∀ m, passes d noise j (start d ram) = some m → d.Readable m.cylinder m.dh m.sector

/-- Pass `k` requests sector `k + 1` by its CHS address, and stores it behind the `k` sectors before
it. -/
structure RequestsNext (d : BootDisk) (noise : StackNoise) (k : ℕ) (m : Loader) : Prop where
  /-- The cylinder. -/
  cylinder : m.cylinder = (k + 1) / ((d.maxHead + 1) * d.sectorsPerTrack)
  /-- The head. -/
  head : m.dh = (k + 1) / d.sectorsPerTrack % (d.maxHead + 1)
  /-- The sector. -/
  sector : m.sector = (k + 1) % d.sectorsPerTrack + 1
  /-- The linear address of the buffer. -/
  buffer : m.buffer = 0x500 + 512 * k
  /-- What is there after the pass. -/
  stored : d.Readable m.cylinder m.dh m.sector →
    ∀ i < 512, (m.pass d noise).2.mem (0x500 + 512 * k + i) = d.data (512 * (k + 1) + i)

/-- No sector has been stored over the boot sector or the stack of the loop. -/
def Spared (m : Loader) : Prop :=
  ∀ a ∈ m.stored, ∀ x, a ≤ x → x < a + 512 → ¬ (0x7C00 - 22 ≤ x ∧ x < 0x7E00)

/-- The loop comes to pass `k` as it was assembled, and requests the next sector. -/
def WalksInOrder (d : BootDisk) (noise : StackNoise) (ram : ByteMem) (k : ℕ) : Prop :=
  ∃ m, passes d noise k (start d ram) = some m ∧ m.Spared ∧ RequestsNext d noise k m

/-! ### The buffer -/

/-- ES:BX before pass `k`. -/
structure AtBuffer (k : ℕ) (m : Loader) : Prop where
  /-- A segment is full after 128 sectors. -/
  es : m.es = 0x0050 + 0x1000 * (k / 128)
  /-- The sectors in the segment. -/
  bx : m.bx = 512 * (k % 128)

theorem AtBuffer.buffer_eq (h : AtBuffer k m) : m.buffer = 0x500 + 512 * k := by
  rw [buffer, h.es, h.bx]
  omega

theorem AtBuffer.nextBuffer (h : AtBuffer k m) (hk : k + 1 < 2048) :
    AtBuffer (k + 1) m.nextBuffer := by
  have hes := h.es
  have hbx := h.bx
  rw [Loader.nextBuffer]
  rcases div_mod_succ (n := k) (b := 128) (by decide) with ⟨hlt, hdiv, hmod⟩ | ⟨hfull, hdiv, hmod⟩
  · rw [if_pos (show m.bx + 0x200 < 2 ^ 16 by omega)]
    exact ⟨by rw [hdiv]; exact hes, by simp only [hmod]; omega⟩
  · rw [if_neg (show ¬ m.bx + 0x200 < 2 ^ 16 by omega)]
    refine ⟨?_, ?_⟩
    · simp only [hdiv, u16]
      omega
    · simp only [hmod]

/-! ### The passes -/

theorem passes_succ : passes d noise (k + 1) m = some m' ↔
    ∃ m₁, passes d noise k m = some m₁ ∧ (m₁.pass d noise).1 = true ∧
      (m₁.pass d noise).2 = m' := by
  rw [passes, Option.bind_eq_some_iff]
  refine exists_congr fun m₁ ↦ and_congr_right fun _ ↦ ?_
  split <;> simp_all

theorem readable_of_pass (hgo : (m.pass d noise).1 = true) :
    d.Readable m.cylinder m.dh m.sector := by
  by_contra hnot
  rw [pass_of_not_readable hnot] at hgo
  exact Bool.noConfusion hgo

/-- **One pass** that reads its sector. -/
theorem Selects.pass (h : Selects d k m) (hbuffer : AtBuffer k m) (hspt : 2 ≤ d.sectorsPerTrack)
    (hk : k + 1 < 2048) (hcyl : (k + 1) / d.sectorsPerTrack / d.steppedHeads < 256)
    (hread : d.Readable m.cylinder m.dh m.sector) :
    ((m.pass d noise).1 = true ↔ (k + 1 + 1) / d.sectorsPerTrack / d.steppedHeads < 256) ∧
      ((m.pass d noise).1 = true →
        Selects d (k + 1) (m.pass d noise).2 ∧ AtBuffer (k + 1) (m.pass d noise).2) := by
  rw [pass_of_readable hread]
  have hnext : AtBuffer (k + 1) ((m.pushes noise 22).readSector d).nextBuffer :=
    AtBuffer.nextBuffer ⟨hbuffer.es, hbuffer.bx⟩ hk
  have hselects : Selects d k ((m.pushes noise 22).readSector d).nextBuffer := by
    rw [nextBuffer]
    split <;> exact ⟨h.ch, h.dh, h.cl⟩
  obtain ⟨hgo, hstep⟩ := hselects.nextAddress hspt hcyl
  obtain ⟨hes, hbx⟩ := nextAddress_buffer d ((m.pushes noise 22).readSector d).nextBuffer
  exact ⟨hgo, fun h ↦ ⟨hstep h, hes.trans hnext.es, hbx.trans hnext.bx⟩⟩

theorem selects_start (hspt : 2 ≤ d.sectorsPerTrack) : Selects d 0 (start d ram) := by
  have hlt : (0 + 1) / d.sectorsPerTrack = 0 := Nat.div_eq_of_lt (by omega)
  have hmod : (0 + 1) % d.sectorsPerTrack = 1 := Nat.mod_eq_of_lt (by omega)
  exact ⟨by rw [hlt, Nat.zero_div]; rfl, by rw [hlt, Nat.zero_mod]; rfl, by rw [hmod]; rfl⟩

/-- **The passes** count sectors for as long as the cylinder fits into its byte. -/
theorem selects_of_passes (hspt : 2 ≤ d.sectorsPerTrack) (hk : k < 2048)
    (h : passes d noise k (start d ram) = some m) :
    Selects d k m ∧ AtBuffer k m ∧ (k + 1) / d.sectorsPerTrack / d.steppedHeads < 256 := by
  induction k generalizing m with
  | zero =>
    obtain rfl := Option.some.inj h
    refine ⟨selects_start hspt, ⟨rfl, rfl⟩, ?_⟩
    rw [Nat.div_eq_of_lt (show 0 + 1 < d.sectorsPerTrack by omega), Nat.zero_div]
    decide
  | succ k ih =>
    obtain ⟨m₁, h₁, hgo, rfl⟩ := passes_succ.1 h
    obtain ⟨hselects, hbuffer, hcyl⟩ := ih (by omega) h₁
    obtain ⟨hiff, hnext⟩ := hselects.pass hbuffer hspt hk hcyl (readable_of_pass hgo)
    exact ⟨(hnext hgo).1, (hnext hgo).2, hiff.1 hgo⟩

theorem exists_passes (hspt : 2 ≤ d.sectorsPerTrack) (hk : k < 2048)
    (hcyl : (k + 1) / d.sectorsPerTrack / d.steppedHeads < 256)
    (hreads : EarlierReadsSucceed d noise ram k) :
    ∃ m, passes d noise k (start d ram) = some m := by
  induction k with
  | zero => exact ⟨_, rfl⟩
  | succ k ih =>
    have hle : (k + 1) / d.sectorsPerTrack / d.steppedHeads ≤
        (k + 1 + 1) / d.sectorsPerTrack / d.steppedHeads :=
      Nat.div_le_div_right (Nat.div_le_div_right (Nat.le_succ _))
    obtain ⟨m, hm⟩ := ih (by omega) (by omega) fun j hj ↦ hreads j (by omega)
    obtain ⟨hselects, hbuffer, hcyl'⟩ := selects_of_passes hspt (by omega) hm
    have hiff : (m.pass d noise).1 = true ↔
        (k + 1 + 1) / d.sectorsPerTrack / d.steppedHeads < 256 :=
      (hselects.pass hbuffer hspt hk hcyl' (hreads k (Nat.lt_succ_self k) m hm)).1
    exact ⟨_, passes_succ.2 ⟨m, hm, hiff.2 hcyl, rfl⟩⟩

/-- **What has been overwritten**: the sectors lie one behind the other. -/
theorem mem_stored_of_passes (hspt : 2 ≤ d.sectorsPerTrack) (hk : k < 2048)
    (h : passes d noise k (start d ram) = some m) {a : ℕ} :
    a ∈ m.stored ↔ ∃ j < k, a = 0x500 + 512 * j := by
  induction k generalizing m with
  | zero =>
    obtain rfl := Option.some.inj h
    exact iff_of_false List.not_mem_nil fun ⟨j, hj, _⟩ ↦ Nat.not_lt_zero j hj
  | succ k ih =>
    obtain ⟨m₁, h₁, hgo, rfl⟩ := passes_succ.1 h
    obtain ⟨-, hbuffer, -⟩ := selects_of_passes hspt (by omega) h₁
    have hstored : (m₁.pass d noise).2.stored = m₁.buffer :: m₁.stored := by
      rw [pass_of_readable (readable_of_pass hgo), (nextAddress_frame d _).2, stored_nextBuffer]
      rfl
    rw [hstored, List.mem_cons, ih (by omega) h₁, hbuffer.buffer_eq, Nat.exists_lt_succ_right,
      or_comm]

/-- The sixtieth sector, that of pass 59, is the first one that goes over the loader. -/
theorem spared_iff (hspt : 2 ≤ d.sectorsPerTrack) (hk : k < 2048)
    (h : passes d noise k (start d ram) = some m) : m.Spared ↔ k ≤ 59 := by
  have hstored := fun a ↦ mem_stored_of_passes hspt hk h (a := a)
  constructor
  · intro hspared
    by_contra hlate
    exact hspared 0x7B00 ((hstored _).2 ⟨59, by omega, rfl⟩) 0x7C00 (by decide) (by decide)
      (by decide)
  · rintro hle a ha x hx hx'
    obtain ⟨j, hj, rfl⟩ := (hstored a).1 ha
    omega

/-! ### In order -/

/-- The CHS address is that of sector `k + 1` as long as the heads that are stepped through are
those of the disk. -/
theorem Selects.requestsNext (h : Selects d k m) (hbuffer : AtBuffer k m)
    (hspt : 2 ≤ d.sectorsPerTrack)
    (hheads : (k + 1) / d.sectorsPerTrack / d.steppedHeads =
      (k + 1) / d.sectorsPerTrack / (d.maxHead + 1))
    (hhead : (k + 1) / d.sectorsPerTrack % d.steppedHeads =
      (k + 1) / d.sectorsPerTrack % (d.maxHead + 1)) : RequestsNext d noise k m := by
  have hlt := d.sectorsPerTrack_lt
  have hmod := Nat.mod_lt (k + 1) (show 0 < d.sectorsPerTrack by omega)
  have hcl := h.cl
  have hsector : m.sector = (k + 1) % d.sectorsPerTrack + 1 := by
    rw [sector]
    omega
  have hcylinder : m.cylinder = (k + 1) / d.sectorsPerTrack / (d.maxHead + 1) := by
    rw [cylinder, h.ch, ← hheads]
    omega
  have hlba : d.lba m.cylinder m.dh m.sector = k + 1 := by
    rw [BootDisk.lba, hcylinder, h.dh, hhead, hsector, Nat.add_sub_cancel, Nat.div_add_mod',
      Nat.div_add_mod']
  refine ⟨?_, h.dh.trans hhead, hsector, hbuffer.buffer_eq, fun hread i hi ↦ ?_⟩
  · rw [hcylinder, Nat.div_div_eq_div_mul, Nat.mul_comm]
  · rw [pass_of_readable hread, (nextAddress_frame d _).1, mem_nextBuffer, ← hbuffer.buffer_eq]
    show ByteMem.blit _ m.buffer 512 (fun i ↦ d.data (512 * d.lba m.cylinder m.dh m.sector + i))
      (m.buffer + i) = _
    rw [ByteMem.blit_apply_add hi, hlba]

/-- With 256 heads the cylinder counts the tracks. -/
theorem not_walksInOrder (hspt : 2 ≤ d.sectorsPerTrack) (hk : k < 2048) (hmax : d.maxHead = 255)
    (htrack : d.sectorsPerTrack ≤ k + 1) : ¬ WalksInOrder d noise ram k := by
  rintro ⟨m, hm, -, hnext⟩
  obtain ⟨hselects, -, -⟩ := selects_of_passes hspt hk hm
  have hone : d.steppedHeads = 1 := by
    rw [BootDisk.steppedHeads, BootDisk.heads, hmax]
    rfl
  have hpos : 0 < d.sectorsPerTrack := by omega
  have hlt := d.sectorsPerTrack_lt
  have hmod := Nat.mod_lt (k + 1) hpos
  have hcl := hselects.cl
  have htracks : 0 < (k + 1) / d.sectorsPerTrack := Nat.div_pos htrack hpos
  have hcylinder : m.cylinder = (k + 1) / d.sectorsPerTrack := by
    rw [cylinder, hselects.ch, hone, Nat.div_one]
    omega
  have hcyl := hcylinder.symm.trans hnext.cylinder
  rw [hmax, Nat.mul_comm, ← Nat.div_div_eq_div_mul] at hcyl
  exact absurd hcyl (Nat.div_lt_self htracks (by decide)).ne'

/-- **When the loader walks the disk in order**: exactly if the head number it is told is below 255,
or on the first track, and no further than to the pass that overwrites it. -/
theorem walksInOrder_iff (hspt : 2 ≤ d.sectorsPerTrack) (hk : k < 2048)
    (hrange : k + 1 < 256 * (d.maxHead + 1) * d.sectorsPerTrack)
    (hreads : EarlierReadsSucceed d noise ram k) :
    WalksInOrder d noise ram k ↔ (d.maxHead < 255 ∨ k + 1 < d.sectorsPerTrack) ∧ k ≤ 59 := by
  have hlt := d.maxHead_lt
  constructor
  · intro h
    obtain ⟨m, hm, hspared, -⟩ := id h
    refine ⟨?_, (spared_iff hspt hk hm).1 hspared⟩
    by_contra hnot
    rw [not_or, Nat.not_lt, Nat.not_lt] at hnot
    exact not_walksInOrder hspt hk (by omega) hnot.2 h
  · rintro ⟨h, hlast⟩
    have hstep : (k + 1) / d.sectorsPerTrack / d.steppedHeads =
        (k + 1) / d.sectorsPerTrack / (d.maxHead + 1) ∧
        (k + 1) / d.sectorsPerTrack % d.steppedHeads =
          (k + 1) / d.sectorsPerTrack % (d.maxHead + 1) := by
      rcases h with hmax | htrack
      · rw [BootDisk.steppedHeads, BootDisk.heads, u8, Nat.mod_eq_of_lt (by omega),
          if_neg (Nat.succ_ne_zero _)]
        exact ⟨rfl, rfl⟩
      · rw [Nat.div_eq_of_lt htrack]
        simp
    have hcyl : (k + 1) / d.sectorsPerTrack / d.steppedHeads < 256 := by
      rw [hstep.1, Nat.div_div_eq_div_mul]
      exact Nat.div_lt_of_lt_mul (by rwa [Nat.mul_comm _ 256, Nat.mul_comm d.sectorsPerTrack,
        ← Nat.mul_assoc])
    obtain ⟨m, hm⟩ := exists_passes hspt hk hcyl hreads
    obtain ⟨hselects, hbuffer, -⟩ := selects_of_passes hspt hk hm
    exact ⟨m, hm, (spared_iff hspt hk hm).2 hlast,
      hselects.requestsNext hbuffer hspt hstep.1 hstep.2⟩

/-- A floppy disk. -/
def floppyDisk : BootDisk where
  sectorsPerTrack := 18
  sectorsPerTrack_lt := by decide
  maxHead := 1
  maxHead_lt := by decide
  total := 2880
  data _ := 0

/-- The last pass on a floppy disk, which is on the fourth of its tracks. -/
theorem walksInOrder_floppy : WalksInOrder floppyDisk (fun _ _ ↦ 0) (fun _ ↦ 0) 59 := by
  refine (walksInOrder_iff (by decide) (by decide) (by decide) fun j hj m hm ↦ ?_).2
    ⟨.inl (by decide), le_rfl⟩
  obtain ⟨hselects, -, -⟩ := selects_of_passes (by decide) (by omega) hm
  have hch := hselects.ch
  have hdh := hselects.dh
  have hcl := hselects.cl
  rw [cylinder, sector, hch, hdh, hcl]
  clear hm hselects hch hdh hcl
  revert j
  decide

/-- A disk of 256 heads with two sectors on a track. -/
def flatDisk : BootDisk where
  sectorsPerTrack := 2
  sectorsPerTrack_lt := by decide
  maxHead := 255
  maxHead_lt := by decide
  total := 2048
  data _ := 0

/-- Its third sector is on head 1 of cylinder 0; the loader asks for head 0 of cylinder 1. -/
theorem not_walksInOrder_flat :
    EarlierReadsSucceed flatDisk (fun _ _ ↦ 0) (fun _ ↦ 0) 1 ∧
      ¬ WalksInOrder flatDisk (fun _ _ ↦ 0) (fun _ ↦ 0) 1 := by
  have hreads : EarlierReadsSucceed flatDisk (fun _ _ ↦ 0) (fun _ ↦ 0) 1 := by
    intro j hj m hm
    obtain rfl : j = 0 := Nat.lt_one_iff.1 hj
    obtain rfl := Option.some.inj hm
    decide
  exact ⟨hreads, not_walksInOrder (by decide) (by decide) rfl (by decide)⟩

end Loader
