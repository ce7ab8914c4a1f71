import BinbowsDOS.Foundations.ByteMemory
import BinbowsDOS.Foundations.MachineWord

/-!
# The boot loader

`boot.asm`, from the moment its variables hold the disk geometry. The load loop reads one sector
a pass through INT 13h, to ES:BX, and steps the buffer and the CHS address until the BIOS reports
an error or the cylinder wraps; protected mode then copies 30720 dwords to one megabyte and calls
the kernel there.

The BIOS is assumed to store the requested sector and to set carry for an address that the
geometry does not have or that lies past the end of the disk, and the A20 line to be on. Whatever
`pusha`, `int` and `call` leave on the stack is unknown: `noise` gives those bytes for every state
of the machine. The loader's four variables are state of their own. They lie in the boot sector,
so after a sector has been stored over it the model no longer describes the machine; `stored`, a
history variable that records where sectors were stored, says whether that has happened.
-/

/-- A disk and its geometry as INT 13h AH=08h reports it. -/
structure BootDisk where
  /-- Sectors on a track, in bits 0 to 5 of CL. -/
  sectorsPerTrack : ℕ
  /-- Six bits. -/
  sectorsPerTrack_lt : sectorsPerTrack < 64
  /-- The largest head number, in DH. -/
  maxHead : ℕ
  /-- Eight bits. -/
  maxHead_lt : maxHead < 256
  /-- How many sectors there are. -/
  total : ℕ
  /-- The bytes of the disk. -/
  data : ℕ → UInt8

namespace BootDisk

/-- The sector at a CHS address. -/
def lba (d : BootDisk) (c h s : ℕ) : ℕ := (c * (d.maxHead + 1) + h) * d.sectorsPerTrack + (s - 1)

/-- The BIOS can read this CHS address. -/
def Readable (d : BootDisk) (c h s : ℕ) : Prop :=
  1 ≤ s ∧ s ≤ d.sectorsPerTrack ∧ h ≤ d.maxHead ∧ d.lba c h s < d.total

instance (d : BootDisk) (c h s : ℕ) : Decidable (d.Readable c h s) :=
  inferInstanceAs (Decidable (_ ∧ _ ∧ _ ∧ _))

/-- `[heads]`: the increment of the reported byte wraps. -/
def heads (d : BootDisk) : ℕ := u8 (d.maxHead + 1)

end BootDisk

/-- The machine while the loader runs. -/
structure Loader where
  /-- Memory. -/
  mem : ByteMem
  /-- ES -/
  es : ℕ
  /-- BX -/
  bx : ℕ
  /-- CH -/
  ch : ℕ
  /-- CL -/
  cl : ℕ
  /-- DH -/
  dh : ℕ
  /-- EDI -/
  edi : ℕ
  /-- History: where sectors were stored. -/
  stored : List ℕ

/-- What the stack is left with, for every state of the machine. -/
abbrev StackNoise := Loader → ℕ → UInt8

namespace Loader

/-- The `n` bytes below the boot sector are used as a stack. -/
def pushes (noise : StackNoise) (n : ℕ) (m : Loader) : Loader :=
  { m with mem := m.mem.blit (0x7C00 - n) n (noise m) }

/-- The cylinder in CH and the two upper bits of CL. -/
def cylinder (m : Loader) : ℕ := m.ch + 256 * (m.cl / 64)

/-- The sector number in CL. -/
def sector (m : Loader) : ℕ := m.cl % 64

/-- The address ES:BX. -/
def buffer (m : Loader) : ℕ := m.es * 16 + m.bx

/-- INT 13h AH=02h, AL=1, when it succeeds. -/
def readSector (d : BootDisk) (m : Loader) : Loader :=
  { m with
    mem := m.mem.blit m.buffer 512 fun i ↦ d.data (512 * d.lba m.cylinder m.dh m.sector + i)
    stored := m.buffer :: m.stored }

/-- `inc edi`, and the step of the buffer up to `.no_wrap`. -/
def nextBuffer (m : Loader) : Loader :=
  let m := { m with edi := u32 (m.edi + 1) }
  if m.bx + 0x200 < 2 ^ 16 then { m with bx := m.bx + 0x200 }
  else { m with es := u16 (m.es + 0x1000), bx := 0 }

/-- The step of the CHS address behind `.no_wrap`, and whether the loop goes on. -/
def nextAddress (d : BootDisk) (m : Loader) : Bool × Loader :=
  let m := { m with cl := u8 (m.cl + 1) }
  if m.cl ≤ d.sectorsPerTrack then (true, m)
  else
    let m := { m with cl := 1, dh := u8 (m.dh + 1) }
    if m.dh < d.heads then (true, m)
    else
      let m := { m with dh := 0, ch := u8 (m.ch + 1) }
      (m.ch ≠ 0, m)

/-- One pass of `.load_loop`, and whether the loop goes on. The pushes are those of `pusha` and of
the interrupt. -/
def pass (d : BootDisk) (noise : StackNoise) (m : Loader) : Bool × Loader :=
  let m := m.pushes noise 22
  if d.Readable m.cylinder m.dh m.sector then ((m.readSector d).nextBuffer).nextAddress d
  else (false, m)

/-- `.load_loop`, with the code and variables of the boot sector, whatever is stored over them. -/
def loadLoop (d : BootDisk) (noise : StackNoise) : ℕ → Loader → Option Loader
  | 0, _ => none
  | fuel + 1, m =>
    if (m.pass d noise).1 then loadLoop d noise fuel (m.pass d noise).2
    else some (m.pass d noise).2

/-- `rep movsd`: the first `n` dwords. -/
def repMovsd (esi edi : ℕ) : ℕ → ByteMem → ByteMem
  | 0, mem => mem
  | n + 1, mem =>
    let mem := repMovsd esi edi n mem
    mem.storeLE (edi + 4 * n) 4 (mem.loadLE (esi + 4 * n) 4)

/-- `.load_complete` up to the entry of the kernel. The pushes are those of `print_string` and of
the last call. -/
def enterKernel (noise : StackNoise) (m : Loader) : Loader :=
  let m := m.pushes noise 24
  let m := { m with mem := repMovsd 0x500 0x00100000 30720 m.mem }
  { m with mem := m.mem.blit (0x90000 - 4) 4 (noise m) }

/-- The machine at `.load_loop`: the BIOS has put the boot sector into memory. -/
def start (d : BootDisk) (ram : ByteMem) : Loader where
  mem := ram.blit 0x7C00 512 d.data
  es := 0x0050
  bx := 0
  ch := 0
  cl := 2
  dh := 0
  edi := 0
  stored := []

/-- More passes than the loop can make. -/
def loadFuel : ℕ := 2 ^ 22

/-- The machine at the entry of the kernel. -/
def boot (d : BootDisk) (noise : StackNoise) (ram : ByteMem) : Option Loader :=
  (loadLoop d noise loadFuel (start d ram)).map (enterKernel noise)

variable {d : BootDisk} {noise : StackNoise} {m m' : Loader} {fuel n x : ℕ}

/-! ### One pass -/

/-- The three ways the CHS address is stepped. -/
theorem nextAddress_cases (d : BootDisk) (m : Loader) :
    (u8 (m.cl + 1) ≤ d.sectorsPerTrack ∧
      m.nextAddress d = (true, { m with cl := u8 (m.cl + 1) })) ∨
    (d.sectorsPerTrack < u8 (m.cl + 1) ∧ u8 (m.dh + 1) < d.heads ∧
      m.nextAddress d = (true, { m with cl := 1, dh := u8 (m.dh + 1) })) ∨
    (d.sectorsPerTrack < u8 (m.cl + 1) ∧ d.heads ≤ u8 (m.dh + 1) ∧
      m.nextAddress d =
        (decide (u8 (m.ch + 1) ≠ 0), { m with cl := 1, dh := 0, ch := u8 (m.ch + 1) })) := by
  rcases le_or_gt (u8 (m.cl + 1)) d.sectorsPerTrack with hcl | hcl
  · exact Or.inl ⟨hcl, if_pos hcl⟩
  · rcases lt_or_ge (u8 (m.dh + 1)) d.heads with hdh | hdh
    · exact Or.inr (Or.inl ⟨hcl, hdh, (if_neg hcl.not_ge).trans (if_pos hdh)⟩)
    · exact Or.inr (Or.inr ⟨hcl, hdh, (if_neg hcl.not_ge).trans (if_neg hdh.not_gt)⟩)

theorem pass_of_readable (h : d.Readable m.cylinder m.dh m.sector) :
    m.pass d noise = ((((m.pushes noise 22).readSector d).nextBuffer).nextAddress d) := if_pos h

theorem pass_of_not_readable (h : ¬ d.Readable m.cylinder m.dh m.sector) :
    m.pass d noise = (false, m.pushes noise 22) := if_neg h

@[simp] theorem stored_nextBuffer : m.nextBuffer.stored = m.stored := by
  rw [nextBuffer]
  split <;> rfl

@[simp] theorem mem_nextBuffer : m.nextBuffer.mem = m.mem := by
  rw [nextBuffer]
  split <;> rfl

/-- The buffer grows by a sector within its segment. -/
theorem nextBuffer_of_lt (h : m.bx + 0x200 < 2 ^ 16) :
    m.nextBuffer = { m with edi := u32 (m.edi + 1), bx := m.bx + 0x200 } := by
  simp only [nextBuffer]
  rw [if_pos h]

/-- The step of the address leaves memory and the record of stores alone. -/
theorem nextAddress_frame (d : BootDisk) (m : Loader) :
    (m.nextAddress d).2.mem = m.mem ∧ (m.nextAddress d).2.stored = m.stored := by
  rcases nextAddress_cases d m with ⟨-, heq⟩ | ⟨-, -, heq⟩ | ⟨-, -, heq⟩ <;> rw [heq] <;>
    exact ⟨rfl, rfl⟩

/-- So does it leave the buffer alone. -/
theorem nextAddress_buffer (d : BootDisk) (m : Loader) :
    (m.nextAddress d).2.es = m.es ∧ (m.nextAddress d).2.bx = m.bx := by
  rcases nextAddress_cases d m with ⟨-, heq⟩ | ⟨-, -, heq⟩ | ⟨-, -, heq⟩ <;> rw [heq] <;>
    exact ⟨rfl, rfl⟩

theorem stored_pass : ∀ a ∈ m.stored, a ∈ (m.pass d noise).2.stored := by
  intro a ha
  by_cases h : d.Readable m.cylinder m.dh m.sector
  · rw [pass_of_readable h, (nextAddress_frame d _).2, stored_nextBuffer]
    exact List.mem_cons_of_mem _ ha
  · rw [pass_of_not_readable h]
    exact ha

/-! ### The loop ends -/

/-- The cylinders, heads and sectors that the loop can still come to. -/
def togo (m : Loader) : ℕ := ((255 - m.ch) * 256 + (255 - m.dh)) * 64 + (63 - m.cl)

/-- CH is a byte, CL a sector number, and DH, as it stays below `[heads]`, not the last byte. -/
structure Sized (m : Loader) : Prop where
  /-- CH -/
  ch_lt : m.ch < 256
  /-- DH -/
  dh_lt : m.dh < 255
  /-- CL -/
  cl_lt : m.cl < 64

/-- A step of the address that goes on has used up one. -/
theorem togo_nextAddress (hm : m.Sized) (hgo : (m.nextAddress d).1 = true) :
    (m.nextAddress d).2.Sized ∧ (m.nextAddress d).2.togo < m.togo := by
  have hch := hm.ch_lt
  have hdh := hm.dh_lt
  have hcl := hm.cl_lt
  have hspt := d.sectorsPerTrack_lt
  have hheads : d.heads < 256 := u8_lt _
  rcases nextAddress_cases d m with ⟨hsector, heq⟩ | ⟨-, hhead, heq⟩ | ⟨-, -, heq⟩
  · rw [heq]
    rw [u8] at hsector
    exact ⟨⟨hch, hdh, by simp only [u8]; omega⟩, by simp only [togo, u8]; omega⟩
  · rw [heq]
    rw [u8] at hhead
    exact ⟨⟨hch, by simp only [u8]; omega, by simp only; omega⟩, by simp only [togo, u8]; omega⟩
  · rw [heq] at hgo ⊢
    have hnext : (m.ch + 1) % 2 ^ 8 ≠ 0 := of_decide_eq_true hgo
    exact ⟨⟨by simp only [u8]; omega, by simp only; omega, by simp only; omega⟩,
      by simp only [togo, u8]; omega⟩

/-- A pass that goes on has used up one. -/
theorem togo_pass (hm : m.Sized) (hgo : (m.pass d noise).1 = true) :
    (m.pass d noise).2.Sized ∧ (m.pass d noise).2.togo < m.togo := by
  by_cases h : d.Readable m.cylinder m.dh m.sector
  · rw [pass_of_readable h] at hgo ⊢
    have hbuffer : ∀ k : Loader, k.Sized → k.nextBuffer.Sized ∧ k.nextBuffer.togo = k.togo := by
      intro k hk
      rw [nextBuffer]
      split <;> exact ⟨⟨hk.ch_lt, hk.dh_lt, hk.cl_lt⟩, by simp only [togo]⟩
    obtain ⟨hsized, htogo⟩ := hbuffer ((m.pushes noise 22).readSector d)
      ⟨hm.ch_lt, hm.dh_lt, hm.cl_lt⟩
    obtain ⟨hsized', hless⟩ := togo_nextAddress hsized hgo
    have hsame : ((m.pushes noise 22).readSector d).togo = m.togo := rfl
    exact ⟨hsized', by omega⟩
  · rw [pass_of_not_readable h] at hgo
    exact Bool.noConfusion hgo

/-- The load loop ends. -/
theorem loadLoop_ends (hm : m.Sized) (hfuel : m.togo < fuel) :
    ∃ m', loadLoop d noise fuel m = some m' := by
  induction fuel generalizing m with
  | zero => omega
  | succ fuel ih =>
    rw [loadLoop]
    by_cases hgo : (m.pass d noise).1 = true
    · obtain ⟨hsized, hless⟩ := togo_pass hm hgo
      rw [if_pos hgo]
      exact ih hsized (by omega)
    · exact ⟨_, if_neg hgo⟩

/-- What it has stored stays stored. -/
theorem stored_loadLoop (hrun : loadLoop d noise fuel m = some m') :
    ∀ a ∈ m.stored, a ∈ m'.stored := by
  induction fuel generalizing m with
  | zero => simp [loadLoop] at hrun
  | succ fuel ih =>
    rw [loadLoop] at hrun
    intro a ha
    split at hrun
    · exact ih hrun a (stored_pass a ha)
    · obtain rfl := Option.some.inj hrun
      exact stored_pass a ha

/-- **Every boot comes to the kernel**, if what runs is still the loader. -/
theorem boot_ends (d : BootDisk) (noise : StackNoise) (ram : ByteMem) :
    ∃ m, loadLoop d noise loadFuel (start d ram) = some m ∧
      boot d noise ram = some (m.enterKernel noise) := by
  have hsized : (start d ram).Sized :=
    ⟨show 0 < 256 by decide, show 0 < 255 by decide, show 2 < 64 by decide⟩
  have hfuel : (start d ram).togo < loadFuel :=
    show ((255 - 0) * 256 + (255 - 0)) * 64 + (63 - 2) < 2 ^ 22 by decide
  obtain ⟨m, hrun⟩ : ∃ m, loadLoop d noise loadFuel (start d ram) = some m :=
    loadLoop_ends hsized hfuel
  exact ⟨m, hrun, by rw [boot, hrun, Option.map_some]⟩

/-! ### The copy -/

/-- The copy moves bytes, as long as the two ranges do not overlap. -/
theorem repMovsd_apply {esi edi : ℕ} {mem : ByteMem} (hn : esi + 4 * n ≤ edi) :
    repMovsd esi edi n mem x =
      if edi ≤ x ∧ x < edi + 4 * n then mem (esi + (x - edi)) else mem x := by
  induction n generalizing x with
  | zero => rw [if_neg (by omega)]; rfl
  | succ n ih =>
    have hih := fun x ↦ ih (x := x) (by omega)
    rw [repMovsd]
    rcases lt_or_ge x (edi + 4 * n) with hlt | hge
    · rw [ByteMem.storeLE_apply_of_not_mem (Or.inl hlt), hih]
      split_ifs <;> first | rfl | omega
    · rcases lt_or_ge x (edi + 4 * (n + 1)) with hlt' | hge'
      · rw [ByteMem.storeLE, ByteMem.blit_apply_of_mem hge (by omega),
          ByteMem.ofNat_loadLE_div (by omega), hih, if_neg (by omega), if_pos (by omega)]
        exact congrArg mem (by omega)
      · rw [ByteMem.storeLE_apply_of_not_mem (Or.inr (by omega)), hih, if_neg (by omega),
          if_neg (by omega)]

end Loader
