import BinbowsDOS.Ide.SectorTransfer

/-!
# Drives as sector arrays

The abstract view of the driver: every position of the two channels holds an array of sectors,
a write replaces a range of one array by memory and a read replaces a range of memory by sectors
of one array. On devices without faults the driver refines this view: any sequence of calls,
with whatever the callers do to memory in between, returns zeros and takes the arrays and the
memory where the abstract steps take them (`runOps_refines`).
-/

open Prog Kernel

/-- Every position with its sectors, and the memory. -/
structure SectorArrays where
  /-- The sectors at each channel and position. -/
  disk : ℕ × ℕ → ℕ → Sector
  /-- The memory. -/
  mem : ByteMem

/-- A call of the driver, or what its callers do to memory between two calls. -/
inductive SectorOp where
  /-- `ide_write_sectors_counted(drive, start, 512 * n, data)` -/
  | write (drive start n data : ℕ)
  /-- `ide_read_sectors(drive, k, lba, buf)` -/
  | read (drive k lba buf : ℕ)
  /-- Any change of the memory. -/
  | client (f : ByteMem → ByteMem)

namespace SectorOp

/-- The call. -/
def run (fuel : ℕ) : SectorOp → KernelM AtaBus ℕ
  | write drive start n data => ideWriteSectorsCounted fuel drive start (512 * n) data
  | read drive k lba buf => ideReadSectors fuel drive k lba buf
  | client f => do
    modify fun w ↦ w.setMem (f w.mem)
    pure 0

/-- What the call means; `pos` says where a drive is. -/
def step (pos : ℕ → ℕ × ℕ) : SectorOp → SectorArrays → SectorArrays
  | write drive start n data, s =>
    { s with
      disk := Function.update s.disk (pos drive)
        (writeRange (s.disk (pos drive)) start n fun j ↦ s.mem.sectorAt (data + 512 * j)) }
  | read drive k lba buf, s =>
    { s with mem := s.mem.blit buf (512 * k) (sectorStream (s.disk (pos drive)) lba) }
  | client f, s => { s with mem := f s.mem }

end SectorOp

/-- A sequence of calls, with the codes they return. -/
def runOps (fuel : ℕ) : List SectorOp → KernelM AtaBus (List ℕ)
  | [] => pure []
  | op :: ops => do
    let code ← op.run fuel
    let codes ← runOps fuel ops
    pure (code :: codes)

namespace Kernel

/-- Where a drive is, by the device table. -/
def position (w : Kernel AtaBus) (drive : ℕ) : ℕ × ℕ :=
  ((w.ideDevices drive).channel, (w.ideDevices drive).drive)

/-- A drive that is attached where the device table says. -/
def Present (w : Kernel AtaBus) (drive : ℕ) : Prop :=
  Attached w drive (w.position drive).1 (w.position drive).2

/-- The abstract view of a state. -/
def arrays (w : Kernel AtaBus) : SectorArrays where
  disk p := (w.io.unit p.1 p.2).sectors
  mem := w.mem

end Kernel

/-- The calls the refinement speaks about: present drives, 28-bit ranges, counts that fit their
parameter types and buffers inside the address space. -/
def SectorOp.Valid (w : Kernel AtaBus) : SectorOp → Prop
  | write drive start n data => w.Present drive ∧ 1 ≤ n ∧ start + n ≤ 2 ^ 28 ∧
      512 * n < 2 ^ 32 ∧ data + 512 * n ≤ 2 ^ 32
  | read drive k lba buf => w.Present drive ∧ 1 ≤ k ∧ k ≤ 255 ∧ lba + k ≤ 2 ^ 28 ∧
      buf + 512 * k ≤ 2 ^ 32
  | client _ => True

section Refinement

variable {w w' : Kernel AtaBus} {b' : AtaBus} {u : AtaUnit} {fuel drive c d : ℕ}

/-- Serving one unit keeps every drive attached, if the unit is left ready. -/
theorem Kernel.Present.served {i : ℕ} (hi : w.Present i) (hchannels : w'.channels = w.channels)
    (hdevices : w'.ideDevices = w.ideDevices) (hserved : AtaBus.Served c d w.io u w'.io)
    (hready : u.busy = 0) (hidle : u.idle = (w.io.unit c d).idle) : w'.Present i := by
  have hpos : w'.position i = w.position i := by rw [position, hdevices]; rfl
  rw [Present, hpos]
  by_cases hsame : (w.position i).1 = c ∧ (w.position i).2 = d
  · have hi' : Attached w i c d := hsame.1 ▸ hsame.2 ▸ hi
    rw [hsame.1, hsame.2]
    exact hi'.served hchannels hdevices hserved hready hidle
  · have helse := hserved.elsewhere _ _ hsame
    exact hi.of_unit hchannels hdevices (helse ▸ hi.ready) (helse ▸ rfl)

/-- The arrays after one of them has been served. -/
theorem Kernel.arrays_of_served (w' : Kernel AtaBus)
    (hserved : AtaBus.Served c d w.io u w'.io) :
    w'.arrays.disk = Function.update w.arrays.disk (c, d) u.sectors := by
  funext ⟨c', d'⟩
  rcases eq_or_ne (c', d') (c, d) with hp | hp
  · obtain ⟨rfl, rfl⟩ := Prod.mk.inj hp
    rw [Function.update_self]
    exact congrArg AtaUnit.sectors hserved.unit_eq
  · rw [Function.update_of_ne hp]
    exact congrArg AtaUnit.sectors
      (hserved.elsewhere c' d' fun h ↦ hp (Prod.ext h.1 h.2))

/-- **One call refines one abstract step**, and every drive stays attached. -/
theorem SectorOp.run_refines {op : SectorOp} (hf : w.io.FaultFree fuel) (hv : op.Valid w) :
    ∃ w', op.run fuel w = some (0, w') ∧ w'.arrays = op.step w.position w.arrays ∧
      w'.position = w.position ∧ w'.io.FaultFree fuel ∧ ∀ i, w.Present i → w'.Present i := by
  cases op with
  | write drive start n data =>
    obtain ⟨ha, hn, hlba, -⟩ := hv
    obtain ⟨ph, b', hrun, hserved⟩ := ideWriteSectorsCounted_spec _ ha rfl hf hn hlba
    refine ⟨_, hrun, ?_, rfl, hserved.faultFree hf,
      fun i hi ↦ hi.served rfl rfl hserved rfl rfl⟩
    exact congrArg (SectorArrays.mk · w.mem) (Kernel.arrays_of_served (w.setIo b') hserved)
  | read drive k lba buf =>
    obtain ⟨ha, hk, hk', hlba, -⟩ := hv
    obtain ⟨ph, busy, b', hrun, hserved, hbusy⟩ := ideReadSectors_spec buf (n := k) ha rfl
      hf.latency_lt (by omega) (show lba < 2 ^ 28 by omega)
    refine ⟨_, hrun, ?_, rfl, hserved.faultFree hf,
      fun i hi ↦ hi.served rfl rfl hserved (hbusy hk) rfl⟩
    have hdisk := (Kernel.arrays_of_served (w.setIo b') hserved).trans
      (Function.update_eq_self (w.position drive) w.arrays.disk)
    exact congrArg (SectorArrays.mk · _) hdisk
  | client f => exact ⟨_, rfl, rfl, rfl, hf, fun i hi ↦ hi.of_unit rfl rfl hi.ready rfl⟩

theorem SectorOp.Valid.mono {op : SectorOp} (hv : op.Valid w)
    (hpresent : ∀ i, w.Present i → w'.Present i) : op.Valid w' := by
  cases op with
  | write => exact ⟨hpresent _ hv.1, hv.2⟩
  | read => exact ⟨hpresent _ hv.1, hv.2⟩
  | client => trivial

/-- **PIO sector I/O refines the sector arrays.** On devices without faults every sequence of
writes and reads on present drives returns a zero for each call, and leaves arrays and memory
as the abstract steps do. -/
theorem runOps_refines {ops : List SectorOp} (hf : w.io.FaultFree fuel)
    (hv : ∀ op ∈ ops, op.Valid w) :
    ∃ w', runOps fuel ops w = some (List.replicate ops.length 0, w') ∧
      w'.arrays = ops.foldl (fun s op ↦ op.step w.position s) w.arrays := by
  induction ops generalizing w with
  | nil => exact ⟨w, rfl, rfl⟩
  | cons op ops ih =>
    obtain ⟨w₁, hrun, harr, hpos, hf₁, hpres⟩ := SectorOp.run_refines hf (hv op (by simp))
    obtain ⟨w₂, hruns, harrs⟩ := ih hf₁ fun o ho ↦ (hv o (by simp [ho])).mono hpres
    refine ⟨w₂, ?_, ?_⟩
    · rw [runOps, bind_apply_of_runs hrun, bind_apply_of_runs hruns]
      rfl
    · rw [harrs, List.foldl_cons, harr, hpos]

end Refinement

/-! ### A machine with four blank disks -/

/-- A disk of zeros whose IDENTIFY block is `idData`. -/
def AtaUnit.blank (idData : Sector) : AtaUnit where
  idle := 0x50
  sigLo := 0
  sigHi := 0
  idStatus := 0x58
  idData := idData
  sectors _ _ := 0
  phase := .idle
  busy := 0

/-- Four such disks, always in time. -/
def AtaBus.blank (idData : Sector) : AtaBus where
  chan _ := ⟨0, 0, 0, 0, 0, fun _ ↦ .blank idData⟩
  latency _ := 0
  refuses _ := false
  clock := 0
  other := 0xFF

/-- The kernel with four blank disks of `size` sectors in its table. -/
def Kernel.blank (heap : Heap) (size : ℕ) : Kernel AtaBus where
  heap := heap
  channels := ideChannels
  ideDevices i := ⟨1, i / 2, i % 2, 0, 0, 0, 0, UInt32.ofNat size, fun _ ↦ 0⟩
  ideBuf _ := 0
  timerTicks := 0
  io := .blank fun _ ↦ 0

theorem Kernel.attached_blank (heap : Heap) (size : ℕ) {i : ℕ} (hi : i < 4) :
    Attached (Kernel.blank heap size) i (i / 2) (i % 2) :=
  ⟨hi, Nat.one_ne_zero, rfl, rfl, by omega, by omega, rfl, rfl,
    show (0x50 : UInt8) &&& ataSrBsy = 0 by decide⟩

theorem AtaBus.faultFree_blank (idData : Sector) : (AtaBus.blank idData).FaultFree 1 :=
  ⟨fun _ ↦ Nat.one_pos, fun _ ↦ rfl⟩

/-- A write of three hundred sectors, which takes two chunks, and a read across their border. -/
theorem runOps_write_read :
    ∃ w', runOps 1 [.write 1 250 300 0x100000, .read 1 4 504 0x200000]
        (Kernel.blank (Heap.boot fun _ ↦ 7) 40000) = some ([0, 0], w') ∧
      w'.arrays = SectorOp.step (fun i ↦ (i / 2, i % 2)) (.read 1 4 504 0x200000)
        (SectorOp.step (fun i ↦ (i / 2, i % 2)) (.write 1 250 300 0x100000)
          (Kernel.blank (Heap.boot fun _ ↦ 7) 40000).arrays) := by
  have hattached : (Kernel.blank (Heap.boot fun _ ↦ 7) 40000).Present 1 :=
    Kernel.attached_blank _ _ (by decide)
  refine runOps_refines (AtaBus.faultFree_blank _) ?_
  intro op hop
  rcases List.mem_pair.1 hop with rfl | rfl
  · exact ⟨hattached, by decide, by decide, by decide, by decide⟩
  · exact ⟨hattached, by decide, by decide, by decide, by decide⟩
