import BinbowsDOS.Ide.Driver

/-!
# What the driver can change

Whatever the ports answer, a driver call that returns has changed the ports, and a read has
besides changed the bytes of the buffer it was given; tables, heap and all other memory are as
before. These are statements about every run on every `PortBus`, so they also hold for devices
that fail, lie or are absent. Most programs of the driver only access ports, so they respect any
preorder that those accesses respect (`PortAccess`); each is followed once for all of them.

Also here: a write never reports a device error (`ideWriteSectorsCounted_result`), since it
polls without looking at the error bits.
-/

namespace Kernel

variable {σ : Type} {w w' w'' : Kernel σ}

@[simp] theorem heap_setIo (io : σ) : (w.setIo io).heap = w.heap := rfl
@[simp] theorem mem_setIo (io : σ) : (w.setIo io).mem = w.mem := rfl
@[simp] theorem channels_setIo (io : σ) : (w.setIo io).channels = w.channels := rfl
@[simp] theorem ideDevices_setIo (io : σ) : (w.setIo io).ideDevices = w.ideDevices := rfl
@[simp] theorem ideBuf_setIo (io : σ) : (w.setIo io).ideBuf = w.ideBuf := rfl
@[simp] theorem io_setIo (io : σ) : (w.setIo io).io = io := rfl
@[simp] theorem setIo_setIo (io io' : σ) : (w.setIo io).setIo io' = w.setIo io' := rfl
@[simp] theorem setIo_self : w.setIo w.io = w := rfl

@[simp] theorem mem_setMem (m : ByteMem) : (w.setMem m).mem = m := rfl
@[simp] theorem channels_setMem (m : ByteMem) : (w.setMem m).channels = w.channels := rfl
@[simp] theorem ideDevices_setMem (m : ByteMem) : (w.setMem m).ideDevices = w.ideDevices := rfl
@[simp] theorem io_setMem (m : ByteMem) : (w.setMem m).io = w.io := rfl
@[simp] theorem setMem_setMem (m m' : ByteMem) : (w.setMem m).setMem m' = w.setMem m' := rfl
@[simp] theorem setMem_self : w.setMem w.mem = w := rfl

@[simp] theorem heap_setMem (m : ByteMem) : (w.setMem m).heap = { w.heap with mem := m } := rfl

@[simp] theorem heap_setHeap (h : Heap) : (w.setHeap h).heap = h := rfl
@[simp] theorem mem_setHeap (h : Heap) : (w.setHeap h).mem = h.mem := rfl
@[simp] theorem channels_setHeap (h : Heap) : (w.setHeap h).channels = w.channels := rfl
@[simp] theorem ideDevices_setHeap (h : Heap) : (w.setHeap h).ideDevices = w.ideDevices := rfl
@[simp] theorem io_setHeap (h : Heap) : (w.setHeap h).io = w.io := rfl
@[simp] theorem setHeap_setHeap (h h' : Heap) : (w.setHeap h).setHeap h' = w.setHeap h' := rfl
@[simp] theorem setHeap_self : w.setHeap w.heap = w := rfl

/-- Only the ports have changed. -/
def PortsOnly (w w' : Kernel σ) : Prop := w' = w.setIo w'.io

/-- Only the ports and `n` bytes of memory at `a` have changed. -/
def BufferOnly (a n : ℕ) (w w' : Kernel σ) : Prop :=
  w' = (w.setMem w'.mem).setIo w'.io ∧ ∀ x, x < a ∨ a + n ≤ x → w'.mem x = w.mem x

theorem PortsOnly.refl (w : Kernel σ) : PortsOnly w w := rfl

theorem PortsOnly.trans (h₁ : PortsOnly w w') (h₂ : PortsOnly w' w'') : PortsOnly w w'' := by
  rw [h₂, h₁]
  rfl

theorem PortsOnly.heap_eq (h : PortsOnly w w') : w'.heap = w.heap := by rw [h]; rfl

theorem PortsOnly.mem_eq (h : PortsOnly w w') : w'.mem = w.mem := by rw [h]; rfl

theorem PortsOnly.ideDevices_eq (h : PortsOnly w w') : w'.ideDevices = w.ideDevices := by
  rw [h]
  rfl

theorem PortsOnly.channels_eq (h : PortsOnly w w') : w'.channels = w.channels := by
  rw [h]
  rfl

theorem PortsOnly.bufferOnly (h : PortsOnly w w') (a n : ℕ) : BufferOnly a n w w' := by
  refine ⟨?_, fun x _ ↦ by rw [h.mem_eq]⟩
  rw [h.mem_eq, Kernel.setMem_self]
  exact h

theorem BufferOnly.refl (a n : ℕ) (w : Kernel σ) : BufferOnly a n w w := ⟨rfl, fun _ _ ↦ rfl⟩

theorem BufferOnly.trans {a n : ℕ} (h₁ : BufferOnly a n w w') (h₂ : BufferOnly a n w' w'') :
    BufferOnly a n w w'' := by
  refine ⟨?_, fun x hx ↦ (h₂.2 x hx).trans (h₁.2 x hx)⟩
  have h₃ := h₂.1
  rw [h₁.1] at h₃
  exact h₃

theorem BufferOnly.heap_eq {a n : ℕ} (h : BufferOnly a n w w') :
    w'.heap = { w.heap with mem := w'.mem } := by
  conv_lhs => rw [h.1]
  rfl

end Kernel

open Kernel Prog

section Driver

variable {σ : Type}

/-- One millisecond is no tick. -/
theorem timerWaitMs_one : timerWaitMs 1 = (pure () : KernelM σ Unit) := rfl

/-- A preorder that holds across every access to a port that leaves memory alone. -/
structure PortAccess {σ : Type} [PortBus σ] (R : Kernel σ → Kernel σ → Prop) : Prop where
  /-- Reflexive. -/
  refl : ∀ w, R w w
  /-- Transitive. -/
  trans : ∀ w w' w'', R w w' → R w' w'' → R w w''
  /-- `inb` -/
  inb : ∀ port, Respects R (inb port : KernelM σ UInt8)
  /-- `outb` -/
  outb : ∀ port data, Respects R (outb port data : KernelM σ Unit)
  /-- `outsw` -/
  outsw : ∀ port addr, Respects R (outsw port addr : KernelM σ Unit)

variable [PortBus σ]

theorem portAccess_portsOnly : PortAccess (PortsOnly : Kernel σ → Kernel σ → Prop) where
  refl := PortsOnly.refl
  trans _ _ _ := PortsOnly.trans
  inb port := by
    rintro w v w' h
    obtain ⟨-, rfl⟩ := Prod.mk.inj (Option.some.inj h)
    rfl
  outb port data := by
    rintro w v w' h
    obtain ⟨-, rfl⟩ := Prod.mk.inj (Option.some.inj h)
    rfl
  outsw port addr := by
    rintro w v w' h
    obtain ⟨-, rfl⟩ := Prod.mk.inj (Option.some.inj h)
    rfl

theorem portAccess_bufferOnly (a n : ℕ) :
    PortAccess (BufferOnly a n : Kernel σ → Kernel σ → Prop) where
  refl := BufferOnly.refl a n
  trans _ _ _ := BufferOnly.trans
  inb port := (portAccess_portsOnly.inb port).mono fun _ _ h ↦ h.bufferOnly a n
  outb port data := (portAccess_portsOnly.outb port data).mono fun _ _ h ↦ h.bufferOnly a n
  outsw port addr := (portAccess_portsOnly.outsw port addr).mono fun _ _ h ↦ h.bufferOnly a n

theorem insw_respects (port addr : ℕ) :
    Respects (BufferOnly addr 512) (insw port addr : KernelM σ Unit) := by
  rintro w v w' h
  obtain ⟨-, rfl⟩ := Prod.mk.inj (Option.some.inj h)
  exact ⟨rfl, fun x hx ↦ ByteMem.blit_apply_of_not_mem hx⟩

section Access

variable {R : Kernel σ → Kernel σ → Prop} (hR : PortAccess R)

include hR

theorem PortAccess.bind {α β : Type} {m : KernelM σ α} {f : α → KernelM σ β}
    (hm : Respects R m) (hf : ∀ a, Respects R (f a)) : Respects R (m >>= f) :=
  respects_bind hR.trans hm hf

theorem PortAccess.pure {α : Type} (a : α) : Respects R (pure a : KernelM σ α) :=
  respects_pure hR.refl a

theorem PortAccess.get : Respects R (get : KernelM σ (Kernel σ)) := respects_get hR.refl

/-! ### Port I/O and polling -/

theorem ideSelectHob_respects (channel reg : ℕ) :
    Respects R (ideSelectHob channel reg : KernelM σ Unit) :=
  respects_ite (hR.bind hR.get fun _ ↦ hR.outb _ _) (hR.pure ())

theorem ideRead_respects (channel reg : ℕ) : Respects R (ideRead channel reg : KernelM σ UInt8) :=
  hR.bind (ideSelectHob_respects hR channel reg) fun _ ↦ hR.bind hR.get fun _ ↦ hR.inb _

theorem ideWrite_respects (channel reg : ℕ) (data : UInt8) :
    Respects R (ideWrite channel reg data : KernelM σ Unit) :=
  hR.bind (ideSelectHob_respects hR channel reg) fun _ ↦ hR.bind hR.get fun _ ↦ hR.outb _ _

theorem readAltStatus_respects (channel n : ℕ) :
    Respects R (readAltStatus channel n : KernelM σ Unit) := by
  induction n with
  | zero => exact hR.pure ()
  | succ n ih => exact hR.bind (ideRead_respects hR _ _) fun _ ↦ ih

theorem waitWhileBusy_respects (channel fuel : ℕ) :
    Respects R (waitWhileBusy channel fuel : KernelM σ Unit) := by
  induction fuel with
  | zero => exact fun _ _ _ h ↦ by simp [Runs, waitWhileBusy] at h
  | succ fuel ih =>
    exact hR.bind (ideRead_respects hR _ _) fun _ ↦ respects_ite ih (hR.pure ())

theorem idePolling_respects (fuel channel check : ℕ) :
    Respects R (idePolling fuel channel check : KernelM σ ℕ) :=
  hR.bind (readAltStatus_respects hR _ _) fun _ ↦
    hR.bind (waitWhileBusy_respects hR _ _) fun _ ↦
      respects_ite
        (hR.bind (ideRead_respects hR _ _) fun _ ↦
          respects_ite (hR.pure _) <| respects_ite (hR.pure _) <|
            respects_ite (hR.pure _) (hR.pure _))
        (hR.pure _)

/-! ### Sector transfer -/

theorem ideSetup_respects (channel slavebit head count lba0 lba1 lba2 : ℕ) (command : UInt8) :
    Respects R (ideSetup channel slavebit head count lba0 lba1 lba2 command : KernelM σ Unit) :=
  hR.bind (ideWrite_respects hR _ _ _) fun _ ↦ hR.bind (hR.pure ()) fun _ ↦
    hR.bind (ideWrite_respects hR _ _ _) fun _ ↦
      hR.bind (ideWrite_respects hR _ _ _) fun _ ↦
        hR.bind (ideWrite_respects hR _ _ _) fun _ ↦
          hR.bind (ideWrite_respects hR _ _ _) fun _ ↦ ideWrite_respects hR _ _ _

theorem writeSectorsLoop_respects (fuel channel bus data i n : ℕ) :
    Respects R (writeSectorsLoop fuel channel bus data i n : KernelM σ ℕ) := by
  induction n generalizing i with
  | zero => exact hR.pure 0
  | succ n ih =>
    exact hR.bind (idePolling_respects hR _ _ _) fun _ ↦
      respects_ite (hR.pure _) (hR.bind (hR.outsw _ _) fun _ ↦ ih _)

theorem writeChunksLoop_respects (fuel drive data passes written remaining lba : ℕ) :
    Respects R (writeChunksLoop fuel drive data passes written remaining lba : KernelM σ ℕ) := by
  induction passes generalizing written remaining lba with
  | zero =>
    refine respects_ite (hR.pure 0) fun _ _ _ h ↦ ?_
    simp [Runs] at h
  | succ passes ih =>
    exact respects_ite (hR.pure 0) <| respects_ite (hR.pure 3) <|
      hR.bind hR.get fun _ ↦ hR.bind (ideSetup_respects hR _ _ _ _ _ _ _ _) fun _ ↦
        hR.bind (writeSectorsLoop_respects hR _ _ _ _ _ _) fun _ ↦
          respects_ite (hR.pure _) <| hR.bind (ideWrite_respects hR _ _ _) fun _ ↦
            hR.bind (idePolling_respects hR _ _ _) fun _ ↦
              respects_ite (hR.pure _) (ih _ _ _)

/-- **A write** only accesses ports. -/
theorem ideWriteSectorsCounted_respects (fuel drive startLba byteCount buf : ℕ) :
    Respects R (ideWriteSectorsCounted fuel drive startLba byteCount buf : KernelM σ ℕ) :=
  hR.bind hR.get fun _ ↦ respects_ite (hR.pure _) <| respects_ite (hR.pure _) <|
    respects_ite (hR.pure _) <| writeChunksLoop_respects hR _ _ _ _ _ _ _

/-! ### Detection -/

theorem statusWhileBusy_respects (channel fuel : ℕ) (status : UInt8) :
    Respects R (statusWhileBusy channel fuel status : KernelM σ UInt8) := by
  induction fuel generalizing status with
  | zero => exact fun _ _ _ h ↦ by simp [Runs, statusWhileBusy] at h
  | succ fuel ih =>
    exact respects_ite (hR.bind (ideRead_respects hR _ _) fun _ ↦ ih _) (hR.pure _)

theorem awaitData_respects (channel fuel : ℕ) :
    Respects R (awaitData channel fuel : KernelM σ Bool) := by
  induction fuel with
  | zero => exact fun _ _ _ h ↦ by simp [Runs, awaitData] at h
  | succ fuel ih =>
    exact hR.bind (ideRead_respects hR _ _) fun _ ↦
      respects_ite (hR.pure _) (respects_ite (hR.pure _) ih)

theorem ideDeviceExists_respects (fuel channel drive : ℕ) :
    Respects R (ideDeviceExists fuel channel drive : KernelM σ ℕ) :=
  respects_ite (hR.pure _) <| respects_ite (hR.pure _) <|
    hR.bind (ideWrite_respects hR _ _ _) fun _ ↦
      hR.bind (readAltStatus_respects hR _ _) fun _ ↦
        hR.bind (ideRead_respects hR _ _) fun _ ↦ respects_ite (hR.pure _) <|
          hR.bind (ideWrite_respects hR _ _ _) fun _ ↦
            hR.bind (readAltStatus_respects hR _ _) fun _ ↦
              hR.bind (ideRead_respects hR _ _) fun _ ↦ respects_ite (hR.pure _) <|
                hR.bind (statusWhileBusy_respects hR _ _ _) fun _ ↦
                  respects_ite (hR.pure _) <| hR.bind (ideRead_respects hR _ _) fun _ ↦
                    hR.bind (ideRead_respects hR _ _) fun _ ↦ hR.pure _

end Access

/-! ### Reads -/

theorem readSectorsLoop_respects (fuel channel bus buf i n N : ℕ) (hN : i + n ≤ N) :
    Respects (BufferOnly buf (512 * N))
      (readSectorsLoop fuel channel bus buf i n : KernelM σ ℕ) := by
  have hR := portAccess_bufferOnly (σ := σ) buf (512 * N)
  induction n generalizing i with
  | zero => exact hR.pure 0
  | succ n ih =>
    refine hR.bind (idePolling_respects hR _ _ _) fun _ ↦ respects_ite (hR.pure _) <|
      hR.bind ((insw_respects _ _).mono ?_) fun _ ↦ ih _ (by omega)
    intro s t h
    exact ⟨h.1, fun x hx ↦ h.2 x (by omega)⟩

/-- **A read** changes no memory but its buffer. -/
theorem ideReadSectors_respects (fuel drive numsects lba buf : ℕ) :
    Respects (BufferOnly buf (512 * numsects))
      (ideReadSectors fuel drive numsects lba buf : KernelM σ ℕ) := by
  have hR := portAccess_bufferOnly (σ := σ) buf (512 * numsects)
  have hloop := fun c b ↦ readSectorsLoop_respects (σ := σ) fuel c b buf 0 numsects numsects
    (by omega)
  refine hR.bind hR.get fun w ↦ respects_ite (hR.pure _) ?_
  dsimp only
  split
  · exact hR.bind (ideSetup_respects hR _ _ _ _ _ _ _ _) fun _ ↦ hloop _ _
  · exact hR.bind (ideSetup_respects hR _ _ _ _ _ _ _ _) fun _ ↦ hloop _ _

/-! ### What a write reports -/

/-- Polling without the check reports nothing. -/
theorem idePolling_zero_result {fuel channel r : ℕ} {w w' : Kernel σ}
    (h : Runs (idePolling fuel channel 0) w r w') : r = 0 := by
  obtain ⟨-, t, -, h⟩ := runs_bind.1 h
  obtain ⟨-, u, -, h⟩ := runs_bind.1 h
  rw [if_neg (by decide)] at h
  exact (runs_pure.1 h).1.symm

theorem writeSectorsLoop_result {fuel channel bus data i n r : ℕ} {w w' : Kernel σ}
    (h : Runs (writeSectorsLoop fuel channel bus data i n) w r w') : r = 0 := by
  induction n generalizing i w with
  | zero => exact (runs_pure.1 h).1.symm
  | succ n ih =>
    obtain ⟨err, t, hpoll, h⟩ := runs_bind.1 h
    rw [idePolling_zero_result hpoll, if_neg (by simp)] at h
    obtain ⟨-, u, -, h⟩ := runs_bind.1 h
    exact ih h

theorem writeChunksLoop_result {fuel drive data passes written remaining lba r : ℕ}
    {w w' : Kernel σ} (hlba : lba + remaining ≤ 2 ^ 28)
    (h : Runs (writeChunksLoop fuel drive data passes written remaining lba) w r w') : r = 0 := by
  induction passes generalizing written remaining lba w with
  | zero =>
    rw [writeChunksLoop] at h
    split at h
    · exact (runs_pure.1 h).1.symm
    · simp [Runs] at h
  | succ passes ih =>
    rw [writeChunksLoop] at h
    rcases eq_or_ne remaining 0 with hzero | hzero
    · rw [if_pos hzero] at h
      exact (runs_pure.1 h).1.symm
    · rw [if_neg hzero, if_neg (by omega)] at h
      rw [runs_get_bind] at h
      obtain ⟨-, t, -, h⟩ := runs_bind.1 h
      obtain ⟨err, t, hloop, h⟩ := runs_bind.1 h
      rw [writeSectorsLoop_result hloop, if_neg (by simp)] at h
      obtain ⟨-, t, -, h⟩ := runs_bind.1 h
      obtain ⟨ret, t, hpoll, h⟩ := runs_bind.1 h
      rw [idePolling_zero_result hpoll, if_neg (by simp)] at h
      -- what is left still fits into 28 bits
      refine ih ?_ h
      have hn : u8 remaining = remaining ∨ 256 ≤ remaining := by
        rw [u8]
        omega
      rw [u32]
      split <;> split <;> omega

/-- **A write never reports a device error**: on a present drive and in range it returns 0,
whatever the device did with the data. -/
theorem ideWriteSectorsCounted_result {fuel drive lba n buf r : ℕ} {w w' : Kernel σ}
    (hdrive : drive < 4) (hpresent : (w.ideDevices drive).reserved ≠ 0)
    (hlba : lba + n ≤ 2 ^ 28)
    (h : Runs (ideWriteSectorsCounted fuel drive lba (512 * n) buf) w r w') : r = 0 := by
  rw [ideWriteSectorsCounted, runs_get_bind, if_neg (by omega)] at h
  rcases eq_or_ne (512 * n) 0 with hn | hn
  · rw [if_pos hn] at h
    exact (runs_pure.1 h).1.symm
  · rw [if_neg hn, if_neg (by omega)] at h
    exact writeChunksLoop_result (by omega) h

end Driver
