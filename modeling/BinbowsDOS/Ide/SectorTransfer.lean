import BinbowsDOS.Ide.AtaDevice

/-!
# Sector transfer on ATA devices

The driver's transfers, run on an `AtaBus`. Each program is evaluated once: register access,
polling, the set-up of a command, one sector, the loop of a chunk, the chunks.
-/

open Prog Kernel

/-- The channel table is the one of `ide_initialize`. -/
def Kernel.Wired {σ : Type} (w : Kernel σ) : Prop := w.channels = ideChannels

section Registers

variable {w : Kernel AtaBus} {c d reg : ℕ} {v : UInt8}

theorem AtaBus.decode_port (hc : c < 2) (hreg : reg < 8) :
    AtaBus.decode ((ideChannels c).port reg) = some (c, reg) := by
  interval_cases c <;> interval_cases reg <;> decide

theorem AtaBus.decode_base (hc : c < 2) :
    AtaBus.decode (ideChannels c).base = some (c, ataRegData) := by
  interval_cases c <;> decide

theorem AtaBus.decode_altStatus (hc : c < 2) :
    AtaBus.decode ((ideChannels c).port ataRegAltStatus) = none := by
  interval_cases c <;> decide

theorem ideRead_status (hw : w.Wired) (hc : c < 2) :
    ideRead c ataRegStatus w =
      some ((w.io.readStatus c).1, w.setIo (w.io.readStatus c).2) := by
  show some ((PortBus.inb ((w.channels c).port ataRegStatus) w.io).1, _) = _
  rw [hw]
  simp only [PortBus.inb, AtaBus.decode_port hc (show ataRegStatus < 8 by decide), ↓reduceIte]

theorem ideWrite_reg (hw : w.Wired) (hc : c < 2) (hreg : reg < 7) :
    ideWrite c reg v w =
      some ((), w.setIo (w.io.setChan c ((w.io.chan c).setReg reg v))) := by
  have hob : ¬ (0x07 < reg ∧ reg < 0x0C) := by omega
  have hcmd : reg ≠ ataRegCommand := by rw [ataRegCommand]; omega
  rw [ideWrite, ideSelectHob, if_neg hob]
  show some ((), w.setIo (PortBus.outb ((w.channels c).port reg) v w.io)) = _
  rw [hw]
  simp only [PortBus.outb, AtaBus.decode_port hc (show reg < 8 by omega), if_neg hcmd]

theorem ideWrite_command (hw : w.Wired) (hc : c < 2) :
    ideWrite c ataRegCommand v w = some ((), w.setIo (w.io.command c v)) := by
  show some ((), w.setIo (PortBus.outb ((w.channels c).port ataRegCommand) v w.io)) = _
  rw [hw]
  simp only [PortBus.outb, AtaBus.decode_port hc (show ataRegCommand < 8 by decide), ↓reduceIte]

theorem insw_data (addr : ℕ) (hc : c < 2) :
    insw (ideChannels c).base addr w =
      some ((), (w.setMem (w.mem.blit addr 512 (w.io.dataIn c).1.bytes)).setIo
        (w.io.dataIn c).2) := by
  simp only [insw, PortBus.insw, AtaBus.decode_base hc, ↓reduceIte]

theorem outsw_data {addr : ℕ} (hc : c < 2) :
    outsw (ideChannels c).base addr w =
      some ((), w.setIo (w.io.dataOut c (w.mem.sectorAt addr))) := by
  simp only [outsw, PortBus.outsw, AtaBus.decode_base hc, ↓reduceIte]

/-- Nothing answers at the port the alternate status is read from. -/
theorem readAltStatus_apply (hw : w.Wired) (hc : c < 2) (n : ℕ) :
    readAltStatus c n w = some ((), w) := by
  have hread : ideRead c ataRegAltStatus w = some (w.io.other, w) := by
    show some ((PortBus.inb ((w.channels c).port ataRegAltStatus) w.io).1,
      w.setIo (PortBus.inb ((w.channels c).port ataRegAltStatus) w.io).2) = _
    rw [hw]
    simp only [PortBus.inb, AtaBus.decode_altStatus hc, Kernel.setIo_self]
  induction n with
  | zero => rfl
  | succ n ih => rw [readAltStatus, bind_apply_of_runs hread, ih]

end Registers

/-! ### Polling -/

section Polling

variable {w : Kernel AtaBus} {c d fuel : ℕ} {u : AtaUnit}

/-- The wait for BSY ends, and leaves the unit not busy. -/
theorem waitWhileBusy_spec (hw : w.Wired) (hc : c < 2) (hd : (w.io.chan c).selected = d)
    (hu : w.io.unit c d = u) (hbusy : u.busy < fuel)
    (hbsy : AtaUnit.status { u with busy := 0 } &&& ataSrBsy = 0) :
    ∃ b', waitWhileBusy c fuel w = some ((), w.setIo b') ∧
      AtaBus.Served c d w.io { u with busy := 0 } b' ∧ (b'.chan c).selected = d ∧
      b'.clock = w.io.clock := by
  induction fuel generalizing w u with
  | zero => omega
  | succ fuel ih =>
    have hcur : w.io.current c = u := (AtaBus.current_of_selected hd).trans hu
    rw [waitWhileBusy, bind_apply_of_runs (ideRead_status hw hc)]
    simp only [AtaBus.readStatus, hcur]
    have hserved := AtaBus.served_setCurrent (u := { u with busy := u.busy - 1 }) hd
    rcases eq_or_ne u.busy 0 with hzero | hzero
    · have hself : ({ u with busy := u.busy - 1 } : AtaUnit) = { u with busy := 0 } := by
        rw [hzero]
      have hstatus : u.status &&& ataSrBsy = 0 := by
        rwa [show u = { u with busy := 0 } by rw [← hzero]]
      rw [if_neg (by simp [hstatus]), hself]
      exact ⟨_, rfl, hself ▸ hserved, AtaBus.selected_setCurrent.trans hd, rfl⟩
    · have hstatus : u.status = ataSrBsy := if_pos (Nat.pos_of_ne_zero hzero)
      rw [if_pos (by rw [hstatus]; decide)]
      obtain ⟨b', hrun, hserved', hsel, hclock⟩ := ih (u := { u with busy := u.busy - 1 })
        (w := w.setIo (w.io.setCurrent c { u with busy := u.busy - 1 })) hw
        (AtaBus.selected_setCurrent.trans hd) hserved.unit_eq (by simp only; omega) hbsy
      exact ⟨b', hrun, hserved.trans hserved', hsel, hclock⟩

/-- Polling without the check waits for the unit. -/
theorem idePolling_zero_spec (hw : w.Wired) (hc : c < 2) (hd : (w.io.chan c).selected = d)
    (hu : w.io.unit c d = u) (hbusy : u.busy < fuel)
    (hbsy : AtaUnit.status { u with busy := 0 } &&& ataSrBsy = 0) :
    ∃ b', idePolling fuel c 0 w = some (0, w.setIo b') ∧
      AtaBus.Served c d w.io { u with busy := 0 } b' ∧ (b'.chan c).selected = d ∧
      b'.clock = w.io.clock := by
  obtain ⟨b', hrun, hrest⟩ := waitWhileBusy_spec hw hc hd hu hbusy hbsy
  refine ⟨b', ?_, hrest⟩
  rw [idePolling, bind_apply_of_runs (readAltStatus_apply hw hc 4), bind_apply_of_runs hrun]
  rfl

/-- Polling with the check succeeds on a unit that has data to move. -/
theorem idePolling_one_spec (hw : w.Wired) (hc : c < 2) (hd : (w.io.chan c).selected = d)
    (hu : w.io.unit c d = u) (hbusy : u.busy < fuel)
    (hdata : AtaUnit.status { u with busy := 0 } = 0x58) :
    ∃ b', idePolling fuel c 1 w = some (0, w.setIo b') ∧
      AtaBus.Served c d w.io { u with busy := 0 } b' ∧ (b'.chan c).selected = d ∧
      b'.clock = w.io.clock := by
  obtain ⟨b₁, hrun, hserved, hsel, hclock⟩ :=
    waitWhileBusy_spec hw hc hd hu hbusy (by rw [hdata]; decide)
  have hcur : b₁.current c = { u with busy := 0 } :=
    (AtaBus.current_of_selected hsel).trans hserved.unit_eq
  have hserved' := AtaBus.served_setCurrent (b := b₁) (u := { u with busy := 0 }) hsel
  refine ⟨b₁.setCurrent c { u with busy := 0 }, ?_, hserved.trans hserved',
    AtaBus.selected_setCurrent.trans hsel, hclock⟩
  rw [idePolling, bind_apply_of_runs (readAltStatus_apply hw hc 4), bind_apply_of_runs hrun]
  show (if (1 : ℕ) ≠ 0 then _ else _ : KernelM AtaBus ℕ) _ = _
  rw [if_pos (by decide), bind_apply_of_runs (ideRead_status (w := w.setIo b₁) hw hc)]
  simp only [AtaBus.readStatus, Kernel.io_setIo, hcur, hdata]
  rfl

end Polling

/-! ### Setting up a command -/

section Setup

variable {w : Kernel AtaBus} {c d head lba count fuel : ℕ} {u : AtaUnit} {cmd : UInt8}

theorem driveHead_toNat : ∀ s < 2, ∀ h < 16, (driveHead s h).toNat = 224 + 16 * s + h := by
  decide

/-- The bus once the drive, the count and the LBA are in the registers of channel `c`. -/
def AtaBus.program (b : AtaBus) (c s head count lba0 lba1 lba2 : ℕ) : AtaBus :=
  b.setChan c { b.chan c with
    hddevsel := driveHead s head
    seccount := UInt8.ofNat count
    lba0 := UInt8.ofNat lba0
    lba1 := UInt8.ofNat lba1
    lba2 := UInt8.ofNat lba2 }

theorem ideSetup_apply (hw : w.Wired) (hc : c < 2) (s head count lba0 lba1 lba2 : ℕ) :
    ideSetup c s head count lba0 lba1 lba2 cmd w =
      some ((), w.setIo ((w.io.program c s head count lba0 lba1 lba2).command c cmd)) := by
  have hreg : ∀ (b : AtaBus) (reg : ℕ) (v : UInt8), reg < 7 → ideWrite c reg v (w.setIo b) =
      some ((), w.setIo (b.setChan c ((b.chan c).setReg reg v))) := fun b reg v h ↦
    ideWrite_reg (w := w.setIo b) hw hc h
  rw [ideSetup, timerWaitMs_one, ← Kernel.setIo_self (w := w),
    bind_apply_of_runs (hreg _ _ _ (by decide)), pure_bind,
    bind_apply_of_runs (hreg _ _ _ (by decide)), bind_apply_of_runs (hreg _ _ _ (by decide)),
    bind_apply_of_runs (hreg _ _ _ (by decide)), bind_apply_of_runs (hreg _ _ _ (by decide))]
  simp only [AtaBus.setChan_setChan, AtaBus.chan_setChan_self]
  exact ideWrite_command (w := w.setIo _) hw hc

/-- The LBA survives its way through the registers. -/
theorem AtaBus.lba_program (b : AtaBus) (c count : ℕ) (hd : d < 2) (hlba : lba < 2 ^ 28) :
    ((b.program c d ((lba >>> 24) &&& 0x0F) count ((lba >>> 0) &&& 0xFF) ((lba >>> 8) &&& 0xFF)
      ((lba >>> 16) &&& 0xFF)).chan c).lba = lba ∧
    ((b.program c d ((lba >>> 24) &&& 0x0F) count ((lba >>> 0) &&& 0xFF) ((lba >>> 8) &&& 0xFF)
      ((lba >>> 16) &&& 0xFF)).chan c).selected = d := by
  have hmask : ∀ k, (lba >>> k) &&& 0xFF = lba / 2 ^ k % 2 ^ 8 :=
    fun k ↦ shiftRight_and_mask lba k 8
  have hhead : (lba >>> 24) &&& 0x0F = lba / 2 ^ 24 % 2 ^ 4 := shiftRight_and_mask lba 24 4
  have htop := driveHead_toNat d hd (lba / 2 ^ 24 % 2 ^ 4) (by omega)
  rw [hmask, hmask, hmask, hhead, program, chan_setChan_self, AtaChannel.lba, AtaChannel.selected]
  simp only [htop, UInt8.toNat_ofNat']
  omega

/-- The phase a transfer command starts. -/
def transferPhase (cmd : UInt8) (lba count : ℕ) : AtaPhase :=
  if cmd = ataCmdReadPio then .dataIn lba count else .dataOut lba count

/-- A transfer command puts the unit to work on the sectors in the registers. -/
theorem AtaBus.command_program {b : AtaBus} (hd : d < 2) (hu : b.unit c d = u) (hbusy : u.busy = 0)
    (hlba : lba < 2 ^ 28) (hcount : count < 256)
    (hcmd : cmd = ataCmdReadPio ∨ cmd = ataCmdWritePio) :
    ∃ b', (b.program c d ((lba >>> 24) &&& 0x0F) count ((lba >>> 0) &&& 0xFF)
        ((lba >>> 8) &&& 0xFF) ((lba >>> 16) &&& 0xFF)).command c cmd = b' ∧
      AtaBus.Served c d b { u with
        phase := transferPhase cmd lba (if count = 0 then 256 else count)
        busy := b.latency b.clock } b' ∧
      (b'.chan c).selected = d ∧ b'.clock = b.clock + 1 := by
  refine ⟨_, rfl, ?_⟩
  obtain ⟨hreglba, hsel⟩ := b.lba_program c count hd hlba
  have hprog : AtaBus.Served c d b u (b.program c d ((lba >>> 24) &&& 0x0F) count
      ((lba >>> 0) &&& 0xFF) ((lba >>> 8) &&& 0xFF) ((lba >>> 16) &&& 0xFF)) := by
    subst hu
    exact AtaBus.served_setChan rfl
  have hregcount : ((b.program c d ((lba >>> 24) &&& 0x0F) count ((lba >>> 0) &&& 0xFF)
      ((lba >>> 8) &&& 0xFF) ((lba >>> 16) &&& 0xFF)).chan c).count =
        if count = 0 then 256 else count := by
    rw [AtaBus.program, AtaBus.chan_setChan_self, AtaChannel.count]
    simp only [UInt8.toNat_ofNat']
    rw [Nat.mod_eq_of_lt hcount]
  have hclock : (b.program c d ((lba >>> 24) &&& 0x0F) count ((lba >>> 0) &&& 0xFF)
      ((lba >>> 8) &&& 0xFF) ((lba >>> 16) &&& 0xFF)).clock = b.clock := rfl
  -- from here on only what the registers hold matters
  generalize b.program c d ((lba >>> 24) &&& 0x0F) count ((lba >>> 0) &&& 0xFF)
    ((lba >>> 8) &&& 0xFF) ((lba >>> 16) &&& 0xFF) = b₁ at *
  have hcur : b₁.current c = u := (AtaBus.current_of_selected hsel).trans hprog.unit_eq
  have hcommand : b₁.command c cmd =
      b₁.enter c (transferPhase cmd lba (if count = 0 then 256 else count)) := by
    rw [AtaBus.command, hcur, hbusy, if_neg (by omega), hreglba, hregcount, transferPhase]
    rcases hcmd with rfl | rfl
    · rw [if_pos rfl, if_pos rfl]
    · have hne : ataCmdWritePio ≠ ataCmdReadPio := by decide
      rw [if_neg hne, if_pos rfl, if_neg hne]
  rw [hcommand]
  have hserved := AtaBus.served_enter hsel
    (transferPhase cmd lba (if count = 0 then 256 else count))
  rw [hprog.unit_eq, hprog.latency_eq, hclock] at hserved
  exact ⟨hprog.trans hserved, (AtaBus.selected_enter _).trans hsel, by
    rw [AtaBus.clock_enter, hclock]⟩

/-- A transfer command, once set up, puts the unit to work on the right sectors. -/
theorem ideSetup_spec (hw : w.Wired) (hc : c < 2) (hd : d < 2) (hu : w.io.unit c d = u)
    (hbusy : u.busy = 0) (hlba : lba < 2 ^ 28) (hcount : count < 256)
    (hcmd : cmd = ataCmdReadPio ∨ cmd = ataCmdWritePio) :
    ∃ b', ideSetup c d ((lba >>> 24) &&& 0x0F) count ((lba >>> 0) &&& 0xFF)
        ((lba >>> 8) &&& 0xFF) ((lba >>> 16) &&& 0xFF) cmd w = some ((), w.setIo b') ∧
      AtaBus.Served c d w.io { u with
        phase := transferPhase cmd lba (if count = 0 then 256 else count)
        busy := w.io.latency w.io.clock } b' ∧
      (b'.chan c).selected = d ∧ b'.clock = w.io.clock + 1 := by
  obtain ⟨b', rfl, hb'⟩ := AtaBus.command_program hd hu hbusy hlba hcount hcmd
  exact ⟨_, ideSetup_apply hw hc _ _ _ _ _ _, hb'⟩

end Setup

/-! ### Writing -/

/-- The medium after `n` sectors from `lba` on have been overwritten. -/
def writeRange (s : ℕ → Sector) (lba n : ℕ) (f : ℕ → Sector) : ℕ → Sector := fun x ↦
  if lba ≤ x ∧ x < lba + n then f (x - lba) else s x

theorem writeRange_zero (s : ℕ → Sector) (lba : ℕ) (f : ℕ → Sector) :
    writeRange s lba 0 f = s :=
  funext fun _ ↦ if_neg (by omega)

/-- Two adjacent writes are one. -/
theorem writeRange_append (s : ℕ → Sector) (lba m n : ℕ) (f : ℕ → Sector) :
    writeRange (writeRange s lba m f) (lba + m) n (fun j ↦ f (m + j)) =
      writeRange s lba (m + n) f := by
  funext x
  simp only [writeRange]
  by_cases h₁ : lba + m ≤ x ∧ x < lba + m + n
  · rw [if_pos h₁, if_pos (by omega)]
    exact congrArg f (by omega)
  · rw [if_neg h₁]
    by_cases h₂ : lba ≤ x ∧ x < lba + m
    · rw [if_pos h₂, if_pos (by omega)]
    · rw [if_neg h₂, if_neg (by omega)]

theorem writeRange_one (s : ℕ → Sector) (lba : ℕ) (f : ℕ → Sector) :
    writeRange s lba 1 f = Function.update s lba (f 0) := by
  funext x
  rw [writeRange]
  rcases eq_or_ne x lba with rfl | hx
  · rw [if_pos (by omega), Function.update_self, Nat.sub_self]
  · rw [if_neg (by omega), Function.update_of_ne hx]

section Write

variable {w : Kernel AtaBus} {c d lba n fuel : ℕ} {u : AtaUnit}

/-- A sector that is not rejected is stored, and the unit moves on. -/
theorem outsw_spec {addr : ℕ} (hc : c < 2) (hd : (w.io.chan c).selected = d)
    (hu : w.io.unit c d = u) (hbusy : u.busy = 0) (hphase : u.phase = .dataOut lba (n + 1))
    (haccept : w.io.refuses w.io.clock = false) :
    ∃ b', outsw (ideChannels c).base addr w = some ((), w.setIo b') ∧
      AtaBus.Served c d w.io { u with
        sectors := Function.update u.sectors lba (w.mem.sectorAt addr)
        phase := if n = 0 then .idle else .dataOut (lba + 1) n
        busy := w.io.latency w.io.clock } b' ∧
      (b'.chan c).selected = d := by
  have hcur : w.io.current c = u := (AtaBus.current_of_selected hd).trans hu
  refine ⟨_, outsw_data hc, ?_⟩
  rw [AtaBus.dataOut_accepted hcur hbusy hphase haccept]
  have hstore := AtaBus.served_setCurrent
    (u := { u with sectors := Function.update u.sectors lba (w.mem.sectorAt addr) }) hd
  have henter := AtaBus.served_enter (AtaBus.selected_setCurrent.trans hd)
    (b := w.io.setCurrent c { u with
      sectors := Function.update u.sectors lba (w.mem.sectorAt addr) })
    (if n = 0 then .idle else .dataOut (lba + 1) n)
  rw [hstore.unit_eq] at henter
  exact ⟨hstore.trans henter, (AtaBus.selected_enter _).trans (AtaBus.selected_setCurrent.trans hd)⟩

/-- A rejected sector changes nothing and ends the command. -/
theorem outsw_refused {addr : ℕ} (hc : c < 2) (hd : (w.io.chan c).selected = d)
    (hu : w.io.unit c d = u) (hbusy : u.busy = 0) (hphase : u.phase = .dataOut lba n)
    (hrefuse : w.io.refuses w.io.clock = true) :
    ∃ b', outsw (ideChannels c).base addr w = some ((), w.setIo b') ∧
      AtaBus.Served c d w.io { u with phase := .aborted } b' ∧ (b'.chan c).selected = d := by
  have hcur : w.io.current c = u := (AtaBus.current_of_selected hd).trans hu
  refine ⟨_, outsw_data hc, ?_⟩
  rw [AtaBus.dataOut_refused hcur hbusy hphase hrefuse]
  exact ⟨(AtaBus.served_setCurrent hd).tick, AtaBus.selected_setCurrent.trans hd⟩

/-- The loop over the sectors of a chunk. -/
theorem writeSectorsLoop_spec (data : ℕ) {i : ℕ} (hw : w.Wired) (hc : c < 2)
    (hd : (w.io.chan c).selected = d) (hu : w.io.unit c d = u) (hf : w.io.FaultFree fuel)
    (hbusy : u.busy < fuel) (hphase : u.phase = if n = 0 then .idle else .dataOut lba n) :
    ∃ k b', writeSectorsLoop fuel c (ideChannels c).base data i n w = some (0, w.setIo b') ∧
      k < fuel ∧
      AtaBus.Served c d w.io { u with
        sectors := writeRange u.sectors lba n fun j ↦ w.mem.sectorAt (data + (i + j) * 512)
        phase := .idle
        busy := k } b' ∧
      (b'.chan c).selected = d := by
  induction n generalizing w u lba i with
  | zero =>
    -- nothing is left to store
    have hself : ({ u with
        sectors := writeRange u.sectors lba 0 fun j ↦ w.mem.sectorAt (data + (i + j) * 512)
        phase := .idle
        busy := u.busy } : AtaUnit) = w.io.unit c d := by
      rw [writeRange_zero, hu, ← show u.phase = .idle from hphase]
    exact ⟨u.busy, w.io, rfl, hbusy, hself ▸ AtaBus.Served.refl .., hd⟩
  | succ n ih =>
    rw [if_neg (Nat.succ_ne_zero n)] at hphase
    -- the first sector; the loop goes on from a unit that waits for the others
    obtain ⟨b₁, hpoll, hserved₁, hsel₁, -⟩ := idePolling_zero_spec hw hc hd hu hbusy (by
      rw [AtaUnit.status_dataOut (u := { u with busy := 0 }) rfl hphase]
      decide)
    obtain ⟨b₂, hout, hserved₂, hsel₂⟩ := outsw_spec (w := w.setIo b₁)
      hc hsel₁ hserved₁.unit_eq rfl hphase ((hserved₁.faultFree hf).accepts _)
    have hserved := hserved₁.trans hserved₂
    obtain ⟨k, b₃, hloop, hk, hserved₃, hsel₃⟩ := ih (w := w.setIo b₂) (i := i + 1) hw hsel₂
      hserved₂.unit_eq (hserved.faultFree hf) ((hserved₁.faultFree hf).latency_lt _) rfl
    refine ⟨k, b₃, ?_, hk, ?_, hsel₃⟩
    · rw [writeSectorsLoop, bind_apply_of_runs hpoll, if_neg (by simp), bind_apply_of_runs hout]
      exact hloop
    · have hsectors : writeRange (Function.update u.sectors lba (w.mem.sectorAt (data + i * 512)))
          (lba + 1) n (fun j ↦ w.mem.sectorAt (data + (i + 1 + j) * 512)) =
          writeRange u.sectors lba (n + 1) fun j ↦ w.mem.sectorAt (data + (i + j) * 512) := by
        rw [Nat.add_comm n 1, ← writeRange_append, writeRange_one]
        simp only [Nat.add_zero, Nat.add_assoc]
      exact hsectors ▸ hserved.trans hserved₃

end Write

/-! ### Chunks -/

/-- Slot `i` of the device table is in use, describes position `d` of channel `c`, and the unit
there is not in the middle of something. -/
structure Attached (w : Kernel AtaBus) (i c d : ℕ) : Prop where
  /-- The slot exists. -/
  slot_lt : i < 4
  /-- It is in use. -/
  present : (w.ideDevices i).reserved ≠ 0
  /-- Its channel. -/
  channel_eq : (w.ideDevices i).channel = c
  /-- Its position. -/
  drive_eq : (w.ideDevices i).drive = d
  /-- There are two channels. -/
  channel_lt : c < 2
  /-- There are two positions. -/
  drive_lt : d < 2
  /-- The channel table is set up. -/
  wired : w.Wired
  /-- The unit is not busy. -/
  ready : (w.io.unit c d).busy = 0
  /-- The unit is not busy when it has nothing to do. -/
  quiet : (w.io.unit c d).idle &&& ataSrBsy = 0

section Chunks

variable {w : Kernel AtaBus} {i c d lba n fuel : ℕ} {u : AtaUnit}

theorem Attached.not_absent (ha : Attached w i c d) :
    ¬ (3 < i ∨ (w.ideDevices i).reserved = 0) := by
  have := ha.slot_lt
  have := ha.present
  omega

/-- A drive stays attached while the tables stay as they are and its unit is ready. -/
theorem Attached.of_unit {w' : Kernel AtaBus} (ha : Attached w i c d)
    (hchannels : w'.channels = w.channels) (hdevices : w'.ideDevices = w.ideDevices)
    (hready : (w'.io.unit c d).busy = 0)
    (hidle : (w'.io.unit c d).idle = (w.io.unit c d).idle) : Attached w' i c d :=
  ⟨ha.slot_lt, hdevices ▸ ha.present, hdevices ▸ ha.channel_eq, hdevices ▸ ha.drive_eq,
    ha.channel_lt, ha.drive_lt, hchannels.trans ha.wired, hready, by rw [hidle, ha.quiet]⟩

/-- Serving a unit keeps it attached, if it is left ready and reports the same when idle. -/
theorem Attached.served {w' : Kernel AtaBus} (ha : Attached w i c d)
    (hchannels : w'.channels = w.channels) (hdevices : w'.ideDevices = w.ideDevices)
    (hserved : AtaBus.Served c d w.io u w'.io) (hready : u.busy = 0)
    (hidle : u.idle = (w.io.unit c d).idle) : Attached w' i c d :=
  ha.of_unit hchannels hdevices (by rw [hserved.unit_eq, hready])
    (by rw [hserved.unit_eq, hidle])

/-- The flush after a chunk and the wait for it. -/
theorem cacheFlush_spec (hw : w.Wired) (hc : c < 2) (hd : (w.io.chan c).selected = d)
    (hu : w.io.unit c d = u) (hlat : ∀ k, w.io.latency k < fuel) (hbusy : u.busy < fuel)
    (hphase : u.busy ≠ 0 → u.phase = .idle) (hquiet : u.idle &&& ataSrBsy = 0) :
    ∃ b₁ b₂, ideWrite c ataRegCommand ataCmdCacheFlush w = some ((), w.setIo b₁) ∧
      idePolling fuel c 0 (w.setIo b₁) = some (0, w.setIo b₂) ∧
      AtaBus.Served c d w.io { u with phase := .idle, busy := 0 } b₂ := by
  have hcur : w.io.current c = u := (AtaBus.current_of_selected hd).trans hu
  -- a unit that is still busy with the last sector ignores the flush
  obtain ⟨k, hk, hserved, hsel⟩ : ∃ k, k < fuel ∧
      AtaBus.Served c d w.io { u with phase := .idle, busy := k }
        (w.io.command c ataCmdCacheFlush) ∧
      ((w.io.command c ataCmdCacheFlush).chan c).selected = d := by
    rw [AtaBus.command, hcur]
    rcases eq_or_ne u.busy 0 with hzero | hzero
    · rw [if_neg (by omega), if_neg (by decide), if_neg (by decide), if_pos rfl]
      exact ⟨_, hlat _, hu ▸ AtaBus.served_enter hd .idle, (AtaBus.selected_enter _).trans hd⟩
    · rw [if_pos (Nat.pos_of_ne_zero hzero)]
      refine ⟨u.busy, hbusy, ?_, hd⟩
      rw [← hphase hzero, ← hu]
      exact AtaBus.Served.refl ..
  obtain ⟨b₂, hpoll, hserved₂, -⟩ := idePolling_zero_spec
    (w := w.setIo (w.io.command c ataCmdCacheFlush)) hw hc hsel hserved.unit_eq hk (by
      rw [AtaUnit.status_idle (by rfl) (by rfl)]
      exact hquiet)
  exact ⟨_, b₂, ideWrite_command hw hc, hpoll, hserved.trans hserved₂⟩

/-- A chunk holds at least one sector, at most what is left, and its count fits the register. -/
theorem exists_chunk (hn : n ≠ 0) :
    ∃ m, (if (if 256 ≤ n then 0 else u8 n) = 0 then 256 else (if 256 ≤ n then 0 else u8 n)) = m ∧
      0 < m ∧ m ≤ n ∧ (if 256 ≤ n then 0 else u8 n) < 256 := by
  refine ⟨_, rfl, ?_⟩
  rw [u8]
  split <;> split <;> omega

/-- A chunk of `k` sectors and the rest of the data behind it make one range. -/
theorem writeRange_chunk (s : ℕ → Sector) (m : ByteMem) {data written k : ℕ} (hk : k ≤ n) :
    writeRange (writeRange s lba k
        fun j ↦ m.sectorAt (data + written * 512 + (0 + j) * 512)) (lba + k) (n - k)
        (fun j ↦ m.sectorAt (data + (written + k + j) * 512)) =
      writeRange s lba n fun j ↦ m.sectorAt (data + (written + j) * 512) := by
  have hf : (fun j ↦ m.sectorAt (data + written * 512 + (0 + j) * 512)) =
      fun j ↦ m.sectorAt (data + (written + j) * 512) := funext fun j ↦ congrArg _ (by omega)
  rw [hf]
  simp only [Nat.add_assoc written k]
  rw [writeRange_append, Nat.add_sub_cancel' hk]

/-- One pass of the chunk loop stores some of the sectors and leaves the unit idle. -/
theorem writeChunk_spec (data passes written : ℕ) (ha : Attached w i c d)
    (hu : w.io.unit c d = u) (hf : w.io.FaultFree fuel) (hn : n ≠ 0) (hlba : lba < 2 ^ 28) :
    ∃ m b', 0 < m ∧ m ≤ n ∧
      writeChunksLoop fuel i data (passes + 1) written n lba w =
        writeChunksLoop fuel i data passes (written + m) (n - m) (u32 (lba + m)) (w.setIo b') ∧
      AtaBus.Served c d w.io { u with
        sectors := writeRange u.sectors lba m
          fun j ↦ w.mem.sectorAt (data + written * 512 + (0 + j) * 512)
        phase := .idle
        busy := 0 } b' := by
  obtain ⟨m, hm, hpos, hle, hcount⟩ := exists_chunk hn
  obtain ⟨b₁, hsetup, hserved₁, hsel₁, -⟩ := ideSetup_spec ha.wired ha.channel_lt
    ha.drive_lt hu (hu ▸ ha.ready) hlba hcount (Or.inr rfl)
  rw [hm] at hserved₁
  obtain ⟨k, b₂, hloop, hk, hserved₂, hsel₂⟩ := writeSectorsLoop_spec (w := w.setIo b₁)
    (data + written * 512) (i := 0) (n := m) ha.wired
    ha.channel_lt hsel₁ hserved₁.unit_eq (hserved₁.faultFree hf) (hf.latency_lt _)
    (by rw [if_neg (by omega)]; rfl)
  -- the flush follows the last sector, which may still keep the unit busy
  have hserved₃ := hserved₁.trans hserved₂
  obtain ⟨b₃, b₄, hflush, hpoll, hserved₄⟩ := cacheFlush_spec (w := w.setIo b₂)
    ha.wired ha.channel_lt hsel₂ hserved₂.unit_eq (hserved₃.faultFree hf).latency_lt hk
    (fun _ ↦ rfl) (hu ▸ ha.quiet)
  refine ⟨m, b₄, hpos, hle, ?_, hserved₃.trans hserved₄⟩
  simp only [Kernel.setIo_setIo] at hloop hflush hpoll
  rw [writeChunksLoop, if_neg hn, if_neg (by omega), bind_apply_of_runs get_apply]
  simp only [ha.channel_eq, ha.drive_eq, hm, show w.channels = ideChannels from ha.wired]
  rw [bind_apply_of_runs hsetup, bind_apply_of_runs hloop, if_neg (by simp),
    bind_apply_of_runs hflush, bind_apply_of_runs hpoll, if_neg (by simp)]

/-- **The chunks of a write.** However many there are, together they store the `n` sectors. -/
theorem writeChunksLoop_spec {data passes written : ℕ} (ha : Attached w i c d)
    (hu : w.io.unit c d = u) (hf : w.io.FaultFree fuel) (hpasses : n ≤ passes)
    (hlba : lba + n ≤ 2 ^ 28) :
    ∃ ph b', writeChunksLoop fuel i data passes written n lba w = some (0, w.setIo b') ∧
      AtaBus.Served c d w.io { u with
        sectors := writeRange u.sectors lba n
          fun j ↦ w.mem.sectorAt (data + (written + j) * 512)
        phase := ph
        busy := 0 } b' := by
  induction passes generalizing w u written n lba with
  | zero =>
    obtain rfl : n = 0 := by omega
    subst hu
    refine ⟨(w.io.unit c d).phase, w.io, rfl, ?_⟩
    rw [writeRange_zero, ← ha.ready]
    exact AtaBus.Served.refl ..
  | succ passes ih =>
    rcases eq_or_ne n 0 with hzero | hzero
    · subst hzero hu
      refine ⟨(w.io.unit c d).phase, w.io, rfl, ?_⟩
      rw [writeRange_zero, ← ha.ready]
      exact AtaBus.Served.refl ..
    obtain ⟨m, b₁, hpos, hle, hstep, hserved₁⟩ := writeChunk_spec data passes written ha hu hf hzero
      (show lba < 2 ^ 28 by omega)
    obtain ⟨ph, b₂, hrest, hserved₂⟩ := ih (w := w.setIo b₁)
      (n := n - m) (ha.served rfl rfl hserved₁ rfl (hu ▸ rfl))
      hserved₁.unit_eq (hserved₁.faultFree hf) (by omega) (show lba + m + (n - m) ≤ _ by omega)
    refine ⟨ph, b₂, ?_, ?_⟩
    · rw [hstep, show u32 (lba + m) = lba + m from u32_of_lt (by omega)]
      exact hrest
    · have hserved := hserved₁.trans hserved₂
      exact writeRange_chunk u.sectors w.mem hle ▸ hserved

/-- Whatever the address, the loop ends, and a unit that was idle is idle again. -/
theorem writeChunksLoop_ends (lba data written : ℕ) {passes : ℕ} (ha : Attached w i c d)
    (hu : w.io.unit c d = u) (hphase : u.phase = .idle) (hf : w.io.FaultFree fuel)
    (hpasses : n ≤ passes) :
    ∃ r s b', writeChunksLoop fuel i data passes written n lba w = some (r, w.setIo b') ∧
      AtaBus.Served c d w.io { u with sectors := s } b' := by
  induction passes generalizing w u written n lba with
  | zero =>
    obtain rfl : n = 0 := by omega
    subst hu
    exact ⟨0, _, w.io, rfl, AtaBus.Served.refl ..⟩
  | succ passes ih =>
    rcases eq_or_ne n 0 with hzero | hzero
    · subst hzero hu
      exact ⟨0, _, w.io, rfl, AtaBus.Served.refl ..⟩
    rcases Nat.lt_or_ge lba (2 ^ 28) with hlba | hlba
    · obtain ⟨m, b₁, hpos, hle, hstep, hserved₁⟩ := writeChunk_spec data passes written ha hu hf
        hzero hlba
      obtain ⟨r, s, b₂, hrest, hserved₂⟩ := ih (w := w.setIo b₁) (n := n - m) (u32 (lba + m))
        (written + m) (ha.served rfl rfl hserved₁ rfl (hu ▸ rfl)) hserved₁.unit_eq rfl
        (hserved₁.faultFree hf) (by omega)
      refine ⟨r, s, b₂, hstep.trans hrest, ?_⟩
      have hserved := hserved₁.trans hserved₂
      rw [← show u.busy = 0 from hu ▸ ha.ready, ← hphase] at hserved
      exact hserved
    · subst hu
      refine ⟨3, _, w.io, ?_, AtaBus.Served.refl ..⟩
      rw [writeChunksLoop, if_neg hzero, if_pos (by omega)]
      rfl

/-- **`ide_write_sectors_counted`** stores `n` sectors and nothing else. -/
theorem ideWriteSectorsCounted_spec (data : ℕ) (ha : Attached w i c d)
    (hu : w.io.unit c d = u) (hf : w.io.FaultFree fuel) (hn : 0 < n) (hlba : lba + n ≤ 2 ^ 28) :
    ∃ ph b', ideWriteSectorsCounted fuel i lba (512 * n) data w = some (0, w.setIo b') ∧
      AtaBus.Served c d w.io { u with
        sectors := writeRange u.sectors lba n
          fun j ↦ w.mem.sectorAt (data + 512 * j)
        phase := ph
        busy := 0 } b' := by
  obtain ⟨ph, b', hrun, hserved⟩ := writeChunksLoop_spec ha hu hf
    (Nat.le_refl n) hlba
  refine ⟨ph, b', ?_, ?_⟩
  · rw [ideWriteSectorsCounted, bind_apply_of_runs get_apply, if_neg ha.not_absent,
      if_neg (by omega), if_neg (by omega), Nat.mul_div_cancel_left n (by decide)]
    exact hrun
  · simpa only [Nat.zero_add, Nat.mul_comm _ 512] using hserved

/-- **A write of one sector** to a device that may reject it returns 0 either way. The command
takes one unit of the device's time, the sector comes at the next. -/
theorem ideWriteSectorsCounted_one_spec {data : ℕ} (ha : Attached w i c d)
    (hu : w.io.unit c d = u) (hlat : ∀ k, w.io.latency k < fuel) (hlba : lba < 2 ^ 28) :
    ∃ ph b', ideWriteSectorsCounted fuel i lba 512 data w = some (0, w.setIo b') ∧
      AtaBus.Served c d w.io { u with
        sectors := if w.io.refuses (w.io.clock + 1) then u.sectors
          else Function.update u.sectors lba (w.mem.sectorAt data)
        phase := ph
        busy := 0 } b' := by
  obtain ⟨b₁, hsetup, hserved₁, hsel₁, hclock₁⟩ := ideSetup_spec ha.wired
    ha.channel_lt ha.drive_lt hu (hu ▸ ha.ready) hlba (show 1 < 256 by decide) (Or.inr rfl)
  obtain ⟨b₂, hpoll, hserved₂, hsel₂, hclock₂⟩ := idePolling_zero_spec (w := w.setIo b₁)
    ha.wired ha.channel_lt hsel₁ hserved₁.unit_eq (hlat _) (by
      rw [AtaUnit.status_dataOut (n := 1) rfl rfl]
      decide)
  have hlatency : ∀ {v b}, AtaBus.Served c d w.io v b → ∀ k, b.latency k < fuel := by
    intro v b hs k
    rw [hs.latency_eq]
    exact hlat k
  have hrefuses : b₂.refuses b₂.clock = w.io.refuses (w.io.clock + 1) := by
    rw [(hserved₁.trans hserved₂).refuses_eq, hclock₂]
    exact congrArg w.io.refuses hclock₁
  -- the sector goes to the device, which may take it or not
  obtain ⟨k, ph, b₃, hout, hk, hserved₃, hsel₃, hphase⟩ : ∃ k ph b₃,
      outsw (ideChannels c).base (data + 0 * 512) (w.setIo b₂) = some ((), w.setIo b₃) ∧
      k < fuel ∧
      AtaBus.Served c d w.io { u with
        sectors := if w.io.refuses (w.io.clock + 1) then u.sectors
          else Function.update u.sectors lba (w.mem.sectorAt data)
        phase := ph
        busy := k } b₃ ∧
      (b₃.chan c).selected = d ∧ (k ≠ 0 → ph = .idle) := by
    cases hrefuse : w.io.refuses (w.io.clock + 1) with
    | true =>
      obtain ⟨b₃, hout, hserved₃, hsel₃⟩ := outsw_refused (w := w.setIo b₂) (n := 1)
        ha.channel_lt hsel₂ hserved₂.unit_eq rfl rfl
        (hrefuses.trans hrefuse)
      refine ⟨0, .aborted, b₃, hout, (Nat.zero_le _).trans_lt (hlat 0), ?_, hsel₃,
        fun h ↦ absurd rfl h⟩
      rw [if_pos rfl]
      exact (hserved₁.trans hserved₂).trans hserved₃
    | false =>
      obtain ⟨b₃, hout, hserved₃, hsel₃⟩ := outsw_spec (w := w.setIo b₂) (n := 0)
        ha.channel_lt hsel₂ hserved₂.unit_eq rfl rfl
        (hrefuses.trans hrefuse)
      refine ⟨b₂.latency b₂.clock, .idle, b₃, hout, hlatency (hserved₁.trans hserved₂) _, ?_, hsel₃,
        fun _ ↦ rfl⟩
      rw [if_neg (by simp)]
      rw [Nat.zero_mul, Nat.add_zero] at hserved₃
      exact (hserved₁.trans hserved₂).trans hserved₃
  obtain ⟨b₄, b₅, hflush, hpoll', hserved₅⟩ := cacheFlush_spec (w := w.setIo b₃)
    ha.wired ha.channel_lt hsel₃ hserved₃.unit_eq (hlatency hserved₃) hk hphase (hu ▸ ha.quiet)
  refine ⟨.idle, b₅, ?_, hserved₃.trans hserved₅⟩
  simp only [Kernel.setIo_setIo] at hpoll hflush hpoll'
  have hloop : writeSectorsLoop fuel c (ideChannels c).base (data + 0 * 512) 0 1 (w.setIo b₁) =
      some (0, w.setIo b₃) := by
    rw [writeSectorsLoop, bind_apply_of_runs hpoll, if_neg (by simp), Nat.zero_mul, Nat.add_zero,
      Nat.add_zero, bind_apply_of_runs (by simpa using hout)]
    rfl
  rw [ideWriteSectorsCounted, bind_apply_of_runs get_apply, if_neg ha.not_absent,
    if_neg (by decide), if_neg (by decide), show 512 / 512 = 1 from rfl, writeChunksLoop,
    if_neg (by decide), if_neg (by omega), bind_apply_of_runs get_apply]
  simp only [ha.channel_eq, ha.drive_eq, show w.channels = ideChannels from ha.wired,
    show (if 256 ≤ 1 then 0 else u8 1) = 1 by decide, show (if 1 = 0 then 256 else 1) = 1 by decide]
  rw [bind_apply_of_runs hsetup, bind_apply_of_runs hloop, if_neg (by simp),
    bind_apply_of_runs hflush, bind_apply_of_runs hpoll', if_neg (by simp)]
  rfl

end Chunks

/-! ### Reading -/

/-- The bytes of the sectors from `lba` on. -/
def sectorStream (s : ℕ → Sector) (lba : ℕ) : ℕ → UInt8 :=
  fun j ↦ (s (lba + j / 512)).bytes (j % 512)

/-- The stream goes on in the next sector. -/
theorem sectorStream_add (s : ℕ → Sector) (lba j : ℕ) :
    sectorStream s lba (512 + j) = sectorStream s (lba + 1) j := by
  simp only [sectorStream]
  rw [show (512 + j) / 512 = 1 + j / 512 by omega, show (512 + j) % 512 = j % 512 by omega,
    Nat.add_assoc]

theorem sectorStream_of_lt {s : ℕ → Sector} {lba j : ℕ} (hj : j < 512) :
    sectorStream s lba j = (s lba).bytes j := by
  rw [sectorStream]
  rw [Nat.div_eq_of_lt hj, Nat.mod_eq_of_lt hj, Nat.add_zero]

/-- One sector and the ones behind it make one stretch of the buffer. -/
theorem blit_sectorStream (m : ByteMem) (s : ℕ → Sector) (buf lba j n : ℕ) :
    (m.blit (buf + j * 512) 512 (s lba).bytes).blit (buf + (j + 1) * 512) (512 * n)
        (sectorStream s (lba + 1)) =
      m.blit (buf + j * 512) (512 * (n + 1)) (sectorStream s lba) := by
  rw [Nat.mul_add, Nat.mul_one, Nat.add_comm (512 * n), ← ByteMem.blit_blit_append]
  rw [show buf + (j + 1) * 512 = buf + j * 512 + 512 by omega]
  simp only [sectorStream_add]
  rw [ByteMem.blit_congr fun i hi ↦ (sectorStream_of_lt hi).symm]

section Read

variable {w : Kernel AtaBus} {c d i lba n fuel : ℕ} {u : AtaUnit}

/-- The data port hands out a sector, and the unit moves on. -/
theorem AtaBus.dataIn_spec {b : AtaBus} (hd : (b.chan c).selected = d) (hu : b.unit c d = u)
    (hbusy : u.busy = 0) (hphase : u.phase = .dataIn lba (n + 1))
    (hlat : ∀ k, b.latency k < fuel) :
    ∃ k b', b.dataIn c = (u.sectors lba, b') ∧ k < fuel ∧ (n = 0 → k = 0) ∧
      AtaBus.Served c d b { u with
        phase := if n = 0 then .idle else .dataIn (lba + 1) n
        busy := k } b' ∧
      (b'.chan c).selected = d := by
  have hcur : b.current c = u := (AtaBus.current_of_selected hd).trans hu
  cases n with
  | zero =>
    refine ⟨0, _, AtaBus.dataIn_last hcur hbusy hphase, Nat.zero_lt_of_lt (hlat 0), fun _ ↦ rfl, ?_,
      AtaBus.selected_setCurrent.trans hd⟩
    rw [if_pos rfl, ← hbusy]
    exact AtaBus.served_setCurrent hd
  | succ n =>
    refine ⟨_, _, AtaBus.dataIn_succ hcur hbusy hphase, hlat b.clock, fun h ↦ absurd h (by omega),
      ?_, (AtaBus.selected_enter _).trans hd⟩
    rw [if_neg (by omega), ← hu]
    exact AtaBus.served_enter hd _

/-- A sector is fetched, and the unit moves on. -/
theorem insw_spec {addr : ℕ} (hc : c < 2) (hd : (w.io.chan c).selected = d)
    (hu : w.io.unit c d = u) (hbusy : u.busy = 0) (hphase : u.phase = .dataIn lba (n + 1))
    (hlat : ∀ k, w.io.latency k < fuel) :
    ∃ k b', insw (ideChannels c).base addr w =
        some ((), (w.setMem (w.mem.blit addr 512 (u.sectors lba).bytes)).setIo b') ∧
      k < fuel ∧ (n = 0 → k = 0) ∧
      AtaBus.Served c d w.io { u with
        phase := if n = 0 then .idle else .dataIn (lba + 1) n
        busy := k } b' ∧
      (b'.chan c).selected = d := by
  obtain ⟨k, b', hdata, hrest⟩ := AtaBus.dataIn_spec hd hu hbusy hphase hlat
  have hrun := insw_data (w := w) addr hc
  rw [hdata] at hrun
  exact ⟨k, b', hrun, hrest⟩

/-- The loop over the sectors of a read. -/
theorem readSectorsLoop_spec {buf j : ℕ} (hw : w.Wired) (hc : c < 2)
    (hd : (w.io.chan c).selected = d) (hu : w.io.unit c d = u) (hlat : ∀ k, w.io.latency k < fuel)
    (hbusy : u.busy < fuel) (hphase : u.phase = if n = 0 then .idle else .dataIn lba n)
    (hready : n = 0 → u.busy = 0) :
    ∃ b', readSectorsLoop fuel c (ideChannels c).base buf j n w =
        some (0, (w.setMem
          (w.mem.blit (buf + j * 512) (512 * n) (sectorStream u.sectors lba))).setIo b') ∧
      AtaBus.Served c d w.io { u with phase := .idle, busy := 0 } b' := by
  induction n generalizing w u lba j with
  | zero =>
    refine ⟨w.io, ?_, ?_⟩
    · rw [Nat.mul_zero, ByteMem.blit_zero]
      rfl
    · rw [← hready rfl, ← show u.phase = .idle from hphase, ← hu]
      exact AtaBus.Served.refl ..
  | succ n ih =>
    rw [if_neg (Nat.succ_ne_zero n)] at hphase
    obtain ⟨b₁, hpoll, hserved₁, hsel₁, -⟩ := idePolling_one_spec hw hc hd hu hbusy
      (AtaUnit.status_dataIn (u := { u with busy := 0 }) rfl hphase)
    obtain ⟨k, b₂, hin, hk, hk0, hserved₂, hsel₂⟩ := insw_spec (w := w.setIo b₁)
      hc hsel₁ hserved₁.unit_eq rfl hphase
      (hserved₁.latency_eq ▸ hlat)
    have hserved := hserved₁.trans hserved₂
    obtain ⟨b₃, hloop, hserved₃⟩ := ih
      (w := (w.setMem (w.mem.blit (buf + j * 512) 512 (u.sectors lba).bytes)).setIo b₂)
      (j := j + 1) hw hsel₂ hserved₂.unit_eq (hserved.latency_eq ▸ hlat) hk rfl hk0
    refine ⟨b₃, ?_, hserved.trans hserved₃⟩
    rw [readSectorsLoop, bind_apply_of_runs hpoll, if_neg (by simp), bind_apply_of_runs hin,
      ← blit_sectorStream]
    exact hloop

/-- The sector a read of `lba` starts at. From 2^28 on only three bytes of the address reach the
device. -/
def readAddress (lba : ℕ) : ℕ := if 0x10000000 ≤ lba then lba % 2 ^ 24 else lba

theorem readAddress_lt (lba : ℕ) : readAddress lba < 2 ^ 28 := by
  rw [readAddress]
  split <;> omega

theorem readAddress_of_lt (hlba : lba < 2 ^ 28) : readAddress lba = lba := if_neg (by omega)

/-- Both branches of a read write the registers that select this sector. -/
theorem ideReadSectors_eq (buf : ℕ) (ha : Attached w i c d) :
    ideReadSectors fuel i n lba buf w =
      (ideSetup c d ((readAddress lba >>> 24) &&& 0x0F) n ((readAddress lba >>> 0) &&& 0xFF)
        ((readAddress lba >>> 8) &&& 0xFF) ((readAddress lba >>> 16) &&& 0xFF) ataCmdReadPio >>=
        fun _ ↦ readSectorsLoop fuel c (ideChannels c).base buf 0 n) w := by
  rw [ideReadSectors, bind_apply_of_runs get_apply, if_neg ha.not_absent]
  simp only [ha.channel_eq, ha.drive_eq, show w.channels = ideChannels from ha.wired]
  rw [readAddress]
  split
  · -- the masks pick the bytes of the lowest three, and the head is zero
    have hbyte : ∀ k ≤ 16, ((lba % 2 ^ 24) >>> k) &&& 0xFF = lba / 2 ^ k % 2 ^ 8 := by
      intro k hk
      have hsplit : 2 ^ 24 = 2 ^ k * 2 ^ (24 - k) := by
        rw [← pow_add, Nat.add_sub_cancel' (by omega)]
      rw [show (0xFF : ℕ) = 2 ^ 8 - 1 from rfl, shiftRight_and_mask, hsplit,
        Nat.mod_mul_right_div_self, Nat.mod_mod_of_dvd _ (pow_dvd_pow 2 (by omega))]
    have hhead : ((lba % 2 ^ 24) >>> 24) &&& 0x0F = 0 := by
      rw [show (0x0F : ℕ) = 2 ^ 4 - 1 from rfl, shiftRight_and_mask,
        Nat.div_eq_of_lt (Nat.mod_lt _ (by decide)), Nat.zero_mod]
    have hmask : ∀ k, (lba &&& (0xFF <<< k)) >>> k = lba / 2 ^ k % 2 ^ 8 := by
      intro k
      rw [Nat.shiftRight_and_distrib, Nat.shiftLeft_shiftRight]
      exact shiftRight_and_mask lba k 8
    have hmask₀ : lba &&& 0x000000FF = lba / 2 ^ 0 % 2 ^ 8 := hmask 0
    have hmask₁ : (lba &&& 0x0000FF00) >>> 8 = lba / 2 ^ 8 % 2 ^ 8 := hmask 8
    have hmask₂ : (lba &&& 0x00FF0000) >>> 16 = lba / 2 ^ 16 % 2 ^ 8 := hmask 16
    rw [hmask₀, hmask₁, hmask₂, hbyte 0 (by decide), hbyte 8 (by decide), hbyte 16 (by decide),
      hhead]
  · rfl

/-- **A read** fills the buffer with the sectors from `readAddress lba` on and changes no
medium. A read of zero sectors still starts a transfer of 256, which it leaves unfinished. -/
theorem ideReadSectors_address_spec (buf lba : ℕ) (ha : Attached w i c d)
    (hu : w.io.unit c d = u) (hlat : ∀ k, w.io.latency k < fuel) (hn : n < 256) :
    ∃ k b', ideReadSectors fuel i n lba buf w =
        some (0, (w.setMem
          (w.mem.blit buf (512 * n) (sectorStream u.sectors (readAddress lba)))).setIo b') ∧
      AtaBus.Served c d w.io { u with
        phase := if n = 0 then .dataIn (readAddress lba) 256 else .idle
        busy := k } b' ∧ (0 < n → k = 0) := by
  obtain ⟨b₁, hsetup, hserved₁, hsel₁, -⟩ := ideSetup_spec ha.wired
    ha.channel_lt ha.drive_lt hu (hu ▸ ha.ready) (readAddress_lt lba) hn (Or.inl rfl)
  rw [ideReadSectors_eq buf ha, bind_apply_of_runs hsetup]
  rcases eq_or_ne n 0 with rfl | hzero
  · refine ⟨_, b₁, ?_, hserved₁, fun h ↦ absurd h (by omega)⟩
    rw [Nat.mul_zero, ByteMem.blit_zero]
    rfl
  · rw [if_neg hzero] at hserved₁
    obtain ⟨b₂, hloop, hserved₂⟩ := readSectorsLoop_spec (w := w.setIo b₁) (j := 0)
      (n := n) ha.wired ha.channel_lt hsel₁ hserved₁.unit_eq
      (hserved₁.latency_eq ▸ hlat) (hlat _) (by rw [if_neg hzero]; rfl) fun h ↦ absurd h hzero
    refine ⟨0, b₂, ?_, ?_, fun _ ↦ rfl⟩
    · rw [hloop, Nat.zero_mul, Nat.add_zero]
      rfl
    · rw [if_neg hzero]
      exact hserved₁.trans hserved₂

/-- **`ide_read_sectors`** fills the buffer with the sectors asked for, as long as 28 bits can
address them. -/
theorem ideReadSectors_spec (buf : ℕ) (ha : Attached w i c d) (hu : w.io.unit c d = u)
    (hlat : ∀ k, w.io.latency k < fuel) (hn : n < 256) (hlba : lba < 2 ^ 28) :
    ∃ ph k b', ideReadSectors fuel i n lba buf w =
        some (0, (w.setMem (w.mem.blit buf (512 * n) (sectorStream u.sectors lba))).setIo b') ∧
      AtaBus.Served c d w.io { u with phase := ph, busy := k } b' ∧ (0 < n → k = 0) := by
  obtain ⟨k, b', hrun, hserved, hk⟩ := ideReadSectors_address_spec buf lba ha hu hlat hn
  rw [readAddress_of_lt hlba] at hrun
  exact ⟨_, k, b', hrun, hserved, hk⟩

end Read
