import BinbowsDOS.Ide.SectorArray

/-!
# Detection of the drives

`ide_initialize` probes the four positions in order and fills one table of four slots. The probe
of position `i` is described by `afterSlot`: it clears slot `i`, and if the device there is an
ATA device that answers IDENTIFY (`AtaUnit.IsAta`) it fills slot `i % 2` — not slot `i`. On the
primary channel the two are the same. A device on the secondary channel therefore takes the slot
of the primary device at its position, and its own slot stays empty
(`slotsDescribe_iff`).
-/

open Prog Kernel

/-- A unit that `ide_device_exists` classifies as ATA and that answers IDENTIFY with data. -/
def AtaUnit.IsAta (u : AtaUnit) : Prop :=
  u.idle ≠ 0xFF ∧ u.idle ≠ 0x00 ∧ u.idStatus &&& ataSrErr = 0 ∧ u.idStatus &&& ataSrDrq ≠ 0 ∧
    u.sigLo = 0x00 ∧ u.sigHi = 0x00

instance (u : AtaUnit) : Decidable u.IsAta := inferInstanceAs (Decidable (_ ∧ _))

/-- The registers of a channel, without its units. -/
def AtaChannel.regs (ch : AtaChannel) : UInt8 × UInt8 × UInt8 × UInt8 × UInt8 :=
  (ch.hddevsel, ch.seccount, ch.lba0, ch.lba1, ch.lba2)

section Status

variable {w w' : Kernel AtaBus} {c d fuel : ℕ} {u : AtaUnit} {status s : UInt8}

theorem AtaChannel.selected_congr {ch ch' : AtaChannel} (h : ch'.regs = ch.regs) :
    ch'.selected = ch.selected := by
  simp only [AtaChannel.selected]
  rw [show ch'.hddevsel = ch.hddevsel from (Prod.mk.inj h).1]

theorem AtaBus.regs_setCurrent (b : AtaBus) (c : ℕ) (u : AtaUnit) :
    ((b.setCurrent c u).chan c).regs = (b.chan c).regs := by
  rw [AtaBus.setCurrent, AtaBus.chan_setChan_self]
  rfl

/-- A read of the status register returns the status of the selected unit and lets it get on. -/
theorem ideRead_status_spec (hw : w.Wired) (hc : c < 2) (hd : (w.io.chan c).selected = d)
    (hu : w.io.unit c d = u) :
    ∃ b', ideRead c ataRegStatus w = some (u.status, w.setIo b') ∧
      AtaBus.Served c d w.io { u with busy := u.busy - 1 } b' ∧
      (b'.chan c).regs = (w.io.chan c).regs := by
  have hcur : w.io.current c = u := (AtaBus.current_of_selected hd).trans hu
  refine ⟨w.io.setCurrent c { u with busy := u.busy - 1 }, ?_, AtaBus.served_setCurrent hd,
    AtaBus.regs_setCurrent ..⟩
  rw [ideRead_status hw hc, AtaBus.readStatus, hcur]

/-- The wait of `ide_device_exists` ends with the status that answers IDENTIFY. -/
theorem statusWhileBusy_runs (hw : w.Wired) (hc : c < 2) (hd : (w.io.chan c).selected = d)
    (hu : w.io.unit c d = u) (hphase : u.phase = .identify)
    (hstatus : status &&& ataSrBsy ≠ 0 ∨ u.busy = 0 ∧ status = u.idStatus)
    (h : Runs (statusWhileBusy c fuel status) w s w') :
    s = u.idStatus ∧ ∃ b', w' = w.setIo b' ∧ AtaBus.Served c d w.io { u with busy := 0 } b' ∧
      (b'.chan c).regs = (w.io.chan c).regs := by
  induction fuel generalizing w u status with
  | zero => simp [Runs, statusWhileBusy] at h
  | succ fuel ih =>
    rw [statusWhileBusy] at h
    rcases eq_or_ne (status &&& ataSrBsy) 0 with hbsy | hbsy
    · rw [if_neg (by simp [hbsy])] at h
      obtain ⟨rfl, rfl⟩ := runs_pure.1 h
      obtain ⟨hbusy, hid⟩ := hstatus.resolve_left fun hne ↦ hne hbsy
      refine ⟨hid, w.io, rfl, ?_, rfl⟩
      rw [← hbusy, ← hu]
      exact AtaBus.Served.refl ..
    · obtain ⟨b₁, hread, hserved, hregs⟩ := ideRead_status_spec hw hc hd hu
      rw [if_pos hbsy, runs_bind_of_runs hread] at h
      have hsel : (b₁.chan c).selected = d := (AtaChannel.selected_congr hregs).trans hd
      -- what this read shows, the next round tests
      have hnext : u.status &&& ataSrBsy ≠ 0 ∨ u.busy - 1 = 0 ∧ u.status = u.idStatus := by
        rcases eq_or_ne u.busy 0 with hzero | hzero
        · exact Or.inr ⟨by omega, AtaUnit.status_identify hzero hphase⟩
        · rw [AtaUnit.status_busy (Nat.pos_of_ne_zero hzero)]
          exact Or.inl (by decide)
      obtain ⟨hs, b₂, hw', hserved₂, hregs₂⟩ := ih (w := w.setIo b₁) hw hsel hserved.unit_eq hphase
        hnext h
      exact ⟨hs, b₂, hw', hserved.trans hserved₂, hregs₂.trans hregs⟩

/-- The loop of `ide_identify` ends with the status that answers IDENTIFY. -/
theorem awaitData_runs {ready : Bool} (hw : w.Wired) (hc : c < 2)
    (hd : (w.io.chan c).selected = d) (hu : w.io.unit c d = u) (hphase : u.phase = .identify)
    (h : Runs (awaitData c fuel) w ready w') :
    (ready = true ↔ u.idStatus &&& ataSrErr = 0 ∧ u.idStatus &&& ataSrDrq ≠ 0) ∧
      ∃ b', w' = w.setIo b' ∧ AtaBus.Served c d w.io { u with busy := 0 } b' ∧
        (b'.chan c).selected = d := by
  induction fuel generalizing w u with
  | zero => simp [Runs, awaitData] at h
  | succ fuel ih =>
    obtain ⟨b₁, hread, hserved, hregs⟩ := ideRead_status_spec hw hc hd hu
    rw [awaitData, runs_bind_of_runs hread] at h
    have hsel : (b₁.chan c).selected = d := (AtaChannel.selected_congr hregs).trans hd
    -- a ready unit shows its answer at every read, so with neither bit set the loop never ends
    rcases eq_or_ne u.busy 0 with hzero | hzero
    · have hserved₀ : AtaBus.Served c d w.io { u with busy := 0 } b₁ := by
        rw [hzero] at hserved
        exact hserved
      rw [AtaUnit.status_identify hzero hphase] at h
      rcases eq_or_ne (u.idStatus &&& ataSrErr) 0 with herr | herr
      · rw [if_neg (by simp [herr])] at h
        rcases eq_or_ne (u.idStatus &&& ataSrDrq) 0 with hdrq | hdrq
        · rw [if_neg (by simp [hdrq])] at h
          obtain ⟨hiff, b₂, hw', hserved₂, hsel₂⟩ := ih (w := w.setIo b₁) hw hsel
            hserved₀.unit_eq hphase h
          exact ⟨hiff, b₂, hw', hserved₀.trans hserved₂, hsel₂⟩
        · rw [if_pos hdrq] at h
          obtain ⟨rfl, rfl⟩ := runs_pure.1 h
          exact ⟨by simp [herr, hdrq], b₁, rfl, hserved₀, hsel⟩
      · rw [if_pos herr] at h
        obtain ⟨rfl, rfl⟩ := runs_pure.1 h
        exact ⟨by simp [herr], b₁, rfl, hserved₀, hsel⟩
    · rw [AtaUnit.status_busy (Nat.pos_of_ne_zero hzero), if_neg (by decide),
        if_neg (by decide)] at h
      obtain ⟨hiff, b₂, hw', hserved₂, hsel₂⟩ := ih (w := w.setIo b₁) hw hsel hserved.unit_eq
        hphase h
      exact ⟨hiff, b₂, hw', hserved.trans hserved₂, hsel₂⟩

end Status

/-! ### `ide_device_exists` and `ide_identify` -/

section Probe

variable {w w' : Kernel AtaBus} {c d r fuel : ℕ} {u : AtaUnit}

theorem selectByte_toNat :
    ∀ d < 2, (UInt8.ofNat (0xA0 ||| (d <<< 4))).toNat / 16 % 2 = d := by
  decide

/-- Selecting a unit serves none. -/
theorem selectDrive_spec (hw : w.Wired) (hc : c < 2) (hd : d < 2) :
    ∃ b', ideWrite c ataRegHdDevSel (UInt8.ofNat (0xA0 ||| (d <<< 4))) w =
        some ((), w.setIo b') ∧
      AtaBus.Served c d w.io (w.io.unit c d) b' ∧ (b'.chan c).selected = d := by
  refine ⟨_, ideWrite_reg hw hc (by decide),
    AtaBus.served_setChan (AtaBus.unit_setReg _ _ _), ?_⟩
  rw [AtaBus.chan_setChan_self]
  exact selectByte_toNat d hd

/-- A register write that does not select leaves the selection alone. -/
theorem writeReg_spec {reg : ℕ} {v : UInt8} (hw : w.Wired) (hc : c < 2)
    (hd : (w.io.chan c).selected = d) (hreg : reg < 6) :
    ∃ b', ideWrite c reg v w = some ((), w.setIo b') ∧
      AtaBus.Served c d w.io (w.io.unit c d) b' ∧ (b'.chan c).selected = d := by
  refine ⟨_, ideWrite_reg hw hc (by omega), AtaBus.served_setChan (AtaBus.unit_setReg _ _ _), ?_⟩
  have hsel : reg ≠ ataRegHdDevSel := by rw [ataRegHdDevSel]; omega
  rw [AtaBus.chan_setChan_self, AtaChannel.setReg, if_neg hsel, ← hd]
  split_ifs <;> rfl

/-- IDENTIFY puts an idle unit into the phase that answers it, with the signature in the
registers. -/
theorem identifyCommand_spec (hw : w.Wired) (hc : c < 2) (hd : (w.io.chan c).selected = d)
    (hu : w.io.unit c d = u) (hbusy : u.busy = 0) :
    ∃ b' k, ideWrite c ataRegCommand ataCmdIdentify w = some ((), w.setIo b') ∧
      AtaBus.Served c d w.io { u with phase := .identify, busy := k } b' ∧
      (b'.chan c).selected = d ∧ (b'.chan c).lba1 = u.sigLo ∧ (b'.chan c).lba2 = u.sigHi := by
  have hcur : w.io.current c = u := (AtaBus.current_of_selected hd).trans hu
  have hsig : AtaBus.Served c d w.io u (w.io.sign c) := hu ▸ AtaBus.served_setChan rfl
  have hchan : (w.io.sign c).chan c = { w.io.chan c with lba1 := u.sigLo, lba2 := u.sigHi } := by
    rw [AtaBus.sign, AtaBus.chan_setChan_self, hcur]
  have hsel : ((w.io.sign c).chan c).selected = d := by
    rw [hchan]
    exact hd
  have henter := AtaBus.served_enter hsel .identify
  rw [hsig.unit_eq] at henter
  have hregs : (((w.io.sign c).enter c .identify).chan c).regs = ((w.io.sign c).chan c).regs :=
    AtaBus.regs_setCurrent ..
  obtain ⟨-, -, -, hlo, hhi⟩ : _ ∧ _ ∧ _ ∧ _ ∧ _ := by simpa [AtaChannel.regs, hchan] using hregs
  refine ⟨_, w.io.latency w.io.clock, ideWrite_command hw hc, ?_⟩
  rw [AtaBus.command, hcur, if_neg (by omega), if_neg (by decide), if_neg (by decide),
    if_neg (by decide), if_pos rfl]
  exact ⟨hsig.trans henter, (AtaBus.selected_enter _).trans hsel, hlo, hhi⟩

/-- A status of zero means that the unit is not busy. -/
theorem AtaUnit.eq_zero_of_status_identify {k : ℕ}
    (h : AtaUnit.status { u with phase := .identify, busy := k } = 0x00) :
    k = 0 ∧ u.idStatus = 0x00 := by
  rcases eq_or_ne k 0 with rfl | hk
  · exact ⟨rfl, h⟩
  · rw [AtaUnit.status_busy (Nat.pos_of_ne_zero hk)] at h
    exact absurd h (by decide)

theorem ideRead_lba {reg : ℕ} (hw : w.Wired) (hc : c < 2) (hreg : reg < 7) :
    ideRead c reg w = some (w.io.readReg c reg, w) := by
  have hob : ¬ (0x07 < reg ∧ reg < 0x0C) := by omega
  have hstatus : reg ≠ ataRegStatus := by rw [ataRegStatus]; omega
  rw [ideRead, ideSelectHob, if_neg hob]
  show some ((PortBus.inb ((w.channels c).port reg) w.io).1,
    w.setIo (PortBus.inb ((w.channels c).port reg) w.io).2) = _
  rw [hw]
  simp only [PortBus.inb, AtaBus.decode_port hc (show reg < 8 by omega), if_neg hstatus,
    Kernel.setIo_self]

/-- An answer that is none of 0, 2 and 3 comes from the signature of an ATA device. -/
theorem signature_of_deviceType {cl ch : UInt8} (h₀ : deviceType cl ch ≠ 0)
    (h₂ : deviceType cl ch ≠ 2) (h₃ : deviceType cl ch ≠ 3) : cl = 0x00 ∧ ch = 0x00 := by
  rw [deviceType] at h₀ h₂ h₃
  by_cases hpi : (cl = 0x14 ∧ ch = 0xEB) ∨ (cl = 0x69 ∧ ch = 0x96)
  · exact absurd (if_pos hpi) h₂
  · by_cases hata : cl = 0x00 ∧ ch = 0x00
    · exact hata
    · rw [if_neg hpi, if_neg hata] at h₀ h₃
      by_cases hsata : cl = 0x3C ∧ ch = 0xC3
      · exact absurd (if_pos hsata) h₃
      · exact absurd (if_neg hsata) h₀

/-- **`ide_device_exists`** leaves the unit ready. It finds an ATA device if one is there, and a
device it takes for one reads as present and has the right signature and no error. -/
theorem ideDeviceExists_runs (hw : w.Wired) (hc : c < 2) (hd : d < 2) (hu : w.io.unit c d = u)
    (hbusy : u.busy = 0) (hphase : u.phase = .idle)
    (h : Runs (ideDeviceExists fuel c d) w r w') :
    (u.IsAta → r = 1) ∧
      (r ≠ 0 → r ≠ 2 → r ≠ 3 → u.idle ≠ 0xFF ∧ u.idle ≠ 0x00 ∧ u.sigLo = 0x00 ∧ u.sigHi = 0x00) ∧
      ∃ b' ph, w' = w.setIo b' ∧ AtaBus.Served c d w.io { u with phase := ph, busy := 0 } b' := by
  have hself : ({ u with phase := .idle, busy := 0 } : AtaUnit) = u := by rw [← hbusy, ← hphase]
  -- select the drive and read its status once
  obtain ⟨b₁, hselect, hserved₁, hsel₁⟩ := selectDrive_spec hw hc hd
  rw [hu] at hserved₁
  rw [ideDeviceExists, if_neg (by omega), if_neg (by omega), runs_bind_of_runs hselect, ideDelay,
    runs_bind_of_runs (readAltStatus_apply (w := w.setIo b₁) hw hc 4)] at h
  obtain ⟨b₂, hread₂, hserved₂, hregs₂⟩ := ideRead_status_spec (w := w.setIo b₁) hw hc hsel₁
    hserved₁.unit_eq
  have hsel₂ := (AtaChannel.selected_congr hregs₂).trans hsel₁
  rw [show u.busy - 1 = 0 by omega] at hserved₂
  rw [runs_bind_of_runs hread₂, AtaUnit.status_idle hbusy hphase, Kernel.setIo_setIo] at h
  have hserved₂' := hserved₁.trans hserved₂
  by_cases habsent : u.idle = 0xFF ∨ u.idle = 0x00
  · rw [if_pos habsent] at h
    obtain ⟨rfl, rfl⟩ := runs_pure.1 h
    refine ⟨?_, fun h0 ↦ absurd rfl h0, b₂, u.phase, rfl, hserved₂'⟩
    intro hata
    exact (habsent.elim hata.1 hata.2.1).elim
  rw [if_neg habsent] at h
  rw [not_or] at habsent
  -- IDENTIFY loads the signature and keeps the unit busy for `k` reads
  obtain ⟨b₃, k, hcmd, hserved₃, hsel₃, hlo, hhi⟩ := identifyCommand_spec (w := w.setIo b₂) hw hc
    hsel₂ hserved₂.unit_eq rfl
  rw [runs_bind_of_runs hcmd, Kernel.setIo_setIo,
    runs_bind_of_runs (readAltStatus_apply (w := w.setIo b₃) hw hc 4)] at h
  obtain ⟨b₄, hread₄, hserved₄, hregs₄⟩ := ideRead_status_spec (w := w.setIo b₃) hw hc hsel₃
    hserved₃.unit_eq
  rw [runs_bind_of_runs hread₄, Kernel.setIo_setIo] at h
  have hsel₄ := (AtaChannel.selected_congr hregs₄).trans hsel₃
  have hserved₄' := hserved₂'.trans (hserved₃.trans hserved₄)
  by_cases hnone : AtaUnit.status { u with phase := .identify, busy := k } = 0x00
  · rw [if_pos hnone] at h
    obtain ⟨rfl, rfl⟩ := runs_pure.1 h
    obtain ⟨rfl, hzero⟩ := AtaUnit.eq_zero_of_status_identify hnone
    refine ⟨?_, fun h0 ↦ absurd rfl h0, b₄, .identify, rfl, hserved₄'⟩
    intro hata
    exact absurd (by rw [hzero]; decide) hata.2.2.2.1
  rw [if_neg hnone] at h
  -- the wait ends with the status that answers IDENTIFY
  obtain ⟨status, w₅, hwait, h⟩ := runs_bind.1 h
  obtain ⟨rfl, b₅, rfl, hserved₅, hregs₅⟩ := statusWhileBusy_runs (w := w.setIo b₄) hw hc hsel₄
    hserved₄.unit_eq rfl (by
      rcases eq_or_ne k 0 with rfl | hk
      · exact Or.inr ⟨rfl, rfl⟩
      · rw [AtaUnit.status_busy (u := { u with phase := .identify, busy := k })
          (Nat.pos_of_ne_zero hk)]
        exact Or.inl (by decide)) hwait
  have hserved₅' := hserved₄'.trans hserved₅
  rw [Kernel.setIo_setIo] at h
  rcases eq_or_ne (u.idStatus &&& ataSrErr) 0 with herr | herr
  -- no read since the command has changed the signature in the registers
  · have hregs : (b₅.chan c).regs = (b₃.chan c).regs := hregs₅.trans hregs₄
    obtain ⟨-, -, -, hlo', hhi'⟩ : _ ∧ _ ∧ _ ∧ _ ∧ _ := by simpa [AtaChannel.regs] using hregs
    have hcl : b₅.readReg c ataRegLba1 = u.sigLo := hlo'.trans hlo
    have hch : b₅.readReg c ataRegLba2 = u.sigHi := hhi'.trans hhi
    rw [if_neg (by simp [herr]),
      runs_bind_of_runs (ideRead_lba (w := w.setIo b₅) hw hc (show ataRegLba1 < 7 by decide)),
      runs_bind_of_runs (ideRead_lba (w := w.setIo b₅) hw hc (show ataRegLba2 < 7 by decide))] at h
    simp only [Kernel.io_setIo, hcl, hch] at h
    obtain ⟨rfl, rfl⟩ := runs_pure.1 h
    refine ⟨?_, ?_, b₅, .identify, rfl, hserved₅'⟩
    · intro hata
      rw [hata.2.2.2.2.1, hata.2.2.2.2.2]
      decide
    · intro h0 h2 h3
      exact ⟨habsent.1, habsent.2, signature_of_deviceType h0 h2 h3⟩
  · rw [if_pos herr] at h
    obtain ⟨rfl, rfl⟩ := runs_pure.1 h
    exact ⟨fun hata ↦ absurd hata.2.2.1 herr, fun h0 ↦ absurd rfl h0, b₅, .identify, rfl,
      hserved₅'⟩

/-- **`ide_identify`** leaves the unit ready. If the unit answers with data, the slot numbered
by its position — on either channel — describes it. -/
theorem ideIdentify_runs {v : Unit} (hw : w.Wired) (hc : c < 2) (hd : d < 2)
    (hu : w.io.unit c d = u) (hbusy : u.busy = 0) (h : Runs (ideIdentify fuel c d) w v w') :
    ∃ b' ph, AtaBus.Served c d w.io { u with phase := ph, busy := 0 } b' ∧
      ((u.idStatus &&& ataSrErr = 0 ∧ u.idStatus &&& ataSrDrq ≠ 0) ∧
        w' = { w with
          io := b'
          ideBuf := u.idData
          ideDevices := Function.update w.ideDevices d
            (identified c d u.idData (w.ideDevices d)) } ∨
      ¬ (u.idStatus &&& ataSrErr = 0 ∧ u.idStatus &&& ataSrDrq ≠ 0) ∧ w' = w.setIo b') := by
  have hdev : d &&& 1 = d := by interval_cases d <;> rfl
  -- the four registers that are cleared do not concern the unit
  obtain ⟨b₁, hselect, hserved₁, hsel₁⟩ := selectDrive_spec hw hc hd
  rw [hu] at hserved₁
  obtain ⟨b₂, hrun₂, hserved₂, hsel₂⟩ := writeReg_spec (w := w.setIo b₁) (v := 0) hw hc hsel₁
    (show ataRegSecCount0 < 6 by decide)
  rw [Kernel.io_setIo, hserved₁.unit_eq] at hserved₂
  obtain ⟨b₃, hrun₃, hserved₃, hsel₃⟩ := writeReg_spec (w := w.setIo b₂) (v := 0) hw hc hsel₂
    (show ataRegLba0 < 6 by decide)
  rw [Kernel.io_setIo, hserved₂.unit_eq] at hserved₃
  obtain ⟨b₄, hrun₄, hserved₄, hsel₄⟩ := writeReg_spec (w := w.setIo b₃) (v := 0) hw hc hsel₃
    (show ataRegLba1 < 6 by decide)
  rw [Kernel.io_setIo, hserved₃.unit_eq] at hserved₄
  obtain ⟨b₅, hrun₅, hserved₅, hsel₅⟩ := writeReg_spec (w := w.setIo b₄) (v := 0) hw hc hsel₄
    (show ataRegLba2 < 6 by decide)
  rw [Kernel.io_setIo, hserved₄.unit_eq] at hserved₅
  obtain ⟨b₆, k, hcmd, hserved₆, hsel₆, -⟩ := identifyCommand_spec (w := w.setIo b₅) hw hc hsel₅
    hserved₅.unit_eq hbusy
  obtain ⟨b₇, hread, hserved₇, hregs₇⟩ := ideRead_status_spec (w := w.setIo b₆) hw hc hsel₆
    hserved₆.unit_eq
  have hsel₇ := (AtaChannel.selected_congr hregs₇).trans hsel₆
  have hserved := hserved₁.trans (hserved₂.trans (hserved₃.trans (hserved₄.trans
    (hserved₅.trans (hserved₆.trans hserved₇)))))
  simp only [Kernel.setIo_setIo] at hrun₂ hrun₃ hrun₄ hrun₅ hcmd hread
  simp only [ideIdentify, hdev, timerWaitMs_one, pure_bind] at h
  rw [runs_get_bind, runs_bind_of_runs hselect, runs_bind_of_runs hrun₂, runs_bind_of_runs hrun₃,
    runs_bind_of_runs hrun₄, runs_bind_of_runs hrun₅, runs_bind_of_runs hcmd,
    runs_bind_of_runs hread] at h
  by_cases hnone : AtaUnit.status { u with phase := .identify, busy := k } = 0
  · rw [if_pos hnone] at h
    obtain ⟨-, rfl⟩ := runs_pure.1 h
    obtain ⟨rfl, hzero⟩ := AtaUnit.eq_zero_of_status_identify hnone
    exact ⟨b₇, .identify, hserved, Or.inr ⟨fun hdata ↦ absurd (by rw [hzero]; decide) hdata.2, rfl⟩⟩
  · rw [if_neg hnone] at h
    obtain ⟨ready, w₈, hwait, h⟩ := runs_bind.1 h
    obtain ⟨hready, b₈, rfl, hserved₈, hsel₈⟩ := awaitData_runs (w := w.setIo b₇) hw hc hsel₇
      hserved₇.unit_eq rfl hwait
    cases ready with
    | false =>
      obtain ⟨-, rfl⟩ := runs_pure.1 h
      exact ⟨b₈, .identify, hserved.trans hserved₈,
        Or.inr ⟨fun hdata ↦ absurd (hready.2 hdata) Bool.false_ne_true, rfl⟩⟩
    | true =>
      have hcur : b₈.current c = { u with phase := .identify, busy := 0 } :=
        (AtaBus.current_of_selected hsel₈).trans hserved₈.unit_eq
      have hin := AtaBus.dataIn_identify hcur rfl rfl
      have hinsw : inswIdeBuf (w.channels c).base ((w.setIo b₇).setIo b₈) =
          some ((), { w with
            io := b₈.setCurrent c { u with phase := .idle, busy := 0 }
            ideBuf := u.idData }) := by
        rw [show (w.channels c).base = (ideChannels c).base by rw [hw]]
        simp only [inswIdeBuf, PortBus.insw, AtaBus.decode_base hc, ↓reduceIte, Kernel.io_setIo,
          hin]
        rfl
      rw [if_pos rfl, runs_bind_of_runs hinsw, runs_modify] at h
      exact ⟨_, .idle, (hserved.trans hserved₈).trans (AtaBus.served_setCurrent hsel₈),
        Or.inl ⟨hready.1 rfl, h.symm⟩⟩

end Probe

/-! ### The four slots -/

/-- The device table after the probe of slot `i`, where the unit `u` is. -/
def afterSlot (u : AtaUnit) (i : ℕ) (t : ℕ → IdeDevice) : ℕ → IdeDevice :=
  let t := Function.update t i { t i with reserved := 0 }
  if u.IsAta then
    Function.update t (i % 2) (identified (i / 2) (i % 2) u.idData (t (i % 2)))
  else t

/-- The device table after the probes of the `n` slots from `i` on. -/
def afterSlots (b : AtaBus) : ℕ → ℕ → (ℕ → IdeDevice) → ℕ → IdeDevice
  | _, 0, t => t
  | i, n + 1, t => afterSlots b (i + 1) n (afterSlot (b.unit (i / 2) (i % 2)) i t)

section Slots

variable {w w' : Kernel AtaBus} {b₀ : AtaBus} {i n fuel : ℕ} {u : AtaUnit} {v : Unit}

/-- The probe of one slot. -/
theorem ideInitializeSlot_runs (hw : w.Wired) (hi : i < 4) (hu : w.io.unit (i / 2) (i % 2) = u)
    (hbusy : u.busy = 0) (hphase : u.phase = .idle)
    (h : Runs (ideInitializeSlot fuel i) w v w') :
    w'.Wired ∧ w'.ideDevices = afterSlot u i w.ideDevices ∧
      ∃ ph, AtaBus.Served (i / 2) (i % 2) w.io { u with phase := ph, busy := 0 } w'.io := by
  obtain ⟨r, w₂, hexists, h⟩ := runs_bind.1 ((runs_bind_of_runs modify_apply).1 h)
  have hc : i / 2 < 2 := by omega
  have hd : i % 2 < 2 := by omega
  obtain ⟨hata, hfound, b₂, ph, rfl, hserved⟩ :=
    ideDeviceExists_runs (w := { w with
      ideDevices := Function.update w.ideDevices i { w.ideDevices i with reserved := 0 } })
      hw hc hd hu hbusy hphase hexists
  -- the codes 0, 2 and 3 end the probe, and an ATA device gives none of them
  rcases eq_or_ne r 0 with h0 | h0
  · rw [if_pos h0] at h
    obtain ⟨-, rfl⟩ := runs_pure.1 h
    exact ⟨hw, (if_neg fun ha ↦ by have := hata ha; omega).symm, ph, hserved⟩
  rcases eq_or_ne r 2 with h2 | h2
  · rw [if_neg h0, if_pos h2] at h
    obtain ⟨-, rfl⟩ := runs_pure.1 h
    exact ⟨hw, (if_neg fun ha ↦ by have := hata ha; omega).symm, ph, hserved⟩
  rcases eq_or_ne r 3 with h3 | h3
  · rw [if_neg h0, if_neg h2, if_pos h3] at h
    obtain ⟨-, rfl⟩ := runs_pure.1 h
    exact ⟨hw, (if_neg fun ha ↦ by have := hata ha; omega).symm, ph, hserved⟩
  rw [if_neg h0, if_neg h2, if_neg h3] at h
  obtain ⟨b₃, ph', hserved', hcase⟩ := ideIdentify_runs
    (w := Kernel.setIo { w with
      ideDevices := Function.update w.ideDevices i { w.ideDevices i with reserved := 0 } } b₂)
    hw hc hd hserved.unit_eq rfl h
  obtain ⟨hidle, hidle', hlo, hhi⟩ := hfound h0 h2 h3
  rcases hcase with ⟨hdata, rfl⟩ | ⟨hdata, rfl⟩
  · exact ⟨hw, (if_pos ⟨hidle, hidle', hdata.1, hdata.2, hlo, hhi⟩).symm, ph',
      hserved.trans hserved'⟩
  · exact ⟨hw, (if_neg fun ha ↦ hdata ⟨ha.2.2.1, ha.2.2.2.1⟩).symm, ph', hserved.trans hserved'⟩

/-- At power-on no unit is in the middle of something, and an idle one is not busy, unless the
position is empty and floats. -/
def AtaBus.PowerOn (b : AtaBus) : Prop :=
  ∀ c < 2, ∀ d < 2, (b.unit c d).phase = .idle ∧ (b.unit c d).busy = 0 ∧
    ((b.unit c d).idle = 0xFF ∨ (b.unit c d).idle &&& ataSrBsy = 0)

/-- Between the probes of slots `i - 1` and `i`, the units not probed yet are as they were, and
those probed are ready. -/
def AtaBus.ProbedTo (b₀ : AtaBus) (i : ℕ) (b : AtaBus) : Prop :=
  ∀ j < 4, (i ≤ j → b.unit (j / 2) (j % 2) = b₀.unit (j / 2) (j % 2)) ∧
    (b.unit (j / 2) (j % 2)).busy = 0 ∧
    (b.unit (j / 2) (j % 2)).idle = (b₀.unit (j / 2) (j % 2)).idle

theorem AtaBus.PowerOn.probedTo (hb : b₀.PowerOn) : AtaBus.ProbedTo b₀ 0 b₀ := fun j hj ↦
  ⟨fun _ ↦ rfl, (hb _ (by omega) _ (by omega)).2.1, rfl⟩

/-- The probes of the slots from `i` on. -/
theorem ideInitializeLoop_runs (hb : b₀.PowerOn) (hw : w.Wired) (hi : i + n = 4)
    (hprobed : AtaBus.ProbedTo b₀ i w.io) (h : Runs (ideInitializeLoop fuel i n) w v w') :
    w'.Wired ∧ w'.ideDevices = afterSlots b₀ i n w.ideDevices ∧ AtaBus.ProbedTo b₀ 4 w'.io := by
  induction n generalizing w i with
  | zero =>
    obtain ⟨-, rfl⟩ := runs_pure.1 h
    obtain rfl : i = 4 := by omega
    exact ⟨hw, rfl, hprobed⟩
  | succ n ih =>
    obtain ⟨_, w₁, hslot, h⟩ := runs_bind.1 h
    have hpower := hb (i / 2) (by omega) (i % 2) (by omega)
    obtain ⟨hw₁, hdev₁, ph, hserved⟩ := ideInitializeSlot_runs hw (by omega)
      ((hprobed i (by omega)).1 (Nat.le_refl i)) hpower.2.1 hpower.1 hslot
    have hprobed₁ : AtaBus.ProbedTo b₀ (i + 1) w₁.io := by
      intro j hj
      rcases eq_or_ne j i with rfl | hji
      · rw [hserved.unit_eq]
        exact ⟨fun h ↦ by omega, rfl, rfl⟩
      · rw [hserved.elsewhere _ _ (by omega)]
        exact ⟨fun h ↦ (hprobed j hj).1 (by omega), (hprobed j hj).2⟩
    obtain ⟨hw', hdev', hprobed'⟩ := ih hw₁ (by omega) hprobed₁ h
    exact ⟨hw', by rw [hdev', hdev₁, afterSlots], hprobed'⟩

end Slots

/-! ### The table after `ide_initialize` -/

section Initialize

variable {w w' : Kernel AtaBus} {b : AtaBus} {i x fuel : ℕ} {u : AtaUnit} {t : ℕ → IdeDevice}
  {v : Unit}

/-- The control register is written where no register is. -/
theorem ideWrite_control {c : ℕ} {data : UInt8} (hw : w.Wired) (hc : c < 2) :
    ideWrite c ataRegControl data w = some ((), w) := by
  show some ((), w.setIo (PortBus.outb ((w.channels c).port ataRegControl) data w.io)) = _
  rw [hw]
  simp only [PortBus.outb, AtaBus.decode_altStatus hc,
    show ataRegControl = ataRegAltStatus from rfl, Kernel.setIo_self]

/-- **`ide_initialize`** probes the four slots and leaves every unit ready. -/
theorem ideInitialize_runs (hb : w.io.PowerOn) (h : Runs (ideInitialize fuel) w v w') :
    w'.Wired ∧ w'.ideDevices = afterSlots w.io 0 4 w.ideDevices ∧
      AtaBus.ProbedTo w.io 4 w'.io := by
  have hw : Kernel.Wired { w with channels := ideChannels } := rfl
  rw [ideInitialize, runs_bind_of_runs modify_apply,
    runs_bind_of_runs (ideWrite_control hw (by decide)),
    runs_bind_of_runs (ideWrite_control hw (by decide))] at h
  exact ideInitializeLoop_runs (w := { w with channels := ideChannels }) hb hw rfl hb.probedTo h

/-- No probe fills a slot of the secondary channel; the one of the slot itself empties it. -/
theorem reserved_afterSlot (hx : 2 ≤ x) :
    (afterSlot u i t x).reserved = if x = i then 0 else (t x).reserved := by
  have hmod : x ≠ i % 2 := by omega
  rw [afterSlot]
  rcases eq_or_ne x i with rfl | hxi
  · split <;> simp [Function.update_of_ne hmod]
  · split <;> simp [Function.update_of_ne hmod, hxi]

theorem reserved_afterSlots (hx : x = 2 ∨ x = 3) : (afterSlots b 0 4 t x).reserved = 0 := by
  rcases hx with rfl | rfl
  · simp [afterSlots, reserved_afterSlot]
  · simp [afterSlots, reserved_afterSlot]

/-- With no ATA device on the secondary channel, a primary slot is what its own probe made it. -/
theorem afterSlots_of_not_isAta (hsec : ∀ d < 2, ¬ (b.unit 1 d).IsAta) (hi : i < 2) :
    afterSlots b 0 4 t i =
      if (b.unit 0 i).IsAta then identified 0 i (b.unit 0 i).idData (t i)
      else { t i with reserved := 0 } := by
  have h₂ := hsec 0 (by decide)
  have h₃ := hsec 1 (by decide)
  interval_cases i
  · by_cases h₀ : (b.unit 0 0).IsAta <;> by_cases h₁ : (b.unit 0 1).IsAta <;>
      simp [afterSlots, afterSlot, h₀, h₁, h₂, h₃, identified]
  · by_cases h₀ : (b.unit 0 0).IsAta <;> by_cases h₁ : (b.unit 0 1).IsAta <;>
      simp [afterSlots, afterSlot, h₀, h₁, h₂, h₃, identified]

/-- Every slot of the device table describes the device at its own position: it is in use when an
ATA device answered there, its fields are then those of that device, and the driver reaches that
device through it. `b` is the bus before detection. -/
structure SlotsDescribe (b : AtaBus) (w : Kernel AtaBus) : Prop where
  /-- A slot is in use exactly for an ATA device that answers IDENTIFY. -/
  reserved_iff : ∀ i < 4, (w.ideDevices i).reserved = 1 ↔ (b.unit (i / 2) (i % 2)).IsAta
  /-- Its fields are decoded from the device's own IDENTIFY block; `Type` is never set. -/
  identified_eq : ∀ i < 4, (b.unit (i / 2) (i % 2)).IsAta →
    w.ideDevices i =
      identified (i / 2) (i % 2) (b.unit (i / 2) (i % 2)).idData (w.ideDevices i)
  /-- Transfers on the slot are transfers on the device. -/
  attached : ∀ i < 4, (b.unit (i / 2) (i % 2)).IsAta → Attached w i (i / 2) (i % 2)

/-- A device on the secondary channel is not described by its slot. -/
theorem not_slotsDescribe {d : ℕ} (hd : d < 2) (hata : (b.unit 1 d).IsAta)
    (hdev : w'.ideDevices = afterSlots b 0 4 t) : ¬ SlotsDescribe b w' := by
  intro hslots
  have hused := (hslots.reserved_iff (2 + d) (by omega)).2 (by
    rw [show (2 + d) / 2 = 1 by omega, show (2 + d) % 2 = d by omega]
    exact hata)
  rw [hdev, reserved_afterSlots (by omega)] at hused
  exact absurd hused Nat.zero_ne_one

/-- **Every slot describes its own device exactly when the secondary channel has no ATA device
that answers IDENTIFY.** -/
theorem slotsDescribe_iff (hb : w.io.PowerOn) (h : Runs (ideInitialize fuel) w v w') :
    SlotsDescribe w.io w' ↔ ∀ d < 2, ¬ (w.io.unit 1 d).IsAta := by
  obtain ⟨hw, hdev, hprobed⟩ := ideInitialize_runs hb h
  constructor
  · intro hslots d hd hata
    exact not_slotsDescribe hd hata hdev hslots
  · intro hsec
    -- without ATA devices on the secondary channel a slot is never written for another one
    have hslot : ∀ i < 4, (w.io.unit (i / 2) (i % 2)).IsAta →
        i < 2 ∧ w'.ideDevices i = identified (i / 2) (i % 2) (w.io.unit (i / 2) (i % 2)).idData
          (w.ideDevices i) := by
      intro i hi hata
      have hlt : i < 2 := by
        by_contra hge
        rw [show i / 2 = 1 by omega] at hata
        exact hsec _ (by omega) hata
      rw [show i / 2 = 0 by omega, show i % 2 = i by omega] at hata ⊢
      rw [hdev, afterSlots_of_not_isAta hsec hlt, if_pos hata]
      exact ⟨hlt, rfl⟩
    refine ⟨fun i hi ↦ ⟨?_, ?_⟩, ?_, ?_⟩
    · intro hused
      by_contra hnot
      rw [hdev] at hused
      rcases Nat.lt_or_ge i 2 with hlt | hlt
      · rw [show i / 2 = 0 by omega, show i % 2 = i by omega] at hnot
        rw [afterSlots_of_not_isAta hsec hlt, if_neg hnot] at hused
        exact absurd hused Nat.zero_ne_one
      · rw [reserved_afterSlots (by omega)] at hused
        exact absurd hused (by decide)
    · intro hata
      rw [(hslot i hi hata).2]
      rfl
    · intro i hi hata
      rw [(hslot i hi hata).2]
      rfl
    · intro i hi hata
      obtain ⟨-, hrec⟩ := hslot i hi hata
      obtain ⟨-, hready, hidle⟩ := hprobed i hi
      refine ⟨hi, ?_, ?_, ?_, by omega, by omega, hw, hready, ?_⟩
      · rw [hrec]
        exact Nat.one_ne_zero
      · rw [hrec]
        rfl
      · rw [hrec]
        rfl
      · rw [hidle]
        exact (hb _ (by omega) _ (by omega)).2.2.resolve_left hata.1

end Initialize

/-! ### One disk -/

/-- A bus whose only device is a disk at one position. -/
def AtaBus.single (c d : ℕ) : AtaBus :=
  { AtaBus.blank fun _ ↦ 0 with
    chan := fun c' ↦ ⟨0, 0, 0, 0, 0, fun d' ↦
      { AtaUnit.blank fun _ ↦ 0 with idle := if c' = c ∧ d' = d then 0x50 else 0xFF }⟩ }

/-- The kernel before detection: zeros. -/
def Kernel.powerOn (b : AtaBus) : Kernel AtaBus where
  heap := Heap.boot fun _ ↦ 0
  channels _ := ⟨0, 0, 0, 0⟩
  ideDevices _ := ⟨0, 0, 0, 0, 0, 0, 0, 0, fun _ ↦ 0⟩
  ideBuf _ := 0
  timerTicks := 0
  io := b

theorem AtaBus.powerOn_single (c d : ℕ) : (AtaBus.single c d).PowerOn := by
  refine fun c' _ d' _ ↦ ⟨rfl, rfl, ?_⟩
  show (if c' = c ∧ d' = d then (0x50 : UInt8) else 0xFF) = 0xFF ∨
    (if c' = c ∧ d' = d then (0x50 : UInt8) else 0xFF) &&& ataSrBsy = 0
  split
  · exact Or.inr (by decide)
  · exact Or.inl rfl

/-- A disk that is the primary slave is described by its slot. -/
theorem slotsDescribe_primarySlave :
    ∃ w', Runs (ideInitialize 1) (Kernel.powerOn (.single 0 1)) () w' ∧
      SlotsDescribe (.single 0 1) w' := by
  obtain ⟨⟨v, w'⟩, hrun⟩ := Option.isSome_iff_exists.1
    (show (ideInitialize 1 (Kernel.powerOn (.single 0 1))).isSome = true by decide +kernel)
  exact ⟨w', hrun, (slotsDescribe_iff (AtaBus.powerOn_single 0 1) hrun).2 (by decide)⟩

/-- A disk that is the secondary master is described by slot 0, and slot 2 is empty. -/
theorem not_slotsDescribe_secondaryMaster :
    ∃ w', Runs (ideInitialize 1) (Kernel.powerOn (.single 1 0)) () w' ∧
      (w'.ideDevices 2).reserved = 0 ∧ (w'.ideDevices 0).channel = 1 ∧
      ¬ SlotsDescribe (.single 1 0) w' := by
  obtain ⟨⟨v, w'⟩, hrun⟩ := Option.isSome_iff_exists.1
    (show (ideInitialize 1 (Kernel.powerOn (.single 1 0))).isSome = true by decide +kernel)
  obtain ⟨-, hdev, -⟩ := ideInitialize_runs (AtaBus.powerOn_single 1 0) hrun
  refine ⟨w', hrun, ?_, ?_, not_slotsDescribe (d := 0) (by decide) (by decide) hdev⟩
  · rw [hdev, reserved_afterSlots (Or.inl rfl)]
  · rw [hdev]
    decide
