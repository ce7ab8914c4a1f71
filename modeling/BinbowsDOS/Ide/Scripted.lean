import BinbowsDOS.Ide.SectorTransfer

/-!
# Devices with scripted statuses

An `AtaBus` whose status register reads whatever a script says. The script gives, for every
command, for every sector transferred since and for every read of the register since, the value
of that read, so a theorem about all scripts is one about every sequence of statuses. All else is
up to the `AtaBus`, which must never be busy on its own account (`ScriptedDrive`).

What the driver gets out of a script is one verdict for each poll, the status it reads after the
first one without BSY (`Concludes`); there is one if BSY goes and stays away (`Settles`).
-/

open Prog Kernel

/-- A bus with scripted statuses. -/
structure Scripted where
  /-- Registers, media and data. -/
  bus : AtaBus
  /-- The statuses, by command, sector and read. -/
  script : ℕ → ℕ → ℕ → UInt8
  /-- The commands so far. -/
  commands : ℕ
  /-- The sectors since the last command. -/
  sectors : ℕ
  /-- The reads of a status since then. -/
  reads : ℕ

/-- A bus after `n` reads of the status. -/
def Scripted.readTo (b : Scripted) (n : ℕ) : Scripted := { b with reads := n }

instance : PortBus Scripted where
  inb port b := match AtaBus.decode port with
    | some (c, reg) =>
      if reg = ataRegStatus then
        (b.script b.commands b.sectors b.reads, b.readTo (b.reads + 1))
      else (b.bus.readReg c reg, b)
    | none => (b.bus.other, b)
  outb port v b := match AtaBus.decode port with
    | some (c, reg) =>
      if reg = ataRegCommand then
        ⟨b.bus.command c v, b.script, b.commands + 1, 0, 0⟩
      else { b with bus := b.bus.setChan c ((b.bus.chan c).setReg reg v) }
    | none => b
  insw port b := match AtaBus.decode port with
    | some (c, reg) =>
      if reg = ataRegData then
        ((b.bus.dataIn c).1, ⟨(b.bus.dataIn c).2, b.script, b.commands, b.sectors + 1, 0⟩)
      else (fun _ ↦ b.bus.other, b)
    | none => (fun _ ↦ b.bus.other, b)
  outsw port s b := match AtaBus.decode port with
    | some (c, reg) =>
      if reg = ataRegData then
        ⟨b.bus.dataOut c s, b.script, b.commands, b.sectors + 1, 0⟩
      else b
    | none => b

/-- BSY goes and stays away. -/
def Settles (s : ℕ → UInt8) : Prop := ∃ m, ∀ j, m ≤ j → s j &&& ataSrBsy = 0

/-- The first read without BSY is number `m`. -/
structure ReadyAt (s : ℕ → UInt8) (m : ℕ) : Prop where
  /-- The reads before. -/
  busy : ∀ j < m, s j &&& ataSrBsy ≠ 0
  /-- This one. -/
  ready : s m &&& ataSrBsy = 0

/-- A poll ends with the status `v`. -/
def Concludes (s : ℕ → UInt8) (v : UInt8) : Prop := ∃ m, ReadyAt s m ∧ v = s (m + 1)

/-- A status that offers data: ERR and DF clear and DRQ set. -/
def OffersData (v : UInt8) : Prop :=
  v &&& ataSrErr = 0 ∧ v &&& ataSrDf = 0 ∧ v &&& ataSrDrq ≠ 0

instance (v : UInt8) : Decidable (OffersData v) := inferInstanceAs (Decidable (_ ∧ _))

/-- What a status that does not is reported as. -/
def failureCode (v : UInt8) : ℕ :=
  if v &&& ataSrErr ≠ 0 then 2 else if v &&& ataSrDf ≠ 0 then 1 else 3

theorem Settles.exists_readyAt {s : ℕ → UInt8} (h : Settles s) : ∃ m, ReadyAt s m := by
  have hready : ∃ m, s m &&& ataSrBsy = 0 := by
    obtain ⟨m, hm⟩ := h
    exact ⟨m, hm m le_rfl⟩
  exact ⟨Nat.find hready, fun j hj ↦ Nat.find_min hready hj, Nat.find_spec hready⟩

theorem ReadyAt.unique {s : ℕ → UInt8} {m m' : ℕ} (h : ReadyAt s m) (h' : ReadyAt s m') :
    m = m' := by
  rcases Nat.lt_trichotomy m m' with hlt | heq | hlt
  · exact absurd h.ready (h'.busy m hlt)
  · exact heq
  · exact absurd h'.ready (h.busy m' hlt)

theorem failureCode_ne_zero (v : UInt8) : failureCode v ≠ 0 := by
  rw [failureCode]
  split_ifs <;> decide

namespace Kernel

/-- The kernel on the underlying bus. -/
def plain (w : Kernel Scripted) : Kernel AtaBus where
  heap := w.heap
  channels := w.channels
  ideDevices := w.ideDevices
  ideBuf := w.ideBuf
  timerTicks := w.timerTicks
  io := w.io.bus

/-- Slot `i` describes the drive at position `d` of channel `c`, where only the script decides how
long the drive is busy. -/
structure ScriptedDrive (w : Kernel Scripted) (i c d : ℕ) : Prop where
  /-- The drive is attached. -/
  attached : Attached w.plain i c d
  /-- The underlying bus takes no time. -/
  prompt : ∀ k, w.io.bus.latency k = 0

/-- A drive stays attached when it is served. -/
theorem ScriptedDrive.served {w w' : Kernel Scripted} {i c d : ℕ} {u : AtaUnit}
    (hs : w.ScriptedDrive i c d) (hchannels : w'.channels = w.channels)
    (hdevices : w'.ideDevices = w.ideDevices) (hserved : AtaBus.Served c d w.io.bus u w'.io.bus)
    (hready : u.busy = 0) (hidle : u.idle = (w.io.bus.unit c d).idle) : w'.ScriptedDrive i c d :=
  ⟨hs.attached.served hchannels hdevices hserved hready hidle,
    fun k ↦ (congrFun hserved.latency_eq k).trans (hs.prompt k)⟩

end Kernel

/-! ### The driver on a scripted bus -/

section Programs

variable {w : Kernel Scripted} {c d fuel i lba n m : ℕ} {u : AtaUnit} {v : UInt8}

theorem Scripted.ideRead_status (hw : w.Wired) (hc : c < 2) :
    ideRead c ataRegStatus w = some (w.io.script w.io.commands w.io.sectors w.io.reads,
      w.setIo (w.io.readTo (w.io.reads + 1))) := by
  show some ((PortBus.inb ((w.channels c).port ataRegStatus) w.io).1,
    w.setIo (PortBus.inb ((w.channels c).port ataRegStatus) w.io).2) = _
  rw [hw]
  simp only [PortBus.inb, AtaBus.decode_port hc (show ataRegStatus < 8 by decide), ↓reduceIte]

theorem Scripted.ideWrite_reg {reg : ℕ} (hw : w.Wired) (hc : c < 2) (hreg : reg < 7) :
    ideWrite c reg v w = some ((), w.setIo
      { w.io with bus := w.io.bus.setChan c ((w.io.bus.chan c).setReg reg v) }) := by
  have hob : ¬ (0x07 < reg ∧ reg < 0x0C) := by omega
  have hcmd : reg ≠ ataRegCommand := by rw [ataRegCommand]; omega
  rw [ideWrite, ideSelectHob, if_neg hob]
  show some ((), w.setIo (PortBus.outb ((w.channels c).port reg) v w.io)) = _
  rw [hw]
  simp only [PortBus.outb, AtaBus.decode_port hc (show reg < 8 by omega), if_neg hcmd]

theorem Scripted.ideWrite_command (hw : w.Wired) (hc : c < 2) :
    ideWrite c ataRegCommand v w = some ((), w.setIo
      ⟨w.io.bus.command c v, w.io.script, w.io.commands + 1, 0, 0⟩) := by
  show some ((), w.setIo (PortBus.outb ((w.channels c).port ataRegCommand) v w.io)) = _
  rw [hw]
  simp only [PortBus.outb, AtaBus.decode_port hc (show ataRegCommand < 8 by decide), ↓reduceIte]

theorem Scripted.readAltStatus_apply (hw : w.Wired) (hc : c < 2) (n : ℕ) :
    readAltStatus c n w = some ((), w) := by
  have hread : ideRead c ataRegAltStatus w = some (w.io.bus.other, w) := by
    show some ((PortBus.inb ((w.channels c).port ataRegAltStatus) w.io).1,
      w.setIo (PortBus.inb ((w.channels c).port ataRegAltStatus) w.io).2) = _
    rw [hw]
    simp only [PortBus.inb, AtaBus.decode_altStatus hc, Kernel.setIo_self]
  induction n with
  | zero => rfl
  | succ n ih => rw [readAltStatus, bind_apply_of_runs hread, ih]

/-- The wait takes the reads up to the first without BSY. -/
theorem Scripted.waitWhileBusy_apply (hw : w.Wired) (hc : c < 2)
    (hready : ReadyAt (w.io.script w.io.commands w.io.sectors) m) (hreads : w.io.reads ≤ m)
    (hfuel : m - w.io.reads < fuel) :
    waitWhileBusy c fuel w = some ((), w.setIo (w.io.readTo (m + 1))) := by
  induction fuel generalizing w with
  | zero => omega
  | succ fuel ih =>
    rw [waitWhileBusy, bind_apply_of_runs (ideRead_status hw hc)]
    rcases hreads.eq_or_lt with heq | hlt
    · rw [heq, if_neg (not_not.2 hready.ready)]
      rfl
    · rw [if_pos (hready.busy _ hlt)]
      have hrest : m - (w.io.reads + 1) < fuel := by omega
      exact ih (w := w.setIo (w.io.readTo (w.io.reads + 1))) hw hready hlt hrest

/-- A poll with the check reports the verdict. -/
theorem Scripted.idePolling_one_apply (hw : w.Wired) (hc : c < 2) (hreads : w.io.reads = 0)
    (hready : ReadyAt (w.io.script w.io.commands w.io.sectors) m) (hfuel : m < fuel)
    (hv : v = w.io.script w.io.commands w.io.sectors (m + 1)) :
    idePolling fuel c 1 w = some (if OffersData v then 0 else failureCode v,
      w.setIo (w.io.readTo (m + 2))) := by
  have hstatus : ideRead c ataRegStatus (w.setIo (w.io.readTo (m + 1))) =
      some (v, w.setIo (w.io.readTo (m + 2))) := by
    rw [ideRead_status (w := w.setIo (w.io.readTo (m + 1))) hw hc, hv]
    rfl
  rw [idePolling, bind_apply_of_runs (readAltStatus_apply hw hc 4),
    bind_apply_of_runs (waitWhileBusy_apply hw hc hready (by omega) (by omega))]
  show (if (1 : ℕ) ≠ 0 then _ else _ : KernelM Scripted ℕ) _ = _
  rw [if_pos (by decide), bind_apply_of_runs hstatus]
  by_cases hoffers : OffersData v
  · rw [if_pos hoffers, if_neg (not_not.2 hoffers.1), if_neg (not_not.2 hoffers.2.1),
      if_neg hoffers.2.2]
    rfl
  · rw [if_neg hoffers, failureCode]
    split_ifs with herr hdf hdrq
    · rfl
    · rfl
    · rfl
    · exact absurd ⟨not_not.1 herr, not_not.1 hdf, hdrq⟩ hoffers

/-- The registers of a transfer, and its command. -/
theorem Scripted.ideSetup_apply {cmd : UInt8} (hw : w.Wired) (hc : c < 2)
    (s head count lba0 lba1 lba2 : ℕ) :
    ideSetup c s head count lba0 lba1 lba2 cmd w = some ((), w.setIo
      ⟨(w.io.bus.program c s head count lba0 lba1 lba2).command c cmd, w.io.script,
        w.io.commands + 1, 0, 0⟩) := by
  have hreg : ∀ (b : AtaBus) (reg : ℕ) (v : UInt8), reg < 7 →
      ideWrite c reg v (w.setIo { w.io with bus := b }) =
        some ((), w.setIo { w.io with bus := b.setChan c ((b.chan c).setReg reg v) }) :=
    fun b reg v h ↦ ideWrite_reg (w := w.setIo { w.io with bus := b }) hw hc h
  have hself : w = w.setIo { w.io with bus := w.io.bus } := rfl
  rw [ideSetup, timerWaitMs_one]
  conv_lhs => rw [hself]
  rw [bind_apply_of_runs (hreg _ _ _ (by decide)), pure_bind,
    bind_apply_of_runs (hreg _ _ _ (by decide)), bind_apply_of_runs (hreg _ _ _ (by decide)),
    bind_apply_of_runs (hreg _ _ _ (by decide)), bind_apply_of_runs (hreg _ _ _ (by decide))]
  simp only [AtaBus.setChan_setChan, AtaBus.chan_setChan_self]
  exact ideWrite_command (w := w.setIo _) hw hc

theorem Scripted.insw_data (addr : ℕ) (hc : c < 2) :
    insw (ideChannels c).base addr w =
      some ((), (w.setMem (w.mem.blit addr 512 (w.io.bus.dataIn c).1.bytes)).setIo
        ⟨(w.io.bus.dataIn c).2, w.io.script, w.io.commands, w.io.sectors + 1, 0⟩) := by
  simp only [insw, PortBus.insw, AtaBus.decode_base hc, ↓reduceIte]

/-! ### Reads -/

/-- Some amount of fuel is enough for the polls of `n` sectors. -/
theorem exists_fuel {s : ℕ → ℕ → UInt8} (h : ∀ k < n, Settles (s k)) :
    ∃ fuel₀, ∀ k < n, ∀ m, ReadyAt (s k) m → m < fuel₀ := by
  induction n with
  | zero => exact ⟨0, fun k hk ↦ absurd hk (Nat.not_lt_zero k)⟩
  | succ n ih =>
    obtain ⟨fuel₀, hfuel₀⟩ := ih fun k hk ↦ h k (Nat.lt_succ_of_lt hk)
    obtain ⟨m, hm⟩ := (h n (Nat.lt_succ_self n)).exists_readyAt
    refine ⟨max fuel₀ (m + 1), fun k hk m' hm' ↦ ?_⟩
    rcases Nat.lt_succ_iff_lt_or_eq.1 hk with hlt | rfl
    · exact lt_max_of_lt_left (hfuel₀ k hlt m' hm')
    · exact lt_max_of_lt_right (by rw [hm'.unique hm]; exact Nat.lt_succ_self m)

/-- How a read of `n` sectors ends whose polls have the verdicts `v`: `k` sectors arrive, and
either these are all or poll `k` is the first that offers no data. -/
structure ReadEnds (n : ℕ) (v : ℕ → UInt8) (k r : ℕ) : Prop where
  /-- There are no more than that. -/
  le : k ≤ n
  /-- The sectors that arrive are offered. -/
  offered : ∀ i < k, OffersData (v i)
  /-- Success. -/
  success : k = n → r = 0
  /-- Failure. -/
  failure : k ≠ n → ¬ OffersData (v k) ∧ r = failureCode (v k)

/-- **The loop of a read** takes the sectors that are offered and stops at the first that is
not. -/
theorem Scripted.readSectorsLoop_spec {j : ℕ} {v : ℕ → UInt8} (buf : ℕ) (hw : w.Wired) (hc : c < 2)
    (hd : (w.io.bus.chan c).selected = d) (hu : w.io.bus.unit c d = u) (hbusy : u.busy = 0)
    (hprompt : ∀ k, w.io.bus.latency k = 0)
    (hphase : u.phase = if n = 0 then .idle else .dataIn lba n) (hreads : w.io.reads = 0)
    (hready : ∀ k < n, ∃ m, ReadyAt (w.io.script w.io.commands (w.io.sectors + k)) m ∧ m < fuel ∧
      v k = w.io.script w.io.commands (w.io.sectors + k) (m + 1)) :
    ∃ k r b' ph, readSectorsLoop fuel c (ideChannels c).base buf j n w = some (r, (w.setMem
        (w.mem.blit (buf + j * 512) (512 * k) (sectorStream u.sectors lba))).setIo b') ∧
      ReadEnds n v k r ∧ AtaBus.Served c d w.io.bus { u with phase := ph, busy := 0 } b'.bus ∧
      b'.script = w.io.script ∧ b'.commands = w.io.commands := by
  have hself : w.io.bus.unit c d = { u with phase := u.phase, busy := 0 } := by rw [hu, ← hbusy]
  induction n generalizing w u lba j v with
  | zero =>
    refine ⟨0, 0, w.io, u.phase, ?_, ⟨le_rfl, fun i hi ↦ absurd hi (Nat.not_lt_zero i),
      fun _ ↦ rfl, fun h ↦ absurd rfl h⟩, hself ▸ AtaBus.Served.refl .., rfl, rfl⟩
    rw [Nat.mul_zero, ByteMem.blit_zero]
    rfl
  | succ n ih =>
    rw [if_neg (Nat.succ_ne_zero n)] at hphase
    obtain ⟨m, hm, hfuel, hv⟩ := hready 0 (Nat.succ_pos n)
    have hpoll := idePolling_one_apply hw hc hreads hm hfuel hv
    by_cases hoffers : OffersData (v 0)
    · rw [if_pos hoffers] at hpoll
      obtain ⟨k₁, b₁, hdata, hk₁, -, hserved₁, hsel₁⟩ := AtaBus.dataIn_spec hd hu hbusy hphase
        fun k ↦ show w.io.bus.latency k < 1 by rw [hprompt k]; exact Nat.one_pos
      obtain rfl : k₁ = 0 := by omega
      have hin := insw_data (w := w.setIo (w.io.readTo (m + 2))) (buf + j * 512) hc
      rw [show (w.setIo (w.io.readTo (m + 2))).io.bus.dataIn c = _ from hdata] at hin
      obtain ⟨k, r, b₂, ph, hloop, hends, hserved₂, hscript, hcommands⟩ := ih
        (v := fun i ↦ v (i + 1))
        (w := (w.setMem (w.mem.blit (buf + j * 512) 512 (u.sectors lba).bytes)).setIo
          ⟨b₁, w.io.script, w.io.commands, w.io.sectors + 1, 0⟩) (j := j + 1) hw hsel₁
        hserved₁.unit_eq rfl (fun k ↦ (congrFun hserved₁.latency_eq k).trans (hprompt k)) rfl rfl
        (fun k hk ↦ by
          have hnext := hready (k + 1) (Nat.succ_lt_succ hk)
          rw [show w.io.sectors + (k + 1) = w.io.sectors + 1 + k by omega] at hnext
          exact hnext) hserved₁.unit_eq
      refine ⟨k + 1, r, b₂, ph, ?_, ?_, hserved₁.trans hserved₂, hscript, hcommands⟩
      · rw [readSectorsLoop, bind_apply_of_runs hpoll, if_neg (by simp), bind_apply_of_runs hin,
          ← blit_sectorStream]
        exact hloop
      · refine ⟨Nat.succ_le_succ hends.le, fun i hi ↦ ?_, fun h ↦ hends.success (by omega),
          fun h ↦ hends.failure (by omega)⟩
        cases i with
        | zero => exact hoffers
        | succ i => exact hends.offered i (by omega)
    -- the first poll already fails, and nothing has been fetched
    · rw [if_neg hoffers] at hpoll
      refine ⟨0, failureCode (v 0), w.io.readTo (m + 2), u.phase, ?_, ⟨Nat.zero_le _,
        fun i hi ↦ absurd hi (Nat.not_lt_zero i), fun h ↦ absurd h (by omega),
        fun _ ↦ ⟨hoffers, rfl⟩⟩, hself ▸ AtaBus.Served.refl .., rfl, rfl⟩
      rw [readSectorsLoop, bind_apply_of_runs hpoll, if_pos (failureCode_ne_zero _), Nat.mul_zero,
        ByteMem.blit_zero]
      rfl

/-- **A read** from a drive with a script. -/
theorem Scripted.ideReadSectors_spec {v : ℕ → UInt8} (buf : ℕ) (hs : w.ScriptedDrive i c d)
    (hu : w.io.bus.unit c d = u) (hlba : lba < 2 ^ 28) (hpos : 0 < n) (hn : n < 256)
    (hready : ∀ k < n, ∃ m, ReadyAt (w.io.script (w.io.commands + 1) k) m ∧ m < fuel ∧
      v k = w.io.script (w.io.commands + 1) k (m + 1)) :
    ∃ k r b' ph, ideReadSectors fuel i n lba buf w = some (r, (w.setMem
        (w.mem.blit buf (512 * k) (sectorStream u.sectors lba))).setIo b') ∧
      ReadEnds n v k r ∧ AtaBus.Served c d w.io.bus { u with phase := ph, busy := 0 } b'.bus ∧
      b'.script = w.io.script ∧ b'.commands = w.io.commands + 1 := by
  have ha := hs.attached
  have habsent : ¬ (3 < i ∨ (w.ideDevices i).reserved = 0) := ha.not_absent
  obtain ⟨b₁, hcommand, hserved₁, hsel₁, -⟩ := AtaBus.command_program (b := w.io.bus) ha.drive_lt hu
    (hu ▸ ha.ready) hlba hn (Or.inl rfl)
  rw [hs.prompt, if_neg hpos.ne'] at hserved₁
  have hsetup : ideSetup c d _ _ _ _ _ ataCmdReadPio w = _ :=
    ideSetup_apply ha.wired ha.channel_lt d ((lba >>> 24) &&& 0x0F) n ((lba >>> 0) &&& 0xFF)
      ((lba >>> 8) &&& 0xFF) ((lba >>> 16) &&& 0xFF)
  rw [hcommand] at hsetup
  obtain ⟨k, r, b₂, ph, hloop, hends, hserved₂, hscript, hcommands⟩ := readSectorsLoop_spec
    (w := w.setIo ⟨b₁, w.io.script, w.io.commands + 1, 0, 0⟩) (v := v) (j := 0) (n := n) buf
    ha.wired ha.channel_lt hsel₁ hserved₁.unit_eq rfl
    (fun k ↦ (congrFun hserved₁.latency_eq k).trans (hs.prompt k))
    (show _ = if n = 0 then AtaPhase.idle else .dataIn lba n from (if_neg hpos.ne').symm) rfl
    (fun k hk ↦ by
      show ∃ m, ReadyAt (w.io.script (w.io.commands + 1) (0 + k)) m ∧ m < fuel ∧
        v k = w.io.script (w.io.commands + 1) (0 + k) (m + 1)
      rw [Nat.zero_add]
      exact hready k hk)
  refine ⟨k, r, b₂, ph, ?_, hends, hserved₁.trans hserved₂, hscript, hcommands⟩
  rw [ideReadSectors, bind_apply_of_runs get_apply, if_neg habsent]
  simp only [show (w.ideDevices i).channel = c from ha.channel_eq,
    show (w.ideDevices i).drive = d from ha.drive_eq, show w.channels = ideChannels from ha.wired]
  rw [if_neg (by omega), bind_apply_of_runs hsetup, hloop, Nat.zero_mul, Nat.add_zero]
  rfl

end Programs
