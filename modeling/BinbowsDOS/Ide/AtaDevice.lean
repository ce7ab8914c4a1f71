import BinbowsDOS.Ide.Frame
import Mathlib.Tactic.IntervalCases

/-!
# ATA devices on the two channels

A `PortBus` of two channels with two units each. A unit is in one of a few phases; a command
puts it into one, and the data port moves one sector at a time, in ascending order of LBA. After
a command and between sectors a unit is busy for a number of status reads that `latency` draws
anew each time from the bus's clock, so every timing of the device is covered. `refuses` says at
which points of the clock a device rejects the sector it is handed.

The driver reads and writes the control block at the control base plus four, where these
channels have no register; such a port answers a byte of its own and ignores writes.

A position with no device is a unit whose status register reads `0xFF` or `0x00`.
-/

/-- What a unit is doing. -/
inductive AtaPhase where
  /-- Nothing. -/
  | idle
  /-- The last command has failed. -/
  | aborted
  /-- Handing out sectors from `lba` on, `remaining` of them. -/
  | dataIn (lba remaining : ℕ)
  /-- Taking in sectors from `lba` on, `remaining` of them. -/
  | dataOut (lba remaining : ℕ)
  /-- Answering IDENTIFY. -/
  | identify

/-- A unit. -/
structure AtaUnit where
  /-- The status register when no command is in progress. -/
  idle : UInt8
  /-- The signature byte IDENTIFY leaves in the second LBA register. -/
  sigLo : UInt8
  /-- The signature byte IDENTIFY leaves in the third LBA register. -/
  sigHi : UInt8
  /-- The status that answers IDENTIFY. -/
  idStatus : UInt8
  /-- The data that answers IDENTIFY. -/
  idData : Sector
  /-- The medium. -/
  sectors : ℕ → Sector
  /-- What the unit is doing. -/
  phase : AtaPhase
  /-- For how many more status reads it is busy. -/
  busy : ℕ

/-- A channel: one set of registers for its two units. -/
structure AtaChannel where
  /-- Drive select, head. -/
  hddevsel : UInt8
  /-- Sector count. -/
  seccount : UInt8
  /-- Bits 0 to 7 of the LBA. -/
  lba0 : UInt8
  /-- Bits 8 to 15 of the LBA. -/
  lba1 : UInt8
  /-- Bits 16 to 23 of the LBA. -/
  lba2 : UInt8
  /-- The units. -/
  unit : ℕ → AtaUnit

/-- Two channels and what is left to chance. -/
structure AtaBus where
  /-- The channels. -/
  chan : ℕ → AtaChannel
  /-- How long a unit that turns busy at a time stays so. -/
  latency : ℕ → ℕ
  /-- Whether a unit that is handed a sector at a time rejects it. -/
  refuses : ℕ → Bool
  /-- Time, in commands and sectors. -/
  clock : ℕ
  /-- What a port with no register behind it reads as. -/
  other : UInt8

/-- The status register of a unit. -/
def AtaUnit.status (u : AtaUnit) : UInt8 :=
  if 0 < u.busy then ataSrBsy
  else match u.phase with
    | .idle => u.idle
    | .aborted => 0x51
    | .dataIn _ _ => 0x58
    | .dataOut _ _ => 0x58
    | .identify => u.idStatus

namespace AtaUnit

variable {u : AtaUnit}

theorem status_busy (h : 0 < u.busy) : u.status = ataSrBsy := if_pos h

theorem status_idle (h : u.busy = 0) (hp : u.phase = .idle) : u.status = u.idle := by
  rw [status, if_neg (by omega), hp]

theorem status_dataIn {lba n : ℕ} (h : u.busy = 0) (hp : u.phase = .dataIn lba n) :
    u.status = 0x58 := by
  rw [status, if_neg (by omega), hp]

theorem status_dataOut {lba n : ℕ} (h : u.busy = 0) (hp : u.phase = .dataOut lba n) :
    u.status = 0x58 := by
  rw [status, if_neg (by omega), hp]

theorem status_identify (h : u.busy = 0) (hp : u.phase = .identify) : u.status = u.idStatus := by
  rw [status, if_neg (by omega), hp]

end AtaUnit

namespace AtaChannel

/-- The selected unit. -/
def selected (ch : AtaChannel) : ℕ := ch.hddevsel.toNat / 16 % 2

/-- The 28-bit LBA in the registers. -/
def lba (ch : AtaChannel) : ℕ :=
  ch.hddevsel.toNat % 16 * 2 ^ 24 + ch.lba2.toNat * 2 ^ 16 + ch.lba1.toNat * 2 ^ 8 + ch.lba0.toNat

/-- The sector count in the registers, where 0 stands for 256. -/
def count (ch : AtaChannel) : ℕ := if ch.seccount.toNat = 0 then 256 else ch.seccount.toNat

/-- A write to a register below the command register. -/
def setReg (ch : AtaChannel) (reg : ℕ) (v : UInt8) : AtaChannel :=
  if reg = ataRegSecCount0 then { ch with seccount := v }
  else if reg = ataRegLba0 then { ch with lba0 := v }
  else if reg = ataRegLba1 then { ch with lba1 := v }
  else if reg = ataRegLba2 then { ch with lba2 := v }
  else if reg = ataRegHdDevSel then { ch with hddevsel := v }
  else ch

end AtaChannel

namespace AtaBus

/-- The unit at a position. -/
def unit (b : AtaBus) (c d : ℕ) : AtaUnit := (b.chan c).unit d

/-- The selected unit of a channel. -/
def current (b : AtaBus) (c : ℕ) : AtaUnit := b.unit c (b.chan c).selected

/-- Change the registers of a channel. -/
def setChan (b : AtaBus) (c : ℕ) (ch : AtaChannel) : AtaBus :=
  { b with chan := Function.update b.chan c ch }

/-- Change the selected unit of a channel. -/
def setCurrent (b : AtaBus) (c : ℕ) (u : AtaUnit) : AtaBus :=
  b.setChan c { b.chan c with unit := Function.update (b.chan c).unit (b.chan c).selected u }

/-- Let time pass. -/
def tick (b : AtaBus) : AtaBus := { b with clock := b.clock + 1 }

/-- A read of the status register. -/
def readStatus (b : AtaBus) (c : ℕ) : UInt8 × AtaBus :=
  ((b.current c).status, b.setCurrent c { b.current c with busy := (b.current c).busy - 1 })

/-- A read of another register of the command block. -/
def readReg (b : AtaBus) (c reg : ℕ) : UInt8 :=
  if reg = ataRegSecCount0 then (b.chan c).seccount
  else if reg = ataRegLba0 then (b.chan c).lba0
  else if reg = ataRegLba1 then (b.chan c).lba1
  else if reg = ataRegLba2 then (b.chan c).lba2
  else if reg = ataRegHdDevSel then (b.chan c).hddevsel
  else b.other

/-- Put the selected unit of a channel into a phase; it is busy for a while. -/
def enter (b : AtaBus) (c : ℕ) (phase : AtaPhase) : AtaBus :=
  (b.setCurrent c { b.current c with phase := phase, busy := b.latency b.clock }).tick

/-- Put the signature of the selected unit of a channel into its registers. -/
def sign (b : AtaBus) (c : ℕ) : AtaBus :=
  b.setChan c { b.chan c with lba1 := (b.current c).sigLo, lba2 := (b.current c).sigHi }

/-- A write to the command register, which a busy unit ignores. -/
def command (b : AtaBus) (c : ℕ) (cmd : UInt8) : AtaBus :=
  if 0 < (b.current c).busy then b
  else if cmd = ataCmdReadPio then b.enter c (.dataIn (b.chan c).lba (b.chan c).count)
  else if cmd = ataCmdWritePio then b.enter c (.dataOut (b.chan c).lba (b.chan c).count)
  else if cmd = ataCmdCacheFlush then b.enter c .idle
  else if cmd = ataCmdIdentify then (b.sign c).enter c .identify
  else b.enter c .aborted

/-- A sector's worth of reads from the data port. -/
def dataIn (b : AtaBus) (c : ℕ) : Sector × AtaBus :=
  let u := b.current c
  if 0 < u.busy then (fun _ ↦ b.other, b)
  else match u.phase with
    | .dataIn lba remaining =>
      (u.sectors lba, if remaining ≤ 1 then b.setCurrent c { u with phase := .idle }
        else b.enter c (.dataIn (lba + 1) (remaining - 1)))
    | .identify => (u.idData, b.setCurrent c { u with phase := .idle })
    | _ => (fun _ ↦ b.other, b)

/-- A sector's worth of writes to the data port. -/
def dataOut (b : AtaBus) (c : ℕ) (s : Sector) : AtaBus :=
  let u := b.current c
  if 0 < u.busy then b
  else match u.phase with
    | .dataOut lba remaining =>
      if b.refuses b.clock then (b.setCurrent c { u with phase := .aborted }).tick
      else (b.setCurrent c { u with sectors := Function.update u.sectors lba s }).enter c
        (if remaining ≤ 1 then .idle else .dataOut (lba + 1) (remaining - 1))
    | _ => b

/-- The channel and register behind a port. -/
def decode (port : ℕ) : Option (ℕ × ℕ) :=
  if 0x1F0 ≤ port ∧ port < 0x1F8 then some (0, port - 0x1F0)
  else if 0x170 ≤ port ∧ port < 0x178 then some (1, port - 0x170)
  else none

instance : PortBus AtaBus where
  inb port b := match decode port with
    | some (c, reg) => if reg = ataRegStatus then b.readStatus c else (b.readReg c reg, b)
    | none => (b.other, b)
  outb port v b := match decode port with
    | some (c, reg) =>
      if reg = ataRegCommand then b.command c v else b.setChan c ((b.chan c).setReg reg v)
    | none => b
  insw port b := match decode port with
    | some (c, reg) => if reg = ataRegData then b.dataIn c else (fun _ ↦ b.other, b)
    | none => (fun _ ↦ b.other, b)
  outsw port s b := match decode port with
    | some (c, reg) => if reg = ataRegData then b.dataOut c s else b
    | none => b

/-- A bus whose units take every sector and are busy for fewer than `fuel` status reads. -/
structure FaultFree (fuel : ℕ) (b : AtaBus) : Prop where
  /-- No unit hangs. -/
  latency_lt : ∀ k, b.latency k < fuel
  /-- No sector is rejected. -/
  accepts : ∀ k, b.refuses k = false

/-- Apart from the registers of channel `c` and the clock, the buses `b` and `b'` differ at most
in the unit at position `d` of that channel, and that one is `u` in `b'`. -/
structure Served (c d : ℕ) (b : AtaBus) (u : AtaUnit) (b' : AtaBus) : Prop where
  /-- The unit that was served. -/
  unit_eq : b'.unit c d = u
  /-- The others. -/
  elsewhere : ∀ c' d', ¬ (c' = c ∧ d' = d) → b'.unit c' d' = b.unit c' d'
  /-- What is left to chance. -/
  latency_eq : b'.latency = b.latency
  /-- What is left to chance. -/
  refuses_eq : b'.refuses = b.refuses

variable {b b' b'' : AtaBus} {c d reg fuel : ℕ} {u u' : AtaUnit} {v : UInt8}

theorem Served.refl (b : AtaBus) (c d : ℕ) : Served c d b (b.unit c d) b :=
  ⟨rfl, fun _ _ _ ↦ rfl, rfl, rfl⟩

theorem Served.trans (h₁ : Served c d b u b') (h₂ : Served c d b' u' b'') :
    Served c d b u' b'' :=
  ⟨h₂.unit_eq, fun c' d' hne ↦ (h₂.elsewhere c' d' hne).trans (h₁.elsewhere c' d' hne),
    h₂.latency_eq.trans h₁.latency_eq, h₂.refuses_eq.trans h₁.refuses_eq⟩

theorem Served.faultFree (h : Served c d b u b') (hf : FaultFree fuel b) : FaultFree fuel b' :=
  ⟨fun k ↦ h.latency_eq ▸ hf.latency_lt k, fun k ↦ h.refuses_eq ▸ hf.accepts k⟩

/-! ### The parts of a bus after an operation -/

@[simp] theorem chan_setChan_self (ch : AtaChannel) : (b.setChan c ch).chan c = ch :=
  Function.update_self ..

@[simp] theorem setChan_setChan (ch ch' : AtaChannel) :
    (b.setChan c ch).setChan c ch' = b.setChan c ch' := by
  simp [setChan]

@[simp] theorem clock_setChan (ch : AtaChannel) : (b.setChan c ch).clock = b.clock := rfl
@[simp] theorem latency_setChan (ch : AtaChannel) : (b.setChan c ch).latency = b.latency := rfl
@[simp] theorem refuses_setChan (ch : AtaChannel) : (b.setChan c ch).refuses = b.refuses := rfl
@[simp] theorem clock_setCurrent : (b.setCurrent c u).clock = b.clock := rfl
@[simp] theorem latency_setCurrent : (b.setCurrent c u).latency = b.latency := rfl
@[simp] theorem refuses_setCurrent : (b.setCurrent c u).refuses = b.refuses := rfl
@[simp] theorem chan_tick : b.tick.chan = b.chan := rfl
@[simp] theorem unit_tick : b.tick.unit = b.unit := rfl
@[simp] theorem current_tick : b.tick.current = b.current := rfl
@[simp] theorem clock_tick : b.tick.clock = b.clock + 1 := rfl
@[simp] theorem clock_enter (phase : AtaPhase) : (b.enter c phase).clock = b.clock + 1 := rfl

theorem unit_setChan_of_unit_eq {ch : AtaChannel} (h : ch.unit = (b.chan c).unit) (c' d' : ℕ) :
    (b.setChan c ch).unit c' d' = b.unit c' d' := by
  rcases eq_or_ne c' c with rfl | hc
  · show ((b.setChan c' ch).chan c').unit d' = _
    rw [chan_setChan_self, h]
    rfl
  · show (Function.update b.chan c ch c').unit d' = _
    rw [Function.update_of_ne hc]
    rfl

/-- A register write serves no unit. -/
theorem served_setChan {ch : AtaChannel} (h : ch.unit = (b.chan c).unit) :
    Served c d b (b.unit c d) (b.setChan c ch) :=
  ⟨unit_setChan_of_unit_eq h c d, fun c' d' _ ↦ unit_setChan_of_unit_eq h c' d', rfl, rfl⟩

theorem unit_setReg (ch : AtaChannel) (reg : ℕ) (v : UInt8) : (ch.setReg reg v).unit = ch.unit := by
  rw [AtaChannel.setReg]
  split_ifs <;> rfl

@[simp] theorem selected_setCurrent :
    ((b.setCurrent c u).chan c).selected = (b.chan c).selected := by
  rw [setCurrent, chan_setChan_self]
  rfl

@[simp] theorem selected_enter (phase : AtaPhase) :
    ((b.enter c phase).chan c).selected = (b.chan c).selected := selected_setCurrent

theorem current_of_selected (hd : (b.chan c).selected = d) : b.current c = b.unit c d := by
  rw [current, hd]

@[simp] theorem current_setCurrent : (b.setCurrent c u).current c = u := by
  rw [current, selected_setCurrent, unit, setCurrent, chan_setChan_self]
  exact Function.update_self ..

/-- Changing the selected unit serves it. -/
theorem served_setCurrent (hd : (b.chan c).selected = d) : Served c d b u (b.setCurrent c u) := by
  subst hd
  refine ⟨(current_of_selected selected_setCurrent).symm.trans current_setCurrent, ?_, rfl, rfl⟩
  intro c' d' hne
  rcases eq_or_ne c' c with rfl | hc
  · have hd' : d' ≠ (b.chan c').selected := fun h ↦ hne ⟨rfl, h⟩
    rw [unit, setCurrent, chan_setChan_self]
    exact Function.update_of_ne hd' ..
  · show (Function.update b.chan c _ c').unit d' = _
    rw [Function.update_of_ne hc]
    rfl

theorem Served.tick (h : Served c d b u b') : Served c d b u b'.tick :=
  ⟨h.unit_eq, h.elsewhere, h.latency_eq, h.refuses_eq⟩

theorem served_enter (hd : (b.chan c).selected = d) (phase : AtaPhase) :
    Served c d b { b.unit c d with phase := phase, busy := b.latency b.clock }
      (b.enter c phase) := by
  rw [enter, current_of_selected hd]
  exact (served_setCurrent hd).tick

/-! ### The data port, phase by phase -/

section Data

variable {lba n : ℕ} {s : Sector}

theorem dataOut_accepted (hcur : b.current c = u) (hbusy : u.busy = 0)
    (hphase : u.phase = .dataOut lba (n + 1)) (haccept : b.refuses b.clock = false) :
    b.dataOut c s = (b.setCurrent c { u with sectors := Function.update u.sectors lba s }).enter c
      (if n = 0 then .idle else .dataOut (lba + 1) n) := by
  simp [dataOut, hcur, hbusy, hphase, haccept]

theorem dataOut_refused (hcur : b.current c = u) (hbusy : u.busy = 0)
    (hphase : u.phase = .dataOut lba n) (hrefuse : b.refuses b.clock = true) :
    b.dataOut c s = (b.setCurrent c { u with phase := .aborted }).tick := by
  simp [dataOut, hcur, hbusy, hphase, hrefuse]

theorem dataIn_last (hcur : b.current c = u) (hbusy : u.busy = 0)
    (hphase : u.phase = .dataIn lba 1) :
    b.dataIn c = (u.sectors lba, b.setCurrent c { u with phase := .idle }) := by
  simp [dataIn, hcur, hbusy, hphase]

theorem dataIn_succ (hcur : b.current c = u) (hbusy : u.busy = 0)
    (hphase : u.phase = .dataIn lba (n + 2)) :
    b.dataIn c = (u.sectors lba, b.enter c (.dataIn (lba + 1) (n + 1))) := by
  simp [dataIn, hcur, hbusy, hphase]

theorem dataIn_identify (hcur : b.current c = u) (hbusy : u.busy = 0)
    (hphase : u.phase = .identify) :
    b.dataIn c = (u.idData, b.setCurrent c { u with phase := .idle }) := by
  simp [dataIn, hcur, hbusy, hphase]

end Data

end AtaBus
