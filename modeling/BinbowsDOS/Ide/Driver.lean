import BinbowsDOS.Foundations.Program
import BinbowsDOS.Heap.Allocator
import Mathlib.Logic.Function.Basic

/-!
# The IDE driver

`drivers/ide/*.c` over an arbitrary set of I/O ports. `PortBus` is what the processor can ask
of the ports: byte reads and writes, and the 256-word block transfers `rep insw` and
`rep outsw`. The driver's state is `Kernel`: the heap with the memory it lives in, the
driver's global tables, the tick counter and the ports.

Loops that wait for a status run on `fuel`, the number of times a status register is read
before the driver is regarded as hung; `none` is a hung driver. Every other loop counts down a
quantity of its own. `timer_wait` halts until the timer interrupt has come the given number of
times, which the model lets pass in one step. Console messages are left out.
-/

/-- The 512 bytes of a sector. -/
abbrev Sector := Fin 512 → UInt8

/-- What I/O ports answer. A block transfer moves the 256 words of one sector. -/
class PortBus (σ : Type) where
  /-- `inb` -/
  inb : ℕ → σ → UInt8 × σ
  /-- `outb` -/
  outb : ℕ → UInt8 → σ → σ
  /-- `insw(port, _, 256)` -/
  insw : ℕ → σ → Sector × σ
  /-- `outsw(port, _, 256)` -/
  outsw : ℕ → Sector → σ → σ

/-- `struct ide_channel` -/
structure IdeChannel where
  /-- I/O base -/
  base : ℕ
  /-- Control base -/
  ctrl : ℕ
  /-- Bus master IDE -/
  bmide : ℕ
  /-- No interrupt -/
  nIEN : UInt8

/-- `struct ide_device` -/
structure IdeDevice where
  /-- 0 (empty) or 1 (this drive really exists) -/
  reserved : ℕ
  /-- 0 (primary channel) or 1 (secondary channel) -/
  channel : ℕ
  /-- 0 (master drive) or 1 (slave drive) -/
  drive : ℕ
  /-- 0: ATA, 1: ATAPI -/
  type : ℕ
  /-- Drive signature -/
  signature : ℕ
  /-- Features -/
  capabilities : ℕ
  /-- Supported command sets -/
  commandSets : ℕ
  /-- Size in sectors -/
  size : UInt32
  /-- Model in string -/
  model : Fin 41 → UInt8

/-- The kernel state the driver and the file system work on. The two tables are C arrays of
length 2 and 4. -/
structure Kernel (σ : Type) where
  /-- The heap and the memory. -/
  heap : Heap
  /-- `channels` -/
  channels : ℕ → IdeChannel
  /-- `ide_devices` -/
  ideDevices : ℕ → IdeDevice
  /-- `ide_buf` -/
  ideBuf : Sector
  /-- `timer_ticks` -/
  timerTicks : ℕ
  /-- The I/O ports. -/
  io : σ

/-- Kernel code. -/
abbrev KernelM (σ : Type) := Prog (Kernel σ)

namespace Kernel

variable {σ : Type}

/-- The memory of the kernel. -/
def mem (w : Kernel σ) : ByteMem := w.heap.mem

/-- The size of a drive in sectors, by the device table. -/
def driveSize (w : Kernel σ) (drive : ℕ) : ℕ := (w.ideDevices drive).size.toNat

/-- Change the memory. -/
def setMem (w : Kernel σ) (m : ByteMem) : Kernel σ := { w with heap := { w.heap with mem := m } }

/-- Change the heap. -/
def setHeap (w : Kernel σ) (h : Heap) : Kernel σ := { w with heap := h }

/-- Change the ports. -/
def setIo (w : Kernel σ) (io : σ) : Kernel σ := { w with io := io }

end Kernel

/-- The sector's worth of memory at an address. -/
def ByteMem.sectorAt (m : ByteMem) (a : ℕ) : Sector := fun i ↦ m (a + i)

/-- A sector as a block of bytes; only the first 512 matter. -/
def Sector.bytes (s : Sector) (i : ℕ) : UInt8 := if h : i < 512 then s ⟨i, h⟩ else 0

/-! ### Registers, status bits, commands -/

/-- `ATA_REG_DATA` -/
def ataRegData : ℕ := 0x00
/-- `ATA_REG_SECCOUNT0` -/
def ataRegSecCount0 : ℕ := 0x02
/-- `ATA_REG_LBA0` -/
def ataRegLba0 : ℕ := 0x03
/-- `ATA_REG_LBA1` -/
def ataRegLba1 : ℕ := 0x04
/-- `ATA_REG_LBA2` -/
def ataRegLba2 : ℕ := 0x05
/-- `ATA_REG_HDDEVSEL` -/
def ataRegHdDevSel : ℕ := 0x06
/-- `ATA_REG_COMMAND` -/
def ataRegCommand : ℕ := 0x07
/-- `ATA_REG_STATUS` -/
def ataRegStatus : ℕ := 0x07
/-- `ATA_REG_CONTROL` -/
def ataRegControl : ℕ := 0x0C
/-- `ATA_REG_ALTSTATUS` -/
def ataRegAltStatus : ℕ := 0x0C

/-- `ATA_SR_BSY` -/
def ataSrBsy : UInt8 := 0x80
/-- `ATA_SR_DF` -/
def ataSrDf : UInt8 := 0x20
/-- `ATA_SR_DRQ` -/
def ataSrDrq : UInt8 := 0x08
/-- `ATA_SR_ERR` -/
def ataSrErr : UInt8 := 0x01

/-- `ATA_CMD_READ_PIO` -/
def ataCmdReadPio : UInt8 := 0x20
/-- `ATA_CMD_WRITE_PIO` -/
def ataCmdWritePio : UInt8 := 0x30
/-- `ATA_CMD_CACHE_FLUSH` -/
def ataCmdCacheFlush : UInt8 := 0xE7
/-- `ATA_CMD_IDENTIFY` -/
def ataCmdIdentify : UInt8 := 0xEC

/-! ### Waiting -/

section Timer

variable {σ : Type}

/-- `timer_wait` -/
def timerWait (ticks : ℕ) : KernelM σ Unit :=
  modify fun w ↦ { w with timerTicks := w.timerTicks + ticks }

/-- `timer_wait_ms`: the helper counts ten milliseconds to the tick. -/
def timerWaitMs (milliseconds : ℕ) : KernelM σ Unit := timerWait (milliseconds / 10)

end Timer

section Driver

variable {σ : Type} [PortBus σ]

/-! ### Port I/O -/

/-- `inb` -/
def inb (port : ℕ) : KernelM σ UInt8 := fun w ↦
  some ((PortBus.inb port w.io).1, w.setIo (PortBus.inb port w.io).2)

/-- `outb` -/
def outb (port : ℕ) (data : UInt8) : KernelM σ Unit := fun w ↦
  some ((), w.setIo (PortBus.outb port data w.io))

/-- `insw(port, addr, 256)` -/
def insw (port addr : ℕ) : KernelM σ Unit := fun w ↦
  let r := PortBus.insw port w.io
  some ((), (w.setMem (w.mem.blit addr 512 r.1.bytes)).setIo r.2)

/-- `insw(port, ide_buf, 256)` -/
def inswIdeBuf (port : ℕ) : KernelM σ Unit := fun w ↦
  let r := PortBus.insw port w.io
  some ((), ({ w with ideBuf := r.1 } : Kernel σ).setIo r.2)

/-- `outsw(port, addr, 256)` -/
def outsw (port addr : ℕ) : KernelM σ Unit := fun w ↦
  some ((), w.setIo (PortBus.outsw port (w.mem.sectorAt addr) w.io))

/-- The port of a register of a channel. -/
def IdeChannel.port (ch : IdeChannel) (reg : ℕ) : ℕ :=
  u16 (if reg < 0x08 then ch.base + reg else ch.ctrl + (reg - 0x08))

/-- The `ide_write` that `ide_read` and `ide_write` begin with on the high-order registers. Its
own register is not one of them, so it goes straight to the port. -/
def ideSelectHob (channel reg : ℕ) : KernelM σ Unit := do
  if 0x07 < reg ∧ reg < 0x0C then
    let w ← get
    outb ((w.channels channel).port ataRegControl) ((w.channels channel).nIEN ||| 0x02)
  else pure ()

/-- `ide_read` -/
def ideRead (channel reg : ℕ) : KernelM σ UInt8 := do
  ideSelectHob channel reg
  let w ← get
  inb ((w.channels channel).port reg)

/-- `ide_write` -/
def ideWrite (channel reg : ℕ) (data : UInt8) : KernelM σ Unit := do
  ideSelectHob channel reg
  let w ← get
  outb ((w.channels channel).port reg) data

/-- `n` reads of the alternate status register. -/
def readAltStatus (channel : ℕ) : ℕ → KernelM σ Unit
  | 0 => pure ()
  | n + 1 => do
    let _ ← ideRead channel ataRegAltStatus
    readAltStatus channel n

/-- `ide_delay` -/
def ideDelay (channel : ℕ) : KernelM σ Unit := readAltStatus channel 4

/-! ### Polling -/

/-- `while (ide_read(channel, ATA_REG_STATUS) & ATA_SR_BSY);` -/
def waitWhileBusy (channel : ℕ) : ℕ → KernelM σ Unit
  | 0 => fun _ ↦ none
  | fuel + 1 => do
    let status ← ideRead channel ataRegStatus
    if status &&& ataSrBsy ≠ 0 then waitWhileBusy channel fuel else pure ()

/-- `ide_polling` -/
def idePolling (fuel channel check : ℕ) : KernelM σ ℕ := do
  readAltStatus channel 4
  waitWhileBusy channel fuel
  if check ≠ 0 then
    let state ← ideRead channel ataRegStatus
    if state &&& ataSrErr ≠ 0 then pure 2
    else if state &&& ataSrDf ≠ 0 then pure 1
    else if state &&& ataSrDrq = 0 then pure 3
    else pure 0
  else pure 0

/-! ### Sector transfer -/

/-- The drive and head byte `0xE0 | (slavebit << 4) | head`. -/
def driveHead (slavebit head : ℕ) : UInt8 := UInt8.ofNat (0xE0 ||| (slavebit <<< 4) ||| head)

/-- The register writes that both transfers begin with. -/
def ideSetup (channel slavebit head count lba0 lba1 lba2 : ℕ) (command : UInt8) :
    KernelM σ Unit := do
  ideWrite channel ataRegHdDevSel (driveHead slavebit head)
  timerWaitMs 1
  ideWrite channel ataRegSecCount0 (UInt8.ofNat count)
  ideWrite channel ataRegLba0 (UInt8.ofNat lba0)
  ideWrite channel ataRegLba1 (UInt8.ofNat lba1)
  ideWrite channel ataRegLba2 (UInt8.ofNat lba2)
  ideWrite channel ataRegCommand command

/-- The transfer loop of `ide_read_sectors`, from sector `i` on with `n` to go. -/
def readSectorsLoop (fuel channel bus buf : ℕ) : ℕ → ℕ → KernelM σ ℕ
  | _, 0 => pure 0
  | i, n + 1 => do
    let err ← idePolling fuel channel 1
    if err ≠ 0 then pure err
    else do
      insw bus (buf + i * 512)
      readSectorsLoop fuel channel bus buf (i + 1) n

/-- `ide_read_sectors` -/
def ideReadSectors (fuel drive numsects lba buf : ℕ) : KernelM σ ℕ := do
  let w ← get
  if 3 < drive ∨ (w.ideDevices drive).reserved = 0 then pure 1
  else do
    let channel := (w.ideDevices drive).channel
    let slavebit := (w.ideDevices drive).drive
    let bus := (w.channels channel).base
    if 0x10000000 ≤ lba then
      ideSetup channel slavebit 0 numsects (lba &&& 0x000000FF) ((lba &&& 0x0000FF00) >>> 8)
        ((lba &&& 0x00FF0000) >>> 16) ataCmdReadPio
    else
      ideSetup channel slavebit ((lba >>> 24) &&& 0x0F) numsects ((lba >>> 0) &&& 0xFF)
        ((lba >>> 8) &&& 0xFF) ((lba >>> 16) &&& 0xFF) ataCmdReadPio
    readSectorsLoop fuel channel bus buf 0 numsects

/-- The transfer loop of one chunk of `ide_write_sectors_counted`, from sector `i` on with `n`
to go; `data` is where the chunk's data starts. -/
def writeSectorsLoop (fuel channel bus data : ℕ) : ℕ → ℕ → KernelM σ ℕ
  | _, 0 => pure 0
  | i, n + 1 => do
    let err ← idePolling fuel channel 0
    if err ≠ 0 then pure err
    else do
      outsw bus (data + i * 512)
      writeSectorsLoop fuel channel bus data (i + 1) n

/-- The chunk loop of `ide_write_sectors_counted`. Every pass takes at least one sector, so
`sectorsRemaining` passes are enough and the first argument never runs out. -/
def writeChunksLoop (fuel drive data : ℕ) : ℕ → ℕ → ℕ → ℕ → KernelM σ ℕ
  | 0, _, sectorsRemaining, _ => if sectorsRemaining = 0 then pure 0 else fun _ ↦ none
  | passes + 1, sectorsWritten, sectorsRemaining, lba => do
    if sectorsRemaining = 0 then pure 0
    else if 0x0FFFFFFF < lba then pure 3
    else do
      let n := if 256 ≤ sectorsRemaining then 0 else u8 sectorsRemaining
      let w ← get
      let channel := (w.ideDevices drive).channel
      let slavebit := (w.ideDevices drive).drive
      let bus := (w.channels channel).base
      ideSetup channel slavebit ((lba >>> 24) &&& 0x0F) n ((lba >>> 0) &&& 0xFF)
        ((lba >>> 8) &&& 0xFF) ((lba >>> 16) &&& 0xFF) ataCmdWritePio
      let sectorsToTransfer := if n = 0 then 256 else n
      let err ← writeSectorsLoop fuel channel bus (data + sectorsWritten * 512) 0 sectorsToTransfer
      if err ≠ 0 then pure err
      else do
        ideWrite channel ataRegCommand ataCmdCacheFlush
        let ret ← idePolling fuel channel 0
        if ret ≠ 0 then pure ret
        else
          writeChunksLoop fuel drive data passes (sectorsWritten + sectorsToTransfer)
            (sectorsRemaining - sectorsToTransfer) (u32 (lba + sectorsToTransfer))

/-- `ide_write_sectors_counted` -/
def ideWriteSectorsCounted (fuel drive startLba byteCount buf : ℕ) : KernelM σ ℕ := do
  let w ← get
  if 3 < drive ∨ (w.ideDevices drive).reserved = 0 then pure 1
  else if byteCount = 0 then pure 0
  else if byteCount % 512 ≠ 0 then pure 2
  else writeChunksLoop fuel drive buf (byteCount / 512) 0 (byteCount / 512) startLba

/-! ### Free space by scanning -/

/-- Whether all 512 bytes at an address are zero. -/
def allZero (m : ByteMem) (buf : ℕ) : Bool := (List.range 512).all fun i ↦ m (buf + i) == 0

/-- The scan of `find_next_free_lba` from sector `lba` on with `n` to go: the last non-zero
sector, if any, or a failed read (`none`). -/
def scanLoop (fuel drive buf : ℕ) : ℕ → ℕ → Option ℕ → KernelM σ (Option (Option ℕ))
  | _, 0, lastUsed => pure (some lastUsed)
  | lba, n + 1, lastUsed => do
    let err ← ideReadSectors fuel drive 1 lba buf
    if err ≠ 0 then pure none
    else do
      let w ← get
      scanLoop fuel drive buf (lba + 1) n (if allZero w.mem buf then lastUsed else some lba)

/-- `UINT32_MAX` -/
def uint32Max : ℕ := 2 ^ 32 - 1

/-- `find_next_free_lba`; `buf` is the address of its local buffer. -/
def findNextFreeLba (fuel buf drive : ℕ) : KernelM σ ℕ := do
  let w ← get
  if 4 ≤ drive then pure uint32Max
  else if (w.ideDevices drive).reserved = 0 then pure uint32Max
  else if w.driveSize drive = 0 then pure uint32Max
  else do
    let size := w.driveSize drive
    let r ← scanLoop fuel drive buf 0 size none
    match r with
    | none => pure uint32Max
    | some none => pure 0
    | some (some last) => if last = size - 1 then pure uint32Max else pure (last + 1)

/-! ### Detection -/

/-- `while (status & ATA_SR_BSY) status = ide_read(channel, ATA_REG_STATUS);` -/
def statusWhileBusy (channel : ℕ) : ℕ → UInt8 → KernelM σ UInt8
  | 0, _ => fun _ ↦ none
  | fuel + 1, status =>
    if status &&& ataSrBsy ≠ 0 then do
      let status ← ideRead channel ataRegStatus
      statusWhileBusy channel fuel status
    else pure status

/-- What `ide_device_exists` makes of the two signature bytes: 1 for an ATA device, 2 for an
ATAPI and 3 for a SATA one. -/
def deviceType (cl ch : UInt8) : ℕ :=
  if (cl = 0x14 ∧ ch = 0xEB) ∨ (cl = 0x69 ∧ ch = 0x96) then 2
  else if cl = 0x00 ∧ ch = 0x00 then 1
  else if cl = 0x3C ∧ ch = 0xC3 then 3
  else 0

/-- `ide_device_exists` -/
def ideDeviceExists (fuel channel drive : ℕ) : KernelM σ ℕ := do
  if 1 < channel then pure 0
  else if 1 < drive then pure 0
  else do
    ideWrite channel ataRegHdDevSel (UInt8.ofNat (0xA0 ||| (drive <<< 4)))
    ideDelay channel
    let status ← ideRead channel ataRegStatus
    if status = 0xFF ∨ status = 0x00 then pure 0
    else do
      ideWrite channel ataRegCommand ataCmdIdentify
      ideDelay channel
      let status ← ideRead channel ataRegStatus
      if status = 0x00 then pure 0
      else do
        let status ← statusWhileBusy channel fuel status
        if status &&& ataSrErr ≠ 0 then pure 0
        else do
          let cl ← ideRead channel ataRegLba1
          let ch ← ideRead channel ataRegLba2
          pure (deviceType cl ch)

/-- The loop of `ide_identify`: whether it ends with data to fetch. -/
def awaitData (channel : ℕ) : ℕ → KernelM σ Bool
  | 0 => fun _ ↦ none
  | fuel + 1 => do
    let status ← ideRead channel ataRegStatus
    if status &&& ataSrErr ≠ 0 then pure false
    else if status &&& ataSrDrq ≠ 0 then pure true
    else awaitData channel fuel

/-- The device record that `ide_identify` fills in from `ide_buf`. `Type` keeps its value. -/
def identified (channel dev : ℕ) (buf : Sector) (old : IdeDevice) : IdeDevice where
  reserved := 1
  channel := channel
  drive := dev
  type := old.type
  signature := ByteMem.loadLE buf.bytes 0 2
  capabilities := ByteMem.loadLE buf.bytes 98 2
  commandSets := ByteMem.loadLE buf.bytes 164 4
  size := UInt32.ofNat (ByteMem.loadLE buf.bytes 120 4)
  model k :=
    if (k : ℕ) = 40 then 0
    else if (k : ℕ) % 2 = 0 then buf.bytes (54 + k + 1)
    else buf.bytes (54 + (k - 1))

/-- `ide_identify`. It checks neither argument: the table of devices has four slots, and a `drive`
from outside it is a write to another variable, which is not modelled. -/
def ideIdentify (fuel channel drive : ℕ) : KernelM σ Unit := do
  let dev := drive &&& 1
  let w ← get
  let io := (w.channels channel).base
  ideWrite channel ataRegHdDevSel (UInt8.ofNat (0xA0 ||| (dev <<< 4)))
  timerWaitMs 1
  ideWrite channel ataRegSecCount0 0
  ideWrite channel ataRegLba0 0
  ideWrite channel ataRegLba1 0
  ideWrite channel ataRegLba2 0
  ideWrite channel ataRegCommand ataCmdIdentify
  timerWaitMs 1
  let status ← ideRead channel ataRegStatus
  if status = 0 then pure ()
  else do
    let ready ← awaitData channel fuel
    if ready then do
      inswIdeBuf io
      modify fun w ↦ { w with
        ideDevices := Function.update w.ideDevices drive
          (identified channel dev w.ideBuf (w.ideDevices drive)) }
    else pure ()

/-- The body of `ide_initialize`'s loop. -/
def ideInitializeSlot (fuel i : ℕ) : KernelM σ Unit := do
  modify fun w ↦ { w with
    ideDevices := Function.update w.ideDevices i { w.ideDevices i with reserved := 0 } }
  let channel := i / 2
  let drive := i % 2
  let deviceType ← ideDeviceExists fuel channel drive
  if deviceType = 0 then pure ()
  else if deviceType = 2 then pure ()
  else if deviceType = 3 then pure ()
  else ideIdentify fuel channel drive

/-- The loop of `ide_initialize`, from slot `i` on with `n` to go. -/
def ideInitializeLoop (fuel : ℕ) : ℕ → ℕ → KernelM σ Unit
  | _, 0 => pure ()
  | i, n + 1 => do
    ideInitializeSlot fuel i
    ideInitializeLoop fuel (i + 1) n

/-- The channel table `ide_initialize` sets up. It has two entries; what a larger number finds
behind them is not modelled, and the value here stands for nothing. -/
def ideChannels : ℕ → IdeChannel
  | 0 => ⟨0x1F0, 0x3F6, 0, 0⟩
  | _ => ⟨0x170, 0x376, 0, 0⟩

/-- `ide_initialize` -/
def ideInitialize (fuel : ℕ) : KernelM σ Unit := do
  modify fun w ↦ { w with channels := ideChannels }
  ideWrite 0 ataRegControl 2
  ideWrite 1 ataRegControl 2
  ideInitializeLoop fuel 0 4

/-- `read_total_sectors` -/
def readTotalSectors (driveNum : ℕ) : KernelM σ ℕ := do
  let w ← get
  if 4 ≤ driveNum then pure 0 else pure (w.driveSize driveNum)

end Driver
