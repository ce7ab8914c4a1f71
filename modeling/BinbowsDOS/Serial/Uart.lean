import BinbowsDOS.Ide.Driver

/-!
# The serial driver

`serial.c` on the ports of the kernel. The loops that wait for the UART run on `fuel`, like those
of the IDE driver. Of `serial_printf` there is only what it does to the ports here, which is to
write characters; which ones is in `BinbowsDOS.Serial.Printf`.
-/

/-- `COM1_PORT` -/
def com1Port : ℕ := 0x3F8

section Serial

variable {σ : Type} [PortBus σ]

/-- `serial_init` -/
def serialInit : KernelM σ Unit := do
  outb (com1Port + 1) 0x00
  outb (com1Port + 3) 0x80
  outb (com1Port + 0) 0x01
  outb (com1Port + 1) 0x00
  outb (com1Port + 3) 0x03
  outb (com1Port + 2) 0xC7
  outb (com1Port + 4) 0x0B

/-- `serial_received` -/
def serialReceived : KernelM σ UInt8 := do
  let status ← inb (com1Port + 5)
  pure (status &&& 0x01)

/-- `serial_read` -/
def serialRead : ℕ → KernelM σ UInt8
  | 0 => fun _ ↦ none
  | fuel + 1 => do
    let received ← serialReceived
    if received = 0 then serialRead fuel else inb com1Port

/-- `serial_is_transmit_empty` -/
def serialIsTransmitEmpty : KernelM σ UInt8 := do
  let status ← inb (com1Port + 5)
  pure (status &&& 0x20)

/-- `serial_write` -/
def serialWrite (c : UInt8) : ℕ → KernelM σ Unit
  | 0 => fun _ ↦ none
  | fuel + 1 => do
    let empty ← serialIsTransmitEmpty
    if empty = 0 then serialWrite c fuel else outb com1Port c

/-- The loop of `serial_write_string`. -/
def serialWriteStringLoop (fuel : ℕ) : ℕ → ℕ → KernelM σ Unit
  | 0, _ => fun _ ↦ none
  | chars + 1, s => do
    let w ← get
    if w.mem s = 0 then pure ()
    else do
      serialWrite (w.mem s) fuel
      serialWriteStringLoop fuel chars (s + 1)

/-- `serial_write_string` -/
def serialWriteString (fuel s : ℕ) : KernelM σ Unit :=
  if s = 0 then pure () else serialWriteStringLoop fuel fuel s

/-- The characters that `serial_printf` makes of its arguments, one `serial_write` each. -/
def serialWriteChars (fuel : ℕ) : List UInt8 → KernelM σ Unit
  | [] => pure ()
  | c :: cs => do
    serialWrite c fuel
    serialWriteChars fuel cs

end Serial

/-! ### A machine with a UART -/

/-- The eight ports of the UART. -/
def ComPort (port : ℕ) : Prop := com1Port ≤ port ∧ port < com1Port + 8

instance (port : ℕ) : Decidable (ComPort port) := inferInstanceAs (Decidable (_ ∧ _))

/-- A machine with a UART `υ` at COM1 and anything else `σ` at the other ports. -/
structure Machine (σ υ : Type) where
  /-- What is at the other ports. -/
  rest : σ
  /-- The UART. -/
  uart : υ

instance {σ υ : Type} [PortBus σ] [PortBus υ] : PortBus (Machine σ υ) where
  inb port b :=
    if ComPort port then
      ((PortBus.inb port b.uart).1, { b with uart := (PortBus.inb port b.uart).2 })
    else ((PortBus.inb port b.rest).1, { b with rest := (PortBus.inb port b.rest).2 })
  outb port data b :=
    if ComPort port then { b with uart := PortBus.outb port data b.uart }
    else { b with rest := PortBus.outb port data b.rest }
  insw port b :=
    if ComPort port then
      ((PortBus.insw port b.uart).1, { b with uart := (PortBus.insw port b.uart).2 })
    else ((PortBus.insw port b.rest).1, { b with rest := (PortBus.insw port b.rest).2 })
  outsw port s b :=
    if ComPort port then { b with uart := PortBus.outsw port s b.uart }
    else { b with rest := PortBus.outsw port s b.rest }

/-- The registers of a 16550 UART. -/
structure Uart16550 where
  /-- Interrupt enable. -/
  ier : UInt8
  /-- FIFO control. -/
  fcr : UInt8
  /-- Line control. -/
  lcr : UInt8
  /-- Modem control. -/
  mcr : UInt8
  /-- Scratch. -/
  scr : UInt8
  /-- Divisor, low byte. -/
  dll : UInt8
  /-- Divisor, high byte. -/
  dlm : UInt8
  /-- The characters received and not yet read. -/
  received : List UInt8
  /-- The characters sent, the last one first. -/
  sent : List UInt8

namespace Uart16550

/-- Whether the divisor is at the first two ports. -/
def dlab (u : Uart16550) : Bool := u.lcr &&& 0x80 ≠ 0

/-- The line status: data ready if there is a character, and always ready to send. -/
def lineStatus (u : Uart16550) : UInt8 := if u.received = [] then 0x60 else 0x61

/-- A read of a register. -/
def read (u : Uart16550) (reg : ℕ) : UInt8 × Uart16550 :=
  if reg = 0 then
    if u.dlab then (u.dll, u) else (u.received.headD 0, { u with received := u.received.tail })
  else if reg = 1 then (if u.dlab then u.dlm else u.ier, u)
  else if reg = 2 then (if u.fcr &&& 0x01 ≠ 0 then 0xC1 else 0x01, u)
  else if reg = 3 then (u.lcr, u)
  else if reg = 4 then (u.mcr, u)
  else if reg = 5 then (u.lineStatus, u)
  else if reg = 6 then (0xB0, u)
  else (u.scr, u)

/-- A write to a register. Turning the FIFO off or clearing it loses what has been received. -/
def write (u : Uart16550) (reg : ℕ) (data : UInt8) : Uart16550 :=
  if reg = 0 then
    if u.dlab then { u with dll := data } else { u with sent := data :: u.sent }
  else if reg = 1 then if u.dlab then { u with dlm := data } else { u with ier := data }
  else if reg = 2 then
    { u with
      fcr := data
      received := if data &&& 0x03 = 0x01 then u.received else [] }
  else if reg = 3 then { u with lcr := data }
  else if reg = 4 then { u with mcr := data }
  else if reg = 7 then { u with scr := data }
  else u

instance : PortBus Uart16550 where
  inb port u := u.read (port - com1Port)
  outb port data u := u.write (port - com1Port) data
  insw _ u := (fun _ ↦ 0, u)
  outsw _ _ u := u

end Uart16550
