import BinbowsDOS.Ide.PortRange
import BinbowsDOS.Serial.Uart

/-!
# The IDE driver beside the serial driver

Calls of the two drivers in any order, on a machine with any UART at COM1 and any devices at the
other ports. The UART is safe from a call that stays on the IDE ports, since none of these is one
of its own. The control register of the primary channel is looked for at `0x3FA`, the FIFO control
of COM1, so every call that polls, and `ide_initialize`, leaves the IDE ports
(`session_confined_iff`). A call with a channel or a slot from outside the tables of the driver is
none of the quiet ones, and nothing more is said of it.

A session is made of calls that return. A call that hangs has accessed some ports before; with
other devices, which answer alike up to some point, it returns after the same accesses.
-/

open Prog Kernel

/-- A call of the serial driver. -/
inductive SerialCall where
  /-- `serial_init()` -/
  | init
  /-- `serial_received()` -/
  | received
  /-- `serial_read()` -/
  | read
  /-- `serial_is_transmit_empty()` -/
  | isTransmitEmpty
  /-- `serial_write(c)` -/
  | write (c : UInt8)
  /-- `serial_write_string(s)` -/
  | writeString (s : ℕ)
  /-- `serial_printf`, which writes the characters `cs`. -/
  | printf (cs : List UInt8)

section Serial

variable {σ : Type} [PortBus σ] {R : Kernel σ → Kernel σ → Prop}

/-- The call, without what it returns. -/
def SerialCall.run (fuel : ℕ) : SerialCall → KernelM σ Unit
  | init => serialInit
  | received => do
    let _ ← serialReceived
    pure ()
  | read => do
    let _ ← serialRead fuel
    pure ()
  | isTransmitEmpty => do
    let _ ← serialIsTransmitEmpty
    pure ()
  | write c => serialWrite c fuel
  | writeString s => serialWriteString fuel s
  | printf cs => serialWriteChars fuel cs

variable (hR : PortAccess R)

include hR

theorem serialInit_respects : Respects R (serialInit : KernelM σ Unit) :=
  hR.bind (hR.outb _ _) fun _ ↦ hR.bind (hR.outb _ _) fun _ ↦
    hR.bind (hR.outb _ _) fun _ ↦ hR.bind (hR.outb _ _) fun _ ↦
      hR.bind (hR.outb _ _) fun _ ↦ hR.bind (hR.outb _ _) fun _ ↦ hR.outb _ _

theorem serialReceived_respects : Respects R (serialReceived : KernelM σ UInt8) :=
  hR.bind (hR.inb _) fun _ ↦ hR.pure _

theorem serialIsTransmitEmpty_respects : Respects R (serialIsTransmitEmpty : KernelM σ UInt8) :=
  hR.bind (hR.inb _) fun _ ↦ hR.pure _

theorem serialRead_respects (fuel : ℕ) : Respects R (serialRead fuel : KernelM σ UInt8) := by
  induction fuel with
  | zero => exact fun _ _ _ h ↦ by simp [Runs, serialRead] at h
  | succ fuel ih =>
    exact hR.bind (serialReceived_respects hR) fun _ ↦ respects_ite ih (hR.inb _)

theorem serialWrite_respects (c : UInt8) (fuel : ℕ) :
    Respects R (serialWrite c fuel : KernelM σ Unit) := by
  induction fuel with
  | zero => exact fun _ _ _ h ↦ by simp [Runs, serialWrite] at h
  | succ fuel ih =>
    exact hR.bind (serialIsTransmitEmpty_respects hR) fun _ ↦ respects_ite ih (hR.outb _ _)

theorem serialWriteStringLoop_respects (fuel chars s : ℕ) :
    Respects R (serialWriteStringLoop fuel chars s : KernelM σ Unit) := by
  induction chars generalizing s with
  | zero => exact fun _ _ _ h ↦ by simp [Runs, serialWriteStringLoop] at h
  | succ chars ih =>
    exact hR.bind hR.get fun _ ↦ respects_ite (hR.pure ()) <|
      hR.bind (serialWrite_respects hR _ _) fun _ ↦ ih _

theorem serialWriteChars_respects (fuel : ℕ) (cs : List UInt8) :
    Respects R (serialWriteChars fuel cs : KernelM σ Unit) := by
  induction cs with
  | nil => exact hR.pure ()
  | cons c cs ih => exact hR.bind (serialWrite_respects hR _ _) fun _ ↦ ih

theorem SerialCall.run_respects (fuel : ℕ) (call : SerialCall) :
    Respects R (call.run fuel : KernelM σ Unit) := by
  cases call with
  | init => exact serialInit_respects hR
  | received => exact hR.bind (serialReceived_respects hR) fun _ ↦ hR.pure ()
  | read => exact hR.bind (serialRead_respects hR _) fun _ ↦ hR.pure ()
  | isTransmitEmpty => exact hR.bind (serialIsTransmitEmpty_respects hR) fun _ ↦ hR.pure ()
  | write => exact serialWrite_respects hR _ _
  | writeString => exact respects_ite (hR.pure ()) (serialWriteStringLoop_respects hR _ _ _)
  | printf => exact serialWriteChars_respects hR _ _

end Serial

/-! ### Sessions -/

/-- A call of either driver. -/
inductive DriverCall where
  /-- A call of the IDE driver. -/
  | ide (call : IdeCall)
  /-- A call of the serial driver. -/
  | serial (call : SerialCall)

/-- A call that has returned, with the states before and after it. -/
structure DriverStep (σ υ : Type) where
  /-- The state before. -/
  before : Kernel (Watched (Machine σ υ))
  /-- The call. -/
  call : DriverCall
  /-- The state after. -/
  after : Kernel (Watched (Machine σ υ))

section Session

variable {σ υ : Type} [PortBus σ] [PortBus υ]

/-- The call. -/
def DriverCall.run (fuel : ℕ) : DriverCall → KernelM (Watched (Machine σ υ)) Unit
  | ide call => call.run fuel
  | serial call => call.run fuel

/-- Calls one after the other. -/
inductive Session (fuel : ℕ) :
    Kernel (Watched (Machine σ υ)) → List (DriverStep σ υ) → Kernel (Watched (Machine σ υ)) → Prop
  | nil (w : Kernel (Watched (Machine σ υ))) : Session fuel w [] w
  | cons {w w₁ w' : Kernel (Watched (Machine σ υ))} {call : DriverCall}
      {steps : List (DriverStep σ υ)} (hcall : Runs (call.run fuel) w () w₁)
      (hsteps : Session fuel w₁ steps w') : Session fuel w (⟨w, call, w₁⟩ :: steps) w'

namespace DriverStep

/-- What a call of the IDE driver must not do: it stays on the IDE ports, and the UART keeps its
state. -/
def Confined (s : DriverStep σ υ) : Prop :=
  match s.call with
  | .ide _ => ∃ es, s.before.Emits es s.after ∧ (∀ e ∈ es, IdePort e.port) ∧
      s.after.io.bus.uart = s.before.io.bus.uart
  | .serial _ => True

/-- The call polls no device, or is none of the IDE driver's. -/
def Quiet (s : DriverStep σ υ) : Prop :=
  match s.call with
  | .ide call => call.Quiet s.before
  | .serial _ => True

/-- The call keeps to the tables of the IDE driver. -/
def InTables (s : DriverStep σ υ) : Prop :=
  match s.call with
  | .ide call => call.InTables s.before
  | .serial _ => True

end DriverStep

/-- The log grows, and the UART changes only by accesses to its own ports. -/
theorem busPreorder_uart : BusPreorder fun b b' : Watched (Machine σ υ) ↦
    ∃ es, b'.log = b.log ++ es ∧ ((∀ e ∈ es, ¬ ComPort e.port) → b'.bus.uart = b.bus.uart) where
  refl b := ⟨[], (List.append_nil _).symm, fun _ ↦ rfl⟩
  trans := by
    rintro a b c ⟨es, h₁, hu₁⟩ ⟨es', h₂, hu₂⟩
    refine ⟨es ++ es', by rw [h₂, h₁, List.append_assoc], fun hes ↦ ?_⟩
    obtain ⟨hes, hes'⟩ := List.forall_mem_append.1 hes
    exact (hu₂ hes').trans (hu₁ hes)
  inb port b := by
    refine ⟨_, rfl, fun hes ↦ ?_⟩
    have hport : ¬ ComPort port := hes _ (List.mem_singleton_self _)
    simp only [PortBus.inb, if_neg hport]
  outb port data b := by
    refine ⟨_, rfl, fun hes ↦ ?_⟩
    have hport : ¬ ComPort port := hes _ (List.mem_singleton_self _)
    simp only [PortBus.outb, if_neg hport]
  insw port b := by
    refine ⟨_, rfl, fun hes ↦ ?_⟩
    have hport : ¬ ComPort port := hes _ (List.mem_singleton_self _)
    simp only [PortBus.insw, if_neg hport]
  outsw port s b := by
    refine ⟨_, rfl, fun hes ↦ ?_⟩
    have hport : ¬ ComPort port := hes _ (List.mem_singleton_self _)
    simp only [PortBus.outsw, if_neg hport]

/-- No IDE port is one of the UART's. -/
theorem not_comPort_of_idePort {port : ℕ} (h : IdePort port) : ¬ ComPort port := by
  rw [IdePort] at h
  rw [ComPort, com1Port]
  omega

variable {w w' : Kernel (Watched (Machine σ υ))} {fuel : ℕ}

/-- **One call** of the IDE driver that polls no device is confined. -/
theorem DriverStep.confined_of_quiet {call : DriverCall} (hw : w.Wired)
    (h : Runs (call.run fuel) w () w') (hquiet : (DriverStep.mk w call w').Quiet) :
    (DriverStep.mk w call w').Confined := by
  cases call with
  | serial => trivial
  | ide call =>
    -- the log tells of every access, so the UART can have changed only by one in it
    obtain ⟨-, es, hemits, huart⟩ := (call.run_follows busPreorder_uart fuel).run h
    have hes : ∀ e ∈ es, IdePort e.port := IdeCall.Quiet.forall_idePort hquiet hw h hemits
    exact ⟨es, hemits, hes, huart fun e he ↦ not_comPort_of_idePort (hes e he)⟩

theorem DriverStep.quiet_of_confined {call : DriverCall} (hw : w.Wired)
    (h : Runs (call.run fuel) w () w') (htables : (DriverStep.mk w call w').InTables)
    (hconfined : (DriverStep.mk w call w').Confined) : (DriverStep.mk w call w').Quiet := by
  cases call with
  | serial => trivial
  | ide call =>
    obtain ⟨es, hemits, hes, -⟩ := hconfined
    exact IdeCall.quiet_of_forall_idePort htables hw h hemits hes

theorem DriverCall.run_wired {call : DriverCall} (hw : w.Wired)
    (h : Runs (call.run fuel) w () w') : w'.Wired := by
  cases call with
  | ide call => exact ((call.run_follows busPreorder_log fuel).run h).1 hw
  | serial call => exact ((call.run_respects busPreorder_log.access fuel).run h).1 hw

/-- **When the IDE driver keeps to its ports**: in every session of calls of both drivers in which
none polls a device. Of the sessions that keep to the driver's tables these are all. -/
theorem session_confined_iff {steps : List (DriverStep σ υ)} (h : Session fuel w steps w')
    (hw : w.Wired) :
    ((∀ s ∈ steps, s.Quiet) → ∀ s ∈ steps, s.Confined) ∧
      ((∀ s ∈ steps, s.InTables) → (∀ s ∈ steps, s.Confined) → ∀ s ∈ steps, s.Quiet) := by
  induction h with
  | nil => simp
  | cons hcall hsteps ih =>
    obtain ⟨ihquiet, ihconfined⟩ := ih (DriverCall.run_wired hw hcall)
    simp only [List.forall_mem_cons]
    constructor
    · rintro ⟨hquiet, hrest⟩
      exact ⟨DriverStep.confined_of_quiet hw hcall hquiet, ihquiet hrest⟩
    · rintro ⟨htables, htables'⟩ ⟨hconfined, hrest⟩
      exact ⟨DriverStep.quiet_of_confined hw hcall htables hconfined, ihconfined htables' hrest⟩

end Session

/-! ### A machine without disks -/

/-- Ports with nothing behind them. -/
structure FloatingBus where

instance : PortBus FloatingBus where
  inb _ b := (0xFF, b)
  outb _ _ b := b
  insw _ b := (fun _ ↦ 0xFF, b)
  outsw _ _ b := b

/-- The kernel on a machine with a UART and no disks. -/
def Kernel.diskless : Kernel (Machine FloatingBus Uart16550) where
  heap := Heap.boot fun _ ↦ 0
  channels := ideChannels
  ideDevices _ := ⟨0, 0, 0, 0, 0, 0, 0, 0, fun _ ↦ 0⟩
  ideBuf _ := 0
  timerTicks := 0
  io := ⟨⟨⟩, ⟨0, 0, 0, 0, 0, 0, 0, [], []⟩⟩

section Diskless

variable {w : Kernel (Machine FloatingBus Uart16550)} {c : ℕ}

theorem ideRead_status_diskless (hw : w.Wired) (hc : c < 2) :
    ideRead c ataRegStatus w = some (0xFF, w) := by
  show some ((PortBus.inb ((w.channels c).port ataRegStatus) w.io).1,
    w.setIo (PortBus.inb ((w.channels c).port ataRegStatus) w.io).2) = _
  rw [hw]
  interval_cases c <;> rfl

/-- The UART answers for the alternate status, and keeps its state. -/
theorem readAltStatus_diskless (hw : w.Wired) (hc : c < 2) (n : ℕ) :
    readAltStatus c n w = some ((), w) := by
  have hread : ∃ v, ideRead c ataRegAltStatus w = some (v, w) := by
    refine ⟨(PortBus.inb ((w.channels c).port ataRegAltStatus) w.io).1, ?_⟩
    show some ((PortBus.inb ((w.channels c).port ataRegAltStatus) w.io).1,
      w.setIo (PortBus.inb ((w.channels c).port ataRegAltStatus) w.io).2) = _
    rw [hw]
    interval_cases c <;> rfl
  obtain ⟨v, hread⟩ := hread
  induction n with
  | zero => rfl
  | succ n ih => rw [readAltStatus, bind_apply_of_runs hread, ih]

/-- No device takes what is written to a command block. -/
theorem ideWrite_diskless (hw : w.Wired) (hc : c < 2) {reg : ℕ} (hreg : reg < 8) (data : UInt8) :
    ideWrite c reg data w = some ((), w) := by
  have hport : ideWrite c reg data w =
      some ((), w.setIo (PortBus.outb ((w.channels c).port reg) data w.io)) := by
    interval_cases reg <;> rfl
  rw [hport, hw]
  interval_cases c <;> interval_cases reg <;> rfl

/-- `ide_identify` finds the error bit set. -/
theorem ideIdentify_diskless (hw : w.Wired) (hc : c < 2) (d fuel : ℕ) :
    ideIdentify (fuel + 1) c d w = some ((), w) := by
  have hwait : timerWaitMs 1 w = some ((), w) := rfl
  have hstatus : ideRead c ataRegStatus w = some (0xFF, w) := ideRead_status_diskless hw hc
  have hready : awaitData c (fuel + 1) w = some (false, w) := by
    rw [awaitData, bind_apply_of_runs hstatus, if_pos (by decide)]
    rfl
  have hwrite : ∀ reg < 8, ∀ data, ideWrite c reg data w = some ((), w) :=
    fun reg hreg data ↦ ideWrite_diskless hw hc hreg data
  rw [ideIdentify, bind_apply_of_runs get_apply, bind_apply_of_runs (hwrite _ (by decide) _),
    bind_apply_of_runs hwait, bind_apply_of_runs (hwrite _ (by decide) _),
    bind_apply_of_runs (hwrite _ (by decide) _), bind_apply_of_runs (hwrite _ (by decide) _),
    bind_apply_of_runs (hwrite _ (by decide) _), bind_apply_of_runs (hwrite _ (by decide) _),
    bind_apply_of_runs hwait,
    bind_apply_of_runs hstatus, if_neg (by decide), bind_apply_of_runs hready]
  rfl

theorem ideDeviceExists_diskless (hw : w.Wired) (hc : c < 2) {d fuel : ℕ} (hd : d < 2) :
    ideDeviceExists fuel c d w = some (0, w) := by
  have hselect : ideWrite c ataRegHdDevSel (UInt8.ofNat (0xA0 ||| (d <<< 4))) w =
      some ((), w) := ideWrite_diskless hw hc (by decide) _
  rw [ideDeviceExists, if_neg (by omega), if_neg (by omega), bind_apply_of_runs hselect, ideDelay,
    bind_apply_of_runs (readAltStatus_diskless hw hc 4),
    bind_apply_of_runs (ideRead_status_diskless hw hc), if_pos (Or.inl rfl)]
  rfl

theorem ideInitializeLoop_diskless (fuel : ℕ) (hw : w.Wired) {i n : ℕ} (hn : i + n ≤ 4) :
    ∃ w', ideInitializeLoop fuel i n w = some ((), w') ∧ w'.io = w.io := by
  induction n generalizing w i with
  | zero => exact ⟨w, rfl, rfl⟩
  | succ n ih =>
    obtain ⟨w', hloop, hio⟩ := ih (w := { w with
      ideDevices := Function.update w.ideDevices i { w.ideDevices i with reserved := 0 } })
      (i := i + 1) hw (by omega)
    refine ⟨w', ?_, hio⟩
    have hslot : ideInitializeSlot fuel i w = some ((), { w with
        ideDevices := Function.update w.ideDevices i { w.ideDevices i with reserved := 0 } }) := by
      rw [ideInitializeSlot, bind_apply_of_runs modify_apply]
      dsimp only
      rw [bind_apply_of_runs (ideDeviceExists_diskless (by exact hw) (by omega) (by omega))]
      rfl
    rw [ideInitializeLoop, bind_apply_of_runs hslot]
    exact hloop

/-- `ide_initialize` writes its 2 to the FIFO control of COM1. -/
theorem ideInitialize_diskless (hw : w.Wired) (fuel : ℕ) :
    ∃ w', ideInitialize fuel w = some ((), w') ∧ w'.io.uart = w.io.uart.write 2 2 := by
  have hself : ({ w with channels := ideChannels } : Kernel (Machine FloatingBus Uart16550)) =
      w := by rw [← hw]
  have hfirst : ideWrite 0 ataRegControl 2 w =
      some ((), w.setIo ⟨w.io.rest, w.io.uart.write 2 2⟩) := by
    show some ((), w.setIo (PortBus.outb ((w.channels 0).port ataRegControl) 2 w.io)) = _
    rw [hw]
    rfl
  have hsecond : ∀ b, ideWrite 1 ataRegControl 2 (w.setIo b) = some ((), w.setIo b) := by
    intro b
    show some ((), (w.setIo b).setIo (PortBus.outb ((w.channels 1).port ataRegControl) 2 b)) = _
    rw [hw]
    rfl
  obtain ⟨w', hloop, hio⟩ := ideInitializeLoop_diskless fuel
    (w := w.setIo ⟨w.io.rest, w.io.uart.write 2 2⟩) (i := 0) (n := 4) hw (Nat.le_refl 4)
  refine ⟨w', ?_, congrArg Machine.uart hio⟩
  rw [ideInitialize, bind_apply_of_runs modify_apply, hself, bind_apply_of_runs hfirst,
    bind_apply_of_runs (hsecond _)]
  exact hloop

end Diskless

/-- Setting up the serial port. -/
theorem exists_serialInit_diskless :
    ∃ w₁, Runs serialInit Kernel.diskless.watch () w₁ ∧
      w₁.unwatch = Kernel.diskless.setIo ⟨⟨⟩, ⟨0, 0xC7, 0x03, 0x0B, 0, 0x01, 0, [], []⟩⟩ := by
  have hprojects : Projects unwatch
      (serialInit : KernelM (Watched (Machine FloatingBus Uart16550)) Unit) serialInit :=
    projects_bind (fun _ ↦ rfl) fun _ ↦ projects_bind (fun _ ↦ rfl) fun _ ↦
      projects_bind (fun _ ↦ rfl) fun _ ↦ projects_bind (fun _ ↦ rfl) fun _ ↦
        projects_bind (fun _ ↦ rfl) fun _ ↦ projects_bind (fun _ ↦ rfl) fun _ ↦ fun _ ↦ rfl
  exact hprojects.lift (s := Kernel.diskless.watch) rfl

/-- The serial port is set up, `ide_identify` finds nothing, and a read no drive: the IDE driver
has kept to its ports. -/
theorem session_confined_iff_diskless :
    ∃ w₁ w₂ w₃, Session 1 Kernel.diskless.watch
        [⟨Kernel.diskless.watch, .serial .init, w₁⟩, ⟨w₁, .ide (.identify 0 1), w₂⟩,
          ⟨w₂, .ide (.readSectors 0 1 7 0x200000), w₃⟩] w₃ ∧
      (DriverStep.mk w₁ (.ide (.identify 0 1)) w₂).Confined ∧
      (DriverStep.mk w₂ (.ide (.readSectors 0 1 7 0x200000)) w₃).Confined := by
  obtain ⟨w₁, hinit, hw₁⟩ := exists_serialInit_diskless
  have hwired : w₁.unwatch.Wired := by
    rw [hw₁]
    rfl
  have hnothing : ideIdentify 1 0 1 w₁.unwatch = some ((), w₁.unwatch) :=
    ideIdentify_diskless hwired (by decide) 1 0
  obtain ⟨w₂, hidentify, hw₂⟩ := (ideIdentify_projects 1 0 1).lift hnothing
  have habsent : (w₂.ideDevices 0).reserved = 0 := by
    show (w₂.unwatch.ideDevices 0).reserved = 0
    rw [hw₂, hw₁]
    rfl
  have hread : Runs (DriverCall.run 1 (.ide (.readSectors 0 1 7 0x200000))) w₂ () w₂ := by
    refine runs_drop.2 ⟨1, ?_⟩
    rw [Runs, ideReadSectors, bind_apply_of_runs get_apply, if_pos (Or.inr habsent)]
    rfl
  have hserial : Runs (DriverCall.run 1 (.serial .init)) Kernel.diskless.watch () w₁ := hinit
  have hcall : Runs (DriverCall.run 1 (.ide (.identify 0 1))) w₁ () w₂ := hidentify
  have hsession :=
    Session.cons hserial (Session.cons hcall (Session.cons hread (Session.nil w₂)))
  have hconfined := (session_confined_iff hsession rfl).1 (by
    simp only [List.forall_mem_cons]
    exact ⟨trivial, ⟨by decide, by decide⟩, .inr (.inl habsent), List.forall_mem_nil _⟩)
  simp only [List.forall_mem_cons] at hconfined
  exact ⟨w₁, w₂, w₂, hsession, hconfined.2.1, hconfined.2.2.1⟩

/-- The serial port is set up, and then `ide_initialize` turns its FIFO off. -/
theorem not_confined_diskless :
    ∃ w₁ w₂, Session 1 Kernel.diskless.watch
        [⟨Kernel.diskless.watch, .serial .init, w₁⟩, ⟨w₁, .ide .init, w₂⟩] w₂ ∧
      w₁.io.bus.uart.fcr = 0xC7 ∧ w₂.io.bus.uart.fcr = 0x02 ∧
      ¬ (DriverStep.mk w₁ (.ide .init) w₂).Confined := by
  obtain ⟨w₁, hinit, hw₁⟩ := exists_serialInit_diskless
  have huart₁ : w₁.io.bus.uart = ⟨0, 0xC7, 0x03, 0x0B, 0, 0x01, 0, [], []⟩ := by
    show w₁.unwatch.io.uart = _
    rw [hw₁]
    rfl
  have hwired : w₁.unwatch.Wired := by
    rw [hw₁]
    rfl
  obtain ⟨v, hide, huart⟩ := ideInitialize_diskless hwired 1
  obtain ⟨w₂, hcall, rfl⟩ := (ideInitialize_projects 1).lift hide
  have hfcr₁ : w₁.io.bus.uart.fcr = 0xC7 := by rw [huart₁]
  have hfcr₂ : w₂.io.bus.uart.fcr = 0x02 := by
    show w₂.unwatch.io.uart.fcr = 0x02
    rw [huart]
    rfl
  have hserial : Runs (DriverCall.run 1 (.serial .init)) Kernel.diskless.watch () w₁ := hinit
  have hinitialize : Runs (DriverCall.run 1 (.ide .init)) w₁ () w₂ := hcall
  refine ⟨w₁, w₂, Session.cons hserial (Session.cons hinitialize (Session.nil w₂)), hfcr₁, hfcr₂,
    ?_⟩
  rintro ⟨es, -, -, hsame⟩
  rw [show w₂.io.bus.uart = w₁.io.bus.uart from hsame, hfcr₁] at hfcr₂
  exact absurd hfcr₂ (by decide)
