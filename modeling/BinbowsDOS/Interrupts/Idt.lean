import BinbowsDOS.Console.Vga
import BinbowsDOS.Interrupts.Pic

/-!
# Interrupt gates and handlers

`idt.c`: the gates of the sixteen interrupt lines lead to the stubs of `irq.asm`, which call
`irq_handler` with the vector; `irq_handler` calls the handler of the line, an entry of a table, and
ends the interrupt. An entry is stored for any index below 16, and a C index may be negative, so
the address of an entry is taken modulo `2 ^ 32`.

What the linker decides, the addresses of the stubs and of the table, is a parameter.
-/

/-- A gate. -/
structure IdtEntry where
  /-- `base_low` -/
  baseLow : UInt16
  /-- `sel` -/
  sel : UInt16
  /-- `always0` -/
  always0 : UInt8
  /-- `flags` -/
  flags : UInt8
  /-- `base_high` -/
  baseHigh : UInt16

/-- The address that the processor reads from a gate. -/
def IdtEntry.offset (e : IdtEntry) : ℕ := e.baseHigh.toNat * 2 ^ 16 + e.baseLow.toNat

/-- `irq_handlers`: sixteen words. -/
structure HandlerTable where
  addr : UInt32
  aligned : addr.toNat % 4 = 0
  fits : addr.toNat + 64 ≤ 2 ^ 32

/-- `&irq_handlers[n]` -/
def HandlerTable.entry (t : HandlerTable) (n : Int32) : ℕ := (t.addr + 4 * n.toUInt32).toNat

/-- The state of the interrupt system. -/
structure IrqState where
  /-- The controllers. -/
  pics : Pics
  /-- `idt` -/
  idt : UInt8 → IdtEntry
  /-- Memory, the table included. -/
  mem : ByteMem
  /-- The messages given to `printf`. -/
  printed : List (List UInt8)

/-! ### The functions -/

/-- `idt_set_gate` -/
def idtSetGate (num : UInt8) (base : UInt32) (sel : UInt16) (flags : UInt8)
    (idt : UInt8 → IdtEntry) : UInt8 → IdtEntry :=
  Function.update idt num
    { baseLow := (base &&& 0xFFFF).toUInt16
      sel := sel
      always0 := 0
      flags := flags
      baseHigh := ((base >>> 16) &&& 0xFFFF).toUInt16 }

/-- The gates of the lines below `n`. -/
def irqGates (stub : ℕ → UInt32) : ℕ → (UInt8 → IdtEntry) → UInt8 → IdtEntry
  | 0, idt => idt
  | n + 1, idt => idtSetGate (UInt8.ofNat (32 + n)) (stub n) 0x08 0x8E (irqGates stub n idt)

open Pics in
/-- `irq_install` -/
def irqInstall (stub : ℕ → UInt32) (s : IrqState) : IrqState :=
  let pics := s.pics.outb 0x20 0x11
  let pics := pics.outb 0xA0 0x11
  let pics := pics.outb 0x21 0x20
  let pics := pics.outb 0xA1 0x28
  let pics := pics.outb 0x21 0x04
  let pics := pics.outb 0xA1 0x02
  let pics := pics.outb 0x21 0x01
  let pics := pics.outb 0xA1 0x01
  let pics := pics.outb 0x21 0x0
  let pics := pics.outb 0xA1 0x0
  { s with pics := pics, idt := irqGates stub 16 s.idt }

/-- `install_irq_handler` -/
def installIrqHandler (t : HandlerTable) (n : Int32) (handler : UInt32) (s : IrqState) : IrqState :=
  if n < 16 then
    { s with
      mem := s.mem.storeLE (t.entry n) 4 handler.toNat
      pics := picEnableIrq n.toUInt32.toUInt8 s.pics
      printed := s.printed ++
        [literal "Installed IRQ handler for IRQ " ++ intText n.toUInt32 ++ literal "\n"] }
  else s

/-- The handler that `irq_handler` calls, once. -/
def calledHandler (t : HandlerTable) (mem : ByteMem) (intNo : UInt32) : Option UInt32 :=
  let irq := (intNo - 32).toInt32
  if 0 ≤ irq ∧ irq < 16 ∧ mem.loadLE (t.entry irq) 4 ≠ 0 then
    some (UInt32.ofNat (mem.loadLE (t.entry irq) 4))
  else none

/-- The end of `irq_handler`. -/
def sendEoi (intNo : UInt32) (s : Pics) : Pics :=
  let s := if 40 ≤ intNo then s.outb 0xA0 0x20 else s
  s.outb 0x20 0x20

/-- `irq_handler`, with what a handler may do. -/
def IrqHandler (t : HandlerTable) (effect : UInt32 → IrqState → IrqState → Prop) (intNo : UInt32)
    (s s' : IrqState) : Prop :=
  ∃ u, (match calledHandler t s.mem intNo with
    | some handler => effect handler s u
    | none => u = s) ∧ s' = { u with pics := sendEoi intNo u.pics }

/-! ### Gates -/

section Gates

variable {num : UInt8} {base : UInt32} {sel : UInt16} {flags : UInt8} {idt : UInt8 → IdtEntry}
  {stub : ℕ → UInt32} {i n : ℕ}

/-- The two halves of an address make it up again. -/
theorem offset_idtSetGate : (idtSetGate num base sel flags idt num).offset = base.toNat := by
  have hlt := base.toNat_lt
  have hmask : ∀ x : UInt32, (x &&& 0xFFFF).toNat = x.toNat % 2 ^ 16 := fun x ↦ by
    rw [UInt32.toNat_and]
    exact Nat.and_two_pow_sub_one_eq_mod x.toNat 16
  rw [idtSetGate, Function.update_self, IdtEntry.offset]
  dsimp only
  rw [UInt32.toNat_toUInt16, UInt32.toNat_toUInt16, hmask, hmask, UInt32.toNat_shiftRight,
    Nat.shiftRight_eq_div_pow, show (16 : UInt32).toNat % 32 = 16 from rfl]
  omega

theorem irqGates_apply (hn : n ≤ 16) (hi : i < n) :
    (irqGates stub n idt (UInt8.ofNat (32 + i))).offset = (stub i).toNat := by
  induction n with
  | zero => omega
  | succ n ih =>
    rw [irqGates]
    rcases Nat.lt_succ_iff_lt_or_eq.1 hi with hlt | rfl
    · have hne : UInt8.ofNat (32 + i) ≠ UInt8.ofNat (32 + n) := by
        intro h
        have hnat := congrArg UInt8.toNat h
        rw [UInt8.toNat_ofNat', UInt8.toNat_ofNat'] at hnat
        omega
      rw [idtSetGate, Function.update_of_ne hne]
      exact ih (by omega) hlt
    · exact offset_idtSetGate

end Gates

/-- `irq_install` starts the controllers like `PIC_remap`. -/
theorem pics_irqInstall (stub : ℕ → UInt32) (s : IrqState) :
    (irqInstall stub s).pics = picRemap 0x20 0x28 s.pics := rfl

/-- `irq_handler` ends like `PIC_sendEOI`. -/
theorem sendEoi_line {line : ℕ} (hline : line < 16) (s : Pics) :
    sendEoi (UInt32.ofNat (32 + line)) s = picSendEoi (UInt8.ofNat line) s := by
  have hslave : ∀ line < 16, 40 ≤ UInt32.ofNat (32 + line) ↔ 8 ≤ UInt8.ofNat line := by decide
  rw [sendEoi, picSendEoi]
  simp only [hslave line hline]
  rfl

/-! ### A start -/

/-- A table behind the first megabyte. -/
def HandlerTable.low : HandlerTable := ⟨0x100000, by decide, by decide⟩

/-- What the firmware leaves. -/
def IrqState.firmware : IrqState where
  pics := picRemap 0x08 0x70 ⟨⟨0, 0, 0, 0, 0, 0, []⟩, ⟨0, 0, 0, 0, 0, 0, []⟩⟩
  idt _ := ⟨0, 0, 0, 0, 0⟩
  mem _ := 0
  printed := []
