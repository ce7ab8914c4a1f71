import BinbowsDOS.Foundations.ByteBits

/-!
# The interrupt controllers

Two controllers of eight lines each, the slave on line 2 of the master. A controller has a register
of requests, one of masks and one of the lines in service. What is written to its command port is
the first initialization word or a command; the words that follow the first one, and after them the
mask, go to the data port. The lower a line, the higher its priority, and a line in service keeps
back itself and all lower priorities until a command ends it.

Behind the controllers stand the functions of `pic.c`. On a controller that expects no more
initialization words they change one mask, the one of their line (`maskBit_irqSetMask` and the
theorems after it).

Of the commands the two that end an interrupt without a rotation are modelled, and of the fourth
initialization word the automatic end.
-/

/-- The initialization words after the first one. -/
inductive InitWord
  /-- The vectors. -/
  | icw2
  /-- The cascade. -/
  | icw3
  /-- The mode. -/
  | icw4

/-- An 8259. -/
structure Pic8259 where
  /-- Lines with a request. -/
  irr : UInt8
  /-- Lines that are masked. -/
  imr : UInt8
  /-- Lines in service. -/
  isr : UInt8
  /-- The vector of line 0. -/
  base : UInt8
  /-- On the master, the lines with a slave. -/
  cascade : UInt8
  /-- The fourth initialization word. -/
  mode : UInt8
  /-- The initialization words that are still to come. -/
  expects : List InitWord

namespace Pic8259

variable {p : Pic8259} {n : ℕ}

/-- The initialization words that the first one announces. -/
def announced (icw1 : UInt8) : List InitWord :=
  .icw2 :: ((if bit icw1 1 then [] else [.icw3]) ++ if bit icw1 0 then [.icw4] else [])

/-- A non-specific end of interrupt: the line of the highest priority is no longer in service. -/
def endOfInterrupt (p : Pic8259) : Pic8259 :=
  match lowestBit p.isr with
  | some n => { p with isr := withoutBit p.isr n }
  | none => p

/-- Write to the command port. -/
def writeCommand (data : UInt8) (p : Pic8259) : Pic8259 :=
  if bit data 4 then
    { p with irr := 0, imr := 0, isr := 0, mode := 0, expects := announced data }
  else if bit data 3 then p
  else if data &&& 0xE0 = 0x20 then p.endOfInterrupt
  else if data &&& 0xE0 = 0x60 then { p with isr := withoutBit p.isr (data &&& 7).toNat }
  else p

/-- Write to the data port. -/
def writeData (data : UInt8) (p : Pic8259) : Pic8259 :=
  match p.expects with
  | [] => { p with imr := data }
  | .icw2 :: ws => { p with base := data &&& 0xF8, expects := ws }
  | .icw3 :: ws => { p with cascade := data, expects := ws }
  | .icw4 :: ws => { p with mode := data, expects := ws }

/-- The line that is to be served of these requests: the unmasked one of the highest priority,
unless it is kept back. -/
def winner (p : Pic8259) (requests : UInt8) : Option ℕ :=
  (lowestBit (requests &&& ~~~p.imr)).filter fun n ↦ ∀ m ≤ n, bit p.isr m = false

/-- The acknowledgement of an interrupt, and the line that is taken for it. If no request is left it
is line 7, which is not in service then. -/
def acknowledge (p : Pic8259) (requests : UInt8) : Pic8259 × ℕ :=
  match p.winner requests with
  | some n =>
    ({ p with
        irr := withoutBit p.irr n
        isr := if bit p.mode 1 then p.isr else withBit p.isr n }, n)
  | none => (p, 7)

end Pic8259

/-- The two controllers. -/
structure Pics where
  master : Pic8259
  slave : Pic8259

namespace Pics

variable {s : Pics}

/-- `PIC1_COMMAND` -/
def pic1Command : ℕ := 0x20

/-- `PIC1_DATA` -/
def pic1Data : ℕ := 0x21

/-- `PIC2_COMMAND` -/
def pic2Command : ℕ := 0xA0

/-- `PIC2_DATA` -/
def pic2Data : ℕ := 0xA1

/-- `outb` -/
def outb (port : ℕ) (data : UInt8) (s : Pics) : Pics :=
  if port = pic1Command then { s with master := s.master.writeCommand data }
  else if port = pic1Data then { s with master := s.master.writeData data }
  else if port = pic2Command then { s with slave := s.slave.writeCommand data }
  else if port = pic2Data then { s with slave := s.slave.writeData data }
  else s

/-- `inb` on the data ports. -/
def inb (port : ℕ) (s : Pics) : UInt8 := if port = pic1Data then s.master.imr else s.slave.imr

/-- The requests that the master sees. -/
def requests (s : Pics) : UInt8 :=
  if (s.slave.winner s.slave.irr).isSome then withBit s.master.irr 2 else s.master.irr

/-- The processor is interrupted. -/
def intr (s : Pics) : Bool := (s.master.winner s.requests).isSome

/-- The acknowledgement by the processor, and the vector it gets. On a line with a slave it is the
slave that answers. -/
def acknowledge (s : Pics) : Pics × UInt8 :=
  let master := s.master.acknowledge s.requests
  if (s.master.winner s.requests).any (bit s.master.cascade) then
    let slave := s.slave.acknowledge s.slave.irr
    (⟨master.1, slave.1⟩, s.slave.base + UInt8.ofNat slave.2)
  else (⟨master.1, s.slave⟩, s.master.base + UInt8.ofNat master.2)

end Pics

open Pics

/-! ### `pic.c` -/

/-- `PIC_sendEOI` -/
def picSendEoi (irq : UInt8) (s : Pics) : Pics :=
  let s := if 8 ≤ irq then s.outb pic2Command 0x20 else s
  s.outb pic1Command 0x20

/-- `PIC_remap` -/
def picRemap (offset1 offset2 : UInt8) (s : Pics) : Pics :=
  let s := s.outb pic1Command 0x11
  let s := s.outb pic2Command 0x11
  let s := s.outb pic1Data offset1
  let s := s.outb pic2Data offset2
  let s := s.outb pic1Data 4
  let s := s.outb pic2Data 2
  let s := s.outb pic1Data 0x01
  let s := s.outb pic2Data 0x01
  let s := s.outb pic1Data 0
  s.outb pic2Data 0

/-- `pic_disable` -/
def picDisable (s : Pics) : Pics := (s.outb pic1Data 0xff).outb pic2Data 0xff

/-- What the next three functions have in common: the mask register of the line is read, and written
back with one flag changed. -/
def changeMask (change : UInt8 → ℕ → UInt8) (irq : UInt8) (s : Pics) : Pics :=
  let port := if irq < 8 then pic1Data else pic2Data
  let irqBit := if irq < 8 then irq else irq - 8
  s.outb port (change (s.inb port) irqBit.toNat)

/-- `IRQ_set_mask` -/
def irqSetMask (irqLine : UInt8) (s : Pics) : Pics := changeMask withBit irqLine s

/-- `IRQ_clear_mask` -/
def irqClearMask (irqLine : UInt8) (s : Pics) : Pics := changeMask withoutBit irqLine s

/-- `pic_enable_irq` -/
def picEnableIrq (irq : UInt8) (s : Pics) : Pics := changeMask withoutBit irq s

namespace Pics

/-! ### Masks -/

variable {s : Pics} {irq : UInt8} {k n : ℕ} {change : UInt8 → ℕ → UInt8}

/-- Nothing written to a data port is an initialization word. -/
def Ready (s : Pics) : Prop := s.master.expects = [] ∧ s.slave.expects = []

/-- The mask of one of the sixteen lines. -/
def maskBit (s : Pics) (n : ℕ) : Bool :=
  if n < 8 then bit s.master.imr n else bit s.slave.imr (n - 8)

/-- The controllers with other masks. -/
def setMasks (s : Pics) (imr₁ imr₂ : UInt8) : Pics :=
  ⟨{ s.master with imr := imr₁ }, { s.slave with imr := imr₂ }⟩

theorem Ready.setMasks (h : s.Ready) (imr₁ imr₂ : UInt8) : (s.setMasks imr₁ imr₂).Ready := h

theorem writeData_of_ready {p : Pic8259} (h : p.expects = []) (data : UInt8) :
    p.writeData data = { p with imr := data } := by
  obtain ⟨irr, imr, isr, base, cascade, mode, expects⟩ := p
  obtain rfl : expects = [] := h
  rfl

theorem outb_pic1Data (h : s.Ready) (data : UInt8) :
    s.outb pic1Data data = s.setMasks data s.slave.imr := by
  rw [outb, if_neg (by decide), if_pos rfl, writeData_of_ready h.1]
  rfl

theorem outb_pic2Data (h : s.Ready) (data : UInt8) :
    s.outb pic2Data data = s.setMasks s.master.imr data := by
  rw [outb, if_neg (by decide), if_neg (by decide), if_neg (by decide), if_pos rfl,
    writeData_of_ready h.2]
  rfl

theorem picDisable_eq (h : s.Ready) : picDisable s = s.setMasks 0xff 0xff := by
  rw [picDisable, outb_pic1Data h, outb_pic2Data (h.setMasks _ _)]
  rfl

theorem changeMask_eq (h : s.Ready) : changeMask change irq s =
    if irq < 8 then s.setMasks (change s.master.imr irq.toNat) s.slave.imr
    else s.setMasks s.master.imr (change s.slave.imr (irq - 8).toNat) := by
  rw [changeMask]
  split_ifs with hirq
  · exact outb_pic1Data h _
  · exact outb_pic2Data h _

theorem Ready.changeMask (h : s.Ready) : (changeMask change irq s).Ready := by
  rw [changeMask_eq h]
  split_ifs
  · exact h
  · exact h

/-- One mask is changed, the one of the line. -/
theorem maskBit_changeMask {f : Bool → Bool → Bool} (h : s.Ready) (hirq : irq < 16) (hn : n < 16)
    (hchange : ∀ v i k, k < 8 → bit (change v i) k = f (bit v k) (decide (i % 32 = k)))
    (hother : ∀ b, f b false = b) :
    (changeMask change irq s).maskBit n = f (s.maskBit n) (decide (irq.toNat = n)) := by
  have hlt : irq.toNat < 16 := hirq
  rw [changeMask_eq h]
  split_ifs with hmaster
  · have hline : irq.toNat < 8 := hmaster
    rw [maskBit, maskBit]
    split_ifs with hn'
    · exact (hchange _ _ _ hn').trans (by rw [Nat.mod_eq_of_lt (by omega)])
    · rw [decide_eq_false (by omega), hother]
      rfl
  · have hge : 8 ≤ irq.toNat := Nat.le_of_not_lt hmaster
    have hline : (irq - 8).toNat = irq.toNat - 8 := UInt8.toNat_sub_of_le irq 8 hge
    rw [maskBit, maskBit, hline]
    split_ifs with hn'
    · rw [decide_eq_false (by omega), hother]
      rfl
    · refine (hchange _ _ _ (by omega)).trans ?_
      rw [Nat.mod_eq_of_lt (by omega), decide_eq_decide.2 (show _ ↔ irq.toNat = n by omega)]

theorem maskBit_irqSetMask (h : s.Ready) (hirq : irq < 16) (hn : n < 16) :
    (irqSetMask irq s).maskBit n = (s.maskBit n || decide (irq.toNat = n)) :=
  maskBit_changeMask h hirq hn (fun _ _ _ hk ↦ bit_withBit hk) Bool.or_false

theorem maskBit_irqClearMask (h : s.Ready) (hirq : irq < 16) (hn : n < 16) :
    (irqClearMask irq s).maskBit n = (s.maskBit n && !decide (irq.toNat = n)) :=
  maskBit_changeMask (f := fun a b ↦ a && !b) h hirq hn (fun _ _ _ hk ↦ bit_withoutBit hk)
    Bool.and_true

theorem maskBit_picEnableIrq (h : s.Ready) (hirq : irq < 16) (hn : n < 16) :
    (picEnableIrq irq s).maskBit n = (s.maskBit n && !decide (irq.toNat = n)) :=
  maskBit_irqClearMask h hirq hn

theorem maskBit_picDisable (h : s.Ready) (hn : n < 16) : (picDisable s).maskBit n = true := by
  have hones : ∀ k < 8, bit 0xff k = true := by decide
  rw [picDisable_eq h, maskBit]
  split_ifs
  · exact hones n (by omega)
  · exact hones (n - 8) (by omega)

/-! ### A new start -/

/-- Afterwards nothing is masked, requested or in service, and the vectors begin with the offsets,
rounded down to multiples of eight. -/
theorem picRemap_eq (offset1 offset2 : UInt8) (s : Pics) : picRemap offset1 offset2 s =
    ⟨⟨0, 0, 0, offset1 &&& 0xF8, 4, 1, []⟩, ⟨0, 0, 0, offset2 &&& 0xF8, 2, 1, []⟩⟩ := rfl

end Pics
