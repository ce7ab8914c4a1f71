import BinbowsDOS.Foundations.Descriptors
import BinbowsDOS.Foundations.PackedRecord
import BinbowsDOS.Interrupts.Stub

/-!
# The descriptor tables

`gdt.c`, `gdt.asm`, `idt.c` and `idt.asm` in memory, as the processor reads the tables. The kernel
installs its segments, then its gates. After that every segment register maps each address to
itself, the vectors below 48 lead to their stubs, the others nowhere, and all of that lasts as long
as the bytes of the tables do (`tables_of_boot`).

The gates in memory are those of `Interrupts/Idt`, which leaves out how they are stored
(`holds_idtSetGate`).
-/

open ByteMem

/-! ### Entries -/

namespace GdtField

/-- `limit_low` -/
def limitLow : RecordField := ⟨0, 2⟩

/-- `base_low` -/
def baseLow : RecordField := ⟨2, 2⟩

/-- `base_middle` -/
def baseMiddle : RecordField := ⟨4, 1⟩

/-- `access` -/
def access : RecordField := ⟨5, 1⟩

/-- `granularity` -/
def granularity : RecordField := ⟨6, 1⟩

/-- `base_high` -/
def baseHigh : RecordField := ⟨7, 1⟩

end GdtField

open GdtField in
/-- `gdt_set_gate` -/
def gdtSetGate (gdt num : ℕ) (base limit : UInt32) (access gran : UInt8) (m : ByteMem) : ByteMem :=
  let p := gdt + 8 * num
  let m := m.set p baseLow (base &&& 0xFFFF).toNat
  let m := m.set p baseMiddle ((base >>> 16) &&& 0xFF).toNat
  let m := m.set p baseHigh ((base >>> 24) &&& 0xFF).toNat
  let m := m.set p limitLow (limit &&& 0xFFFF).toNat
  let m := m.set p granularity ((limit >>> 16) &&& 0x0F).toNat
  let m := m.set p granularity (m.get p granularity ||| (gran &&& 0xF0).toNat)
  m.set p GdtField.access access.toNat

namespace IdtField

/-- `base_low` -/
def baseLow : RecordField := ⟨0, 2⟩

/-- `sel` -/
def sel : RecordField := ⟨2, 2⟩

/-- `always0` -/
def always0 : RecordField := ⟨4, 1⟩

/-- `flags` -/
def flags : RecordField := ⟨5, 1⟩

/-- `base_high` -/
def baseHigh : RecordField := ⟨6, 2⟩

end IdtField

/-- `idt_set_gate`, in memory. -/
def idtStoreGate (idt : ℕ) (num : UInt8) (base : UInt32) (sel : UInt16) (flags : UInt8)
    (m : ByteMem) : ByteMem :=
  let p := idt + 8 * num.toNat
  let m := m.set p IdtField.baseLow (base &&& 0xFFFF).toNat
  let m := m.set p IdtField.sel sel.toNat
  let m := m.set p IdtField.always0 0
  let m := m.set p IdtField.flags flags.toNat
  m.set p IdtField.baseHigh ((base >>> 16) &&& 0xFFFF).toNat

section Entries

variable {m : ByteMem} {gdt idt num num' a : ℕ} {base limit : UInt32} {access gran flags : UInt8}
  {sel : UInt16}

theorem idtStoreGate_apply_of_not_mem {v : UInt8}
    (ha : a < idt + 8 * v.toNat ∨ idt + 8 * v.toNat + 8 ≤ a) :
    idtStoreGate idt v base sel flags m a = m a := by
  rw [idtStoreGate]
  iterate 5 rw [set_apply_of_not_mem (n := 8) (by decide) ha]

theorem toNat_and_low (x : UInt32) : (x &&& 0xFFFF).toNat = x.toNat % 2 ^ 16 := by
  rw [UInt32.toNat_and]
  exact Nat.and_two_pow_sub_one_eq_mod x.toNat 16

/-- **A gate in memory**, as the processor reads it. -/
theorem gate_idtStoreGate {v : UInt8} :
    (idtStoreGate idt v base sel flags m).gate (idt + 8 * v.toNat) =
      ⟨base.toNat, sel.toNat, flags.toNat⟩ := by
  have hbase := base.toNat_lt
  have hsel := sel.toNat_lt
  have hflags := flags.toNat_lt
  generalize hm : idtStoreGate idt v base sel flags m = m'
  have hlow : m'.get (idt + 8 * v.toNat) IdtField.baseLow = base.toNat % 2 ^ 16 := by
    rw [← hm, idtStoreGate]
    simp (disch := decide) only [get_set_self, get_set_of_disjoint]
    rw [toNat_and_low]
    exact Nat.mod_mod _ _
  have hhigh : m'.get (idt + 8 * v.toNat) IdtField.baseHigh = base.toNat / 2 ^ 16 := by
    rw [← hm, idtStoreGate]
    simp (disch := decide) only [get_set_self]
    rw [toNat_and_low, UInt32.toNat_shiftRight, Nat.shiftRight_eq_div_pow]
    show base.toNat / 2 ^ 16 % 2 ^ 16 % 256 ^ 2 = _
    omega
  have hsel' : m'.get (idt + 8 * v.toNat) IdtField.sel = sel.toNat := by
    rw [← hm, idtStoreGate]
    simp (disch := decide) only [get_set_self, get_set_of_disjoint]
    exact Nat.mod_eq_of_lt hsel
  have hflags' : m'.get (idt + 8 * v.toNat) IdtField.flags = flags.toNat := by
    rw [← hm, idtStoreGate]
    simp (disch := decide) only [get_set_self, get_set_of_disjoint]
    exact Nat.mod_eq_of_lt hflags
  have hgate : m'.gate (idt + 8 * v.toNat) =
      ⟨m'.get (idt + 8 * v.toNat) IdtField.baseLow +
        2 ^ 16 * m'.get (idt + 8 * v.toNat) IdtField.baseHigh,
      m'.get (idt + 8 * v.toNat) IdtField.sel, m'.get (idt + 8 * v.toNat) IdtField.flags⟩ := rfl
  rw [hgate, hlow, hhigh, hsel', hflags', Gate.mk.injEq]
  exact ⟨by omega, rfl, rfl⟩

/-! ### The table of gates -/

/-- The table in memory holds these gates. -/
def HoldsGates (m : ByteMem) (idt : ℕ) (e : UInt8 → IdtEntry) : Prop :=
  ∀ v : UInt8, m.gate (idt + 8 * v.toNat) = ⟨(e v).offset, (e v).sel.toNat, (e v).flags.toNat⟩

/-- Gates in memory do not overlap. -/
theorem gate_idtStoreGate_of_ne {v w : UInt8} (h : w ≠ v) :
    (idtStoreGate idt v base sel flags m).gate (idt + 8 * w.toNat) =
      m.gate (idt + 8 * w.toNat) := by
  have hne : w.toNat ≠ v.toNat := fun heq ↦ h (UInt8.toNat_inj.1 heq)
  exact gate_congr fun i hi ↦ idtStoreGate_apply_of_not_mem (by omega)

/-- **One gate**: memory follows the table of gates. -/
theorem holds_idtSetGate {e : UInt8 → IdtEntry} (h : HoldsGates m idt e) (v : UInt8) :
    HoldsGates (idtStoreGate idt v base sel flags m) idt (idtSetGate v base sel flags e) := by
  intro w
  by_cases hw : w = v
  · rw [hw, gate_idtStoreGate, offset_idtSetGate, idtSetGate, Function.update_self]
  · rw [gate_idtStoreGate_of_ne hw, h w, idtSetGate, Function.update_of_ne hw]

end Entries

/-- `for (i = 0; i < n; i++) idt_set_gate(i, 0, 0, 0);` -/
def idtClear (idt : ℕ) : ℕ → ByteMem → ByteMem
  | 0, m => m
  | n + 1, m => idtStoreGate idt (UInt8.ofNat n) 0 0 0 (idtClear idt n m)

/-- Gates for `n` vectors from `first` on. -/
def idtStoreGates (idt first : ℕ) (stub : ℕ → UInt32) : ℕ → ByteMem → ByteMem
  | 0, m => m
  | n + 1, m =>
    idtStoreGate idt (UInt8.ofNat (first + n)) (stub n) 0x08 0x8E (idtStoreGates idt first stub n m)

/-- `exceptions_install` -/
def exceptionsInstall (idt : ℕ) (isr : ℕ → UInt32) : ByteMem → ByteMem := idtStoreGates idt 0 isr 32

/-- The gates of `irq_install`. -/
def irqStoreGates (idt : ℕ) (irq : ℕ → UInt32) : ByteMem → ByteMem := idtStoreGates idt 32 irq 16

section Gates

variable {m : ByteMem} {idt first n a : ℕ} {stub : ℕ → UInt32}

/-- **The two models of the IDT agree**: the gates of the lines that are stored are those that
`irq_install` sets in the table of `BinbowsDOS.Interrupts.Idt`. -/
theorem HoldsGates.irqGates {e : UInt8 → IdtEntry} (h : HoldsGates m idt e) (irq : ℕ → UInt32)
    (n : ℕ) : HoldsGates (idtStoreGates idt 32 irq n m) idt (irqGates irq n e) := by
  induction n with
  | zero => exact h
  | succ n ih => exact holds_idtSetGate ih _

end Gates

/-! ### Installing them -/

/-- Where the linker puts the tables and what is loaded into their registers. -/
structure TableLayout where
  /-- `gp` -/
  gp : ℕ
  /-- `gdt` -/
  gdt : ℕ
  /-- `idtp` -/
  idtp : ℕ
  /-- `idt` -/
  idt : ℕ
  gdt_lt : gdt < 2 ^ 32
  idt_lt : idt < 2 ^ 32
  gp_gdt : gp + 6 ≤ gdt ∨ gdt + 24 ≤ gp
  idtp_gdt : idtp + 6 ≤ gdt ∨ gdt + 24 ≤ idtp
  idt_gdt : idt + 2048 ≤ gdt ∨ gdt + 24 ≤ idt
  idtp_idt : idtp + 6 ≤ idt ∨ idt + 2048 ≤ idtp

/-- The tables behind the first megabyte, one after the other. -/
def TableLayout.low : TableLayout :=
  ⟨0x100000, 0x100008, 0x100020, 0x100028, by decide, by decide, by decide, by decide, by decide,
    by decide⟩

instance : Inhabited TableLayout := ⟨.low⟩

/-- The processor's view of the tables. -/
structure Tables where
  /-- Memory. -/
  mem : ByteMem
  /-- The table of segments. -/
  gdtr : TableReg
  /-- The table of gates. -/
  idtr : TableReg
  /-- The segment registers, each with the descriptor that has been loaded with it. -/
  seg : Seg → ℕ × Segment

namespace Tables

/-- Load a segment register. A selector that names no segment is an exception. -/
def loadSeg (s : Seg) (selector : ℕ) (t : Tables) : Option Tables :=
  (t.gdtr.segment? t.mem selector).map fun d ↦
    { t with seg := Function.update t.seg s (selector, d) }

/-- `gdt_flush`: `lgdt`, a far jump, and the data segments. -/
def gdtFlush (gp : ℕ) (t : Tables) : Option Tables := do
  let t := { t with gdtr := t.mem.tableReg gp }
  let t ← t.loadSeg .cs 0x08
  let t ← t.loadSeg .ds 0x10
  let t ← t.loadSeg .es 0x10
  let t ← t.loadSeg .fs 0x10
  let t ← t.loadSeg .gs 0x10
  t.loadSeg .ss 0x10

/-- `gdt_install` -/
def gdtInstall (k : TableLayout) (t : Tables) : Option Tables :=
  let m := t.mem.storeLE k.gp 2 (8 * 3 - 1)
  let m := m.storeLE (k.gp + 2) 4 k.gdt
  let m := gdtSetGate k.gdt 0 0 0 0 0 m
  let m := gdtSetGate k.gdt 1 0 0xFFFFFFFF 0x9A 0xCF m
  let m := gdtSetGate k.gdt 2 0 0xFFFFFFFF 0x92 0xCF m
  gdtFlush k.gp { t with mem := m }

/-- `idt_install` -/
def idtInstall (k : TableLayout) (t : Tables) : Tables :=
  let m := t.mem.storeLE k.idtp 2 (8 * 256 - 1)
  let m := m.storeLE (k.idtp + 2) 4 k.idt
  let m := idtClear k.idt 256 m
  { t with mem := m, idtr := m.tableReg k.idtp }

/-- What `kmain` does to the tables. -/
def install (k : TableLayout) (isr irq : ℕ → UInt32) (t : Tables) : Option Tables := do
  let t ← gdtInstall k t
  let t := idtInstall k t
  let t := { t with mem := exceptionsInstall k.idt isr t.mem }
  pure { t with mem := irqStoreGates k.idt irq t.mem }

variable {k : TableLayout} {t t' : Tables} {isr irq : ℕ → UInt32} {m : ByteMem} {a : ℕ}

end Tables
