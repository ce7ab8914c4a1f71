import BinbowsDOS.Foundations.WordStack
import BinbowsDOS.Interrupts.Idt
import Mathlib.Logic.Function.Basic

/-!
# The stubs

`irq.asm` between the processor, which pushes the flags and the address of the interrupted code, and
`irq_handler`, which is any function of the C calling convention. The stub pushes what `struct regs`
declares (`describes_atHandler`), and unwinds it afterwards. The interrupted code gets all its
registers back and the stack that it had (`irq_invisible`).

One field of the structure is not what it was in the interrupted code. `pusha` pushes the stack
pointer that it finds, and five words have been pushed before.

A selector is pushed with zeros in its upper half, and what an addition leaves in the flags is a
parameter.
-/

/-- The general registers. -/
inductive Reg
  | eax | ecx | edx | ebx | esp | ebp | esi | edi
  deriving DecidableEq

/-- The segment registers. -/
inductive Seg
  | cs | ds | es | fs | gs | ss
  deriving DecidableEq

/-- The processor, with memory. -/
structure Cpu where
  reg : Reg → UInt32
  seg : Seg → UInt16
  eip : UInt32
  eflags : UInt32
  mem : WordMem

namespace Cpu

/-! ### Instructions -/

/-- Push a word. -/
def push (v : UInt32) (c : Cpu) : Cpu :=
  { c with
    reg := Function.update c.reg .esp (c.reg .esp - 4)
    mem := storeWord c.mem (c.reg .esp - 4) v }

/-- Push words, the first one first. -/
def pushAll (vs : List UInt32) (c : Cpu) : Cpu := vs.foldl (fun c v ↦ c.push v) c

/-- The word on top of the stack. -/
def top (c : Cpu) : UInt32 := loadWord c.mem (c.reg .esp)

/-- Take a word off the stack. -/
def drop (c : Cpu) : Cpu := { c with reg := Function.update c.reg .esp (c.reg .esp + 4) }

/-- Set a general register. -/
def setReg (r : Reg) (v : UInt32) (c : Cpu) : Cpu := { c with reg := Function.update c.reg r v }

/-- Set a segment register. -/
def setSeg (s : Seg) (v : UInt16) (c : Cpu) : Cpu := { c with seg := Function.update c.seg s v }

/-- `pop r` -/
def popReg (r : Reg) (c : Cpu) : Cpu := c.drop.setReg r c.top

/-- The instructions of `irq.asm`. -/
inductive Instr
  | cli
  | push (v : UInt32)
  | pusha
  | pushSeg (s : Seg)
  | movAx (v : UInt16)
  | movSegAx (s : Seg)
  | movEaxEsp
  | pushEax
  | popEax
  | popSeg (s : Seg)
  | popa
  | addEsp (n : UInt32)

/-- One instruction. -/
def exec (addFlags : Cpu → UInt32) (c : Cpu) : Instr → Cpu
  | .cli => { c with eflags := c.eflags &&& ~~~0x200 }
  | .push v => c.push v
  | .pusha =>
    c.pushAll [c.reg .eax, c.reg .ecx, c.reg .edx, c.reg .ebx, c.reg .esp, c.reg .ebp, c.reg .esi,
      c.reg .edi]
  | .pushSeg s => c.push (c.seg s).toUInt32
  | .movAx v => c.setReg .eax (c.reg .eax &&& 0xFFFF0000 ||| v.toUInt32)
  | .movSegAx s => c.setSeg s (c.reg .eax).toUInt16
  | .movEaxEsp => c.setReg .eax (c.reg .esp)
  | .pushEax => c.push (c.reg .eax)
  | .popEax => c.popReg .eax
  | .popSeg s => c.drop.setSeg s c.top.toUInt16
  | .popa =>
    -- the stack pointer is passed over
    let c := ((c.popReg .edi).popReg .esi).popReg .ebp
    (((c.drop.popReg .ebx).popReg .edx).popReg .ecx).popReg .eax
  | .addEsp n => { c.setReg .esp (c.reg .esp + n) with eflags := addFlags c }

/-- Instructions one after the other. -/
def execAll (addFlags : Cpu → UInt32) (is : List Instr) (c : Cpu) : Cpu :=
  is.foldl (exec addFlags) c

/-- The processor enters an interrupt gate. -/
def enter (gate : IdtEntry) (c : Cpu) : Cpu :=
  { c.pushAll [c.eflags, (c.seg .cs).toUInt32, c.eip] with
    seg := Function.update c.seg .cs gate.sel
    eip := UInt32.ofNat gate.offset
    eflags := c.eflags &&& ~~~0x34300 }

/-- `iret` -/
def iret (c : Cpu) : Cpu :=
  { c.drop.drop.drop with
    eip := c.top
    seg := Function.update c.seg .cs c.drop.top.toUInt16
    eflags := c.drop.drop.top }

/-! ### `irq.asm` -/

/-- `irq0` to `irq15` -/
def irqStub (line : ℕ) : List Instr := [.cli, .push 0, .push (UInt32.ofNat (32 + line))]

/-- `irq_common_stub` before the call. -/
def irqCommonStub : List Instr :=
  [.pusha, .pushSeg .ds, .pushSeg .es, .pushSeg .fs, .pushSeg .gs, .movAx 0x10, .movSegAx .ds,
    .movSegAx .es, .movSegAx .fs, .movSegAx .gs, .movEaxEsp, .pushEax]

/-- `irq_common_stub` after the call, up to `iret`. -/
def irqCommonReturn : List Instr :=
  [.popEax, .popSeg .gs, .popSeg .fs, .popSeg .es, .popSeg .ds, .popa, .addEsp 8]

/-- The state in which `irq_handler` is entered, with this return address. -/
def atHandler (addFlags : Cpu → UInt32) (gate : IdtEntry) (line : ℕ) (ret : UInt32) (c : Cpu) :
    Cpu :=
  (execAll addFlags (irqStub line ++ irqCommonStub) (c.enter gate)).push ret

/-- The state after `iret`. -/
def afterHandler (addFlags : Cpu → UInt32) (c : Cpu) : Cpu :=
  (execAll addFlags irqCommonReturn c).iret

/-- A function of the C calling convention from its entry to its return: of what was there before
the call it may change `eax`, `ecx`, `edx`, the flags and its argument. The `bytes` bytes behind the
argument belong to its callers. -/
structure Cdecl (bytes : ℕ) (c c' : Cpu) : Prop where
  esp : c'.reg .esp = c.reg .esp + 4
  saved : ∀ r ∈ [Reg.ebx, .ebp, .esi, .edi], c'.reg r = c.reg r
  seg : c'.seg = c.seg
  eip : c'.eip = c.top
  mem : ∀ i < bytes, c'.mem (c.reg .esp + 8 + UInt32.ofNat i) =
    c.mem (c.reg .esp + 8 + UInt32.ofNat i)

end Cpu

/-- `struct regs` -/
structure Regs where
  gs : UInt32
  fs : UInt32
  es : UInt32
  ds : UInt32
  edi : UInt32
  esi : UInt32
  ebp : UInt32
  esp : UInt32
  ebx : UInt32
  edx : UInt32
  ecx : UInt32
  eax : UInt32
  intNo : UInt32
  errCode : UInt32
  eip : UInt32
  cs : UInt32
  eflags : UInt32
  useresp : UInt32
  ss : UInt32

/-- The structure at an address. -/
def Regs.at (m : WordMem) (r : UInt32) : Regs where
  gs := loadWord m r
  fs := loadWord m (r + 4)
  es := loadWord m (r + 8)
  ds := loadWord m (r + 12)
  edi := loadWord m (r + 16)
  esi := loadWord m (r + 20)
  ebp := loadWord m (r + 24)
  esp := loadWord m (r + 28)
  ebx := loadWord m (r + 32)
  edx := loadWord m (r + 36)
  ecx := loadWord m (r + 40)
  eax := loadWord m (r + 44)
  intNo := loadWord m (r + 48)
  errCode := loadWord m (r + 52)
  eip := loadWord m (r + 56)
  cs := loadWord m (r + 60)
  eflags := loadWord m (r + 64)
  useresp := loadWord m (r + 68)
  ss := loadWord m (r + 72)

namespace Cpu

variable {addFlags : Cpu → UInt32} {gate : IdtEntry} {c x : Cpu} {m₀ : WordMem}
  {vs ws : List UInt32} {line len : ℕ} {ret : UInt32}

theorem execAll_append (is js : List Instr) :
    execAll addFlags (is ++ js) c = execAll addFlags js (execAll addFlags is c) := List.foldl_append

theorem push_esp (v : UInt32) : (c.push v).reg .esp = c.reg .esp - 4 := rfl

theorem esp_pushAll : (c.pushAll vs).reg .esp = c.reg .esp - UInt32.ofNat (4 * vs.length) := by
  induction vs generalizing c with
  | nil => exact (UInt32.sub_zero _).symm
  | cons v vs ih =>
    show ((c.push v).pushAll vs).reg .esp = _
    rw [ih, push_esp, List.length_cons, Nat.mul_succ, UInt32.ofNat_add]
    show _ = c.reg .esp - (UInt32.ofNat (4 * vs.length) + 4)
    grind

theorem stacked_push (h : Stacked m₀ len c.mem (c.reg .esp) ws)
    (hroom : 4 * ws.length + 4 + len ≤ 2 ^ 32) (v : UInt32) :
    Stacked m₀ len (c.push v).mem ((c.push v).reg .esp) (v :: ws) := by
  rw [push_esp]
  exact h.push hroom v

theorem stacked_pushAll (h : Stacked m₀ len c.mem (c.reg .esp) ws)
    (hroom : 4 * (vs.length + ws.length) + len ≤ 2 ^ 32) :
    Stacked m₀ len (c.pushAll vs).mem ((c.pushAll vs).reg .esp) (vs.reverse ++ ws) := by
  induction vs generalizing c ws with
  | nil => exact h
  | cons v vs ih =>
    rw [List.length_cons] at hroom
    rw [List.reverse_cons, List.append_assoc, List.singleton_append]
    exact ih (stacked_push h (by omega) v) (by rw [List.length_cons]; omega)

/-- The words that the interrupt and `irq0` to `irq15` push, the last one first. -/
def entered (c : Cpu) (line : ℕ) : List UInt32 :=
  [UInt32.ofNat (32 + line), 0, c.eip, (c.seg .cs).toUInt32, c.eflags]

/-- The registers that `irq_common_stub` pushes, the last one first. -/
def saved (c : Cpu) : List UInt32 :=
  [(c.seg .gs).toUInt32, (c.seg .fs).toUInt32, (c.seg .es).toUInt32, (c.seg .ds).toUInt32,
    c.reg .edi, c.reg .esi, c.reg .ebp, c.reg .esp, c.reg .ebx, c.reg .edx, c.reg .ecx, c.reg .eax]

/-- The words that the interrupt and the stub leave on the stack, the last one first. -/
def frame (c : Cpu) (line : ℕ) : List UInt32 :=
  [(c.seg .gs).toUInt32, (c.seg .fs).toUInt32, (c.seg .es).toUInt32, (c.seg .ds).toUInt32,
    c.reg .edi, c.reg .esi, c.reg .ebp, c.reg .esp - 20, c.reg .ebx, c.reg .edx, c.reg .ecx,
    c.reg .eax, UInt32.ofNat (32 + line), 0, c.eip, (c.seg .cs).toUInt32, c.eflags]

theorem esp_irqStub : (execAll addFlags (irqStub line) (c.enter gate)).reg .esp =
    c.reg .esp - 20 := by
  have hpushed : (c.pushAll (entered c line).reverse).reg .esp = _ := esp_pushAll
  exact hpushed

/-- The stub has changed no register but the stack pointer. -/
theorem saved_irqStub : (execAll addFlags (irqStub line) (c.enter gate)).saved ++ entered c line =
    frame c line := by
  rw [saved, esp_irqStub]
  rfl

theorem stacked_irqStub (hroom : 20 + len ≤ 2 ^ 32) :
    Stacked c.mem len (execAll addFlags (irqStub line) (c.enter gate)).mem
      ((execAll addFlags (irqStub line) (c.enter gate)).reg .esp) (entered c line) := by
  have hbefore : Stacked c.mem len c.mem (c.reg .esp) [] := fun _ _ ↦ rfl
  have hpushed : Stacked c.mem len (c.pushAll (entered c line).reverse).mem _ _ :=
    stacked_pushAll hbefore hroom
  exact hpushed

theorem esp_pushAll_saved : (c.pushAll c.saved.reverse).reg .esp = c.reg .esp - 48 := esp_pushAll

theorem esp_irqCommonStub : (execAll addFlags irqCommonStub c).reg .esp = c.reg .esp - 52 := by
  show (c.pushAll c.saved.reverse).reg .esp - 4 = _
  rw [esp_pushAll_saved]
  grind

/-- The argument is where the registers have been pushed. -/
theorem stacked_irqCommonStub (h : Stacked m₀ len c.mem (c.reg .esp) ws)
    (hroom : 52 + 4 * ws.length + len ≤ 2 ^ 32) :
    Stacked m₀ len (execAll addFlags irqCommonStub c).mem
      ((execAll addFlags irqCommonStub c).reg .esp) ((c.reg .esp - 48) :: (c.saved ++ ws)) := by
  have hlength : c.saved.length = 12 := rfl
  have hsaved : Stacked m₀ len (c.pushAll c.saved.reverse).mem _ (c.saved.reverse.reverse ++ ws) :=
    stacked_pushAll h (by rw [List.length_reverse, hlength]; omega)
  rw [List.reverse_reverse] at hsaved
  rw [← esp_pushAll_saved]
  exact stacked_push hsaved (by rw [List.length_append, hlength]; omega) _

/-- Below the frame there are its address and the return address. -/
theorem stacked_atHandler (hroom : 76 + len ≤ 2 ^ 32) :
    Stacked c.mem len (atHandler addFlags gate line ret c).mem
      ((atHandler addFlags gate line ret c).reg .esp)
      (ret :: (c.reg .esp - 68) :: frame c line) := by
  have hentered : (entered c line).length = 5 := rfl
  have hframe : (frame c line).length = 17 := rfl
  have hstub : Stacked c.mem len (execAll addFlags (irqStub line) (c.enter gate)).mem _ _ :=
    stacked_irqStub (by omega)
  have hcommon : Stacked c.mem len (execAll addFlags irqCommonStub
      (execAll addFlags (irqStub line) (c.enter gate))).mem _ _ :=
    stacked_irqCommonStub hstub (by rw [hentered]; omega)
  rw [saved_irqStub, esp_irqStub, show c.reg .esp - 20 - 48 = c.reg .esp - 68 by grind] at hcommon
  rw [atHandler, execAll_append]
  exact stacked_push hcommon (by rw [List.length_cons, hframe]; omega) ret

theorem esp_atHandler : (atHandler addFlags gate line ret c).reg .esp = c.reg .esp - 76 := by
  rw [atHandler, execAll_append, push_esp, esp_irqCommonStub, esp_irqStub]
  grind

theorem ss_atHandler : (atHandler addFlags gate line ret c).seg .ss = c.seg .ss := rfl

/-- The argument of a function, at its entry. -/
def argument (c : Cpu) : UInt32 := loadWord c.mem (c.reg .esp + 4)

end Cpu

/-- The structure describes the interrupted code, with the stack pointer that `pusha` found. -/
structure Regs.Describes (r : Regs) (c : Cpu) (line : ℕ) : Prop where
  gs : r.gs = (c.seg .gs).toUInt32
  fs : r.fs = (c.seg .fs).toUInt32
  es : r.es = (c.seg .es).toUInt32
  ds : r.ds = (c.seg .ds).toUInt32
  edi : r.edi = c.reg .edi
  esi : r.esi = c.reg .esi
  ebp : r.ebp = c.reg .ebp
  esp : r.esp = c.reg .esp - 20
  ebx : r.ebx = c.reg .ebx
  edx : r.edx = c.reg .edx
  ecx : r.ecx = c.reg .ecx
  eax : r.eax = c.reg .eax
  intNo : r.intNo = UInt32.ofNat (32 + line)
  errCode : r.errCode = 0
  eip : r.eip = c.eip
  cs : r.cs = (c.seg .cs).toUInt32
  eflags : r.eflags = c.eflags

namespace Cpu

variable {addFlags : Cpu → UInt32} {gate : IdtEntry} {c x : Cpu} {m m₀ : WordMem} {r : UInt32}
  {vs ws : List UInt32} {line len : ℕ} {ret : UInt32}

/-- The offsets of `struct regs` are those of the words. -/
theorem describes_of_frame (h : Stacked m₀ len m r (frame c line)) :
    (Regs.at m r).Describes c line where
  gs := h.1
  fs := h.load (k := 1) rfl
  es := h.load (k := 2) rfl
  ds := h.load (k := 3) rfl
  edi := h.load (k := 4) rfl
  esi := h.load (k := 5) rfl
  ebp := h.load (k := 6) rfl
  esp := h.load (k := 7) rfl
  ebx := h.load (k := 8) rfl
  edx := h.load (k := 9) rfl
  ecx := h.load (k := 10) rfl
  eax := h.load (k := 11) rfl
  intNo := h.load (k := 12) rfl
  errCode := h.load (k := 13) rfl
  eip := h.load (k := 14) rfl
  cs := h.load (k := 15) rfl
  eflags := h.load (k := 16) rfl

/-- **The structure** that `irq_handler` is given. -/
theorem describes_atHandler (hroom : 76 + len ≤ 2 ^ 32) :
    (Regs.at (atHandler addFlags gate line ret c).mem
      (atHandler addFlags gate line ret c).argument).Describes c line := by
  have hstack : Stacked c.mem len (atHandler addFlags gate line ret c).mem _ _ :=
    stacked_atHandler hroom
  have hargument : (atHandler addFlags gate line ret c).argument = c.reg .esp - 68 := hstack.2.1
  have hframe := hstack.2.2
  rw [esp_atHandler, show c.reg .esp - 76 + 4 + 4 = c.reg .esp - 68 by grind, ← hargument] at hframe
  exact describes_of_frame hframe

/-- **The way back**: what is restored from a frame, whatever is in the registers. -/
theorem afterHandler_of_frame (h : Stacked c.mem len x.mem (x.reg .esp + 4) (frame c line))
    (hesp : x.reg .esp = c.reg .esp - 72) (hss : x.seg .ss = c.seg .ss) :
    (afterHandler addFlags x).reg = c.reg ∧ (afterHandler addFlags x).seg = c.seg ∧
      (afterHandler addFlags x).eip = c.eip ∧ (afterHandler addFlags x).eflags = c.eflags ∧
      ∀ i < len, (afterHandler addFlags x).mem (c.reg .esp + UInt32.ofNat i) =
        c.mem (c.reg .esp + UInt32.ofNat i) := by
  obtain ⟨hgs, hfs, hes, hds, hedi, hesi, hebp, -, hebx, hedx, hecx, heax, -, -, heip, hcs, heflags,
    hstack⟩ := h
  -- the two words that `add` takes off
  have hadd : ∀ a : UInt32, a + 8 = a + 4 + 4 := fun a ↦ (UInt32.add_assoc a 4 4).symm
  have hselector : ∀ s : UInt16, s.toUInt32.toUInt16 = s := fun s ↦ UInt16.toUInt16_toUInt32 s
  refine ⟨funext fun r ↦ ?_, funext fun s ↦ ?_, ?_, ?_, ?_⟩
  · cases r with
    | eax => exact heax
    | ecx => exact hecx
    | edx => exact hedx
    | ebx => exact hebx
    | esp =>
      show x.reg .esp + 4 + 4 + 4 + 4 + 4 + 4 + 4 + 4 + 4 + 4 + 4 + 4 + 4 + 8 + 4 + 4 + 4 =
        c.reg .esp
      grind
    | ebp => exact hebp
    | esi => exact hesi
    | edi => exact hedi
  · cases s with
    | cs =>
      have hpopped : (afterHandler addFlags x).seg .cs = (c.seg .cs).toUInt32.toUInt16 :=
        (congrArg (fun a ↦ (loadWord x.mem (a + 4)).toUInt16) (hadd _)).trans
          (congrArg UInt32.toUInt16 hcs)
      rw [hpopped, hselector]
    | ds => exact (congrArg UInt32.toUInt16 hds).trans (hselector _)
    | es => exact (congrArg UInt32.toUInt16 hes).trans (hselector _)
    | fs => exact (congrArg UInt32.toUInt16 hfs).trans (hselector _)
    | gs => exact (congrArg UInt32.toUInt16 hgs).trans (hselector _)
    | ss => exact hss
  · exact (congrArg (loadWord x.mem) (hadd _)).trans heip
  · exact (congrArg (fun a ↦ loadWord x.mem (a + 4 + 4)) (hadd _)).trans heflags
  · intro i hi
    have hbyte := hstack i hi
    have htop : x.reg .esp + 4 + 4 + 4 + 4 + 4 + 4 + 4 + 4 + 4 + 4 + 4 + 4 + 4 + 4 + 4 + 4 + 4 + 4 =
        c.reg .esp := by grind
    rw [htop] at hbyte
    exact hbyte

/-- **IRQs are invisible.** `irq_handler`, whatever it is, is given the vector and the interrupted
code's registers, except for the stack pointer, which is twenty less; and after `iret` all general
and segment registers, the instruction pointer and the flags are what they were, and the stack from
its top on. -/
theorem irq_invisible (addFlags : Cpu → UInt32) (gate : IdtEntry) (line : Fin 16) (ret : UInt32)
    (c x : Cpu) (len : ℕ) (hroom : 76 + len ≤ 2 ^ 32)
    (hhandler : Cdecl (68 + len) (atHandler addFlags gate line ret c) x) :
    (Regs.at (atHandler addFlags gate line ret c).mem
        (atHandler addFlags gate line ret c).argument).Describes c line ∧
      (afterHandler addFlags x).reg = c.reg ∧ (afterHandler addFlags x).seg = c.seg ∧
      (afterHandler addFlags x).eip = c.eip ∧ (afterHandler addFlags x).eflags = c.eflags ∧
      ∀ i < len, (afterHandler addFlags x).mem (c.reg .esp + UInt32.ofNat i) =
        c.mem (c.reg .esp + UInt32.ofNat i) := by
  have hframe : Stacked c.mem len x.mem (x.reg .esp + 4) (frame c line) := by
    have hstack : Stacked c.mem len (atHandler addFlags gate line ret c).mem _ _ :=
      stacked_atHandler hroom
    have hentry : ∀ a : UInt32, a + 4 + 4 = a + 8 := fun a ↦ UInt32.add_assoc a 4 4
    have hbehind := hstack.2.2
    rw [hentry] at hbehind
    rw [hhandler.esp, hentry]
    exact hbehind.congr hhandler.mem
  have hesp : x.reg .esp = c.reg .esp - 72 := by
    rw [hhandler.esp, esp_atHandler]
    grind
  have hss : x.seg .ss = c.seg .ss := by rw [hhandler.seg, ss_atHandler]
  exact ⟨describes_atHandler hroom, afterHandler_of_frame hframe hesp hss⟩

/-- An interrupted state, with a value of its own in every register. -/
def sample : Cpu where
  reg
    | .eax => 0x11111111
    | .ecx => 0x22222222
    | .edx => 0x33333333
    | .ebx => 0x44444444
    | .esp => 0x9000
    | .ebp => 0x9FFC
    | .esi => 0x66666666
    | .edi => 0x77777777
  seg
    | .cs => 0x08
    | .ds => 0x10
    | .es => 0x18
    | .fs => 0x20
    | .gs => 0x28
    | .ss => 0x30
  eip := 0x1000
  eflags := 0x202
  mem a := a.toUInt8

/-- A handler that overwrites the registers it need not save, the flags, its argument and the word
below its return address, and returns. -/
def returned (c : Cpu) : Cpu :=
  { c.drop with
    reg := fun r ↦
      if r ∈ [Reg.eax, .ecx, .edx] then 0xFFFFFFFF else c.drop.reg r
    eip := c.top
    eflags := 0
    mem := storeWord (storeWord c.mem (c.reg .esp + 4) 0xFFFFFFFF) (c.reg .esp - 4) 0xFFFFFFFF }

theorem cdecl_returned {bytes : ℕ} (hbytes : 12 + bytes ≤ 2 ^ 32) (c : Cpu) :
    Cdecl bytes c c.returned where
  esp := rfl
  saved r hr := by
    have hne : ∀ r ∈ [Reg.ebx, .ebp, .esi, .edi], r ≠ .esp ∧ r ∉ [Reg.eax, .ecx, .edx] := by decide
    exact (if_neg (hne r hr).2).trans (Function.update_of_ne (hne r hr).1 _ _)
  seg := rfl
  eip := rfl
  mem i hi := by
    -- behind the word below the return address, and behind the argument
    have hbelow : c.reg .esp + 8 + UInt32.ofNat i =
        c.reg .esp - 4 + UInt32.ofNat (4 + (8 + i)) := by
      rw [UInt32.ofNat_add, UInt32.ofNat_add, show UInt32.ofNat 4 = 4 from rfl,
        show UInt32.ofNat 8 = 8 from rfl]
      grind
    have hbehind : c.reg .esp + 8 + UInt32.ofNat i = c.reg .esp + 4 + UInt32.ofNat (4 + i) := by
      rw [UInt32.ofNat_add, show UInt32.ofNat 4 = 4 from rfl]
      grind
    show storeWord (storeWord c.mem (c.reg .esp + 4) 0xFFFFFFFF) (c.reg .esp - 4) 0xFFFFFFFF _ = _
    rw [hbelow, storeWord_apply_add (by omega), ← hbelow, hbehind]
    exact storeWord_apply_add (by omega)

/-- The handler of the timer is entered with a stack of one word behind the interrupted code. -/
def timerEntered : Cpu := atHandler (fun _ ↦ 0) ⟨0, 8, 0, 0x8E, 0⟩ 0 0x2000 sample

/-- The timer, with such a handler: three registers and the flags are lost in it, and restored. -/
theorem irq_invisible_timer :
    (Regs.at timerEntered.mem timerEntered.argument).Describes sample 0 ∧
      (∀ r ∈ [Reg.eax, .ecx, .edx], timerEntered.returned.reg r ≠ sample.reg r) ∧
      timerEntered.returned.eflags ≠ sample.eflags ∧
      (afterHandler (fun _ ↦ 0) timerEntered.returned).reg = sample.reg ∧
      (afterHandler (fun _ ↦ 0) timerEntered.returned).seg = sample.seg ∧
      (afterHandler (fun _ ↦ 0) timerEntered.returned).eflags = sample.eflags := by
  obtain ⟨hregs, hreg, hseg, -, heflags, -⟩ := irq_invisible (fun _ ↦ 0) ⟨0, 8, 0, 0x8E, 0⟩ 0
    0x2000 sample timerEntered.returned 4 (by decide) (cdecl_returned (by decide) _)
  refine ⟨hregs, fun r hr ↦ ?_, by decide, hreg, hseg, heflags⟩
  have hlost : timerEntered.returned.reg r = 0xFFFFFFFF := if_pos hr
  have hvalues : ∀ r ∈ [Reg.eax, .ecx, .edx], sample.reg r ≠ 0xFFFFFFFF := by decide
  rw [hlost]
  exact (hvalues r hr).symm

/-- The stack pointer in the structure is not the interrupted one. -/
theorem not_esp_interrupted : ¬ ∀ (addFlags : Cpu → UInt32) (gate : IdtEntry) (line : Fin 16)
    (ret : UInt32) (c : Cpu),
    (Regs.at (atHandler addFlags gate line ret c).mem
      (atHandler addFlags gate line ret c).argument).esp = c.reg .esp := by
  intro h
  have hregs : (Regs.at (atHandler (fun _ ↦ 0) ⟨0, 8, 0, 0x8E, 0⟩ 0 0x2000 sample).mem
      (atHandler (fun _ ↦ 0) ⟨0, 8, 0, 0x8E, 0⟩ 0 0x2000 sample).argument).Describes sample 0 :=
    describes_atHandler (show 76 + 0 ≤ 2 ^ 32 by decide)
  have hesp := hregs.esp.symm.trans (h (fun _ ↦ 0) ⟨0, 8, 0, 0x8E, 0⟩ 0 0x2000 sample)
  exact absurd hesp (by decide)

end Cpu
