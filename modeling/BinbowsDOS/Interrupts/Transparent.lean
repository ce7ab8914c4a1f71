import BinbowsDOS.Foundations.Trace
import BinbowsDOS.Interrupts.InService
import BinbowsDOS.Interrupts.Stub

/-!
# Programs with interrupts

The processor and the interrupt controllers together. Between any two instructions of a program a
line may be served: the processor acknowledges the interrupt, enters the gate of the vector, and the
stub calls `irq_handler`, which calls the handler of the line and ends the interrupt.

`irq_handler` and the handlers are compiled code. They need some stack, and of the rest of memory
they change only what `irq_handler` of the source changes.
-/

/-- The code behind the gates of the lines. -/
structure IrqCode where
  /-- What an addition leaves in the flags. -/
  addFlags : Cpu → UInt32
  /-- `irq_handlers` -/
  table : HandlerTable
  /-- `irq0` to `irq15` -/
  stub : ℕ → UInt32
  /-- The handlers. -/
  effect : UInt32 → IrqState → IrqState → Prop
  /-- The bytes of stack that `irq_handler` needs. -/
  depth : ℕ

/-- The processor and the controllers. -/
structure Board where
  cpu : Cpu
  pics : Pics
  idt : UInt8 → IdtEntry
  printed : List (List UInt8)

/-- Memory by natural numbers. -/
def WordMem.bytes (m : WordMem) : ByteMem := fun a ↦ m (UInt32.ofNat a)

theorem bytes_toNat (m : WordMem) (a : UInt32) : m.bytes a.toNat = m a :=
  congrArg m UInt32.ofNat_toNat

namespace Cpu

/-- The bytes that lie up to `n` below the stack pointer. -/
def below (c : Cpu) (n : ℕ) : Set UInt32 := {a | 2 ^ 32 - n ≤ (a - c.reg .esp).toNat}

/-- A function of the C calling convention with one argument, from its entry to its return. It
leaves `mem'` behind, but for its stack, its return address and its argument. -/
structure Called (depth : ℕ) (mem' : ByteMem) (c c' : Cpu) : Prop where
  esp : c'.reg .esp = c.reg .esp + 4
  saved : ∀ r ∈ [Reg.ebx, .ebp, .esi, .edi], c'.reg r = c.reg r
  seg : c'.seg = c.seg
  eip : c'.eip = c.top
  mem : ∀ a, (a - (c.reg .esp + 8)).toNat < 2 ^ 32 - (8 + depth) → c'.mem a = mem' a.toNat

end Cpu

open Cpu

/-- `irq_handler` and the handlers leave the command ports alone, and change no gate and only their
own bytes. -/
structure IrqCode.Lawful (k : IrqCode) (own : Set UInt32) : Prop where
  obeys : Obeys k.effect
  idt : ∀ handler u u', k.effect handler u u' → u'.idt = u.idt
  frame : ∀ handler u u', k.effect handler u u' → ∀ a ∉ own, u'.mem a.toNat = u.mem a.toNat
  depth : 76 + k.depth ≤ 2 ^ 32
  stub : Set.InjOn k.stub (Set.Iio 16)

/-- An interrupt with this vector. -/
def IrqCode.Serves (k : IrqCode) (vector : UInt8) (s s' : Board) : Prop :=
  s.cpu.eflags &&& 0x200 ≠ 0 ∧ s.pics.acknowledge.2 = vector ∧
    ∃ line < 16, (s.idt vector).offset = (k.stub line).toNat ∧ ∃ ret x u,
      let entry := atHandler k.addFlags (s.idt vector) line ret s.cpu
      IrqHandler k.table k.effect (Regs.at entry.mem entry.argument).intNo
        ⟨s.pics.acknowledge.1, s.idt, WordMem.bytes entry.mem, s.printed⟩ u ∧
      Called k.depth u.mem entry x ∧
      s' = ⟨afterHandler k.addFlags x, u.pics, u.idt, u.printed⟩

/-- After `irq_install`: the controllers are configured and idle, the gates lead to the stubs. -/
structure Board.Installed (k : IrqCode) (s : Board) : Prop where
  configured : s.pics.Configured
  idle : s.pics.Idle
  gates : ∀ line < 16, (s.idt (UInt8.ofNat (32 + line))).offset = (k.stub line).toNat

/-- This is the interrupt system of the machine. -/
structure Board.Holds (s : Board) (u : IrqState) : Prop where
  pics : s.pics = u.pics
  idt : s.idt = u.idt
  mem : ∀ a, s.cpu.mem a = u.mem a.toNat

/-! ### One interrupt -/

section Interrupt

variable {k : IrqCode} {own : Set UInt32} {vector : UInt8} {s s' : Board} {c x : Cpu}
  {gate : IdtEntry} {line n : ℕ} {ret a : UInt32} {m : ByteMem}

/-- The vectors of the lines. -/
theorem exists_vector (hs : s.pics.Configured) :
    ∃ line < 16, s.pics.acknowledge.2 = UInt8.ofNat (32 + line) := by
  have hmaster : ∀ k < 8, (0x20 : UInt8) + UInt8.ofNat k = UInt8.ofNat (32 + k) := by decide
  have hslave : ∀ k < 8, (0x28 : UInt8) + UInt8.ofNat k = UInt8.ofNat (32 + (8 + k)) := by decide
  have hlt := Pics.acknowledge_snd_lt s.pics.master s.pics.requests
  have hlt' := Pics.acknowledge_snd_lt s.pics.slave s.pics.slave.irr
  rw [Pics.acknowledge]
  dsimp only
  split_ifs
  · refine ⟨8 + (s.pics.slave.acknowledge s.pics.slave.irr).2, by omega, ?_⟩
    rw [hs.slave_base]
    exact hslave _ hlt'
  · refine ⟨(s.pics.master.acknowledge s.pics.requests).2, by omega, ?_⟩
    rw [hs.master_base]
    exact hmaster _ hlt

theorem installed_of_boot {s₀ u : IrqState} (hboot : u.idt = (irqInstall k.stub s₀).idt)
    (hpics : Pics.Quiet (irqInstall k.stub s₀).pics u.pics) (hs : s.Holds u) : s.Installed k := by
  obtain ⟨hconfigured, hidle⟩ : (irqInstall k.stub s₀).pics.Configured ∧
      (irqInstall k.stub s₀).pics.Idle := idle_of_run (t := k.table) .refl
  obtain ⟨hconfigured', hmaster, hslave⟩ := hpics.keeps hconfigured
  refine ⟨?_, ?_, fun line hline ↦ ?_⟩
  · rwa [hs.pics]
  · rw [hs.pics]
    exact ⟨hmaster.trans hidle.1, hslave.trans hidle.2⟩
  · rw [hs.idt, hboot]
    exact irqGates_apply (le_refl 16) hline

/-- The gate of a vector leads to one stub. -/
theorem line_of_gate (hs : s.Installed k) (hstub : Set.InjOn k.stub (Set.Iio 16)) {i : ℕ}
    (hi : i < 16) (hline : line < 16)
    (hgate : (s.idt (UInt8.ofNat (32 + i))).offset = (k.stub line).toNat) : line = i := by
  rw [hs.gates i hi] at hgate
  exact hstub hline hi (UInt32.toNat_inj.1 hgate.symm)

theorem below_mono {n' : ℕ} (h : n ≤ n') : c.below n ⊆ c.below n' := by
  intro a (ha : 2 ^ 32 - n ≤ (a - c.reg .esp).toNat)
  show 2 ^ 32 - n' ≤ (a - c.reg .esp).toNat
  omega

/-- Nothing but the bytes below the stack pointer is written on the way in. -/
theorem mem_atHandler {addFlags : Cpu → UInt32} (ha : a ∉ c.below 76) :
    (atHandler addFlags gate line ret c).mem a = c.mem a := by
  have hlt : (a - c.reg .esp).toNat < 2 ^ 32 - 76 := not_le.1 ha
  have hstack : Stacked c.mem (2 ^ 32 - 76) (atHandler addFlags gate line ret c).mem _ _ :=
    stacked_atHandler (by decide)
  have hbyte := hstack.behind hlt
  have hlength : 4 * (ret :: (c.reg .esp - 68) :: frame c line).length = 76 := rfl
  have haddr : c.reg .esp - 76 + UInt32.ofNat (76 + (a - c.reg .esp).toNat) = a := by
    rw [UInt32.ofNat_add, UInt32.ofNat_toNat]
    show c.reg .esp - 76 + (76 + (a - c.reg .esp)) = a
    grind
  rwa [hlength, esp_atHandler, haddr] at hbyte

theorem Called.bytes (h : Called k.depth m (atHandler k.addFlags gate line ret c) x)
    (hdepth : 76 + k.depth ≤ 2 ^ 32) (ha : a ∉ c.below (76 + k.depth)) :
    x.mem a = m a.toNat := by
  have hlt : (a - c.reg .esp).toNat < 2 ^ 32 - (76 + k.depth) := not_le.1 ha
  refine h.mem a ?_
  have haddr : a - (c.reg .esp - 76 + 8) = a - c.reg .esp + 68 := by grind
  rw [esp_atHandler, haddr, UInt32.toNat_add, show (68 : UInt32).toNat = 68 from rfl]
  omega

/-- The frame lies below the stack pointer of the program. -/
theorem frame_mem_below {i : ℕ} (hi : i < 76) (hdepth : 76 + k.depth ≤ 2 ^ 32) :
    c.reg .esp - 76 + UInt32.ofNat i ∈ c.below (76 + k.depth) := by
  show 2 ^ 32 - (76 + k.depth) ≤ (c.reg .esp - 76 + UInt32.ofNat i - c.reg .esp).toNat
  have haddr : c.reg .esp - 76 + UInt32.ofNat i - c.reg .esp = UInt32.ofNat i - 76 := by grind
  rw [haddr, UInt32.toNat_sub, UInt32.toNat_ofNat', show (76 : UInt32).toNat = 76 from rfl]
  omega

/-- The frame is still there when `irq_handler` returns. -/
theorem Called.frame (hk : k.Lawful own) (hown : ∀ a ∈ c.below (76 + k.depth), a ∉ own)
    (h : Called k.depth m (atHandler k.addFlags gate line ret c) x)
    (hm : ∀ a ∉ own, m a.toNat = (atHandler k.addFlags gate line ret c).mem a) :
    Stacked c.mem 0 x.mem (x.reg .esp + 4) (frame c line) := by
  have hdepth := hk.depth
  have hstack : Stacked c.mem 0 (atHandler k.addFlags gate line ret c).mem _ _ :=
    stacked_atHandler (by decide)
  have hbehind := hstack.2.2
  have hentry : c.reg .esp - 76 + 4 + 4 = c.reg .esp - 76 + 8 := by grind
  have hlength : (Cpu.frame c line).length = 17 := rfl
  rw [esp_atHandler, hentry] at hbehind
  rw [h.esp, esp_atHandler, hentry]
  refine hbehind.congr fun i hi ↦ ?_
  have haddr : c.reg .esp - 76 + 8 + UInt32.ofNat i = c.reg .esp - 76 + UInt32.ofNat (8 + i) := by
    rw [UInt32.ofNat_add, ← UInt32.add_assoc]
    rfl
  have hbelow : c.reg .esp - 76 + UInt32.ofNat (8 + i) ∈ c.below (76 + k.depth) :=
    frame_mem_below (by omega) hdepth
  rw [haddr, ← hm _ (hown _ hbelow), ← haddr]
  refine h.mem _ ?_
  have hoffset : c.reg .esp - 76 + 8 + UInt32.ofNat i - (c.reg .esp - 76 + 8) = UInt32.ofNat i := by
    grind
  rw [esp_atHandler, hoffset, UInt32.toNat_ofNat']
  omega

/-- `irq_handler` of the source. -/
theorem IrqHandler.spec {t : HandlerTable} {intNo : UInt32} {s u : IrqState}
    (hk : k.Lawful own) (h : IrqHandler t k.effect intNo s u) :
    u.idt = s.idt ∧ ∀ a ∉ own, u.mem a.toNat = s.mem a.toNat := by
  obtain ⟨v, hcall, rfl⟩ := h
  split at hcall
  · exact ⟨hk.idt _ _ v hcall, hk.frame _ _ v hcall⟩
  · rw [hcall]
    exact ⟨rfl, fun _ _ ↦ rfl⟩

/-- The stub gives `irq_handler` the vector of the interrupt. -/
theorem IrqCode.Serves.exists_entry (hk : k.Lawful own) (hs : s.Installed k)
    (h : k.Serves vector s s') : ∃ gate line ret x u,
      IrqHandler k.table k.effect vector.toUInt32 ⟨s.pics.acknowledge.1, s.idt,
        WordMem.bytes (atHandler k.addFlags gate line ret s.cpu).mem, s.printed⟩ u ∧
      Interrupt k.table ⟨s.pics, s.idt,
        WordMem.bytes (atHandler k.addFlags gate line ret s.cpu).mem, s.printed⟩ u ∧
      Called k.depth u.mem (atHandler k.addFlags gate line ret s.cpu) x ∧
      s' = ⟨afterHandler k.addFlags x, u.pics, u.idt, u.printed⟩ := by
  obtain ⟨-, hvector, line, hline, hgate, ret, x, u, hhandler, hcalled, rfl⟩ := h
  obtain ⟨i, hi, hi'⟩ := exists_vector hs.configured
  rw [hvector] at hi'
  rw [hi'] at hgate
  obtain rfl := line_of_gate hs hk.stub hi hline hgate
  have hregs : (Regs.at (atHandler k.addFlags (s.idt vector) line ret s.cpu).mem
      (atHandler k.addFlags (s.idt vector) line ret s.cpu).argument).Describes s.cpu line :=
    describes_atHandler (show 76 + 0 ≤ 2 ^ 32 by decide)
  have hword : UInt32.ofNat (32 + line) = vector.toUInt32 := by
    rw [hi', ← UInt32.toNat_inj, UInt32.toNat_ofNat', UInt8.toNat_toUInt32, UInt8.toNat_ofNat']
    omega
  rw [hregs.intNo, hword] at hhandler
  refine ⟨s.idt vector, line, ret, x, u, hhandler, ⟨k.effect, hk.obeys, ?_⟩, hcalled, rfl⟩
  rwa [hvector]

/-- **One interrupt**: what it leaves to the program, and what the handlers do. -/
theorem IrqCode.Serves.spec (hk : k.Lawful own) (hs : s.Installed k)
    (hown : ∀ a ∈ s.cpu.below (76 + k.depth), a ∉ own) (h : k.Serves vector s s') :
    s'.Installed k ∧ s'.idt = s.idt ∧ s'.cpu.reg = s.cpu.reg ∧ s'.cpu.seg = s.cpu.seg ∧
      s'.cpu.eip = s.cpu.eip ∧ s'.cpu.eflags = s.cpu.eflags ∧
      ∃ before after, IrqHandler k.table k.effect vector.toUInt32 before after ∧
        ∀ a ∉ s.cpu.below (76 + k.depth), before.mem a.toNat = s.cpu.mem a ∧
          s'.cpu.mem a = after.mem a.toNat ∧ (a ∉ own → s'.cpu.mem a = s.cpu.mem a) := by
  obtain ⟨gate, line, ret, x, u, hhandler, hinterrupt, hcalled, rfl⟩ := h.exists_entry hk hs
  obtain ⟨hidt, hmem⟩ := IrqHandler.spec hk hhandler
  obtain ⟨hconfigured, hidle⟩ := hinterrupt.idle hs.configured hs.idle
  have hentry : ∀ a ∉ own, u.mem a.toNat = (atHandler k.addFlags gate line ret s.cpu).mem a := by
    intro a ha
    rw [hmem a ha]
    exact bytes_toNat (atHandler k.addFlags gate line ret s.cpu).mem a
  have hframe := Called.frame hk hown hcalled hentry
  have hesp : x.reg .esp = s.cpu.reg .esp - 72 := by
    rw [hcalled.esp, esp_atHandler]
    grind
  have hss : x.seg .ss = s.cpu.seg .ss := by rw [hcalled.seg, ss_atHandler]
  obtain ⟨hreg, hseg, heip, heflags, -⟩ := afterHandler_of_frame hframe hesp hss
  refine ⟨⟨hconfigured, hidle, fun i hi ↦ ?_⟩, hidt, hreg, hseg, heip, heflags, _, u, hhandler,
    fun a ha ↦ ?_⟩
  · dsimp only
    rw [hidt]
    exact hs.gates i hi
  · have hafter : x.mem a = u.mem a.toNat := Called.bytes hcalled hk.depth ha
    have hbefore : (atHandler k.addFlags gate line ret s.cpu).mem a = s.cpu.mem a :=
      mem_atHandler fun h ↦ ha (below_mono (Nat.le_add_right 76 _) h)
    exact ⟨(bytes_toNat _ a).trans hbefore, hafter, fun hnot ↦
      hafter.trans ((hentry a hnot).trans hbefore)⟩

end Interrupt

/-! ### Programs -/

/-- The processor in a state that a program cannot tell from `c`. -/
structure Cpu.Alike (live : Cpu → Set UInt32) (c d : Cpu) : Prop where
  reg : d.reg = c.reg
  seg : d.seg = c.seg
  eip : d.eip = c.eip
  eflags : d.eflags = c.eflags
  mem : ∀ a ∈ live c, d.mem a = c.mem a

/-- A program that keeps its stack pointer above what it still needs, and leaves the bytes of the
handlers alone. What it may read before it writes it is live. -/
structure Program (own : Set UInt32) (depth : ℕ) where
  step : Cpu → Cpu → Prop
  inv : Cpu → Prop
  live : Cpu → Set UInt32
  inv_alike : ∀ {c d}, inv c → c.Alike live d → inv d
  live_alike : ∀ {c d}, inv c → c.Alike live d → live d = live c
  inv_step : ∀ {c c'}, inv c → step c c' → inv c'
  step_alike : ∀ {c c' d}, inv c → c.Alike live d → step c c' → ∃ d', step d d' ∧ c'.Alike live d'
  live_own : ∀ {c}, inv c → ∀ a ∈ live c, a ∉ own
  live_below : ∀ {c}, inv c → ∀ a ∈ live c, a ∉ c.below (76 + depth)
  own_below : ∀ {c}, inv c → ∀ a ∈ c.below (76 + depth), a ∉ own
  step_own : ∀ {c c'}, inv c → step c c' → ∀ a ∈ own, c'.mem a = c.mem a

/-- A step of the program, while requests come and go and masks are written, or an interrupt with
its vector. -/
def IrqCode.Step (k : IrqCode) {own : Set UInt32} (p : Program own k.depth) :
    Option UInt8 → Board → Board → Prop
  | none, s, s' => p.step s.cpu s'.cpu ∧ Pics.Quiet s.pics s'.pics ∧ s'.idt = s.idt
  | some vector, s, s' => k.Serves vector s s'

section Program

variable {k : IrqCode} {own : Set UInt32} {p : Program own k.depth} {a : Option UInt8}
  {as : List (Option UInt8)} {s s' : Board} {c c' d : Cpu}

theorem Cpu.Alike.refl (live : Cpu → Set UInt32) (c : Cpu) : c.Alike live c :=
  ⟨rfl, rfl, rfl, rfl, fun _ _ ↦ rfl⟩

/-- An interrupt is none for the program. -/
theorem IrqCode.Serves.alike {vector : UInt8} (hk : k.Lawful own) (hs : s.Installed k)
    (hinv : p.inv s.cpu) (h : k.Serves vector s s') : s.cpu.Alike p.live s'.cpu := by
  obtain ⟨-, -, hreg, hseg, heip, heflags, _, _, -, hmem⟩ := h.spec hk hs (p.own_below hinv)
  exact ⟨hreg, hseg, heip, heflags, fun a ha ↦
    (hmem a (p.live_below hinv a ha)).2.2 (p.live_own hinv a ha)⟩

/-- What holds between two steps. -/
theorem IrqCode.Step.keeps (hk : k.Lawful own) (hs : s.Installed k ∧ p.inv s.cpu)
    (h : k.Step p a s s') : s'.Installed k ∧ p.inv s'.cpu := by
  obtain ⟨hs, hinv⟩ := hs
  cases a with
  | none =>
    obtain ⟨hstep, hquiet, hidt⟩ := h
    obtain ⟨hconfigured, hmaster, hslave⟩ := hquiet.keeps hs.configured
    refine ⟨⟨hconfigured, ⟨hmaster.trans hs.idle.1, hslave.trans hs.idle.2⟩, ?_⟩,
      p.inv_step hinv hstep⟩
    rw [hidt]
    exact hs.gates
  | some vector =>
    exact ⟨(IrqCode.Serves.spec hk hs (p.own_below hinv) h).1,
      p.inv_alike hinv (IrqCode.Serves.alike hk hs hinv h)⟩

/-- Two states that are like a third. -/
theorem Cpu.Alike.euclid (hinv : p.inv c) (h : c.Alike p.live c') (h' : c.Alike p.live d) :
    c'.Alike p.live d := by
  refine ⟨h'.reg.trans h.reg.symm, h'.seg.trans h.seg.symm, h'.eip.trans h.eip.symm,
    h'.eflags.trans h.eflags.symm, fun a ha ↦ ?_⟩
  rw [p.live_alike hinv h] at ha
  exact (h'.mem a ha).trans (h.mem a ha).symm

/-- The steps of the program in a run. -/
def programStep : Option UInt8 → Option Unit
  | none => some ()
  | some _ => none

theorem simulates_program (hk : k.Lawful own) :
    Simulates (k.Step p) (fun _ ↦ p.step) programStep fun s d ↦
      (s.Installed k ∧ p.inv s.cpu) ∧ s.cpu.Alike p.live d := by
  intro a s s' d ⟨hs, halike⟩ hstep
  have hkeeps := IrqCode.Step.keeps hk hs hstep
  cases a with
  | none =>
    obtain ⟨d', hd', halike'⟩ := p.step_alike hs.2 halike hstep.1
    exact ⟨d', ⟨d', hd', rfl⟩, hkeeps, halike'⟩
  | some vector =>
    exact ⟨d, rfl, hkeeps, (IrqCode.Serves.alike hk hs.1 hs.2 hstep).euclid hs.2 halike⟩

/-- **Interrupts are invisible over whole runs.** Wherever a program is interrupted, and by whatever
lines, it ends like a run of as many steps without interrupts: with the same registers, flags and
instruction pointer, and the same bytes where it may still read. -/
theorem interrupts_invisible (hk : k.Lawful own) (hs : s.Installed k) (hinv : p.inv s.cpu)
    (h : Trace (k.Step p) as s s') :
    ∃ d, Trace (fun _ ↦ p.step) (as.filterMap programStep) s.cpu d ∧ s'.cpu.Alike p.live d := by
  obtain ⟨d, htrace, -, halike⟩ :=
    (simulates_program hk).exists_trace h ⟨⟨hs, hinv⟩, .refl p.live s.cpu⟩
  exact ⟨d, htrace, halike⟩

end Program

/-! ### A program that counts on its stack -/

/-- The bytes of the handlers: the table and what lies behind it. -/
def handlerBytes : Set UInt32 := {a | 0x100000 ≤ a.toNat ∧ a.toNat < 0x100200}

/-- `inc dword [esp]` -/
def Cpu.incTop (c : Cpu) : Cpu :=
  { c with mem := storeWord c.mem (c.reg .esp) (loadWord c.mem (c.reg .esp) + 1) }

/-- The bytes at the top of the stack. -/
def Cpu.topBytes (c : Cpu) : Set UInt32 := {a | (a - c.reg .esp).toNat < 4}

theorem incTop_alike {c d : Cpu} (h : c.Alike Cpu.topBytes d) :
    c.incTop.Alike Cpu.topBytes d.incTop := by
  refine ⟨h.reg, h.seg, h.eip, h.eflags, fun a ha ↦ ?_⟩
  have hword : loadWord d.mem (c.reg .esp) = loadWord c.mem (c.reg .esp) := by
    refine loadWord_congr fun i hi ↦ h.mem _ ?_
    show (c.reg .esp + UInt32.ofNat i - c.reg .esp).toNat < 4
    have hoffset : c.reg .esp + UInt32.ofNat i - c.reg .esp = UInt32.ofNat i := by grind
    rw [hoffset, UInt32.toNat_ofNat']
    omega
  have hlt : (a - c.reg .esp).toNat < 4 := ha
  show storeWord d.mem _ _ a = storeWord c.mem _ _ a
  rw [h.reg, hword, storeWord, storeWord, if_pos hlt, if_pos hlt]

section

variable {c : Cpu} {a : UInt32}

theorem topBytes_own (hinv : c.reg .esp = 0x9000) (ha : a ∈ c.topBytes) : a ∉ handlerBytes := by
  intro hown
  have hlt : (a - 0x9000).toNat < 4 := hinv ▸ ha
  rw [UInt32.toNat_sub, show (0x9000 : UInt32).toNat = 0x9000 from rfl] at hlt
  have hrange := hown.1
  have hrange' := hown.2
  omega

theorem topBytes_below (ha : a ∈ c.topBytes) : a ∉ c.below (76 + 0) := by
  intro hbelow
  have hlt : (a - _).toNat < 4 := ha
  have hge : 2 ^ 32 - (76 + 0) ≤ (a - _).toNat := hbelow
  omega

theorem below_own (hinv : c.reg .esp = 0x9000) (hbelow : a ∈ c.below (76 + 0)) :
    a ∉ handlerBytes := by
  intro hown
  have hge : 2 ^ 32 - (76 + 0) ≤ (a - 0x9000).toNat := hinv ▸ hbelow
  rw [UInt32.toNat_sub, show (0x9000 : UInt32).toNat = 0x9000 from rfl] at hge
  have hrange := hown.1
  have hlt := a.toNat_lt
  omega

theorem incTop_own (hinv : c.reg .esp = 0x9000) (hown : a ∈ handlerBytes) :
    c.incTop.mem a = c.mem a := by
  refine storeWord_apply_of_ge ?_
  rw [hinv, UInt32.toNat_sub, show (0x9000 : UInt32).toNat = 0x9000 from rfl]
  have hrange := hown.1
  have hlt := hown.2
  omega

end

/-- `inc dword [esp]`, again and again. -/
def counting : Program handlerBytes 0 where
  step c c' := c' = c.incTop
  inv c := c.reg .esp = 0x9000
  live := Cpu.topBytes
  inv_alike hinv h := h.reg ▸ hinv
  live_alike _ h := congrArg (fun reg : Reg → UInt32 ↦ {a | (a - reg .esp).toNat < 4}) h.reg
  inv_step hinv h := h ▸ hinv
  step_alike _ h hstep := ⟨_, rfl, hstep ▸ incTop_alike h⟩
  live_own hinv _ ha := topBytes_own hinv ha
  live_below _ _ ha := topBytes_below ha
  own_below hinv _ hbelow := below_own hinv hbelow
  step_own hinv hstep _ hown := hstep ▸ incTop_own hinv hown

/-- Stubs behind the second megabyte, and handlers with this effect. -/
def IrqCode.sample (effect : UInt32 → IrqState → IrqState → Prop) : IrqCode where
  addFlags _ := 0
  table := .low
  stub line := 0x200000 + 16 * UInt32.ofNat line
  effect := effect
  depth := 0

/-- The program behind an interrupt system, with interrupts on. -/
def Board.sample (u : IrqState) : Board where
  cpu := { Cpu.sample with mem := fun a ↦ u.mem a.toNat }
  pics := u.pics
  idt := u.idt
  printed := u.printed

theorem lawful_sample {effect : UInt32 → IrqState → IrqState → Prop} (hobeys : Obeys effect)
    (hidt : ∀ handler u u', effect handler u u' → u'.idt = u.idt)
    (hframe : ∀ handler u u', effect handler u u' →
      ∀ a ∉ handlerBytes, u'.mem a.toNat = u.mem a.toNat) :
    (IrqCode.sample effect).Lawful handlerBytes where
  obeys := hobeys
  idt := hidt
  frame := hframe
  depth := show 76 + 0 ≤ 2 ^ 32 by decide
  stub i hi j hj h := by
    have hstubs : ∀ i < 16, ∀ j < 16, (0x200000 : UInt32) + 16 * UInt32.ofNat i =
        0x200000 + 16 * UInt32.ofNat j → i = j := by decide
    exact hstubs i hi j hj h

/-- A function that leaves `m` behind and returns. -/
theorem called_returned (depth : ℕ) (m : ByteMem) (c : Cpu) :
    Called depth m c { c.returned with mem := fun a ↦ m a.toNat } := by
  have hreturned : Cdecl 0 c c.returned := cdecl_returned (by decide) c
  exact ⟨hreturned.esp, hreturned.saved, hreturned.seg, hreturned.eip, fun _ _ ↦ rfl⟩

/-- What an interrupt leaves whose handlers have made `u` of memory. -/
def Board.served (k : IrqCode) (line : ℕ) (u : IrqState) (s : Board) : Board :=
  let entry := atHandler k.addFlags (s.idt (UInt8.ofNat (32 + line))) line 0x300000 s.cpu
  { cpu := afterHandler k.addFlags { entry.returned with mem := fun a ↦ u.mem a.toNat }
    pics := u.pics
    idt := u.idt
    printed := u.printed }

theorem serves_served {k : IrqCode} {line : ℕ} {s : Board} {u : IrqState} (hs : s.Installed k)
    (hline : line < 16) (henabled : s.cpu.eflags &&& 0x200 ≠ 0)
    (hvector : s.pics.acknowledge.2 = UInt8.ofNat (32 + line))
    (hhandler : IrqHandler k.table k.effect (UInt32.ofNat (32 + line)) ⟨s.pics.acknowledge.1, s.idt,
      WordMem.bytes (atHandler k.addFlags (s.idt (UInt8.ofNat (32 + line))) line 0x300000
        s.cpu).mem, s.printed⟩ u) :
    k.Serves (UInt8.ofNat (32 + line)) s (s.served k line u) := by
  have hregs : (Regs.at (atHandler k.addFlags (s.idt (UInt8.ofNat (32 + line))) line 0x300000
      s.cpu).mem (atHandler k.addFlags (s.idt (UInt8.ofNat (32 + line))) line 0x300000
        s.cpu).argument).Describes s.cpu line :=
    describes_atHandler (show 76 + 0 ≤ 2 ^ 32 by decide)
  refine ⟨henabled, hvector, line, hline, hs.gates line hline, 0x300000,
    { (atHandler k.addFlags (s.idt (UInt8.ofNat (32 + line))) line 0x300000 s.cpu).returned with
      mem := fun a ↦ u.mem a.toNat }, u, ?_, ?_, rfl⟩
  · rwa [hregs.intNo]
  · exact called_returned _ _ _

theorem holds_sample (u : IrqState) : (Board.sample u).Holds u := ⟨rfl, rfl, fun _ ↦ rfl⟩

/-- Handlers that do nothing. -/
def IrqCode.silent : IrqCode := .sample fun _ u u' ↦ u' = u

theorem lawful_silent : IrqCode.silent.Lawful handlerBytes := by
  refine lawful_sample (fun _ u u' h ↦ ?_) (fun _ u u' h ↦ ?_) fun _ u u' h a _ ↦ ?_
  · rw [h]
    exact .refl
  · rw [h]
  · rw [h]

theorem irqHandler_silent (intNo : UInt32) (u : IrqState) :
    IrqHandler .low IrqCode.silent.effect intNo u { u with pics := sendEoi intNo u.pics } := by
  refine ⟨u, ?_, rfl⟩
  split
  · rfl
  · rfl

/-- A request of the timer while the program runs. -/
theorem interrupts_invisible_counting : ∃ s' d,
    Trace (IrqCode.silent.Step counting) [none, some 32]
      (Board.sample (irqInstall IrqCode.silent.stub .firmware)) s' ∧
    Trace (fun _ ↦ counting.step) [()]
      (Board.sample (irqInstall IrqCode.silent.stub .firmware)).cpu d ∧
    s'.cpu.Alike counting.live d := by
  let s : Board := .sample (irqInstall IrqCode.silent.stub .firmware)
  have hs : s.Installed .silent := installed_of_boot rfl .refl (holds_sample _)
  have hinv : counting.inv s.cpu := rfl
  let t : Board := { s with
    cpu := { s.cpu with mem := storeWord s.cpu.mem 0x9000 (loadWord s.cpu.mem 0x9000 + 1) }
    pics := ⟨{ s.pics.master with irr := 1 }, { s.pics.slave with irr := 0 }⟩ }
  have hprogram : IrqCode.silent.Step counting none s t := ⟨rfl, .single (.lines 1 0), rfl⟩
  have ht : t.Installed .silent := (IrqCode.Step.keeps lawful_silent ⟨hs, hinv⟩ hprogram).1
  have hserves : IrqCode.silent.Serves (UInt8.ofNat (32 + 0)) t (t.served .silent 0 _) :=
    serves_served ht (by decide) (by decide) (by decide) (irqHandler_silent _ _)
  have htrace : Trace (IrqCode.silent.Step counting) [none, some 32] s (t.served .silent 0 _) :=
    ⟨t, hprogram, _, hserves, rfl⟩
  obtain ⟨d, hd, halike⟩ := interrupts_invisible lawful_silent hs hinv htrace
  exact ⟨_, d, htrace, hd, halike⟩
