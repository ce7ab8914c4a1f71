import BinbowsDOS.Interrupts.Delivery
import Mathlib.Logic.Relation

/-!
# Lines in service

An acknowledged line is in service until its controller gets a command, and keeps back the lines
below it. `irq_handler` gives the command to the master, and to the slave for the upper vectors.
That is what the acknowledgement has made of the two: the master has one line in service, the
cascade if the slave answered, or none if the request was gone; the slave has none unless it
answered, and at most one then (`acknowledge_spec`). So nothing is in service any more when
`irq_handler` returns (`Interrupt.idle`), in runs of any length (`idle_of_run`).

Between two interrupts, and while a handler runs, requests come and go and masks are written. What a
handler does not do is to write a command port or to let itself be interrupted.
-/

open Pics

/-! ### One controller -/

namespace Pic8259

variable {p : Pic8259} {n : ℕ} {requests : UInt8}

/-- At most one line is in service. -/
def Single (p : Pic8259) : Prop := p.isr = 0 ∨ ∃ n < 8, p.isr = withBit 0 n

/-- An end of interrupt leaves nothing in service then. -/
theorem Single.endOfInterrupt (h : p.Single) : p.endOfInterrupt = { p with isr := 0 } := by
  obtain ⟨irr, imr, isr, base, cascade, mode, expects⟩ := p
  rw [Pic8259.endOfInterrupt]
  rcases h with rfl | ⟨n, hn, rfl⟩
  · dsimp only
    rw [lowestBit_zero]
  · obtain ⟨hlowest, hrest⟩ := lowestBit_single n hn
    dsimp only
    rw [hlowest]
    dsimp only
    rw [hrest]

theorem winner_lt (h : p.winner requests = some n) : n < 8 := by
  obtain ⟨hlowest, -⟩ := Option.filter_eq_some_iff.1 h
  exact List.mem_range.1 (List.mem_of_find?_eq_some hlowest)

/-- Of a controller with nothing in service. -/
theorem single_acknowledge (h : p.isr = 0) : (p.acknowledge requests).1.Single := by
  rw [acknowledge]
  cases hwinner : p.winner requests with
  | none => exact .inl h
  | some n =>
    dsimp only
    split_ifs
    · exact .inl h
    · exact .inr ⟨n, winner_lt hwinner, congrArg (withBit · n) h⟩

/-- Nothing is kept back by a controller with nothing in service. -/
theorem winner_of_idle (h : p.isr = 0) : p.winner requests = lowestBit (requests &&& ~~~p.imr) := by
  rw [winner, h]
  cases lowestBit (requests &&& ~~~p.imr) with
  | none => rfl
  | some n => rw [Option.filter_some, if_pos (decide_eq_true fun m _ ↦ bit_zero m)]

end Pic8259

/-! ### Both -/

namespace Pics

variable {s s' : Pics} {n : ℕ}

/-- Nothing is in service. -/
def Idle (s : Pics) : Prop := s.master.isr = 0 ∧ s.slave.isr = 0

/-- What `irq_install` sets for good. -/
structure Configured (s : Pics) : Prop where
  ready : s.Ready
  master_base : s.master.base = 0x20
  slave_base : s.slave.base = 0x28
  cascade : s.master.cascade = 4

/-- What happens between two commands to the controllers: requests come and go, and something is
written to another port. -/
inductive QuietStep : Pics → Pics → Prop
  | lines {s : Pics} (irr₁ irr₂ : UInt8) :
    QuietStep s ⟨{ s.master with irr := irr₁ }, { s.slave with irr := irr₂ }⟩
  | write {s : Pics} {port : ℕ} (data : UInt8) (hmaster : port ≠ pic1Command)
    (hslave : port ≠ pic2Command) : QuietStep s (s.outb port data)

/-- Any number of such steps. -/
def Quiet : Pics → Pics → Prop := Relation.ReflTransGen QuietStep

theorem QuietStep.keeps (h : QuietStep s s') (hs : s.Configured) :
    s'.Configured ∧ s'.master.isr = s.master.isr ∧ s'.slave.isr = s.slave.isr := by
  cases h with
  | lines irr₁ irr₂ => exact ⟨⟨hs.ready, hs.master_base, hs.slave_base, hs.cascade⟩, rfl, rfl⟩
  | @write port data hmaster hslave =>
    by_cases h₁ : port = pic1Data
    · rw [h₁, outb_pic1Data hs.ready]
      exact ⟨⟨hs.ready, hs.master_base, hs.slave_base, hs.cascade⟩, rfl, rfl⟩
    by_cases h₂ : port = pic2Data
    · rw [h₂, outb_pic2Data hs.ready]
      exact ⟨⟨hs.ready, hs.master_base, hs.slave_base, hs.cascade⟩, rfl, rfl⟩
    rw [outb, if_neg hmaster, if_neg h₁, if_neg hslave, if_neg h₂]
    exact ⟨hs, rfl, rfl⟩

/-- While no command is given, what is in service stays so. -/
theorem Quiet.keeps (h : Quiet s s') (hs : s.Configured) :
    s'.Configured ∧ s'.master.isr = s.master.isr ∧ s'.slave.isr = s.slave.isr := by
  induction h with
  | refl => exact ⟨hs, rfl, rfl⟩
  | tail _ hstep ih =>
    obtain ⟨hconfigured, hmaster, hslave⟩ := ih
    obtain ⟨hconfigured', hmaster', hslave'⟩ := hstep.keeps hconfigured
    exact ⟨hconfigured', hmaster'.trans hmaster, hslave'.trans hslave⟩

theorem acknowledge_config (p : Pic8259) (requests : UInt8) :
    (p.acknowledge requests).1.base = p.base ∧ (p.acknowledge requests).1.cascade = p.cascade ∧
      (p.acknowledge requests).1.expects = p.expects := by
  rw [Pic8259.acknowledge]
  split
  · exact ⟨rfl, rfl, rfl⟩
  · exact ⟨rfl, rfl, rfl⟩

theorem acknowledge_snd_lt (p : Pic8259) (requests : UInt8) : (p.acknowledge requests).2 < 8 := by
  rw [Pic8259.acknowledge]
  cases hwinner : p.winner requests with
  | none => exact Nat.lt_succ_self 7
  | some n => exact Pic8259.winner_lt hwinner

theorem acknowledge_snd {p : Pic8259} {requests : UInt8} (h : p.winner requests = some n) :
    (p.acknowledge requests).2 = n := by
  rw [Pic8259.acknowledge, h]

/-- **An acknowledgement** while nothing is in service: each controller has at most one line in
service then, and the slave has none if the vector is not one of its own. -/
theorem acknowledge_spec (hs : s.Configured) (h : s.Idle) :
    s.acknowledge.1.Configured ∧ s.acknowledge.1.master.Single ∧ s.acknowledge.1.slave.Single ∧
      (s.acknowledge.2 < 40 → s.acknowledge.1.slave.isr = 0) := by
  obtain ⟨hbase, hcascade, hexpects⟩ := acknowledge_config s.master s.requests
  obtain ⟨hbase', -, hexpects'⟩ := acknowledge_config s.slave s.slave.irr
  have hsingle : (s.master.acknowledge s.requests).1.Single := Pic8259.single_acknowledge h.1
  rw [acknowledge]
  dsimp only
  split_ifs
  · refine ⟨⟨⟨hexpects.trans hs.ready.1, hexpects'.trans hs.ready.2⟩, hbase.trans hs.master_base,
      hbase'.trans hs.slave_base, hcascade.trans hs.cascade⟩, hsingle,
      Pic8259.single_acknowledge h.2, fun hlow ↦ ?_⟩
    have hvector : ∀ k < 8, ¬ (0x28 : UInt8) + UInt8.ofNat k < 40 := by decide
    rw [hs.slave_base] at hlow
    exact absurd hlow (hvector _ (acknowledge_snd_lt s.slave s.slave.irr))
  · exact ⟨⟨⟨hexpects.trans hs.ready.1, hs.ready.2⟩, hbase.trans hs.master_base, hs.slave_base,
      hcascade.trans hs.cascade⟩, hsingle, .inl h.2, fun _ ↦ h.2⟩

theorem winner_alone_slave (hn : n < 16) (hn' : 8 ≤ n) (hmask : s.maskBit n = false) :
    (s.alone n).slave.winner (s.alone n).slave.irr = some (n - 8) := by
  have hslave : ¬ n < 8 := Nat.not_lt.2 hn'
  have hirr : (s.alone n).slave.irr = withBit 0 (n - 8) := if_neg hslave
  rw [maskBit, if_neg hslave] at hmask
  rw [hirr, winner_single rfl (by omega)]
  show (if bit s.slave.imr (n - 8) then none else some (n - 8)) = some (n - 8)
  rw [hmask]
  rfl

/-- **The vector of a request** is 32 more than its line. Line 2 has none of its own. -/
theorem vector_alone (hs : s.Configured) (hn : n < 16) (hn₂ : n ≠ 2)
    (hintr : (s.alone n).intr = true) : (s.alone n).acknowledge.2 = UInt8.ofNat (32 + n) := by
  obtain ⟨hmask, hcascade⟩ := (intr_alone_iff hn).1 hintr
  rcases Nat.lt_or_ge n 8 with hmaster | hslave
  · have hwinner : (s.alone n).master.winner (s.alone n).requests = some n := by
      rw [requests_alone_of_lt hmaster, winner_single rfl hmaster]
      rw [maskBit, if_pos hmaster] at hmask
      show (if bit s.master.imr n then none else some n) = some n
      rw [hmask]
      rfl
    have hline : ∀ k < 8, k ≠ 2 → bit 4 k = false := by decide
    have hown : (some n).any (bit (s.alone n).master.cascade) = false := by
      show bit s.master.cascade n = false
      rw [hs.cascade, hline n hmaster hn₂]
    rw [acknowledge, hwinner, hown]
    show s.master.base + UInt8.ofNat ((s.alone n).master.acknowledge (s.alone n).requests).2 = _
    rw [hs.master_base, acknowledge_snd hwinner, UInt8.ofNat_add]
    rfl
  · have hwinner : (s.alone n).master.winner (s.alone n).requests = some 2 := by
      have hopen := hcascade hslave
      rw [maskBit, if_pos (show 2 < 8 by decide)] at hopen
      rw [requests_alone_of_ge hn hslave, hmask, if_neg Bool.false_ne_true,
        winner_single rfl (by decide)]
      show (if bit s.master.imr 2 then none else some 2) = some 2
      rw [hopen]
      rfl
    have hother : (some 2).any (bit (s.alone n).master.cascade) = true := by
      show bit s.master.cascade 2 = true
      rw [hs.cascade]
      rfl
    rw [acknowledge, hwinner, hother]
    show s.slave.base + UInt8.ofNat ((s.alone n).slave.acknowledge (s.alone n).slave.irr).2 = _
    rw [hs.slave_base, acknowledge_snd (winner_alone_slave hn hslave hmask)]
    obtain ⟨k, rfl⟩ := Nat.exists_eq_add_of_le hslave
    rw [Nat.add_sub_cancel_left, ← Nat.add_assoc, UInt8.ofNat_add]
    rfl

/-- The end of `irq_handler` after an acknowledgement. -/
theorem sendEoi_spec {vector : UInt8} (hs : s.Configured) (hmaster : s.master.Single)
    (hslave : s.slave.Single) (hlow : vector < 40 → s.slave.isr = 0) :
    (sendEoi vector.toUInt32 s).Configured ∧ (sendEoi vector.toUInt32 s).Idle := by
  have hcommand₁ : ∀ s : Pics, s.outb 0x20 0x20 = { s with master := s.master.endOfInterrupt } :=
    fun _ ↦ rfl
  have hcommand₂ : s.outb 0xA0 0x20 = { s with slave := s.slave.endOfInterrupt } := rfl
  rw [sendEoi]
  split_ifs with hupper
  · rw [hcommand₂, hcommand₁]
    dsimp only
    rw [hmaster.endOfInterrupt, hslave.endOfInterrupt]
    exact ⟨⟨hs.ready, hs.master_base, hs.slave_base, hs.cascade⟩, rfl, rfl⟩
  · rw [hcommand₁, hmaster.endOfInterrupt]
    refine ⟨⟨hs.ready, hs.master_base, hs.slave_base, hs.cascade⟩, rfl, hlow ?_⟩
    exact UInt8.not_le.1 fun h ↦ hupper (UInt8.toUInt32_le.2 h)

end Pics

/-! ### Runs -/

section Run

variable {t : HandlerTable} {stub : ℕ → UInt32} {s s' s₀ : IrqState}

/-- A handler that leaves the command ports alone and interrupts off. -/
def Obeys (effect : UInt32 → IrqState → IrqState → Prop) : Prop :=
  ∀ handler u u', effect handler u u' → Quiet u.pics u'.pics

/-- An interrupt: the processor acknowledges it and enters the stub of the vector, which calls
`irq_handler`. -/
def Interrupt (t : HandlerTable) (s s' : IrqState) : Prop :=
  ∃ effect, Obeys effect ∧
    IrqHandler t effect s.pics.acknowledge.2.toUInt32 { s with pics := s.pics.acknowledge.1 } s'

/-- What happens after `irq_install`, other code first. -/
inductive IrqStep (t : HandlerTable) : IrqState → IrqState → Prop
  | quiet {s s' : IrqState} (h : Quiet s.pics s'.pics) : IrqStep t s s'
  | interrupt {s s' : IrqState} (h : Interrupt t s s') : IrqStep t s s'

/-- **One interrupt** leaves nothing in service. -/
theorem Interrupt.idle (h : Interrupt t s s') (hs : s.pics.Configured) (hidle : s.pics.Idle) :
    s'.pics.Configured ∧ s'.pics.Idle := by
  obtain ⟨effect, hobeys, u, hcall, rfl⟩ := h
  obtain ⟨hconfigured, hmaster, hslave, hlow⟩ := acknowledge_spec hs hidle
  have hquiet : Quiet s.pics.acknowledge.1 u.pics := by
    split at hcall
    · exact hobeys _ _ _ hcall
    · rw [hcall]
      exact .refl
  obtain ⟨hconfigured', hmaster', hslave'⟩ := hquiet.keeps hconfigured
  refine sendEoi_spec hconfigured' ?_ ?_ fun hvector ↦ hslave'.trans (hlow hvector)
  · rwa [Pic8259.Single, hmaster']
  · rwa [Pic8259.Single, hslave']

theorem IrqStep.idle (h : IrqStep t s s') (hs : s.pics.Configured) (hidle : s.pics.Idle) :
    s'.pics.Configured ∧ s'.pics.Idle := by
  cases h with
  | quiet h =>
    obtain ⟨hconfigured, hmaster, hslave⟩ := h.keeps hs
    exact ⟨hconfigured, hmaster.trans hidle.1, hslave.trans hidle.2⟩
  | interrupt h => exact h.idle hs hidle

/-- After `irq_install` and any run. -/
theorem idle_of_run (hrun : Relation.ReflTransGen (IrqStep t) (irqInstall stub s₀) s) :
    s.pics.Configured ∧ s.pics.Idle := by
  induction hrun with
  | refl =>
    rw [pics_irqInstall, picRemap_eq]
    exact ⟨⟨⟨rfl, rfl⟩, rfl, rfl, rfl⟩, rfl, rfl⟩
  | tail _ hstep ih => exact hstep.idle ih.1 ih.2

/-- **No line is left in service.** Whatever the controllers were before `irq_install`, after every
interrupt of a run nothing is in service, and both controllers serve whatever is requested and not
masked. -/
theorem interrupt_leaves_idle
    (hrun : Relation.ReflTransGen (IrqStep t) (irqInstall stub s₀) s) (h : Interrupt t s s') :
    s'.pics.master.isr = 0 ∧ s'.pics.slave.isr = 0 ∧
      ∀ requests, s'.pics.master.winner requests = lowestBit (requests &&& ~~~s'.pics.master.imr) ∧
        s'.pics.slave.winner requests = lowestBit (requests &&& ~~~s'.pics.slave.imr) := by
  obtain ⟨hs, hidle⟩ := idle_of_run hrun
  obtain ⟨-, hmaster, hslave⟩ := h.idle hs hidle
  exact ⟨hmaster, hslave, fun _ ↦
    ⟨Pic8259.winner_of_idle hmaster, Pic8259.winner_of_idle hslave⟩⟩

/-- A request of the drive on line 14. -/
theorem interrupt_leaves_idle_drive : ∃ s s' : IrqState,
    Relation.ReflTransGen (IrqStep .low) (irqInstall (fun _ ↦ 0) .firmware) s ∧
      s.pics.acknowledge.2 = 46 ∧ Interrupt .low s s' ∧ s'.pics.master.isr = 0 ∧
      s'.pics.slave.isr = 0 := by
  let s : IrqState := { irqInstall (fun _ ↦ 0) .firmware with
    pics := (irqInstall (fun _ ↦ 0) .firmware).pics.alone 14 }
  let s' : IrqState := { s with pics := sendEoi 46 s.pics.acknowledge.1 }
  have hrun : Relation.ReflTransGen (IrqStep .low) (irqInstall (fun _ ↦ 0) .firmware) s :=
    .single (.quiet (.single (.lines 0 (withBit 0 6))))
  have hvector : s.pics.acknowledge.2 = 46 := by
    have hconfigured : (irqInstall (fun _ ↦ 0) .firmware).pics.Configured :=
      (idle_of_run (t := .low) .refl).1
    exact vector_alone hconfigured (by decide) (by decide)
      ((intr_alone_iff (by decide)).2 ⟨rfl, fun _ ↦ rfl⟩)
  have hinterrupt : Interrupt .low s s' := by
    have hnone : calledHandler .low s.mem s.pics.acknowledge.2.toUInt32 = none := by
      rw [hvector]
      rfl
    refine ⟨fun _ _ _ ↦ False, fun _ _ _ h ↦ h.elim,
      { s with pics := s.pics.acknowledge.1 }, ?_, ?_⟩
    · rw [hnone]
    · rw [hvector]
      rfl
  obtain ⟨hmaster, hslave, -⟩ := interrupt_leaves_idle hrun hinterrupt
  exact ⟨s, s', hrun, hvector, hinterrupt, hmaster, hslave⟩

end Run
