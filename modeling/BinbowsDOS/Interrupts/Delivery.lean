import BinbowsDOS.Interrupts.Idt

/-!
# From a line to the processor

A request reaches the processor if its line is not masked; one of the upper eight lines also needs
line 2 of the master, the cascade (`Pics.intr_alone_iff`). `install_irq_handler` clears the mask of
its line and no other, so whether the cascade is open is left to the calls before it
(`IrqCall.maskAfter`), and that is what decides (`IrqCall.installs_iff`).
-/

open Pics

namespace Pics

variable {s : Pics} {k n : ℕ}

/-- The controllers with nothing in service and a request on this line only. -/
def alone (n : ℕ) (s : Pics) : Pics :=
  ⟨{ s.master with irr := if n < 8 then withBit 0 n else 0, isr := 0 },
    { s.slave with irr := if n < 8 then 0 else withBit 0 (n - 8), isr := 0 }⟩

theorem winner_zero (p : Pic8259) : p.winner 0 = none := by
  have hnone : (0 : UInt8) &&& ~~~p.imr = 0 := UInt8.zero_and
  rw [Pic8259.winner, hnone, lowestBit_zero]
  rfl

/-- A single request is served unless it is masked. -/
theorem winner_single {p : Pic8259} (hisr : p.isr = 0) (hn : n < 8) :
    p.winner (withBit 0 n) = if bit p.imr n then none else some n := by
  rw [Pic8259.winner, hisr, withBit_zero_and_not hn]
  split_ifs with hmask
  · rw [lowestBit_zero]
    rfl
  · rw [(lowestBit_single n hn).1, Option.filter_some, if_pos]
    exact decide_eq_true fun m _ ↦ bit_zero m

theorem requests_alone_of_lt (hn : n < 8) : (s.alone n).requests = withBit 0 n := by
  rw [requests, alone, if_pos hn, if_pos hn, winner_zero]
  rfl

/-- The slave asks the master for itself. -/
theorem requests_alone_of_ge (hn : n < 16) (hn' : 8 ≤ n) : (s.alone n).requests =
    if s.maskBit n then 0 else withBit 0 2 := by
  have hslave : ¬ n < 8 := Nat.not_lt.2 hn'
  rw [requests, alone, if_neg hslave, if_neg hslave, winner_single rfl (by omega), maskBit,
    if_neg hslave]
  dsimp only
  cases bit s.slave.imr (n - 8)
  · rfl
  · rfl

/-- **What a request needs** to reach the processor. -/
theorem intr_alone_iff (hn : n < 16) : (s.alone n).intr = true ↔
    s.maskBit n = false ∧ (8 ≤ n → s.maskBit 2 = false) := by
  rw [intr]
  rcases Nat.lt_or_ge n 8 with hmaster | hslave
  · rw [requests_alone_of_lt hmaster, winner_single rfl hmaster, maskBit, if_pos hmaster]
    show (if bit s.master.imr n then none else some n).isSome = true ↔ _
    cases bit s.master.imr n
    · exact iff_of_true rfl ⟨rfl, fun h ↦ absurd hmaster (Nat.not_lt.2 h)⟩
    · exact iff_of_false Bool.false_ne_true fun h ↦ Bool.noConfusion h.1
  · rw [requests_alone_of_ge hn hslave]
    cases s.maskBit n
    · rw [if_neg Bool.false_ne_true, winner_single rfl (by decide), maskBit,
        if_pos (show 2 < 8 by decide)]
      show (if bit s.master.imr 2 then none else some 2).isSome = true ↔ _
      cases bit s.master.imr 2
      · exact iff_of_true rfl ⟨rfl, fun _ ↦ rfl⟩
      · exact iff_of_false Bool.false_ne_true fun h ↦ Bool.noConfusion (h.2 hslave)
    · rw [if_pos rfl, winner_zero]
      exact iff_of_false Bool.false_ne_true fun h ↦ Bool.noConfusion h.1

end Pics

/-- The calls that change a mask. -/
inductive IrqCall
  | install
  | disable
  | setMask (n : Fin 16)
  | clearMask (n : Fin 16)
  | enable (n : Fin 16)
  | installHandler (n : Fin 16) (handler : UInt32)

namespace IrqCall

/-- A line as the argument of `pic.c`. -/
def line (n : Fin 16) : UInt8 := UInt8.ofNat n

/-- One call. -/
def run (t : HandlerTable) (stub : ℕ → UInt32) (s : IrqState) : IrqCall → IrqState
  | install => irqInstall stub s
  | disable => { s with pics := picDisable s.pics }
  | setMask n => { s with pics := irqSetMask (line n) s.pics }
  | clearMask n => { s with pics := irqClearMask (line n) s.pics }
  | enable n => { s with pics := picEnableIrq (line n) s.pics }
  | installHandler n handler => installIrqHandler t (Int32.ofNat n) handler s

/-- Whether a line is masked after a call, if it was or was not before. -/
def maskAfter (k : ℕ) (masked : Bool) : IrqCall → Bool
  | install => false
  | disable => true
  | setMask n => masked || decide (n.val = k)
  | clearMask n => masked && !decide (n.val = k)
  | enable n => masked && !decide (n.val = k)
  | installHandler n _ => masked && !decide (n.val = k)

/-- A run of calls. -/
def runAll (t : HandlerTable) (stub : ℕ → UInt32) (calls : List IrqCall) (s : IrqState) :
    IrqState :=
  calls.foldl (fun s c ↦ c.run t stub s) s

end IrqCall

/-- What an installation is to do to the controllers: a request on the line reaches the processor
afterwards, and no masks but those of the line and the cascade have changed. -/
structure Installs (n : ℕ) (s s' : Pics) : Prop where
  line : s'.maskBit n = false
  cascade : 8 ≤ n → s'.maskBit 2 = false
  reaches : (s'.alone n).intr = true
  others : ∀ k < 16, k ≠ n → k ≠ 2 → s'.maskBit k = s.maskBit k

section Run

variable {t : HandlerTable} {stub : ℕ → UInt32} {s : IrqState} {c : IrqCall} {n : Fin 16}
  {handler : UInt32} {calls : List IrqCall}

namespace IrqCall

theorem toNat_line (n : Fin 16) : (line n).toNat = n :=
  (UInt8.toNat_ofNat').trans (Nat.mod_eq_of_lt (by omega))

theorem line_lt (n : Fin 16) : line n < 16 := by
  rw [UInt8.lt_iff_toNat_lt, toNat_line]
  exact n.isLt

theorem pics_installHandler : ((installHandler n handler).run t stub s).pics =
    picEnableIrq (line n) s.pics := by
  have hlt : ∀ n : Fin 16, Int32.ofNat n < 16 := by decide
  have hline : ∀ n : Fin 16, (Int32.ofNat n).toUInt32.toUInt8 = line n := by decide
  rw [run, installIrqHandler, if_pos (hlt n), hline]

theorem ready_run (h : s.pics.Ready) : (c.run t stub s).pics.Ready := by
  cases c with
  | install =>
    rw [run, pics_irqInstall, picRemap_eq]
    exact ⟨rfl, rfl⟩
  | disable =>
    rw [run, picDisable_eq h]
    exact h
  | setMask n => exact h.changeMask
  | clearMask n => exact h.changeMask
  | enable n => exact h.changeMask
  | installHandler n handler =>
    rw [pics_installHandler]
    exact h.changeMask

theorem maskBit_run (h : s.pics.Ready) {k : ℕ} (hk : k < 16) :
    (c.run t stub s).pics.maskBit k = maskAfter k (s.pics.maskBit k) c := by
  cases c with
  | install =>
    rw [run, pics_irqInstall, picRemap_eq, maskBit]
    split_ifs
    · exact bit_zero _
    · exact bit_zero _
  | disable => exact maskBit_picDisable h hk
  | setMask n => exact (maskBit_irqSetMask h (line_lt n) hk).trans (by rw [toNat_line]; rfl)
  | clearMask n => exact (maskBit_irqClearMask h (line_lt n) hk).trans (by rw [toNat_line]; rfl)
  | enable n => exact (maskBit_picEnableIrq h (line_lt n) hk).trans (by rw [toNat_line]; rfl)
  | installHandler n handler =>
    rw [pics_installHandler, maskBit_picEnableIrq h (line_lt n) hk, toNat_line]
    rfl

theorem runAll_append_singleton :
    runAll t stub (calls ++ [c]) s = c.run t stub (runAll t stub calls s) := by
  rw [runAll, List.foldl_append]
  rfl

/-- After a run of calls. -/
theorem maskBit_runAll (h : s.pics.Ready) {k : ℕ} (hk : k < 16) :
    (runAll t stub calls s).pics.Ready ∧
      (runAll t stub calls s).pics.maskBit k = calls.foldl (maskAfter k) (s.pics.maskBit k) := by
  induction calls generalizing s with
  | nil => exact ⟨h, rfl⟩
  | cons c calls ih =>
    rw [List.foldl_cons, ← maskBit_run h hk]
    exact ih (ready_run h)

/-- One installation: the cascade must be open already, unless the line is on the master. -/
theorem installs_run_iff (h : s.pics.Ready) :
    Installs n s.pics ((installHandler n handler).run t stub s).pics ↔
      (8 ≤ n.val → s.pics.maskBit 2 = false) := by
  have hmask : ∀ k < 16, ((installHandler n handler).run t stub s).pics.maskBit k =
      (s.pics.maskBit k && !decide (n.val = k)) := fun k hk ↦ maskBit_run h hk
  have hline : ((installHandler n handler).run t stub s).pics.maskBit n = false := by
    rw [hmask n n.isLt, decide_eq_true rfl, Bool.not_true, Bool.and_false]
  have hcascade : 8 ≤ n.val → ((installHandler n handler).run t stub s).pics.maskBit 2 =
      s.pics.maskBit 2 := fun hn ↦ by
    rw [hmask 2 (by decide), decide_eq_false (by omega), Bool.not_false, Bool.and_true]
  constructor
  · intro hinstalls hn
    exact (hcascade hn).symm.trans (hinstalls.cascade hn)
  · intro hopen
    have hcascade' : 8 ≤ n.val → ((installHandler n handler).run t stub s).pics.maskBit 2 = false :=
      fun hn ↦ (hcascade hn).trans (hopen hn)
    refine ⟨hline, hcascade', (intr_alone_iff n.isLt).2 ⟨hline, hcascade'⟩, fun k hk hne _ ↦ ?_⟩
    rw [hmask k hk, decide_eq_false hne.symm, Bool.not_false, Bool.and_true]

/-- **Installed interrupts can be delivered**, in a run of calls, exactly if the calls before every
installation on one of the upper eight lines leave the cascade open. -/
theorem installs_iff (h : s.pics.Ready) :
    (∀ before n handler after, calls = before ++ installHandler n handler :: after →
      Installs n (runAll t stub before s).pics
        (runAll t stub (before ++ [installHandler n handler]) s).pics) ↔
      ∀ before n handler after, calls = before ++ installHandler n handler :: after →
        8 ≤ n.val → before.foldl (maskAfter 2) (s.pics.maskBit 2) = false := by
  refine forall_congr' fun before ↦ forall_congr' fun n ↦ forall_congr' fun handler ↦
    forall_congr' fun after ↦ imp_congr_right fun _ ↦ ?_
  obtain ⟨hready, hcascade⟩ : (runAll t stub before s).pics.Ready ∧ _ :=
    maskBit_runAll h (show 2 < 16 by decide)
  rw [← hcascade, runAll_append_singleton]
  exact installs_run_iff hready

/-- The drive on line 14, after `irq_install`. -/
theorem installs_drive : Installs 14
    (runAll .low (fun _ ↦ 0) [install] .firmware).pics
    (runAll .low (fun _ ↦ 0) [install, installHandler 14 0x1000] .firmware).pics := by
  have hall : ∀ before n handler after,
      [install, installHandler 14 0x1000] = before ++ installHandler n handler :: after →
        8 ≤ n.val → before.foldl (maskAfter 2) (IrqState.firmware.pics.maskBit 2) = false := by
    intro before n handler after heq _
    rcases before with _ | ⟨c, _ | ⟨d, before⟩⟩
    · simp at heq
    · obtain ⟨rfl, -⟩ := List.cons.inj heq
      rfl
    · simp at heq
  exact (installs_iff (s := .firmware) ⟨rfl, rfl⟩).2 hall [install] 14 0x1000 [] rfl

/-- After `pic_disable` the cascade stays masked. -/
theorem not_installs_disabled : ¬ ∀ (t : HandlerTable) (stub : ℕ → UInt32) (s : IrqState)
    (calls : List IrqCall), s.pics.Ready → ∀ before n handler after,
      calls = before ++ installHandler n handler :: after →
        Installs n (runAll t stub before s).pics
          (runAll t stub (before ++ [installHandler n handler]) s).pics := by
  intro h
  have hinstalls := h .low (fun _ ↦ 0) .firmware [disable, installHandler 8 0x1000] ⟨rfl, rfl⟩
    [disable] 8 0x1000 [] rfl
  exact absurd (hinstalls.cascade le_rfl) (by decide)

end IrqCall

end Run

