import BinbowsDOS.Interrupts.Dispatch
import BinbowsDOS.Interrupts.Transparent

/-!
# The tick counter

`on_irq0` of `timer.c` counts the interrupts of line 0 in `timer_ticks`, 64 bits of memory. Once
`irq_install` and `install_irq_handler` have been called, the counter is what it was plus the number
of interrupts with the vector of line 0, in every run: no tick is lost or counted twice, whatever is
served in between, spurious interrupts included (`getTimerTicks_of_boot`).
-/

/-- `on_irq0`, with the address of `timer_ticks`. -/
def onIrq0 (timerTicks : ℕ) (u : IrqState) : IrqState :=
  { u with mem := u.mem.storeLE timerTicks 8 (u.mem.loadLE timerTicks 8 + 1) }

/-- `get_timer_ticks` -/
def getTimerTicks (timerTicks : ℕ) (mem : ByteMem) : UInt64 :=
  UInt64.ofNat (mem.loadLE timerTicks 8)

/-- The handlers, among them `on_irq0`. Of the counter and of the table of handlers the others keep
away. -/
structure IrqCode.Counts (k : IrqCode) (own : Set UInt32) (timerTicks : ℕ) (handler : UInt32) :
    Prop extends k.Lawful own where
  handler_ne : handler ≠ 0
  on_irq0 : ∀ u u', k.effect handler u u' → u' = onIrq0 timerTicks u
  others : ∀ other u u', other ≠ handler → k.effect other u u' →
    u'.mem.loadLE timerTicks 8 = u.mem.loadLE timerTicks 8 ∧
      ∀ line < 16, u'.mem.loadLE (k.table.entry (Int32.ofNat line)) 4 =
        u.mem.loadLE (k.table.entry (Int32.ofNat line)) 4
  counter_own : ∀ i < 8, UInt32.ofNat (timerTicks + i) ∈ own
  table_own : ∀ i < 64, UInt32.ofNat (k.table.addr.toNat + i) ∈ own
  fits : timerTicks + 8 ≤ 2 ^ 32
  disjoint : timerTicks + 8 ≤ k.table.addr.toNat ∨ k.table.addr.toNat + 64 ≤ timerTicks

/-- `on_irq0` is the handler of line 0 and of no other line. -/
def Ticking (t : HandlerTable) (handler : UInt32) (mem : ByteMem) : Prop :=
  ∀ line < 16, mem.loadLE (t.entry (Int32.ofNat line)) 4 = handler.toNat ↔ line = 0

section

variable {k : IrqCode} {own : Set UInt32} {timerTicks : ℕ} {handler : UInt32} {vector : UInt8}
  {p : Program own k.depth} {a : Option UInt8} {as : List (Option UInt8)} {s s' : Board}
  {m : ByteMem} {line b w : ℕ} {before after : IrqState}

/-! ### What the handlers own -/

/-- The handlers' bytes are none of the stack. -/
theorem IrqCode.Serves.loadLE (hk : k.Lawful own) (hs : s.Installed k) (hinv : p.inv s.cpu)
    (h : k.Serves vector s s') : ∃ before after,
      IrqHandler k.table k.effect vector.toUInt32 before after ∧
      ∀ b w, b + w ≤ 2 ^ 32 → (∀ i < w, UInt32.ofNat (b + i) ∈ own) →
        before.mem.loadLE b w = (WordMem.bytes s.cpu.mem).loadLE b w ∧
        (WordMem.bytes s'.cpu.mem).loadLE b w = after.mem.loadLE b w := by
  obtain ⟨-, -, -, -, -, -, before, after, hhandler, hmem⟩ := h.spec hk hs (p.own_below hinv)
  refine ⟨before, after, hhandler, fun b w hfits hown ↦ ?_⟩
  have hbyte : ∀ i < w, (UInt32.ofNat (b + i)).toNat = b + i := fun i hi ↦ by
    rw [UInt32.toNat_ofNat']
    exact Nat.mod_eq_of_lt (by omega)
  have hbelow : ∀ i < w, UInt32.ofNat (b + i) ∉ s.cpu.below (76 + k.depth) := fun i hi hi' ↦
    p.own_below hinv _ hi' (hown i hi)
  refine ⟨ByteMem.loadLE_congr fun i hi ↦ ?_, ByteMem.loadLE_congr fun i hi ↦ ?_⟩
  · have hbefore := (hmem _ (hbelow i hi)).1
    rwa [hbyte i hi] at hbefore
  · have hafter := (hmem _ (hbelow i hi)).2.1
    rwa [hbyte i hi] at hafter

/-- The program leaves them alone. -/
theorem loadLE_of_step (hinv : p.inv s.cpu) (h : p.step s.cpu s'.cpu)
    (hown : ∀ i < w, UInt32.ofNat (b + i) ∈ own) :
    (WordMem.bytes s'.cpu.mem).loadLE b w = (WordMem.bytes s.cpu.mem).loadLE b w :=
  ByteMem.loadLE_congr fun i hi ↦ p.step_own hinv h _ (hown i hi)

theorem entry_own (hk : k.Counts own timerTicks handler) (hline : line < 16) :
    k.table.entry (Int32.ofNat line) + 4 ≤ 2 ^ 32 ∧
      ∀ i < 4, UInt32.ofNat (k.table.entry (Int32.ofNat line) + i) ∈ own := by
  have hfits := k.table.fits
  rw [entry_of_line hline]
  refine ⟨by omega, fun i hi ↦ ?_⟩
  rw [Nat.add_assoc]
  exact hk.table_own _ (by omega)

/-! ### One interrupt -/

/-- The handler of a line that `irq_handler` calls. -/
theorem calledHandler_line_ne (hticking : Ticking k.table handler m) (hline : line < 16)
    (hne : line ≠ 0) (hhandler : handler ≠ 0) :
    ∀ other ∈ calledHandler k.table m (UInt32.ofNat (32 + line)), other ≠ handler := by
  have hlt : m.loadLE (k.table.entry (Int32.ofNat line)) 4 < 2 ^ 32 := ByteMem.loadLE_lt
  have hload : m.loadLE (k.table.entry (Int32.ofNat line)) 4 =
      (UInt32.ofNat (m.loadLE (k.table.entry (Int32.ofNat line)) 4)).toNat := by
    rw [UInt32.toNat_ofNat', Nat.mod_eq_of_lt hlt]
  rintro other hother rfl
  rw [calledHandler_of_line hline hload, Option.mem_def, Option.filter_eq_some_iff] at hother
  refine hne ((hticking line hline).1 ?_)
  rw [hload, Option.some.inj hother.1]

/-- **`irq_handler`** counts on line 0. -/
theorem IrqHandler.counts (hk : k.Counts own timerTicks handler)
    (hticking : Ticking k.table handler before.mem) (hline : line < 16)
    (h : IrqHandler k.table k.effect (UInt32.ofNat (32 + line)) before after) :
    after.mem.loadLE timerTicks 8 % 2 ^ 64 =
      (before.mem.loadLE timerTicks 8 + if line = 0 then 1 else 0) % 2 ^ 64 ∧
      ∀ line < 16, after.mem.loadLE (k.table.entry (Int32.ofNat line)) 4 =
        before.mem.loadLE (k.table.entry (Int32.ofNat line)) 4 := by
  obtain ⟨u, hcall, rfl⟩ := h
  dsimp only
  split_ifs with h₀
  · subst h₀
    have hentry := (hticking 0 (by decide)).2 rfl
    rw [calledHandler_of_line hline hentry, Option.filter_some,
      if_pos (decide_eq_true hk.handler_ne)] at hcall
    obtain rfl := hk.on_irq0 _ _ hcall
    have hdisjoint := hk.disjoint
    rw [onIrq0]
    dsimp only
    refine ⟨?_, fun i hi ↦ ?_⟩
    · rw [ByteMem.loadLE_storeLE_self, show (256 : ℕ) ^ 8 = 2 ^ 64 by decide, Nat.mod_mod]
    · rw [entry_of_line hi]
      exact ByteMem.loadLE_storeLE_of_disjoint (by omega)
  · cases hcalled : calledHandler k.table before.mem (UInt32.ofNat (32 + line)) with
    | none =>
      rw [hcalled] at hcall
      rw [hcall, Nat.add_zero]
      exact ⟨rfl, fun _ _ ↦ rfl⟩
    | some other =>
      rw [hcalled] at hcall
      obtain ⟨hcounter, htable⟩ := hk.others other _ _
        (calledHandler_line_ne hticking hline h₀ hk.handler_ne other hcalled) hcall
      rw [hcounter, Nat.add_zero]
      exact ⟨rfl, htable⟩

/-! ### Runs -/

/-- What a step adds to the counter. -/
def tick : Option UInt8 → UInt64
  | some 32 => 1
  | _ => 0

theorem tick_vector (hline : line < 16) :
    tick (some (UInt8.ofNat (32 + line))) = if line = 0 then 1 else 0 := by
  have hvectors : ∀ line < 16,
      tick (some (UInt8.ofNat (32 + line))) = if line = 0 then 1 else 0 := by decide
  exact hvectors line hline

/-- Between two steps of a run. -/
def Running (k : IrqCode) (p : Program own k.depth) (handler : UInt32) (s : Board) : Prop :=
  (s.Installed k ∧ p.inv s.cpu) ∧ Ticking k.table handler (WordMem.bytes s.cpu.mem)

/-- **One step** adds a tick if it is an interrupt of line 0. -/
theorem IrqCode.Step.counts (hk : k.Counts own timerTicks handler) (hs : Running k p handler s)
    (h : k.Step p a s s') : Running k p handler s' ∧
      getTimerTicks timerTicks (WordMem.bytes s'.cpu.mem) =
        getTimerTicks timerTicks (WordMem.bytes s.cpu.mem) + tick a := by
  obtain ⟨hkeep, hticking⟩ := hs
  obtain ⟨hs, hinv⟩ := hkeep
  have hkeep' := IrqCode.Step.keeps hk.toLawful ⟨hs, hinv⟩ h
  cases a with
  | none =>
    refine ⟨⟨hkeep', fun line hline ↦ ?_⟩, ?_⟩
    · rw [loadLE_of_step hinv h.1 (entry_own hk hline).2]
      exact hticking line hline
    · rw [getTimerTicks, loadLE_of_step hinv h.1 hk.counter_own]
      exact (add_zero _).symm
  | some vector =>
    obtain ⟨line, hline, hvector⟩ := exists_vector hs.configured
    obtain rfl := h.2.1.symm.trans hvector
    obtain ⟨before, after, hhandler, hload⟩ := IrqCode.Serves.loadLE hk.toLawful hs hinv h
    have hentry : ∀ i < 16, before.mem.loadLE (k.table.entry (Int32.ofNat i)) 4 =
        (WordMem.bytes s.cpu.mem).loadLE (k.table.entry (Int32.ofNat i)) 4 ∧
        (WordMem.bytes s'.cpu.mem).loadLE (k.table.entry (Int32.ofNat i)) 4 =
          after.mem.loadLE (k.table.entry (Int32.ofNat i)) 4 := fun i hi ↦
      hload _ _ (entry_own hk hi).1 (entry_own hk hi).2
    obtain ⟨hbefore, hafter⟩ := hload timerTicks 8 hk.fits hk.counter_own
    have hticking' : Ticking k.table handler before.mem := fun i hi ↦ by
      rw [(hentry i hi).1]
      exact hticking i hi
    have hword : (UInt8.ofNat (32 + line)).toUInt32 = UInt32.ofNat (32 + line) := by
      rw [← UInt32.toNat_inj, UInt32.toNat_ofNat', UInt8.toNat_toUInt32, UInt8.toNat_ofNat']
      omega
    rw [hword] at hhandler
    obtain ⟨hcounter, htable⟩ := hhandler.counts hk hticking' hline
    refine ⟨⟨hkeep', fun i hi ↦ ?_⟩, ?_⟩
    · rw [(hentry i hi).2, htable i hi]
      exact hticking' i hi
    · have htick : (if line = 0 then (1 : UInt64) else 0).toNat = if line = 0 then 1 else 0 := by
        split_ifs
        · rfl
        · rfl
      rw [getTimerTicks, getTimerTicks, hafter, ← hbefore, tick_vector hline, ← UInt64.toNat_inj,
        UInt64.toNat_add, UInt64.toNat_ofNat', UInt64.toNat_ofNat', hcounter, htick,
        Nat.mod_add_mod]

theorem sum_tick : (as.map tick).sum = UInt64.ofNat (as.count (some 32)) := by
  induction as with
  | nil => rfl
  | cons a as ih =>
    rw [List.map_cons, List.sum_cons, ih, List.count_cons, UInt64.ofNat_add, UInt64.add_comm]
    by_cases h : a = some 32
    · rw [h]
      rfl
    · have htick : tick a = 0 := by
        unfold tick
        split
        · exact absurd rfl h
        · rfl
      rw [htick, if_neg fun heq ↦ h (beq_iff_eq.1 heq)]
      rfl

theorem getTimerTicks_of_run (hk : k.Counts own timerTicks handler) (hs : Running k p handler s)
    (h : Trace (k.Step p) as s s') : getTimerTicks timerTicks (WordMem.bytes s'.cpu.mem) =
      getTimerTicks timerTicks (WordMem.bytes s.cpu.mem) +
        UInt64.ofNat (as.count (some 32)) := by
  rw [← sum_tick]
  exact h.sum (P := Running k p handler) (g := tick)
    (f := fun s ↦ getTimerTicks timerTicks (WordMem.bytes s.cpu.mem))
    (fun _ _ _ hs hstep ↦ (IrqCode.Step.counts hk hs hstep).1)
    (fun _ _ _ hs hstep ↦ (IrqCode.Step.counts hk hs hstep).2) hs

/-! ### After the boot -/

theorem quiet_installIrqHandler {t : HandlerTable} {n : Int32} {u : IrqState} :
    Pics.Quiet u.pics (installIrqHandler t n handler u).pics := by
  rw [installIrqHandler]
  split_ifs
  · refine .single (.write _ ?_ ?_)
    · split_ifs
      · decide
      · decide
    · split_ifs
      · decide
      · decide
  · exact .refl

theorem idt_installIrqHandler {t : HandlerTable} {n : Int32} {u : IrqState} :
    (installIrqHandler t n handler u).idt = u.idt := by
  rw [installIrqHandler]
  split_ifs
  · rfl
  · rfl

/-- After `irq_install` and `install_irq_handler(0, on_irq0)`. -/
theorem running_of_boot {s₀ : IrqState} (hk : k.Counts own timerTicks handler)
    (hempty : s₀.Empty k.table)
    (hs : s.Holds (installIrqHandler k.table 0 handler (irqInstall k.stub s₀)))
    (hinv : p.inv s.cpu) : Running k p handler s := by
  have hne : handler.toNat ≠ 0 := fun h ↦ hk.handler_ne (UInt32.toNat_inj.1 h)
  rw [show (0 : Int32) = Int32.ofNat 0 from rfl] at hs
  refine ⟨⟨installed_of_boot idt_installIrqHandler quiet_installIrqHandler hs, hinv⟩,
    fun line hline ↦ ?_⟩
  have hfits := (entry_own hk hline).1
  have hentry : (WordMem.bytes s.cpu.mem).loadLE (k.table.entry (Int32.ofNat line)) 4 =
      (installIrqHandler k.table (Int32.ofNat 0) handler (irqInstall k.stub s₀)).mem.loadLE
        (k.table.entry (Int32.ofNat line)) 4 := by
    refine ByteMem.loadLE_congr fun i hi ↦ ?_
    rw [WordMem.bytes, hs.mem, UInt32.toNat_ofNat', Nat.mod_eq_of_lt (by omega)]
  rw [hentry, loadLE_installIrqHandler (by decide) hline]
  split_ifs with h₀
  · exact iff_of_true rfl h₀.symm
  · have hzero : (irqInstall k.stub s₀).mem.loadLE (k.table.entry (Int32.ofNat line)) 4 = 0 :=
      hempty line hline
    rw [hzero]
    exact iff_of_false hne.symm fun h ↦ h₀ h.symm

/-- **No tick is lost.** In every run after `irq_install` and `install_irq_handler(0, on_irq0)` the
counter is what it was, plus the number of interrupts with the vector of line 0. -/
theorem getTimerTicks_of_boot {s₀ : IrqState} (hk : k.Counts own timerTicks handler)
    (hempty : s₀.Empty k.table)
    (hs : s.Holds (installIrqHandler k.table 0 handler (irqInstall k.stub s₀)))
    (hinv : p.inv s.cpu) (h : Trace (k.Step p) as s s') :
    getTimerTicks timerTicks (WordMem.bytes s'.cpu.mem) =
      getTimerTicks timerTicks (WordMem.bytes s.cpu.mem) + UInt64.ofNat (as.count (some 32)) :=
  getTimerTicks_of_run hk (running_of_boot hk hempty hs hinv) h

end

/-- `on_irq0` at this address, and no other handler. -/
def IrqCode.ticker : IrqCode :=
  .sample fun handler u u' ↦ handler = 0x250000 ∧ u' = onIrq0 0x100100 u

theorem counts_ticker : IrqCode.ticker.Counts handlerBytes 0x100100 0x250000 where
  toLawful := by
    refine lawful_sample (fun _ u u' h ↦ ?_) (fun _ u u' h ↦ ?_) fun _ u u' h a ha ↦ ?_
    · rw [h.2]
      exact .refl
    · rw [h.2]
      rfl
    · rw [h.2]
      refine ByteMem.storeLE_apply_of_not_mem ?_
      have hrange : ¬ (0x100000 ≤ a.toNat ∧ a.toNat < 0x100200) := ha
      omega
  handler_ne := by decide
  on_irq0 _ _ h := h.2
  others _ _ _ hne h := absurd h.1 hne
  counter_own i hi := by
    show 0x100000 ≤ (UInt32.ofNat (0x100100 + i)).toNat ∧
      (UInt32.ofNat (0x100100 + i)).toNat < 0x100200
    rw [UInt32.toNat_ofNat']
    omega
  table_own i hi := by
    show 0x100000 ≤ (UInt32.ofNat (0x100000 + i)).toNat ∧
      (UInt32.ofNat (0x100000 + i)).toNat < 0x100200
    rw [UInt32.toNat_ofNat']
    omega
  fits := by decide
  disjoint := .inr (by decide)

/-- The first tick. -/
theorem getTimerTicks_of_boot_once : ∃ s',
    Trace (IrqCode.ticker.Step counting) [none, some 32] (Board.sample (installIrqHandler .low 0
      0x250000 (irqInstall IrqCode.ticker.stub .firmware))) s' ∧
    getTimerTicks 0x100100 (WordMem.bytes s'.cpu.mem) = getTimerTicks 0x100100 (WordMem.bytes
      (Board.sample (installIrqHandler .low 0 0x250000
        (irqInstall IrqCode.ticker.stub .firmware))).cpu.mem) + 1 := by
  let k : IrqCode := .ticker
  let s : Board := .sample (installIrqHandler .low 0 0x250000 (irqInstall k.stub .firmware))
  have hk : k.Counts handlerBytes 0x100100 0x250000 := counts_ticker
  have hempty : IrqState.Empty k.table .firmware := fun line _ ↦ rfl
  have hinv : counting.inv s.cpu := rfl
  let t : Board := { s with
    cpu := { s.cpu with mem := storeWord s.cpu.mem 0x9000 (loadWord s.cpu.mem 0x9000 + 1) }
    pics := ⟨{ s.pics.master with irr := 1 }, { s.pics.slave with irr := 0 }⟩ }
  have hprogram : k.Step counting none s t := ⟨rfl, .single (.lines 1 0), rfl⟩
  obtain ⟨⟨ht, hinv'⟩, hticking⟩ := (IrqCode.Step.counts hk
    (running_of_boot (p := counting) hk hempty (holds_sample _) hinv) hprogram).1
  have hload : (WordMem.bytes (Cpu.atHandler k.addFlags (t.idt (UInt8.ofNat (32 + 0))) 0 0x300000
      t.cpu).mem).loadLE (k.table.entry (Int32.ofNat 0)) 4 = (0x250000 : UInt32).toNat := by
    rw [← (hticking 0 (by decide)).2 rfl]
    exact ByteMem.loadLE_congr fun i hi ↦ mem_atHandler fun hbelow ↦
      counting.own_below hinv' _ hbelow ((entry_own hk (by decide)).2 i hi)
  have hcalled := calledHandler_of_line (show 0 < 16 by decide) hload
  have hserves : k.Serves (UInt8.ofNat (32 + 0)) t (t.served k 0 _) :=
    serves_served ht (by decide) (by decide) (by decide)
      ⟨_, by rw [hcalled]; exact ⟨rfl, rfl⟩, rfl⟩
  have htrace : Trace (k.Step counting) [none, some 32] s (t.served k 0 _) :=
    ⟨t, hprogram, _, hserves, rfl⟩
  exact ⟨_, htrace, getTimerTicks_of_boot hk hempty (holds_sample _) hinv htrace⟩
