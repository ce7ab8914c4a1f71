import BinbowsDOS.Foundations.Trace
import BinbowsDOS.Serial.FifoUart

/-!
# Sessions on a serial line

Calls of the serial driver and of the IDE driver in any order, on a machine whose UART is on a line
with a timing of its own. The serial driver waits until nothing is left to be sent before it gives
the UART the next character, so on the way to the wire it never loses one; at most two are under way
at any time. What it reads has come in this order, and what is missing the UART has lost: to an
overrun, of which the driver takes no notice, or to a call that clears the FIFOs.

Two calls do this. `serial_init` means to. `ide_initialize` writes its 2 to the FIFO control of
COM1, where it looks for the control register of the primary channel. The other calls of the IDE
driver only read there, and leave the line alone.
-/

open Prog Kernel FormatString FifoUart
open Console (CString FormatCall)

section Calls

variable {σ : Type} [PortBus σ] {w w' w'' : Kernel (Machine σ FifoUart)} {c : UInt8}
  {cs : List UInt8} {fuel channel reg : ℕ}

/-- Change the UART. -/
def Kernel.setUart (w : Kernel (Machine σ FifoUart)) (u : FifoUart) : Kernel (Machine σ FifoUart) :=
  w.setIo { w.io with uart := u }

/-! ### Single accesses -/

theorem inb_uart {port : ℕ} (hport : ComPort port) :
    inb port w = some ((w.io.uart.tick.read (port - com1Port)).1,
      w.setUart (w.io.uart.tick.read (port - com1Port)).2) := by
  have hread : PortBus.inb port w.io.uart = w.io.uart.tick.read (port - com1Port) := rfl
  have hinb : PortBus.inb port w.io = ((PortBus.inb port w.io.uart).1,
      { w.io with uart := (PortBus.inb port w.io.uart).2 }) := if_pos hport
  rw [hread] at hinb
  generalize w.io.uart.tick.read (port - com1Port) = r at hinb ⊢
  exact congrArg (fun p ↦ some (p.1, w.setIo p.2)) hinb

theorem outb_uart {port : ℕ} (hport : ComPort port) (data : UInt8) :
    outb port data w = some ((), w.setUart (w.io.uart.tick.write (port - com1Port) data)) := by
  have houtb : PortBus.outb port data w.io =
      { w.io with uart := w.io.uart.tick.write (port - com1Port) data } := if_pos hport
  exact congrArg (fun b ↦ some ((), w.setIo b)) houtb

/-- A pass of the loop of `serial_write`. -/
theorem serialWrite_succ : serialWrite c (fuel + 1) w =
    if w.io.uart.tick.tx ≠ [] then serialWrite c fuel (w.setUart w.io.uart.poll)
    else some ((), w.setUart (w.io.uart.poll.tick.write 0 c)) := by
  have hstatus : serialIsTransmitEmpty w =
      some (w.io.uart.tick.lineStatus &&& 0x20, w.setUart w.io.uart.poll) := by
    rw [serialIsTransmitEmpty, bind_apply_of_runs (inb_uart (by decide))]
    rfl
  rw [serialWrite, bind_apply_of_runs hstatus]
  by_cases htx : w.io.uart.tick.tx ≠ []
  · rw [if_pos htx, if_pos ((transmitterReady_iff _).2 htx)]
  · rw [if_neg htx, if_neg fun h ↦ htx ((transmitterReady_iff _).1 h), outb_uart (by decide)]
    rfl

/-- A pass of the loop of `serial_read`. -/
theorem serialRead_succ : serialRead (fuel + 1) w =
    if w.io.uart.tick.rx = [] then serialRead fuel (w.setUart w.io.uart.poll)
    else some ((w.io.uart.poll.tick.read 0).1, w.setUart (w.io.uart.poll.tick.read 0).2) := by
  have hstatus : serialReceived w =
      some (w.io.uart.tick.lineStatus &&& 0x01, w.setUart w.io.uart.poll) := by
    rw [serialReceived, bind_apply_of_runs (inb_uart (by decide))]
    rfl
  rw [serialRead, bind_apply_of_runs hstatus]
  by_cases hrx : w.io.uart.tick.rx = []
  · rw [if_pos hrx, if_pos ((dataReady_iff _).2 hrx)]
  · rw [if_neg hrx, if_neg fun h ↦ hrx ((dataReady_iff _).1 h), inb_uart (by decide)]
    rfl

/-! ### Calls of the serial driver -/

/-- **`serial_write`** gives the UART its character and loses none. -/
theorem talks_serialWrite (h : Runs (serialWrite c fuel) w () w') (hw : w.io.uart.dlab = false) :
    w'.channels = w.channels ∧ Talks [c] [] w.io.uart w'.io.uart := by
  induction fuel generalizing w with
  | zero => simp [Runs, serialWrite] at h
  | succ fuel ih =>
    have hpoll := talks_poll w.io.uart
    rw [Runs, serialWrite_succ] at h
    split_ifs at h with htx
    · obtain ⟨hchannels, htalks⟩ := ih h (hpoll.dlab_eq.trans hw)
      exact ⟨hchannels, hpoll.trans htalks⟩
    · obtain ⟨-, rfl⟩ := Prod.mk.inj (Option.some.inj h)
      -- nothing comes in between that would fill the transmitter again
      have htick := hpoll.trans (talks_tick w.io.uart.poll)
      have hempty : w.io.uart.poll.tick.tx = [] := tx_tick (u := w.io.uart.poll) (not_not.1 htx)
      exact ⟨rfl, htick.trans (talks_write_zero (htick.dlab_eq.trans hw) hempty)⟩

theorem talks_serialWriteChars (h : Runs (serialWriteChars fuel cs) w () w')
    (hw : w.io.uart.dlab = false) :
    w'.channels = w.channels ∧ Talks cs [] w.io.uart w'.io.uart := by
  induction cs generalizing w with
  | nil =>
    obtain ⟨-, rfl⟩ := runs_pure.1 h
    exact ⟨rfl, .refl _⟩
  | cons c cs ih =>
    obtain ⟨_, t, hwrite, hrest⟩ := runs_bind.1 h
    obtain ⟨hchannels, htalks⟩ := talks_serialWrite hwrite hw
    obtain ⟨hchannels', htalks'⟩ := ih hrest (htalks.dlab_eq.trans hw)
    exact ⟨hchannels'.trans hchannels, htalks.trans htalks'⟩

/-- **`serial_read`** takes the character it returns from the UART. -/
theorem talks_serialRead (h : Runs (serialRead fuel) w c w') (hw : w.io.uart.dlab = false) :
    w'.channels = w.channels ∧ Talks [] [c] w.io.uart w'.io.uart := by
  induction fuel generalizing w with
  | zero => simp [Runs, serialRead] at h
  | succ fuel ih =>
    have hpoll := talks_poll w.io.uart
    rw [Runs, serialRead_succ] at h
    split_ifs at h with hrx
    · obtain ⟨hchannels, htalks⟩ := ih h (hpoll.dlab_eq.trans hw)
      exact ⟨hchannels, hpoll.trans htalks⟩
    · obtain ⟨rfl, rfl⟩ := Prod.mk.inj (Option.some.inj h)
      have htick := hpoll.trans (talks_tick w.io.uart.poll)
      have hready : w.io.uart.poll.tick.rx ≠ [] := fun hnil ↦ hrx (rx_tick_eq_nil_iff.1 hnil).1
      exact ⟨rfl, htick.trans (talks_read_zero (htick.dlab_eq.trans hw) hready)⟩

/-- **When `serial_read` returns**: if there is a character or one comes. -/
theorem serialRead_ends_iff : (∃ c w', Ends serialRead w c w') ↔ w.io.uart.Hears := by
  constructor
  · rintro ⟨c, w', hends⟩
    by_contra hnone
    obtain ⟨fuel, hrun⟩ := hends.exists_runs
    clear hends
    induction fuel generalizing w with
    | zero => simp [Runs, serialRead] at hrun
    | succ fuel ih =>
      have hrx : w.io.uart.tick.rx = [] := by
        by_contra hrx
        refine hnone (by_contra fun h ↦ hrx ?_)
        rw [Hears, not_or, not_not] at h
        exact rx_tick_eq_nil_iff.2 ⟨h.1, fun c hc ↦ h.2 ⟨_, Nat.le_refl _, c, hc⟩⟩
      rw [Runs, serialRead_succ, if_pos hrx] at hrun
      exact ih (w := w.setUart w.io.uart.poll) (fun h ↦ hnone ((hears_poll_iff hrx).1 h)) hrun
  · intro h
    obtain ⟨n, hn⟩ := h.exists_poll
    clear h
    have hends : ∀ w : Kernel (Machine σ FifoUart), w.io.uart.tick.rx ≠ [] →
        Ends serialRead w (w.io.uart.poll.tick.read 0).1
          (w.setUart (w.io.uart.poll.tick.read 0).2) := by
      intro w hrx
      refine Ends.of_succ (ends_of_runs fun fuel ↦ ?_)
      rw [Runs, serialRead_succ, if_neg hrx]
    induction n generalizing w with
    | zero => exact ⟨_, _, hends w hn⟩
    | succ n ih =>
      by_cases hrx : w.io.uart.tick.rx = []
      · obtain ⟨c, w', hlater⟩ := ih (w := w.setUart w.io.uart.poll) hn
        refine ⟨c, w', Ends.of_succ (Ends.congr (fun fuel ↦ ?_) hlater)⟩
        rw [serialRead_succ, if_pos hrx]
      · exact ⟨_, _, hends w hrx⟩

/-- The transmitter gets through whatever waits. -/
theorem lineFrees_fifoUart (b : Machine σ FifoUart) : LineFrees b := by
  obtain ⟨n, hn⟩ : ∃ n, (poll^[n] b.uart).tick.tx = [] := by
    obtain ⟨n, hn⟩ := passes_poll.exists_inFlight_eq_nil b.uart
    exact ⟨n, tx_tick (List.append_eq_nil_iff.1 (hn n (Nat.le_refl n))).2⟩
  have hinb : ∀ b : Machine σ FifoUart, PortBus.inb (com1Port + 5) b =
      (b.uart.tick.lineStatus, { b with uart := b.uart.poll }) := fun _ ↦ rfl
  induction n generalizing b with
  | zero =>
    refine .free ?_
    rw [hinb]
    exact fun h ↦ (transmitterReady_iff _).1 h hn
  | succ n ih =>
    by_cases htx : b.uart.tick.tx = []
    · refine .free ?_
      rw [hinb]
      exact fun h ↦ (transmitterReady_iff _).1 h htx
    · refine .wait ?_ ?_
      · rw [hinb]
        exact (transmitterReady_iff _).2 htx
      · rw [hinb]
        exact ih _ hn

/-- A write to a register that gives no character. -/
theorem exchanges_outb {u : FifoUart} {data : UInt8} (hreg : reg ≠ 0 ∨ u.dlab = true) :
    Exchanges [] [] u (u.tick.write reg data) := by
  have htick := talks_tick u
  refine htick.exchanges.trans (exchanges_write (hreg.imp_right fun hu ↦ ?_) data)
  exact htick.dlab_eq.trans hu

/-- A write to a register, and what comes after it. -/
theorem outb_then (reg : ℕ) {α : Type} {m : KernelM (Machine σ FifoUart) α} {a : α} {data : UInt8}
    (hreg : reg < 8) (h : Runs (do outb (com1Port + reg) data; m) w a w') :
    ∃ v, v.channels = w.channels ∧ v.io.uart = w.io.uart.tick.write reg data ∧ Runs m v a w' := by
  have hport : ComPort (com1Port + reg) := ⟨Nat.le_add_right _ _, Nat.add_lt_add_left hreg _⟩
  have houtb := outb_uart (w := w) hport data
  rw [Nat.add_sub_cancel_left] at houtb
  exact ⟨w.setUart (w.io.uart.tick.write reg data), rfl, rfl, (runs_bind_of_runs houtb).1 h⟩

/-- **`serial_init`** may lose what waits, and what is to come it finds a transmitter empty. -/
theorem exchanges_serialInit (h : Runs serialInit w () w') :
    w'.channels = w.channels ∧ Exchanges [] [] w.io.uart w'.io.uart ∧
      w'.io.uart.dlab = false ∧ w'.io.uart.fifoOn = true ∧ w'.io.uart.tx = [] := by
  obtain ⟨v₁, hch₁, hu₁, h⟩ := outb_then 1 (by decide) h
  obtain ⟨v₂, hch₂, hu₂, h⟩ := outb_then 3 (by decide) h
  obtain ⟨v₃, hch₃, hu₃, h⟩ := outb_then 0 (by decide) h
  obtain ⟨v₄, hch₄, hu₄, h⟩ := outb_then 1 (by decide) h
  obtain ⟨v₅, hch₅, hu₅, h⟩ := outb_then 3 (by decide) h
  obtain ⟨v₆, hch₆, hu₆, h⟩ := outb_then 2 (by decide) h
  rw [Runs, outb_uart (by decide), Nat.add_sub_cancel_left] at h
  obtain ⟨-, rfl⟩ := Prod.mk.inj (Option.some.inj h)
  have hdlab : v₂.io.uart.dlab = true := by
    rw [hu₂]
    show decide ((0x80 : UInt8) &&& 0x80 ≠ 0) = true
    decide
  have hlcr : v₆.io.uart.tick.lcr = 0x03 := by
    rw [(talks_tick _).lcr_eq, hu₆]
    refine (lcr_setFcr _ _).trans ((talks_tick _).lcr_eq.trans ?_)
    rw [hu₅]
    rfl
  have hfcr : v₆.io.uart.tick.fcr = 0xC7 := by
    rw [(talks_tick _).fcr_eq, hu₆]
    rfl
  have htx : v₆.io.uart.tx = [] := by
    rw [hu₆]
    exact tx_setFcr (by decide) (by decide)
  refine ⟨by rw [← hch₁, ← hch₂, ← hch₃, ← hch₄, ← hch₅, ← hch₆]; rfl, ?_, ?_, ?_, ?_⟩
  · have h₁ : Exchanges [] [] w.io.uart v₁.io.uart := hu₁ ▸ exchanges_outb (.inl (by decide))
    have h₂ : Exchanges [] [] v₁.io.uart v₂.io.uart := hu₂ ▸ exchanges_outb (.inl (by decide))
    have h₃ : Exchanges [] [] v₂.io.uart v₃.io.uart := hu₃ ▸ exchanges_outb (.inr hdlab)
    have h₄ : Exchanges [] [] v₃.io.uart v₄.io.uart := hu₄ ▸ exchanges_outb (.inl (by decide))
    have h₅ : Exchanges [] [] v₄.io.uart v₅.io.uart := hu₅ ▸ exchanges_outb (.inl (by decide))
    have h₆ : Exchanges [] [] v₅.io.uart v₆.io.uart := hu₆ ▸ exchanges_outb (.inl (by decide))
    have h₇ : Exchanges [] [] v₆.io.uart (v₆.io.uart.tick.write 4 0x0B) :=
      exchanges_outb (.inl (by decide))
    exact h₁.trans (h₂.trans (h₃.trans (h₄.trans (h₅.trans (h₆.trans h₇)))))
  · show decide (v₆.io.uart.tick.lcr &&& 0x80 ≠ 0) = false
    rw [hlcr]
    decide
  · show decide (v₆.io.uart.tick.fcr &&& 0x01 ≠ 0) = true
    rw [hfcr]
    decide
  · exact tx_tick htx

end Calls

/-! ### Calls of the IDE driver -/

section Ide

variable {σ α β : Type} {w w' w'' : Kernel (Machine σ FifoUart)} {fuel channel reg port : ℕ}

/-- Between two states nothing is given to the UART and nothing taken from it, and its controls are
kept. -/
def Kernel.Beside (w w' : Kernel (Machine σ FifoUart)) : Prop :=
  w.Wired → w'.Wired ∧ Talks [] [] w.io.uart w'.io.uart

theorem Kernel.Beside.refl (w : Kernel (Machine σ FifoUart)) : Beside w w := fun hw ↦ ⟨hw, .refl _⟩

theorem Kernel.Beside.trans (h : Beside w w') (h' : Beside w' w'') : Beside w w'' := by
  intro hw
  obtain ⟨hw', htalks⟩ := h hw
  obtain ⟨hw'', htalks'⟩ := h' hw'
  exact ⟨hw'', htalks.trans htalks'⟩

theorem beside_bind {m : KernelM (Machine σ FifoUart) α} {f : α → KernelM (Machine σ FifoUart) β}
    (hm : Respects Beside m) (hf : ∀ a, Respects Beside (f a)) : Respects Beside (m >>= f) :=
  respects_bind (fun _ _ _ ↦ Beside.trans) hm hf

theorem beside_pure (a : α) : Respects Beside (pure a : KernelM (Machine σ FifoUart) α) :=
  respects_pure Beside.refl a

theorem beside_get : Respects Beside (get : KernelM (Machine σ FifoUart) _) :=
  respects_get Beside.refl

/-- A change that leaves the machine and the wiring alone. -/
theorem beside_modify {g : Kernel (Machine σ FifoUart) → Kernel (Machine σ FifoUart)}
    (hio : ∀ w, (g w).io = w.io) (hwired : ∀ w, w.Wired → (g w).Wired) :
    Respects Beside (modify g : KernelM (Machine σ FifoUart) PUnit) := by
  intro w u w' h hw
  obtain rfl := runs_modify.1 h
  refine ⟨hwired w hw, ?_⟩
  rw [hio]
  exact .refl _

/-- The data port is taken from the channel table, which is as `ide_initialize` set it up. -/
theorem beside_get_bind {f : Kernel (Machine σ FifoUart) → KernelM (Machine σ FifoUart) α}
    (hf : ∀ w, w.Wired → Respects Beside (f w)) : Respects Beside (get >>= f) := by
  intro w a w' h hw
  exact (hf w hw).run (runs_get_bind.1 h) hw

variable [PortBus σ]

/-- The alternate status is not looked for at the first port of COM1. -/
theorem altStatus_sub_ne (hport : ComPort ((ideChannels channel).port ataRegAltStatus)) :
    (ideChannels channel).port ataRegAltStatus - com1Port ≠ 0 := by
  cases channel with
  | zero => decide
  | succ channel =>
    exact absurd hport
      (show ¬ ComPort (IdeChannel.port ⟨0x170, 0x376, 0, 0⟩ ataRegAltStatus) by decide)

/-- The status registers that the driver reads: of a channel, or the interrupt identification of
COM1 for the alternate status of the primary one. -/
theorem ideRead_beside (channel : ℕ) (hreg : reg < 8 ∨ reg = ataRegAltStatus) :
    Respects Beside (ideRead channel reg : KernelM (Machine σ FifoUart) UInt8) := by
  intro w v w' h hw
  have hhob : ¬ (0x07 < reg ∧ reg < 0x0C) := by
    rw [ataRegAltStatus] at hreg
    omega
  rw [ideRead, ideSelectHob, if_neg hhob] at h
  have hrun : Runs (inb ((ideChannels channel).port reg)) w v w' := by
    rw [← hw]
    exact h
  by_cases hport : ComPort ((ideChannels channel).port reg)
  · rw [Runs, inb_uart hport] at hrun
    generalize hread : w.io.uart.tick.read _ = r at hrun
    obtain ⟨-, rfl⟩ := Prod.mk.inj (Option.some.inj hrun)
    refine ⟨hw, (talks_tick w.io.uart).trans ?_⟩
    show Talks [] [] _ r.2
    rw [← hread]
    refine talks_read ?_
    rcases hreg with hreg | rfl
    · exact absurd hport (not_comPort_of_idePort (idePort_port channel hreg))
    · exact altStatus_sub_ne hport
  · obtain ⟨-, rfl⟩ := Prod.mk.inj (Option.some.inj hrun)
    refine ⟨hw, ?_⟩
    show Talks [] [] w.io.uart (PortBus.inb _ w.io).2.uart
    simp only [PortBus.inb, if_neg hport]
    exact .refl _

theorem ideWrite_beside (channel : ℕ) (data : UInt8) (hreg : reg < 8) :
    Respects Beside (ideWrite channel reg data : KernelM (Machine σ FifoUart) Unit) := by
  intro w v w' h hw
  rw [ideWrite, ideSelectHob, if_neg (by omega)] at h
  have hrun : Runs (outb ((ideChannels channel).port reg) data) w v w' := by
    rw [← hw]
    exact h
  obtain ⟨-, rfl⟩ := Prod.mk.inj (Option.some.inj hrun)
  refine ⟨hw, ?_⟩
  show Talks [] [] w.io.uart (PortBus.outb _ data w.io).uart
  simp only [PortBus.outb, if_neg (not_comPort_of_idePort (idePort_port channel hreg))]
  exact .refl _

theorem insw_beside (hport : ¬ ComPort port) (addr : ℕ) :
    Respects Beside (insw port addr : KernelM (Machine σ FifoUart) Unit) := by
  intro w v w' h hw
  obtain ⟨-, rfl⟩ := Prod.mk.inj (Option.some.inj h)
  refine ⟨hw, ?_⟩
  show Talks [] [] w.io.uart (PortBus.insw port w.io).2.uart
  simp only [PortBus.insw, if_neg hport]
  exact .refl _

theorem inswIdeBuf_beside (hport : ¬ ComPort port) :
    Respects Beside (inswIdeBuf port : KernelM (Machine σ FifoUart) Unit) := by
  intro w v w' h hw
  obtain ⟨-, rfl⟩ := Prod.mk.inj (Option.some.inj h)
  refine ⟨hw, ?_⟩
  show Talks [] [] w.io.uart (PortBus.insw port w.io).2.uart
  simp only [PortBus.insw, if_neg hport]
  exact .refl _

theorem outsw_beside (hport : ¬ ComPort port) (addr : ℕ) :
    Respects Beside (outsw port addr : KernelM (Machine σ FifoUart) Unit) := by
  intro w v w' h hw
  obtain ⟨-, rfl⟩ := Prod.mk.inj (Option.some.inj h)
  refine ⟨hw, ?_⟩
  show Talks [] [] w.io.uart (PortBus.outsw port _ w.io).uart
  simp only [PortBus.outsw, if_neg hport]
  exact .refl _

theorem not_comPort_base (channel : ℕ) : ¬ ComPort (ideChannels channel).base :=
  not_comPort_of_idePort (idePort_base channel)

/-! Everything else is made of these. -/

theorem readAltStatus_beside (channel n : ℕ) :
    Respects Beside (readAltStatus channel n : KernelM (Machine σ FifoUart) Unit) := by
  induction n with
  | zero => exact beside_pure ()
  | succ n ih => exact beside_bind (ideRead_beside _ (.inr rfl)) fun _ ↦ ih

theorem waitWhileBusy_beside (channel fuel : ℕ) :
    Respects Beside (waitWhileBusy channel fuel : KernelM (Machine σ FifoUart) Unit) := by
  induction fuel with
  | zero => exact fun _ _ _ h ↦ by simp [Runs, waitWhileBusy] at h
  | succ fuel ih =>
    exact beside_bind (ideRead_beside _ (.inl (by decide))) fun _ ↦ respects_ite ih (beside_pure ())

theorem idePolling_beside (fuel channel check : ℕ) :
    Respects Beside (idePolling fuel channel check : KernelM (Machine σ FifoUart) ℕ) :=
  beside_bind (readAltStatus_beside _ _) fun _ ↦
    beside_bind (waitWhileBusy_beside _ _) fun _ ↦
      respects_ite
        (beside_bind (ideRead_beside _ (.inl (by decide))) fun _ ↦
          respects_ite (beside_pure _) <| respects_ite (beside_pure _) <|
            respects_ite (beside_pure _) (beside_pure _))
        (beside_pure _)

theorem ideSetup_beside (channel slavebit head count lba0 lba1 lba2 : ℕ) (command : UInt8) :
    Respects Beside (ideSetup channel slavebit head count lba0 lba1 lba2 command :
      KernelM (Machine σ FifoUart) Unit) :=
  beside_bind (ideWrite_beside _ _ (by decide)) fun _ ↦ beside_bind (beside_pure ()) fun _ ↦
    beside_bind (ideWrite_beside _ _ (by decide)) fun _ ↦
      beside_bind (ideWrite_beside _ _ (by decide)) fun _ ↦
        beside_bind (ideWrite_beside _ _ (by decide)) fun _ ↦
          beside_bind (ideWrite_beside _ _ (by decide)) fun _ ↦ ideWrite_beside _ _ (by decide)

theorem readSectorsLoop_beside {bus : ℕ} (hbus : ¬ ComPort bus) (fuel channel buf i n : ℕ) :
    Respects Beside (readSectorsLoop fuel channel bus buf i n :
      KernelM (Machine σ FifoUart) ℕ) := by
  induction n generalizing i with
  | zero => exact beside_pure 0
  | succ n ih =>
    exact beside_bind (idePolling_beside _ _ _) fun _ ↦
      respects_ite (beside_pure _) (beside_bind (insw_beside hbus _) fun _ ↦ ih _)

theorem writeSectorsLoop_beside {bus : ℕ} (hbus : ¬ ComPort bus) (fuel channel data i n : ℕ) :
    Respects Beside (writeSectorsLoop fuel channel bus data i n :
      KernelM (Machine σ FifoUart) ℕ) := by
  induction n generalizing i with
  | zero => exact beside_pure 0
  | succ n ih =>
    exact beside_bind (idePolling_beside _ _ _) fun _ ↦
      respects_ite (beside_pure _) (beside_bind (outsw_beside hbus _) fun _ ↦ ih _)

theorem ideReadSectors_beside (fuel drive numsects lba buf : ℕ) :
    Respects Beside (ideReadSectors fuel drive numsects lba buf :
      KernelM (Machine σ FifoUart) ℕ) := by
  refine beside_get_bind fun w hw ↦ respects_ite (beside_pure 1) ?_
  dsimp only
  rw [hw]
  split
  · exact beside_bind (ideSetup_beside _ _ _ _ _ _ _ _) fun _ ↦
      readSectorsLoop_beside (not_comPort_base _) _ _ _ _ _
  · exact beside_bind (ideSetup_beside _ _ _ _ _ _ _ _) fun _ ↦
      readSectorsLoop_beside (not_comPort_base _) _ _ _ _ _

theorem writeChunksLoop_beside (fuel drive data passes written remaining lba : ℕ) :
    Respects Beside (writeChunksLoop fuel drive data passes written remaining lba :
      KernelM (Machine σ FifoUart) ℕ) := by
  induction passes generalizing written remaining lba with
  | zero =>
    refine respects_ite (beside_pure 0) fun _ _ _ h ↦ ?_
    simp [Runs] at h
  | succ passes ih =>
    refine respects_ite (beside_pure 0) <| respects_ite (beside_pure 3) <|
      beside_get_bind fun w hw ↦ ?_
    rw [hw]
    exact beside_bind (ideSetup_beside _ _ _ _ _ _ _ _) fun _ ↦
      beside_bind (writeSectorsLoop_beside (not_comPort_base _) _ _ _ _ _) fun _ ↦
        respects_ite (beside_pure _) <| beside_bind (ideWrite_beside _ _ (by decide)) fun _ ↦
          beside_bind (idePolling_beside _ _ _) fun _ ↦ respects_ite (beside_pure _) (ih _ _ _)

theorem ideWriteSectorsCounted_beside (fuel drive startLba byteCount buf : ℕ) :
    Respects Beside (ideWriteSectorsCounted fuel drive startLba byteCount buf :
      KernelM (Machine σ FifoUart) ℕ) :=
  beside_bind beside_get fun _ ↦ respects_ite (beside_pure _) <| respects_ite (beside_pure _) <|
    respects_ite (beside_pure _) <| writeChunksLoop_beside _ _ _ _ _ _ _

theorem scanLoop_beside (fuel drive buf lba n : ℕ) (lastUsed : Option ℕ) :
    Respects Beside (scanLoop fuel drive buf lba n lastUsed :
      KernelM (Machine σ FifoUart) _) := by
  induction n generalizing lba lastUsed with
  | zero => exact beside_pure _
  | succ n ih =>
    exact beside_bind (ideReadSectors_beside _ _ _ _ _) fun _ ↦
      respects_ite (beside_pure _) (beside_bind beside_get fun _ ↦ ih _ _)

theorem findNextFreeLba_beside (fuel buf drive : ℕ) :
    Respects Beside (findNextFreeLba fuel buf drive : KernelM (Machine σ FifoUart) ℕ) := by
  refine beside_bind beside_get fun _ ↦ respects_ite (beside_pure _) <|
    respects_ite (beside_pure _) <| respects_ite (beside_pure _) <|
      beside_bind (scanLoop_beside _ _ _ _ _ _) fun res ↦ ?_
  match res with
  | none => exact beside_pure _
  | some none => exact beside_pure _
  | some (some _) => exact respects_ite (beside_pure _) (beside_pure _)

theorem statusWhileBusy_beside (channel fuel : ℕ) (status : UInt8) :
    Respects Beside (statusWhileBusy channel fuel status :
      KernelM (Machine σ FifoUart) UInt8) := by
  induction fuel generalizing status with
  | zero => exact fun _ _ _ h ↦ by simp [Runs, statusWhileBusy] at h
  | succ fuel ih =>
    exact respects_ite (beside_bind (ideRead_beside _ (.inl (by decide))) fun _ ↦ ih _)
      (beside_pure _)

theorem ideDeviceExists_beside (fuel channel drive : ℕ) :
    Respects Beside (ideDeviceExists fuel channel drive : KernelM (Machine σ FifoUart) ℕ) :=
  respects_ite (beside_pure _) <| respects_ite (beside_pure _) <|
    beside_bind (ideWrite_beside _ _ (by decide)) fun _ ↦
      beside_bind (readAltStatus_beside _ _) fun _ ↦
        beside_bind (ideRead_beside _ (.inl (by decide))) fun _ ↦ respects_ite (beside_pure _) <|
          beside_bind (ideWrite_beside _ _ (by decide)) fun _ ↦
            beside_bind (readAltStatus_beside _ _) fun _ ↦
              beside_bind (ideRead_beside _ (.inl (by decide))) fun _ ↦
                respects_ite (beside_pure _) <|
                  beside_bind (statusWhileBusy_beside _ _ _) fun _ ↦
                    respects_ite (beside_pure _) <|
                      beside_bind (ideRead_beside _ (.inl (by decide))) fun _ ↦
                        beside_bind (ideRead_beside _ (.inl (by decide))) fun _ ↦ beside_pure _

theorem awaitData_beside (channel fuel : ℕ) :
    Respects Beside (awaitData channel fuel : KernelM (Machine σ FifoUart) Bool) := by
  induction fuel with
  | zero => exact fun _ _ _ h ↦ by simp [Runs, awaitData] at h
  | succ fuel ih =>
    exact beside_bind (ideRead_beside _ (.inl (by decide))) fun _ ↦
      respects_ite (beside_pure _) (respects_ite (beside_pure _) ih)

theorem ideIdentify_beside (fuel channel drive : ℕ) :
    Respects Beside (ideIdentify fuel channel drive : KernelM (Machine σ FifoUart) Unit) := by
  refine beside_get_bind fun w hw ↦ ?_
  rw [hw]
  exact beside_bind (ideWrite_beside _ _ (by decide)) fun _ ↦ beside_bind (beside_pure ()) fun _ ↦
    beside_bind (ideWrite_beside _ _ (by decide)) fun _ ↦
      beside_bind (ideWrite_beside _ _ (by decide)) fun _ ↦
        beside_bind (ideWrite_beside _ _ (by decide)) fun _ ↦
          beside_bind (ideWrite_beside _ _ (by decide)) fun _ ↦
            beside_bind (ideWrite_beside _ _ (by decide)) fun _ ↦
              beside_bind (beside_pure ()) fun _ ↦
                beside_bind (ideRead_beside _ (.inl (by decide))) fun _ ↦
                  respects_ite (beside_pure _) <|
                    beside_bind (awaitData_beside _ _) fun _ ↦
                      respects_ite
                        (beside_bind (inswIdeBuf_beside (not_comPort_base channel)) fun _ ↦
                          beside_modify (fun _ ↦ rfl) fun _ ↦ id)
                        (beside_pure _)

theorem ideInitializeLoop_beside (fuel i n : ℕ) :
    Respects Beside (ideInitializeLoop fuel i n : KernelM (Machine σ FifoUart) Unit) := by
  induction n generalizing i with
  | zero => exact beside_pure ()
  | succ n ih =>
    refine beside_bind ?_ fun _ ↦ ih _
    exact beside_bind (beside_modify (fun _ ↦ rfl) fun _ ↦ id) fun _ ↦
      beside_bind (ideDeviceExists_beside _ _ _) fun _ ↦
        respects_ite (beside_pure _) <| respects_ite (beside_pure _) <|
          respects_ite (beside_pure _) (ideIdentify_beside _ _ _)

/-- **A call of the IDE driver** leaves the line alone, unless it is `ide_initialize`. -/
theorem IdeCall.run_beside {call : IdeCall} (hcall : call ≠ .init) (fuel : ℕ) :
    Respects Beside (call.run fuel : KernelM (Machine σ FifoUart) Unit) := by
  cases call with
  | init => exact absurd rfl hcall
  | identify => exact ideIdentify_beside _ _ _
  | delay => exact readAltStatus_beside _ _
  | polling => exact beside_bind (idePolling_beside _ _ _) fun _ ↦ beside_pure ()
  | readSectors => exact beside_bind (ideReadSectors_beside _ _ _ _ _) fun _ ↦ beside_pure ()
  | writeSectors =>
    exact beside_bind (ideWriteSectorsCounted_beside _ _ _ _ _) fun _ ↦ beside_pure ()
  | findNextFree => exact beside_bind (findNextFreeLba_beside _ _ _) fun _ ↦ beside_pure ()

/-- **`ide_initialize`** turns the FIFOs of COM1 off, and may lose what waits in them. -/
theorem exchanges_ideInitialize (h : Runs (ideInitialize fuel) w () w') :
    w'.Wired ∧ Exchanges [] [] w.io.uart w'.io.uart ∧ w'.io.uart.dlab = w.io.uart.dlab ∧
      w'.io.uart.fifoOn = false := by
  obtain ⟨_, w₁, hmodify, h⟩ := runs_bind.1 h
  obtain rfl := runs_modify.1 hmodify
  obtain ⟨_, w₂, hfirst, h⟩ := runs_bind.1 h
  obtain ⟨_, w₃, hsecond, h⟩ := runs_bind.1 h
  have hw₂ : w₂.Wired ∧ w₂.io.uart = w.io.uart.tick.write 2 2 := by
    have hport : Runs (outb 0x3FA 2) { w with channels := ideChannels } () w₂ := hfirst
    rw [Runs, outb_uart (by decide)] at hport
    obtain ⟨-, rfl⟩ := Prod.mk.inj (Option.some.inj hport)
    exact ⟨rfl, rfl⟩
  obtain ⟨hwired₂, huart₂⟩ := hw₂
  have hw₃ : w₃.Wired ∧ w₃.io.uart = w₂.io.uart := by
    have hport : Runs (outb ((w₂.channels 1).port ataRegControl) 2) w₂ () w₃ := hsecond
    rw [hwired₂] at hport
    obtain ⟨-, rfl⟩ := Prod.mk.inj (Option.some.inj hport)
    exact ⟨hwired₂, rfl⟩
  obtain ⟨hwired₃, huart₃⟩ := hw₃
  obtain ⟨hwired, htalks⟩ := (ideInitializeLoop_beside fuel 0 4).run h hwired₃
  rw [huart₃] at htalks
  have hexchanges : Exchanges [] [] w.io.uart w₂.io.uart :=
    huart₂ ▸ exchanges_outb (.inl (by decide))
  have hdlab : w₂.io.uart.dlab = w.io.uart.dlab := by
    rw [huart₂, ← (talks_tick w.io.uart).dlab_eq, dlab, dlab]
    exact congrArg (fun v : UInt8 ↦ decide (v &&& 0x80 ≠ 0)) (lcr_setFcr _ _)
  refine ⟨hwired, hexchanges.trans htalks.exchanges, htalks.dlab_eq.trans hdlab, ?_⟩
  rw [fifoOn, htalks.fcr_eq, huart₂]
  show decide ((2 : UInt8) &&& 0x01 ≠ 0) = false
  decide

end Ide

/-! ### Sessions -/

/-- A call that returns, with what it returns. -/
inductive LineCall where
  /-- `serial_init()` -/
  | init
  /-- `serial_read()`, which returns `c`. -/
  | read (c : UInt8)
  /-- `serial_write(c)` -/
  | write (c : UInt8)
  /-- `serial_write_string(s)`, with the string `t` at `s`. -/
  | writeString (s : ℕ) (t : List UInt8)
  /-- `serial_printf`, with the format `fs` at `format` and the arguments of the items `is`. -/
  | printf (format : ℕ) (args : ℕ → UInt32) (fs : List UInt8) (is : List Item)
  /-- A call of the IDE driver. -/
  | ide (call : IdeCall)

namespace LineCall

/-- The characters that it is to send. -/
def written : LineCall → List UInt8
  | write c => [c]
  | writeString _ t => t
  | printf _ _ _ is => is.flatMap Item.sent
  | _ => []

/-- The character that it has read. -/
def taken : LineCall → List UInt8
  | read c => [c]
  | _ => []

/-- It clears the FIFOs. -/
def Resets : LineCall → Prop
  | init => True
  | ide call => call = .init
  | _ => False

variable {σ : Type} [PortBus σ]

/-- The call returns. -/
def Returns : LineCall → Kernel (Machine σ FifoUart) → Kernel (Machine σ FifoUart) → Prop
  | init, w, w' => Runs serialInit w () w'
  | read c, w, w' => Ends serialRead w c w'
  | write c, w, w' => Ends (serialWrite c) w () w'
  | writeString s t, w, w' =>
    s ≠ 0 ∧ CString w.mem s t ∧ Ends (fun fuel ↦ serialWriteString fuel s) w () w'
  | printf format args fs is, w, w' =>
    FormatCall w.mem format args fs is ∧ Ends (fun fuel ↦ serialPrintf fuel format args) w () w'
  | ide call, w, w' => ∃ fuel, Runs (call.run fuel) w () w'

end LineCall

/-- The serial port is set up for characters, and the channel table for disks. -/
structure Kernel.OnLine {σ : Type} (w : Kernel (Machine σ FifoUart)) : Prop where
  /-- The channel table. -/
  wired : w.Wired
  /-- The first two ports are not the divisor's. -/
  dlab_eq : w.io.uart.dlab = false

section Sessions

variable {σ : Type} [PortBus σ] {w w' : Kernel (Machine σ FifoUart)} {e : LineCall}
  {es : List LineCall} {format : ℕ} {args : ℕ → UInt32} {fs : List UInt8}
  {is : List Item}

/-- What a call writes that writes characters. -/
theorem talks_of_writesChars {m : ℕ → KernelM (Machine σ FifoUart) Unit} {cs : List UInt8}
    (hends : Ends m w () w') (hm : WritesChars m w () cs) (hw : w.OnLine) :
    w'.OnLine ∧ Talks cs [] w.io.uart w'.io.uart := by
  obtain ⟨w₁, hends₁, hchars⟩ := hm
  obtain ⟨-, rfl⟩ := hends.unique hends₁
  obtain ⟨fuel, hrun⟩ := hchars.exists_runs
  obtain ⟨hchannels, htalks⟩ := talks_serialWriteChars hrun hw.dlab_eq
  exact ⟨⟨hchannels.trans hw.wired, htalks.dlab_eq.trans hw.dlab_eq⟩, htalks⟩

/-- **A call that clears nothing** moves its characters and loses none on the way to the wire. -/
theorem LineCall.Returns.talks (h : e.Returns w w') (hw : w.OnLine) (he : ¬ e.Resets) :
    w'.OnLine ∧ Talks e.written e.taken w.io.uart w'.io.uart := by
  cases e with
  | init => exact absurd trivial he
  | read c =>
    obtain ⟨fuel, hrun⟩ := h.exists_runs
    obtain ⟨hchannels, htalks⟩ := talks_serialRead hrun hw.dlab_eq
    exact ⟨⟨hchannels.trans hw.wired, htalks.dlab_eq.trans hw.dlab_eq⟩, htalks⟩
  | write c => exact talks_of_writesChars h (writesChars_serialWrite lineFrees_fifoUart) hw
  | writeString s t =>
    obtain ⟨hs, ht, hends⟩ := h
    exact talks_of_writesChars hends (writesChars_serialWriteString lineFrees_fifoUart hs ht) hw
  | printf format args fs is =>
    obtain ⟨hcall, hends⟩ := h
    exact talks_of_writesChars hends (writesChars_serialPrintf lineFrees_fifoUart hcall) hw
  | ide call =>
    obtain ⟨fuel, hrun⟩ := h
    obtain ⟨hwired, htalks⟩ := (IdeCall.run_beside he fuel).run hrun hw.wired
    exact ⟨⟨hwired, htalks.dlab_eq.trans hw.dlab_eq⟩, htalks⟩

/-- **Every call** moves its characters. -/
theorem LineCall.Returns.exchanges (h : e.Returns w w') (hw : w.OnLine) :
    w'.OnLine ∧ Exchanges e.written e.taken w.io.uart w'.io.uart := by
  by_cases he : e.Resets
  · cases e with
    | init =>
      obtain ⟨hchannels, hexchanges, hdlab, -, -⟩ := exchanges_serialInit h
      exact ⟨⟨hchannels.trans hw.wired, hdlab⟩, hexchanges⟩
    | ide call =>
      obtain rfl : call = .init := he
      obtain ⟨fuel, hrun⟩ := h
      obtain ⟨hwired, hexchanges, hdlab, -⟩ := exchanges_ideInitialize hrun
      exact ⟨⟨hwired, hdlab.trans hw.dlab_eq⟩, hexchanges⟩
    | read c => exact he.elim
    | write c => exact he.elim
    | writeString s t => exact he.elim
    | printf format args fs is => exact he.elim
  · obtain ⟨hw', htalks⟩ := h.talks hw he
    exact ⟨hw', htalks.exchanges⟩

/-- A session of calls that clear nothing. -/
theorem Trace.talks (h : Trace LineCall.Returns es w w') (hw : w.OnLine)
    (hes : ∀ e ∈ es, ¬ e.Resets) :
    Talks (es.flatMap LineCall.written) (es.flatMap LineCall.taken) w.io.uart w'.io.uart :=
  (h.compose (R := fun cs rs w w' ↦ Talks cs rs w.io.uart w'.io.uart) (fun _ ↦ .refl _) Talks.trans
    (fun e he _ _ hw hstep ↦ hstep.talks hw (hes e he)) hw).2

end Sessions

/-! ### A line that is always busy -/
