import BinbowsDOS.Ide.SectorTransfer
import BinbowsDOS.Ide.Watch

/-!
# The ports the driver uses

The registers with numbers below 8 are in the command block of a channel. The control register
and the alternate status have number `0x0C` in the driver, which puts them at the control base
plus 4: at `0x3FA` and `0x37A`, where no IDE channel has a register. Whoever polls reads there,
and `ide_initialize` writes there. The other calls stay on the IDE ports, and these are the ones
that fail or return early, and `ide_identify` (`IdeCall.Quiet.inRange`).

The driver does not check its channels, and `ide_identify` not its drive: with numbers from outside
the two tables it takes other variables of the kernel for entries of theirs. Nothing is said of
such calls (`IdeCall.InTables`).

A statement about all that a program may do to the ports is a preorder on buses that every access
respects (`BusPreorder`). Every program of the driver then respects it too, whatever it computes.
-/

open Prog Kernel

/-- The ports of the two IDE channels: the command blocks and the device controls. -/
def IdePort (port : ℕ) : Prop :=
  0x1F0 ≤ port ∧ port ≤ 0x1F7 ∨ 0x3F6 ≤ port ∧ port ≤ 0x3F7 ∨
    0x170 ≤ port ∧ port ≤ 0x177 ∨ 0x376 ≤ port ∧ port ≤ 0x377

instance (port : ℕ) : Decidable (IdePort port) := inferInstanceAs (Decidable (_ ∨ _))

/-! ### What all programs respect -/

/-- A preorder on buses that every access respects. -/
structure BusPreorder {σ : Type} [PortBus σ] (r : σ → σ → Prop) : Prop where
  /-- Reflexive. -/
  refl : ∀ b, r b b
  /-- Transitive. -/
  trans : ∀ a b c, r a b → r b c → r a c
  /-- `inb` -/
  inb : ∀ port b, r b (PortBus.inb port b).2
  /-- `outb` -/
  outb : ∀ port data b, r b (PortBus.outb port data b)
  /-- `insw` -/
  insw : ∀ port b, r b (PortBus.insw port b).2
  /-- `outsw` -/
  outsw : ∀ port s b, r b (PortBus.outsw port s b)

/-- The buses are related, and the channel table stays as `ide_initialize` sets it up. -/
def Kernel.Follows {σ : Type} (r : σ → σ → Prop) (w w' : Kernel σ) : Prop :=
  (w.Wired → w'.Wired) ∧ r w.io w'.io

section Follows

variable {σ α β : Type} [PortBus σ] {r : σ → σ → Prop} (hr : BusPreorder r)

include hr

theorem BusPreorder.access : PortAccess (Follows r) where
  refl w := ⟨id, hr.refl w.io⟩
  trans _ _ _ h₁ h₂ := ⟨h₂.1 ∘ h₁.1, hr.trans _ _ _ h₁.2 h₂.2⟩
  inb port := by
    rintro w v w' h
    obtain ⟨-, rfl⟩ := Prod.mk.inj (Option.some.inj h)
    exact ⟨id, hr.inb port w.io⟩
  outb port data := by
    rintro w v w' h
    obtain ⟨-, rfl⟩ := Prod.mk.inj (Option.some.inj h)
    exact ⟨id, hr.outb port data w.io⟩
  outsw port addr := by
    rintro w v w' h
    obtain ⟨-, rfl⟩ := Prod.mk.inj (Option.some.inj h)
    exact ⟨id, hr.outsw port _ w.io⟩

/-- A change that leaves the bus and the wiring alone. -/
theorem follows_modify {g : Kernel σ → Kernel σ} (hio : ∀ w, (g w).io = w.io)
    (hwired : ∀ w, w.Wired → (g w).Wired) :
    Respects (Follows r) (modify g : KernelM σ PUnit) := by
  intro w u w' h
  obtain rfl := runs_modify.1 h
  refine ⟨hwired w, ?_⟩
  rw [hio w]
  exact hr.refl w.io

theorem insw_follows (port addr : ℕ) :
    Respects (Follows r) (insw port addr : KernelM σ Unit) := by
  rintro w v w' h
  obtain ⟨-, rfl⟩ := Prod.mk.inj (Option.some.inj h)
  exact ⟨id, hr.insw port w.io⟩

theorem inswIdeBuf_follows (port : ℕ) :
    Respects (Follows r) (inswIdeBuf port : KernelM σ Unit) := by
  rintro w v w' h
  obtain ⟨-, rfl⟩ := Prod.mk.inj (Option.some.inj h)
  exact ⟨id, hr.insw port w.io⟩

theorem readSectorsLoop_follows (fuel channel bus buf i n : ℕ) :
    Respects (Follows r) (readSectorsLoop fuel channel bus buf i n : KernelM σ ℕ) := by
  have hR := hr.access
  induction n generalizing i with
  | zero => exact hR.pure 0
  | succ n ih =>
    exact hR.bind (idePolling_respects hR _ _ _) fun _ ↦
      respects_ite (hR.pure _) (hR.bind (insw_follows hr _ _) fun _ ↦ ih _)

theorem ideReadSectors_follows (fuel drive numsects lba buf : ℕ) :
    Respects (Follows r) (ideReadSectors fuel drive numsects lba buf : KernelM σ ℕ) := by
  have hR := hr.access
  refine hR.bind hR.get fun _ ↦ respects_ite (hR.pure _) (respects_ite ?_ ?_)
  · exact hR.bind (ideSetup_respects hR _ _ _ _ _ _ _ _) fun _ ↦
      readSectorsLoop_follows hr _ _ _ _ _ _
  · exact hR.bind (ideSetup_respects hR _ _ _ _ _ _ _ _) fun _ ↦
      readSectorsLoop_follows hr _ _ _ _ _ _

theorem scanLoop_follows (fuel drive buf lba n : ℕ) (lastUsed : Option ℕ) :
    Respects (Follows r) (scanLoop fuel drive buf lba n lastUsed : KernelM σ _) := by
  have hR := hr.access
  induction n generalizing lba lastUsed with
  | zero => exact hR.pure _
  | succ n ih =>
    exact hR.bind (ideReadSectors_follows hr _ _ _ _ _) fun _ ↦
      respects_ite (hR.pure _) (hR.bind hR.get fun _ ↦ ih _ _)

theorem findNextFreeLba_follows (fuel buf drive : ℕ) :
    Respects (Follows r) (findNextFreeLba fuel buf drive : KernelM σ ℕ) := by
  have hR := hr.access
  refine hR.bind hR.get fun _ ↦ respects_ite (hR.pure _) <| respects_ite (hR.pure _) <|
    respects_ite (hR.pure _) <| hR.bind (scanLoop_follows hr _ _ _ _ _ _) fun res ↦ ?_
  match res with
  | none => exact hR.pure _
  | some none => exact hR.pure _
  | some (some _) => exact respects_ite (hR.pure _) (hR.pure _)

theorem ideIdentify_follows (fuel channel drive : ℕ) :
    Respects (Follows r) (ideIdentify fuel channel drive : KernelM σ Unit) := by
  have hR := hr.access
  refine hR.bind hR.get fun _ ↦ hR.bind (ideWrite_respects hR _ _ _) fun _ ↦
    hR.bind (hR.pure ()) fun _ ↦ hR.bind (ideWrite_respects hR _ _ _) fun _ ↦
      hR.bind (ideWrite_respects hR _ _ _) fun _ ↦ hR.bind (ideWrite_respects hR _ _ _) fun _ ↦
        hR.bind (ideWrite_respects hR _ _ _) fun _ ↦
          hR.bind (ideWrite_respects hR _ _ _) fun _ ↦ hR.bind (hR.pure ()) fun _ ↦
            hR.bind (ideRead_respects hR _ _) fun _ ↦ respects_ite (hR.pure _) <|
              hR.bind (awaitData_respects hR _ _) fun _ ↦ respects_ite ?_ (hR.pure _)
  exact hR.bind (inswIdeBuf_follows hr _) fun _ ↦ follows_modify hr (fun _ ↦ rfl) fun _ ↦ id

theorem ideInitializeSlot_follows (fuel i : ℕ) :
    Respects (Follows r) (ideInitializeSlot fuel i : KernelM σ Unit) := by
  have hR := hr.access
  exact hR.bind (follows_modify hr (fun _ ↦ rfl) fun _ ↦ id) fun _ ↦
    hR.bind (ideDeviceExists_respects hR _ _ _) fun _ ↦
      respects_ite (hR.pure _) <| respects_ite (hR.pure _) <|
        respects_ite (hR.pure _) (ideIdentify_follows hr _ _ _)

theorem ideInitializeLoop_follows (fuel i n : ℕ) :
    Respects (Follows r) (ideInitializeLoop fuel i n : KernelM σ Unit) := by
  induction n generalizing i with
  | zero => exact hr.access.pure ()
  | succ n ih => exact hr.access.bind (ideInitializeSlot_follows hr _ _) fun _ ↦ ih _

theorem ideInitialize_follows (fuel : ℕ) :
    Respects (Follows r) (ideInitialize fuel : KernelM σ Unit) := by
  have hR := hr.access
  exact hR.bind (follows_modify hr (fun _ ↦ rfl) fun _ _ ↦ rfl) fun _ ↦
    hR.bind (ideWrite_respects hR _ _ _) fun _ ↦
      hR.bind (ideWrite_respects hR _ _ _) fun _ ↦ ideInitializeLoop_follows hr _ _ _

end Follows

/-! ### Which ports -/

section Range

variable {σ : Type} {w w' w'' : Kernel (Watched σ)}

namespace Kernel

/-- Between two states only IDE ports have been accessed. -/
def InRange (w w' : Kernel (Watched σ)) : Prop :=
  w.Wired → w'.Wired ∧ ∃ es, w.Emits es w' ∧ ∀ e ∈ es, IdePort e.port

/-- Between two states another port has been accessed. -/
def Strays (w w' : Kernel (Watched σ)) : Prop := ∃ es, w.Emits es w' ∧ ∃ e ∈ es, ¬ IdePort e.port

/-- The log has grown. -/
def Grows (w w' : Kernel (Watched σ)) : Prop := ∃ es, w.Emits es w'

theorem InRange.refl (w : Kernel (Watched σ)) : InRange w w :=
  fun hw ↦ ⟨hw, [], Emits.refl w, fun _ he ↦ absurd he List.not_mem_nil⟩

theorem InRange.trans (h₁ : InRange w w') (h₂ : InRange w' w'') : InRange w w'' := by
  intro hw
  obtain ⟨hw', es, hemits, hes⟩ := h₁ hw
  obtain ⟨hw'', es', hemits', hes'⟩ := h₂ hw'
  exact ⟨hw'', _, hemits.trans hemits', List.forall_mem_append.2 ⟨hes, hes'⟩⟩

/-- The two exclude each other. -/
theorem Strays.not_forall (h : Strays w w') {es : List (PortEvent σ)} (hemits : w.Emits es w') :
    ¬ ∀ e ∈ es, IdePort e.port := by
  obtain ⟨es', hemits', e, he, hport⟩ := h
  obtain rfl := hemits.unique hemits'
  exact fun hall ↦ hport (hall e he)

theorem Strays.then (h₁ : Strays w w') (h₂ : Grows w' w'') : Strays w w'' := by
  obtain ⟨es, hemits, e, he, hport⟩ := h₁
  obtain ⟨es', hemits'⟩ := h₂
  exact ⟨es ++ es', hemits.trans hemits', e, List.mem_append_left _ he, hport⟩

theorem Grows.strays (h₁ : Grows w w') (h₂ : Strays w' w'') : Strays w w'' := by
  obtain ⟨es, hemits⟩ := h₁
  obtain ⟨es', hemits', e, he, hport⟩ := h₂
  exact ⟨es ++ es', hemits.trans hemits', e, List.mem_append_right _ he, hport⟩

end Kernel

theorem inRange_modify {g : Kernel (Watched σ) → Kernel (Watched σ)} (hio : ∀ w, (g w).io = w.io)
    (hwired : ∀ w, w.Wired → (g w).Wired) :
    Respects InRange (modify g : KernelM (Watched σ) PUnit) := by
  intro w u w' h hw
  obtain rfl := runs_modify.1 h
  refine ⟨hwired w hw, [], ?_, fun _ he ↦ absurd he List.not_mem_nil⟩
  rw [Emits, hio w, List.append_nil]

theorem inRange_bind {α β : Type} {m : KernelM (Watched σ) α} {f : α → KernelM (Watched σ) β}
    (hm : Respects InRange m) (hf : ∀ a, Respects InRange (f a)) : Respects InRange (m >>= f) :=
  respects_bind (fun _ _ _ ↦ InRange.trans) hm hf

theorem inRange_pure {α : Type} (a : α) : Respects InRange (pure a : KernelM (Watched σ) α) :=
  respects_pure InRange.refl a

theorem Kernel.Follows.grows {w w' : Kernel (Watched σ)}
    (h : Follows (fun b b' : Watched σ ↦ ∃ es, b'.log = b.log ++ es) w w') : Grows w w' := h.2

/-- A run of a call whose result is dropped. -/
theorem runs_drop {α : Type} {m : KernelM (Watched σ) α} {u : Unit} :
    Runs (do let _ ← m; pure ()) w u w' ↔ ∃ a, Runs m w a w' := by
  constructor
  · intro h
    obtain ⟨a, t, hm, hret⟩ := runs_bind.1 h
    obtain ⟨-, rfl⟩ := runs_pure.1 hret
    exact ⟨a, hm⟩
  · rintro ⟨a, hm⟩
    exact runs_bind.2 ⟨a, w', hm, runs_pure.2 ⟨rfl, rfl⟩⟩

/-- A call that returns at once. -/
theorem inRange_of_returns {α : Type} {m : KernelM (Watched σ) α} {a : α} {u : Unit}
    (hm : m w = some (a, w)) (h : Runs (do let _ ← m; pure ()) w u w') : InRange w w' := by
  obtain ⟨a', h⟩ := runs_drop.1 h
  obtain ⟨-, rfl⟩ := Runs.unique hm h
  exact InRange.refl w

end Range

section Ports

variable {σ : Type} [PortBus σ] {w w' : Kernel (Watched σ)} {channel reg fuel : ℕ}

theorem idePort_port (channel : ℕ) (hreg : reg < 8) : IdePort ((ideChannels channel).port reg) := by
  match channel with
  | 0 => interval_cases reg <;> decide
  | c + 1 =>
    show IdePort (IdeChannel.port ⟨0x170, 0x376, 0, 0⟩ reg)
    interval_cases reg <;> decide

theorem idePort_base (channel : ℕ) : IdePort (ideChannels channel).base := by
  match channel with
  | 0 => decide
  | c + 1 => exact of_decide_eq_true rfl

/-- The port at which the driver looks for the control register and the alternate status. -/
theorem not_idePort_altStatus (channel : ℕ) :
    ¬ IdePort ((ideChannels channel).port ataRegAltStatus) := by
  match channel with
  | 0 => decide
  | c + 1 => exact of_decide_eq_true rfl

/-- The log only grows. -/
theorem busPreorder_log :
    BusPreorder fun b b' : Watched σ ↦ ∃ es, b'.log = b.log ++ es where
  refl b := ⟨[], (List.append_nil _).symm⟩
  trans := by
    rintro a b c ⟨es, h₁⟩ ⟨es', h₂⟩
    exact ⟨es ++ es', by rw [h₂, h₁, List.append_assoc]⟩
  inb _ _ := ⟨_, rfl⟩
  outb _ _ _ := ⟨_, rfl⟩
  insw _ _ := ⟨_, rfl⟩
  outsw _ _ _ := ⟨_, rfl⟩

theorem ideRead_inRange (channel : ℕ) (hreg : reg < 8) :
    Respects InRange (ideRead channel reg : KernelM (Watched σ) UInt8) := by
  intro w v w' h hw
  refine ⟨((ideRead_respects busPreorder_log.access _ _).run h).1 hw, _,
    ideRead_emits (by omega) h, ?_⟩
  rw [hw]
  simpa [PortEvent.port] using idePort_port channel hreg

theorem ideWrite_inRange (channel : ℕ) (data : UInt8) (hreg : reg < 8) :
    Respects InRange (ideWrite channel reg data : KernelM (Watched σ) Unit) := by
  intro w u w' h hw
  refine ⟨((ideWrite_respects busPreorder_log.access _ _ _).run h).1 hw, _,
    ideWrite_emits (by omega) h, ?_⟩
  rw [hw]
  simpa [PortEvent.port] using idePort_port channel hreg

theorem awaitData_inRange (channel fuel : ℕ) :
    Respects InRange (awaitData channel fuel : KernelM (Watched σ) Bool) := by
  induction fuel with
  | zero => exact fun _ _ _ h ↦ by simp [Runs, awaitData] at h
  | succ fuel ih =>
    exact inRange_bind (ideRead_inRange _ (by decide)) fun _ ↦
      respects_ite (inRange_pure _) (respects_ite (inRange_pure _) ih)

theorem inswIdeBuf_inRange {port : ℕ} (hport : IdePort port) :
    Respects InRange (inswIdeBuf port : KernelM (Watched σ) Unit) := by
  rintro w v w' h hw
  obtain ⟨-, rfl⟩ := Prod.mk.inj (Option.some.inj h)
  exact ⟨hw, [.insw port], rfl, by simpa [PortEvent.port] using hport⟩

theorem ideSetup_inRange (channel slavebit head count lba0 lba1 lba2 : ℕ) (command : UInt8) :
    Respects InRange (ideSetup channel slavebit head count lba0 lba1 lba2 command :
      KernelM (Watched σ) Unit) :=
  inRange_bind (ideWrite_inRange _ _ (by decide)) fun _ ↦ inRange_bind (inRange_pure ()) fun _ ↦
    inRange_bind (ideWrite_inRange _ _ (by decide)) fun _ ↦
      inRange_bind (ideWrite_inRange _ _ (by decide)) fun _ ↦
        inRange_bind (ideWrite_inRange _ _ (by decide)) fun _ ↦
          inRange_bind (ideWrite_inRange _ _ (by decide)) fun _ ↦
            ideWrite_inRange _ _ (by decide)

/-- **`ide_identify`** stays on the IDE ports. -/
theorem ideIdentify_inRange (fuel channel drive : ℕ) :
    Respects InRange (ideIdentify fuel channel drive : KernelM (Watched σ) Unit) := by
  intro w u w' h hw
  rw [ideIdentify, runs_get_bind, hw] at h
  refine Respects.run (R := InRange) ?_ h hw
  exact inRange_bind (ideWrite_inRange _ _ (by decide)) fun _ ↦
    inRange_bind (inRange_pure ()) fun _ ↦
      inRange_bind (ideWrite_inRange _ _ (by decide)) fun _ ↦
        inRange_bind (ideWrite_inRange _ _ (by decide)) fun _ ↦
          inRange_bind (ideWrite_inRange _ _ (by decide)) fun _ ↦
            inRange_bind (ideWrite_inRange _ _ (by decide)) fun _ ↦
              inRange_bind (ideWrite_inRange _ _ (by decide)) fun _ ↦
                inRange_bind (inRange_pure ()) fun _ ↦
                  inRange_bind (ideRead_inRange _ (by decide)) fun _ ↦
                    respects_ite (inRange_pure _) <|
                      inRange_bind (awaitData_inRange _ _) fun _ ↦
                        respects_ite
                          (inRange_bind (inswIdeBuf_inRange (idePort_base channel)) fun _ ↦
                            inRange_modify (fun _ ↦ rfl) fun _ ↦ id)
                          (inRange_pure _)

/-! ### Who polls -/

/-- The first read of the alternate status is of a wrong port. -/
theorem readAltStatus_strays {n : ℕ} {u : Unit} (hw : w.Wired)
    (h : Runs (readAltStatus channel (n + 1)) w u w') : Strays w w' := by
  obtain ⟨v, t, hread, h⟩ := runs_bind.1 h
  refine Strays.then ⟨_, ideRead_emits (by decide) hread, _, List.mem_singleton_self _, ?_⟩
    ((readAltStatus_respects busPreorder_log.access _ _).run h).grows
  rw [hw]
  exact not_idePort_altStatus channel

/-- So polling strays, -/
theorem idePolling_strays {check r : ℕ} (hw : w.Wired)
    (h : Runs (idePolling fuel channel check) w r w') : Strays w w' := by
  have hrest : Respects Grows (do
      waitWhileBusy channel fuel
      if check ≠ 0 then
        let state ← ideRead channel ataRegStatus
        if state &&& ataSrErr ≠ 0 then pure 2
        else if state &&& ataSrDf ≠ 0 then pure 1
        else if state &&& ataSrDrq = 0 then pure 3
        else pure 0
      else pure 0 : KernelM (Watched σ) ℕ) := by
    have hr := busPreorder_log (σ := σ)
    have hR := hr.access
    refine Respects.mono ?_ fun _ _ h ↦ Follows.grows h
    exact hR.bind (waitWhileBusy_respects hR _ _) fun _ ↦ respects_ite
      (hR.bind (ideRead_respects hR _ _) fun _ ↦
        respects_ite (hR.pure _) <| respects_ite (hR.pure _) <|
          respects_ite (hR.pure _) (hR.pure _))
      (hR.pure _)
  obtain ⟨_, t, halt, h⟩ := runs_bind.1 h
  exact (readAltStatus_strays hw halt).then (hrest.run h)

/-- and so does everything that polls. -/
theorem strays_of_polling {α : Type} {check : ℕ} {f : ℕ → KernelM (Watched σ) α} {a : α}
    (hw : w.Wired) (hf : ∀ r, Respects Grows (f r))
    (h : Runs (idePolling fuel channel check >>= f) w a w') : Strays w w' := by
  obtain ⟨r, t, hpoll, h⟩ := runs_bind.1 h
  exact (idePolling_strays hw hpoll).then ((hf r).run h)

theorem readSectorsLoop_strays {bus buf i n r : ℕ} (hw : w.Wired)
    (h : Runs (readSectorsLoop fuel channel bus buf i (n + 1)) w r w') : Strays w w' := by
  have hr := busPreorder_log (σ := σ)
  have hR := hr.access
  exact strays_of_polling hw (fun r ↦ (respects_ite (hR.pure _)
    (hR.bind (insw_follows hr _ _) fun _ ↦
      readSectorsLoop_follows hr _ _ _ _ _ _)).mono fun _ _ h ↦ Follows.grows h) h

theorem writeSectorsLoop_strays {bus data i n r : ℕ} (hw : w.Wired)
    (h : Runs (writeSectorsLoop fuel channel bus data i (n + 1)) w r w') : Strays w w' := by
  have hr := busPreorder_log (σ := σ)
  have hR := hr.access
  exact strays_of_polling hw (fun r ↦ (respects_ite (hR.pure _)
    (hR.bind (hR.outsw _ _) fun _ ↦
      writeSectorsLoop_respects hR _ _ _ _ _ _)).mono fun _ _ h ↦ Follows.grows h) h

/-- A read of at least one sector from a drive that exists strays. -/
theorem ideReadSectors_strays {drive n lba buf r : ℕ} (hw : w.Wired)
    (hpresent : ¬ (3 < drive ∨ (w.ideDevices drive).reserved = 0)) (hn : n ≠ 0)
    (h : Runs (ideReadSectors fuel drive n lba buf) w r w') : Strays w w' := by
  obtain ⟨n, rfl⟩ := Nat.exists_eq_succ_of_ne_zero hn
  rw [ideReadSectors, runs_get_bind, if_neg hpresent] at h
  dsimp only at h
  split at h
  all_goals
    obtain ⟨_, t, hsetup, hloop⟩ := runs_bind.1 h
    have hfollows := (ideSetup_respects busPreorder_log.access _ _ _ _ _ _ _ _).run hsetup
    exact hfollows.grows.strays (readSectorsLoop_strays (hfollows.1 hw) hloop)

/-- So does a write of at least one sector to an address of 28 bits. -/
theorem ideWriteSectorsCounted_strays {drive n lba buf r : ℕ} (hw : w.Wired)
    (hpresent : ¬ (3 < drive ∨ (w.ideDevices drive).reserved = 0)) (hn : n ≠ 0)
    (hlba : lba ≤ 0x0FFFFFFF)
    (h : Runs (ideWriteSectorsCounted fuel drive lba (512 * n) buf) w r w') : Strays w w' := by
  have hr := busPreorder_log (σ := σ)
  have hR := hr.access
  obtain ⟨k, rfl⟩ := Nat.exists_eq_succ_of_ne_zero hn
  obtain ⟨-, hchunk⟩ := chunkSize_eq hn
  obtain ⟨m, hm⟩ : ∃ m, chunkSize (k + 1) = m + 1 :=
    Nat.exists_eq_succ_of_ne_zero (by rw [chunkSize]; omega)
  rw [ideWriteSectorsCounted, runs_get_bind, if_neg hpresent, if_neg (by omega),
    if_neg (by omega), Nat.mul_div_cancel_left _ (by decide), writeChunksLoop, if_neg hn,
    if_neg (by omega), runs_get_bind] at h
  simp only [hchunk, hm] at h
  obtain ⟨_, t, hsetup, h⟩ := runs_bind.1 h
  obtain ⟨err, t', hloop, h⟩ := runs_bind.1 h
  have hfollows := (ideSetup_respects hR _ _ _ _ _ _ _ _).run hsetup
  -- the first sector is polled for; what comes after it only adds to the log
  refine (hfollows.grows.strays (writeSectorsLoop_strays (hfollows.1 hw) hloop)).then
    (Follows.grows (Respects.run (R := Follows _) ?_ h))
  exact respects_ite (hR.pure _) <| hR.bind (ideWrite_respects hR _ _ _) fun _ ↦
    hR.bind (idePolling_respects hR _ _ _) fun _ ↦
      respects_ite (hR.pure _) (writeChunksLoop_respects hR _ _ _ _ _ _ _)

/-- So does a scan of a drive that has sectors. -/
theorem findNextFreeLba_strays {buf drive r : ℕ} (hw : w.Wired) (hdrive : drive < 4)
    (hpresent : (w.ideDevices drive).reserved ≠ 0) (hsize : w.driveSize drive ≠ 0)
    (h : Runs (findNextFreeLba fuel buf drive) w r w') : Strays w w' := by
  have hr := busPreorder_log (σ := σ)
  have hR := hr.access
  rw [findNextFreeLba, runs_get_bind, if_neg (by omega), if_neg hpresent, if_neg hsize] at h
  dsimp only at h
  obtain ⟨k, hk⟩ := Nat.exists_eq_succ_of_ne_zero hsize
  rw [hk] at h
  obtain ⟨res, t, hscan, h⟩ := runs_bind.1 h
  obtain ⟨err, t', hread, hscan⟩ := runs_bind.1 hscan
  have hstrays := ideReadSectors_strays hw (by omega) one_ne_zero hread
  refine (hstrays.then (Follows.grows (Respects.run (R := Follows _) ?_ hscan))).then
    (Follows.grows (Respects.run (R := Follows _) ?_ h))
  · exact respects_ite (hR.pure _)
      (hR.bind hR.get fun _ ↦ scanLoop_follows hr _ _ _ _ _ _)
  · split
    · exact hR.pure _
    · exact hR.pure _
    · exact respects_ite (hR.pure _) (hR.pure _)

/-- So does `ide_initialize`, with its first access. -/
theorem ideInitialize_strays {u : Unit} (h : Runs (ideInitialize fuel) w u w') : Strays w w' := by
  have hr := busPreorder_log (σ := σ)
  have hR := hr.access
  obtain ⟨_, t, hmodify, h⟩ := runs_bind.1 h
  obtain rfl := runs_modify.1 hmodify
  obtain ⟨_, t', hwrite, h⟩ := runs_bind.1 h
  have hstrays : Strays { w with channels := ideChannels } t' :=
    ⟨_, ideWrite_emits (by decide) hwrite, _, List.mem_singleton_self _,
      not_idePort_altStatus 0⟩
  refine hstrays.then (Follows.grows (Respects.run (R := Follows _) ?_ h))
  exact hR.bind (ideWrite_respects hR _ _ _) fun _ ↦ ideInitializeLoop_follows hr _ _ _

end Ports

/-- The calls of the driver. -/
inductive IdeCall where
  /-- `ide_initialize()` -/
  | init
  /-- `ide_identify(channel, drive)` -/
  | identify (channel drive : ℕ)
  /-- `ide_delay(channel)` -/
  | delay (channel : ℕ)
  /-- `ide_polling(channel, check)` -/
  | polling (channel check : ℕ)
  /-- `ide_read_sectors(drive, numsects, lba, buf)` -/
  | readSectors (drive numsects lba buf : ℕ)
  /-- `ide_write_sectors_counted(drive, startLba, byteCount, buf)` -/
  | writeSectors (drive startLba byteCount buf : ℕ)
  /-- `find_next_free_lba(drive)`, with the address of its local buffer. -/
  | findNextFree (buf drive : ℕ)

namespace IdeCall

variable {σ : Type} [PortBus σ]

/-- The call, without what it returns. -/
def run (fuel : ℕ) : IdeCall → KernelM σ Unit
  | init => ideInitialize fuel
  | identify channel drive => ideIdentify fuel channel drive
  | delay channel => ideDelay channel
  | polling channel check => do
    let _ ← idePolling fuel channel check
    pure ()
  | readSectors drive numsects lba buf => do
    let _ ← ideReadSectors fuel drive numsects lba buf
    pure ()
  | writeSectors drive startLba byteCount buf => do
    let _ ← ideWriteSectorsCounted fuel drive startLba byteCount buf
    pure ()
  | findNextFree buf drive => do
    let _ ← findNextFreeLba fuel buf drive
    pure ()

/-- The channel and the slot that the call uses are in the tables. Transfers and scans check the
slot, and find the channel in it. -/
def InTables (w : Kernel σ) : IdeCall → Prop
  | init => True
  | identify channel drive => channel < 2 ∧ drive < 4
  | delay channel => channel < 2
  | polling channel _ => channel < 2
  | readSectors drive _ _ _ | writeSectors drive _ _ _ | findNextFree _ drive =>
    drive < 4 → (w.ideDevices drive).channel < 2

/-- The calls that do not poll a device: `ide_identify` of a slot in the table, and transfers and
scans that return before they do. -/
def Quiet (w : Kernel σ) : IdeCall → Prop
  | init => False
  | identify channel drive => channel < 2 ∧ drive < 4
  | delay _ => False
  | polling _ _ => False
  | readSectors drive numsects _ _ =>
    3 < drive ∨ (w.ideDevices drive).reserved = 0 ∨
      numsects = 0 ∧ (w.ideDevices drive).channel < 2
  | writeSectors drive startLba byteCount _ =>
    3 < drive ∨ (w.ideDevices drive).reserved = 0 ∨ byteCount = 0 ∨ byteCount % 512 ≠ 0 ∨
      0x0FFFFFFF < startLba
  | findNextFree _ drive =>
    3 < drive ∨ (w.ideDevices drive).reserved = 0 ∨ w.driveSize drive = 0

theorem run_follows {r : σ → σ → Prop} (hr : BusPreorder r) (fuel : ℕ) (call : IdeCall) :
    Respects (Follows r) (call.run fuel : KernelM σ Unit) := by
  have hR := hr.access
  cases call with
  | init => exact ideInitialize_follows hr fuel
  | identify => exact ideIdentify_follows hr _ _ _
  | delay => exact readAltStatus_respects hR _ _
  | polling => exact hR.bind (idePolling_respects hR _ _ _) fun _ ↦ hR.pure ()
  | readSectors =>
    exact hR.bind (ideReadSectors_follows hr _ _ _ _ _) fun _ ↦ hR.pure ()
  | writeSectors =>
    exact hR.bind (ideWriteSectorsCounted_respects hR _ _ _ _ _) fun _ ↦ hR.pure ()
  | findNextFree =>
    exact hR.bind (findNextFreeLba_follows hr _ _ _) fun _ ↦ hR.pure ()

section Range

variable {w w' : Kernel (Watched σ)} {call : IdeCall} {fuel : ℕ} {u : Unit}

/-- A read of no sectors sets up its command. -/
theorem ideReadSectors_zero_inRange {drive lba buf r : ℕ}
    (h : Runs (ideReadSectors fuel drive 0 lba buf) w r w') : InRange w w' := by
  refine Respects.run (R := InRange) ?_ h
  refine inRange_bind (respects_get InRange.refl) fun w ↦ respects_ite (inRange_pure 1) ?_
  dsimp only
  split
  · exact inRange_bind (ideSetup_inRange _ _ _ _ _ _ _ _) fun _ ↦ inRange_pure 0
  · exact inRange_bind (ideSetup_inRange _ _ _ _ _ _ _ _) fun _ ↦ inRange_pure 0

/-- A write that is refused, or has nothing to write, returns at once. -/
theorem Quiet.write_returns {drive startLba byteCount buf : ℕ}
    (hquiet : (writeSectors drive startLba byteCount buf).Quiet w) :
    ∃ r, ideWriteSectorsCounted fuel drive startLba byteCount buf w = some (r, w) := by
  rw [ideWriteSectorsCounted, bind_apply_of_runs get_apply]
  by_cases hno : 3 < drive ∨ (w.ideDevices drive).reserved = 0
  · rw [if_pos hno]
    exact ⟨1, rfl⟩
  by_cases hzero : byteCount = 0
  · rw [if_neg hno, if_pos hzero]
    exact ⟨0, rfl⟩
  by_cases hmod : byteCount % 512 ≠ 0
  · rw [if_neg hno, if_neg hzero, if_pos hmod]
    exact ⟨2, rfl⟩
  have hlba : 0x0FFFFFFF < startLba :=
    (((or_assoc.2 hquiet).resolve_left hno).resolve_left hzero).resolve_left hmod
  obtain ⟨n, hn⟩ : ∃ n, byteCount / 512 = n + 1 :=
    Nat.exists_eq_succ_of_ne_zero (by omega)
  rw [if_neg hno, if_neg hzero, if_neg hmod, hn, writeChunksLoop, if_neg (Nat.succ_ne_zero n),
    if_pos hlba]
  exact ⟨3, rfl⟩

/-- So does a scan that cannot begin. -/
theorem Quiet.scan_returns {buf drive : ℕ} (hquiet : (findNextFree buf drive).Quiet w) :
    findNextFreeLba fuel buf drive w = some (uint32Max, w) := by
  rw [findNextFreeLba, bind_apply_of_runs get_apply]
  by_cases hdrive : 4 ≤ drive
  · rw [if_pos hdrive]
    rfl
  by_cases habsent : (w.ideDevices drive).reserved = 0
  · rw [if_neg hdrive, if_pos habsent]
    rfl
  rw [if_neg hdrive, if_neg habsent,
    if_pos ((hquiet.resolve_left hdrive).resolve_left habsent)]
  rfl

theorem Quiet.inRange (hquiet : call.Quiet w) (h : Runs (call.run fuel) w u w') :
    InRange w w' := by
  cases call with
  | init => exact absurd hquiet not_false
  | identify => exact (ideIdentify_inRange _ _ _).run h
  | delay => exact absurd hquiet not_false
  | polling => exact absurd hquiet not_false
  | readSectors drive numsects lba buf =>
    by_cases hno : 3 < drive ∨ (w.ideDevices drive).reserved = 0
    · refine inRange_of_returns (a := 1) ?_ h
      rw [ideReadSectors, bind_apply_of_runs get_apply, if_pos hno]
      rfl
    · obtain ⟨rfl, -⟩ : numsects = 0 ∧ (w.ideDevices drive).channel < 2 :=
        (or_assoc.2 hquiet).resolve_left hno
      obtain ⟨r, h⟩ := (runs_drop (m := ideReadSectors fuel drive 0 lba buf)).1 h
      exact ideReadSectors_zero_inRange h
  | writeSectors =>
    obtain ⟨r, hret⟩ := hquiet.write_returns
    exact inRange_of_returns hret h
  | findNextFree => exact inRange_of_returns hquiet.scan_returns h

theorem strays_of_not_quiet (hquiet : ¬ call.Quiet w) (htables : call.InTables w) (hw : w.Wired)
    (h : Runs (call.run fuel) w u w') : Strays w w' := by
  cases call with
  | init => exact ideInitialize_strays h
  | identify => exact absurd htables hquiet
  | delay => exact readAltStatus_strays hw h
  | polling channel check =>
    obtain ⟨r, h⟩ := (runs_drop (m := idePolling fuel channel check)).1 h
    exact idePolling_strays hw h
  | readSectors drive numsects lba buf =>
    obtain ⟨r, h⟩ := (runs_drop (m := ideReadSectors fuel drive numsects lba buf)).1 h
    rw [Quiet, ← or_assoc, not_or] at hquiet
    obtain ⟨hno, hsome⟩ := hquiet
    have hchannel : (w.ideDevices drive).channel < 2 := htables (by omega)
    exact ideReadSectors_strays hw hno (fun hzero ↦ hsome ⟨hzero, hchannel⟩) h
  | writeSectors drive startLba byteCount buf =>
    obtain ⟨r, h⟩ :=
      (runs_drop (m := ideWriteSectorsCounted fuel drive startLba byteCount buf)).1 h
    simp only [Quiet, ← or_assoc, not_or] at hquiet
    obtain ⟨⟨⟨⟨hslot, hpresent⟩, hzero⟩, hmod⟩, hlba⟩ := hquiet
    obtain ⟨n, rfl⟩ := Nat.dvd_of_mod_eq_zero (not_not.1 hmod)
    exact ideWriteSectorsCounted_strays hw (not_or.2 ⟨hslot, hpresent⟩) (by omega) (by omega) h
  | findNextFree buf drive =>
    obtain ⟨r, h⟩ := (runs_drop (m := findNextFreeLba fuel buf drive)).1 h
    rw [Quiet, not_or, not_or] at hquiet
    exact findNextFreeLba_strays hw (by omega) hquiet.2.1 hquiet.2.2 h

/-- **Which calls stay on the IDE ports**: those that do not poll. -/
theorem Quiet.forall_idePort (hquiet : call.Quiet w) (hw : w.Wired)
    (h : Runs (call.run fuel) w u w') {es : List (PortEvent σ)} (hemits : w.Emits es w') :
    ∀ e ∈ es, IdePort e.port := by
  obtain ⟨-, es', hemits', hes'⟩ := hquiet.inRange h hw
  exact hemits.unique hemits' ▸ hes'

/-- Of the calls that keep to the tables no others do. -/
theorem quiet_of_forall_idePort (htables : call.InTables w) (hw : w.Wired)
    (h : Runs (call.run fuel) w u w') {es : List (PortEvent σ)} (hemits : w.Emits es w')
    (hall : ∀ e ∈ es, IdePort e.port) : call.Quiet w := by
  by_contra hquiet
  exact (strays_of_not_quiet hquiet htables hw h).not_forall hemits hall

end Range

end IdeCall
