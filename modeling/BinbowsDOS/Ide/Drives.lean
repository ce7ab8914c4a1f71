import BinbowsDOS.Ide.Detection
import BinbowsDOS.Ide.PortRange
import BinbowsDOS.Ide.SectorArray

/-!
# The drives in the device table

What the callers of the driver rely on from one call to the next: every slot in use is attached, and
no two slots are for the same device (`Kernel.Drives`). `ide_initialize` establishes it whatever is
connected (`Kernel.Drives.of_initialize`), although its slots need not describe the devices they
stand for, and every transfer keeps it (`Kernel.Serves.drives`).

A transfer on a slot that is not in use does nothing and returns 1, so that reads and writes are
described for every drive number at once (`Kernel.Drives.write`, `Kernel.Drives.read`).
-/

open Prog

namespace Kernel

/-- The slot exists and is in use. -/
def InUse (w : Kernel AtaBus) (i : ℕ) : Prop := i < 4 ∧ (w.ideDevices i).reserved ≠ 0

/-- The sectors of the device that a slot is for. -/
def disk (w : Kernel AtaBus) (i : ℕ) : ℕ → Sector := w.arrays.disk (w.position i)

/-- The slots in use are attached, each to a device of its own, and no device fails. -/
structure Drives (fuel : ℕ) (w : Kernel AtaBus) : Prop where
  faultFree : w.io.FaultFree fuel
  present : ∀ i, w.InUse i → w.Present i
  apart : ∀ i j, w.InUse i → w.InUse j → w.position i = w.position j → i = j

/-- A part of a call that works on one drive: if its slot is in use then its device holds these
sectors afterwards, and is ready again. -/
structure Serves (i : ℕ) (s : ℕ → Sector) (w w' : Kernel AtaBus) : Prop where
  channels : w'.channels = w.channels
  ideDevices : w'.ideDevices = w.ideDevices
  served : w.InUse i → ∃ u, AtaBus.Served (w.position i).1 (w.position i).2 w.io u w'.io ∧
    u.sectors = s ∧ u.busy = 0 ∧ u.idle = (w.io.unit (w.position i).1 (w.position i).2).idle
  absent : ¬ w.InUse i → w'.io = w.io

section Serves

variable {w w' w'' : Kernel AtaBus} {fuel i j : ℕ} {s s' : ℕ → Sector}

theorem InUse.congr (h : w'.ideDevices = w.ideDevices) : w'.InUse i ↔ w.InUse i := by
  rw [InUse, InUse, h]

theorem position_congr (h : w'.ideDevices = w.ideDevices) : w'.position i = w.position i := by
  rw [position, position, h]

theorem disk_congr (h : w'.ideDevices = w.ideDevices) (hio : w'.io = w.io) :
    w'.disk i = w.disk i := by
  rw [disk, disk, position_congr h, arrays, arrays, hio]

/-- Nothing happens to a drive while the ports are left alone. -/
theorem Drives.serves (hd : w.Drives fuel) (hchannels : w'.channels = w.channels)
    (hdevices : w'.ideDevices = w.ideDevices) (hio : w'.io = w.io) : Serves i (w.disk i) w w' where
  channels := hchannels
  ideDevices := hdevices
  served hi := by
    rw [hio]
    exact ⟨_, .refl w.io _ _, rfl, (hd.present i hi).ready, rfl⟩
  absent _ := hio

theorem Drives.serves_of_heap {h : Heap} (hd : w.Drives fuel) (hw : w' = w.setHeap h) :
    Serves i (w.disk i) w w' := by
  subst hw
  exact hd.serves rfl rfl rfl

namespace Serves

theorem trans (h : Serves i s w w') (h' : Serves i s' w' w'') : Serves i s' w w'' where
  channels := h'.channels.trans h.channels
  ideDevices := h'.ideDevices.trans h.ideDevices
  served hi := by
    obtain ⟨u, hserved, -, -, hidle⟩ := h.served hi
    obtain ⟨u', hserved', hsectors, hready, hidle'⟩ :=
      h'.served ((InUse.congr h.ideDevices).2 hi)
    rw [position_congr h.ideDevices] at hserved' hidle'
    rw [hserved.unit_eq] at hidle'
    exact ⟨u', hserved.trans hserved', hsectors, hready, hidle'.trans hidle⟩
  absent hi := (h'.absent fun hi' ↦ hi ((InUse.congr h.ideDevices).1 hi')).trans (h.absent hi)

/-- The heap may change afterwards. -/
theorem setHeap {h : Heap} (hs : Serves i s w w') (hw : w'' = w'.setHeap h) :
    Serves i s w w'' := by
  subst hw
  exact ⟨hs.channels, hs.ideDevices, hs.served, hs.absent⟩

/-- **The drives stay attached.** -/
theorem drives (h : Serves i s w w') (hd : w.Drives fuel) : w'.Drives fuel where
  faultFree := by
    by_cases hi : w.InUse i
    · obtain ⟨u, hserved, -⟩ := h.served hi
      exact hserved.faultFree hd.faultFree
    · exact (h.absent hi).symm ▸ hd.faultFree
  present j hj := by
    have hpresent := hd.present j ((InUse.congr h.ideDevices).1 hj)
    by_cases hi : w.InUse i
    · obtain ⟨u, hserved, -, hready, hidle⟩ := h.served hi
      exact hpresent.served h.channels h.ideDevices hserved hready hidle
    · have hio := h.absent hi
      rw [Present, position_congr h.ideDevices]
      exact hpresent.of_unit h.channels h.ideDevices (hio ▸ hpresent.ready) (by rw [hio])
  apart j k hj hk heq := by
    rw [position_congr h.ideDevices, position_congr h.ideDevices] at heq
    exact hd.apart j k ((InUse.congr h.ideDevices).1 hj) ((InUse.congr h.ideDevices).1 hk) heq

theorem disk_eq (h : Serves i s w w') (hi : w.InUse i) : w'.disk i = s := by
  obtain ⟨u, hserved, hsectors, -⟩ := h.served hi
  rw [disk, position_congr h.ideDevices]
  exact (congrArg AtaUnit.sectors hserved.unit_eq).trans hsectors

/-- The other drives keep their sectors. -/
theorem disk_of_ne (h : Serves i s w w') (hd : w.Drives fuel) (hj : w.InUse j) (hne : j ≠ i) :
    w'.disk j = w.disk j := by
  rw [disk, position_congr h.ideDevices]
  by_cases hi : w.InUse i
  · obtain ⟨u, hserved, -⟩ := h.served hi
    have hposition : w.position j ≠ w.position i := fun heq ↦ hne (hd.apart j i hj hi heq)
    exact congrArg AtaUnit.sectors
      (hserved.elsewhere _ _ fun heq ↦ hposition (Prod.ext heq.1 heq.2))
  · show (w'.io.unit _ _).sectors = _
    rw [h.absent hi]
    rfl

end Serves

end Serves

/-! ### Transfers on any slot -/

section Transfers

variable {w w' : Kernel AtaBus} {fuel i lba n r : ℕ}

/-- **A write**, to whatever slot. -/
theorem Drives.write {data : ℕ} (hd : w.Drives fuel) (hn : 0 < n) (hlba : lba + n ≤ 2 ^ 28)
    (h : Runs (ideWriteSectorsCounted fuel i lba (512 * n) data) w r w') :
    (w.InUse i ↔ r = 0) ∧ w'.heap = w.heap ∧
      Serves i (writeRange (w.disk i) lba n fun j ↦ w.mem.sectorAt (data + 512 * j)) w w' := by
  by_cases hi : w.InUse i
  · obtain ⟨ph, b', hrun, hserved⟩ :=
      ideWriteSectorsCounted_spec data (hd.present i hi) rfl hd.faultFree hn hlba
    obtain ⟨rfl, rfl⟩ := h.unique hrun
    exact ⟨iff_of_true hi rfl, rfl, rfl, rfl, fun _ ↦ ⟨_, hserved, rfl, rfl, rfl⟩,
      fun hnot ↦ absurd hi hnot⟩
  · have habsent : 3 < i ∨ (w.ideDevices i).reserved = 0 := by
      rw [InUse] at hi
      omega
    rw [ideWriteSectorsCounted, runs_get_bind, if_pos habsent] at h
    obtain ⟨rfl, rfl⟩ := runs_pure.1 h
    exact ⟨iff_of_false hi Nat.one_ne_zero, rfl, rfl, rfl, fun hi' ↦ absurd hi' hi, fun _ ↦ rfl⟩

/-- **A read**, from whatever slot. -/
theorem Drives.read {buf : ℕ} (hd : w.Drives fuel) (hn : 0 < n) (hn' : n < 256)
    (hlba : lba < 2 ^ 28) (h : Runs (ideReadSectors fuel i n lba buf) w r w') :
    (w.InUse i ↔ r = 0) ∧ Serves i (w.disk i) w w' ∧
      (r = 0 → w'.mem = w.mem.blit buf (512 * n) (sectorStream (w.disk i) lba)) := by
  by_cases hi : w.InUse i
  · obtain ⟨ph, k, b', hrun, hserved, hk⟩ :=
      ideReadSectors_spec buf (hd.present i hi) rfl hd.faultFree.latency_lt hn' hlba
    obtain ⟨rfl, rfl⟩ := h.unique hrun
    exact ⟨iff_of_true hi rfl, ⟨rfl, rfl, fun _ ↦ ⟨_, hserved, rfl, hk hn, rfl⟩,
      fun hnot ↦ absurd hi hnot⟩, fun _ ↦ rfl⟩
  · have habsent : 3 < i ∨ (w.ideDevices i).reserved = 0 := by
      rw [InUse] at hi
      omega
    rw [ideReadSectors, runs_get_bind, if_pos habsent] at h
    obtain ⟨rfl, rfl⟩ := runs_pure.1 h
    exact ⟨iff_of_false hi Nat.one_ne_zero, ⟨rfl, rfl, fun hi' ↦ absurd hi' hi, fun _ ↦ rfl⟩,
      fun hr ↦ absurd hr Nat.one_ne_zero⟩

end Transfers

/-! ### After `ide_initialize` -/

section Initialize

variable {w w' : Kernel AtaBus} {b : AtaBus} {fuel polls x : ℕ} {t : ℕ → IdeDevice} {v : Unit}

/-- Of an entry as it was, `ide_identify` keeps the type alone. -/
theorem identified_congr {channel dev : ℕ} {buf : Sector} {old old' : IdeDevice}
    (h : old.type = old'.type) :
    identified channel dev buf old = identified channel dev buf old' := by
  rw [identified, identified, h]

/-- What the probe of slot `i` makes of slot `x`. -/
theorem afterSlot_apply {u : AtaUnit} {i : ℕ} : afterSlot u i t x =
    if u.IsAta ∧ x = i % 2 then identified (i / 2) (i % 2) u.idData (t x)
    else if x = i then { t x with reserved := 0 } else t x := by
  have hempty : Function.update t i { t i with reserved := 0 } x =
      if x = i then { t x with reserved := 0 } else t x := by
    rw [Function.update_apply]
    split_ifs with hx
    · rw [hx]
    · rfl
  rw [afterSlot]
  by_cases hata : u.IsAta
  · rw [if_pos hata, Function.update_apply]
    by_cases hx : x = i % 2
    · rw [if_pos hx, if_pos ⟨hata, hx⟩, ← hx]
      refine identified_congr ?_
      rw [hempty]
      split_ifs <;> rfl
    · rw [if_neg hx, if_neg fun h ↦ hx h.2, hempty]
  · rw [if_neg hata, if_neg fun h ↦ hata h.1, hempty]

/-- The last probe that writes a slot counts. -/
theorem afterSlots_apply (hx : x < 2) : afterSlots b 0 4 t x =
    if (b.unit 1 x).IsAta then identified 1 x (b.unit 1 x).idData (t x)
    else if (b.unit 0 x).IsAta then identified 0 x (b.unit 0 x).idData (t x)
    else { t x with reserved := 0 } := by
  simp only [afterSlots, afterSlot_apply]
  interval_cases x
  · by_cases h₀ : (b.unit 0 0).IsAta <;> by_cases h₁ : (b.unit 1 0).IsAta <;>
      simp [h₀, h₁, identified]
  · by_cases h₀ : (b.unit 0 1).IsAta <;> by_cases h₁ : (b.unit 1 1).IsAta <;>
      simp [h₀, h₁, identified]

/-- A slot that is in use is what `ide_identify` has made of a device at its position, on one of the
channels. -/
theorem exists_identified_of_afterSlots (hx : x < 4) (hused : (afterSlots b 0 4 t x).reserved ≠ 0) :
    x < 2 ∧ ∃ c < 2, (b.unit c x).IsAta ∧
      afterSlots b 0 4 t x = identified c x (b.unit c x).idData (t x) := by
  have hlt : x < 2 := by
    by_contra hge
    exact hused (reserved_afterSlots (by omega))
  refine ⟨hlt, ?_⟩
  rw [afterSlots_apply hlt] at hused ⊢
  split_ifs at hused ⊢ with h₁ h₀
  · exact ⟨1, by decide, h₁, rfl⟩
  · exact ⟨0, by decide, h₀, rfl⟩
  · exact absurd rfl hused

/-- No access of the ports changes what is left to chance. -/
theorem sameChance : BusPreorder fun b b' : AtaBus ↦
    b'.latency = b.latency ∧ b'.refuses = b.refuses where
  refl _ := ⟨rfl, rfl⟩
  trans _ _ _ h h' := ⟨h'.1.trans h.1, h'.2.trans h.2⟩
  inb port b := by
    simp only [PortBus.inb]
    split
    · split
      · exact ⟨rfl, rfl⟩
      · exact ⟨rfl, rfl⟩
    · exact ⟨rfl, rfl⟩
  outb port v b := by
    simp only [PortBus.outb, AtaBus.command]
    split
    · split_ifs
      all_goals exact ⟨rfl, rfl⟩
    · exact ⟨rfl, rfl⟩
  insw port b := by
    simp only [PortBus.insw, AtaBus.dataIn]
    split
    · split_ifs
      · exact ⟨rfl, rfl⟩
      · split
        · dsimp only
          split_ifs
          all_goals exact ⟨rfl, rfl⟩
        · exact ⟨rfl, rfl⟩
        · exact ⟨rfl, rfl⟩
      · exact ⟨rfl, rfl⟩
    · exact ⟨rfl, rfl⟩
  outsw port s b := by
    simp only [PortBus.outsw, AtaBus.dataOut]
    split
    · split_ifs
      · exact ⟨rfl, rfl⟩
      · split <;> exact ⟨rfl, rfl⟩
      · split <;> exact ⟨rfl, rfl⟩
      · exact ⟨rfl, rfl⟩
    · exact ⟨rfl, rfl⟩

/-- **After `ide_initialize`** the driver's callers may rely on the table, whatever is connected. -/
theorem Drives.of_initialize (hb : w.io.PowerOn) (hf : w.io.FaultFree polls)
    (h : Runs (ideInitialize fuel) w v w') : w'.Drives polls := by
  obtain ⟨hw, hdevices, hprobed⟩ := ideInitialize_runs hb h
  have hslot : ∀ i, w'.InUse i → i < 2 ∧ ∃ c < 2, (w.io.unit c i).IsAta ∧
      (w'.ideDevices i).channel = c ∧ (w'.ideDevices i).drive = i := by
    rintro i ⟨hi, hused⟩
    rw [hdevices] at hused ⊢
    obtain ⟨hlt, c, hc, hata, heq⟩ := exists_identified_of_afterSlots hi hused
    rw [heq]
    exact ⟨hlt, c, hc, hata, rfl, rfl⟩
  refine ⟨?_, fun i hi ↦ ?_, fun i j hi hj heq ↦ ?_⟩
  · obtain ⟨-, hlatency, hrefuses⟩ := ideInitialize_follows sameChance fuel w v w' h
    exact ⟨fun k ↦ hlatency ▸ hf.latency_lt k, fun k ↦ hrefuses ▸ hf.accepts k⟩
  · obtain ⟨hlt, c, hc, hata, hchannel, hdrive⟩ := hslot i hi
    obtain ⟨-, hready, hidle⟩ := hprobed (2 * c + i) (by omega)
    rw [show (2 * c + i) / 2 = c by omega, show (2 * c + i) % 2 = i by omega] at hready hidle
    rw [Present, position, hchannel, hdrive]
    refine ⟨hi.1, hi.2, hchannel, hdrive, hc, hlt, hw, hready, ?_⟩
    rw [hidle]
    exact (hb c hc i hlt).2.2.resolve_left hata.1
  · obtain ⟨-, -, -, -, -, hi'⟩ := hslot i hi
    obtain ⟨-, -, -, -, -, hj'⟩ := hslot j hj
    exact hi'.symm.trans ((congrArg Prod.snd heq).trans hj')

/-- A disk whose own slot stays empty. -/
theorem Drives.of_initialize_secondarySlave :
    ∃ w', Runs (ideInitialize 1) (powerOn (.single 1 1)) () w' ∧ w'.Drives 1 := by
  obtain ⟨⟨⟨⟩, w'⟩, hrun⟩ := Option.isSome_iff_exists.1
    (show (ideInitialize 1 (powerOn (.single 1 1))).isSome = true by decide +kernel)
  have hf : (AtaBus.single 1 1).FaultFree 1 := ⟨fun _ ↦ Nat.one_pos, fun _ ↦ rfl⟩
  exact ⟨w', hrun, Drives.of_initialize (AtaBus.powerOn_single 1 1) hf hrun⟩

end Initialize

end Kernel
