import BinbowsDOS.Ide.Scripted
import BinbowsDOS.Ide.SectorArray

/-!
# Reads that fail half-way

`ide_read_sectors` polls before each sector and stops at the first poll that reports something.
So a read delivers a prefix: the sectors whose polls offer data, up to the first that does not,
and nothing behind them. This holds for every script of statuses in which BSY goes.
-/

open Prog Kernel

section PrefixRead

variable {w : Kernel Scripted} {i c d lba n : ℕ}

/-- Poll `k` is the first of a read that offers no data. -/
def FirstBad (v : ℕ → UInt8) (k : ℕ) : Prop := (∀ j < k, OffersData (v j)) ∧ ¬ OffersData (v k)

/-- What a read from `lba` on owes its caller when poll `k` is its first bad one and ends with the
status `v`; memory was `m` before the call, and is `m'` after it. -/
structure DeliversPrefix (s : ℕ → Sector) (lba buf k : ℕ) (v : UInt8) (m m' : ByteMem) (r : ℕ) :
    Prop where
  /-- ERR comes first. -/
  err : v &&& ataSrErr ≠ 0 → r = 2
  /-- Then DF. -/
  df : v &&& ataSrErr = 0 → v &&& ataSrDf ≠ 0 → r = 1
  /-- Then DRQ. -/
  drq : v &&& ataSrErr = 0 → v &&& ataSrDf = 0 → r = 3
  /-- The buffer begins with the sectors before. -/
  filled : ∀ x < 512 * k, m' (buf + x) = sectorStream s lba x
  /-- Nothing else has changed. -/
  unchanged : ∀ x, x < buf ∨ buf + 512 * k ≤ x → m' x = m x

/-- What the read returns is what its first bad poll calls for, and 0 if there is none. -/
theorem ReadEnds.eq_zero_iff {v : ℕ → UInt8} {k r : ℕ} (h : ReadEnds n v k r) :
    r = 0 ↔ ∀ j < n, OffersData (v j) := by
  rcases eq_or_ne k n with rfl | hne
  · exact ⟨fun _ ↦ h.offered, fun _ ↦ h.success rfl⟩
  · obtain ⟨hbad, rfl⟩ := h.failure hne
    exact ⟨fun hzero ↦ absurd hzero (failureCode_ne_zero _),
      fun hall ↦ absurd (hall k (lt_of_le_of_ne h.le hne)) hbad⟩

theorem ReadEnds.eq_of_firstBad {v : ℕ → UInt8} {j k r : ℕ} (h : ReadEnds n v k r) (hj : j < n)
    (hbad : FirstBad v j) : k = j := by
  rcases Nat.lt_trichotomy k j with hlt | rfl | hlt
  · exact absurd (hbad.1 k hlt) (h.failure (by omega)).1
  · rfl
  · exact absurd (h.offered j hlt) hbad.2

/-- **A read delivers the prefix that succeeded**, for every script in which BSY goes after the
command and after each sector. The verdicts `v` are the statuses in which the polls end. -/
theorem ideReadSectors_delivers (buf : ℕ) (hs : w.ScriptedDrive i c d) (hlba : lba < 2 ^ 28)
    (hpos : 0 < n) (hn : n < 256)
    (hsettles : ∀ k < n, Settles (w.io.script (w.io.commands + 1) k)) :
    ∃ v : ℕ → UInt8, (∀ k < n, Concludes (w.io.script (w.io.commands + 1) k) (v k)) ∧
      ∃ fuel₀, ∀ fuel, fuel₀ ≤ fuel →
        ∃ r w', Runs (ideReadSectors fuel i n lba buf) w r w' ∧
          (r = 0 ↔ ∀ k < n, OffersData (v k)) ∧
          ∀ k < n, FirstBad v k →
            DeliversPrefix (w.io.bus.unit c d).sectors lba buf k (v k) w.mem w'.mem r := by
  choose! m hm using fun k hk ↦ (hsettles k hk).exists_readyAt
  obtain ⟨fuel₀, hfuel₀⟩ := exists_fuel hsettles
  refine ⟨fun k ↦ w.io.script (w.io.commands + 1) k (m k + 1), fun k hk ↦ ⟨m k, hm k hk, rfl⟩,
    fuel₀, fun fuel hfuel ↦ ?_⟩
  obtain ⟨k, r, b', ph, hrun, hends, -⟩ := Scripted.ideReadSectors_spec buf hs rfl hlba hpos hn
    fun k hk ↦ ⟨m k, hm k hk, (hfuel₀ k hk _ (hm k hk)).trans_le hfuel, rfl⟩
  refine ⟨r, _, hrun, hends.eq_zero_iff, ?_⟩
  intro j hj hbad
  obtain rfl := hends.eq_of_firstBad hj hbad
  obtain ⟨-, rfl⟩ := hends.failure hj.ne
  refine ⟨fun herr ↦ if_pos herr, ?_, ?_, fun x ↦ ByteMem.blit_apply_add, fun x ↦
    ByteMem.blit_apply_of_not_mem⟩
  · intro herr hdf
    rw [failureCode, if_neg (not_not.2 herr), if_pos hdf]
  · intro herr hdf
    rw [failureCode, if_neg (not_not.2 herr), if_neg (not_not.2 hdf)]

end PrefixRead

/-! ### A drive that fails -/

/-- The kernel with four blank disks of `size` sectors in its table, whose statuses follow a
script. -/
def Kernel.scripted (script : ℕ → ℕ → ℕ → UInt8) (size : ℕ) : Kernel Scripted where
  heap := Heap.boot fun _ ↦ 7
  channels := ideChannels
  ideDevices := (Kernel.blank (Heap.boot fun _ ↦ 7) size).ideDevices
  ideBuf _ := 0
  timerTicks := 0
  io := ⟨AtaBus.blank fun _ ↦ 0, script, 0, 0, 0⟩

theorem Kernel.scriptedDrive_scripted (script : ℕ → ℕ → ℕ → UInt8) (size : ℕ) {i : ℕ}
    (hi : i < 4) : (Kernel.scripted script size).ScriptedDrive i (i / 2) (i % 2) :=
  ⟨(Kernel.attached_blank (Heap.boot fun _ ↦ 7) size hi).of_unit rfl rfl rfl rfl, fun _ ↦ rfl⟩

/-- The second sector of three ends with a device fault. -/
def faultySecond (_ k _ : ℕ) : UInt8 := if k = 1 then 0x70 else 0x58

/-- The first sector arrives, and the bytes behind it are as they were. -/
theorem ideReadSectors_delivers_faultySecond :
    ∃ fuel w', Runs (ideReadSectors fuel 0 3 5 0x100000) (Kernel.scripted faultySecond 40000) 1 w' ∧
      (∀ x < 512, w'.mem (0x100000 + x) = 0) ∧ ∀ x < 1024, w'.mem (0x100200 + x) = 7 := by
  have hconst : ∀ k v, Concludes (faultySecond 1 k) v → v = if k = 1 then 0x70 else 0x58 := by
    rintro k v ⟨m, -, rfl⟩
    rfl
  obtain ⟨v, hv, fuel, hread⟩ := ideReadSectors_delivers 0x100000
    (Kernel.scriptedDrive_scripted faultySecond 40000 (i := 0) (by decide))
    (show 5 < 2 ^ 28 by decide) (show 0 < 3 by decide) (by decide) fun k _ ↦ ⟨0, fun j _ ↦ by
      show (if k = 1 then (0x70 : UInt8) else 0x58) &&& ataSrBsy = 0
      split <;> decide⟩
  have hv₀ : v 0 = 0x58 := hconst 0 _ (hv 0 (by decide))
  have hv₁ : v 1 = 0x70 := hconst 1 _ (hv 1 (by decide))
  obtain ⟨r, w', hrun, -, hprefix⟩ := hread fuel le_rfl
  have hbad : FirstBad v 1 := by
    refine ⟨fun j hj ↦ ?_, by rw [hv₁]; decide⟩
    obtain rfl : j = 0 := by omega
    rw [hv₀]
    decide
  have hdelivers := hprefix 1 (by decide) hbad
  obtain rfl : r = 1 := hdelivers.df (by rw [hv₁]; decide) (by rw [hv₁]; decide)
  refine ⟨fuel, w', hrun, fun x hx ↦ ?_, fun x _ ↦ hdelivers.unchanged _ (Or.inr (by omega))⟩
  rw [hdelivers.filled x (by omega), sectorStream_of_lt hx]
  exact dif_pos hx
