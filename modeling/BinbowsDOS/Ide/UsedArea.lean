import BinbowsDOS.Ide.PrefixRead
import Mathlib.Order.Bounds.Basic

/-!
# The end of the used area

`find_next_free_lba` reads every sector of a drive and remembers the last one that is not all
zero. What it has remembered after the sectors below `lba` is described by `LastUsed`, and the
sector behind it is the least from which on everything is free. A read that fails ends the scan
(`scanLoop_spec`); the device may fail any read, at any time and with any status.
-/

open Prog Kernel

/-- The sector is all zero. -/
def SectorFree (s : Sector) : Prop := ∀ j, s j = 0

instance (s : Sector) : Decidable (SectorFree s) := inferInstanceAs (Decidable (∀ _, _))

/-- Sectors `r` to `size - 1` are all zero. -/
def FreeFrom (s : ℕ → Sector) (size r : ℕ) : Prop :=
  ∀ lba, r ≤ lba → lba < size → SectorFree (s lba)

/-- The last sector below `lba` that is not all zero. -/
inductive LastUsed (s : ℕ → Sector) (lba : ℕ) : Option ℕ → Prop
  /-- There is none. -/
  | clean (hfree : FreeFrom s lba 0) : LastUsed s lba none
  /-- It is sector `last`. -/
  | used {last : ℕ} (hlt : last < lba) (hused : ¬ SectorFree (s last))
      (hfree : FreeFrom s lba (last + 1)) : LastUsed s lba (some last)

section Scan

variable {s : ℕ → Sector} {lba size r : ℕ} {last : Option ℕ}

theorem FreeFrom.succ (h : FreeFrom s lba r) (hfree : SectorFree (s lba)) :
    FreeFrom s (lba + 1) r := by
  intro x hr hx
  rcases Nat.lt_succ_iff_lt_or_eq.1 hx with hlt | rfl
  · exact h x hr hlt
  · exact hfree

/-- One more sector. -/
theorem LastUsed.succ (h : LastUsed s lba last) :
    LastUsed s (lba + 1) (if SectorFree (s lba) then last else some lba) := by
  split
  case isTrue hfree =>
    cases h with
    | clean hfrom => exact .clean (hfrom.succ hfree)
    | used hlt hused hfrom => exact .used (Nat.lt_succ_of_lt hlt) hused (hfrom.succ hfree)
  case isFalse hused => exact .used (Nat.lt_succ_self lba) hused fun x h₁ h₂ ↦ by omega

/-- What the function makes of the last used sector. -/
theorem LastUsed.isLeast (h : LastUsed s size last) :
    IsLeast {r | FreeFrom s size r} (last.elim 0 (· + 1)) := by
  cases h with
  | clean hfree => exact ⟨hfree, fun r _ ↦ Nat.zero_le r⟩
  | @used last hlt hused hfree =>
    refine ⟨hfree, fun r hr ↦ ?_⟩
    by_contra hle
    have hr' : r ≤ last := Nat.le_of_lt_succ (Nat.lt_of_not_le hle)
    exact hused (hr _ hr' hlt)

/-- The last sector is used exactly if it is the one remembered. -/
theorem LastUsed.eq_last_iff (h : LastUsed s size last) (hsize : 0 < size) :
    last = some (size - 1) ↔ ¬ SectorFree (s (size - 1)) := by
  cases h with
  | clean hfree => simpa using hfree _ (Nat.zero_le _) (Nat.sub_one_lt_of_lt hsize)
  | @used last hlt hused hfree =>
    constructor
    · rintro h
      obtain rfl := Option.some.inj h
      exact hused
    · intro hend
      by_contra hne
      have hne' : last ≠ size - 1 := fun heq ↦ hne (congrArg some heq)
      exact hend (hfree _ (by omega) (by omega))

end Scan

section Driver

variable {w : Kernel Scripted} {i c d lba n fuel : ℕ} {s : ℕ → Sector}

theorem allZero_iff {m : ByteMem} {buf : ℕ} {t : Sector}
    (h : ∀ j < 512, m (buf + j) = t.bytes j) : allZero m buf = true ↔ SectorFree t := by
  rw [allZero, List.all_eq_true]
  constructor
  · intro hall j
    have hj := hall j (List.mem_range.2 j.2)
    rw [beq_iff_eq, h j j.2] at hj
    exact (dif_pos j.2).symm.trans hj
  · intro hfree j hj
    have hlt := List.mem_range.1 hj
    rw [beq_iff_eq, h j hlt]
    exact (dif_pos hlt).trans (hfree ⟨j, hlt⟩)

/-- The read of sector `lba` fails, if it comes to that: this is read number `lba`. -/
def ReadFails (w : Kernel Scripted) (lba : ℕ) : Prop :=
  ∃ v, Concludes (w.io.script (w.io.commands + 1 + lba) 0) v ∧ ¬ OffersData v

/-- The scan from `lba` on, before which `lba` commands have been given. -/
theorem scanLoop_spec {script : ℕ → ℕ → ℕ → UInt8} {first : ℕ} {last : Option ℕ} (buf : ℕ)
    (hs : w.ScriptedDrive i c d) (hsectors : (w.io.bus.unit c d).sectors = s)
    (hscript : w.io.script = script) (hcommands : w.io.commands = first + lba)
    (hbound : lba + n ≤ 2 ^ 28) (hlast : LastUsed s lba last)
    (hfuel : ∀ k < lba + n, ∃ m, ReadyAt (script (first + 1 + k) 0) m ∧ m < fuel) :
    ∃ res w', scanLoop fuel i buf lba n last w = some (res, w') ∧
      (res = none ↔ ∃ x, lba ≤ x ∧ x < lba + n ∧
        ∃ v, Concludes (script (first + 1 + x) 0) v ∧ ¬ OffersData v) ∧
      ∀ last', res = some last' → LastUsed s (lba + n) last' := by
  induction n generalizing w lba last with
  | zero =>
    refine ⟨some last, w, rfl, ⟨fun h ↦ absurd h (by simp), fun ⟨x, h₁, h₂, _⟩ ↦ by omega⟩, ?_⟩
    rintro last' h
    obtain rfl := Option.some.inj h
    exact hlast
  | succ n ih =>
    obtain ⟨m, hm, hlt⟩ := hfuel lba (by omega)
    have hrow : w.io.script (w.io.commands + 1) = script (first + 1 + lba) := by
      rw [hscript, hcommands, Nat.add_right_comm]
    have hconcludes : ∀ v', Concludes (script (first + 1 + lba) 0) v' →
        v' = script (first + 1 + lba) 0 (m + 1) := by
      rintro v' ⟨m', hm', rfl⟩
      rw [hm'.unique hm]
    have hready : ∀ k < 1, ∃ m', ReadyAt (w.io.script (w.io.commands + 1) k) m' ∧ m' < fuel ∧
        script (first + 1 + lba) 0 (m + 1) = w.io.script (w.io.commands + 1) k (m' + 1) := by
      intro k hk
      obtain rfl : k = 0 := by omega
      rw [hrow]
      exact ⟨m, hm, hlt, rfl⟩
    obtain ⟨k, r, b', ph, hread, hends, hserved, hscript', hcommands'⟩ :=
      Scripted.ideReadSectors_spec (v := fun _ ↦ script (first + 1 + lba) 0 (m + 1)) buf hs rfl
        (show lba < 2 ^ 28 by omega) (by decide) (by decide) hready
    rw [scanLoop, bind_apply_of_runs hread]
    by_cases hoffers : OffersData (script (first + 1 + lba) 0 (m + 1))
    -- the sector has arrived, and the scan goes on
    · obtain rfl : r = 0 := hends.eq_zero_iff.2 fun _ _ ↦ hoffers
      obtain rfl : k = 1 := by
        by_contra hk
        exact (hends.failure hk).1 hoffers
      have hbytes : ∀ j < 512, (w.mem.blit buf (512 * 1)
          (sectorStream (w.io.bus.unit c d).sectors lba)) (buf + j) = (s lba).bytes j := by
        intro j hj
        rw [ByteMem.blit_apply_add (by omega), sectorStream_of_lt hj, hsectors]
      have hnext := hlast.succ
      obtain ⟨res, w', hrun, hfail, hused⟩ := ih
        (w := (w.setMem (w.mem.blit buf (512 * 1)
          (sectorStream (w.io.bus.unit c d).sectors lba))).setIo b')
        (hs.served rfl rfl hserved rfl rfl)
        ((congrArg AtaUnit.sectors hserved.unit_eq).trans hsectors) (hscript'.trans hscript)
        (hcommands'.trans (by rw [hcommands]; omega)) (by omega) hnext
        (fun k hk ↦ hfuel k (by omega))
      refine ⟨res, w', ?_, ?_, fun last' h ↦ ?_⟩
      · rw [if_neg (by simp), bind_apply_of_runs get_apply, mem_setIo, mem_setMem,
          if_congr (allZero_iff hbytes) rfl rfl]
        exact hrun
      · rw [hfail]
        constructor
        · rintro ⟨x, h₁, h₂, h⟩
          exact ⟨x, by omega, by omega, h⟩
        · rintro ⟨x, h₁, h₂, v, hv, hbad⟩
          rcases h₁.eq_or_lt with rfl | h₁
          · exact absurd (hconcludes v hv ▸ hoffers) hbad
          · exact ⟨x, h₁, by omega, v, hv, hbad⟩
      · rw [show lba + (n + 1) = lba + 1 + n by omega]
        exact hused last' h
    · have hr : r ≠ 0 := fun hzero ↦ hoffers (hends.eq_zero_iff.1 hzero 0 Nat.one_pos)
      rw [if_pos hr]
      exact ⟨none, _, rfl, ⟨fun _ ↦ ⟨lba, le_rfl, by omega, _, ⟨m, hm, rfl⟩, hoffers⟩,
        fun _ ↦ rfl⟩, fun last' h ↦ absurd h (by simp)⟩

/-- What the function returns after the scan. -/
def scanResult (size : ℕ) : Option (Option ℕ) → ℕ
  | none => uint32Max
  | some none => 0
  | some (some last) => if last = size - 1 then uint32Max else last + 1

theorem findNextFreeLba_apply {buf : ℕ} {res : Option (Option ℕ)} {w' : Kernel Scripted}
    (hs : w.ScriptedDrive i c d) (hpos : 0 < w.driveSize i)
    (hscan : scanLoop fuel i buf 0 (w.driveSize i) none w = some (res, w')) :
    findNextFreeLba fuel buf i w = some (scanResult (w.driveSize i) res, w') := by
  have hslot := hs.attached.slot_lt
  have hpresent : (w.ideDevices i).reserved ≠ 0 := hs.attached.present
  rw [findNextFreeLba, bind_apply_of_runs get_apply, if_neg (by omega), if_neg hpresent,
    if_neg hpos.ne', bind_apply_of_runs hscan]
  match res with
  | none => rfl
  | some none => rfl
  | some (some last) =>
    show (if last = w.driveSize i - 1 then (pure uint32Max : KernelM Scripted ℕ)
      else pure (last + 1)) w' = some (if last = w.driveSize i - 1 then uint32Max else last + 1, w')
    split <;> rfl

/-- A scan that gets through tells the end of the used area. -/
theorem scanResult_some {size : ℕ} {last : Option ℕ} (hlast : LastUsed s size last)
    (hpos : 0 < size) (hsize : size ≤ 0x0FFFFFFF) :
    (scanResult size (some last) = uint32Max ↔ ¬ SectorFree (s (size - 1))) ∧
      (scanResult size (some last) ≠ uint32Max →
        IsLeast {r | FreeFrom s size r} (scanResult size (some last))) := by
  rw [← hlast.eq_last_iff hpos]
  have hleast := hlast.isLeast
  cases hlast with
  | clean =>
    have hmax : (0 : ℕ) ≠ uint32Max := by decide
    exact ⟨⟨fun h ↦ absurd h hmax, fun h ↦ absurd h (by simp)⟩, fun _ ↦ hleast⟩
  | @used last hlt =>
    rw [scanResult, Option.some_inj]
    by_cases htop : last = size - 1
    · rw [if_pos htop]
      exact ⟨⟨fun _ ↦ htop, fun _ ↦ rfl⟩, fun h ↦ absurd rfl h⟩
    · rw [if_neg htop]
      have hmax : last + 1 ≠ uint32Max := by
        rw [uint32Max]
        omega
      exact ⟨⟨fun h ↦ absurd h hmax, fun h ↦ absurd h htop⟩, fun _ ↦ hleast⟩

/-- **`find_next_free_lba`** finds the end of the used area, on a drive that delivers its sectors or
fails to. -/
theorem findNextFreeLba_isLeast (buf : ℕ) (hs : w.ScriptedDrive i c d)
    (hpos : 0 < w.driveSize i) (hsize : w.driveSize i ≤ 0x0FFFFFFF)
    (hsettles : ∀ lba < w.driveSize i, Settles (w.io.script (w.io.commands + 1 + lba) 0)) :
    ∃ fuel₀, ∀ fuel, fuel₀ ≤ fuel → ∃ r w', Runs (findNextFreeLba fuel buf i) w r w' ∧
      (r = uint32Max ↔ (∃ lba < w.driveSize i, ReadFails w lba) ∨
        ¬ SectorFree ((w.io.bus.unit c d).sectors (w.driveSize i - 1))) ∧
      (r ≠ uint32Max →
        IsLeast {r | FreeFrom (w.io.bus.unit c d).sectors (w.driveSize i) r} r) := by
  obtain ⟨fuel₀, hfuel₀⟩ := exists_fuel hsettles
  refine ⟨fuel₀, fun fuel hfuel ↦ ?_⟩
  obtain ⟨res, w', hscan, hfails, hused⟩ := scanLoop_spec (n := w.driveSize i) buf hs rfl rfl
    (show w.io.commands = w.io.commands + 0 from rfl) (by omega)
    (.clean fun x _ hx ↦ absurd hx (Nat.not_lt_zero x)) fun k hk ↦ by
      rw [Nat.zero_add] at hk
      obtain ⟨m, hm⟩ := (hsettles k hk).exists_readyAt
      exact ⟨m, hm, (hfuel₀ k hk m hm).trans_le hfuel⟩
  rw [Nat.zero_add] at hfails hused
  have hreads : res = none ↔ ∃ lba < w.driveSize i, ReadFails w lba := by
    simpa only [Nat.zero_le, true_and, ReadFails] using hfails
  refine ⟨_, w', findNextFreeLba_apply hs hpos hscan, ?_⟩
  rw [← hreads]
  cases res with
  | none => exact ⟨⟨fun _ ↦ Or.inl rfl, fun _ ↦ rfl⟩, fun h ↦ absurd rfl h⟩
  | some last =>
    obtain ⟨hmax, hleast⟩ := scanResult_some (hused last rfl) hpos hsize
    exact ⟨hmax.trans (by simp), hleast⟩

/-- The kernel with four disks of 40000 sectors, each blank but for sector 17. -/
def Kernel.usedDisks : Kernel Scripted :=
  (Kernel.scripted (fun _ _ _ ↦ 0x58) 40000).setIo
    { bus := { AtaBus.blank fun _ ↦ 0 with
        chan := fun _ ↦ ⟨0, 0, 0, 0, 0, fun _ ↦
          { AtaUnit.blank fun _ ↦ 0 with
            sectors := Function.update (fun _ _ ↦ 0) 17 fun _ ↦ 1 }⟩ }
      script := fun _ _ _ ↦ 0x58, commands := 0, sectors := 0, reads := 0 }

theorem Kernel.freeFrom_usedDisks (r : ℕ) :
    FreeFrom (Kernel.usedDisks.io.bus.unit 0 0).sectors 40000 r ↔ 18 ≤ r := by
  have hunit : (Kernel.usedDisks.io.bus.unit 0 0).sectors =
      Function.update (fun _ _ ↦ 0) 17 fun _ ↦ 1 := rfl
  rw [hunit]
  constructor
  · intro h
    by_contra hr
    have hused := h 17 (by omega) (by decide)
    rw [Function.update_self] at hused
    exact absurd (hused 0) (by decide)
  · intro hr lba hlba _
    rw [Function.update_of_ne (by omega)]
    exact fun _ ↦ rfl

/-- The drives deliver their sectors, and the used area ends behind sector 17. -/
theorem findNextFreeLba_isLeast_used :
    ∃ fuel w', Runs (findNextFreeLba fuel 0x100000 0) Kernel.usedDisks 18 w' := by
  have hs : Kernel.usedDisks.ScriptedDrive 0 0 0 :=
    ⟨(Kernel.attached_blank (Heap.boot fun _ ↦ 7) 40000 (i := 0) (by decide)).of_unit rfl rfl rfl
      rfl, fun _ ↦ rfl⟩
  obtain ⟨fuel, hfind⟩ := findNextFreeLba_isLeast 0x100000 hs (by decide) (by decide)
    fun _ _ ↦ ⟨0, fun _ _ ↦ (by decide : (0x58 : UInt8) &&& ataSrBsy = 0)⟩
  obtain ⟨r, w', hrun, hmax, hleast⟩ := hfind fuel le_rfl
  have hr : r ≠ uint32Max := by
    rw [Ne, hmax, not_or]
    refine ⟨?_, not_not.2 ?_⟩
    · rintro ⟨lba, -, v, ⟨m, -, rfl⟩, hbad⟩
      exact hbad (by decide : OffersData 0x58)
    · exact (Kernel.freeFrom_usedDisks 18).2 le_rfl _ (by decide) (by decide)
  obtain ⟨hfree, hbound⟩ := hleast hr
  obtain rfl : r = 18 := le_antisymm (hbound ((Kernel.freeFrom_usedDisks 18).2 le_rfl))
    ((Kernel.freeFrom_usedDisks r).1 hfree)
  exact ⟨fuel, w', hrun⟩

end Driver
