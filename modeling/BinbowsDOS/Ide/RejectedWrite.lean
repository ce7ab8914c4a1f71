import BinbowsDOS.Ide.PortRange
import BinbowsDOS.Ide.SectorArray

/-!
# Requests that a write turns down

`ide_write_sectors_counted` looks at the drive and at the byte count before it does anything. At
the address it looks once for each chunk, at the chunk's first sector and after the chunks before
it have been written. So a range that starts inside the 28-bit limit and ends outside it
(`Straddles`) is not turned down as a whole: its first chunk is written in any case, and the call
may even return 0.
-/

open Prog Kernel

section Requests

variable {σ : Type}

/-- No drive can serve the request: there is no such drive, the count is not one of whole sectors,
or some sector lies beyond the 28-bit limit. -/
def InvalidWrite (w : Kernel σ) (drive startLba byteCount : ℕ) : Prop :=
  (3 < drive ∨ (w.ideDevices drive).reserved = 0) ∨ byteCount % 512 ≠ 0 ∨
    ∃ i < byteCount / 512, 0x0FFFFFFF < startLba + i

/-- A request for whole sectors of a present drive that starts inside the limit and ends outside
it. -/
structure Straddles (w : Kernel σ) (drive startLba byteCount : ℕ) : Prop where
  /-- The drive is there. -/
  present : ¬ (3 < drive ∨ (w.ideDevices drive).reserved = 0)
  /-- Whole sectors. -/
  whole : byteCount % 512 = 0
  /-- The first sector is inside. -/
  starts : startLba ≤ 0x0FFFFFFF
  /-- The last one is not. -/
  ends : 0x0FFFFFFF < startLba + byteCount / 512 - 1

/-- The call returns a code that is not 0, every sector is as it was, and no write command has
been issued. -/
def TurnedDown (fuel drive startLba byteCount buf : ℕ) (w : Kernel (Watched AtaBus)) : Prop :=
  ∃ r w' es, Runs (ideWriteSectorsCounted fuel drive startLba byteCount buf) w r w' ∧ r ≠ 0 ∧
    (∀ c d, (w'.io.bus.unit c d).sectors = (w.io.bus.unit c d).sectors) ∧ w.Emits es w' ∧
    ∀ c after, PortEvent.outb ((w.channels c).port ataRegCommand) ataCmdWritePio after ∉ es

end Requests

/-! ### What is turned down, and when -/

section Checks

variable {σ : Type} [PortBus σ] {w w' : Kernel σ} {fuel drive startLba byteCount buf : ℕ}

/-- An invalid request that does not straddle the limit is seen at once. -/
theorem ideWriteSectorsCounted_turnsDown (hinvalid : InvalidWrite w drive startLba byteCount)
    (hstraddles : ¬ Straddles w drive startLba byteCount) :
    ∃ r, r ≠ 0 ∧ ideWriteSectorsCounted fuel drive startLba byteCount buf w = some (r, w) := by
  rw [ideWriteSectorsCounted, bind_apply_of_runs get_apply]
  by_cases habsent : 3 < drive ∨ (w.ideDevices drive).reserved = 0
  · rw [if_pos habsent]
    exact ⟨1, one_ne_zero, rfl⟩
  rcases eq_or_ne (byteCount % 512) 0 with hwhole | hwhole
  · obtain ⟨i, hi, hbeyond⟩ := (hinvalid.resolve_left habsent).resolve_left (not_not.2 hwhole)
    -- the range ends outside the limit, so it must start there
    have hstart : 0x0FFFFFFF < startLba := by
      by_contra hinside
      exact hstraddles ⟨habsent, hwhole, by omega, by omega⟩
    obtain ⟨n, hn⟩ := Nat.exists_eq_succ_of_ne_zero (show byteCount / 512 ≠ 0 by omega)
    rw [if_neg habsent, if_neg (by omega), if_neg (not_not.2 hwhole), hn, writeChunksLoop,
      if_neg (Nat.succ_ne_zero n), if_pos hstart]
    exact ⟨3, by decide, rfl⟩
  · rw [if_neg habsent, if_neg (by omega), if_pos hwhole]
    exact ⟨2, two_ne_zero, rfl⟩

end Checks

theorem SetUp.mem_command {σ : Type} {ch : IdeChannel} {count : ℕ} {command : UInt8}
    {es : List (PortEvent σ)} (h : SetUp ch count command es) :
    ∃ after, PortEvent.outb (ch.port ataRegCommand) command after ∈ es := by
  obtain ⟨head, lba0, lba1, lba2, a₁, a₂, a₃, a₄, a₅, a₆⟩ := h
  exact ⟨a₆, by simp⟩

section Commands

variable {σ : Type} [PortBus σ] {w w' : Kernel (Watched σ)}
  {fuel drive startLba byteCount buf r : ℕ}

/-- A chunk that starts inside the limit issues a write command, whatever comes after it. -/
theorem writeChunksLoop_commands {data passes written n lba : ℕ} (hn : n ≠ 0)
    (hlba : lba ≤ 0x0FFFFFFF)
    (h : Runs (writeChunksLoop fuel drive data passes written n lba) w r w') :
    ∃ es after, w.Emits es w' ∧ PortEvent.outb
      ((w.channels (w.ideDevices drive).channel).port ataRegCommand) ataCmdWritePio after ∈ es := by
  cases passes with
  | zero => simp [Runs, writeChunksLoop, hn] at h
  | succ passes =>
    rw [writeChunksLoop, if_neg hn, if_neg (by omega), runs_get_bind] at h
    obtain ⟨_, t, hsetup, h⟩ := runs_bind.1 h
    obtain ⟨setup, hs, hemits⟩ := ideSetup_emits rfl hsetup
    obtain ⟨after, hafter⟩ := hs.mem_command
    -- the log only grows from here on
    have hR := busPreorder_log.access (σ := Watched σ)
    have hrest : Grows t w' := by
      refine Kernel.Follows.grows (Respects.run ?_ h)
      exact hR.bind (writeSectorsLoop_respects hR _ _ _ _ _ _) fun _ ↦
        respects_ite (hR.pure _) <| hR.bind (ideWrite_respects hR _ _ _) fun _ ↦
          hR.bind (idePolling_respects hR _ _ _) fun _ ↦
            respects_ite (hR.pure _) (writeChunksLoop_respects hR _ _ _ _ _ _ _)
    obtain ⟨es, hrest⟩ := hrest
    exact ⟨setup ++ es, after, hemits.trans hrest, List.mem_append_left _ hafter⟩

/-- A request that straddles the limit is begun. -/
theorem Straddles.commands (hstraddles : Straddles w drive startLba byteCount)
    (h : Runs (ideWriteSectorsCounted fuel drive startLba byteCount buf) w r w') :
    ∃ es after, w.Emits es w' ∧ PortEvent.outb
      ((w.channels (w.ideDevices drive).channel).port ataRegCommand) ataCmdWritePio after ∈ es := by
  have hstarts := hstraddles.starts
  have hends := hstraddles.ends
  rw [ideWriteSectorsCounted, runs_get_bind, if_neg hstraddles.present, if_neg (by omega),
    if_neg (not_not.2 hstraddles.whole)] at h
  exact writeChunksLoop_commands (by omega) hstarts h

end Commands

section Watched

variable {w : Kernel (Watched AtaBus)} {drive startLba byteCount : ℕ}

theorem Straddles.invalid (h : Straddles w drive startLba byteCount) :
    InvalidWrite w drive startLba byteCount := by
  have hends := h.ends
  exact Or.inr (Or.inr ⟨byteCount / 512 - 1, by have := h.starts; omega, by omega⟩)

theorem Straddles.not_turnedDown (h : Straddles w drive startLba byteCount) (fuel buf : ℕ) :
    ¬ TurnedDown fuel drive startLba byteCount buf w := by
  rintro ⟨r, w', es, hrun, -, -, hemits, hnone⟩
  obtain ⟨es', after, hemits', hcommand⟩ := h.commands hrun
  obtain rfl := hemits.unique hemits'
  exact hnone _ after hcommand

/-- **Which invalid requests are turned down**: all but those that straddle the limit. -/
theorem turnedDown_iff (fuel buf : ℕ) :
    (InvalidWrite w drive startLba byteCount → TurnedDown fuel drive startLba byteCount buf w) ↔
      ¬ Straddles w drive startLba byteCount := by
  constructor
  · intro h hstraddles
    exact hstraddles.not_turnedDown fuel buf (h hstraddles.invalid)
  · intro hstraddles hinvalid
    obtain ⟨r, hr, hrun⟩ := ideWriteSectorsCounted_turnsDown hinvalid hstraddles
    exact ⟨r, w, [], hrun, hr, fun _ _ ↦ rfl, Emits.refl w, fun _ _ ↦ List.not_mem_nil⟩

/-- Two sectors, the first of which is the last one that 28 bits can address. -/
theorem not_turnedDown_last :
    InvalidWrite (Kernel.blank (Heap.boot fun _ ↦ 7) 0x10000000).watch 0 0x0FFFFFFF 1024 ∧
      ¬ TurnedDown 1 0 0x0FFFFFFF 1024 0x100000
        (Kernel.blank (Heap.boot fun _ ↦ 7) 0x10000000).watch := by
  have hstraddles :
      Straddles (Kernel.blank (Heap.boot fun _ ↦ 7) 0x10000000).watch 0 0x0FFFFFFF 1024 :=
    ⟨by rintro (h | h) <;> exact absurd h (by decide), by decide, by decide, by decide⟩
  exact ⟨hstraddles.invalid, hstraddles.not_turnedDown _ _⟩

end Watched
