import BinbowsDOS.Ide.SectorArray

/-!
# The wait helpers

`timer.h`: durations in microseconds, milliseconds and seconds, each turned into ticks of ten
milliseconds by arithmetic on 32 bits. `timer_wait_micros` rounds up, and its sum wraps for the
longest durations; `timer_wait_ms` rounds down; the product of `timer_wait_seconds` wraps.

A wait is in time if it takes the least number of ticks that covers the duration.
-/

open Prog

section Helpers

variable {σ : Type}

/-- `timer_wait_micros` -/
def timerWaitMicros (microseconds : ℕ) : KernelM σ Unit :=
  if microseconds = 0 then pure () else timerWait (u32 (microseconds + 9999) / 10000)

/-- `timer_wait_seconds` -/
def timerWaitSeconds (seconds : ℕ) : KernelM σ Unit := timerWait (u32 (seconds * 100))

end Helpers

/-- A call of one of the helpers. -/
inductive WaitCall where
  /-- `timer_wait_micros(microseconds)` -/
  | micros (microseconds : UInt32)
  /-- `timer_wait_ms(milliseconds)` -/
  | ms (milliseconds : UInt32)
  /-- `timer_wait_seconds(seconds)` -/
  | seconds (seconds : UInt32)

namespace WaitCall

/-- The call. -/
def run {σ : Type} : WaitCall → KernelM σ Unit
  | micros us => timerWaitMicros us.toNat
  | ms t => timerWaitMs t.toNat
  | seconds s => timerWaitSeconds s.toNat

/-- The duration asked for, in microseconds. -/
def duration : WaitCall → ℕ
  | micros us => us.toNat
  | ms t => 1000 * t.toNat
  | seconds s => 1000000 * s.toNat

/-- The ticks that are waited for. -/
def ticks : WaitCall → ℕ
  | micros us => u32 (us.toNat + 9999) / 10000
  | ms t => t.toNat / 10
  | seconds s => u32 (s.toNat * 100)

/-- Nothing is lost: neither a bit of the sum or the product, nor a part of a tick. -/
def Lossless : WaitCall → Prop
  | micros us => us.toNat + 9999 < 2 ^ 32
  | ms t => t.toNat % 10 = 0
  | seconds s => s.toNat * 100 < 2 ^ 32

variable {σ : Type} {w : Kernel σ} {c c' : WaitCall} {t : ℕ}

/-- Without the test for zero `timer_wait_micros` would wait for no tick. -/
theorem run_eq (c : WaitCall) : (c.run : KernelM σ Unit) = timerWait c.ticks := by
  cases c with
  | micros us =>
    rw [run, timerWaitMicros, ticks]
    split_ifs with h
    · rw [h]
      rfl
    · rfl
  | ms => rfl
  | seconds => rfl

/-- The call waits for `t` ticks. -/
def WaitsFor (w : Kernel σ) (c : WaitCall) (t : ℕ) : Prop :=
  Runs c.run w () { w with timerTicks := w.timerTicks + t }

theorem waitsFor_iff : c.WaitsFor w t ↔ t = c.ticks := by
  rw [WaitsFor, run_eq, timerWait, runs_modify]
  constructor
  · intro h
    have hticks : w.timerTicks + c.ticks = w.timerTicks + t := congrArg Kernel.timerTicks h
    omega
  · rintro rfl
    rfl

/-- With ten milliseconds to the tick the call waits no shorter than asked for, and by less than a
tick longer. -/
def InTime (w : Kernel σ) (c : WaitCall) : Prop :=
  ∃ t, c.WaitsFor w t ∧ c.duration ≤ t * 10000 ∧ t * 10000 < c.duration + 10000

/-- One duration has one number of ticks. -/
theorem ticks_unique {d n : ℕ} (ht : d ≤ t * 10000 ∧ t * 10000 < d + 10000)
    (hn : d ≤ n * 10000 ∧ n * 10000 < d + 10000) : t = n := by
  omega

/-- The ticks cover the duration exactly if nothing is lost: what is lost is missing. -/
theorem covers_iff (c : WaitCall) :
    c.duration ≤ c.ticks * 10000 ∧ c.ticks * 10000 < c.duration + 10000 ↔ c.Lossless := by
  cases c with
  | micros us =>
    have hlt := us.toNat_lt
    simp only [duration, ticks, Lossless, u32]
    omega
  | ms t =>
    simp only [duration, ticks, Lossless]
    omega
  | seconds s =>
    have hlt := s.toNat_lt
    simp only [duration, ticks, Lossless, u32]
    omega

theorem inTime_iff_lossless : c.InTime w ↔ c.Lossless := by
  rw [← covers_iff]
  constructor
  · rintro ⟨t, hwaits, hcovers⟩
    rwa [waitsFor_iff.1 hwaits] at hcovers
  · exact fun h ↦ ⟨c.ticks, waitsFor_iff.2 rfl, h⟩

/-- **When a wait is in time**: exactly if the conversion loses nothing. Waits of equal durations
are then the same. -/
theorem inTime_iff (w : Kernel σ) : (∀ c : WaitCall, c.InTime w ↔ c.Lossless) ∧
    ∀ c c' : WaitCall, c.Lossless → c'.Lossless → c.duration = c'.duration →
      ∀ t, c.WaitsFor w t ↔ c'.WaitsFor w t := by
  refine ⟨fun c ↦ inTime_iff_lossless, fun c c' hc hc' hduration t ↦ ?_⟩
  have hcovers := (covers_iff c).2 hc
  rw [hduration] at hcovers
  rw [waitsFor_iff, waitsFor_iff, ticks_unique hcovers ((covers_iff c').2 hc')]

/-- A tenth of a second, asked for in three ways. -/
theorem inTime_tenth :
    ((micros 100000).InTime (.blank (Heap.boot fun _ ↦ 0) 0) ∧
        (ms 100).InTime (.blank (Heap.boot fun _ ↦ 0) 0)) ∧
      ((micros 100000).WaitsFor (.blank (Heap.boot fun _ ↦ 0) 0) 10 ↔
        (ms 100).WaitsFor (.blank (Heap.boot fun _ ↦ 0) 0) 10) := by
  obtain ⟨hiff, hagree⟩ := inTime_iff (Kernel.blank (Heap.boot fun _ ↦ 0) 0)
  have hmicros : (micros 100000).Lossless := show 100000 + 9999 < 2 ^ 32 by decide
  have hms : (ms 100).Lossless := show 100 % 10 = 0 by decide
  exact ⟨⟨(hiff _).2 hmicros, (hiff _).2 hms⟩, hagree _ _ hmicros hms rfl 10⟩

/-- The millisecond of the IDE driver is no wait at all. -/
theorem not_inTime_ms_one : ¬ (ms 1).InTime (.blank (Heap.boot fun _ ↦ 0) 0) := by
  rintro ⟨t, hwaits, hcovers, -⟩
  obtain rfl : t = 0 := waitsFor_iff.1 hwaits
  exact absurd hcovers (by decide)

end WaitCall
