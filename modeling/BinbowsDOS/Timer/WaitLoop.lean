import BinbowsDOS.Foundations.Trace
import BinbowsDOS.Timer.Wait

/-!
# The loop of `timer_wait`

`timer_wait` in single steps, with interrupts between them. `timer_ticks` has 64 bits and the
processor 32, so the counter is read in two halves, in the order that the compiler chose, and a tick
may fall between them. A test that fails is followed by `hlt`, and a tick between the two is not
seen before the next interrupt.

As long as the low half of the counter does not wrap, the loop never ends early (`never_early`), and
ends soon when it may (`returns_when_due`).
-/

/-- Where `timer_wait` is. -/
inductive WaitPc
  /-- Before `start_ticks` is read. -/
  | start
  /-- One half of it is read. -/
  | started (first : UInt32)
  /-- Before the condition of the loop. -/
  | test
  /-- One half of the counter is read. -/
  | tested (first : UInt32)
  /-- Before `hlt`. -/
  | sleep
  /-- In `hlt`. -/
  | asleep
  | returned
  deriving DecidableEq

/-- `timer_wait` and the counter. -/
structure Waiter where
  pc : WaitPc
  timerTicks : UInt64
  startTicks : UInt64

/-- A step of `timer_wait`, an interrupt of the timer, another interrupt. -/
inductive WaitEvent
  | own
  | tick
  | other
  deriving DecidableEq

/-- A half of the counter. -/
def half (high : Bool) (v : UInt64) : UInt32 :=
  UInt32.ofNat (if high then v.toNat / 2 ^ 32 else v.toNat)

/-- The counter from its halves, in the order in which they were read. -/
def joined (highFirst : Bool) (first second : UInt32) : UInt64 :=
  UInt64.ofNat (if highFirst then first.toNat * 2 ^ 32 + second.toNat
    else second.toNat * 2 ^ 32 + first.toNat)

namespace Waiter

/-- The second half is read now. -/
def readBack (highFirst : Bool) (first : UInt32) (s : Waiter) : UInt64 :=
  joined highFirst first (half (!highFirst) s.timerTicks)

/-- An interrupt ends `hlt`. -/
def wake (s : Waiter) : Waiter := if s.pc = .asleep then { s with pc := .test } else s

/-- One step, and what an interrupt does. -/
def step (highFirst : Bool) (ticks : UInt32) : WaitEvent → Waiter → Option Waiter
  | .tick, s => some { s.wake with timerTicks := s.timerTicks + 1 }
  | .other, s => some s.wake
  | .own, s =>
    match s.pc with
    | .start => some { s with pc := .started (half highFirst s.timerTicks) }
    | .started first => some { s with pc := .test, startTicks := s.readBack highFirst first }
    | .test => some { s with pc := .tested (half highFirst s.timerTicks) }
    | .tested first =>
      some { s with
        pc := if s.readBack highFirst first < s.startTicks + ticks.toUInt64 then .sleep
          else .returned }
    | .sleep => some { s with pc := .asleep }
    | .asleep => none
    | .returned => none

/-- A run. -/
def Run (highFirst : Bool) (ticks : UInt32) : List WaitEvent → Waiter → Waiter → Prop :=
  Trace fun e s s' ↦ s.step highFirst ticks e = some s'

/-- `timer_wait` is called. -/
def called (timerTicks startTicks : UInt64) : Waiter := ⟨.start, timerTicks, startTicks⟩

variable {highFirst : Bool} {ticks : UInt32} {e : WaitEvent} {es : List WaitEvent} {s s' : Waiter}
  {c v w start : UInt64} {n : ℕ}

/-! ### Halves -/

/-- Two halves of values that differ in the low half only. -/
theorem joined_half (h : v.toNat / 2 ^ 32 = w.toNat / 2 ^ 32) :
    joined highFirst (half highFirst v) (half (!highFirst) w) = if highFirst then w else v := by
  have hv := v.toNat_lt
  have hw := w.toNat_lt
  rw [joined, half, half, ← UInt64.toNat_inj, UInt64.toNat_ofNat', UInt32.toNat_ofNat',
    UInt32.toNat_ofNat']
  cases highFirst
  · simp only [Bool.not_false, Bool.false_eq_true, if_false, if_true]
    omega
  · simp only [Bool.not_true, Bool.false_eq_true, if_false, if_true]
    omega

/-- What is read is between what the counter was at the two halves. -/
theorem readBack_bounds (highFirst : Bool) (hvw : v ≤ s.timerTicks)
    (h : v.toNat / 2 ^ 32 = s.timerTicks.toNat / 2 ^ 32) :
    v ≤ s.readBack highFirst (half highFirst v) ∧
      s.readBack highFirst (half highFirst v) ≤ s.timerTicks := by
  rw [readBack, joined_half h]
  split_ifs
  · exact ⟨hvw, UInt64.le_refl _⟩
  · exact ⟨UInt64.le_refl _, hvw⟩

/-! ### Never early -/

/-- What has been read since the counter was `c`. -/
def Reads (highFirst : Bool) (ticks : UInt32) (c : UInt64) (s : Waiter) : Prop :=
  match s.pc with
  | .start => True
  | .started first => ∃ v, c ≤ v ∧ v ≤ s.timerTicks ∧ first = half highFirst v
  | .tested first =>
    c ≤ s.startTicks ∧ ∃ v, s.startTicks ≤ v ∧ v ≤ s.timerTicks ∧ first = half highFirst v
  | .returned =>
    c ≤ s.startTicks ∧ s.startTicks.toNat + ticks.toNat ≤ s.timerTicks.toNat
  | _ => c ≤ s.startTicks ∧ s.startTicks ≤ s.timerTicks

/-- The invariant of the loop. -/
structure Sound (highFirst : Bool) (ticks : UInt32) (c : UInt64) (s : Waiter) : Prop where
  le : c ≤ s.timerTicks
  page : s.timerTicks.toNat / 2 ^ 32 = c.toNat / 2 ^ 32
  reads : s.Reads highFirst ticks c

theorem Reads.wake (h : s.Reads highFirst ticks c) : s.wake.Reads highFirst ticks c := by
  rw [Waiter.wake]
  split_ifs with hpc
  · rw [Reads, hpc] at h
    exact h
  · exact h

theorem Reads.mono (h : s.Reads highFirst ticks c) (hle : s.timerTicks ≤ v) :
    ({ s with timerTicks := v } : Waiter).Reads highFirst ticks c := by
  obtain ⟨pc, timerTicks, startTicks⟩ := s
  cases pc with
  | start => trivial
  | started first =>
    obtain ⟨w, hlow, hhigh, hfirst⟩ := h
    exact ⟨w, hlow, UInt64.le_trans hhigh hle, hfirst⟩
  | test => exact ⟨h.1, UInt64.le_trans h.2 hle⟩
  | tested first =>
    obtain ⟨hstart, w, hlow, hhigh, hfirst⟩ := h
    exact ⟨hstart, w, hlow, UInt64.le_trans hhigh hle, hfirst⟩
  | sleep => exact ⟨h.1, UInt64.le_trans h.2 hle⟩
  | asleep => exact ⟨h.1, UInt64.le_trans h.2 hle⟩
  | returned => exact ⟨h.1, h.2.trans (UInt64.le_iff_toNat_le.1 hle)⟩

theorem wake_timerTicks : s.wake.timerTicks = s.timerTicks := by
  rw [wake]
  split_ifs
  · rfl
  · rfl

/-- A value that was read lies on the page of the counter. -/
theorem page_of_le (hcv : c ≤ v) (hvw : v ≤ w) (h : w.toNat / 2 ^ 32 = c.toNat / 2 ^ 32) :
    v.toNat / 2 ^ 32 = w.toNat / 2 ^ 32 := by
  have hlow := UInt64.le_iff_toNat_le.1 hcv
  have hhigh := UInt64.le_iff_toNat_le.1 hvw
  omega

/-- The condition of the loop, when the sum does not wrap. -/
theorem toNat_target (h : start.toNat < 2 ^ 64 - 2 ^ 32) :
    (start + ticks.toUInt64).toNat = start.toNat + ticks.toNat := by
  have hlt := ticks.toNat_lt
  rw [UInt64.toNat_add, UInt32.toNat_toUInt64]
  omega

/-- **One step of `timer_wait`.** -/
theorem Sound.own (hs : s.Sound highFirst ticks c) (hc : c.toNat < 2 ^ 64 - 2 ^ 32)
    (h : s.step highFirst ticks .own = some s') : s'.Sound highFirst ticks c := by
  obtain ⟨hle, hpage, hreads⟩ := hs
  obtain ⟨pc, timerTicks, startTicks⟩ := s
  cases pc with
  | start =>
    cases h
    exact ⟨hle, hpage, timerTicks, hle, UInt64.le_refl _, rfl⟩
  | started first =>
    cases h
    obtain ⟨v, hlow, hhigh, rfl⟩ := hreads
    obtain ⟨hge, hle'⟩ := readBack_bounds highFirst hhigh (page_of_le hlow hhigh hpage)
    exact ⟨hle, hpage, UInt64.le_trans hlow hge, hle'⟩
  | test =>
    cases h
    exact ⟨hle, hpage, hreads.1, timerTicks, hreads.2, UInt64.le_refl _, rfl⟩
  | tested first =>
    obtain ⟨hstart, v, hlow, hhigh, rfl⟩ := hreads
    have hcv := UInt64.le_trans hstart hlow
    obtain ⟨hge, hle'⟩ := readBack_bounds highFirst hhigh (page_of_le hcv hhigh hpage)
    cases h
    refine ⟨hle, hpage, ?_⟩
    by_cases hlt : readBack highFirst (half highFirst v) ⟨.tested (half highFirst v), timerTicks,
        startTicks⟩ < startTicks + ticks.toUInt64
    · rw [Reads, if_pos hlt]
      exact ⟨hstart, UInt64.le_trans hlow hhigh⟩
    · rw [Reads, if_neg hlt]
      refine ⟨hstart, ?_⟩
      have htarget := UInt64.le_iff_toNat_le.1 (UInt64.not_lt.1 hlt)
      have hbound := UInt64.le_iff_toNat_le.1 (UInt64.le_trans hlow hhigh)
      dsimp only at hbound hpage
      rw [toNat_target (by omega)] at htarget
      exact htarget.trans (UInt64.le_iff_toNat_le.1 hle')
  | sleep =>
    cases h
    exact ⟨hle, hpage, hreads⟩
  | asleep => cases h
  | returned => cases h

/-- **One step** while the low half of the counter does not wrap. -/
theorem Sound.step (hs : s.Sound highFirst ticks c) (hc : c.toNat < 2 ^ 64 - 2 ^ 32)
    (hwrap : e = .tick → s.timerTicks.toNat % 2 ^ 32 + 1 < 2 ^ 32)
    (h : s.step highFirst ticks e = some s') : s'.Sound highFirst ticks c := by
  cases e with
  | own => exact hs.own hc h
  | tick =>
    cases h
    have hlt := s.timerTicks.toNat_lt
    have hnext : (s.timerTicks + 1).toNat = s.timerTicks.toNat + 1 := by
      rw [UInt64.toNat_add, show (1 : UInt64).toNat = 1 from rfl]
      have := hwrap rfl
      omega
    have hle : s.timerTicks ≤ s.timerTicks + 1 := UInt64.le_iff_toNat_le.2 (by omega)
    refine ⟨UInt64.le_trans hs.le hle, ?_, hs.reads.wake.mono (by rwa [wake_timerTicks])⟩
    have hpage := hs.page
    have := hwrap rfl
    dsimp only
    omega
  | other =>
    cases h
    refine ⟨?_, ?_, hs.reads.wake⟩
    · rw [wake_timerTicks]
      exact hs.le
    · rw [wake_timerTicks]
      exact hs.page

/-- The counter counts the ticks. -/
theorem timerTicks_step (h : s.step highFirst ticks e = some s') :
    s'.timerTicks = if e = .tick then s.timerTicks + 1 else s.timerTicks := by
  cases e with
  | own =>
    rw [step] at h
    split at h
    all_goals cases h
    all_goals rfl
  | tick =>
    cases h
    rfl
  | other =>
    cases h
    exact wake_timerTicks

theorem toNat_tick (h : v.toNat % 2 ^ 32 + 1 < 2 ^ 32) : (v + 1).toNat = v.toNat + 1 := by
  have hlt := v.toNat_lt
  rw [UInt64.toNat_add, show (1 : UInt64).toNat = 1 from rfl]
  omega

/-- A run in which the low half of the counter does not wrap. -/
theorem Sound.run (hs : s.Sound highFirst ticks c) (hc : c.toNat < 2 ^ 64 - 2 ^ 32)
    (hwrap : s.timerTicks.toNat % 2 ^ 32 + es.count .tick < 2 ^ 32)
    (h : Run highFirst ticks es s s') :
    s'.Sound highFirst ticks c ∧ s'.timerTicks.toNat = s.timerTicks.toNat + es.count .tick := by
  induction es generalizing s with
  | nil =>
    cases h
    exact ⟨hs, rfl⟩
  | cons e es ih =>
    obtain ⟨u, hstep, hrest⟩ := h
    rw [List.count_cons] at hwrap
    have hcounter := timerTicks_step hstep
    rcases eq_or_ne e .tick with rfl | hne
    · rw [if_pos rfl] at hcounter
      rw [if_pos (beq_self_eq_true _)] at hwrap
      have hnext : u.timerTicks.toNat = s.timerTicks.toNat + 1 := by
        rw [hcounter]
        exact toNat_tick (by omega)
      obtain ⟨hsound, hcount⟩ := ih (hs.step hc (fun _ ↦ by omega) hstep) (by omega) hrest
      refine ⟨hsound, ?_⟩
      rw [hcount, hnext, List.count_cons_self]
      omega
    · rw [if_neg hne] at hcounter
      rw [if_neg (fun h ↦ hne (beq_iff_eq.1 h))] at hwrap
      rw [← hcounter] at hwrap
      obtain ⟨hsound, hcount⟩ := ih (hs.step hc (fun h ↦ absurd h hne) hstep) hwrap hrest
      exact ⟨hsound, by rw [hcount, hcounter, List.count_cons_of_ne hne]⟩

theorem sound_called : (called c start).Sound highFirst ticks c := ⟨UInt64.le_refl _, rfl, trivial⟩

/-- **Never early.** Whatever interrupts come between the steps of `timer_wait`, when it returns
there have been at least as many ticks as asked for, if the low half of the counter did not wrap in
the meantime. -/
theorem never_early (hc : c.toNat < 2 ^ 64 - 2 ^ 32)
    (hwrap : c.toNat % 2 ^ 32 + es.count .tick < 2 ^ 32)
    (h : Run highFirst ticks es (called c start) s) (hreturned : s.pc = .returned) :
    ticks.toNat ≤ es.count .tick := by
  obtain ⟨hsound, hcount⟩ := sound_called.run hc hwrap h
  have hreads := hsound.reads
  rw [Reads, hreturned] at hreads
  have hstart := UInt64.le_iff_toNat_le.1 hreads.1
  have hticks := hreads.2
  have hcalled : (called c start).timerTicks = c := rfl
  rw [hcalled] at hcount
  omega

/-- A wait for three ticks, with an interrupt of another device and a tick in the first reading. -/
theorem never_early_three : (3 : UInt32).toNat ≤ [WaitEvent.own, .other, .tick, .own, .own, .own,
    .own, .tick, .own, .own, .tick, .own, .tick, .own, .own].count .tick := by
  have hrun : Run false 3 [.own, .other, .tick, .own, .own, .own, .own, .tick, .own, .own, .tick,
      .own, .tick, .own, .own] (called 0 0) ⟨.returned, 4, 0⟩ :=
    ⟨_, rfl, _, rfl, _, rfl, _, rfl, _, rfl, _, rfl, _, rfl, _, rfl, _, rfl, _, rfl, _, rfl,
      _, rfl, _, rfl, _, rfl, _, rfl, rfl⟩
  exact never_early (c := 0) (by decide) (by decide) hrun rfl

/-- A tick between the halves of the counter that carries from one to the other ends a wait for a
thousand ticks. -/
theorem early_at_wrap : ¬ ∀ (highFirst : Bool) (ticks : UInt32) (es : List WaitEvent)
    (c start : UInt64) (s : Waiter), c.toNat < 2 ^ 64 - 2 ^ 32 →
    Run highFirst ticks es (called c start) s → s.pc = .returned →
      ticks.toNat ≤ es.count .tick := by
  intro h
  have hticks : (1000 : UInt32).toNat ≤ [WaitEvent.own, .own, .own, .tick, .own].count .tick :=
    h false 1000 _ 0xFFFFFFFF 0 ⟨.returned, 0x100000000, 0xFFFFFFFF⟩ (by decide)
      ⟨_, rfl, _, rfl, _, rfl, _, rfl, _, rfl, rfl⟩ rfl
  exact absurd hticks (by decide)

/-! ### Not late -/

/-- At most `n` steps of `timer_wait` are left, since the ticks it waits for are there. -/
def Left (highFirst : Bool) (ticks : UInt32) (s : Waiter) (n : ℕ) : Prop :=
  match s.pc with
  | .start => False
  | .started _ => False
  | .test => 2 ≤ n
  | .tested first => 4 ≤ n ∨ 1 ≤ n ∧ ∃ v, s.startTicks.toNat + ticks.toNat ≤ v.toNat ∧
      v ≤ s.timerTicks ∧ first = half highFirst v
  | .sleep => 3 ≤ n
  | .asleep => 2 ≤ n
  | .returned => True

theorem Left.wake (h : s.Left highFirst ticks n) : s.wake.Left highFirst ticks n := by
  rw [Waiter.wake]
  split_ifs with hpc
  · rw [Left, hpc] at h
    exact h
  · exact h

theorem Left.mono (h : s.Left highFirst ticks n) (hle : s.timerTicks ≤ v) :
    ({ s with timerTicks := v } : Waiter).Left highFirst ticks n := by
  obtain ⟨pc, timerTicks, startTicks⟩ := s
  cases pc with
  | tested first =>
    rcases h with hn | ⟨hn, w, hdue, hw, hfirst⟩
    · exact .inl hn
    · exact .inr ⟨hn, w, hdue, UInt64.le_trans hw hle, hfirst⟩
  | start => exact h
  | started first => exact h
  | test => exact h
  | sleep => exact h
  | asleep => exact h
  | returned => exact h

/-- A step of `timer_wait` is one less. -/
theorem Left.own (h : s.Left highFirst ticks n) (hs : s.Sound highFirst ticks c)
    (hc : c.toNat < 2 ^ 64 - 2 ^ 32)
    (hdue : s.startTicks.toNat + ticks.toNat ≤ s.timerTicks.toNat)
    (hstep : s.step highFirst ticks .own = some s') :
    s'.startTicks = s.startTicks ∧ ∃ m, n = m + 1 ∧ s'.Left highFirst ticks m := by
  obtain ⟨hle, hpage, hreads⟩ := hs
  obtain ⟨pc, timerTicks, startTicks⟩ := s
  cases pc with
  | start => cases h
  | started first => cases h
  | test =>
    cases hstep
    have hn : 2 ≤ n := h
    exact ⟨rfl, n - 1, by omega, .inr ⟨by omega, timerTicks, hdue, UInt64.le_refl _, rfl⟩⟩
  | tested first =>
    cases hstep
    refine ⟨rfl, n - 1, ?_⟩
    rcases h with hn | ⟨hn, v, hv, hhigh, rfl⟩
    · refine ⟨by omega, ?_⟩
      rw [Left]
      dsimp only
      split_ifs
      · show 3 ≤ n - 1
        omega
      · trivial
    · -- the first half was read when the ticks were there
      have hstart : startTicks ≤ v := UInt64.le_iff_toNat_le.2 (by dsimp only at hv; omega)
      have hcv := UInt64.le_trans hreads.1 hstart
      have hge : v ≤ readBack highFirst (half highFirst v)
          ⟨.tested (half highFirst v), timerTicks, startTicks⟩ :=
        (readBack_bounds highFirst hhigh (page_of_le hcv hhigh hpage)).1
      have hbound := UInt64.le_iff_toNat_le.1 (UInt64.le_trans hstart hhigh)
      have hnot : ¬ readBack highFirst (half highFirst v) ⟨.tested (half highFirst v), timerTicks,
          startTicks⟩ < startTicks + ticks.toUInt64 := by
        refine UInt64.not_lt.2 (UInt64.le_trans (UInt64.le_iff_toNat_le.2 ?_) hge)
        dsimp only at hbound hpage
        rw [toNat_target (by omega)]
        exact hv
      refine ⟨by omega, ?_⟩
      rw [Left, if_neg hnot]
      trivial
  | sleep =>
    cases hstep
    have hn : 3 ≤ n := h
    exact ⟨rfl, n - 1, by omega, show 2 ≤ n - 1 by omega⟩
  | asleep => cases hstep
  | returned => cases hstep

theorem wake_startTicks : s.wake.startTicks = s.startTicks := by
  rw [wake]
  split_ifs
  · rfl
  · rfl

/-- The steps of `timer_wait` in a run are counted down, and interrupts take none away. -/
theorem Left.run (h : s.Left highFirst ticks n) (hs : s.Sound highFirst ticks c)
    (hc : c.toNat < 2 ^ 64 - 2 ^ 32)
    (hwrap : s.timerTicks.toNat % 2 ^ 32 + es.count .tick < 2 ^ 32)
    (hdue : s.startTicks.toNat + ticks.toNat ≤ s.timerTicks.toNat)
    (hrun : Run highFirst ticks es s s') :
    es.count .own ≤ n ∧ s'.Left highFirst ticks (n - es.count .own) := by
  induction es generalizing s n with
  | nil =>
    cases hrun
    exact ⟨Nat.zero_le n, h⟩
  | cons e es ih =>
    obtain ⟨u, hstep, hrest⟩ := hrun
    cases e with
    | own =>
      have hsound := hs.own hc hstep
      have hcounter : u.timerTicks = s.timerTicks := timerTicks_step hstep
      obtain ⟨hstart, m, rfl, hleft⟩ := h.own hs hc hdue hstep
      rw [List.count_cons_of_ne (by decide), ← hcounter] at hwrap
      rw [← hstart, ← hcounter] at hdue
      obtain ⟨hcount, hleft'⟩ := ih hleft hsound hwrap hdue hrest
      rw [List.count_cons_self, Nat.add_sub_add_right]
      exact ⟨Nat.add_le_add_right hcount 1, hleft'⟩
    | tick =>
      rw [List.count_cons_self] at hwrap
      have hsound := hs.step hc (fun _ ↦ by omega) hstep
      cases hstep
      have hnext : (s.timerTicks + 1).toNat = s.timerTicks.toNat + 1 := toNat_tick (by omega)
      have hle : s.wake.timerTicks ≤ s.timerTicks + 1 := by
        rw [wake_timerTicks, UInt64.le_iff_toNat_le]
        omega
      rw [List.count_cons_of_ne (by decide)]
      refine ih (h.wake.mono hle) hsound (by dsimp only; omega) ?_ hrest
      dsimp only
      rw [wake_startTicks]
      omega
    | other =>
      have hsound := hs.step hc (fun h ↦ by cases h) hstep
      cases hstep
      rw [List.count_cons_of_ne (by decide)] at hwrap ⊢
      refine ih h.wake hsound (by rwa [wake_timerTicks]) ?_ hrest
      rwa [wake_startTicks, wake_timerTicks]

/-- `start_ticks` has been read. -/
def Started (s : Waiter) : Prop :=
  match s.pc with
  | .start => False
  | .started _ => False
  | _ => True

theorem left_of_started (h : s.Started) : s.Left highFirst ticks 4 := by
  obtain ⟨pc, timerTicks, startTicks⟩ := s
  cases pc with
  | start => exact h
  | started first => exact h
  | test => exact (by decide : 2 ≤ 4)
  | tested first => exact .inl (le_refl 4)
  | sleep => exact (by decide : 3 ≤ 4)
  | asleep => exact (by decide : 2 ≤ 4)
  | returned => trivial

/-- Only `hlt` and the return end the steps of `timer_wait`. -/
theorem exists_step (h : s.pc ≠ .asleep) (h' : s.pc ≠ .returned) :
    ∃ u, s.step highFirst ticks .own = some u := by
  obtain ⟨pc, timerTicks, startTicks⟩ := s
  cases pc with
  | asleep => exact absurd rfl h
  | returned => exact absurd rfl h'
  | start => exact ⟨_, rfl⟩
  | started first => exact ⟨_, rfl⟩
  | test => exact ⟨_, rfl⟩
  | tested first => exact ⟨_, rfl⟩
  | sleep => exact ⟨_, rfl⟩

/-- **Not late.** When the ticks are there, `timer_wait` returns with its fourth step from then on,
wherever it was and however it is interrupted, and nothing but a `hlt` that needs one more interrupt
keeps it from that step. -/
theorem returns_when_due {es' : List WaitEvent} (hc : c.toNat < 2 ^ 64 - 2 ^ 32)
    (hwrap : c.toNat % 2 ^ 32 + (es ++ es').count .tick < 2 ^ 32)
    (h : Run highFirst ticks es (called c start) s) (hstarted : s.Started)
    (hdue : s.startTicks.toNat + ticks.toNat ≤ s.timerTicks.toNat)
    (h' : Run highFirst ticks es' s s') :
    es'.count .own ≤ 4 ∧ (es'.count .own = 4 → s'.pc = .returned) ∧
      (s'.pc = .returned ∨ s'.pc = .asleep ∨ ∃ u, s'.step highFirst ticks .own = some u) := by
  have hcalled : (called c start).timerTicks = c := rfl
  rw [List.count_append] at hwrap
  obtain ⟨hsound, hcount⟩ := sound_called.run hc (by rw [hcalled]; omega) h
  rw [hcalled] at hcount
  obtain ⟨hfour, hleft⟩ := (left_of_started hstarted).run hsound hc
    (by have := hsound.page; omega) hdue h'
  refine ⟨hfour, fun hall ↦ ?_, ?_⟩
  · rw [hall, Nat.sub_self, Left] at hleft
    split at hleft
    · exact hleft.elim
    · exact hleft.elim
    · omega
    · omega
    · omega
    · omega
    · assumption
  · by_cases hasleep : s'.pc = .asleep
    · exact .inr (.inl hasleep)
    · by_cases hreturned : s'.pc = .returned
      · exact .inl hreturned
      · exact .inr (.inr (exists_step hasleep hreturned))

/-- After three ticks in the middle of the first test, a wait for two of them. -/
theorem returns_when_due_two :
    [WaitEvent.own, .own, .other, .own, .own].count .own ≤ 4 ∧
      ([WaitEvent.own, .own, .other, .own, .own].count .own = 4 →
        (⟨.returned, 3, 0⟩ : Waiter).pc = .returned) := by
  have hbefore : Run false 2 [.own, .own, .own, .tick, .tick, .tick] (called 0 0)
      ⟨.tested 0, 3, 0⟩ := ⟨_, rfl, _, rfl, _, rfl, _, rfl, _, rfl, _, rfl, rfl⟩
  have hafter : Run false 2 [.own, .own, .other, .own, .own] ⟨.tested 0, 3, 0⟩ ⟨.returned, 3, 0⟩ :=
    ⟨_, rfl, _, rfl, _, rfl, _, rfl, _, rfl, rfl⟩
  have h := returns_when_due (c := 0) (by decide) (by decide) hbefore trivial (by decide) hafter
  exact ⟨h.1, h.2.1⟩

/-! ### One step of the driver's model -/

/-- The halves of a counter that stands still. -/
theorem readBack_half {pc : WaitPc} : readBack highFirst (half highFirst v) ⟨pc, v, start⟩ = v := by
  rw [readBack, joined_half rfl]
  split_ifs
  · rfl
  · rfl

theorem step_tested : (⟨.tested (half highFirst v), v, start⟩ : Waiter).step highFirst ticks .own =
    some ⟨if v < start + ticks.toUInt64 then .sleep else .returned, v, start⟩ := by
  rw [step]
  dsimp only
  rw [readBack_half]

/-- A failed test, `hlt` and the tick that ends it. -/
theorem run_lap (h : v.toNat < start.toNat + ticks.toNat) (hstart : start.toNat < 2 ^ 64 - 2 ^ 32) :
    Run highFirst ticks [.own, .own, .own, .tick] ⟨.test, v, start⟩ ⟨.test, v + 1, start⟩ := by
  have hlt : v < start + ticks.toUInt64 := by
    rw [UInt64.lt_iff_toNat_lt, toNat_target hstart]
    exact h
  refine ⟨_, rfl, ⟨.sleep, v, start⟩, step_tested.trans ?_, _, rfl, _, rfl, rfl⟩
  rw [if_pos hlt]

theorem run_last (h : start.toNat + ticks.toNat ≤ v.toNat)
    (hstart : start.toNat < 2 ^ 64 - 2 ^ 32) :
    Run highFirst ticks [.own, .own] ⟨.test, v, start⟩ ⟨.returned, v, start⟩ := by
  have hnot : ¬ v < start + ticks.toUInt64 := by
    rw [UInt64.not_lt, UInt64.le_iff_toNat_le, toNat_target hstart]
    exact h
  refine ⟨_, rfl, ⟨.returned, v, start⟩, step_tested.trans ?_, rfl⟩
  rw [if_neg hnot]

/-- The laps that are left. -/
theorem exists_laps (highFirst : Bool) (hstart : start.toNat < 2 ^ 64 - 2 ^ 32)
    (hle : v.toNat ≤ start.toNat + ticks.toNat)
    (hn : start.toNat + ticks.toNat - v.toNat = n) :
    ∃ es, Run highFirst ticks es ⟨.test, v, start⟩ ⟨.returned, start + ticks.toUInt64, start⟩ ∧
      es.count .tick = n ∧ es.count .other = 0 := by
  have hlt := ticks.toNat_lt
  induction n generalizing v with
  | zero =>
    have hv : v = start + ticks.toUInt64 := by
      rw [← UInt64.toNat_inj, toNat_target hstart]
      omega
    refine ⟨[.own, .own], ?_, rfl, rfl⟩
    rw [← hv]
    exact run_last (by omega) hstart
  | succ n ih =>
    have hnext : (v + 1).toNat = v.toNat + 1 := by
      rw [UInt64.toNat_add, show (1 : UInt64).toNat = 1 from rfl]
      omega
    obtain ⟨es, hrun, hticks, hother⟩ := ih (v := v + 1) (by omega) (by omega)
    have hlap : Run highFirst ticks ([.own, .own, .own, .tick] ++ es) ⟨.test, v, start⟩ _ :=
      (run_lap (by omega) hstart).append hrun
    refine ⟨_, hlap, ?_, ?_⟩
    · rw [List.count_append, hticks, Nat.add_comm]
      rfl
    · rw [List.count_append, hother]
      rfl

/-- **The wait of the driver's model**, which lets all ticks pass at once, is a run of the loop. -/
theorem exists_run_of_timerWait {σ : Type} {w w' : Kernel σ}
    (hc : w.timerTicks < 2 ^ 64 - 2 ^ 32) (h : Prog.Runs (timerWait ticks.toNat) w () w') :
    ∃ es s, Run highFirst ticks es (called (UInt64.ofNat w.timerTicks) start) s ∧
      s.pc = .returned ∧ s.timerTicks.toNat = w'.timerTicks ∧ es.count .other = 0 := by
  rw [timerWait, Prog.runs_modify] at h
  have hnat : (UInt64.ofNat w.timerTicks).toNat = w.timerTicks := by
    rw [UInt64.toNat_ofNat']
    omega
  have hbegin : Run highFirst ticks [.own, .own] (called (UInt64.ofNat w.timerTicks) start)
      ⟨.test, UInt64.ofNat w.timerTicks, UInt64.ofNat w.timerTicks⟩ := by
    refine ⟨_, rfl, _, rfl, ?_⟩
    rw [readBack_half]
    rfl
  have hstart : (UInt64.ofNat w.timerTicks).toNat < 2 ^ 64 - 2 ^ 32 := by omega
  have hle : (UInt64.ofNat w.timerTicks).toNat ≤
      (UInt64.ofNat w.timerTicks).toNat + ticks.toNat := by omega
  obtain ⟨es, hrun, -, hother⟩ := exists_laps highFirst hstart hle rfl
  have hwait : Run highFirst ticks ([.own, .own] ++ es) (called (UInt64.ofNat w.timerTicks) start)
      ⟨.returned, UInt64.ofNat w.timerTicks + ticks.toUInt64, UInt64.ofNat w.timerTicks⟩ :=
    hbegin.append hrun
  refine ⟨_, _, hwait, rfl, ?_, ?_⟩
  · dsimp only
    rw [toNat_target (by omega), hnat, ← h]
  · rw [List.count_append, hother]
    rfl

/-- The hundred ticks of a second. -/
theorem exists_run_of_timerWait_second : ∃ es s,
    Run true 100 es (called 0 0) s ∧ s.pc = .returned ∧ s.timerTicks.toNat = 100 ∧
      es.count .other = 0 :=
  exists_run_of_timerWait (w := .blank (Heap.boot fun _ ↦ 0) 0)
    (by decide) (Prog.runs_modify.2 rfl)

end Waiter
