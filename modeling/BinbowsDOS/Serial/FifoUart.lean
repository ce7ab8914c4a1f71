import BinbowsDOS.Foundations.Queue
import BinbowsDOS.Serial.Printf

/-!
# A UART on a line

A 16550 with its two FIFOs and the line it is on. The transmitter sends the characters one by one,
through its shift register, and the line brings others, at any time: `agenda` says what happens
between an access to the registers and the next one. The transmitter never stops for good, as
nothing but its own clock drives it (`frees`).

The FIFOs hold sixteen characters; with the FIFOs off there is room for one. A character that finds
no room is lost: the one that comes, or with the FIFOs off the one that waits. Setting the FIFO
control clears what it is told to clear, and both FIFOs when they are turned on or off. Loopback,
break, parity and the interrupts are left out, and what has waited in the shift register of the
receiver is counted as lost as soon as it has found no room.

Two queues come out of this (`sending`, `receiving`), and `Talks` says what an access does to them.
-/

open LossyQueue

/-- What happens on the line. -/
inductive LineEvent where
  /-- The shift register is done with a character and takes the next one. -/
  | transmit
  /-- A character comes. -/
  | arrive (c : UInt8)

/-- A 16550 UART with FIFOs. -/
structure FifoUart where
  /-- Interrupt enable. -/
  ier : UInt8
  /-- FIFO control. -/
  fcr : UInt8
  /-- Line control. -/
  lcr : UInt8
  /-- Modem control. -/
  mcr : UInt8
  /-- Scratch. -/
  scr : UInt8
  /-- Divisor, low byte. -/
  dll : UInt8
  /-- Divisor, high byte. -/
  dlm : UInt8
  /-- The characters that wait for the transmitter, the oldest first. -/
  tx : List UInt8
  /-- The shift register of the transmitter. -/
  shift : Option UInt8
  /-- The characters received and not yet read, the oldest first. -/
  rx : List UInt8
  /-- A character has found no room since the line status was last read. -/
  overrun : Bool
  /-- What happens before each access. -/
  agenda : ℕ → List LineEvent
  /-- The transmitter goes on and on. -/
  frees : ∀ n, ∃ m ≥ n, LineEvent.transmit ∈ agenda m
  /-- How many accesses there have been. -/
  clock : ℕ
  /-- History: what has been sent, the oldest first. -/
  wire : List UInt8
  /-- History: what has come, the oldest first. -/
  heard : List UInt8
  /-- History: how many characters were to be sent and are lost. -/
  dropped : ℕ
  /-- History: how many have come and are lost. -/
  lost : ℕ

namespace FifoUart

/-- Whether the divisor is at the first two ports. -/
def dlab (u : FifoUart) : Bool := u.lcr &&& 0x80 ≠ 0

/-- Whether the FIFOs are on. -/
def fifoOn (u : FifoUart) : Bool := u.fcr &&& 0x01 ≠ 0

/-- How many characters there is room for, in either direction. -/
def capacity (u : FifoUart) : ℕ := if u.fifoOn then 16 else 1

/-- The line event. -/
def onEvent (u : FifoUart) : LineEvent → FifoUart
  | .transmit =>
    { u with wire := u.wire ++ u.shift.toList, shift := u.tx.head?, tx := u.tx.tail }
  | .arrive c =>
    if u.rx.length < u.capacity then { u with rx := u.rx ++ [c], heard := u.heard ++ [c] }
    else
      { u with
        rx := if u.fifoOn then u.rx else u.rx.dropLast ++ [c]
        heard := u.heard ++ [c]
        lost := u.lost + 1
        overrun := true }

/-- What happens before an access. -/
def tick (u : FifoUart) : FifoUart :=
  { (u.agenda u.clock).foldl onEvent u with clock := u.clock + 1 }

/-- The line status: data ready, overrun, room for a character to send, transmitter empty. -/
def lineStatus (u : FifoUart) : UInt8 :=
  (if u.rx = [] then 0 else 0x01) ||| (if u.overrun then 0x02 else 0) |||
    (if u.tx = [] then 0x20 else 0) ||| (if u.tx = [] ∧ u.shift = none then 0x40 else 0)

/-- A read of a register. -/
def read (u : FifoUart) (reg : ℕ) : UInt8 × FifoUart :=
  if reg = 0 then
    if u.dlab then (u.dll, u) else (u.rx.headD 0, { u with rx := u.rx.tail })
  else if reg = 1 then (if u.dlab then u.dlm else u.ier, u)
  else if reg = 2 then (if u.fifoOn then 0xC1 else 0x01, u)
  else if reg = 3 then (u.lcr, u)
  else if reg = 4 then (u.mcr, u)
  else if reg = 5 then (u.lineStatus, { u with overrun := false })
  else if reg = 6 then (0xB0, u)
  else (u.scr, u)

/-- A character to send. -/
def send (u : FifoUart) (c : UInt8) : FifoUart :=
  if u.tx.length < u.capacity then { u with tx := u.tx ++ [c] }
  else { u with dropped := u.dropped + 1 }

/-- Clear the FIFO of the receiver. -/
def clearRx (u : FifoUart) : FifoUart := { u with rx := [], lost := u.lost + u.rx.length }

/-- Clear the FIFO of the transmitter; its shift register goes on. -/
def clearTx (u : FifoUart) : FifoUart := { u with tx := [], dropped := u.dropped + u.tx.length }

/-- A write to the FIFO control. -/
def setFcr (u : FifoUart) (data : UInt8) : FifoUart :=
  let on : Bool := data &&& 0x01 ≠ 0
  let u' := if on ≠ u.fifoOn ∨ on ∧ data &&& 0x02 ≠ 0 then u.clearRx else u
  let u' := if on ≠ u.fifoOn ∨ on ∧ data &&& 0x04 ≠ 0 then u'.clearTx else u'
  { u' with fcr := data }

/-- A write to a register. -/
def write (u : FifoUart) (reg : ℕ) (data : UInt8) : FifoUart :=
  if reg = 0 then if u.dlab then { u with dll := data } else u.send data
  else if reg = 1 then if u.dlab then { u with dlm := data } else { u with ier := data }
  else if reg = 2 then u.setFcr data
  else if reg = 3 then { u with lcr := data }
  else if reg = 4 then { u with mcr := data }
  else if reg = 7 then { u with scr := data }
  else u

instance : PortBus FifoUart where
  inb port u := u.tick.read (port - com1Port)
  outb port data u := u.tick.write (port - com1Port) data
  insw _ u := (fun _ ↦ 0, u)
  outsw _ _ u := u

variable {u u' u'' : FifoUart} {cs cs' rs rs' : List UInt8} {c : UInt8} {reg n : ℕ}

/-! ### The two queues -/

/-- The characters to be sent that are not on the wire yet. -/
def inFlight (u : FifoUart) : List UInt8 := u.shift.toList ++ u.tx

/-- The queue to the wire. -/
def sending (u : FifoUart) : LossyQueue UInt8 := ⟨u.inFlight, u.dropped⟩

/-- The queue from the line. -/
def receiving (u : FifoUart) : LossyQueue UInt8 := ⟨u.rx, u.lost⟩

/-- From `u` to `u'` the characters `cs` are given to the UART and `rs` taken from it. -/
def Exchanges (cs rs : List UInt8) (u u' : FifoUart) : Prop :=
  (∃ outs, u'.wire = u.wire ++ outs ∧ u.sending.Conveys cs outs u'.sending) ∧
    ∃ ins, u'.heard = u.heard ++ ins ∧ u.receiving.Conveys ins rs u'.receiving

theorem Exchanges.of_wire_eq (hwire : u'.wire = u.wire) (hheard : u'.heard = u.heard)
    (hsending : u.sending.Conveys cs [] u'.sending)
    (hreceiving : u.receiving.Conveys [] rs u'.receiving) : Exchanges cs rs u u' :=
  ⟨⟨[], by rw [hwire, List.append_nil], hsending⟩, [], by rw [hheard, List.append_nil], hreceiving⟩

theorem Exchanges.refl (u : FifoUart) : Exchanges [] [] u u :=
  .of_wire_eq rfl rfl (.refl _) (.refl _)

theorem Exchanges.trans (h : Exchanges cs rs u u') (h' : Exchanges cs' rs' u' u'') :
    Exchanges (cs ++ cs') (rs ++ rs') u u'' := by
  obtain ⟨⟨outs, hwire, hsending⟩, ins, hheard, hreceiving⟩ := h
  obtain ⟨⟨outs', hwire', hsending'⟩, ins', hheard', hreceiving'⟩ := h'
  exact ⟨⟨outs ++ outs', by rw [hwire', hwire, List.append_assoc], hsending.trans hsending'⟩,
    ins ++ ins', by rw [hheard', hheard, List.append_assoc], hreceiving.trans hreceiving'⟩

/-- So it is without a loss on the way to the wire, and with the controls kept. -/
structure Talks (cs rs : List UInt8) (u u' : FifoUart) : Prop where
  /-- The characters. -/
  exchanges : Exchanges cs rs u u'
  /-- The line control. -/
  lcr_eq : u'.lcr = u.lcr
  /-- The FIFO control. -/
  fcr_eq : u'.fcr = u.fcr
  /-- Nothing that was to be sent is lost. -/
  dropped_eq : u'.dropped = u.dropped
  /-- At most one character more than before waits for the transmitter, if none has waited. -/
  tx_le : u'.tx.length ≤ max 1 u.tx.length
  /-- Nothing that comes is lost if there is room for all of it. -/
  lost_eq : u.rx.length + u'.heard.length ≤ u.heard.length + u.capacity → u'.lost = u.lost

theorem Talks.refl (u : FifoUart) : Talks [] [] u u :=
  ⟨.refl u, rfl, rfl, rfl, Nat.le_max_right _ _, fun _ ↦ rfl⟩

theorem Talks.trans (h : Talks cs rs u u') (h' : Talks cs' rs' u' u'') :
    Talks (cs ++ cs') (rs ++ rs') u u'' where
  exchanges := h.exchanges.trans h'.exchanges
  lcr_eq := h'.lcr_eq.trans h.lcr_eq
  fcr_eq := h'.fcr_eq.trans h.fcr_eq
  dropped_eq := h'.dropped_eq.trans h.dropped_eq
  tx_le := by
    have h := h.tx_le
    have h' := h'.tx_le
    omega
  lost_eq := by
    intro hroom
    obtain ⟨-, ins, hheard, hconveys⟩ := h.exchanges
    obtain ⟨-, ins', hheard', -⟩ := h'.exchanges
    have hcapacity : u'.capacity = u.capacity := by
      rw [capacity, capacity, fifoOn, fifoOn, h.fcr_eq]
    -- what has been read in between has only made more room
    have hle : rs.length + u'.rx.length ≤ u.rx.length + ins.length := by
      have hle := hconveys.sublist.length_le
      rwa [List.length_append, List.length_append] at hle
    rw [hheard', hheard, List.length_append, List.length_append] at hroom
    rw [h'.lost_eq (by rw [hheard', List.length_append]; omega),
      h.lost_eq (by rw [hheard, List.length_append]; omega)]

theorem Talks.dlab_eq (h : Talks cs rs u u') : u'.dlab = u.dlab := by
  rw [dlab, dlab, h.lcr_eq]

/-! ### Time -/

/-- One event: nothing is lost on the way to the wire, and what is received stays readable. -/
theorem talks_onEvent (u : FifoUart) (e : LineEvent) : Talks [] [] u (u.onEvent e) := by
  cases e with
  | transmit =>
    refine ⟨⟨⟨u.shift.toList, rfl, ?_⟩, [], (List.append_nil _).symm, .refl _⟩, rfl, rfl, rfl, ?_,
      fun _ ↦ rfl⟩
    · have hnext : u.tx.head?.toList ++ u.tx.tail = u.tx := by cases u.tx <;> rfl
      have htake : u.sending.Conveys [] u.shift.toList ⟨u.tx, u.dropped⟩ := .take rfl
      rwa [← hnext] at htake
    · show u.tx.tail.length ≤ _
      rw [List.length_tail]
      omega
  | arrive c =>
    have hfull : ∀ c, ¬ u.rx.length < u.capacity →
        ¬ u.rx.length + (u.heard ++ [c]).length ≤ u.heard.length + u.capacity := by
      intro c hroom hle
      rw [List.length_append, List.length_singleton] at hle
      omega
    rw [onEvent]
    split_ifs with hroom hfifo
    · exact ⟨⟨⟨[], (List.append_nil _).symm, .refl _⟩, [c], rfl, .put _ c⟩, rfl, rfl, rfl,
        Nat.le_max_right _ _, fun _ ↦ rfl⟩
    · exact ⟨⟨⟨[], (List.append_nil _).symm, .refl _⟩, [c], rfl, .refuse _ c⟩, rfl, rfl, rfl,
        Nat.le_max_right _ _, fun hle ↦ absurd hle (hfull c hroom)⟩
    · have hrx : u.rx ≠ [] := by
        rintro hrx
        rw [capacity, if_neg hfifo, hrx] at hroom
        exact hroom Nat.one_pos
      exact ⟨⟨⟨[], (List.append_nil _).symm, .refl _⟩, [c], rfl, .replace hrx c⟩, rfl, rfl, rfl,
        Nat.le_max_right _ _, fun hle ↦ absurd hle (hfull c hroom)⟩

/-- What every event keeps, the time before an access keeps. -/
theorem tick_induction {P : FifoUart → Prop} (hevent : ∀ u e, P u → P (u.onEvent e))
    (hclock : ∀ u n, P u → P { u with clock := n }) (hu : P u) : P u.tick := by
  have hfold : ∀ (es : List LineEvent) (u : FifoUart), P u → P (es.foldl onEvent u) := by
    intro es
    induction es with
    | nil => exact fun _ hu ↦ hu
    | cons e es ih => exact fun u hu ↦ ih _ (hevent u e hu)
  exact hclock _ _ (hfold _ _ hu)

theorem talks_tick (u : FifoUart) : Talks [] [] u u.tick :=
  tick_induction (P := Talks [] [] u) (fun v e h ↦ h.trans (talks_onEvent v e))
    (fun _ _ h ↦ ⟨h.exchanges, h.lcr_eq, h.fcr_eq, h.dropped_eq, h.tx_le, h.lost_eq⟩) (.refl u)

/-- An empty FIFO of the transmitter stays empty. -/
theorem tx_tick (hu : u.tx = []) : u.tick.tx = [] := by
  refine tick_induction (P := fun u ↦ u.tx = []) (fun u e h ↦ ?_) (fun _ _ h ↦ h) hu
  cases e with
  | transmit =>
    show u.tx.tail = []
    rw [h, List.tail_nil]
  | arrive c =>
    rw [onEvent]
    split_ifs <;> exact h

/-! ### Accesses -/

/-- Reads of the other registers take no character. -/
theorem talks_read (hreg : reg ≠ 0) : Talks [] [] u (u.read reg).2 := by
  rw [read, if_neg hreg]
  split_ifs
  all_goals first
    | exact .refl u
    | exact ⟨.of_wire_eq rfl rfl (.refl _) (.refl _), rfl, rfl, rfl, Nat.le_max_right _ _,
        fun _ ↦ rfl⟩

/-- A read of the first takes the oldest. -/
theorem talks_read_zero (hu : u.dlab = false) (hrx : u.rx ≠ []) :
    Talks [] [(u.read 0).1] u (u.read 0).2 := by
  obtain ⟨r, rs, hrs⟩ := List.exists_cons_of_ne_nil hrx
  rw [read, if_pos rfl, hu, if_neg Bool.false_ne_true]
  refine ⟨.of_wire_eq rfl rfl (.refl _) (.take ?_), rfl, rfl, rfl, Nat.le_max_right _ _,
    fun _ ↦ rfl⟩
  show u.rx = [u.rx.headD 0] ++ u.rx.tail
  rw [hrs]
  rfl

/-- A write to the first register gives the UART a character, and none is lost if none waits. -/
theorem talks_write_zero (hu : u.dlab = false) (htx : u.tx = []) :
    Talks [c] [] u (u.write 0 c) := by
  have hroom : u.tx.length < u.capacity := by
    rw [htx, capacity]
    split <;> decide
  rw [write, if_pos rfl, hu, if_neg Bool.false_ne_true, send, if_pos hroom]
  refine ⟨.of_wire_eq rfl rfl ?_ (.refl _), rfl, rfl, rfl, ?_, fun _ ↦ rfl⟩
  · have hput : u.sending.Conveys [c] [] ⟨u.inFlight ++ [c], u.dropped⟩ := .put _ c
    rw [inFlight, List.append_assoc] at hput
    exact hput
  · rw [htx]
    exact Nat.le_max_left _ _

theorem exchanges_clearRx (u : FifoUart) : Exchanges [] [] u u.clearRx :=
  .of_wire_eq rfl rfl (.refl _) (.lose (List.nil_sublist _) (Nat.zero_add _))

theorem exchanges_clearTx (u : FifoUart) : Exchanges [] [] u u.clearTx := by
  refine .of_wire_eq rfl rfl (.lose ?_ ?_) (.refl _)
  · exact (List.nil_sublist _).append_left _
  · show (u.shift.toList ++ []).length + u.tx.length = (u.shift.toList ++ u.tx).length
    rw [List.length_append, List.length_append, List.length_nil, Nat.add_zero]

/-- Setting the FIFO control reorders nothing, and leaves at most what was there. -/
theorem exchanges_setFcr (u : FifoUart) (data : UInt8) : Exchanges [] [] u (u.setFcr data) := by
  have hkeep : ∀ v : FifoUart, Exchanges [] [] u v → Exchanges [] [] u { v with fcr := data } :=
    fun _ h ↦ h
  refine hkeep _ ?_
  split_ifs
  · exact (exchanges_clearRx u).trans (exchanges_clearTx _)
  · exact exchanges_clearTx u
  · exact exchanges_clearRx u
  · exact .refl u

theorem lcr_setFcr (u : FifoUart) (data : UInt8) : (u.setFcr data).lcr = u.lcr := by
  rw [setFcr]
  split_ifs <;> rfl

/-- What it clears. -/
theorem tx_setFcr {data : UInt8} (hon : data &&& 0x01 ≠ 0) (hclear : data &&& 0x04 ≠ 0) :
    (u.setFcr data).tx = [] := by
  rw [setFcr]
  simp only [hon, hclear, ne_eq, not_false_eq_true, decide_true, and_self, or_true, if_true]
  rfl

/-- No other write than one to the first register gives the UART a character. -/
theorem exchanges_write (hreg : reg ≠ 0 ∨ u.dlab = true) (data : UInt8) :
    Exchanges [] [] u (u.write reg data) := by
  rw [write]
  split_ifs with hzero hdlab
  · exact .refl u
  · exact absurd hreg (by simp [hzero, hdlab])
  all_goals first
    | exact exchanges_setFcr u data
    | exact .refl u

/-! ### The line status -/

theorem dataReady_iff (u : FifoUart) : u.lineStatus &&& 0x01 = 0 ↔ u.rx = [] := by
  rw [lineStatus]
  by_cases hrx : u.rx = []
  · rw [if_pos hrx]
    exact iff_of_true (by split_ifs <;> decide) hrx
  · rw [if_neg hrx]
    exact iff_of_false (by split_ifs <;> decide) hrx

theorem transmitterReady_iff (u : FifoUart) : u.lineStatus &&& 0x20 = 0 ↔ u.tx ≠ [] := by
  rw [lineStatus]
  by_cases htx : u.tx = []
  · simp only [htx, true_and, if_true]
    exact iff_of_false (by split_ifs <;> decide) (not_not.2 rfl)
  · simp only [htx, false_and, if_false]
    exact iff_of_true (by split_ifs <;> decide) htx

/-! ### Progress -/

/-- What a read of the line status leaves. -/
def poll (u : FifoUart) : FifoUart := (u.tick.read 5).2

theorem talks_poll (u : FifoUart) : Talks [] [] u u.poll :=
  (talks_tick u).trans (talks_read (by decide))

/-- How many turns the transmitter has still to take, if each takes two. -/
def backlog (u : FifoUart) : ℕ := 2 * u.tx.length + u.shift.toList.length

theorem inFlight_eq_nil_iff : u.inFlight = [] ↔ u.backlog = 0 := by
  rw [inFlight, backlog, List.append_eq_nil_iff, ← List.length_eq_zero_iff,
    ← List.length_eq_zero_iff]
  omega

/-- A turn shortens the backlog. -/
theorem backlog_transmit (u : FifoUart) : (u.onEvent .transmit).backlog ≤ u.backlog - 1 := by
  show 2 * u.tx.tail.length + u.tx.head?.toList.length ≤
    2 * u.tx.length + u.shift.toList.length - 1
  cases u.tx with
  | nil => simp
  | cons c cs =>
    simp only [List.tail_cons, List.head?_cons, Option.toList_some, List.length_cons,
      List.length_nil]
    omega

theorem backlog_arrive (u : FifoUart) (c : UInt8) :
    (u.onEvent (.arrive c)).backlog = u.backlog := by
  rw [onEvent]
  split_ifs <;> rfl

theorem backlog_foldl_le (es : List LineEvent) (u : FifoUart) :
    (es.foldl onEvent u).backlog ≤ u.backlog ∧
      (LineEvent.transmit ∈ es → (es.foldl onEvent u).backlog ≤ u.backlog - 1) := by
  induction es generalizing u with
  | nil => exact ⟨Nat.le_refl _, fun h ↦ absurd h List.not_mem_nil⟩
  | cons e es ih =>
    obtain ⟨hle, hless⟩ := ih (u.onEvent e)
    rw [List.foldl_cons]
    cases e with
    | transmit =>
      have hturn := backlog_transmit u
      exact ⟨by omega, fun _ ↦ by omega⟩
    | arrive c =>
      rw [backlog_arrive] at hle hless
      refine ⟨hle, fun hmem ↦ hless ?_⟩
      simpa using hmem

@[simp] theorem agenda_tick (u : FifoUart) : u.tick.agenda = u.agenda := by
  refine tick_induction (P := fun v ↦ v.agenda = u.agenda) (fun v e h ↦ ?_) (fun _ _ h ↦ h) rfl
  cases e with
  | transmit => exact h
  | arrive c =>
    rw [onEvent]
    split_ifs <;> exact h

/-- Accesses that leave the transmitter to the line. -/
structure Passes (f : FifoUart → FifoUart) : Prop where
  /-- What is to happen. -/
  agenda_eq : ∀ u, (f u).agenda = u.agenda
  /-- Time goes on. -/
  clock_eq : ∀ u, (f u).clock = u.clock + 1
  /-- The transmitter goes on. -/
  backlog_eq : ∀ u, (f u).backlog = u.tick.backlog

theorem passes_poll : Passes poll := ⟨agenda_tick, fun _ ↦ rfl, fun _ ↦ rfl⟩

namespace Passes

variable {f : FifoUart → FifoUart} (hf : Passes f)

include hf

theorem iterate (u : FifoUart) (n : ℕ) :
    (f^[n] u).agenda = u.agenda ∧ (f^[n] u).clock = u.clock + n := by
  induction n with
  | zero => exact ⟨rfl, rfl⟩
  | succ n ih =>
    rw [Function.iterate_succ_apply', hf.agenda_eq, hf.clock_eq, ih.1, ih.2]
    exact ⟨rfl, rfl⟩

theorem backlog_iterate_le (u : FifoUart) (n : ℕ) : (f^[n] u).backlog ≤ u.backlog := by
  induction n with
  | zero => exact Nat.le_refl _
  | succ n ih =>
    rw [Function.iterate_succ_apply', hf.backlog_eq]
    exact (backlog_foldl_le _ _).1.trans ih

/-- **Everything is sent** if the line is given the time. -/
theorem exists_inFlight_eq_nil (u : FifoUart) : ∃ n, ∀ m ≥ n, (f^[m] u).inFlight = [] := by
  obtain ⟨n, hn⟩ : ∃ n, (f^[n] u).backlog = 0 := by
    induction hk : u.backlog using Nat.strong_induction_on generalizing u with
    | _ k ih =>
      rcases Nat.eq_zero_or_pos k with rfl | hpos
      · exact ⟨0, hk⟩
      -- wait for the next turn of the transmitter
      obtain ⟨m, hm, hturn⟩ := u.frees u.clock
      obtain ⟨i, rfl⟩ := Nat.exists_eq_add_of_le hm
      obtain ⟨hagenda, hclock⟩ := hf.iterate u i
      have hle := hf.backlog_iterate_le u i
      have hless : (f^[i + 1] u).backlog ≤ (f^[i] u).backlog - 1 := by
        rw [Function.iterate_succ_apply', hf.backlog_eq]
        refine (backlog_foldl_le _ _).2 ?_
        rwa [hagenda, hclock]
      obtain ⟨n, hn⟩ := ih _ (show (f^[i + 1] u).backlog < k by omega) (f^[i + 1] u) rfl
      exact ⟨n + (i + 1), by rwa [Function.iterate_add_apply]⟩
  refine ⟨n, fun m hm ↦ inFlight_eq_nil_iff.2 ?_⟩
  obtain ⟨i, rfl⟩ := Nat.exists_eq_add_of_le' hm
  rw [Function.iterate_add_apply]
  exact Nat.le_zero.1 (hn ▸ hf.backlog_iterate_le _ i)

end Passes

/-- What can be read can still be read. -/
theorem rx_onEvent (e : LineEvent) (hu : u.rx ≠ []) : (u.onEvent e).rx ≠ [] := by
  cases e with
  | transmit => exact hu
  | arrive c =>
    rw [onEvent]
    split_ifs
    · exact List.append_ne_nil_of_right_ne_nil _ (List.cons_ne_nil _ _)
    · exact hu
    · exact List.append_ne_nil_of_right_ne_nil _ (List.cons_ne_nil _ _)

/-- After a character has come there is one to read, be it that one or not. -/
theorem rx_arrive (u : FifoUart) (c : UInt8) : (u.onEvent (.arrive c)).rx ≠ [] := by
  by_cases hu : u.rx = []
  · have hroom : u.rx.length < u.capacity := by
      rw [hu, capacity]
      split <;> decide
    rw [onEvent, if_pos hroom]
    exact List.append_ne_nil_of_right_ne_nil _ (List.cons_ne_nil _ _)
  · exact rx_onEvent _ hu

theorem rx_foldl_eq_nil_iff (es : List LineEvent) (u : FifoUart) :
    (es.foldl onEvent u).rx = [] ↔ u.rx = [] ∧ ∀ c, LineEvent.arrive c ∉ es := by
  induction es generalizing u with
  | nil => simp
  | cons e es ih =>
    rw [List.foldl_cons, ih]
    cases e with
    | transmit =>
      have hsame : (u.onEvent .transmit).rx = u.rx := rfl
      simp [hsame]
    | arrive c =>
      refine iff_of_false (fun h ↦ rx_arrive u c h.1) fun h ↦ h.2 c List.mem_cons_self

theorem rx_tick_eq_nil_iff : u.tick.rx = [] ↔ u.rx = [] ∧ ∀ c, .arrive c ∉ u.agenda u.clock :=
  rx_foldl_eq_nil_iff _ u

/-- There is a character to read, or one will come. -/
def Hears (u : FifoUart) : Prop := u.rx ≠ [] ∨ ∃ n ≥ u.clock, ∃ c, .arrive c ∈ u.agenda n

/-- As long as nothing can be read this is a matter of what is still to come. -/
theorem hears_poll_iff (hu : u.tick.rx = []) : u.poll.Hears ↔ u.Hears := by
  obtain ⟨hrx, hnone⟩ := rx_tick_eq_nil_iff.1 hu
  have hpoll : u.poll.rx = [] := hu
  rw [Hears, Hears, hpoll, hrx, passes_poll.agenda_eq, passes_poll.clock_eq]
  simp only [ne_eq, not_true_eq_false, false_or]
  constructor
  · rintro ⟨n, hn, c, hc⟩
    exact ⟨n, Nat.le_of_succ_le hn, c, hc⟩
  · rintro ⟨n, hn, c, hc⟩
    rcases Nat.lt_or_eq_of_le hn with hlt | rfl
    · exact ⟨n, hlt, c, hc⟩
    · exact absurd hc (hnone c)

/-- Polling comes to it. -/
theorem Hears.exists_poll (h : u.Hears) : ∃ n, (poll^[n] u).tick.rx ≠ [] := by
  rcases h with hrx | ⟨m, hm, c, hc⟩
  · exact ⟨0, fun hnil ↦ hrx (rx_tick_eq_nil_iff.1 hnil).1⟩
  · obtain ⟨n, rfl⟩ := Nat.exists_eq_add_of_le hm
    refine ⟨n, fun hnil ↦ ?_⟩
    obtain ⟨hagenda, hclock⟩ := passes_poll.iterate u n
    have hnone := (rx_tick_eq_nil_iff.1 hnil).2
    rw [hagenda, hclock] at hnone
    exact hnone c hc

end FifoUart
