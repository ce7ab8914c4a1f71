import BinbowsDOS.Ide.SectorArray
import BinbowsDOS.Ide.Watch

/-!
# Data phases

A transfer command programs the device to move a number of sectors, 256 for a count of 0, and the
host has to move as many. Both numbers can be read off the traffic of a call (`programmed`,
`moved`). A write always moves what it programs. A read of 0 sectors programs 256 and moves
none: it returns 0 with the device waiting to be read, and the next command finds it so.
`allComplete_iff` says that nothing else goes wrong, over any sequence of calls.
-/

open Prog Kernel

section Counting

variable {σ : Type} (ch : IdeChannel)

/-- The sectors that the device is programmed to move by the commands issued on a channel, whose
count register holds `count` at first. -/
def programmed : ℕ → List (PortEvent σ) → ℕ
  | _, [] => 0
  | count, .outb port data _ :: es =>
    if port = ch.port ataRegSecCount0 then programmed data.toNat es
    else if port = ch.port ataRegCommand ∧ (data = ataCmdReadPio ∨ data = ataCmdWritePio) then
      (if count = 0 then 256 else count) + programmed count es
    else programmed count es
  | count, .inb _ _ :: es => programmed count es
  | count, .insw _ :: es => programmed count es
  | count, .outsw _ _ :: es => programmed count es

/-- The sectors that the host moves through the data port of a channel. -/
def moved : List (PortEvent σ) → ℕ
  | [] => 0
  | .insw port :: es => (if port = ch.base then 1 else 0) + moved es
  | .outsw port _ :: es => (if port = ch.base then 1 else 0) + moved es
  | .inb _ _ :: es => moved es
  | .outb _ _ _ :: es => moved es

variable {ch} {n count k : ℕ} {es es' rest : List (PortEvent σ)} {v : UInt8} {vs : List UInt8}

theorem moved_append (es es' : List (PortEvent σ)) :
    moved ch (es ++ es') = moved ch es + moved ch es' := by
  induction es with
  | nil => simp [moved]
  | cons e es ih => cases e <;> simp [moved, ih, Nat.add_assoc]

theorem moved_altReads (vs : List UInt8) : moved ch (altReads ch vs : List (PortEvent σ)) = 0 := by
  induction vs with
  | nil => rfl
  | cons v vs ih => exact ih

theorem Awaited.moved_eq (h : Awaited ch es v) : moved ch es = 0 := by
  induction h with
  | ready => rfl
  | busy _ _ ih => exact ih

theorem Polled.moved_eq (h : Polled ch es v) : moved ch es = 0 := by
  obtain ⟨-, hes⟩ := h
  rw [moved_append, moved_altReads, hes.moved_eq]

theorem SetUp.moved_eq {command : UInt8} (h : SetUp ch count command es) : moved ch es = 0 := by
  cases h
  rfl

theorem SectorsOut.moved_eq (h : SectorsOut ch n es vs) : moved ch es = n := by
  induction h with
  | zero => rfl
  | succ after hp hes ih =>
    rw [moved_append, hp.moved_eq, moved, if_pos rfl, ih]
    omega

theorem SectorsIn.moved_eq (h : SectorsIn ch n es) : moved ch es = n := by
  induction h with
  | zero => rfl
  | succ hp hes ih =>
    rw [moved_append, hp.moved_eq, moved, moved, if_pos rfl, ih]
    omega

theorem chunkSize_le (n : ℕ) : chunkSize n ≤ n := Nat.min_le_right ..

theorem ChunksOut.moved_eq (h : ChunksOut ch n es vs) : moved ch es = n := by
  induction h with
  | zero => rfl
  | @succ n count setup out p es v vs vs' after hn hcount hchunk hsetup hout hp hes ih =>
    have := chunkSize_le n
    rw [moved_append, hsetup.moved_eq, moved_append, hout.moved_eq, moved, moved_append,
      hp.moved_eq, ih]
    omega

theorem programmed_altReads (vs : List UInt8) :
    programmed ch k (altReads ch vs ++ rest) = programmed ch k rest := by
  induction vs with
  | nil => rfl
  | cons v vs ih => exact ih

theorem Awaited.programmed_eq (h : Awaited ch es v) :
    programmed ch k (es ++ rest) = programmed ch k rest := by
  induction h with
  | ready => rfl
  | busy _ _ ih => exact ih

theorem Polled.programmed_eq (h : Polled ch es v) :
    programmed ch k (es ++ rest) = programmed ch k rest := by
  obtain ⟨-, hes⟩ := h
  rw [List.append_assoc, programmed_altReads, hes.programmed_eq]

theorem SectorsOut.programmed_eq (h : SectorsOut ch n es vs) :
    programmed ch k (es ++ rest) = programmed ch k rest := by
  induction h with
  | zero => rfl
  | succ after hp hes ih =>
    rw [List.append_assoc, hp.programmed_eq, List.cons_append, programmed, ih]

theorem SectorsIn.programmed_eq (h : SectorsIn ch n es) : programmed ch k es = 0 := by
  induction h with
  | zero => rfl
  | succ hp hes ih => rw [hp.programmed_eq, programmed, programmed, ih]

/-- The registers of the command block have different ports. -/
def PortsDiffer (ch : IdeChannel) : Prop := ∀ r < 8, ∀ s < 8, ch.port r = ch.port s → r = s

theorem ideChannels_portsDiffer (c : ℕ) : PortsDiffer (ideChannels c) := by
  match c with
  | 0 =>
    rw [PortsDiffer]
    decide
  | c + 1 =>
    show PortsDiffer ⟨0x170, 0x376, 0, 0⟩
    rw [PortsDiffer]
    decide

variable (hports : PortsDiffer ch)

include hports in
theorem SetUp.programmed_eq {command : UInt8} (h : SetUp ch count command es)
    (hcount : count < 256) (hcommand : command = ataCmdReadPio ∨ command = ataCmdWritePio) :
    programmed ch k (es ++ rest) =
      (if count = 0 then 256 else count) + programmed ch count rest := by
  have hne : ∀ r < 8, ∀ s < 8, r ≠ s → ch.port r ≠ ch.port s :=
    fun r hr s hs h heq ↦ h (hports r hr s hs heq)
  have hbyte : (UInt8.ofNat count).toNat = count := by
    rw [UInt8.toNat_ofNat']
    exact Nat.mod_eq_of_lt hcount
  cases h
  simp only [List.cons_append, List.nil_append, programmed, ↓reduceIte]
  rw [if_neg (hne ataRegHdDevSel (by decide) ataRegSecCount0 (by decide) (by decide)),
    if_neg fun h ↦ hne ataRegHdDevSel (by decide) ataRegCommand (by decide) (by decide) h.1,
    if_neg (hne ataRegLba0 (by decide) ataRegSecCount0 (by decide) (by decide)),
    if_neg fun h ↦ hne ataRegLba0 (by decide) ataRegCommand (by decide) (by decide) h.1,
    if_neg (hne ataRegLba1 (by decide) ataRegSecCount0 (by decide) (by decide)),
    if_neg fun h ↦ hne ataRegLba1 (by decide) ataRegCommand (by decide) (by decide) h.1,
    if_neg (hne ataRegLba2 (by decide) ataRegSecCount0 (by decide) (by decide)),
    if_neg fun h ↦ hne ataRegLba2 (by decide) ataRegCommand (by decide) (by decide) h.1,
    if_neg (hne ataRegCommand (by decide) ataRegSecCount0 (by decide) (by decide)),
    if_pos ⟨trivial, hcommand⟩, hbyte]

include hports in
/-- The chunks of a write program all their sectors. -/
theorem ChunksOut.programmed_eq (h : ChunksOut ch n es vs) : programmed ch k es = n := by
  induction h generalizing k with
  | zero => rfl
  | @succ n count setup out p es v vs vs' after hn hcount hchunk hsetup hout hp hes ih =>
    have hne : ch.port ataRegCommand ≠ ch.port ataRegSecCount0 := fun h ↦
      absurd (hports ataRegCommand (by decide) ataRegSecCount0 (by decide) h) (by decide)
    have := chunkSize_le n
    rw [hsetup.programmed_eq hports hcount (Or.inr rfl), hchunk, hout.programmed_eq, programmed,
      if_neg hne, if_neg fun h ↦ absurd h.2 (by decide), hp.programmed_eq, ih]
    omega

end Counting

/-! ### Devices at rest -/

/-- The drives in the device table are attached, have nothing to do and then do not ask for data;
no device hangs or rejects a sector. -/
structure Kernel.AtRest (fuel : ℕ) (w : Kernel AtaBus) : Prop where
  /-- No faults. -/
  faultFree : w.io.FaultFree fuel
  /-- The drives are attached. -/
  present : ∀ i < 4, (w.ideDevices i).reserved ≠ 0 → w.Present i
  /-- They have nothing to do. -/
  phase_eq : ∀ i < 4, (w.ideDevices i).reserved ≠ 0 →
    (w.io.unit (w.position i).1 (w.position i).2).phase = .idle
  /-- They do not ask for data. -/
  noData : ∀ i < 4, (w.ideDevices i).reserved ≠ 0 →
    (w.io.unit (w.position i).1 (w.position i).2).idle &&& ataSrDrq = 0

/-- A transfer. -/
inductive TransferCall where
  /-- `ide_read_sectors(drive, numsects, lba, buf)` -/
  | read (drive : ℕ) (numsects : UInt8) (lba buf : ℕ)
  /-- `ide_write_sectors_counted(drive, startLba, byteCount, buf)` -/
  | write (drive startLba byteCount buf : ℕ)

namespace TransferCall

/-- The drive. -/
def drive : TransferCall → ℕ
  | read drive _ _ _ => drive
  | write drive _ _ _ => drive

/-- The call. -/
def run {σ : Type} [PortBus σ] (fuel : ℕ) : TransferCall → KernelM σ ℕ
  | read drive numsects lba buf => ideReadSectors fuel drive numsects.toNat lba buf
  | write drive startLba byteCount buf =>
    ideWriteSectorsCounted fuel drive startLba byteCount buf

/-- A read of no sectors from a drive that exists. -/
def ReadsNothing {σ : Type} (w : Kernel σ) : TransferCall → Prop
  | read drive numsects _ _ => drive < 4 ∧ (w.ideDevices drive).reserved ≠ 0 ∧ numsects = 0
  | write _ _ _ _ => False

end TransferCall

/-- What a call that returned `r` leaves behind: if it returned 0, the host has moved what the
device was programmed to move, and the device is idle and asks for no data. -/
structure Completes (drive : ℕ) (w : Kernel (Watched AtaBus)) (es : List (PortEvent AtaBus))
    (r : ℕ) (w' : Kernel (Watched AtaBus)) : Prop where
  /-- Moved is what was programmed. -/
  moved_eq : r = 0 → moved (ideChannels (w.ideDevices drive).channel) es =
    programmed (ideChannels (w.ideDevices drive).channel)
      (w.io.bus.chan (w.ideDevices drive).channel).seccount.toNat es
  /-- The device is idle. -/
  idle : r = 0 → (w'.io.bus.unit (w.ideDevices drive).channel (w.ideDevices drive).drive).phase =
    .idle
  /-- It is not busy. -/
  ready : r = 0 → (w'.io.bus.unit (w.ideDevices drive).channel (w.ideDevices drive).drive).status
    &&& ataSrBsy = 0
  /-- It asks for no data. -/
  noData : r = 0 → (w'.io.bus.unit (w.ideDevices drive).channel (w.ideDevices drive).drive).status
    &&& ataSrDrq = 0

/-- Every call of a sequence returns and completes its data phases. -/
def AllComplete (fuel : ℕ) : List TransferCall → Kernel (Watched AtaBus) → Prop
  | [], _ => True
  | call :: calls, w => ∃ r es w', Runs (call.run fuel) w r w' ∧ w.Emits es w' ∧
      Completes call.drive w es r w' ∧ AllComplete fuel calls w'

section Rest

variable {w w' : Kernel AtaBus} {fuel drive c d : ℕ} {u : AtaUnit}

/-- Serving a drive that is left as it was, but for its medium, keeps all at rest. -/
theorem Kernel.AtRest.served (h : AtRest fuel w) (hchannels : w'.channels = w.channels)
    (hdevices : w'.ideDevices = w.ideDevices) (hserved : AtaBus.Served c d w.io u w'.io)
    (hready : u.busy = 0) (hphase : u.phase = .idle) (hidle : u.idle = (w.io.unit c d).idle) :
    AtRest fuel w' := by
  have hpos : w'.position = w.position := by
    funext i
    rw [position, hdevices]
    rfl
  -- the other units are not touched
  have hunit : ∀ c' d', (w'.io.unit c' d').idle = (w.io.unit c' d').idle ∧
      ((w.io.unit c' d').phase = .idle → (w'.io.unit c' d').phase = .idle) := by
    intro c' d'
    by_cases hsame : c' = c ∧ d' = d
    · obtain ⟨rfl, rfl⟩ := hsame
      rw [hserved.unit_eq]
      exact ⟨hidle, fun _ ↦ hphase⟩
    · rw [hserved.elsewhere _ _ hsame]
      exact ⟨rfl, id⟩
  refine ⟨hserved.faultFree h.faultFree, ?_, ?_, ?_⟩
  · intro i hi hpresent
    rw [hdevices] at hpresent
    exact (h.present i hi hpresent).served hchannels hdevices hserved hready hidle
  · intro i hi hpresent
    rw [hdevices] at hpresent
    rw [hpos]
    exact (hunit _ _).2 (h.phase_eq i hi hpresent)
  · intro i hi hpresent
    rw [hdevices] at hpresent
    rw [hpos, (hunit _ _).1]
    exact h.noData i hi hpresent

/-- A write to a drive at rest returns and leaves it at rest, whatever its arguments. -/
theorem ideWriteSectorsCounted_ends (lba byteCount buf : ℕ) (h : AtRest fuel w)
    (hdrive : drive < 4) (hpresent : (w.ideDevices drive).reserved ≠ 0) :
    ∃ r b', ideWriteSectorsCounted fuel drive lba byteCount buf w = some (r, w.setIo b') ∧
      AtRest fuel (w.setIo b') := by
  have ha := h.present drive hdrive hpresent
  rw [ideWriteSectorsCounted, bind_apply_of_runs get_apply, if_neg ha.not_absent]
  by_cases hzero : byteCount = 0
  · rw [if_pos hzero]
    exact ⟨0, w.io, rfl, h⟩
  by_cases hmod : byteCount % 512 ≠ 0
  · rw [if_neg hzero, if_pos hmod]
    exact ⟨2, w.io, rfl, h⟩
  rw [if_neg hzero, if_neg hmod]
  obtain ⟨r, s, b', hrun, hserved⟩ := writeChunksLoop_ends lba buf 0 ha rfl
    (h.phase_eq drive hdrive hpresent) h.faultFree (Nat.le_refl (byteCount / 512))
  exact ⟨r, b', hrun, h.served rfl rfl hserved ha.ready (h.phase_eq drive hdrive hpresent) rfl⟩

end Rest

/-! ### The calls -/

section Calls

variable {w w' : Kernel (Watched AtaBus)} {fuel r : ℕ} {es : List (PortEvent AtaBus)}

/-- What is left behind by a call whose traffic balances and that leaves the drives at rest. -/
theorem completes_of_atRest {drive : ℕ} (hdrive : drive < 4)
    (hpresent : (w.ideDevices drive).reserved ≠ 0) (hdevices : w'.ideDevices = w.ideDevices)
    (hrest : AtRest fuel w'.unwatch)
    (hmoved : r = 0 → moved (ideChannels (w.ideDevices drive).channel) es =
      programmed (ideChannels (w.ideDevices drive).channel)
        (w.io.bus.chan (w.ideDevices drive).channel).seccount.toNat es) :
    Completes drive w es r w' := by
  have hpresent' : (w'.unwatch.ideDevices drive).reserved ≠ 0 := by
    show (w'.ideDevices drive).reserved ≠ 0
    rwa [hdevices]
  have hphase := hrest.phase_eq drive hdrive hpresent'
  have hquiet := (hrest.present drive hdrive hpresent').quiet
  have hready := (hrest.present drive hdrive hpresent').ready
  have hnoData := hrest.noData drive hdrive hpresent'
  have hpos : w'.unwatch.position drive =
      ((w.ideDevices drive).channel, (w.ideDevices drive).drive) := by
    rw [← hdevices]
    rfl
  rw [hpos] at hphase hquiet hready hnoData
  have hstatus := AtaUnit.status_idle hready hphase
  exact ⟨hmoved, fun _ ↦ hphase, fun _ ↦ (congrArg (· &&& ataSrBsy) hstatus).trans hquiet,
    fun _ ↦ (congrArg (· &&& ataSrDrq) hstatus).trans hnoData⟩

/-- A call that fails owes nothing. -/
theorem completes_of_ne_zero {drive : ℕ} (hr : r ≠ 0) : Completes drive w es r w' :=
  ⟨fun h ↦ absurd h hr, fun h ↦ absurd h hr, fun h ↦ absurd h hr, fun h ↦ absurd h hr⟩

theorem TransferCall.ReadsNothing.present {call : TransferCall} (h : call.ReadsNothing w) :
    call.drive < 4 ∧ (w.ideDevices call.drive).reserved ≠ 0 := by
  cases call with
  | read => exact ⟨h.1, h.2.1⟩
  | write => exact absurd h not_false

/-- A write that returns 0 has moved what it programmed. -/
theorem ideWriteSectorsCounted_balanced {drive lba byteCount buf k : ℕ}
    (hch : w.channels (w.ideDevices drive).channel = ideChannels (w.ideDevices drive).channel)
    (hdrive : drive < 4) (hpresent : (w.ideDevices drive).reserved ≠ 0)
    (h : Runs (ideWriteSectorsCounted fuel drive lba byteCount buf) w r w') :
    ∃ es, w.Emits es w' ∧ (r = 0 → moved (ideChannels (w.ideDevices drive).channel) es =
      programmed (ideChannels (w.ideDevices drive).channel) k es) := by
  by_cases hmod : byteCount % 512 = 0
  · obtain ⟨n, rfl⟩ := Nat.dvd_of_mod_eq_zero hmod
    obtain ⟨es, hemits, hend⟩ := ideWriteSectorsCounted_emits hch hdrive hpresent h
    refine ⟨es, hemits, fun hr ↦ ?_⟩
    rcases hend with hr' | ⟨-, vs, hes⟩
    · omega
    · rw [hes.moved_eq, hes.programmed_eq (ideChannels_portsDiffer _)]
  · have hzero : byteCount ≠ 0 := fun h₀ ↦ hmod (by rw [h₀])
    rw [ideWriteSectorsCounted, runs_get_bind, if_neg (by omega), if_neg hzero, if_pos hmod] at h
    obtain ⟨rfl, rfl⟩ := runs_pure.1 h
    exact ⟨[], Emits.refl _, fun _ ↦ rfl⟩

/-- What becomes of a call: it returns, and it completes its data phases and leaves the drives at
rest unless it reads nothing from a drive that exists. -/
def TransferCall.Outcome (call : TransferCall) (fuel : ℕ) (w : Kernel (Watched AtaBus)) : Prop :=
  ∃ r es w', Runs (call.run fuel) w r w' ∧ w.Emits es w' ∧ w'.ideDevices = w.ideDevices ∧
    (Completes call.drive w es r w' ↔ ¬ call.ReadsNothing w) ∧
    (¬ call.ReadsNothing w → AtRest fuel w'.unwatch)

/-- There is no such drive. -/
theorem TransferCall.outcome_of_absent {call : TransferCall} (h : AtRest fuel w.unwatch)
    (hno : 3 < call.drive ∨ (w.ideDevices call.drive).reserved = 0)
    (hrun : call.run fuel w = some (1, w)) : call.Outcome fuel w := by
  refine ⟨1, [], w, hrun, Emits.refl w, rfl, iff_of_true (completes_of_ne_zero one_ne_zero) ?_,
    fun _ ↦ h⟩
  intro hread
  obtain ⟨hlt, hpresent⟩ := hread.present
  exact hno.elim (fun hge ↦ absurd hlt (Nat.not_lt.2 hge)) hpresent

/-- A read from a drive that exists. -/
theorem TransferCall.outcome_read {drive lba buf : ℕ} {numsects : UInt8}
    (h : AtRest fuel w.unwatch) (hdrive : drive < 4)
    (hpresent : (w.ideDevices drive).reserved ≠ 0) :
    (read drive numsects lba buf).Outcome fuel w := by
  have hno : ¬ (3 < drive ∨ (w.ideDevices drive).reserved = 0) :=
    not_or.2 ⟨Nat.not_lt.2 (Nat.le_of_lt_succ hdrive), hpresent⟩
  obtain ⟨k, b', hrun, hserved, hk⟩ := ideReadSectors_address_spec buf lba
    (h.present drive hdrive hpresent) rfl h.faultFree.latency_lt numsects.toNat_lt
  obtain ⟨w', hrun', hw'⟩ := (ideReadSectors_projects fuel drive numsects.toNat lba buf).lift hrun
  have hdevices : w'.ideDevices = w.ideDevices := by
    show w'.unwatch.ideDevices = w.unwatch.ideDevices
    rw [hw']
    rfl
  obtain ⟨setup, es, hsetup, hes, hemits⟩ := ideReadSectors_emits
    (congrFun (h.present drive hdrive hpresent).wired _) hno hrun'
  have hmoved : moved (ideChannels (w.ideDevices drive).channel) (setup ++ es) =
      numsects.toNat := by
    rw [moved_append, hsetup.moved_eq, hes.moved_eq, Nat.zero_add]
  have hprogrammed : ∀ k, programmed (ideChannels (w.ideDevices drive).channel) k (setup ++ es) =
      if numsects.toNat = 0 then 256 else numsects.toNat := by
    intro k
    rw [hsetup.programmed_eq (ideChannels_portsDiffer _) numsects.toNat_lt (Or.inl rfl),
      hes.programmed_eq, Nat.add_zero]
  -- the two counts agree unless the count is 0
  refine ⟨0, setup ++ es, w', hrun', hemits, hdevices, ?_⟩
  rcases eq_or_ne numsects 0 with rfl | hzero
  · have hread : (read drive 0 lba buf).ReadsNothing w := ⟨hdrive, hpresent, rfl⟩
    refine ⟨iff_of_false (fun hcompletes ↦ ?_) (not_not.2 hread), fun hnot ↦ absurd hread hnot⟩
    have heq := hmoved.symm.trans ((hcompletes.moved_eq rfl).trans (hprogrammed _))
    exact absurd heq (by decide)
  · have hpos : 0 < numsects.toNat := Nat.pos_of_ne_zero fun h₀ ↦
      hzero (UInt8.toNat_inj.1 h₀)
    rw [if_neg hpos.ne'] at hserved
    have hrest : AtRest fuel w'.unwatch := by
      rw [hw']
      exact h.served rfl rfl hserved (hk hpos) rfl rfl
    refine ⟨iff_of_true ?_ fun hread ↦ hzero hread.2.2, fun _ ↦ hrest⟩
    refine completes_of_atRest hdrive hpresent hdevices hrest fun _ ↦
      hmoved.trans (Eq.trans ?_ (hprogrammed _).symm)
    rw [if_neg hpos.ne']

/-- A write to a drive that exists. -/
theorem TransferCall.outcome_write {drive startLba byteCount buf : ℕ} (h : AtRest fuel w.unwatch)
    (hdrive : drive < 4) (hpresent : (w.ideDevices drive).reserved ≠ 0) :
    (write drive startLba byteCount buf).Outcome fuel w := by
  obtain ⟨r, b', hrun, hrest⟩ := ideWriteSectorsCounted_ends startLba byteCount buf h hdrive
    hpresent
  obtain ⟨w', hrun', hw'⟩ :=
    (ideWriteSectorsCounted_projects fuel drive startLba byteCount buf).lift hrun
  have hdevices : w'.ideDevices = w.ideDevices := by
    show w'.unwatch.ideDevices = w.unwatch.ideDevices
    rw [hw']
    rfl
  rw [← hw'] at hrest
  obtain ⟨es, hemits, hend⟩ := ideWriteSectorsCounted_balanced
    (k := (w.io.bus.chan (w.ideDevices drive).channel).seccount.toNat)
    (congrFun (h.present drive hdrive hpresent).wired _) hdrive hpresent hrun'
  exact ⟨r, es, w', hrun', hemits, hdevices,
    iff_of_true (completes_of_atRest hdrive hpresent hdevices hrest hend) not_false,
    fun _ ↦ hrest⟩

/-- **One call.** -/
theorem TransferCall.outcome (call : TransferCall) (h : AtRest fuel w.unwatch) :
    call.Outcome fuel w := by
  by_cases hno : 3 < call.drive ∨ (w.ideDevices call.drive).reserved = 0
  · refine outcome_of_absent h hno ?_
    cases call with
    | read drive =>
      rw [TransferCall.drive] at hno
      rw [run, ideReadSectors, bind_apply_of_runs get_apply, if_pos hno]
      rfl
    | write drive =>
      rw [TransferCall.drive] at hno
      rw [run, ideWriteSectorsCounted, bind_apply_of_runs get_apply, if_pos hno]
      rfl
  · obtain ⟨hle, hpresent⟩ := not_or.1 hno
    have hdrive : call.drive < 4 := Nat.lt_succ_of_le (Nat.not_lt.1 hle)
    cases call with
    | read => exact outcome_read h hdrive hpresent
    | write => exact outcome_write h hdrive hpresent

theorem TransferCall.readsNothing_congr {call : TransferCall}
    (h : w'.ideDevices = w.ideDevices) : call.ReadsNothing w' ↔ call.ReadsNothing w := by
  cases call with
  | read => rw [ReadsNothing, ReadsNothing, h]
  | write => exact Iff.rfl

/-- **When every data phase is completed**: over any sequence of transfers, exactly if none of
them reads 0 sectors from a drive that exists. -/
theorem allComplete_iff {calls : List TransferCall} (h : AtRest fuel w.unwatch) :
    AllComplete fuel calls w ↔ ∀ call ∈ calls, ¬ call.ReadsNothing w := by
  induction calls generalizing w with
  | nil => simp [AllComplete]
  | cons call calls ih =>
    obtain ⟨r, es, w', hrun, hemits, hdevices, hiff, hrest⟩ := call.outcome h
    rw [List.forall_mem_cons]
    constructor
    · rintro ⟨r', es', w'', hrun', hemits', hcompletes, hall⟩
      obtain ⟨rfl, rfl⟩ := hrun.unique hrun'
      obtain rfl := hemits.unique hemits'
      have hcall := hiff.1 hcompletes
      refine ⟨hcall, fun call' hmem ↦ ?_⟩
      rw [← TransferCall.readsNothing_congr hdevices]
      exact (ih (hrest hcall)).1 hall call' hmem
    · rintro ⟨hcall, hcalls⟩
      refine ⟨r, es, w', hrun, hemits, hiff.2 hcall, (ih (hrest hcall)).2 fun call' hmem ↦ ?_⟩
      rw [TransferCall.readsNothing_congr hdevices]
      exact hcalls call' hmem

end Calls

/-- Blank disks are at rest. -/
theorem Kernel.atRest_blank (heap : Heap) (size : ℕ) :
    AtRest 1 (Kernel.blank heap size).watch.unwatch :=
  ⟨AtaBus.faultFree_blank _, fun _ hi _ ↦ Kernel.attached_blank heap size hi, fun _ _ _ ↦ rfl,
    fun _ _ _ ↦ show (0x50 : UInt8) &&& ataSrDrq = 0 by decide⟩

/-- A read of two sectors from one blank disk and a write of as many to another. -/
theorem allComplete_blank :
    AllComplete 1 [.read 0 2 7 0x200000, .write 1 3 1024 0x200000]
      (Kernel.blank (Heap.boot fun _ ↦ 7) 40000).watch :=
  (allComplete_iff (Kernel.atRest_blank _ _)).2 (by simp [TransferCall.ReadsNothing])

/-- A read of 0 sectors, as `elixir_read_bitmap` makes it when the bitmap has 256 sectors. -/
theorem not_allComplete_blank :
    ¬ AllComplete 1 [.read 0 0 2 0x200000] (Kernel.blank (Heap.boot fun _ ↦ 7) 40000).watch := by
  rintro ⟨r', es', w'', hrun', hemits', hcompletes, -⟩
  obtain ⟨r, es, w', hrun, hemits, -, hiff, -⟩ :=
    TransferCall.outcome (.read 0 0 2 0x200000) (Kernel.atRest_blank _ _)
  obtain ⟨rfl, rfl⟩ := hrun.unique hrun'
  obtain rfl := hemits.unique hemits'
  exact hiff.1 hcompletes ⟨by decide, Nat.one_ne_zero, rfl⟩
