import BinbowsDOS.Ide.Watch

/-!
# Whether a write notices failures

`ide_write_sectors_counted` polls with `check = 0`, which waits for BSY to go and looks at
nothing else. So it sends the next sector whatever the status was, and it returns 0 whatever
became of the sectors. What it should do is said here of the traffic: a sector goes out after a
status that shows the device ready for it (`Guarded`), and a device that ends a sector or a flush
with ERR or DF is reported (`ReportsFailures`).

The device is any bus at all. Its answers along a write are its own choice, so this is every
sequence of statuses. A run that hangs returns no code; its sectors up to there are also sent, after
the same statuses, in the runs with a device that ends BSY later on.
-/

open Prog Kernel

/-- A status that is not busy and has ERR or DF set. -/
def StatusFailed (v : UInt8) : Prop := v &&& ataSrErr ≠ 0 ∨ v &&& ataSrDf ≠ 0

/-- A status that asks for data: BSY, ERR and DF clear and DRQ set. -/
def StatusReady (v : UInt8) : Prop :=
  v &&& ataSrBsy = 0 ∧ v &&& ataSrErr = 0 ∧ v &&& ataSrDf = 0 ∧ v &&& ataSrDrq ≠ 0

section Failures

variable {σ : Type} [PortBus σ] (ch : IdeChannel)

/-- The device, left to itself from `b` on, ends what it is doing with the status `v`: this is
the first one without BSY when the two status registers are read. -/
inductive Ends : σ → UInt8 → Prop
  | ready {b : σ} (h : (PortBus.inb (ch.port ataRegStatus) b).1 &&& ataSrBsy = 0) :
      Ends b (PortBus.inb (ch.port ataRegStatus) b).1
  | busy {b : σ} {v : UInt8} (h : (PortBus.inb (ch.port ataRegStatus) b).1 &&& ataSrBsy ≠ 0)
      (hv : Ends (PortBus.inb (ch.port ataRegStatus) b).2 v) : Ends b v
  | alt {b : σ} {v : UInt8} (hv : Ends (PortBus.inb (ch.port ataRegAltStatus) b).2 v) : Ends b v

/-- The access hands the device a sector, or tells it to flush its cache, and the device ends
this with ERR or DF. -/
inductive EndsBadly : PortEvent σ → Prop
  | sector {b : σ} {v : UInt8} (hv : Ends ch b v) (hfail : StatusFailed v) :
      EndsBadly (.outsw ch.base b)
  | flush {b : σ} {v : UInt8} (hv : Ends ch b v) (hfail : StatusFailed v) :
      EndsBadly (.outb (ch.port ataRegCommand) ataCmdCacheFlush b)

end Failures

section Guard

variable {σ : Type} (ch : IdeChannel)

/-- Every sector goes out while the status last read, at first `last`, shows the device ready. -/
def Guarded : Option UInt8 → List (PortEvent σ) → Prop
  | _, [] => True
  | last, .inb port v :: es => Guarded (if port = ch.port ataRegStatus then some v else last) es
  | last, .outsw _ _ :: es => (∃ v, last = some v ∧ StatusReady v) ∧ Guarded last es
  | last, .outb _ _ _ :: es => Guarded last es
  | last, .insw _ :: es => Guarded last es

/-- The statuses without BSY that the device has shown. -/
def endings (es : List (PortEvent σ)) : List UInt8 :=
  es.filterMap fun
    | .inb port v => if port = ch.port ataRegStatus ∧ v &&& ataSrBsy = 0 then some v else none
    | _ => none

/-- What the statuses without BSY precede in a write of `n` sectors, one for each poll: `true` a
sector, `false` the end of a chunk. -/
def schedule (n : ℕ) : List Bool :=
  if _h : n = 0 then []
  else List.replicate (chunkSize n) true ++ false :: schedule (n - chunkSize n)
termination_by n
decreasing_by
  rw [chunkSize]
  omega

end Guard

/-- Where a sector is due the device is ready for it. -/
def ReadyWhenDue {σ : Type} (ch : IdeChannel) (due : List Bool) (es : List (PortEvent σ)) : Prop :=
  ∀ p ∈ due.zip (endings ch es), p.1 = true → StatusReady p.2

/-- The device ends no sector and no flush badly. -/
def EndsWell {σ : Type} [PortBus σ] (ch : IdeChannel) (es : List (PortEvent σ)) : Prop :=
  ∀ e ∈ es, ¬ EndsBadly ch e

/-- What a call that writes owes its caller, for its traffic `es`; `ok` says that it returned 0. -/
structure ReportsFailures {σ : Type} [PortBus σ] (ch : IdeChannel) (es : List (PortEvent σ))
    (ok : Prop) : Prop where
  /-- No sector is sent to a device that has failed or asks for none. -/
  guarded : Guarded ch none es
  /-- A failure of the device is reported. -/
  reported : (∃ e ∈ es, EndsBadly ch e) → ¬ ok

/-! ### The statuses of a write -/

section Traffic

variable {σ : Type} {ch : IdeChannel} {n : ℕ} {es rest : List (PortEvent σ)} {v : UInt8}
  {vs : List UInt8} {last : Option UInt8} {Q : Prop}

theorem endings_append (es es' : List (PortEvent σ)) :
    endings ch (es ++ es') = endings ch es ++ endings ch es' := List.filterMap_append

/-- The two status registers are at different ports. -/
theorem ideChannels_altStatus_ne (c : ℕ) :
    (ideChannels c).port ataRegAltStatus ≠ (ideChannels c).port ataRegStatus := by
  match c with
  | 0 => decide
  | c + 1 => exact of_decide_eq_true rfl

variable (hne : ch.port ataRegAltStatus ≠ ch.port ataRegStatus)

include hne in
theorem guarded_altReads (vs : List UInt8) :
    Guarded ch last (altReads ch vs ++ rest) ↔ Guarded ch last rest := by
  induction vs with
  | nil => exact Iff.rfl
  | cons v vs ih =>
    show Guarded ch (if ch.port ataRegAltStatus = ch.port ataRegStatus then some v else last)
      (altReads ch vs ++ rest) ↔ _
    rw [if_neg hne]
    exact ih

include hne in
theorem endings_altReads (vs : List UInt8) :
    endings ch (altReads ch vs : List (PortEvent σ)) = [] := by
  rw [endings, altReads, List.filterMap_map, List.filterMap_eq_nil_iff]
  intro v _
  exact if_neg fun h ↦ hne h.1

theorem Awaited.guarded (h : Awaited ch es v) :
    Guarded ch last (es ++ rest) ↔ Guarded ch (some v) rest := by
  induction h generalizing last with
  | ready =>
    show Guarded ch (if ch.port ataRegStatus = ch.port ataRegStatus then _ else last) rest ↔ _
    rw [if_pos rfl]
  | busy _ _ ih =>
    exact ih

theorem Awaited.endings_eq (h : Awaited ch es v) : endings ch es = [v] := by
  induction h with
  | ready hv => simp [endings, hv]
  | busy hs _ ih =>
    rw [← ih]
    exact List.filterMap_cons_none (if_neg fun h ↦ hs h.2)

include hne in
theorem Polled.guarded (h : Polled ch es v) :
    Guarded ch last (es ++ rest) ↔ Guarded ch (some v) rest := by
  obtain ⟨-, hes⟩ := h
  rw [List.append_assoc, guarded_altReads hne, hes.guarded]

include hne in
theorem Polled.endings_eq (h : Polled ch es v) : endings ch es = [v] := by
  obtain ⟨-, hes⟩ := h
  rw [endings_append, endings_altReads hne, hes.endings_eq, List.nil_append]

theorem SetUp.guarded {count : ℕ} {command : UInt8} (h : SetUp ch count command es) :
    Guarded ch last (es ++ rest) ↔ Guarded ch last rest := by
  cases h
  exact Iff.rfl

theorem SetUp.endings_eq {count : ℕ} {command : UInt8} (h : SetUp ch count command es) :
    endings ch es = [] := by
  cases h
  rfl

theorem SectorsOut.length_eq (h : SectorsOut ch n es vs) : vs.length = n := by
  induction h with
  | zero => rfl
  | succ _ _ _ ih => rw [List.length_cons, ih]

include hne in
/-- Each sector is guarded by the status its poll ended with. -/
theorem SectorsOut.guarded (h : SectorsOut ch n es vs)
    (hrest : ∀ last, Guarded ch last rest ↔ Q) :
    Guarded ch last (es ++ rest) ↔ (∀ v ∈ vs, StatusReady v) ∧ Q := by
  induction h generalizing last with
  | zero => simp [hrest]
  | @succ n p es v vs after hp hes ih =>
    rw [List.append_assoc, hp.guarded hne, List.forall_mem_cons, and_assoc, ← @ih (some v)]
    refine and_congr_left fun _ ↦ ⟨?_, fun hv ↦ ⟨v, rfl, hv⟩⟩
    rintro ⟨v', hv', hready⟩
    exact Option.some.inj hv' ▸ hready

include hne in
theorem SectorsOut.endings_eq (h : SectorsOut ch n es vs) : endings ch es = vs := by
  induction h with
  | zero => rfl
  | succ after hp hes ih =>
    rw [endings_append, hp.endings_eq hne]
    exact congrArg (List.cons _) ih

theorem schedule_zero : schedule 0 = [] := by
  rw [schedule, dif_pos rfl]

theorem schedule_of_pos (hn : 0 < n) :
    schedule n = List.replicate (chunkSize n) true ++ false :: schedule (n - chunkSize n) := by
  rw [schedule, dif_neg (by omega)]

/-- The statuses that precede sectors. -/
theorem zip_sectors (vs : List UInt8) :
    (List.replicate vs.length true).zip vs = vs.map (Prod.mk true) := by
  induction vs with
  | nil => rfl
  | cons v vs ih =>
    rw [List.length_cons, List.replicate_succ, List.zip_cons_cons, ih, List.map_cons]

include hne in
/-- **When the sectors of a write are guarded**: where the schedule has a sector, the status must
be right. -/
theorem ChunksOut.guarded {due : List Bool} (h : ChunksOut ch n es vs)
    (hrest : ∀ last, Guarded ch last rest ↔ ReadyWhenDue ch due rest) :
    Guarded ch last (es ++ rest) ↔ ReadyWhenDue ch (schedule n ++ due) (es ++ rest) := by
  induction h generalizing last with
  | zero =>
    rw [schedule_zero]
    exact hrest last
  | @succ n count setup out p es v vs vs' after hn hcount hchunk hsetup hout hp hes ih =>
    have hflush : ∀ last, Guarded ch last
        (.outb (ch.port ataRegCommand) ataCmdCacheFlush after :: (p ++ (es ++ rest))) ↔
          ReadyWhenDue ch (schedule (n - chunkSize n) ++ due) (es ++ rest) :=
      fun last ↦ (hp.guarded hne).trans ih
    have hlength : (List.replicate (chunkSize n) true).length = vs.length := by
      rw [List.length_replicate, hout.length_eq]
    have hzip : (List.replicate (chunkSize n) true).zip vs = vs.map (Prod.mk true) := by
      rw [← hout.length_eq]
      exact zip_sectors vs
    -- the polls of this chunk show `vs` before its sectors and `v` after its flush
    have hends : endings ch (setup ++ (out ++
        .outb (ch.port ataRegCommand) ataCmdCacheFlush after :: (p ++ (es ++ rest)))) =
          vs ++ v :: endings ch (es ++ rest) := by
      rw [endings_append, hsetup.endings_eq, endings_append, hout.endings_eq hne, List.nil_append]
      refine congrArg (vs ++ ·) ?_
      show endings ch (p ++ (es ++ rest)) = _
      rw [endings_append, hp.endings_eq hne]
      rfl
    simp only [List.append_assoc, List.cons_append]
    -- `v` is due for no sector, so the schedule ignores it
    rw [ReadyWhenDue, hends, schedule_of_pos hn, hsetup.guarded, hout.guarded hne hflush]
    simp only [List.append_assoc, List.cons_append]
    rw [List.zip_append hlength, List.forall_mem_append, hzip, List.zip_cons_cons,
      List.forall_mem_cons, ReadyWhenDue]
    simp

/-- A write sends something. -/
theorem ChunksOut.exists_outsw (h : ChunksOut ch n es vs) (hn : 0 < n) :
    ∃ after, PortEvent.outsw ch.base after ∈ es := by
  cases h with
  | zero => exact absurd hn (Nat.lt_irrefl 0)
  | succ after hn hcount hchunk hsetup hout hp hes =>
    have hpos : 0 < chunkSize n := by
      rw [chunkSize]
      omega
    obtain ⟨k, hk⟩ := Nat.exists_eq_succ_of_ne_zero hpos.ne'
    rw [hk] at hout
    cases hout with
    | succ after' hp' hes' => exact ⟨after', by simp⟩

/-- Nothing more is to come. -/
theorem guarded_nil (due : List Bool) (last : Option UInt8) :
    Guarded ch last ([] : List (PortEvent σ)) ↔
      ReadyWhenDue ch due ([] : List (PortEvent σ)) := by
  rw [ReadyWhenDue, show endings ch ([] : List (PortEvent σ)) = [] from rfl, List.zip_nil_right]
  simp [Guarded]

include hne in
/-- The traffic of a write by itself. -/
theorem ChunksOut.guarded_iff (h : ChunksOut ch n es vs) (due : List Bool)
    (last : Option UInt8) : Guarded ch last es ↔ ReadyWhenDue ch (schedule n ++ due) es := by
  have hguard : Guarded ch last (es ++ []) ↔ ReadyWhenDue ch (schedule n ++ due) (es ++ []) :=
    h.guarded hne (guarded_nil due)
  rwa [List.append_nil] at hguard

end Traffic

/-! ### The result -/

section Result

variable {σ : Type} [PortBus σ] {w w' : Kernel (Watched σ)} {ch : IdeChannel}
  {fuel drive lba n buf r : ℕ}

/-- A write to a present drive sends everything and returns 0. -/
theorem ideWriteSectorsCounted_sends (hch : w.channels (w.ideDevices drive).channel = ch)
    (hdrive : drive < 4) (hpresent : (w.ideDevices drive).reserved ≠ 0) (hlba : lba + n ≤ 2 ^ 28)
    (h : Runs (ideWriteSectorsCounted fuel drive lba (512 * n) buf) w r w') :
    r = 0 ∧ ∃ es vs, ChunksOut ch n es vs ∧ w.Emits es w' := by
  have hr : r = 0 := ideWriteSectorsCounted_result hdrive hpresent hlba h
  obtain ⟨es, hemits, hend⟩ := ideWriteSectorsCounted_emits hch hdrive hpresent h
  rcases hend with hr' | ⟨-, vs, hes⟩
  · omega
  · exact ⟨hr, es, vs, hes, hemits⟩

/-- A call that has returned 0 has reported nothing. -/
theorem reportsFailures_ok {es : List (PortEvent σ)} {due : List Bool} {ok : Prop} (hok : ok)
    (hguard : Guarded ch none es ↔ ReadyWhenDue ch due es) :
    ReportsFailures ch es ok ↔ EndsWell ch es ∧ ReadyWhenDue ch due es := by
  constructor
  · intro h
    exact ⟨fun e he hbad ↦ h.reported ⟨e, he, hbad⟩ hok, hguard.1 h.guarded⟩
  · rintro ⟨hends, hready⟩
    refine ⟨hguard.2 hready, ?_⟩
    rintro ⟨e, he, hbad⟩
    exact absurd hbad (hends e he)

end Result

/-! ### Devices that always answer alike -/

/-- A device whose registers always read as this status. -/
structure UniformBus (status : UInt8) where

instance (status : UInt8) : PortBus (UniformBus status) where
  inb _ b := (status, b)
  outb _ _ b := b
  insw _ b := (fun _ ↦ status, b)
  outsw _ _ b := b

/-- A device that aborts every command: its registers read as a status with ERR. -/
abbrev AbortingBus := UniformBus 0x51

namespace UniformBus

variable {status : UInt8} {w : Kernel (UniformBus status)} {channel reg fuel n : ℕ}

theorem ideRead_apply (hreg : ¬ (0x07 < reg ∧ reg < 0x0C)) :
    ideRead channel reg w = some (status, w) := by
  rw [ideRead, ideSelectHob, if_neg hreg]
  rfl

theorem ideWrite_apply {data : UInt8} (hreg : ¬ (0x07 < reg ∧ reg < 0x0C)) :
    ideWrite channel reg data w = some ((), w) := by
  rw [ideWrite, ideSelectHob, if_neg hreg]
  rfl

theorem readAltStatus_apply : readAltStatus channel n w = some ((), w) := by
  induction n with
  | zero => rfl
  | succ n ih => rw [readAltStatus, bind_apply_of_runs (ideRead_apply (by decide)), ih]

theorem idePolling_apply (hready : status &&& ataSrBsy = 0) :
    idePolling (fuel + 1) channel 0 w = some (0, w) := by
  rw [idePolling, bind_apply_of_runs readAltStatus_apply, waitWhileBusy, bind_assoc,
    bind_apply_of_runs (ideRead_apply (by decide)), if_neg (not_not.2 hready)]
  rfl

theorem writeSectorsLoop_apply (hready : status &&& ataSrBsy = 0) {bus data i : ℕ} :
    writeSectorsLoop (fuel + 1) channel bus data i n w = some (0, w) := by
  induction n generalizing i with
  | zero => rfl
  | succ n ih =>
    rw [writeSectorsLoop, bind_apply_of_runs (idePolling_apply hready), if_neg (by decide)]
    exact ih

/-- A write of one sector ends in due form. -/
theorem ideWriteSectorsCounted_apply (hready : status &&& ataSrBsy = 0) {drive lba buf : ℕ}
    (hdrive : drive < 4) (hpresent : (w.ideDevices drive).reserved ≠ 0) (hlba : lba < 2 ^ 28) :
    ideWriteSectorsCounted (fuel + 1) drive lba 512 buf w = some (0, w) := by
  have hsetup : ∀ channel slavebit head count lba0 lba1 lba2 command,
      ideSetup channel slavebit head count lba0 lba1 lba2 command w = some ((), w) := by
    intro channel slavebit head count lba0 lba1 lba2 command
    have hwrite : ∀ reg v, reg < 8 → ideWrite channel reg v w = some ((), w) :=
      fun reg v hreg ↦ ideWrite_apply (by omega)
    rw [ideSetup, timerWaitMs_one, bind_apply_of_runs (hwrite _ _ (by decide)), pure_bind,
      bind_apply_of_runs (hwrite _ _ (by decide)), bind_apply_of_runs (hwrite _ _ (by decide)),
      bind_apply_of_runs (hwrite _ _ (by decide)), bind_apply_of_runs (hwrite _ _ (by decide)),
      hwrite _ _ (by decide)]
  rw [ideWriteSectorsCounted, bind_apply_of_runs get_apply, if_neg (by omega),
    if_neg (by decide), if_neg (by decide), show 512 / 512 = 1 from rfl, writeChunksLoop,
    if_neg (by decide), if_neg (by omega), bind_apply_of_runs get_apply]
  dsimp only
  rw [bind_apply_of_runs (hsetup ..), bind_apply_of_runs (writeSectorsLoop_apply hready),
    if_neg (by decide), bind_apply_of_runs (ideWrite_apply (by decide)),
    bind_apply_of_runs (idePolling_apply hready), if_neg (by decide)]
  rfl

/-- Whatever a program does, the statuses it reads are this one. -/
theorem access_answers : PortAccess fun w w' : Kernel (Watched (UniformBus status)) ↦
    ∃ es, w.Emits es w' ∧ ∀ port v, PortEvent.inb port v ∈ es → v = status where
  refl w := ⟨[], Emits.refl w, fun _ _ h ↦ absurd h List.not_mem_nil⟩
  trans := by
    rintro w w' w'' ⟨es, hemits, hes⟩ ⟨es', hemits', hes'⟩
    refine ⟨es ++ es', hemits.trans hemits', fun port v hv ↦ ?_⟩
    exact (List.mem_append.1 hv).elim (hes port v) (hes' port v)
  inb port := by
    rintro w v w' h
    obtain ⟨-, rfl⟩ := Prod.mk.inj (Option.some.inj h)
    refine ⟨_, rfl, fun port' v' hv' ↦ ?_⟩
    exact (PortEvent.inb.inj (List.mem_singleton.1 hv')).2
  outb port data := by
    rintro w v w' h
    obtain ⟨-, rfl⟩ := Prod.mk.inj (Option.some.inj h)
    exact ⟨_, rfl, fun _ _ hv ↦ by cases List.mem_singleton.1 hv⟩
  outsw port addr := by
    rintro w v w' h
    obtain ⟨-, rfl⟩ := Prod.mk.inj (Option.some.inj h)
    exact ⟨_, rfl, fun _ _ hv ↦ by cases List.mem_singleton.1 hv⟩

variable {ch : IdeChannel} {es : List (PortEvent (UniformBus status))}

theorem readyWhenDue {due : List Bool} (hes : ∀ port v, PortEvent.inb port v ∈ es → v = status)
    (hready : StatusReady status) : ReadyWhenDue ch due es := by
  rintro ⟨d, v⟩ hp -
  obtain ⟨e, he, hv⟩ := List.mem_filterMap.1 (List.of_mem_zip hp).2
  cases e with
  | inb port v' =>
    simp only [Option.ite_none_right_eq_some, Option.some.injEq] at hv
    obtain ⟨-, rfl⟩ := hv
    rwa [hes port v' he]
  | outb => cases hv
  | insw => cases hv
  | outsw => cases hv

theorem ends_eq {b : UniformBus status} {v : UInt8} (h : Ends ch b v) : v = status := by
  induction h with
  | ready => rfl
  | busy _ _ ih => exact ih
  | alt _ ih => exact ih

theorem endsWell (hok : ¬ StatusFailed status) : EndsWell ch es := by
  rintro e - (⟨hv, hfail⟩ | ⟨hv, hfail⟩)
  · exact hok (ends_eq hv ▸ hfail)
  · exact hok (ends_eq hv ▸ hfail)

end UniformBus
