import BinbowsDOS.Ide.WriteStatus

/-!
# When IDENTIFY ends, and on what

The loop of `ide_identify` looks at two bits: it returns on ERR and fetches the data on DRQ. It does
not look at BSY, while which the other bits mean nothing, nor at DF; and without ERR and DRQ it goes
on for ever. `TellsInTime` is what a device must show for this to come out well.

The device is any bus. Between the IDENTIFY command and the data only its status register is read,
so what it shows is one sequence, `statuses`.
-/

open Prog Kernel

/-- The device ends BSY at some time, holds its status from then on, and this is `final`. -/
def Holds (s : ℕ → UInt8) (final : UInt8) : Prop :=
  final &&& ataSrBsy = 0 ∧ ∃ n, (∀ j < n, s j &&& ataSrBsy ≠ 0) ∧ ∀ j, n ≤ j → s j = final

/-- Read `j` is the first after the one that looks for a device to show ERR or DRQ. -/
structure TellsAt (s : ℕ → UInt8) (j : ℕ) : Prop where
  /-- It comes after that one. -/
  pos : 0 < j
  /-- Those in between show neither. -/
  silent : ∀ i, 0 < i → i < j → s i &&& ataSrErr = 0 ∧ s i &&& ataSrDrq = 0
  /-- This one does. -/
  tells : s j &&& ataSrErr ≠ 0 ∨ s j &&& ataSrDrq ≠ 0

/-- The first read finds no device, or a later one shows ERR or DRQ and the first of these shows ERR
or a device that is ready with its data. -/
def TellsInTime (s : ℕ → UInt8) : Prop :=
  s 0 = 0 ∨ ∃ j, TellsAt s j ∧ (s j &&& ataSrErr ≠ 0 ∨ StatusReady (s j))

section Statuses

variable {σ : Type} [PortBus σ] (ch : IdeChannel) (b : σ)

/-- The bus after the register writes of IDENTIFY to unit `dev`. -/
def identifySent (dev : ℕ) (b : σ) : σ :=
  PortBus.outb (ch.port ataRegCommand) ataCmdIdentify <| PortBus.outb (ch.port ataRegLba2) 0 <|
    PortBus.outb (ch.port ataRegLba1) 0 <| PortBus.outb (ch.port ataRegLba0) 0 <|
      PortBus.outb (ch.port ataRegSecCount0) 0 <|
        PortBus.outb (ch.port ataRegHdDevSel) (UInt8.ofNat (0xA0 ||| (dev <<< 4))) b

/-- The bus after `j` reads of the status register. -/
def statusRead : ℕ → σ
  | 0 => b
  | j + 1 => (PortBus.inb (ch.port ataRegStatus) (statusRead j)).2

/-- What these reads show. -/
def statuses (j : ℕ) : UInt8 := (PortBus.inb (ch.port ataRegStatus) (statusRead ch b j)).1

end Statuses

/-! ### What the program does -/

section Programs

variable {σ : Type} [PortBus σ] {w : Kernel σ} {ch : IdeChannel} {channel drive fuel j k : ℕ}

theorem ideRead_statusRead {io : σ} (hch : w.channels channel = ch) :
    ideRead channel ataRegStatus (w.setIo (statusRead ch io j)) =
      some (statuses ch io j, w.setIo (statusRead ch io (j + 1))) := by
  subst hch
  rfl

theorem ideWrite_apply {reg : ℕ} {v : UInt8} (hreg : reg < 8) : ideWrite channel reg v w =
    some ((), w.setIo (PortBus.outb ((w.channels channel).port reg) v w.io)) := by
  rw [ideWrite, ideSelectHob, if_neg (by omega)]
  rfl

/-- The loop stops at the first telling status. -/
theorem awaitData_apply {io : σ} (hch : w.channels channel = ch)
    (htells : TellsAt (statuses ch io) j) (hk : 0 < k) (hkj : k ≤ j) (hfuel : j - k < fuel) :
    awaitData channel fuel (w.setIo (statusRead ch io k)) =
      some (decide (statuses ch io j &&& ataSrErr = 0), w.setIo (statusRead ch io (j + 1))) := by
  induction fuel generalizing k with
  | zero => omega
  | succ fuel ih =>
    rw [awaitData, bind_apply_of_runs (ideRead_statusRead hch)]
    rcases hkj.eq_or_lt with rfl | hlt
    · by_cases herr : statuses ch io k &&& ataSrErr = 0
      · rw [if_neg (not_not.2 herr), if_pos (htells.tells.resolve_left (not_not.2 herr)),
          decide_eq_true herr]
        rfl
      · rw [if_pos herr, decide_eq_false herr]
        rfl
    · obtain ⟨herr, hdrq⟩ := htells.silent k hk hlt
      rw [if_neg (not_not.2 herr), if_neg (not_not.2 hdrq)]
      exact ih (Nat.succ_pos k) hlt (by omega)

/-- A loop that stops has found one. -/
theorem awaitData_tells {io : σ} {ready : Bool} {w' : Kernel σ} (hch : w.channels channel = ch)
    (hk : 0 < k)
    (hsilent : ∀ i, 0 < i → i < k → statuses ch io i &&& ataSrErr = 0 ∧
      statuses ch io i &&& ataSrDrq = 0)
    (h : Runs (awaitData channel fuel) (w.setIo (statusRead ch io k)) ready w') :
    ∃ j, TellsAt (statuses ch io) j ∧ ready = decide (statuses ch io j &&& ataSrErr = 0) ∧
      w' = w.setIo (statusRead ch io (j + 1)) := by
  induction fuel generalizing k with
  | zero => simp [Runs, awaitData] at h
  | succ fuel ih =>
    rw [awaitData, runs_bind_of_runs (ideRead_statusRead hch)] at h
    by_cases herr : statuses ch io k &&& ataSrErr = 0
    · rw [if_neg (not_not.2 herr)] at h
      by_cases hdrq : statuses ch io k &&& ataSrDrq = 0
      · rw [if_neg (not_not.2 hdrq)] at h
        refine ih (Nat.succ_pos k) (fun i hi hik ↦ ?_) h
        rcases Nat.lt_succ_iff_lt_or_eq.1 hik with hlt | rfl
        · exact hsilent i hi hlt
        · exact ⟨herr, hdrq⟩
      · rw [if_pos hdrq] at h
        obtain ⟨rfl, rfl⟩ := runs_pure.1 h
        exact ⟨k, ⟨hk, hsilent, Or.inr hdrq⟩, (decide_eq_true herr).symm, rfl⟩
    · rw [if_pos herr] at h
      obtain ⟨rfl, rfl⟩ := runs_pure.1 h
      exact ⟨k, ⟨hk, hsilent, Or.inl herr⟩, (decide_eq_false herr).symm, rfl⟩

end Programs

/-! ### `ide_identify` on any bus -/

section Identify

variable {σ : Type} [PortBus σ] {w w' : Kernel σ} {ch : IdeChannel}
  {channel drive fuel j k : ℕ} {io : σ}

/-- The kernel after the data of IDENTIFY have been fetched and the drive entered. -/
def Kernel.entered (w : Kernel σ) (channel drive : ℕ) : Kernel σ :=
  { w with
    ideBuf := (PortBus.insw (w.channels channel).base w.io).1
    io := (PortBus.insw (w.channels channel).base w.io).2
    ideDevices := Function.update w.ideDevices drive (identified channel (drive &&& 1)
      (PortBus.insw (w.channels channel).base w.io).1 (w.ideDevices drive)) }

/-- There is only one such read. -/
theorem TellsAt.unique {s : ℕ → UInt8} (h : TellsAt s j) (h' : TellsAt s k) : j = k := by
  have hle : ∀ {i i' : ℕ}, TellsAt s i → TellsAt s i' → i ≤ i' := by
    intro i i' hi hi'
    by_contra hlt
    obtain ⟨herr, hdrq⟩ := hi.silent i' hi'.pos (Nat.lt_of_not_le hlt)
    exact hi'.tells.elim (fun h ↦ h herr) fun h ↦ h hdrq
  exact Nat.le_antisymm (hle h h') (hle h' h)

/-- What follows the loop. -/
def enterDrive (base channel drive : ℕ) : KernelM σ Unit := do
  inswIdeBuf base
  modify fun w ↦ { w with
    ideDevices := Function.update w.ideDevices drive
      (identified channel (drive &&& 1) w.ideBuf (w.ideDevices drive)) }

/-- After the command comes one look at the status, and then the loop. -/
theorem ideIdentify_start (hch : w.channels channel = ch)
    (hio : identifySent ch (drive &&& 1) w.io = io) :
    ideIdentify fuel channel drive w =
      if statuses ch io 0 = 0 then some ((), w.setIo (statusRead ch io 1))
      else (awaitData channel fuel (w.setIo (statusRead ch io 1))).bind fun p ↦
        if p.1 then enterDrive ch.base channel drive p.2 else some ((), p.2) := by
  have hwrite : ∀ (io : σ) (reg : ℕ) (v : UInt8), reg < 8 → ideWrite channel reg v (w.setIo io) =
      some ((), w.setIo (PortBus.outb (ch.port reg) v io)) := by
    intro io reg v hreg
    rw [ideWrite_apply hreg, ← hch]
    rfl
  rw [ideIdentify, bind_apply_of_runs get_apply, hch, timerWaitMs_one]
  conv_lhs => rw [show w = w.setIo w.io from rfl]
  rw [bind_apply_of_runs (hwrite _ _ _ (by decide)), pure_bind,
    bind_apply_of_runs (hwrite _ _ _ (by decide)), bind_apply_of_runs (hwrite _ _ _ (by decide)),
    bind_apply_of_runs (hwrite _ _ _ (by decide)), bind_apply_of_runs (hwrite _ _ _ (by decide)),
    bind_apply_of_runs (hwrite _ _ _ (by decide)), pure_bind]
  rw [show PortBus.outb _ _ _ = io from hio,
    show w.setIo io = w.setIo (statusRead ch io 0) from rfl,
    bind_apply_of_runs (ideRead_statusRead hch)]
  split
  · rfl
  · rw [bind_apply]
    refine congrArg _ (funext fun p ↦ ?_)
    split <;> rfl

/-- The loop's answer decides whether a drive is entered. -/
theorem enterDrive_apply (hch : w.channels channel = ch) (ready : Bool) :
    (if ready then enterDrive ch.base channel drive (w.setIo io) else some ((), w.setIo io)) =
      some ((), if ready then (w.setIo io).entered channel drive else w.setIo io) := by
  subst hch
  cases ready <;> rfl

theorem ideIdentify_of_zero (hch : w.channels channel = ch)
    (hio : identifySent ch (drive &&& 1) w.io = io) (hzero : statuses ch io 0 = 0) :
    ideIdentify fuel channel drive w = some ((), w.setIo (statusRead ch io 1)) := by
  rw [ideIdentify_start hch hio, if_pos hzero]

theorem ideIdentify_of_tells (hch : w.channels channel = ch)
    (hio : identifySent ch (drive &&& 1) w.io = io) (hzero : statuses ch io 0 ≠ 0)
    (htells : TellsAt (statuses ch io) j) (hfuel : j ≤ fuel) :
    ideIdentify fuel channel drive w = some ((),
      if decide (statuses ch io j &&& ataSrErr = 0) then
        (w.setIo (statusRead ch io (j + 1))).entered channel drive
      else w.setIo (statusRead ch io (j + 1))) := by
  have hpos : 0 < j := htells.pos
  rw [ideIdentify_start hch hio, if_neg hzero,
    awaitData_apply hch htells Nat.one_pos hpos (by omega), Option.bind_some]
  exact enterDrive_apply hch _

/-- A run with a device there has found a telling status. -/
theorem ideIdentify_tells (hch : w.channels channel = ch)
    (hio : identifySent ch (drive &&& 1) w.io = io) (hzero : statuses ch io 0 ≠ 0)
    (h : Runs (ideIdentify fuel channel drive) w () w') :
    ∃ j, TellsAt (statuses ch io) j ∧ w' =
      if decide (statuses ch io j &&& ataSrErr = 0) then
        (w.setIo (statusRead ch io (j + 1))).entered channel drive
      else w.setIo (statusRead ch io (j + 1)) := by
  rw [Runs, ideIdentify_start hch hio, if_neg hzero, Option.bind_eq_some_iff] at h
  obtain ⟨⟨ready, t⟩, hloop, h⟩ := h
  obtain ⟨j, htells, rfl, rfl⟩ := awaitData_tells hch Nat.one_pos (fun i hi hik ↦ by omega) hloop
  rw [enterDrive_apply hch] at h
  exact ⟨j, htells, (Prod.mk.inj (Option.some.inj h)).2.symm⟩

end Identify

/-! ### The traffic -/

section Traffic

variable {σ : Type} [PortBus σ] (ch : IdeChannel)

/-- The status reads show in the log. -/
theorem log_statusRead (b : Watched σ) (j : ℕ) : (statusRead ch b j).log =
    b.log ++ (List.range j).map fun i ↦ .inb (ch.port ataRegStatus) (statuses ch b i) := by
  induction j with
  | zero => exact (List.append_nil _).symm
  | succ j ih =>
    show (statusRead ch b j).log ++ [.inb (ch.port ataRegStatus) (statuses ch b j)] = _
    rw [ih, List.range_succ, List.map_append, List.append_assoc]
    rfl

/-- Before them come register writes. -/
theorem log_identifySent (dev : ℕ) (b : Watched σ) :
    ∃ es, (identifySent ch dev b).log = b.log ++ es ∧ ∀ port, .insw port ∉ es := by
  have hwrite : ∀ (port : ℕ) (v : UInt8) (b' : Watched σ),
      (∃ es, b'.log = b.log ++ es ∧ ∀ port, .insw port ∉ es) →
        ∃ es, (PortBus.outb port v b').log = b.log ++ es ∧ ∀ port, .insw port ∉ es := by
    rintro port v b' ⟨es, hes, hno⟩
    refine ⟨es ++ [.outb port v (PortBus.outb port v b'.bus)], ?_, by simp [hno]⟩
    rw [← List.append_assoc, ← hes]
    rfl
  exact hwrite _ _ _ <| hwrite _ _ _ <| hwrite _ _ _ <| hwrite _ _ _ <| hwrite _ _ _ <|
    hwrite _ _ _ ⟨[], (List.append_nil _).symm, fun port ↦ List.not_mem_nil⟩

omit [PortBus σ] in
/-- What comes before the only fetch. -/
theorem eq_of_fetch {es pre post : List (PortEvent σ)} {port base : ℕ}
    (hno : ∀ port, .insw port ∉ es) (h : es ++ [.insw base] = pre ++ .insw port :: post) :
    pre = es := by
  rcases List.append_eq_append_iff.1 h with ⟨l, hpre, hl⟩ | ⟨l, hes, hl⟩
  · cases l with
    | nil => rw [hpre, List.append_nil]
    | cons e l => simp at hl
  · cases l with
    | nil => rw [hes, List.append_nil]
    | cons e l =>
      obtain ⟨rfl, -⟩ := List.cons.inj hl
      exact absurd (hes ▸ by simp) (hno port)

end Traffic

/-- What `ide_identify` owes its caller for a device that ends with the status `final`. -/
structure TrustsValid {σ : Type} [PortBus σ] (channel drive : ℕ) (final : UInt8)
    (w : Kernel (Watched σ)) : Prop where
  /-- It returns. -/
  returns : ∃ fuel w', Runs (ideIdentify fuel channel drive) w () w'
  /-- Data are fetched only when the status just read shows them ready. -/
  fetches : ∀ fuel w' es, Runs (ideIdentify fuel channel drive) w () w' → w.Emits es w' →
    ∀ pre port post, es = pre ++ .insw port :: post → ∃ pre' v,
      pre = pre' ++ [.inb ((w.channels channel).port ataRegStatus) v] ∧ StatusReady v
  /-- A drive is entered only with data. -/
  enters : ∀ fuel w' es, Runs (ideIdentify fuel channel drive) w () w' → w.Emits es w' →
    w'.ideDevices ≠ w.ideDevices → ∃ port, .insw port ∈ es
  /-- A device that ends badly leaves the table alone. -/
  untouched : ¬ StatusReady final → ∀ fuel w', Runs (ideIdentify fuel channel drive) w () w' →
    w'.ideDevices = w.ideDevices

section Result

variable {σ : Type} [PortBus σ] {w w' : Kernel (Watched σ)} {ch : IdeChannel}
  {channel drive fuel j : ℕ} {io : Watched σ} {final : UInt8} {es : List (PortEvent σ)}

/-- The traffic of the command and the status reads after it. -/
theorem emits_statusRead (hio : identifySent ch (drive &&& 1) w.io = io) (j : ℕ) :
    ∃ pre, w.Emits (pre ++ [.inb (ch.port ataRegStatus) (statuses ch io j)])
        (w.setIo (statusRead ch io (j + 1))) ∧
      ∀ port, .insw port ∉ pre ++ [.inb (ch.port ataRegStatus) (statuses ch io j)] := by
  subst hio
  obtain ⟨sent, hsent, hno⟩ := log_identifySent ch (drive &&& 1) w.io
  refine ⟨sent ++ (List.range j).map fun i ↦ .inb (ch.port ataRegStatus)
    (statuses ch (identifySent ch (drive &&& 1) w.io) i), ?_, by simp [hno]⟩
  have hlog := log_statusRead ch (identifySent ch (drive &&& 1) w.io) (j + 1)
  rw [hsent, List.range_succ, List.map_append, List.append_assoc, ← List.append_assoc sent] at hlog
  exact hlog

/-- A run finds no device or an error and fetches nothing, or it fetches data after the telling
status `j`. -/
theorem ideIdentify_outcome (hch : w.channels channel = ch)
    (hio : identifySent ch (drive &&& 1) w.io = io)
    (h : Runs (ideIdentify fuel channel drive) w () w') :
    ∃ es, w.Emits es w' ∧ ((statuses ch io 0 = 0 ∨
        ∃ j, TellsAt (statuses ch io) j ∧ statuses ch io j &&& ataSrErr ≠ 0) ∧
          w'.ideDevices = w.ideDevices ∧ (∀ port, .insw port ∉ es) ∨
      statuses ch io 0 ≠ 0 ∧ ∃ j pre, TellsAt (statuses ch io) j ∧
        statuses ch io j &&& ataSrErr = 0 ∧
        es = (pre ++ [.inb (ch.port ataRegStatus) (statuses ch io j)]) ++ [.insw ch.base] ∧
        ∀ port, .insw port ∉ pre ++ [.inb (ch.port ataRegStatus) (statuses ch io j)]) := by
  by_cases hzero : statuses ch io 0 = 0
  · obtain ⟨-, rfl⟩ := h.unique (ideIdentify_of_zero hch hio hzero)
    obtain ⟨pre, hemits, hno⟩ := emits_statusRead hio 0
    exact ⟨_, hemits, Or.inl ⟨Or.inl hzero, rfl, hno⟩⟩
  · obtain ⟨j, htells, rfl⟩ := ideIdentify_tells hch hio hzero h
    obtain ⟨pre, hemits, hno⟩ := emits_statusRead hio j
    by_cases herr : statuses ch io j &&& ataSrErr = 0
    · rw [if_pos (decide_eq_true herr)]
      subst hch
      have hfetch : Emits (w.setIo (statusRead (w.channels channel) io (j + 1)))
          [.insw (w.channels channel).base]
          ((w.setIo (statusRead (w.channels channel) io (j + 1))).entered channel drive) := rfl
      exact ⟨_, hemits.trans hfetch, Or.inr ⟨hzero, j, pre, htells, herr, rfl, hno⟩⟩
    · rw [if_neg (by simpa using herr)]
      exact ⟨_, hemits, Or.inl ⟨Or.inr ⟨j, htells, herr⟩, rfl, hno⟩⟩

/-- A device that holds its status is done when it shows that it is ready. -/
theorem Holds.eq_final {s : ℕ → UInt8} (h : Holds s final) (hj : s j &&& ataSrBsy = 0) :
    s j = final := by
  obtain ⟨-, n, hbusy, hheld⟩ := h
  refine hheld j ?_
  by_contra hlt
  exact hbusy j (Nat.lt_of_not_le hlt) hj

/-- The status before a fetch is one to rely on. -/
theorem TellsInTime.statusReady {s : ℕ → UInt8} (h : TellsInTime s) (hzero : s 0 ≠ 0)
    (htells : TellsAt s j) (herr : s j &&& ataSrErr = 0) : StatusReady (s j) := by
  rcases h with hzero' | ⟨i, htells', hready⟩
  · exact absurd hzero' hzero
  · obtain rfl : i = j := htells'.unique htells
    exact hready.resolve_left (not_not.2 herr)

/-- **`ide_identify` ends and trusts only valid data exactly when there is no device or the first
status that ends its loop is one the loop can rely on.** -/
theorem trustsValid_iff
    (hholds : Holds (statuses (w.channels channel)
      (identifySent (w.channels channel) (drive &&& 1) w.io)) final) :
    TrustsValid channel drive final w ↔ TellsInTime (statuses (w.channels channel)
      (identifySent (w.channels channel) (drive &&& 1) w.io)) := by
  generalize hch : w.channels channel = ch at hholds ⊢
  generalize hio : identifySent ch (drive &&& 1) w.io = io at hholds ⊢
  constructor
  · intro h
    obtain ⟨fuel, w', hrun⟩ := h.returns
    obtain ⟨es, hes, ⟨hzero | ⟨j, htells, herr⟩, -⟩ | ⟨-, j, pre, htells, -, hfetch, -⟩⟩ :=
      ideIdentify_outcome hch hio hrun
    · exact Or.inl hzero
    · exact Or.inr ⟨j, htells, Or.inl herr⟩
    · obtain ⟨pre', v, hpre, hready⟩ := h.fetches fuel w' es hrun hes _ _ [] hfetch
      rw [hch] at hpre
      obtain ⟨-, heq⟩ := List.append_inj' hpre rfl
      obtain rfl : statuses ch io j = v := by simpa using heq
      exact Or.inr ⟨j, htells, Or.inr hready⟩
  · intro h
    refine ⟨?_, ?_, ?_, ?_⟩
    · by_cases hzero : statuses ch io 0 = 0
      · exact ⟨0, _, ideIdentify_of_zero hch hio hzero⟩
      · obtain ⟨j, htells, -⟩ := h.resolve_left hzero
        exact ⟨j, _, ideIdentify_of_tells hch hio hzero htells le_rfl⟩
    · intro fuel w' es hrun hes pre port post hsplit
      obtain ⟨es', hes', ⟨-, -, hno⟩ | ⟨hzero, j, pre', htells, herr, hfetch, hno⟩⟩ :=
        ideIdentify_outcome hch hio hrun
      · obtain rfl : es = es' := hes.unique hes'
        exact absurd (hsplit ▸ by simp) (hno port)
      · obtain rfl : es = es' := hes.unique hes'
        rw [hfetch] at hsplit
        rw [hch, eq_of_fetch hno hsplit]
        exact ⟨pre', _, rfl, h.statusReady hzero htells herr⟩
    · intro fuel w' es hrun hes hdevices
      obtain ⟨es', hes', ⟨-, hsame, -⟩ | ⟨-, j, pre, -, -, hfetch, -⟩⟩ :=
        ideIdentify_outcome hch hio hrun
      · exact absurd hsame hdevices
      · obtain rfl : es = es' := hes.unique hes'
        exact ⟨ch.base, hfetch ▸ by simp⟩
    · intro hfinal fuel w' hrun
      obtain ⟨es, hes, ⟨-, hsame, -⟩ | ⟨hzero, j, pre, htells, herr, -⟩⟩ :=
        ideIdentify_outcome hch hio hrun
      · exact hsame
      · have hready := h.statusReady hzero htells herr
        exact absurd (hholds.eq_final hready.1 ▸ hready) hfinal

end Result

/-! ### A device that shows one status -/

/-- A primary master that shows one status for ever; its other registers read as zero. -/
structure SteadyBus where
  /-- The status. -/
  status : UInt8

instance : PortBus SteadyBus where
  inb port b := (if port = 0x1F7 then b.status else 0, b)
  outb _ _ b := b
  insw _ b := (fun _ ↦ 0, b)
  outsw _ _ b := b

/-- The kernel with such a device. -/
def Kernel.steady (v : UInt8) : Kernel (Watched SteadyBus) where
  heap := Heap.boot fun _ ↦ 0
  channels := ideChannels
  ideDevices _ := ⟨0, 0, 0, 0, 0, 0, 0, 0, fun _ ↦ 0⟩
  ideBuf _ := 0
  timerTicks := 0
  io := ⟨⟨v⟩, []⟩

theorem statuses_steady (v : UInt8) (j : ℕ) :
    statuses ((Kernel.steady v).channels 0)
      (identifySent ((Kernel.steady v).channels 0) (0 &&& 1) (Kernel.steady v).io) j = v := by
  have hbus : ∀ j, (statusRead ((Kernel.steady v).channels 0)
      (identifySent ((Kernel.steady v).channels 0) (0 &&& 1) (Kernel.steady v).io) j).bus =
        ⟨v⟩ := by
    intro j
    induction j with
    | zero => rfl
    | succ j ih => exact ih
  exact congrArg SteadyBus.status (hbus j)

theorem holds_steady {v : UInt8} (hv : v &&& ataSrBsy = 0) :
    Holds (statuses ((Kernel.steady v).channels 0)
      (identifySent ((Kernel.steady v).channels 0) (0 &&& 1) (Kernel.steady v).io)) v :=
  ⟨hv, 0, fun j hj ↦ absurd hj (Nat.not_lt_zero j), fun j _ ↦ statuses_steady v j⟩

/-- A device that is ready with its data is entered. -/
theorem trustsValid_ready : TrustsValid 0 0 0x58 (Kernel.steady 0x58) := by
  refine (trustsValid_iff (holds_steady (by decide))).2 (Or.inr ⟨1, ⟨Nat.one_pos, ?_, ?_⟩, ?_⟩)
  · intro i hi hlt
    omega
  · rw [statuses_steady]
    decide
  · rw [statuses_steady]
    exact Or.inr ⟨by decide, by decide, by decide, by decide⟩

/-- A device that ends idle is waited for. -/
theorem not_trustsValid_idle :
    Holds (statuses ((Kernel.steady 0x50).channels 0)
      (identifySent ((Kernel.steady 0x50).channels 0) (0 &&& 1) (Kernel.steady 0x50).io)) 0x50 ∧
      ¬ TrustsValid 0 0 0x50 (Kernel.steady 0x50) := by
  refine ⟨holds_steady (by decide), ?_⟩
  intro h
  obtain ⟨fuel, w', hrun⟩ := h.returns
  obtain ⟨j, htells, -⟩ := ideIdentify_tells rfl rfl (by rw [statuses_steady]; decide) hrun
  have hsays := htells.tells
  rw [statuses_steady] at hsays
  exact absurd hsays (by decide)
