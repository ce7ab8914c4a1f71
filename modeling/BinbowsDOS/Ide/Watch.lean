import BinbowsDOS.Ide.Frame

/-!
# Port traffic

What the driver asks of a device shows in the traffic on the ports: which ports it uses, what it
does after which status, how much data it moves. `Watched σ` is the bus `σ` with a log: it
answers as `σ` does and records every access. `Emits` says which accesses a run has made.

The second half says what the driver's programs put into the log, program by program, as
inductive predicates that follow the loops: `Polled` for `ide_polling`, `SectorsOut` and
`ChunksOut` for the two loops of a write, `SectorsIn` for the loop of a read. They leave open
what the ports answer, so they cover every device.
-/

/-- An access to a port: the byte read, or the byte written and the bus after it. -/
inductive PortEvent (σ : Type) where
  /-- A byte read. -/
  | inb (port : ℕ) (value : UInt8)
  /-- A byte written. -/
  | outb (port : ℕ) (data : UInt8) (after : σ)
  /-- A sector read. -/
  | insw (port : ℕ)
  /-- A sector written. -/
  | outsw (port : ℕ) (after : σ)

/-- The port accessed. -/
def PortEvent.port {σ : Type} : PortEvent σ → ℕ
  | .inb port _ => port
  | .outb port _ _ => port
  | .insw port => port
  | .outsw port _ => port

/-- A bus with a log of the accesses to it, the oldest first. -/
structure Watched (σ : Type) where
  /-- The bus. -/
  bus : σ
  /-- The log. -/
  log : List (PortEvent σ)

instance {σ : Type} [PortBus σ] : PortBus (Watched σ) where
  inb port b :=
    ((PortBus.inb port b.bus).1,
      ⟨(PortBus.inb port b.bus).2, b.log ++ [.inb port (PortBus.inb port b.bus).1]⟩)
  outb port data b :=
    ⟨PortBus.outb port data b.bus,
      b.log ++ [.outb port data (PortBus.outb port data b.bus)]⟩
  insw port b :=
    ((PortBus.insw port b.bus).1, ⟨(PortBus.insw port b.bus).2, b.log ++ [.insw port]⟩)
  outsw port s b :=
    ⟨PortBus.outsw port s b.bus, b.log ++ [.outsw port (PortBus.outsw port s b.bus)]⟩

namespace Kernel

variable {σ : Type} {w w' w'' : Kernel (Watched σ)} {es es' : List (PortEvent σ)}

/-- Between two states the log has grown by `es`. -/
def Emits (w : Kernel (Watched σ)) (es : List (PortEvent σ)) (w' : Kernel (Watched σ)) : Prop :=
  w'.io.log = w.io.log ++ es

theorem Emits.refl (w : Kernel (Watched σ)) : Emits w [] w := (List.append_nil _).symm

theorem Emits.trans (h₁ : Emits w es w') (h₂ : Emits w' es' w'') : Emits w (es ++ es') w'' := by
  rw [Emits, h₂, h₁, List.append_assoc]

/-- The accesses between two states are determined. -/
theorem Emits.unique (h₁ : Emits w es w') (h₂ : Emits w es' w') : es = es' :=
  List.append_cancel_left (h₁.symm.trans h₂)

/-- The kernel on the bus itself. -/
def unwatch {σ : Type} (w : Kernel (Watched σ)) : Kernel σ where
  heap := w.heap
  channels := w.channels
  ideDevices := w.ideDevices
  ideBuf := w.ideBuf
  timerTicks := w.timerTicks
  io := w.io.bus

/-- The kernel with a log on its bus. -/
def watch {σ : Type} (w : Kernel σ) : Kernel (Watched σ) where
  heap := w.heap
  channels := w.channels
  ideDevices := w.ideDevices
  ideBuf := w.ideBuf
  timerTicks := w.timerTicks
  io := ⟨w.io, []⟩

end Kernel

open Kernel Prog

/-! ### What the traffic of a program looks like -/

section Traffic

variable {σ : Type} (ch : IdeChannel)

/-- Reads of the alternate status, with their answers. -/
def altReads (vs : List UInt8) : List (PortEvent σ) := vs.map (.inb (ch.port ataRegAltStatus))

/-- Reads of the status until it is not busy; `v` is the first status that is not. -/
inductive Awaited : List (PortEvent σ) → UInt8 → Prop
  | ready {v : UInt8} (hv : v &&& ataSrBsy = 0) : Awaited [.inb (ch.port ataRegStatus) v] v
  | busy {s v : UInt8} {es : List (PortEvent σ)} (hs : s &&& ataSrBsy ≠ 0)
      (hes : Awaited es v) : Awaited (.inb (ch.port ataRegStatus) s :: es) v

/-- The traffic of `ide_polling` up to the end of BSY, where the status is `v`. -/
inductive Polled : List (PortEvent σ) → UInt8 → Prop
  | mk {vs : List UInt8} {es : List (PortEvent σ)} {v : UInt8} (hvs : vs.length = 4)
      (hes : Awaited ch es v) : Polled (altReads ch vs ++ es) v

/-- The register writes that begin a transfer, for a sector count and a command. -/
inductive SetUp (count : ℕ) (command : UInt8) : List (PortEvent σ) → Prop
  | mk (head lba0 lba1 lba2 : UInt8) (a₁ a₂ a₃ a₄ a₅ a₆ : σ) : SetUp count command
      [.outb (ch.port ataRegHdDevSel) head a₁,
        .outb (ch.port ataRegSecCount0) (UInt8.ofNat count) a₂,
        .outb (ch.port ataRegLba0) lba0 a₃, .outb (ch.port ataRegLba1) lba1 a₄,
        .outb (ch.port ataRegLba2) lba2 a₅, .outb (ch.port ataRegCommand) command a₆]

/-- The loop over the `n` sectors of a chunk; `vs` are the statuses at the end of the polls. -/
inductive SectorsOut : ℕ → List (PortEvent σ) → List UInt8 → Prop
  | zero : SectorsOut 0 [] []
  | succ {n : ℕ} {p es : List (PortEvent σ)} {v : UInt8} {vs : List UInt8} (after : σ)
      (hp : Polled ch p v) (hes : SectorsOut n es vs) :
      SectorsOut (n + 1) (p ++ .outsw ch.base after :: es) (v :: vs)

/-- The sectors that the next pass of the chunk loop takes, with `n` to go. -/
def chunkSize (n : ℕ) : ℕ := min 256 n

/-- The loop over the chunks of a write of `n` sectors; `vs` are the statuses at the end of the
polls. -/
inductive ChunksOut : ℕ → List (PortEvent σ) → List UInt8 → Prop
  | zero : ChunksOut 0 [] []
  | succ {n count : ℕ} {setup out p es : List (PortEvent σ)} {v : UInt8} {vs vs' : List UInt8}
      (after : σ) (hn : 0 < n) (hcount : count < 256)
      (hchunk : (if count = 0 then 256 else count) = chunkSize n)
      (hsetup : SetUp ch count ataCmdWritePio setup) (hout : SectorsOut ch (chunkSize n) out vs)
      (hp : Polled ch p v) (hes : ChunksOut (n - chunkSize n) es vs') :
      ChunksOut n (setup ++ (out ++ .outb (ch.port ataRegCommand) ataCmdCacheFlush after ::
        (p ++ es))) (vs ++ v :: vs')

/-- The loop over the `n` sectors of a read that succeeds. -/
inductive SectorsIn : ℕ → List (PortEvent σ) → Prop
  | zero : SectorsIn 0 []
  | succ {n : ℕ} {p es : List (PortEvent σ)} {v s : UInt8} (hp : Polled ch p v)
      (hes : SectorsIn n es) :
      SectorsIn (n + 1) (p ++ .inb (ch.port ataRegStatus) s :: .insw ch.base :: es)

end Traffic

/-- The sectors that go out. -/
def sectorsSent {σ : Type} (es : List (PortEvent σ)) : ℕ :=
  es.countP fun
    | .outsw _ _ => true
    | _ => false

section Sent

variable {σ : Type} {ch : IdeChannel} {n count : ℕ} {command v : UInt8}
  {es es' : List (PortEvent σ)} {vs : List UInt8}

theorem sectorsSent_append : sectorsSent (es ++ es') = sectorsSent es + sectorsSent es' :=
  List.countP_append

theorem SetUp.sectorsSent_eq (h : SetUp ch count command es) : sectorsSent es = 0 := by
  cases h
  rfl

theorem Awaited.sectorsSent_eq (h : Awaited ch es v) : sectorsSent es = 0 := by
  induction h with
  | ready => rfl
  | busy _ _ ih => exact ih

theorem Polled.sectorsSent_eq (h : Polled ch es v) : sectorsSent es = 0 := by
  obtain ⟨-, hes⟩ := h
  rw [sectorsSent_append, hes.sectorsSent_eq, sectorsSent, altReads, List.countP_map]
  exact List.countP_eq_zero.2 fun _ _ ↦ Bool.false_ne_true

theorem SectorsOut.sectorsSent_eq (h : SectorsOut ch n es vs) : sectorsSent es = n := by
  induction h with
  | zero => rfl
  | @succ n p es v vs after hp hes ih =>
    rw [sectorsSent_append, hp.sectorsSent_eq, Nat.zero_add]
    show List.countP _ (_ :: es) = n + 1
    rw [List.countP_cons_of_pos rfl]
    exact congrArg (· + 1) ih

/-- The chunks of a write of `n` sectors take out `n` sectors. -/
theorem ChunksOut.sectorsSent_eq (h : ChunksOut ch n es vs) : sectorsSent es = n := by
  induction h with
  | zero => rfl
  | @succ n count setup out p es v vs vs' after hn hcount hchunk hsetup hout hp hes ih =>
    rw [sectorsSent_append, hsetup.sectorsSent_eq, sectorsSent_append, hout.sectorsSent_eq]
    show 0 + (chunkSize n + List.countP _ (_ :: (p ++ es))) = n
    rw [List.countP_cons_of_neg (by simp)]
    show 0 + (chunkSize n + sectorsSent (p ++ es)) = n
    rw [sectorsSent_append, hp.sectorsSent_eq, ih, chunkSize]
    omega

end Sent

/-! ### The programs make this traffic -/

section Programs

variable {σ : Type} [PortBus σ] {w w' : Kernel (Watched σ)} {ch : IdeChannel}
  {channel bus reg fuel n r : ℕ}

theorem inb_emits {port : ℕ} {v : UInt8} (h : Runs (inb port) w v w') :
    w.Emits [.inb port v] w' := by
  obtain ⟨rfl, rfl⟩ := Prod.mk.inj (Option.some.inj h)
  rfl

theorem outb_emits {port : ℕ} {data : UInt8} {u : Unit} (h : Runs (outb port data) w u w') :
    w.Emits [.outb port data w'.io.bus] w' := by
  obtain ⟨-, rfl⟩ := Prod.mk.inj (Option.some.inj h)
  rfl

theorem insw_emits {port addr : ℕ} {u : Unit} (h : Runs (insw port addr) w u w') :
    w.Emits [.insw port] w' := by
  obtain ⟨-, rfl⟩ := Prod.mk.inj (Option.some.inj h)
  rfl

theorem outsw_emits {port addr : ℕ} {u : Unit} (h : Runs (outsw port addr) w u w') :
    w.Emits [.outsw port w'.io.bus] w' := by
  obtain ⟨-, rfl⟩ := Prod.mk.inj (Option.some.inj h)
  rfl

/-- Outside the high-order registers a register access is one port access. -/
theorem ideRead_emits {v : UInt8} (hreg : ¬ (0x07 < reg ∧ reg < 0x0C))
    (h : Runs (ideRead channel reg) w v w') :
    w.Emits [.inb ((w.channels channel).port reg) v] w' := by
  rw [ideRead, ideSelectHob, if_neg hreg] at h
  exact inb_emits h

theorem ideWrite_emits {data : UInt8} {u : Unit} (hreg : ¬ (0x07 < reg ∧ reg < 0x0C))
    (h : Runs (ideWrite channel reg data) w u w') :
    w.Emits [.outb ((w.channels channel).port reg) data w'.io.bus] w' := by
  rw [ideWrite, ideSelectHob, if_neg hreg] at h
  exact outb_emits h

theorem ideRead_channels {v : UInt8} (h : Runs (ideRead channel reg) w v w') :
    w'.channels = w.channels := ((ideRead_respects portAccess_portsOnly _ _).run h).channels_eq

theorem ideWrite_channels {data : UInt8} {u : Unit} (h : Runs (ideWrite channel reg data) w u w') :
    w'.channels = w.channels := ((ideWrite_respects portAccess_portsOnly _ _ _).run h).channels_eq

theorem readAltStatus_emits {u : Unit} (hch : w.channels channel = ch)
    (h : Runs (readAltStatus channel n) w u w') :
    ∃ vs, vs.length = n ∧ w.Emits (altReads ch vs) w' := by
  induction n generalizing w with
  | zero =>
    obtain ⟨-, rfl⟩ := runs_pure.1 h
    exact ⟨[], rfl, Emits.refl _⟩
  | succ n ih =>
    obtain ⟨v, t, hread, h⟩ := runs_bind.1 h
    obtain ⟨vs, hvs, hrest⟩ := ih (ideRead_channels hread ▸ hch) h
    have hfirst := ideRead_emits (by decide) hread
    rw [hch] at hfirst
    exact ⟨v :: vs, congrArg Nat.succ hvs, hfirst.trans hrest⟩

theorem waitWhileBusy_emits {u : Unit} (hch : w.channels channel = ch)
    (h : Runs (waitWhileBusy channel fuel) w u w') :
    ∃ es v, Awaited ch es v ∧ w.Emits es w' := by
  induction fuel generalizing w with
  | zero => simp [Runs, waitWhileBusy] at h
  | succ fuel ih =>
    obtain ⟨v, t, hread, h⟩ := runs_bind.1 h
    have hfirst := ideRead_emits (by decide) hread
    rw [hch] at hfirst
    split at h
    case isTrue hbusy =>
      obtain ⟨es, v', hes, hrest⟩ := ih (ideRead_channels hread ▸ hch) h
      exact ⟨_, v', Awaited.busy hbusy hes, hfirst.trans hrest⟩
    case isFalse hready =>
      obtain ⟨-, rfl⟩ := runs_pure.1 h
      exact ⟨_, v, Awaited.ready (not_not.1 hready), hfirst⟩

/-- The traffic of `ide_polling`: one more read of the status if it is to be checked. -/
theorem idePolling_emits {check : ℕ} (hch : w.channels channel = ch)
    (h : Runs (idePolling fuel channel check) w r w') :
    ∃ es v, Polled ch es v ∧ (check = 0 → w.Emits es w') ∧
      (check ≠ 0 → ∃ s, w.Emits (es ++ [.inb (ch.port ataRegStatus) s]) w') := by
  obtain ⟨_, t, halt, h⟩ := runs_bind.1 h
  obtain ⟨_, t', hwait, h⟩ := runs_bind.1 h
  have ht : t.channels = w.channels :=
    ((readAltStatus_respects portAccess_portsOnly _ _).run halt).channels_eq
  have ht' : t'.channels = t.channels :=
    ((waitWhileBusy_respects portAccess_portsOnly _ _).run hwait).channels_eq
  obtain ⟨vs, hvs, halt⟩ := readAltStatus_emits hch halt
  obtain ⟨es, v, hes, hwait⟩ := waitWhileBusy_emits (ht ▸ hch) hwait
  have hpoll := halt.trans hwait
  refine ⟨_, v, Polled.mk hvs hes, ?_, ?_⟩
  · intro hcheck
    rw [if_neg (not_not.2 hcheck)] at h
    obtain ⟨-, rfl⟩ := runs_pure.1 h
    exact hpoll
  · intro hcheck
    rw [if_pos hcheck] at h
    obtain ⟨s, t'', hread, h⟩ := runs_bind.1 h
    have hs := ideRead_emits (by decide) hread
    rw [ht', ht, hch] at hs
    have hend : t'' = w' := by
      split_ifs at h <;> exact (runs_pure.1 h).2
    exact ⟨s, hend ▸ hpoll.trans hs⟩

theorem ideSetup_emits {slavebit head count lba0 lba1 lba2 : ℕ} {command : UInt8} {u : Unit}
    (hch : w.channels channel = ch)
    (h : Runs (ideSetup channel slavebit head count lba0 lba1 lba2 command) w u w') :
    ∃ es, SetUp ch count command es ∧ w.Emits es w' := by
  have hwrite : ∀ {s s' : Kernel (Watched σ)} {reg : ℕ} {v : UInt8} {a : Unit},
      s.channels channel = ch → reg < 8 → Runs (ideWrite channel reg v) s a s' →
      s'.channels channel = ch ∧ s.Emits [.outb (ch.port reg) v s'.io.bus] s' := by
    intro s s' reg v a hs hreg hrun
    refine ⟨ideWrite_channels hrun ▸ hs, ?_⟩
    rw [← hs]
    exact ideWrite_emits (by omega) hrun
  rw [ideSetup, timerWaitMs_one] at h
  obtain ⟨_, s₁, hrun, h⟩ := runs_bind.1 h
  obtain ⟨h₁, e₁⟩ := hwrite hch (by decide) hrun
  rw [pure_bind] at h
  obtain ⟨_, s₂, hrun, h⟩ := runs_bind.1 h
  obtain ⟨h₂, e₂⟩ := hwrite h₁ (by decide) hrun
  obtain ⟨_, s₃, hrun, h⟩ := runs_bind.1 h
  obtain ⟨h₃, e₃⟩ := hwrite h₂ (by decide) hrun
  obtain ⟨_, s₄, hrun, h⟩ := runs_bind.1 h
  obtain ⟨h₄, e₄⟩ := hwrite h₃ (by decide) hrun
  obtain ⟨_, s₅, hrun, h⟩ := runs_bind.1 h
  obtain ⟨h₅, e₅⟩ := hwrite h₄ (by decide) hrun
  obtain ⟨-, e₆⟩ := hwrite h₅ (by decide) h
  exact ⟨_, SetUp.mk _ _ _ _ _ _ _ _ _ _, e₁.trans <| e₂.trans <| e₃.trans <| e₄.trans <|
    e₅.trans e₆⟩

/-! ### Transfers -/

theorem writeSectorsLoop_emits {data i : ℕ} (hch : w.channels channel = ch)
    (h : Runs (writeSectorsLoop fuel channel ch.base data i n) w r w') :
    ∃ es vs, SectorsOut ch n es vs ∧ w.Emits es w' := by
  induction n generalizing w i with
  | zero =>
    obtain ⟨-, rfl⟩ := runs_pure.1 h
    exact ⟨[], [], SectorsOut.zero, Emits.refl _⟩
  | succ n ih =>
    obtain ⟨err, t, hpoll, h⟩ := runs_bind.1 h
    rw [idePolling_zero_result hpoll, if_neg (by simp)] at h
    obtain ⟨_, t', hout, h⟩ := runs_bind.1 h
    have ht : t.channels = w.channels :=
      ((idePolling_respects portAccess_portsOnly _ _ _).run hpoll).channels_eq
    have ht' : t'.channels = t.channels := ((portAccess_portsOnly.outsw _ _).run hout).channels_eq
    obtain ⟨p, v, hp, hpoll, -⟩ := idePolling_emits hch hpoll
    obtain ⟨es, vs, hes, hrest⟩ := ih (ht' ▸ ht ▸ hch) h
    exact ⟨_, v :: vs, SectorsOut.succ _ hp hes,
      (hpoll rfl).trans ((outsw_emits hout).trans hrest)⟩

/-- A chunk takes what `chunkSize` says, and its count is written as a byte. -/
theorem chunkSize_eq (hn : n ≠ 0) :
    (if 256 ≤ n then 0 else u8 n) < 256 ∧
      (if (if 256 ≤ n then 0 else u8 n) = 0 then 256 else (if 256 ≤ n then 0 else u8 n)) =
        chunkSize n := by
  rw [u8, chunkSize]
  split <;> split <;> omega

/-- A write stops at an address that is too large, or sends all its sectors. -/
theorem writeChunksLoop_emits {drive data passes written lba : ℕ}
    (hch : w.channels (w.ideDevices drive).channel = ch)
    (h : Runs (writeChunksLoop fuel drive data passes written n lba) w r w') :
    ∃ es, w.Emits es w' ∧ (r = 3 ∨ r = 0 ∧ ∃ vs, ChunksOut ch n es vs) := by
  induction passes generalizing w written n lba with
  | zero =>
    rw [writeChunksLoop] at h
    split at h
    case isTrue hn =>
      obtain ⟨hr, rfl⟩ := runs_pure.1 h
      exact ⟨[], Emits.refl _, Or.inr ⟨hr.symm, [], hn ▸ ChunksOut.zero⟩⟩
    case isFalse => simp [Runs] at h
  | succ passes ih =>
    rw [writeChunksLoop] at h
    rcases eq_or_ne n 0 with rfl | hn
    · rw [if_pos rfl] at h
      obtain ⟨hr, rfl⟩ := runs_pure.1 h
      exact ⟨[], Emits.refl _, Or.inr ⟨hr.symm, [], ChunksOut.zero⟩⟩
    rw [if_neg hn] at h
    split at h
    case isTrue =>
      obtain ⟨hr, rfl⟩ := runs_pure.1 h
      exact ⟨[], Emits.refl _, Or.inl hr.symm⟩
    case isFalse =>
      obtain ⟨hcount, hchunk⟩ := chunkSize_eq hn
      rw [runs_get_bind] at h
      simp only [hchunk] at h
      obtain ⟨_, t₁, hsetup, h⟩ := runs_bind.1 h
      obtain ⟨err, t₂, hloop, h⟩ := runs_bind.1 h
      rw [writeSectorsLoop_result hloop, if_neg (by simp)] at h
      obtain ⟨_, t₃, hflush, h⟩ := runs_bind.1 h
      obtain ⟨err, t₄, hpoll, h⟩ := runs_bind.1 h
      rw [idePolling_zero_result hpoll, if_neg (by simp)] at h
      -- `channels` and the device table stay as they are, so every pass uses the same ports
      have p₁ := (ideSetup_respects portAccess_portsOnly _ _ _ _ _ _ _ _).run hsetup
      have p₂ := p₁.trans ((writeSectorsLoop_respects portAccess_portsOnly _ _ _ _ _ _).run hloop)
      have p₃ := p₂.trans ((ideWrite_respects portAccess_portsOnly _ _ _).run hflush)
      have p₄ := p₃.trans ((idePolling_respects portAccess_portsOnly _ _ _).run hpoll)
      obtain ⟨setup, hs, hsetup⟩ := ideSetup_emits hch hsetup
      rw [hch] at hloop
      obtain ⟨out, vs, ho, hloop⟩ := writeSectorsLoop_emits (p₁.channels_eq ▸ hch) hloop
      have hflush := ideWrite_emits (by decide) hflush
      rw [p₂.channels_eq, hch] at hflush
      obtain ⟨p, v, hp, hpoll, -⟩ := idePolling_emits (p₃.channels_eq ▸ hch) hpoll
      have hch' : t₄.channels (t₄.ideDevices drive).channel = ch := by
        rw [p₄.channels_eq, p₄.ideDevices_eq, hch]
      obtain ⟨es, hrest, hend⟩ := ih hch' h
      refine ⟨setup ++ (out ++ .outb (ch.port ataRegCommand) ataCmdCacheFlush t₃.io.bus ::
        (p ++ es)), hsetup.trans (hloop.trans (hflush.trans ((hpoll rfl).trans hrest))),
        hend.imp_right ?_⟩
      rintro ⟨hr, vs', hes⟩
      exact ⟨hr, _, ChunksOut.succ _ (Nat.pos_of_ne_zero hn) hcount hchunk hs ho hp hes⟩

/-- The traffic of a write to a present drive. -/
theorem ideWriteSectorsCounted_emits {drive lba buf : ℕ}
    (hch : w.channels (w.ideDevices drive).channel = ch) (hdrive : drive < 4)
    (hpresent : (w.ideDevices drive).reserved ≠ 0)
    (h : Runs (ideWriteSectorsCounted fuel drive lba (512 * n) buf) w r w') :
    ∃ es, w.Emits es w' ∧ (r = 3 ∨ r = 0 ∧ ∃ vs, ChunksOut ch n es vs) := by
  rw [ideWriteSectorsCounted, runs_get_bind, if_neg (by omega)] at h
  rcases eq_or_ne n 0 with rfl | hn
  · rw [if_pos (Nat.mul_zero 512)] at h
    obtain ⟨hr, rfl⟩ := runs_pure.1 h
    exact ⟨[], Emits.refl _, Or.inr ⟨hr.symm, [], ChunksOut.zero⟩⟩
  · rw [if_neg (by omega), if_neg (by omega), Nat.mul_div_cancel_left n (by decide)] at h
    exact writeChunksLoop_emits hch h

theorem readSectorsLoop_emits {buf i : ℕ} (hch : w.channels channel = ch)
    (h : Runs (readSectorsLoop fuel channel ch.base buf i n) w 0 w') :
    ∃ es, SectorsIn ch n es ∧ w.Emits es w' := by
  induction n generalizing w i with
  | zero =>
    obtain ⟨-, rfl⟩ := runs_pure.1 h
    exact ⟨[], SectorsIn.zero, Emits.refl _⟩
  | succ n ih =>
    obtain ⟨err, t, hpoll, h⟩ := runs_bind.1 h
    split at h
    case isTrue herr => exact absurd (runs_pure.1 h).1 herr
    case isFalse =>
      obtain ⟨_, t', hin, h⟩ := runs_bind.1 h
      have ht : t.channels = w.channels :=
        ((idePolling_respects portAccess_portsOnly _ _ _).run hpoll).channels_eq
      have ht' : t'.channels = t.channels := by
        rw [((insw_respects _ _).run hin).1]
        rfl
      obtain ⟨p, v, hp, -, hpoll⟩ := idePolling_emits hch hpoll
      obtain ⟨s, hpoll⟩ := hpoll one_ne_zero
      obtain ⟨es, hes, hrest⟩ := ih (ht' ▸ ht ▸ hch) h
      refine ⟨_, SectorsIn.succ (s := s) hp hes, ?_⟩
      have hall := hpoll.trans ((insw_emits hin).trans hrest)
      rwa [List.append_assoc] at hall

/-- The traffic of a read from a present drive that succeeds. -/
theorem ideReadSectors_emits {drive lba buf : ℕ}
    (hch : w.channels (w.ideDevices drive).channel = ch)
    (hpresent : ¬ (3 < drive ∨ (w.ideDevices drive).reserved = 0))
    (h : Runs (ideReadSectors fuel drive n lba buf) w 0 w') :
    ∃ setup es, SetUp ch n ataCmdReadPio setup ∧ SectorsIn ch n es ∧ w.Emits (setup ++ es) w' := by
  rw [ideReadSectors, runs_get_bind, if_neg hpresent] at h
  dsimp only at h
  rw [hch] at h
  have hrun : ∃ head l₀ l₁ l₂ t, Runs (ideSetup (w.ideDevices drive).channel
      (w.ideDevices drive).drive head n l₀ l₁ l₂ ataCmdReadPio) w () t ∧
      Runs (readSectorsLoop fuel (w.ideDevices drive).channel ch.base buf 0 n) t 0 w' := by
    split at h
    all_goals
      obtain ⟨_, t, hsetup, hloop⟩ := runs_bind.1 h
      exact ⟨_, _, _, _, t, hsetup, hloop⟩
  obtain ⟨_, _, _, _, t, hsetup, hloop⟩ := hrun
  have ht : t.channels = w.channels :=
    ((ideSetup_respects portAccess_portsOnly _ _ _ _ _ _ _ _).run hsetup).channels_eq
  obtain ⟨setup, hs, hsetup⟩ := ideSetup_emits hch hsetup
  obtain ⟨es, hes, hloop⟩ := readSectorsLoop_emits (ht ▸ hch) hloop
  exact ⟨setup, es, hs, hes, hsetup.trans hloop⟩

end Programs

/-! ### The log is only watched -/

section Projection

variable {σ : Type} [PortBus σ]

theorem ideSelectHob_projects (channel reg : ℕ) :
    Projects unwatch (ideSelectHob channel reg : KernelM (Watched σ) Unit)
      (ideSelectHob channel reg) :=
  projects_ite (projects_get_bind fun _ _ ↦ rfl) (projects_pure ())

theorem ideRead_projects (channel reg : ℕ) :
    Projects unwatch (ideRead channel reg : KernelM (Watched σ) UInt8) (ideRead channel reg) :=
  projects_bind (ideSelectHob_projects channel reg) fun _ ↦ projects_get_bind fun _ _ ↦ rfl

theorem ideWrite_projects (channel reg : ℕ) (data : UInt8) :
    Projects unwatch (ideWrite channel reg data : KernelM (Watched σ) Unit)
      (ideWrite channel reg data) :=
  projects_bind (ideSelectHob_projects channel reg) fun _ ↦ projects_get_bind fun _ _ ↦ rfl

theorem readAltStatus_projects (channel n : ℕ) :
    Projects unwatch (readAltStatus channel n : KernelM (Watched σ) Unit)
      (readAltStatus channel n) := by
  induction n with
  | zero => exact projects_pure ()
  | succ n ih => exact projects_bind (ideRead_projects _ _) fun _ ↦ ih

theorem waitWhileBusy_projects (channel fuel : ℕ) :
    Projects unwatch (waitWhileBusy channel fuel : KernelM (Watched σ) Unit)
      (waitWhileBusy channel fuel) := by
  induction fuel with
  | zero => exact projects_diverge
  | succ fuel ih =>
    exact projects_bind (ideRead_projects _ _) fun _ ↦ projects_ite ih (projects_pure ())

theorem idePolling_projects (fuel channel check : ℕ) :
    Projects unwatch (idePolling fuel channel check : KernelM (Watched σ) ℕ)
      (idePolling fuel channel check) :=
  projects_bind (readAltStatus_projects _ _) fun _ ↦
    projects_bind (waitWhileBusy_projects _ _) fun _ ↦
      projects_ite
        (projects_bind (ideRead_projects _ _) fun _ ↦
          projects_ite (projects_pure _) <| projects_ite (projects_pure _) <|
            projects_ite (projects_pure _) (projects_pure _))
        (projects_pure _)

theorem ideSetup_projects (channel slavebit head count lba0 lba1 lba2 : ℕ) (command : UInt8) :
    Projects unwatch
      (ideSetup channel slavebit head count lba0 lba1 lba2 command : KernelM (Watched σ) Unit)
      (ideSetup channel slavebit head count lba0 lba1 lba2 command) :=
  projects_bind (ideWrite_projects _ _ _) fun _ ↦ projects_bind (projects_pure ()) fun _ ↦
    projects_bind (ideWrite_projects _ _ _) fun _ ↦
      projects_bind (ideWrite_projects _ _ _) fun _ ↦
        projects_bind (ideWrite_projects _ _ _) fun _ ↦
          projects_bind (ideWrite_projects _ _ _) fun _ ↦ ideWrite_projects _ _ _

theorem readSectorsLoop_projects (fuel channel bus buf i n : ℕ) :
    Projects unwatch (readSectorsLoop fuel channel bus buf i n : KernelM (Watched σ) ℕ)
      (readSectorsLoop fuel channel bus buf i n) := by
  induction n generalizing i with
  | zero => exact projects_pure 0
  | succ n ih =>
    exact projects_bind (idePolling_projects _ _ _) fun _ ↦
      projects_ite (projects_pure _) (projects_bind (fun _ ↦ rfl) fun _ ↦ ih _)

theorem ideReadSectors_projects (fuel drive numsects lba buf : ℕ) :
    Projects unwatch (ideReadSectors fuel drive numsects lba buf : KernelM (Watched σ) ℕ)
      (ideReadSectors fuel drive numsects lba buf) :=
  projects_get_bind fun _ ↦ projects_ite (projects_pure _) <|
    projects_ite
      (projects_bind (ideSetup_projects _ _ _ _ _ _ _ _) fun _ ↦
        readSectorsLoop_projects _ _ _ _ _ _)
      (projects_bind (ideSetup_projects _ _ _ _ _ _ _ _) fun _ ↦
        readSectorsLoop_projects _ _ _ _ _ _)

theorem writeSectorsLoop_projects (fuel channel bus data i n : ℕ) :
    Projects unwatch (writeSectorsLoop fuel channel bus data i n : KernelM (Watched σ) ℕ)
      (writeSectorsLoop fuel channel bus data i n) := by
  induction n generalizing i with
  | zero => exact projects_pure 0
  | succ n ih =>
    exact projects_bind (idePolling_projects _ _ _) fun _ ↦
      projects_ite (projects_pure _) (projects_bind (fun _ ↦ rfl) fun _ ↦ ih _)

theorem writeChunksLoop_projects (fuel drive data passes written remaining lba : ℕ) :
    Projects unwatch
      (writeChunksLoop fuel drive data passes written remaining lba : KernelM (Watched σ) ℕ)
      (writeChunksLoop fuel drive data passes written remaining lba) := by
  induction passes generalizing written remaining lba with
  | zero => exact projects_ite (projects_pure 0) projects_diverge
  | succ passes ih =>
    exact projects_ite (projects_pure 0) <| projects_ite (projects_pure 3) <|
      projects_get_bind fun _ ↦ projects_bind (ideSetup_projects _ _ _ _ _ _ _ _) fun _ ↦
        projects_bind (writeSectorsLoop_projects _ _ _ _ _ _) fun _ ↦
          projects_ite (projects_pure _) <| projects_bind (ideWrite_projects _ _ _) fun _ ↦
            projects_bind (idePolling_projects _ _ _) fun _ ↦
              projects_ite (projects_pure _) (ih _ _ _)

theorem ideWriteSectorsCounted_projects (fuel drive startLba byteCount buf : ℕ) :
    Projects unwatch
      (ideWriteSectorsCounted fuel drive startLba byteCount buf : KernelM (Watched σ) ℕ)
      (ideWriteSectorsCounted fuel drive startLba byteCount buf) :=
  projects_get_bind fun _ ↦ projects_ite (projects_pure _) <| projects_ite (projects_pure _) <|
    projects_ite (projects_pure _) (writeChunksLoop_projects _ _ _ _ _ _ _)

theorem statusWhileBusy_projects (channel fuel : ℕ) (status : UInt8) :
    Projects unwatch (statusWhileBusy channel fuel status : KernelM (Watched σ) UInt8)
      (statusWhileBusy channel fuel status) := by
  induction fuel generalizing status with
  | zero => exact projects_diverge
  | succ fuel ih =>
    exact projects_ite (projects_bind (ideRead_projects _ _) fun _ ↦ ih _) (projects_pure _)

theorem ideDeviceExists_projects (fuel channel drive : ℕ) :
    Projects unwatch (ideDeviceExists fuel channel drive : KernelM (Watched σ) ℕ)
      (ideDeviceExists fuel channel drive) :=
  projects_ite (projects_pure _) <| projects_ite (projects_pure _) <|
    projects_bind (ideWrite_projects _ _ _) fun _ ↦
      projects_bind (readAltStatus_projects _ _) fun _ ↦
        projects_bind (ideRead_projects _ _) fun _ ↦ projects_ite (projects_pure _) <|
          projects_bind (ideWrite_projects _ _ _) fun _ ↦
            projects_bind (readAltStatus_projects _ _) fun _ ↦
              projects_bind (ideRead_projects _ _) fun _ ↦ projects_ite (projects_pure _) <|
                projects_bind (statusWhileBusy_projects _ _ _) fun _ ↦
                  projects_ite (projects_pure _) <|
                    projects_bind (ideRead_projects _ _) fun _ ↦
                      projects_bind (ideRead_projects _ _) fun _ ↦ projects_pure _

theorem awaitData_projects (channel fuel : ℕ) :
    Projects unwatch (awaitData channel fuel : KernelM (Watched σ) Bool)
      (awaitData channel fuel) := by
  induction fuel with
  | zero => exact projects_diverge
  | succ fuel ih =>
    exact projects_bind (ideRead_projects _ _) fun _ ↦
      projects_ite (projects_pure _) (projects_ite (projects_pure _) ih)

theorem ideIdentify_projects (fuel channel drive : ℕ) :
    Projects unwatch (ideIdentify fuel channel drive : KernelM (Watched σ) Unit)
      (ideIdentify fuel channel drive) :=
  projects_get_bind fun _ ↦ projects_bind (ideWrite_projects _ _ _) fun _ ↦
    projects_bind (projects_pure ()) fun _ ↦ projects_bind (ideWrite_projects _ _ _) fun _ ↦
      projects_bind (ideWrite_projects _ _ _) fun _ ↦
        projects_bind (ideWrite_projects _ _ _) fun _ ↦
          projects_bind (ideWrite_projects _ _ _) fun _ ↦
            projects_bind (ideWrite_projects _ _ _) fun _ ↦
              projects_bind (projects_pure ()) fun _ ↦
                projects_bind (ideRead_projects _ _) fun _ ↦
                  projects_ite (projects_pure _) <|
                    projects_bind (awaitData_projects _ _) fun _ ↦
                      projects_ite
                        (projects_bind (fun _ ↦ rfl) fun _ ↦ projects_modify fun _ ↦ rfl)
                        (projects_pure _)

theorem ideInitializeLoop_projects (fuel i n : ℕ) :
    Projects unwatch (ideInitializeLoop fuel i n : KernelM (Watched σ) Unit)
      (ideInitializeLoop fuel i n) := by
  have hslot : ∀ i, Projects unwatch (ideInitializeSlot fuel i : KernelM (Watched σ) Unit)
      (ideInitializeSlot fuel i) := fun i ↦
    projects_bind (projects_modify fun _ ↦ rfl) fun _ ↦
      projects_bind (ideDeviceExists_projects _ _ _) fun _ ↦
        projects_ite (projects_pure _) <| projects_ite (projects_pure _) <|
          projects_ite (projects_pure _) (ideIdentify_projects _ _ _)
  induction n generalizing i with
  | zero => exact projects_pure ()
  | succ n ih => exact projects_bind (hslot i) fun _ ↦ ih _

theorem ideInitialize_projects (fuel : ℕ) :
    Projects unwatch (ideInitialize fuel : KernelM (Watched σ) Unit) (ideInitialize fuel) :=
  projects_bind (projects_modify fun _ ↦ rfl) fun _ ↦
    projects_bind (ideWrite_projects _ _ _) fun _ ↦
      projects_bind (ideWrite_projects _ _ _) fun _ ↦ ideInitializeLoop_projects _ _ _

end Projection
