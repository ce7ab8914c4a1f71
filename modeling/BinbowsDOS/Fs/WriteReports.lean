import BinbowsDOS.Fs.HalfFormatted
import BinbowsDOS.Ide.WriteStatus

/-!
# What the file system hears of failed writes

`elixir_write_bitmap` and `elixir_format` pass on what `ide_write_sectors_counted` returns, and
that is 0. So they too notice a failure of the device exactly if there is none
(`reportsFailures_iff`); a format may besides fail for lack of memory, with the super block
already sent.
-/

open Arena Prog Kernel

section Reports

variable {σ : Type} [PortBus σ] {w w' : Kernel (Watched σ)} {ch : IdeChannel}
  {fuel drive : ℕ} {es : List (PortEvent σ)}

/-- A call that sends nothing has nothing to report. -/
theorem reportsFailures_nil {ok : Prop} {due : List Bool} {P : Prop} :
    ReportsFailures ch ([] : List (PortEvent σ)) ok ↔
      (P → EndsWell ch ([] : List (PortEvent σ))) ∧
        ReadyWhenDue ch due ([] : List (PortEvent σ)) := by
  have hready : ReadyWhenDue ch due ([] : List (PortEvent σ)) := (guarded_nil due none).1 trivial
  exact ⟨fun _ ↦ ⟨fun _ e he ↦ absurd he List.not_mem_nil, hready⟩,
    fun _ ↦ ⟨trivial, fun ⟨e, he, _⟩ ↦ absurd he List.not_mem_nil⟩⟩

/-- A call that does not return 0 reports everything. -/
theorem reportsFailures_failed {ok : Prop} {due : List Bool} (hok : ¬ ok)
    (hguard : Guarded ch none es ↔ ReadyWhenDue ch due es) :
    ReportsFailures ch es ok ↔ ReadyWhenDue ch due es :=
  ⟨fun h ↦ hguard.1 h.guarded, fun h ↦ ⟨hguard.2 h, fun _ ↦ hok⟩⟩

theorem elixirWriteBitmap_reports {bb : ℕ} {r : ℤ}
    (hch : w.channels (w.ideDevices drive).channel = ch)
    (hne : ch.port ataRegAltStatus ≠ ch.port ataRegStatus) (hdrive : drive < 4)
    (hpresent : (w.ideDevices drive).reserved ≠ 0)
    (h : Runs (elixirWriteBitmap fuel drive bb) w r w') :
    ∃ es, w.Emits es w' ∧ (ReportsFailures ch es (r = 0) ↔ EndsWell ch es ∧
      ReadyWhenDue ch (schedule (bitmapSectors (w.mem.get bb BlockBitmap.total))) es) := by
  rcases eq_or_ne bb 0 with hbb | hbb
  · rw [elixirWriteBitmap, if_pos hbb] at h
    obtain ⟨-, rfl⟩ := runs_pure.1 h
    exact ⟨[], Emits.refl _, by simpa using reportsFailures_nil (P := True)⟩
  rcases eq_or_ne (w.mem.get bb BlockBitmap.bitmap) 0 with hbuf | hbuf
  · rw [elixirWriteBitmap, if_neg hbb, runs_bind_of_runs (getField_apply ..), if_pos hbuf] at h
    obtain ⟨-, rfl⟩ := runs_pure.1 h
    exact ⟨[], Emits.refl _, by simpa using reportsFailures_nil (P := True)⟩
  obtain ⟨err, hwrite, rfl⟩ := (elixirWriteBitmap_runs hbb rfl hbuf rfl).1 h
  rw [Nat.mul_comm] at hwrite
  obtain ⟨rfl, es, vs, hes, hemits⟩ := ideWriteSectorsCounted_sends hch hdrive hpresent
    (bitmapEnd_le _) hwrite
  have hguard := hes.guarded_iff hne [] none
  rw [List.append_nil] at hguard
  exact ⟨es, hemits, reportsFailures_ok rfl hguard⟩

/-- The traffic of the first write of a format. -/
theorem SuperMade.sends {lo hi spb p err : ℕ} {cells cells' : List Cell}
    {w₁ w₂ : Kernel (Watched σ)} (hs : SuperMade lo hi drive cells w spb p cells' w₁)
    (hch : w.channels (w.ideDevices drive).channel = ch)
    (hpresent : (w.ideDevices drive).reserved ≠ 0)
    (hwrite : Runs (ideWriteSectorsCounted fuel drive elixirSuperblockLba sizeofSuperBlock p) w₁
      err w₂) :
    err = 0 ∧ w₂.channels = w.channels ∧ w₂.ideDevices = w.ideDevices ∧
      ∃ es vs, ChunksOut ch 1 es vs ∧ w.Emits es w₂ := by
  have hports := (ideWriteSectorsCounted_respects portAccess_portsOnly _ _ _ _ _).run hwrite
  obtain ⟨herr, es, vs, hes, hemits⟩ := ideWriteSectorsCounted_sends (n := 1)
    (by rw [hs.channels_eq, hs.ideDevices_eq, hch]) hs.drive_lt (hs.ideDevices_eq ▸ hpresent)
    (by decide) hwrite
  rw [Emits, hs.io_eq] at hemits
  exact ⟨herr, hports.channels_eq.trans hs.channels_eq,
    hports.ideDevices_eq.trans hs.ideDevices_eq, es, vs, hes, hemits⟩

/-- What a format reports, in each of the ways it can end. -/
theorem FormatOutcome.reports {lo hi : ℕ} {cells : List Cell} {r : ℤ}
    (hch : w.channels (w.ideDevices drive).channel = ch)
    (hne : ch.port ataRegAltStatus ≠ ch.port ataRegStatus)
    (hpresent : (w.ideDevices drive).reserved ≠ 0) (hinv : HeapInv lo hi w.heap cells)
    (h : FormatOutcome lo hi fuel drive cells w r w') :
    ∃ es, w.Emits es w' ∧ (ReportsFailures ch es (r = 0) ↔
      (w.heap.serves [sizeofSuperBlock, sizeofBlockBitmap, bitmapBytes (w.driveSize drive)] = true →
        EndsWell ch es) ∧
      ReadyWhenDue ch (schedule 1 ++ schedule (bitmapSectors (w.driveSize drive))) es) := by
  cases h with
  | refused => exact ⟨[], Emits.refl _, reportsFailures_nil⟩
  | tooSmall => exact ⟨[], Emits.refl _, reportsFailures_nil⟩
  | superNotWritten hs hwrite herr => exact absurd (hs.sends hch hpresent hwrite).1 herr
  | noBitmap hs hwrite hrefused hend =>
    obtain ⟨-, -, -, es, vs, hes, hemits⟩ := hs.sends hch hpresent hwrite
    have hguard := hes.guarded_iff hne (schedule (bitmapSectors (w.driveSize drive))) none
    refine ⟨es, by rw [Emits, hend.io_eq]; exact hemits, ?_⟩
    rw [reportsFailures_failed (by decide) hguard, (hinv.serves_format hs.alloc).2 hrefused]
    simp
  | @bitmapWritten spb p b q err cells' cells₁ cells₂ w₁ w₂ w₃ w₄ w' hs hwrite hb hwrite' hend =>
    obtain ⟨-, hchannels, hdevices, es, vs, hes, hemits⟩ := hs.sends hch hpresent hwrite
    have hch₃ : w₃.channels (w₃.ideDevices drive).channel = ch := by
      rw [hb.rest]
      show w₂.channels (w₂.ideDevices drive).channel = ch
      rw [hchannels, hdevices, hch]
    have hpresent₃ : (w₃.ideDevices drive).reserved ≠ 0 := by
      rw [hb.rest]
      show (w₂.ideDevices drive).reserved ≠ 0
      rwa [hdevices]
    rw [Nat.mul_comm] at hwrite'
    obtain ⟨rfl, es', vs', hes', hemits'⟩ := ideWriteSectorsCounted_sends hch₃ hs.drive_lt
      hpresent₃ (bitmapEnd_le _) hwrite'
    have hall : w.Emits (es ++ es') w' := by
      rw [Emits, hend.io_eq]
      rw [Emits, hb.io_eq] at hemits'
      exact hemits.trans hemits'
    have hguard' : ∀ last, Guarded ch last es' ↔
        ReadyWhenDue ch (schedule (bitmapSectors (w.driveSize drive))) es' := by
      intro last
      have hguard := hes'.guarded_iff hne [] last
      rwa [List.append_nil] at hguard
    refine ⟨es ++ es', hall, ?_⟩
    have hserves : w.heap.serves
        [sizeofSuperBlock, sizeofBlockBitmap, bitmapBytes (w.driveSize drive)] = true := by
      rw [← Bool.not_eq_false, hinv.serves_format hs.alloc]
      have hsize := (hs.inv_written hwrite).2
      exact hsize ▸ hb.held.toBitmapAllocated.not_refused
    rw [if_neg (by simp), reportsFailures_ok rfl (hes.guarded hne hguard')]
    simp [hserves]

end Reports

/-- **When a call that writes notices failures of the device**: a write exactly if there are none
and the device is ready of its own accord each time a sector is due; the same holds for the
bitmap, and for a format that has the memory for its bitmap. -/
theorem reportsFailures_iff {σ : Type} [PortBus σ] {w : Kernel (Watched σ)} {fuel drive : ℕ}
    (hw : w.Wired) (hdrive : drive < 4) (hpresent : (w.ideDevices drive).reserved ≠ 0) :
    (∀ lba n buf r w', lba + n ≤ 2 ^ 28 →
      Runs (ideWriteSectorsCounted fuel drive lba (512 * n) buf) w r w' →
      ∃ es, w.Emits es w' ∧
        (ReportsFailures (ideChannels (w.ideDevices drive).channel) es (r = 0) ↔
          EndsWell (ideChannels (w.ideDevices drive).channel) es ∧
          ReadyWhenDue (ideChannels (w.ideDevices drive).channel) (schedule n) es)) ∧
    (∀ bb r w', Runs (elixirWriteBitmap fuel drive bb) w r w' →
      ∃ es, w.Emits es w' ∧
        (ReportsFailures (ideChannels (w.ideDevices drive).channel) es (r = 0) ↔
          EndsWell (ideChannels (w.ideDevices drive).channel) es ∧
          ReadyWhenDue (ideChannels (w.ideDevices drive).channel)
            (schedule (bitmapSectors (w.mem.get bb BlockBitmap.total))) es)) ∧
    (∀ base size mem r w', 0x100000 ≤ base → base + size ≤ 2 ^ 32 → RegionAccepted base size →
      HeapReach base size mem w.heap → Runs (elixirFormat fuel drive) w r w' →
      ∃ es, w.Emits es w' ∧
        (ReportsFailures (ideChannels (w.ideDevices drive).channel) es (r = 0) ↔
          (w.heap.serves
              [sizeofSuperBlock, sizeofBlockBitmap, bitmapBytes (w.driveSize drive)] = true →
            EndsWell (ideChannels (w.ideDevices drive).channel) es) ∧
          ReadyWhenDue (ideChannels (w.ideDevices drive).channel)
            (schedule 1 ++ schedule (bitmapSectors (w.driveSize drive))) es)) := by
  have hch : w.channels (w.ideDevices drive).channel =
      ideChannels (w.ideDevices drive).channel := congrFun hw _
  have hne := ideChannels_altStatus_ne (w.ideDevices drive).channel
  generalize ideChannels (w.ideDevices drive).channel = ch at *
  refine ⟨?_, ?_, ?_⟩
  · intro lba n buf r w' hlba h
    obtain ⟨rfl, es, vs, hes, hemits⟩ := ideWriteSectorsCounted_sends hch hdrive hpresent hlba h
    have hguard := hes.guarded_iff hne [] none
    rw [List.append_nil] at hguard
    exact ⟨es, hemits, reportsFailures_ok rfl hguard⟩
  · intro bb r w' h
    exact elixirWriteBitmap_reports hch hne hdrive hpresent h
  · intro base size mem r w' hbase hend hacc hreach h
    obtain ⟨⟨cells, hinv⟩, -⟩ := hreach.exists_inv hbase hend hacc
    exact (elixirFormat_runs hinv h).reports hch hne hpresent hinv

/-- The kernel with four drives in its table whose registers always read as this status. -/
def Kernel.uniform (status : UInt8) : Kernel (UniformBus status) where
  heap := Heap.boot fun _ ↦ 0
  channels := ideChannels
  ideDevices i := ⟨1, i / 2, i % 2, 0, 0, 0, 0, 40000, fun _ ↦ 0⟩
  ideBuf _ := 0
  timerTicks := 0
  io := ⟨⟩

/-- A sector is written to a drive that is always ready for one. -/
theorem reportsFailures_ready :
    ∃ es w', Runs (ideWriteSectorsCounted 1 0 5 (512 * 1) 0) (Kernel.uniform 0x58).watch 0 w' ∧
      (Kernel.uniform 0x58).watch.Emits es w' ∧ EndsWell (ideChannels 0) es ∧
      ReadyWhenDue (ideChannels 0) (schedule 1) es ∧
      ReportsFailures (ideChannels 0) es (0 = 0) := by
  have hrun : ideWriteSectorsCounted 1 0 5 (512 * 1) 0 (Kernel.uniform 0x58).watch.unwatch = _ :=
    UniformBus.ideWriteSectorsCounted_apply (by decide) (by decide) Nat.one_ne_zero (by decide)
  obtain ⟨w', hrun', -⟩ := (ideWriteSectorsCounted_projects 1 0 5 (512 * 1) 0).lift hrun
  have hwired : (Kernel.uniform 0x58).watch.Wired := rfl
  obtain ⟨es, hemits, hiff⟩ := (reportsFailures_iff hwired (by decide) Nat.one_ne_zero).1 5 1 0 0 w'
    (by decide) hrun'
  obtain ⟨es', hemits', hanswers⟩ := (ideWriteSectorsCounted_respects UniformBus.access_answers
    1 0 5 (512 * 1) 0).run hrun'
  obtain rfl := hemits.unique hemits'
  have hends : EndsWell (ideChannels 0) es := UniformBus.endsWell (by unfold StatusFailed; decide)
  have hready : ReadyWhenDue (ideChannels 0) (schedule 1) es :=
    UniformBus.readyWhenDue hanswers ⟨by decide, by decide, by decide, by decide⟩
  exact ⟨es, w', hrun', hemits, hends, hready, hiff.2 ⟨hends, hready⟩⟩

/-- Four drives that abort every command. -/
def Kernel.aborting : Kernel AbortingBus := .uniform 0x51

/-- A sector is sent to such a drive, which fails it, and the write returns 0. -/
theorem not_reportsFailures_aborting :
    ∃ es w', Runs (ideWriteSectorsCounted 1 0 5 512 0) Kernel.aborting.watch 0 w' ∧
      Kernel.aborting.watch.Emits es w' ∧ ¬ ReportsFailures (ideChannels 0) es (0 = 0) := by
  have hrun : ideWriteSectorsCounted 1 0 5 512 0 Kernel.aborting.watch.unwatch = _ :=
    UniformBus.ideWriteSectorsCounted_apply (by decide) (by decide) Nat.one_ne_zero (by decide)
  obtain ⟨w', hrun', -⟩ := (ideWriteSectorsCounted_projects 1 0 5 512 0).lift hrun
  obtain ⟨-, es, vs, hes, hemits⟩ := ideWriteSectorsCounted_sends (n := 1) rfl (by decide)
    Nat.one_ne_zero (by decide) hrun'
  obtain ⟨after, hmem⟩ := hes.exists_outsw Nat.one_pos
  have hbad : EndsBadly (ideChannels 0) (.outsw (ideChannels 0).base after) :=
    EndsBadly.sector (Ends.ready (show (0x51 : UInt8) &&& ataSrBsy = 0 by decide))
      (Or.inl (show (0x51 : UInt8) &&& ataSrErr ≠ 0 by decide))
  exact ⟨es, w', hrun', hemits, fun h ↦ h.reported ⟨_, hmem, hbad⟩ rfl⟩
