import BinbowsDOS.Foundations.PackedRecord
import BinbowsDOS.Ide.Drives

/-!
# What a drive says about itself

The block that answers IDENTIFY, as the ATA standard lays it out, and what `ide_initialize` makes of
it. A block is made of words, the lower byte first. Numbers of two words have the lower word first,
and the model number has two characters in a word, the first of them in the upper byte: as bytes it
is swapped in pairs, and `ide_identify` swaps it back (`identified_block`).
-/

open Prog Kernel

/-- What a device says about itself, as far as the driver keeps it. -/
structure AtaIdentity where
  /-- General configuration, word 0. -/
  signature : UInt16
  /-- Capabilities, word 49. -/
  capabilities : UInt16
  /-- Command sets, words 82 and 83. -/
  commandSets : UInt32
  /-- Sectors, words 60 and 61. -/
  size : UInt32
  /-- The model number, words 27 to 46. -/
  model : Fin 40 → UInt8

namespace AtaIdentity

variable {d : AtaIdentity} {other : ByteMem} {i : ℕ}

/-- General configuration. -/
def signatureField : RecordField := ⟨0, 2⟩
/-- Capabilities. -/
def capabilitiesField : RecordField := ⟨98, 2⟩
/-- Command sets. -/
def commandSetsField : RecordField := ⟨164, 4⟩
/-- Sectors. -/
def sizeField : RecordField := ⟨120, 4⟩

/-- The character of the model number in a byte of its words. -/
def swapped (d : AtaIdentity) (k : ℕ) : UInt8 :=
  if h : (if k % 2 = 0 then k + 1 else k - 1) < 40 then d.model ⟨_, h⟩ else 0

/-- The words, with anything in those that the driver does not read. -/
def words (d : AtaIdentity) (other : ByteMem) : ByteMem :=
  ((((other.blit 54 40 d.swapped).set 0 signatureField d.signature.toNat).set 0 capabilitiesField
    d.capabilities.toNat).set 0 commandSetsField d.commandSets.toNat).set 0 sizeField d.size.toNat

/-- The block. -/
def block (d : AtaIdentity) (other : ByteMem) : Sector := (d.words other).sectorAt 0

/-- The entry of the device table for a device. -/
def entry (d : AtaIdentity) (channel dev type : ℕ) : IdeDevice where
  reserved := 1
  channel := channel
  drive := dev
  type := type
  signature := d.signature.toNat
  capabilities := d.capabilities.toNat
  commandSets := d.commandSets.toNat
  size := d.size
  model k := if h : (k : ℕ) < 40 then d.model ⟨k, h⟩ else 0

/-! ### Reading the block -/

/-- Within the block its bytes are those of the words. -/
theorem agreeOn_block {n : ℕ} (hn : i + n ≤ 512) :
    ByteMem.AgreeOn (d.block other).bytes i (d.words other) i n := by
  intro k hk
  rw [Sector.bytes, dif_pos (by omega)]
  show d.words other (0 + (i + k)) = _
  rw [Nat.zero_add]

theorem get_block {f : RecordField} (hf : f.off + f.width ≤ 512) :
    ByteMem.get (d.block other).bytes 0 f = (d.words other).get 0 f :=
  ByteMem.get_congr hf (agreeOn_block (by omega))

/-- The numbers do not overlap. -/
theorem numbers_block (d : AtaIdentity) (other : ByteMem) :
    ByteMem.get (d.block other).bytes 0 signatureField = d.signature.toNat ∧
    ByteMem.get (d.block other).bytes 0 capabilitiesField = d.capabilities.toNat ∧
    ByteMem.get (d.block other).bytes 0 commandSetsField = d.commandSets.toNat ∧
    ByteMem.get (d.block other).bytes 0 sizeField = d.size.toNat := by
  simp (disch := decide) only [get_block, words, ByteMem.get_set_self, ByteMem.get_set_of_disjoint]
  exact ⟨Nat.mod_eq_of_lt d.signature.toNat_lt, Nat.mod_eq_of_lt d.capabilities.toNat_lt,
    Nat.mod_eq_of_lt d.commandSets.toNat_lt, Nat.mod_eq_of_lt d.size.toNat_lt⟩

/-- None of them lies over the model number. -/
theorem model_block {k : ℕ} (hk : k < 40) : (d.block other).bytes (54 + k) = d.swapped k := by
  have hbytes : (d.block other).bytes (54 + k) = d.words other (54 + k) := by
    have hagree : ByteMem.AgreeOn (d.block other).bytes 54 (d.words other) 54 40 :=
      agreeOn_block (by decide)
    exact hagree k hk
  have hset : ∀ (m : ByteMem) (f : RecordField) (v : ℕ),
      54 + k < f.off ∨ f.off + f.width ≤ 54 + k → m.set 0 f v (54 + k) = m (54 + k) :=
    fun m f v h ↦ ByteMem.storeLE_apply_of_not_mem (by omega)
  rw [hbytes, words, hset _ sizeField _ (.inl (show 54 + k < 120 by omega)),
    hset _ commandSetsField _ (.inl (show 54 + k < 164 by omega)),
    hset _ capabilitiesField _ (.inl (show 54 + k < 98 by omega)),
    hset _ signatureField _ (.inr (show 0 + 2 ≤ 54 + k by omega)), ByteMem.blit_apply_add hk]

/-- The bytes are swapped in pairs, -/
theorem swapped_succ {k : ℕ} (heven : k % 2 = 0) (hk : k < 40) :
    d.swapped (k + 1) = d.model ⟨k, hk⟩ := by
  have hpair : (if (k + 1) % 2 = 0 then k + 1 + 1 else k + 1 - 1) = k := by
    rw [if_neg (by omega), Nat.add_sub_cancel]
  simp only [swapped, hpair, dif_pos hk]

/-- in both directions. -/
theorem swapped_pred {k : ℕ} (hodd : k % 2 ≠ 0) (hk : k < 40) :
    d.swapped (k - 1) = d.model ⟨k, hk⟩ := by
  have hpair : (if (k - 1) % 2 = 0 then k - 1 + 1 else k - 1 - 1) = k := by
    rw [if_pos (by omega), Nat.sub_add_cancel (by omega)]
  simp only [swapped, hpair, dif_pos hk]

/-- **`ide_identify` reads the block as it is meant.** -/
theorem identified_block (channel dev : ℕ) (old : IdeDevice) :
    identified channel dev (d.block other) old = d.entry channel dev old.type := by
  obtain ⟨hsig, hcap, hcmd, hsize⟩ := numbers_block d other
  have hsignature : ByteMem.loadLE (d.block other).bytes 0 2 = d.signature.toNat := hsig
  have hcapabilities : ByteMem.loadLE (d.block other).bytes 98 2 = d.capabilities.toNat := hcap
  have hcommandSets : ByteMem.loadLE (d.block other).bytes 164 4 = d.commandSets.toNat := hcmd
  have hsectors : ByteMem.loadLE (d.block other).bytes 120 4 = d.size.toNat := hsize
  have hmodel : ∀ k : Fin 41, (if (k : ℕ) = 40 then 0
      else if (k : ℕ) % 2 = 0 then (d.block other).bytes (54 + k + 1)
      else (d.block other).bytes (54 + (k - 1))) =
        if h : (k : ℕ) < 40 then d.model ⟨k, h⟩ else 0 := by
    rintro ⟨k, hk⟩
    dsimp only
    rcases Nat.lt_or_eq_of_le (Nat.le_of_lt_succ hk) with hlt | rfl
    · rw [if_neg (by omega), dif_pos hlt]
      split_ifs with heven
      · rw [Nat.add_assoc, model_block (by omega), swapped_succ heven hlt]
      · rw [model_block (by omega), swapped_pred heven hlt]
    · rfl
  rw [identified, entry, hsignature, hcapabilities, hcommandSets, hsectors, UInt32.ofNat_toNat]
  simp only [hmodel]

end AtaIdentity

section Initialize

variable {w w' : Kernel AtaBus} {fuel i : ℕ} {v : Unit} {identity : ℕ → ℕ → AtaIdentity}
  {other : ℕ → ℕ → ByteMem}

/-- The entries that `ide_initialize` makes. -/
theorem exists_entry_of_afterSlots {b : AtaBus} {t : ℕ → IdeDevice}
    (hid : ∀ c < 2, ∀ d < 2, (b.unit c d).IsAta →
      (b.unit c d).idData = (identity c d).block (other c d))
    (hslot : i < 4) (hused : (afterSlots b 0 4 t i).reserved ≠ 0) :
    ∃ c < 2, (b.unit c i).IsAta ∧
      afterSlots b 0 4 t i = (identity c i).entry c i (t i).type := by
  obtain ⟨hlt, c, hc, hata, heq⟩ := exists_identified_of_afterSlots hslot hused
  refine ⟨c, hc, hata, ?_⟩
  rw [heq, hid c hc i hlt hata, AtaIdentity.identified_block]

/-- **What the table says of a drive the drive has said**: after `ide_initialize` a slot in use is
for an ATA device at its position, on one of the channels, and has its numbers and its model number,
in reading order and with a zero behind it. -/
theorem Kernel.entry_of_initialize (hb : w.io.PowerOn)
    (hid : ∀ c < 2, ∀ d < 2, (w.io.unit c d).IsAta →
      (w.io.unit c d).idData = (identity c d).block (other c d))
    (h : Runs (ideInitialize fuel) w v w') (hi : w'.InUse i) :
    ∃ c < 2, (w.io.unit c i).IsAta ∧
      w'.ideDevices i = (identity c i).entry c i (w.ideDevices i).type := by
  obtain ⟨-, hdevices, -⟩ := ideInitialize_runs hb h
  obtain ⟨hslot, hused⟩ := hi
  rw [hdevices] at hused ⊢
  exact exists_entry_of_afterSlots hid hslot hused

/-- **`read_total_sectors`** returns the number of sectors that a drive in use has said it has. -/
theorem Kernel.readTotalSectors_of_initialize (hb : w.io.PowerOn)
    (hid : ∀ c < 2, ∀ d < 2, (w.io.unit c d).IsAta →
      (w.io.unit c d).idData = (identity c d).block (other c d))
    (h : Runs (ideInitialize fuel) w v w') (hi : w'.InUse i) :
    ∃ c < 2, (w.io.unit c i).IsAta ∧
      Runs (readTotalSectors i) w' (identity c i).size.toNat w' := by
  obtain ⟨-, hdevices, -⟩ := ideInitialize_runs hb h
  obtain ⟨hslot, hused⟩ := hi
  rw [hdevices] at hused
  obtain ⟨c, hc, hata, hentry⟩ := exists_entry_of_afterSlots hid hslot hused
  refine ⟨c, hc, hata, ?_⟩
  rw [readTotalSectors, runs_bind_of_runs get_apply, if_neg (Nat.not_le.2 hslot), driveSize,
    hdevices, hentry]
  rfl

/-- A disk of a megabyte whose model number is the alphabet and what follows it. -/
def AtaIdentity.alphabet : AtaIdentity := ⟨0x40, 0x200, 0x4000, 2048, fun k ↦ UInt8.ofNat (65 + k)⟩

/-- A bus whose only device is this disk, as the primary slave. -/
def AtaBus.alphabet : AtaBus :=
  { AtaBus.single 0 1 with
    chan := fun c ↦ { (AtaBus.single 0 1).chan c with
      unit := fun d ↦ { ((AtaBus.single 0 1).chan c).unit d with
        idData := AtaIdentity.alphabet.block fun _ ↦ 0 } } }

theorem Kernel.entry_of_initialize_alphabet :
    ∃ w', Runs (ideInitialize 1) (powerOn .alphabet) () w' ∧ w'.InUse 1 ∧
      ∃ c < 2, ((powerOn .alphabet).io.unit c 1).IsAta ∧
        w'.ideDevices 1 = AtaIdentity.alphabet.entry c 1 0 := by
  have hb : (powerOn .alphabet).io.PowerOn := AtaBus.powerOn_single 0 1
  obtain ⟨⟨⟨⟩, w'⟩, hrun⟩ := Option.isSome_iff_exists.1
    (show (ideInitialize 1 (powerOn .alphabet)).isSome = true by decide +kernel)
  have hused : w'.InUse 1 := by
    refine ⟨by decide, ?_⟩
    rw [(ideInitialize_runs hb hrun).2.1, afterSlots_apply (by decide)]
    decide
  have hid : ∀ c < 2, ∀ d < 2, ((powerOn .alphabet).io.unit c d).IsAta →
      ((powerOn .alphabet).io.unit c d).idData = AtaIdentity.alphabet.block fun _ ↦ 0 :=
    fun _ _ _ _ _ ↦ rfl
  exact ⟨w', hrun, hused, entry_of_initialize hb hid hrun hused⟩

end Initialize
