import BinbowsDOS.Foundations.ByteMemory

/-!
# Records in byte memory

A record is a block of bytes, and a field of it is an offset and a width; a field holds an
unsigned little-endian number. A store of a field is seen by a read of the same field, truncated
to the width (`get_set_self`), and by no read of a field that shares no byte with it
(`get_set_of_disjoint`). Stores of one field at the same values keep two records equal
(`AgreeOn.set`), which is how the bytes of a record are shown to depend on its fields only.
-/

/-- A field of a record. -/
structure RecordField where
  /-- Its offset. -/
  off : ℕ
  /-- Its width in bytes. -/
  width : ℕ

/-- Two fields that share no byte. -/
def RecordField.Disjoint (f g : RecordField) : Prop :=
  f.off + f.width ≤ g.off ∨ g.off + g.width ≤ f.off

instance (f g : RecordField) : Decidable (f.Disjoint g) := inferInstanceAs (Decidable (_ ∨ _))

namespace ByteMem

/-- The field `f` of the record at `p`. -/
def get (m : ByteMem) (p : ℕ) (f : RecordField) : ℕ := m.loadLE (p + f.off) f.width

/-- Store the field `f` of the record at `p`. -/
def set (m : ByteMem) (p : ℕ) (f : RecordField) (v : ℕ) : ByteMem := m.storeLE (p + f.off) f.width v

variable {m m' : ByteMem} {p q n v x : ℕ} {f g : RecordField}

theorem get_set_self : (m.set p f v).get p f = v % 256 ^ f.width := loadLE_storeLE_self v

theorem get_set_of_disjoint (h : f.Disjoint g) : (m.set p f v).get p g = m.get p g :=
  loadLE_storeLE_of_disjoint (by rcases h with h | h <;> omega)

/-- A store of a field leaves every byte outside the record alone. -/
theorem set_apply_of_not_mem (hf : f.off + f.width ≤ n) (hx : x < p ∨ p + n ≤ x) :
    m.set p f v x = m x :=
  storeLE_apply_of_not_mem (by omega)

/-- A field depends on the bytes of the record only. -/
theorem get_congr (hf : f.off + f.width ≤ n) (h : AgreeOn m p m' q n) : m.get p f = m'.get q f :=
  loadLE_congr fun i hi ↦ by
    rw [Nat.add_assoc, Nat.add_assoc]
    exact h (f.off + i) (by omega)

/-- Stores of one value keep two records equal. -/
theorem AgreeOn.set (h : AgreeOn m p m' q n) (f : RecordField) {v v' : ℕ} (hv : v = v') :
    AgreeOn (m.set p f v) p (m'.set q f v') q n := by
  subst hv
  exact h.blit f.off f.width fun i ↦ UInt8.ofNat (v / 256 ^ i)

theorem agreeOn_fill (v : UInt8) : AgreeOn (m.fill p n v) p (m'.fill q n v) q n :=
  agreeOn_blit_blit _

end ByteMem
