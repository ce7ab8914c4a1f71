import BinbowsDOS.Foundations.ByteMemory

/-!
# Descriptor tables

How a processor of the x86 line finds segments and interrupt handlers. A register holds the address
of a table in memory and the offset of its last byte; an entry has eight bytes, in which the fields
of a descriptor are scattered. A selector names an entry of the table of segments by eight times its
number, a vector one of the table of gates.

Segments grow upwards, and a gate leads to a handler on the current stack.
-/

/-- A register that holds a table. -/
structure TableReg where
  /-- The offset of the last byte. -/
  limit : ℕ
  /-- The address. -/
  base : ℕ

/-- A segment. -/
structure Segment where
  /-- The address of its first byte. -/
  base : ℕ
  /-- Its length less one, in units. -/
  limit : ℕ
  /-- Type, privilege and presence. -/
  access : ℕ
  /-- Size and unit. -/
  flags : ℕ
  deriving DecidableEq

/-- A gate. -/
structure Gate where
  /-- Where the handler begins in its segment. -/
  offset : ℕ
  /-- Its segment. -/
  selector : ℕ
  /-- Type, privilege and presence. -/
  access : ℕ
  deriving DecidableEq

/-- The offset of the last byte: a unit is a byte or a page. -/
def Segment.last (d : Segment) : ℕ := if d.flags.testBit 3 then d.limit * 4096 + 4095 else d.limit

/-- The gate is in use. -/
def Gate.present (g : Gate) : Bool := g.access.testBit 7

namespace ByteMem

/-- What `lgdt` and `lidt` load. -/
def tableReg (m : ByteMem) (a : ℕ) : TableReg := ⟨m.loadLE a 2, m.loadLE (a + 2) 4⟩

/-- The descriptor of a segment. -/
def segment (m : ByteMem) (a : ℕ) : Segment where
  base := m.loadLE (a + 2) 2 + 2 ^ 16 * m.loadLE (a + 4) 1 + 2 ^ 24 * m.loadLE (a + 7) 1
  limit := m.loadLE a 2 + 2 ^ 16 * (m.loadLE (a + 6) 1 % 16)
  access := m.loadLE (a + 5) 1
  flags := m.loadLE (a + 6) 1 / 16

/-- The descriptor of a gate. -/
def gate (m : ByteMem) (a : ℕ) : Gate where
  offset := m.loadLE a 2 + 2 ^ 16 * m.loadLE (a + 6) 2
  selector := m.loadLE (a + 2) 2
  access := m.loadLE (a + 5) 1

variable {m m' : ByteMem} {a : ℕ}

theorem loadLE_of_agree {n off w : ℕ} (h : ∀ i < n, m' (a + i) = m (a + i)) (hw : off + w ≤ n) :
    m'.loadLE (a + off) w = m.loadLE (a + off) w :=
  loadLE_congr fun i hi ↦ by
    rw [Nat.add_assoc]
    exact h (off + i) (by omega)

theorem gate_congr (h : ∀ i < 8, m' (a + i) = m (a + i)) : m'.gate a = m.gate a := by
  have hlow : m'.loadLE (a + 0) 2 = m.loadLE (a + 0) 2 := loadLE_of_agree h (by decide)
  rw [gate, gate, loadLE_of_agree h (by decide), loadLE_of_agree h (by decide),
    loadLE_of_agree h (by decide)]
  rw [Nat.add_zero] at hlow
  rw [hlow]

end ByteMem

namespace TableReg

/-- The segment that a selector names, in the table that all programs share. -/
def segment? (t : TableReg) (m : ByteMem) (selector : ℕ) : Option Segment :=
  if selector % 8 < 4 ∧ 8 * (selector / 8) + 7 ≤ t.limit then
    some (m.segment (t.base + 8 * (selector / 8)))
  else none

variable {gates segments t : TableReg} {m m' : ByteMem} {vector selector : ℕ}

/-- The bytes of a table. -/
def bytes (t : TableReg) : Set ℕ := {a | t.base ≤ a ∧ a ≤ t.base + t.limit}

end TableReg
