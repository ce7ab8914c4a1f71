import BinbowsDOS.Console.Lines

/-!
# What the screen shows

The console refines a terminal without bounds (`console_refines_terminal`): after every call of a
run that begins with `clear_screen`, the screen is the window on the page of a `Terminal` that has
processed the bytes which the calls have given to `put_char` since the screen was last cleared.
These are the strings of `print` and the reference texts of the formats of `printf` (`TextRun`),
where they lie beside the screen and no percent sign ends a format.
-/

open Prog FormatString Console

/-- The states of a run that begins with `clear_screen`, with the text that was to be printed since
the screen was last cleared. The strings are those in memory when a call is made. -/
inductive TextRun (s₀ : Console) : List UInt8 → Console → Prop
  /-- The first call. -/
  | start : TextRun s₀ [] s₀.clearScreen
  /-- A call of `clear_screen`. -/
  | clear {text : List UInt8} {s : Console} (hrun : TextRun s₀ text s) :
    TextRun s₀ [] s.clearScreen
  /-- A call of `print`. -/
  | print {text t : List UInt8} {s s' : Console} {a : ℕ} (hrun : TextRun s₀ text s)
    (ht : CString s.mem a t) (hends : Ends (fun fuel ↦ print fuel a) s () s') :
    TextRun s₀ (text ++ t) s'
  /-- A call of `printf`. -/
  | printf {text fs : List UInt8} {s s' : Console} {format n : ℕ} {args : ℕ → UInt32}
    {is : List Item} (hrun : TextRun s₀ text s) (hcall : FormatCall s.mem format args fs is)
    (hlone : Item.lone ∉ is) (hends : Ends (fun fuel ↦ printf fuel format args) s n s') :
    TextRun s₀ (text ++ is.flatMap Item.render) s'
  /-- Other code changes memory, but not the screen. -/
  | other {text : List UInt8} {s : Console} {mem : ByteMem} (hrun : TextRun s₀ text s)
    (hmem : ∀ i < 4000, mem (0xB8000 + i) = s.mem (0xB8000 + i)) :
    TextRun s₀ text { s with mem := mem }

section Run

variable {s s₀ : Console} {text : List UInt8}

theorem TextRun.reachable (h : TextRun s₀ text s) :
    Relation.ReflTransGen ConsoleStep s₀.clearScreen s := by
  induction h with
  | start => exact .refl
  | clear _ ih => exact ih.tail .clear
  | print _ _ hends ih =>
    obtain ⟨fuel, hcall⟩ := hends.exists_runs
    exact ih.tail (.print hcall)
  | printf _ _ _ hends ih =>
    obtain ⟨fuel, hcall⟩ := hends.exists_runs
    exact ih.tail (.printf hcall)
  | other _ hmem ih => exact ih.tail (.other hmem)

theorem TextRun.onScreen (h₀ : s₀.touched = []) (h : TextRun s₀ text s) : s.OnScreen :=
  (mirrors_of_run h₀ h.reachable).1.onScreen

/-- **What was to be printed** has been given to `put_char`, and nothing else. -/
theorem TextRun.fed_eq (h₀ : s₀.touched = []) (h : TextRun s₀ text s) : s.fed = text := by
  induction h with
  | start => rfl
  | clear => rfl
  | print hrun ht hends ih =>
    obtain ⟨u, hu, hfed⟩ := ends_print ht (hrun.onScreen h₀)
    obtain ⟨-, rfl⟩ := hu.unique hends
    rw [hfed, ih]
  | printf hrun hcall hlone hends ih =>
    obtain ⟨u, hu, hfed⟩ := ends_printf hcall hlone (hrun.onScreen h₀)
    obtain ⟨-, rfl⟩ := hu.unique hends
    rw [hfed, ih, flatMap_shown hlone]
  | other _ _ ih => exact ih

/-- **The console refines the unbounded terminal.** After every call of a run that begins with
`clear_screen` the 25 lines of the screen are the lines of the page that end with the cursor's, or
the first ones; the cursor is where the terminal has it; no cell outside the screen was touched; and
the display shows its cursor there. The page is that of the text which the calls were to print. -/
theorem console_refines_terminal (h₀ : s₀.touched = [])
    (hrun : Relation.ReflTransGen ConsoleStep s₀.clearScreen s) :
    (∀ r < 25, ∀ c < 80, s.charAt (80 * r + c) = s.page.cell (s.page.row - 24 + r) c) ∧
      s.cursorRow = min (s.page.row : ℤ) 24 ∧ s.cursorCol = s.page.col ∧ s.page.col < 80 ∧
      (∀ i ∈ s.touched, 0 ≤ i ∧ i < 2000) ∧
      (s.hardwareCursor : ℤ) = s.cursorRow * 80 + s.cursorCol ∧
      ∀ text, TextRun s₀ text s → s.page = Terminal.blank.feed 80 text := by
  obtain ⟨hmirrors, hsynced⟩ := mirrors_of_run h₀ hrun
  have hrow := hmirrors.row
  refine ⟨hmirrors.shown, by omega, hmirrors.col, s.col_page_lt, hmirrors.inside, hsynced, ?_⟩
  exact fun text htext ↦ congrArg (Terminal.blank.feed 80) (htext.fed_eq h₀)

end Run

/-- As many newlines as the screen has lines but one, a full line, and one character more. -/
def pastTheCorner : List UInt8 :=
  List.replicate 24 '\n'.toUInt8 ++ List.replicate 80 'A'.toUInt8 ++ ['B'.toUInt8]

/-- A console with this text in the memory behind the first megabyte. -/
def Console.atCorner : Console :=
  { Console.boot with
    mem := fun a ↦ if a < 0x100000 then 0 else pastTheCorner.getD (a - 0x100000) 0 }

/-- On the page the full line is row 24, and the cursor is in the row below. -/
theorem feed_pastTheCorner : (Terminal.blank.feed 80 pastTheCorner).row = 25 ∧
    (Terminal.blank.feed 80 pastTheCorner).col = 1 ∧
    (∀ c < 80, (Terminal.blank.feed 80 pastTheCorner).cell 24 c = 'A'.toUInt8) ∧
    (Terminal.blank.feed 80 pastTheCorner).cell 25 0 = 'B'.toUInt8 ∧
    (Terminal.blank.feed 80 pastTheCorner).cell 25 1 = ' '.toUInt8 := by
  decide +kernel

/-- The full line wraps, the screen scrolls, and the last character stands below the line. -/
theorem console_refines_terminal_corner : ∃ s,
    Ends (fun fuel ↦ print fuel 0x100000) Console.atCorner.clearScreen () s ∧
      (∀ c < 80, s.charAt (80 * 23 + c) = 'A'.toUInt8) ∧ s.charAt (80 * 24) = 'B'.toUInt8 ∧
      s.charAt (80 * 24 + 1) = ' '.toUInt8 ∧ s.cursorRow = 24 ∧ s.cursorCol = 1 ∧
      s.hardwareCursor = 80 * 24 + 1 := by
  have ht : CString Console.atCorner.mem 0x100000 pastTheCorner := by decide +kernel
  have hkept := ht.keeps (keepsMemory_clearScreen Console.atCorner)
  obtain ⟨s, hends, -⟩ := ends_print hkept (onScreen_clearScreen _)
  have htext : TextRun Console.atCorner ([] ++ pastTheCorner) s := .print .start hkept hends
  rw [List.nil_append] at htext
  obtain ⟨hshown, hrow, hcol, -, -, hhardware, hpage⟩ :=
    console_refines_terminal rfl htext.reachable
  obtain ⟨hrow', hcol', hfull, hlast, hblank⟩ := feed_pastTheCorner
  rw [hpage _ htext] at hshown hrow hcol
  generalize Terminal.blank.feed 80 pastTheCorner = page at *
  rw [hrow'] at hshown hrow
  rw [hcol'] at hcol
  refine ⟨s, hends, fun c hc ↦ ?_, ?_, ?_, hrow, hcol, by omega⟩
  · exact (hshown 23 (by decide) c hc).trans (hfull c hc)
  · exact (hshown 24 (by decide) 0 (by decide)).trans hlast
  · exact (hshown 24 (by decide) 1 (by decide)).trans hblank
