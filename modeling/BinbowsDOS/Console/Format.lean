import BinbowsDOS.Console.Refinement
import BinbowsDOS.Foundations.FormatString

/-!
# `printf` and its format

Where the loop of `printf` looks, and what its directives do. `readPrintf` is `printf` with a log
of the addresses at which it looks for characters of its format (`projects_readPrintf`).

The format and the strings that are printed lie in the memory the screen is in. With the cursor on
the screen a character changes the cells and nothing else (`keepsMemory_putChar`), so a string
beside the screen stays what it is while it is printed. A percent sign at the end of the format
does not go as in `FormatString`: it takes the terminator for its directive, so that the loop goes
on behind it (`overruns`).
-/

open Prog FormatString

namespace Console

variable {s s' : Console} {c : UInt8} {cs t : List UInt8} {a n : ℕ}

/-! ### Memory beside the screen -/

/-- The address lies in one of the 2000 cells. -/
def OnDisplay (a : ℕ) : Prop := 0xB8000 ≤ a ∧ a < 0xB8000 + 4000

instance (a : ℕ) : Decidable (OnDisplay a) := inferInstanceAs (Decidable (_ ∧ _))

/-- The cursor is on the screen. -/
structure OnScreen (s : Console) : Prop where
  row_nonneg : 0 ≤ s.cursorRow
  row_lt : s.cursorRow < 25
  col_nonneg : 0 ≤ s.cursorCol
  col_lt : s.cursorCol < 80

/-- Every state that `clear_screen` and the calls after it lead to has its cursor there. -/
theorem onScreen_of_run {s₀ : Console} (h₀ : s₀.touched = [])
    (hrun : Relation.ReflTransGen ConsoleStep s₀.clearScreen s) : s.OnScreen := by
  have h := (mirrors_of_run h₀ hrun).1
  have hbase := h.base_le
  have hrow := h.row
  have hcol := h.col
  have hlt := s.col_page_lt
  exact ⟨by omega, by omega, by omega, by omega⟩

/-- Memory beside the screen has not changed. -/
def KeepsMemory (s s' : Console) : Prop := ∀ a, ¬ OnDisplay a → s'.mem a = s.mem a

theorem KeepsMemory.refl (s : Console) : KeepsMemory s s := fun _ _ ↦ rfl

theorem KeepsMemory.trans {s'' : Console} (h₁ : KeepsMemory s s') (h₂ : KeepsMemory s' s'') :
    KeepsMemory s s'' := fun a ha ↦ (h₂ a ha).trans (h₁ a ha)

theorem keepsMemory_writeCell {i : ℤ} {v : ℕ} (h₁ : 0 ≤ i) (h₂ : i < 2000) :
    KeepsMemory s (s.writeCell i v) := by
  intro a ha
  obtain ⟨k, rfl⟩ := Int.eq_ofNat_of_zero_le h₁
  show s.mem.storeLE (cellAddr k) 2 v a = s.mem a
  rw [cellAddr_natCast]
  rw [OnDisplay] at ha
  exact ByteMem.storeLE_apply_of_not_mem (by omega)

theorem keepsMemory_fillCells {start : ℕ} (hn : start + n ≤ 2000) :
    KeepsMemory s (fillCells start n s) := by
  induction n with
  | zero => exact .refl s
  | succ n ih => exact (ih (by omega)).trans (keepsMemory_writeCell (by omega) (by omega))

theorem keepsMemory_moveCells (hn : n ≤ 2000) : KeepsMemory s (moveCells n s) := by
  induction n with
  | zero => exact .refl s
  | succ n ih =>
    have hwrite : ∀ v, KeepsMemory (moveCells n s)
        (((moveCells n s).readCell (n + vgaWidth : ℕ)).2.writeCell n v) :=
      fun v ↦ keepsMemory_writeCell (s := ((moveCells n s).readCell (n + vgaWidth : ℕ)).2)
        (by omega) (by omega)
    exact (ih (by omega)).trans (hwrite _)

theorem keepsMemory_scrollScreen : KeepsMemory s s.scrollScreen := by
  rw [scrollScreen, show vgaWidth * (vgaHeight - 1) = 1920 from rfl, show vgaWidth = 80 from rfl]
  have hmove : KeepsMemory s (moveCells 1920 s) := keepsMemory_moveCells (by omega)
  generalize moveCells 1920 s = t at hmove ⊢
  exact hmove.trans (keepsMemory_fillCells (by omega))

theorem keepsMemory_interpret (h : s.OnScreen) : KeepsMemory s (s.interpret c) := by
  obtain ⟨h₁, h₂, h₃, h₄⟩ := h
  rw [interpret]
  split_ifs
  iterate 5 exact .refl s
  exact keepsMemory_writeCell (by rw [vgaWidth]; omega) (by rw [vgaWidth]; omega)

theorem keepsMemory_wrapLine : KeepsMemory s s.wrapLine := by
  rw [wrapLine]
  split
  · exact .refl s
  · exact .refl s

theorem keepsMemory_scrollPast : KeepsMemory s s.scrollPast := by
  have hscroll := keepsMemory_scrollScreen (s := s)
  rw [scrollPast]
  generalize s.scrollScreen = t at hscroll ⊢
  split
  · exact hscroll
  · exact .refl s

theorem keepsMemory_putChar (h : s.OnScreen) : KeepsMemory s (s.putChar c) := by
  have hfed : OnScreen { s with fed := s.fed ++ [c] } := ⟨h.1, h.2, h.3, h.4⟩
  exact ((keepsMemory_interpret hfed).trans keepsMemory_wrapLine).trans keepsMemory_scrollPast

/-- A newline may take the cursor below the screen, any other character only to the right of
it. -/
theorem OnScreen.interpret (h : s.OnScreen) :
    0 ≤ (s.interpret c).cursorRow ∧ (s.interpret c).cursorRow ≤ 25 ∧
      0 ≤ (s.interpret c).cursorCol ∧
      ((s.interpret c).cursorRow = 25 → (s.interpret c).cursorCol = 0) := by
  obtain ⟨h₁, h₂, h₃, h₄⟩ := h
  rw [Console.interpret]
  split_ifs
  · exact ⟨by dsimp only; omega, by dsimp only; omega, le_rfl, fun _ ↦ rfl⟩
  · exact ⟨h₁, h₂.le, le_rfl, fun _ ↦ rfl⟩
  · exact ⟨h₁, h₂.le, by dsimp only; omega, by dsimp only; omega⟩
  · exact ⟨h₁, h₂.le, by dsimp only; omega, by dsimp only; omega⟩
  · exact ⟨h₁, h₂.le, h₃, by omega⟩
  · exact ⟨h₁, h₂.le, show 0 ≤ s.cursorCol + 1 by omega, show s.cursorRow = 25 → _ by omega⟩

/-- `put_char` leaves the cursor on the screen. -/
theorem OnScreen.putChar (h : s.OnScreen) (c : UInt8) : (s.putChar c).OnScreen := by
  have hfed : OnScreen { s with fed := s.fed ++ [c] } := ⟨h.1, h.2, h.3, h.4⟩
  obtain ⟨h₁, h₂, h₃, h₄⟩ := hfed.interpret (c := c)
  rw [Console.putChar]
  generalize Console.interpret c _ = t at h₁ h₂ h₃ h₄ ⊢
  have hwrap : 0 ≤ t.wrapLine.cursorRow ∧ t.wrapLine.cursorRow ≤ 25 ∧
      0 ≤ t.wrapLine.cursorCol ∧ t.wrapLine.cursorCol < 80 := by
    rw [wrapLine, vgaWidth]
    split
    · exact ⟨by dsimp only; omega, by dsimp only; omega, le_rfl, by dsimp only; omega⟩
    · exact ⟨h₁, h₂, h₃, by omega⟩
  obtain ⟨h₁, h₂, h₃, h₄⟩ := hwrap
  rw [scrollPast, vgaHeight]
  split
  · exact ⟨by dsimp only; omega, by dsimp only; omega, le_rfl, by dsimp only; omega⟩
  · exact ⟨h₁, by omega, h₃, h₄⟩

theorem OnScreen.putChars (h : s.OnScreen) : (s.putChars cs).OnScreen := by
  induction cs generalizing s with
  | nil => exact h
  | cons c cs ih => exact ih (h.putChar c)

theorem keepsMemory_putChars (h : s.OnScreen) : KeepsMemory s (s.putChars cs) := by
  induction cs generalizing s with
  | nil => exact .refl s
  | cons c cs ih => exact (keepsMemory_putChar h).trans (ih (h.putChar c))

theorem fed_putChars : (s.putChars cs).fed = s.fed ++ cs := by
  induction cs generalizing s with
  | nil => exact (List.append_nil _).symm
  | cons c cs ih =>
    show ((s.putChar c).putChars cs).fed = _
    rw [ih, fed_putChar, List.append_assoc, List.singleton_append]

/-! ### Strings -/

/-- The string `t` at `a`, with its terminator. It is not on the screen, where printing could
overwrite it. -/
def CString (m : ByteMem) : ℕ → List UInt8 → Prop
  | a, [] => ¬ OnDisplay a ∧ m a = 0
  | a, c :: t => ¬ OnDisplay a ∧ m a = c ∧ c ≠ 0 ∧ CString m (a + 1) t

instance decidableCString (m : ByteMem) : ∀ (a : ℕ) (t : List UInt8), Decidable (CString m a t)
  | _, [] => inferInstanceAs (Decidable (_ ∧ _))
  | a, _ :: t =>
    have := decidableCString m (a + 1) t
    inferInstanceAs (Decidable (_ ∧ _ ∧ _ ∧ _))

theorem CString.keeps (h : CString s.mem a t) (hkeeps : KeepsMemory s s') :
    CString s'.mem a t := by
  induction t generalizing a with
  | nil => exact ⟨h.1, (hkeeps a h.1).trans h.2⟩
  | cons c t ih => exact ⟨h.1, (hkeeps a h.1).trans h.2.1, h.2.2.1, ih h.2.2.2⟩

theorem ends_printStrLoop (hs : s.OnScreen) (ht : CString s.mem a t) :
    Ends (fun fuel ↦ printStrLoop fuel a) s () (s.putChars t) := by
  induction t generalizing s a with
  | nil =>
    refine Ends.of_succ (ends_of_runs fun fuel ↦ ?_)
    rw [printStrLoop, runs_get_bind, if_neg (not_not.2 ht.2), runs_pure]
    exact ⟨rfl, rfl⟩
  | cons c t ih =>
    obtain ⟨-, hc, hne, ht⟩ := ht
    refine Ends.of_succ (Ends.congr (fun fuel ↦ ?_)
      (ih (hs.putChar c) (ht.keeps (keepsMemory_putChar hs))))
    rw [printStrLoop, bind_apply_of_runs get_apply, hc, if_pos hne, bind_apply_of_runs modify_apply]

theorem ends_strlenLoop {len : ℕ} (ht : CString s.mem a t) :
    Ends (fun fuel ↦ strlenLoop fuel a len) s (len + t.length) s := by
  induction t generalizing a len with
  | nil =>
    refine Ends.of_succ (ends_of_runs fun fuel ↦ ?_)
    rw [strlenLoop, runs_get_bind, if_neg (not_not.2 ht.2), runs_pure]
    exact ⟨rfl, rfl⟩
  | cons c t ih =>
    obtain ⟨-, hc, hne, ht⟩ := ht
    rw [List.length_cons, Nat.add_comm t.length, ← Nat.add_assoc]
    refine Ends.of_succ (Ends.congr (fun fuel ↦ ?_) (ih ht))
    rw [strlenLoop, bind_apply_of_runs get_apply, hc, if_pos hne]

/-- The word is passed for the argument. -/
def Passes (m : ByteMem) (w : UInt32) : Arg → Prop
  | .word v => w = v
  | .string none => w = 0
  | .string (some t) => w ≠ 0 ∧ CString m w.toNat t

/-- From the `k`-th one on the words are passed for these arguments. -/
def Passed (m : ByteMem) (args : ℕ → UInt32) : ℕ → List Arg → Prop
  | _, [] => True
  | k, arg :: as => Passes m (args k) arg ∧ Passed m args (k + 1) as

/-- A call of a formatter: its format is the string `fs`, and the words passed match it. `is` is
what it is to print. -/
structure FormatCall (m : ByteMem) (format : ℕ) (args : ℕ → UInt32) (fs : List UInt8)
    (is : List Item) : Prop where
  /-- It is not `NULL`. -/
  format_ne : format ≠ 0
  /-- The format. -/
  format : CString m format fs
  /-- The arguments. -/
  args : ∃ as, Passed m args 0 as ∧ items fs as = some is

theorem Passed.keeps {args : ℕ → UInt32} {k : ℕ} {as : List Arg} (h : Passed s.mem args k as)
    (hkeeps : KeepsMemory s s') : Passed s'.mem args k as := by
  induction as generalizing k with
  | nil => trivial
  | cons arg as ih =>
    refine ⟨?_, ih h.2⟩
    rcases arg with v | _ | t
    · exact h.1
    · exact h.1
    · exact ⟨h.1.1, h.1.2.keeps hkeeps⟩

end Console

/-! ### One directive -/

/-- What `printf` puts on the screen. -/
def FormatString.Item.shown : Item → List UInt8
  | text bs => bs
  | char w => [UInt8.ofNat w.toNat]
  | string t => t.getD (literal "(null)")
  | int w => intText w
  | uint w => uintText w.toNat
  | hex uppercase w => hexText w.toNat uppercase
  | pointer w => ptrText w.toNat
  | lone => [percent, 0]

/-- What `printf` counts. -/
def FormatString.Item.counted : Item → ℕ
  | text bs => bs.length
  | string t => (t.getD (literal "(null)")).length
  | pointer _ => 10
  | lone => 2
  | _ => 1

namespace Console

variable {s s' : Console} {c d : UInt8} {cs t : List UInt8} {a n : ℕ} {w : UInt32} {arg : Arg}
  {x : Item}

theorem ends_printStr {o : Option (List UInt8)} (hs : s.OnScreen)
    (hpass : Passes s.mem w (.string o)) :
    Ends (fun fuel ↦ printStr fuel w.toNat) s () (s.putChars (o.getD (literal "(null)"))) := by
  cases o with
  | none =>
    refine ends_of_runs fun fuel ↦ ?_
    rw [printStr, if_pos (by rw [hpass]; rfl), runs_modify]
    rfl
  | some t =>
    have hnull : w.toNat ≠ 0 := fun h ↦ hpass.1 (UInt32.toNat_inj.1 h)
    refine Ends.congr (fun fuel ↦ ?_) (ends_printStrLoop hs hpass.2)
    rw [printStr, if_neg hnull]

theorem ends_strlen {o : Option (List UInt8)} (hpass : Passes s.mem w (.string o)) :
    Ends (fun fuel ↦ strlen fuel w.toNat) s (o.getD (literal "(null)")).length s := by
  cases o with
  | none =>
    refine ends_of_runs fun fuel ↦ ?_
    rw [strlen, if_pos (by rw [hpass]; rfl), runs_pure]
    exact ⟨rfl, rfl⟩
  | some t =>
    have hnull : w.toNat ≠ 0 := fun h ↦ hpass.1 (UInt32.toNat_inj.1 h)
    have hloop : Ends (fun fuel ↦ strlenLoop fuel w.toNat 0) s (0 + t.length) s :=
      ends_strlenLoop hpass.2
    rw [Nat.zero_add] at hloop
    refine Ends.congr (fun fuel ↦ ?_) hloop
    rw [strlen, if_neg hnull]

/-- A directive with an argument. -/
theorem ends_convert {f : Arg → Option Item} (hs : s.OnScreen) (hd : s.mem a = d)
    (hconversion : conversion? d = some f) (hx : f arg = some x) (hpass : Passes s.mem w arg) :
    Ends (fun fuel ↦ convert fuel a w) s (1, x.counted) (s.putChars x.shown) := by
  have htext : ∀ (cs : List UInt8) (n : ℕ),
      Ends (fun _ ↦ do modify (putChars cs); pure (1, n)) s (1, n) (s.putChars cs) :=
    fun cs n ↦ ends_of_runs fun _ ↦ rfl
  rw [conversion?] at hconversion
  split_ifs at hconversion with hchar hstring hint huint hlower hupper hpointer <;>
    obtain rfl := Option.some.inj hconversion
  · obtain ⟨v, rfl, rfl⟩ := forWord_eq_some.1 hx
    obtain rfl : w = v := hpass
    refine Ends.congr (fun fuel ↦ ?_) (htext [UInt8.ofNat w.toNat] 1)
    rw [convert, bind_apply_of_runs get_apply, hd, if_pos hchar]
    rfl
  · obtain ⟨o, rfl, rfl⟩ := forString_eq_some.1 hx
    have hstrlen : Passes (s.putChars (o.getD (literal "(null)"))).mem w (.string o) := by
      cases o with
      | none => exact hpass
      | some t => exact ⟨hpass.1, hpass.2.keeps (keepsMemory_putChars hs)⟩
    have hrun : Ends (fun fuel ↦ do
        printStr fuel w.toNat
        let len ← strlen fuel w.toNat
        pure (1, len)) s (1, (o.getD (literal "(null)")).length)
        (s.putChars (o.getD (literal "(null)"))) :=
      (ends_printStr hs hpass).bind ((ends_strlen hstrlen).bind (ends_of_runs fun _ ↦ rfl))
    refine Ends.congr (fun fuel ↦ ?_) hrun
    rw [convert, bind_apply_of_runs get_apply, hd, if_neg hchar, if_pos hstring]
  · obtain ⟨v, rfl, rfl⟩ := forWord_eq_some.1 hx
    obtain rfl : w = v := hpass
    refine Ends.congr (fun fuel ↦ ?_) (htext (intText w) 1)
    rw [convert, bind_apply_of_runs get_apply, hd, if_neg hchar, if_neg hstring, if_pos hint]
  · obtain ⟨v, rfl, rfl⟩ := forWord_eq_some.1 hx
    obtain rfl : w = v := hpass
    refine Ends.congr (fun fuel ↦ ?_) (htext (uintText w.toNat) 1)
    rw [convert, bind_apply_of_runs get_apply, hd, if_neg hchar, if_neg hstring, if_neg hint,
      if_pos huint]
  · obtain ⟨v, rfl, rfl⟩ := forWord_eq_some.1 hx
    obtain rfl : w = v := hpass
    refine Ends.congr (fun fuel ↦ ?_) (htext (hexText w.toNat false) 1)
    rw [convert, bind_apply_of_runs get_apply, hd, if_neg hchar, if_neg hstring, if_neg hint,
      if_neg huint, if_pos hlower]
  · obtain ⟨v, rfl, rfl⟩ := forWord_eq_some.1 hx
    obtain rfl : w = v := hpass
    refine Ends.congr (fun fuel ↦ ?_) (htext (hexText w.toNat true) 1)
    rw [convert, bind_apply_of_runs get_apply, hd, if_neg hchar, if_neg hstring, if_neg hint,
      if_neg huint, if_neg hlower, if_pos hupper]
  · obtain ⟨v, rfl, rfl⟩ := forWord_eq_some.1 hx
    obtain rfl : w = v := hpass
    refine Ends.congr (fun fuel ↦ ?_) (htext (ptrText w.toNat) 10)
    rw [convert, bind_apply_of_runs get_apply, hd, if_neg hchar, if_neg hstring, if_neg hint,
      if_neg huint, if_neg hlower, if_neg hupper, if_pos hpointer]

/-- A directive without one. -/
theorem convert_of_none (hs : s.OnScreen) (ha : ¬ OnDisplay a) (hd : s.mem a = d)
    (hconversion : conversion? d = none) (fuel : ℕ) :
    convert fuel a w s = some ((0, (if d = percent then [d] else [percent, d]).length),
      s.putChars (if d = percent then [d] else [percent, d])) := by
  rw [conversion?] at hconversion
  split_ifs at hconversion with hchar hstring hint huint hlower hupper hpointer
  rw [convert, bind_apply_of_runs get_apply, hd, if_neg hchar, if_neg hstring, if_neg hint,
    if_neg huint, if_neg hlower, if_neg hupper, if_neg hpointer,
    show '%'.toUInt8 = percent from rfl]
  by_cases hpercent : d = percent
  · rw [if_pos hpercent, if_pos hpercent, hpercent]
    rfl
  · have hsecond : (s.putChar percent).mem a = d := (keepsMemory_putChar hs a ha).trans hd
    rw [if_neg hpercent, if_neg hpercent, bind_apply_of_runs modify_apply,
      bind_apply_of_runs get_apply, hsecond]
    rfl

end Console

open Console

/-! ### Reading the format -/

/-- The console, and where `printf` has looked for characters of its format, the first one
first. -/
structure Reader where
  /-- The console. -/
  console : Console
  /-- The addresses. -/
  examined : List ℕ

/-- `*format` -/
def examine (format : ℕ) : Prog Reader UInt8 := fun r ↦
  some (r.console.mem format, { r with examined := r.examined ++ [format] })

/-- Work on the console. -/
def onConsole {α : Type} (m : Prog Console α) : Prog Reader α := fun r ↦
  (m r.console).map fun p ↦ (p.1, { r with console := p.2 })

/-- The loop of `printf`. -/
def readLoop (args : ℕ → UInt32) : ℕ → ℕ → ℕ → ℕ → Prog Reader ℕ
  | 0, _, _, _ => fun _ ↦ none
  | fuel + 1, format, k, written => do
    let c ← examine format
    if c = 0 then pure written
    else if c = percent then do
      let _ ← examine (format + 1)
      let r ← onConsole (convert fuel (format + 1) (args k))
      readLoop args fuel (format + 2) (k + r.1) (written + r.2)
    else do
      onConsole (modify (putChar c))
      readLoop args fuel (format + 1) k (written + 1)

/-- `printf` -/
def readPrintf (fuel format : ℕ) (args : ℕ → UInt32) : Prog Reader ℕ := do
  let written ← readLoop args fuel format 0 0
  onConsole syncCursor
  pure written

section Reader

variable {α : Type} {args : ℕ → UInt32} {s s' : Console} {ex : List ℕ} {a b : α}

theorem examine_apply {a : ℕ} : examine a ⟨s, ex⟩ = some (s.mem a, ⟨s, ex ++ [a]⟩) := rfl

theorem projects_onConsole (m : Prog Console α) : Projects Reader.console (onConsole m) m := by
  intro r
  rw [onConsole, Option.map_map]
  exact Option.map_id'.symm

theorem onConsole_apply {m : Prog Console α} (h : m s = some (a, s')) :
    onConsole m ⟨s, ex⟩ = some (a, ⟨s', ex⟩) := by
  rw [onConsole, h, Option.map_some]

/-- The addresses apart, this is `printf`. -/
theorem projects_readLoop (fuel format k written : ℕ) :
    Projects Reader.console (readLoop args fuel format k written)
      (printfLoop args fuel format k written) := by
  induction fuel generalizing format k written with
  | zero => exact projects_diverge
  | succ fuel ih =>
    rintro ⟨s, ex⟩
    rw [printfLoop, readLoop, bind_apply_of_runs get_apply, bind_apply_of_runs examine_apply]
    dsimp only
    by_cases hnul : s.mem format = 0
    · rw [if_pos hnul, if_pos hnul]
      rfl
    · rw [if_neg hnul, if_neg hnul, show percent = '%'.toUInt8 from rfl]
      by_cases hpercent : s.mem format = '%'.toUInt8
      · rw [if_pos hpercent, if_pos hpercent, bind_apply_of_runs examine_apply]
        exact projects_bind (projects_onConsole _) (fun _ ↦ ih _ _ _) ⟨s, _⟩
      · rw [if_neg hpercent, if_neg hpercent]
        exact projects_bind (projects_onConsole _) (fun _ ↦ ih _ _ _) ⟨s, _⟩

theorem projects_readPrintf (fuel format : ℕ) :
    Projects Reader.console (readPrintf fuel format args) (printf fuel format args) :=
  projects_bind (projects_readLoop _ _ _ _) fun _ ↦
    projects_bind (projects_onConsole _) fun _ ↦ projects_pure _

/-! ### The loop -/

theorem ends_onConsole {m : ℕ → Prog Console α} (h : Ends m s a s') :
    Ends (fun fuel ↦ onConsole (m fuel)) ⟨s, ex⟩ a ⟨s', ex⟩ := by
  obtain ⟨n, h⟩ := h
  exact ⟨n, fun fuel hfuel ↦ onConsole_apply (h fuel hfuel)⟩

variable {fs : List UInt8} {as : List Arg} {is : List Item} {format k written n : ℕ}

theorem readLoop_nul (hc : s.mem format = 0) (fuel : ℕ) :
    readLoop args (fuel + 1) format k written ⟨s, ex⟩ =
      some (written, ⟨s, ex ++ [format]⟩) := by
  rw [readLoop, bind_apply_of_runs examine_apply, hc, if_pos rfl]
  rfl

theorem readLoop_char {c : UInt8} (hc : s.mem format = c) (hnul : c ≠ 0) (hpercent : c ≠ percent)
    (fuel : ℕ) : readLoop args (fuel + 1) format k written ⟨s, ex⟩ =
      readLoop args fuel (format + 1) k (written + 1) ⟨s.putChar c, ex ++ [format]⟩ := by
  rw [readLoop, bind_apply_of_runs examine_apply, hc, if_neg hnul, if_neg hpercent]
  exact bind_apply_of_runs (onConsole_apply modify_apply)

theorem ends_readLoop_percent {t : Console} {r : ℕ × ℕ} {r' : Reader}
    (hc : s.mem format = percent)
    (hconvert : Ends (fun fuel ↦ convert fuel (format + 1) (args k)) s r t)
    (hrest : Ends (fun fuel ↦ readLoop args fuel (format + 2) (k + r.1) (written + r.2))
      ⟨t, ex ++ List.range' format 2⟩ n r') :
    Ends (fun fuel ↦ readLoop args fuel format k written) ⟨s, ex⟩ n r' := by
  refine Ends.of_succ (Ends.congr (fun fuel ↦ ?_) ((ends_onConsole hconvert).bind
    (f := fun fuel r ↦ readLoop args fuel (format + 2) (k + r.1) (written + r.2)) hrest))
  rw [readLoop, bind_apply_of_runs examine_apply, hc, if_neg (by decide), if_pos rfl,
    bind_apply_of_runs examine_apply, List.append_assoc]
  rfl

/-- The end of a run that has done `x`, with `j` characters of the format, before the rest. -/
theorem ends_cons {x : Item} {m : ℕ → Prog Reader ℕ} {r : Reader} {j l : ℕ}
    (h : Ends m r (written + x.counted + (is.map Item.counted).sum)
      ⟨(s.putChars x.shown).putChars (is.flatMap Item.shown),
        ex ++ List.range' format j ++ List.range' (format + j) l⟩) :
    Ends m r (written + ((x :: is).map Item.counted).sum)
      ⟨s.putChars ((x :: is).flatMap Item.shown), ex ++ List.range' format (j + l)⟩ := by
  rwa [List.map_cons, List.sum_cons, List.flatMap_cons, putChars_append, ← Nat.add_assoc,
    ← List.range'_append_1, ← List.append_assoc]

/-- **A format without a lone percent sign.** Every character up to the terminator is looked at
once, and none behind it. -/
theorem ends_readLoop (hparses : Parses fs as is) (hlone : Item.lone ∉ is) (hs : s.OnScreen)
    (hformat : CString s.mem format fs) (hargs : Passed s.mem args k as) :
    Ends (fun fuel ↦ readLoop args fuel format k written) ⟨s, ex⟩
      (written + (is.map Item.counted).sum)
      ⟨s.putChars (is.flatMap Item.shown), ex ++ List.range' format (fs.length + 1)⟩ := by
  induction hparses generalizing s ex format k written with
  | nil => exact Ends.of_succ (ends_of_runs fun fuel ↦ readLoop_nul hformat.2 fuel)
  | lone => exact absurd (List.mem_singleton_self _) hlone
  | @char c fs as is hc h ih =>
    obtain ⟨-, hmem, hnul, hrest⟩ := hformat
    have hkeeps : KeepsMemory s (s.putChar c) := keepsMemory_putChar hs
    have hloop := fun written ex ↦ @ih (s.putChar c) ex (format + 1) k written
      (fun hmem ↦ hlone (List.mem_cons_of_mem _ hmem)) (hs.putChar c) (hrest.keeps hkeeps)
      (hargs.keeps hkeeps)
    rw [List.length_cons, Nat.add_comm (fs.length + 1)]
    exact ends_cons (Ends.of_succ (Ends.congr (readLoop_char hmem hnul hc) (hloop _ _)))
  | @copied d fs as is hd h ih =>
    obtain ⟨-, hmem, -, ha, hd', -, hrest⟩ := hformat
    have hkeeps : KeepsMemory s (s.putChars (if d = percent then [d] else [percent, d])) :=
      keepsMemory_putChars hs
    have hloop := fun written ex ↦ @ih _ ex (format + 2) k written
      (fun hmem ↦ hlone (List.mem_cons_of_mem _ hmem)) hs.putChars (hrest.keeps hkeeps)
      (hargs.keeps hkeeps)
    rw [List.length_cons, List.length_cons, Nat.add_assoc, Nat.add_comm (fs.length + 1)]
    exact ends_cons (ends_readLoop_percent hmem
      (ends_of_runs (convert_of_none hs ha hd' hd)) (hloop _ _))
  | @directive d fs arg as is x f hd hx h ih =>
    obtain ⟨-, hmem, -, -, hd', -, hrest⟩ := hformat
    have hkeeps : KeepsMemory s (s.putChars x.shown) := keepsMemory_putChars hs
    have hloop := fun written ex ↦ @ih _ ex (format + 2) (k + 1) written
      (fun hmem ↦ hlone (List.mem_cons_of_mem _ hmem)) hs.putChars (hrest.keeps hkeeps)
      (hargs.2.keeps hkeeps)
    rw [List.length_cons, List.length_cons, Nat.add_assoc, Nat.add_comm (fs.length + 1)]
    exact ends_cons (ends_readLoop_percent hmem (ends_convert hs hd' hd hx hargs.1) (hloop _ _))

/-! ### A lone percent sign -/

theorem runs_onConsole {m : Prog Console α} {r' : Reader} :
    Runs (onConsole m) ⟨s, ex⟩ a r' ↔ ∃ s', Runs m s a s' ∧ r' = ⟨s', ex⟩ := by
  simp only [Runs, onConsole, Option.map_eq_some_iff, Prod.exists, Prod.mk.injEq]
  constructor
  · rintro ⟨a', s', h, rfl, rfl⟩
    exact ⟨s', h, rfl⟩
  · rintro ⟨s', h, rfl⟩
    exact ⟨a, s', h, rfl, rfl⟩

/-- What a pass of the loop can do. -/
theorem readLoop_cases {fuel : ℕ} {r' : Reader}
    (h : Runs (readLoop args fuel format k written) ⟨s, ex⟩ n r') : ∃ fuel', fuel = fuel' + 1 ∧
      (s.mem format = 0 ∧ r' = ⟨s, ex ++ [format]⟩ ∨
        (s.mem format = percent ∧ ∃ (p : ℕ × ℕ) (t : Console), Fed s t ∧
          Runs (readLoop args fuel' (format + 2) (k + p.1) (written + p.2))
            ⟨t, ex ++ [format] ++ [format + 1]⟩ n r') ∨
        s.mem format ≠ 0 ∧ s.mem format ≠ percent ∧
          Runs (readLoop args fuel' (format + 1) k (written + 1))
            ⟨s.putChar (s.mem format), ex ++ [format]⟩ n r') := by
  cases fuel with
  | zero => simp [Runs, readLoop] at h
  | succ fuel =>
    refine ⟨fuel, rfl, ?_⟩
    rw [readLoop, runs_bind_of_runs examine_apply] at h
    by_cases hnul : s.mem format = 0
    · rw [if_pos hnul, runs_pure] at h
      exact .inl ⟨hnul, h.2.symm⟩
    by_cases hpercent : s.mem format = percent
    · rw [if_neg hnul, if_pos hpercent, runs_bind_of_runs examine_apply] at h
      obtain ⟨p, r, hconvert, hrest⟩ := runs_bind.1 h
      obtain ⟨t, hrun, rfl⟩ := runs_onConsole.1 hconvert
      exact .inr (.inl ⟨hpercent, p, t, (convert_respects _ _ _).run hrun, hrest⟩)
    · rw [if_neg hnul, if_neg hpercent,
        runs_bind_of_runs (onConsole_apply modify_apply)] at h
      exact .inr (.inr ⟨hnul, hpercent, h⟩)

/-- The loop looks at the first character, and forgets no address. -/
theorem examined_readLoop {fuel : ℕ} {r' : Reader}
    (h : Runs (readLoop args fuel format k written) ⟨s, ex⟩ n r') :
    ex ++ [format] ⊆ r'.examined := by
  induction fuel generalizing s ex format k written with
  | zero => simp [Runs, readLoop] at h
  | succ fuel ih =>
    obtain ⟨fuel, hfuel, ⟨-, rfl⟩ | ⟨-, p, t, -, hrest⟩ | ⟨-, -, hrest⟩⟩ := readLoop_cases h
    · exact fun _ ↦ id
    · obtain rfl := Nat.succ_injective hfuel
      exact fun b hb ↦ ih hrest (List.mem_append_left _ (List.mem_append_left _ hb))
    · obtain rfl := Nat.succ_injective hfuel
      exact fun b hb ↦ ih hrest (List.mem_append_left _ hb)

theorem runs_readLoop_percent {fuel : ℕ} {r' : Reader} (hmem : s.mem format = percent)
    (h : Runs (readLoop args fuel format k written) ⟨s, ex⟩ n r') :
    ∃ (p : ℕ × ℕ) (t : Console), Fed s t ∧ ∃ fuel',
      Runs (readLoop args fuel' (format + 2) (k + p.1) (written + p.2))
        ⟨t, ex ++ [format] ++ [format + 1]⟩ n r' := by
  obtain ⟨fuel, -, ⟨hnul, -⟩ | ⟨-, p, t, hfed, hrest⟩ | ⟨-, hne, -⟩⟩ := readLoop_cases h
  · exact absurd (hmem.symm.trans hnul) (by decide)
  · exact ⟨p, t, hfed, fuel, hrest⟩
  · exact absurd hmem hne

theorem runs_readLoop_char {fuel : ℕ} {r' : Reader} {c : UInt8} (hmem : s.mem format = c)
    (hnul : c ≠ 0) (hpercent : c ≠ percent)
    (h : Runs (readLoop args fuel format k written) ⟨s, ex⟩ n r') :
    ∃ fuel', Runs (readLoop args fuel' (format + 1) k (written + 1))
      ⟨s.putChar c, ex ++ [format]⟩ n r' := by
  subst hmem
  obtain ⟨fuel, -, ⟨heq, -⟩ | ⟨heq, -⟩ | ⟨-, -, hrest⟩⟩ := readLoop_cases h
  · exact absurd heq hnul
  · exact absurd heq hpercent
  · exact ⟨fuel, hrest⟩

theorem Fed.onScreen (h : Fed s s') (hs : s.OnScreen) : s'.OnScreen := by
  obtain ⟨cs, rfl⟩ := h
  exact hs.putChars

theorem Fed.keepsMemory (h : Fed s s') (hs : s.OnScreen) : KeepsMemory s s' := by
  obtain ⟨cs, rfl⟩ := h
  exact keepsMemory_putChars hs

/-- **A format with a lone percent sign.** Any run looks behind the terminator. -/
theorem overruns {fuel : ℕ} {r' : Reader} (hparses : Parses fs as is) (hlone : Item.lone ∈ is)
    (hs : s.OnScreen) (hformat : CString s.mem format fs)
    (hrun : Runs (readLoop args fuel format k written) ⟨s, ex⟩ n r') :
    ∃ b ∈ r'.examined, format + fs.length < b := by
  induction hparses generalizing s ex format k written fuel with
  | nil => cases hlone
  | lone =>
    obtain ⟨-, hmem, -⟩ := hformat
    obtain ⟨p, t, -, fuel, hrest⟩ := runs_readLoop_percent hmem hrun
    exact ⟨format + 2, examined_readLoop hrest (by simp), by simp⟩
  | @char c fs as is hc h ih =>
    obtain ⟨-, hmem, hnul, hformat⟩ := hformat
    obtain ⟨fuel, hrest⟩ := runs_readLoop_char hmem hnul hc hrun
    obtain ⟨b, hb, hlt⟩ := ih (List.mem_of_ne_of_mem Item.noConfusion hlone) (hs.putChar c)
      (hformat.keeps (keepsMemory_putChar hs)) hrest
    exact ⟨b, hb, by rw [List.length_cons]; omega⟩
  | @copied d fs as is hd h ih =>
    obtain ⟨-, hmem, -, -, -, -, hformat⟩ := hformat
    obtain ⟨p, t, hfed, fuel, hrest⟩ := runs_readLoop_percent hmem hrun
    obtain ⟨b, hb, hlt⟩ := ih (List.mem_of_ne_of_mem Item.noConfusion hlone) (hfed.onScreen hs)
      (hformat.keeps (hfed.keepsMemory hs)) hrest
    exact ⟨b, hb, by rw [List.length_cons, List.length_cons]; omega⟩
  | @directive d fs arg as is x f hd hx h ih =>
    obtain ⟨-, hmem, -, -, -, -, hformat⟩ := hformat
    obtain ⟨p, t, hfed, fuel, hrest⟩ := runs_readLoop_percent hmem hrun
    obtain ⟨b, hb, hlt⟩ := ih (List.mem_of_ne_of_mem (ne_lone_of_conversion hd hx).symm hlone)
      (hfed.onScreen hs) (hformat.keeps (hfed.keepsMemory hs)) hrest
    exact ⟨b, hb, by rw [List.length_cons, List.length_cons]; omega⟩

end Reader
