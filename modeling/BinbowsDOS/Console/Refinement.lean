import BinbowsDOS.Console.Terminal
import BinbowsDOS.Console.Vga

/-!
# The console refines the unbounded terminal

The screen is a window of 25 lines on the page of a `Terminal` that has processed the same bytes.
`Shows base s t` says that the window starts at line `base`: cell for cell the characters agree,
the cursors agree, and the page is blank below the window. A character keeps this with a cursor
that may stand one line below the window (`Shows.interpret`, `Shows.wrap`), and the scroll moves
the window down (`Shows.scroll`). Runs of `clear_screen`, `print` and `printf` are sequences of
characters between two settings of the cursor.
-/

open Prog

namespace Console

variable {s s' s'' : Console} {c : UInt8} {i j k n v : ℕ}

/-- The character shown by a cell. -/
def charAt (s : Console) (i : ℕ) : UInt8 := s.mem (0xB8000 + 2 * i)

/-- One of the two bytes of a cell. -/
def byteAt (s : Console) (k i : ℕ) : UInt8 := s.mem (0xB8000 + 2 * i + k)

/-- Only cells have changed. -/
def CellsOnly (s s' : Console) : Prop := s' = { s with mem := s'.mem, touched := s'.touched }

/-- Every cell that was touched is on the screen. -/
def Inside (s : Console) : Prop := ∀ i ∈ s.touched, 0 ≤ i ∧ i < 2000

theorem CellsOnly.refl (s : Console) : CellsOnly s s := rfl

theorem CellsOnly.trans (h₁ : CellsOnly s s') (h₂ : CellsOnly s' s'') : CellsOnly s s'' := by
  rw [CellsOnly, h₂, h₁]

/-! ### Cells -/

/-- The attribute bits do not reach the character. -/
theorem ofNat_cellValue (c : UInt8) : UInt8.ofNat (cellValue c) = c := by
  have hlow : cellValue c % 2 ^ 8 = c.toNat := by
    have hc := c.toNat_lt
    rw [cellValue, u16, Nat.mod_mod_of_dvd _ (by decide), Nat.or_mod_two_pow, extendChar]
    rw [show vgaColor <<< 8 % 2 ^ 8 = 0 by decide, Nat.zero_or]
    split <;> omega
  rw [← UInt8.toNat_inj, UInt8.toNat_ofNat', hlow]

theorem cellAddr_natCast (i : ℕ) : cellAddr i = 0xB8000 + 2 * i := by
  rw [cellAddr]
  omega

theorem byteAt_writeCell (hk : k < 2) : (s.writeCell i v).byteAt k j =
    if j = i then UInt8.ofNat (v / 256 ^ k) else s.byteAt k j := by
  show s.mem.storeLE (cellAddr i) 2 v (0xB8000 + 2 * j + k) = _
  rw [cellAddr_natCast]
  split
  · next h =>
    rw [h]
    exact ByteMem.blit_apply_add hk
  · exact ByteMem.storeLE_apply_of_not_mem (by omega)

/-- What is read from a cell are its bytes. -/
theorem ofNat_readCell (hk : k < 2) : UInt8.ofNat ((s.readCell i).1 / 256 ^ k) = s.byteAt k i := by
  rw [readCell, cellAddr_natCast, byteAt]
  exact ByteMem.ofNat_loadLE_div hk

theorem cellsOnly_writeCell : CellsOnly s (s.writeCell i v) := rfl

theorem cellsOnly_fillCells (start n : ℕ) : CellsOnly s (fillCells start n s) := by
  induction n with
  | zero => exact .refl s
  | succ n ih => exact ih.trans cellsOnly_writeCell

theorem cellsOnly_moveCells (n : ℕ) : CellsOnly s (moveCells n s) := by
  induction n with
  | zero => exact .refl s
  | succ n ih => exact ih.trans rfl

theorem byteAt_fillCells (hk : k < 2) (start n : ℕ) : (fillCells start n s).byteAt k j =
    if start ≤ j ∧ j < start + n then UInt8.ofNat (cellValue ' '.toUInt8 / 256 ^ k)
    else s.byteAt k j := by
  induction n with
  | zero => rw [if_neg (by omega)]; rfl
  | succ n ih =>
    rw [fillCells, byteAt_writeCell hk, ih]
    split_ifs <;> first | rfl | omega

/-- A cell is read before it is overwritten. -/
theorem byteAt_moveCells (hk : k < 2) (n : ℕ) : (moveCells n s).byteAt k j =
    if j < n then s.byteAt k (j + 80) else s.byteAt k j := by
  induction n generalizing j with
  | zero => rw [if_neg (by omega)]; rfl
  | succ n ih =>
    have hsource : UInt8.ofNat (((moveCells n s).readCell (n + vgaWidth : ℕ)).1 / 256 ^ k) =
        s.byteAt k (n + 80) := by
      rw [ofNat_readCell hk, ih]
      exact if_neg (Nat.not_lt.2 (Nat.le_add_right ..))
    rw [moveCells, byteAt_writeCell hk, hsource]
    show (if j = n then _ else (moveCells n s).byteAt k j) = _
    rw [ih]
    rcases Nat.lt_trichotomy j n with h | rfl | h
    · rw [if_neg h.ne, if_pos h, if_pos (Nat.lt_succ_of_lt h)]
    · rw [if_pos rfl, if_pos (Nat.lt_succ_self j)]
    · rw [if_neg h.ne', if_neg h.asymm, if_neg (Nat.not_lt.2 h)]

/-! ### Characters -/

theorem charAt_writeCell : (s.writeCell i v).charAt j = if j = i then UInt8.ofNat v
    else s.charAt j := by
  have hbyte : (s.writeCell i v).byteAt 0 j = _ := byteAt_writeCell (by decide)
  rwa [Nat.pow_zero, Nat.div_one] at hbyte

theorem charAt_fillCells (start n : ℕ) : (fillCells start n s).charAt j =
    if start ≤ j ∧ j < start + n then ' '.toUInt8 else s.charAt j := by
  have hbyte : (fillCells start n s).byteAt 0 j = _ := byteAt_fillCells (by decide) start n
  exact hbyte

theorem Inside.writeCell (h : s.Inside) {i : ℤ} (h₁ : 0 ≤ i) (h₂ : i < 2000) :
    (s.writeCell i v).Inside := by
  intro j hj
  rcases List.mem_cons.1 hj with rfl | hj
  · exact ⟨h₁, h₂⟩
  · exact h j hj

theorem Inside.fillCells (h : s.Inside) {start : ℕ} (hn : start + n ≤ 2000) :
    (fillCells start n s).Inside := by
  induction n with
  | zero => exact h
  | succ n ih => exact (ih (by omega)).writeCell (by omega) (by omega)

theorem Inside.moveCells (h : s.Inside) (hn : n + 80 ≤ 2000) : (moveCells n s).Inside := by
  induction n with
  | zero => exact h
  | succ n ih =>
    have hread : ((Console.moveCells n s).readCell (n + vgaWidth : ℕ)).2.Inside := by
      intro j hj
      rcases List.mem_cons.1 hj with rfl | hj
      · simp only [vgaWidth]
        omega
      · exact ih (by omega) j hj
    exact hread.writeCell (by omega) (by omega)

/-! ### Scrolling -/

/-- The cells after a scroll: one line up, and a blank line. -/
theorem byteAt_scrollScreen (hk : k < 2) : s.scrollScreen.byteAt k j =
    if j < 1920 then s.byteAt k (j + 80)
    else if j < 2000 then UInt8.ofNat (cellValue ' '.toUInt8 / 256 ^ k) else s.byteAt k j := by
  show (fillCells 1920 80 (moveCells 1920 s)).byteAt k j = _
  rw [byteAt_fillCells hk, byteAt_moveCells hk]
  split_ifs <;> first | rfl | omega

theorem charAt_scrollScreen : s.scrollScreen.charAt j = if j < 1920 then s.charAt (j + 80)
    else if j < 2000 then ' '.toUInt8 else s.charAt j := by
  have hbyte : s.scrollScreen.byteAt 0 j = _ := byteAt_scrollScreen (by decide)
  exact hbyte

theorem cellsOnly_scrollScreen : CellsOnly s s.scrollScreen :=
  (cellsOnly_moveCells _).trans (cellsOnly_fillCells _ _)

theorem Inside.scrollScreen (h : s.Inside) : s.scrollScreen.Inside :=
  (h.moveCells (by decide)).fillCells (by decide)

end Console

/-! ### One character -/

/-- The screen is the window on the page of `t` that starts at line `base`. The cursor may stand
below it. -/
structure Shows (base : ℕ) (s : Console) (t : Terminal) : Prop where
  /-- The window does not start below the cursor. -/
  base_le : base ≤ t.row
  /-- The cursor's line, counted from the top of the window. -/
  row : s.cursorRow = t.row - base
  /-- The cursor's column. -/
  col : s.cursorCol = t.col
  /-- The characters in the window. -/
  shown : ∀ r < 25, ∀ c < 80, s.charAt (80 * r + c) = t.cell (base + r) c
  /-- The page below the window is blank. -/
  fresh : ∀ r, base + 25 ≤ r → ∀ c, t.cell r c = ' '.toUInt8
  /-- Every cell touched was on the screen. -/
  inside : s.Inside

namespace Shows

variable {base : ℕ} {s : Console} {t : Terminal} {c : UInt8}

/-- The character shown after a character has been put at the cursor. -/
theorem place (h : Shows base s t) (hrow : t.row < base + 25) (hcol : t.col < 80) :
    Shows base { s.writeCell (s.cursorRow * vgaWidth + s.cursorCol) (cellValue c) with
      cursorCol := s.cursorCol + 1 } (t.place c) := by
  have hbase := h.base_le
  have hpos : s.cursorRow * vgaWidth + s.cursorCol = (80 * (t.row - base) + t.col : ℕ) := by
    rw [h.row, h.col, vgaWidth]
    omega
  rw [hpos]
  refine ⟨hbase, h.row, ?_, ?_, ?_, h.inside.writeCell (v := cellValue c) (by omega) (by omega)⟩
  · show s.cursorCol + 1 = ((t.col + 1 : ℕ) : ℤ)
    rw [h.col]
    rfl
  · intro r hr c' hc'
    show (s.writeCell (80 * (t.row - base) + t.col : ℕ) (cellValue c)).charAt (80 * r + c') =
      Function.update t.cell t.row _ (base + r) c'
    rw [Console.charAt_writeCell, Console.ofNat_cellValue, h.shown r hr c' hc']
    rcases eq_or_ne (base + r) t.row with heq | hne
    · rw [heq, Function.update_self]
      rcases eq_or_ne c' t.col with rfl | hne'
      · rw [Function.update_self, if_pos (by omega)]
      · rw [Function.update_of_ne hne', if_neg (by omega)]
    · rw [Function.update_of_ne hne, if_neg (by omega)]
  · intro r hr c'
    show Function.update t.cell t.row _ r c' = _
    rw [Function.update_of_ne (by omega)]
    exact h.fresh r hr c'

theorem interpret (h : Shows base s t) (hrow : t.row < base + 25) (hcol : t.col < 80) :
    Shows base (s.interpret c) (t.interpret c) := by
  have hbase := h.base_le
  rw [Console.interpret, Terminal.interpret]
  split_ifs with hnewline hreturn htab hback hpos
  · exact ⟨Nat.le_succ_of_le hbase, by simp only [h.row]; omega, rfl, h.shown, h.fresh, h.inside⟩
  · exact ⟨hbase, h.row, rfl, h.shown, h.fresh, h.inside⟩
  · exact ⟨hbase, h.row, by simp only [h.col]; omega, h.shown, h.fresh, h.inside⟩
  · exact ⟨hbase, h.row, by simp only [h.col] at hpos ⊢; omega, h.shown, h.fresh, h.inside⟩
  · exact ⟨hbase, h.row, by simp only [h.col] at hpos ⊢; omega, h.shown, h.fresh, h.inside⟩
  · exact h.place hrow hcol

theorem wrap (h : Shows base s t) : Shows base s.wrapLine (t.wrap 80) := by
  have hbase := h.base_le
  have hcol := h.col
  rw [Console.wrapLine, Terminal.wrap, vgaWidth]
  by_cases hwrap : 80 ≤ t.col
  · rw [if_pos (by omega), if_pos hwrap]
    exact ⟨Nat.le_succ_of_le hbase, by simp only [h.row]; omega, rfl, h.shown, h.fresh, h.inside⟩
  · rw [if_neg (by omega), if_neg hwrap]
    exact h

/-- A cursor below the window takes the window along. -/
theorem scroll (h : Shows base s t) (hrow : t.row = base + 25) (hcol : t.col = 0) :
    Shows (base + 1) s.scrollPast t := by
  have hcursor := h.row
  have hinside := h.inside.scrollScreen
  have hshown := fun j ↦ Console.charAt_scrollScreen (s := s) (j := j)
  rw [Console.scrollPast, vgaHeight, if_pos (by omega)]
  generalize s.scrollScreen = s' at hinside hshown ⊢
  refine ⟨by omega, by simp only; omega, by simp only [hcol]; rfl, ?_, ?_, hinside⟩
  · intro r hr c' hc'
    show s'.charAt (80 * r + c') = _
    rw [hshown]
    rcases Nat.lt_or_ge r 24 with hlt | hge
    · rw [if_pos (by omega), show 80 * r + c' + 80 = 80 * (r + 1) + c' by omega,
        h.shown (r + 1) (by omega) c' hc', show base + 1 + r = base + (r + 1) by omega]
    · rw [if_neg (by omega), if_pos (by omega), h.fresh _ (by omega)]
  · intro r hr
    exact h.fresh r (by omega)

/-- **One character.** The window follows the cursor, so that it always ends with the cursor's
line once that is line 24 or lower. -/
theorem putChar (h : Shows (t.row - 24) s t) (hcol : t.col < 80) :
    Shows ((t.put 80 c).row - 24) (s.putChar c) (t.put 80 c) := by
  have hfed : Shows (t.row - 24) { s with fed := s.fed ++ [c] } t :=
    ⟨h.base_le, h.row, h.col, h.shown, h.fresh, h.inside⟩
  have hwrap := (hfed.interpret (c := c) (by omega) hcol).wrap
  rcases Terminal.row_put (t := t) (c := c) (show 0 < 80 by decide) with hsame | ⟨hnext, hzero⟩
  · have hcursor := hwrap.row
    rw [show (t.interpret c).wrap 80 = t.put 80 c from rfl] at hwrap hcursor
    rw [Console.putChar, Console.scrollPast, vgaHeight, if_neg (by omega), hsame]
    exact hwrap
  · rcases Nat.lt_or_ge t.row 24 with hlt | hge
    · have hcursor := hwrap.row
      rw [show (t.interpret c).wrap 80 = t.put 80 c from rfl] at hwrap hcursor
      rw [Console.putChar, Console.scrollPast, vgaHeight, if_neg (by omega),
        show (t.put 80 c).row - 24 = t.row - 24 by omega]
      exact hwrap
    · rw [show (t.put 80 c).row - 24 = t.row - 24 + 1 by omega]
      exact hwrap.scroll (show (t.put 80 c).row = _ by omega) hzero

end Shows

/-! ### Sequences of characters -/

namespace Console

variable {s s' : Console} {c : UInt8} {cs ds : List UInt8}

/-- The page of a terminal that has processed the same bytes since the screen was cleared. -/
def page (s : Console) : Terminal := Terminal.blank.feed 80 s.fed

/-- The screen is the window on that page that follows the cursor. -/
def Mirrors (s : Console) : Prop := Shows (s.page.row - 24) s s.page

theorem col_page_lt (s : Console) : s.page.col < 80 := Terminal.col_feed_lt (by decide)

theorem fed_interpret : (s.interpret c).fed = s.fed := by
  rw [interpret]
  split_ifs <;> rfl

theorem fed_wrapLine : s.wrapLine.fed = s.fed := by
  rw [wrapLine]
  split <;> rfl

theorem fed_scrollPast : s.scrollPast.fed = s.fed := by
  have hcells := cellsOnly_scrollScreen (s := s)
  rw [scrollPast]
  generalize s.scrollScreen = s' at hcells ⊢
  split
  · rw [hcells]
  · rfl

theorem fed_putChar : (s.putChar c).fed = s.fed ++ [c] := by
  rw [putChar, fed_scrollPast, fed_wrapLine, fed_interpret]

theorem page_putChar : (s.putChar c).page = s.page.put 80 c := by
  rw [page, fed_putChar, Terminal.feed_append_singleton]
  rfl

theorem Mirrors.putChar (h : s.Mirrors) (c : UInt8) : (s.putChar c).Mirrors := by
  rw [Mirrors, page_putChar]
  exact Shows.putChar h s.col_page_lt

/-- **Any characters.** -/
theorem Mirrors.putChars (h : s.Mirrors) (cs : List UInt8) : (s.putChars cs).Mirrors := by
  induction cs generalizing s with
  | nil => exact h
  | cons c cs ih => exact ih (h.putChar c)

theorem putChars_append : s.putChars (cs ++ ds) = (s.putChars cs).putChars ds := List.foldl_append

/-! ### The hardware cursor -/

/-- Setting the cursor, with the two registers of the display controller. -/
theorem setCursor_eq (row col : ℤ) (s : Console) {position : ℕ}
    (hposition : ((row * vgaWidth + col) % 2 ^ 16).toNat = position) :
    s.setCursor row col = { s with
      cursorRow := row
      cursorCol := col
      crtcIndex := 0x0E
      crtc := Function.update
        (Function.update s.crtc 0x0F (UInt8.ofNat (position &&& 0xFF))) 0x0E
        (UInt8.ofNat ((position >>> 8) &&& 0xFF)) } := by
  subst hposition
  rfl

/-- The registers hold a position on the screen. -/
theorem hardwareCursor_setCursor (row col : ℤ) (h₁ : 0 ≤ row * 80 + col)
    (h₂ : row * 80 + col < 2 ^ 16) :
    ((s.setCursor row col).hardwareCursor : ℤ) = row * 80 + col := by
  have hposition : ((row * vgaWidth + col) % 2 ^ 16).toNat = (row * 80 + col).toNat :=
    congrArg Int.toNat (Int.emod_eq_of_lt h₁ h₂)
  have hlow : (row * 80 + col).toNat &&& 0xFF = (row * 80 + col).toNat % 2 ^ 8 :=
    Nat.and_two_pow_sub_one_eq_mod _ 8
  have hhigh : ((row * 80 + col).toNat >>> 8) &&& 0xFF = (row * 80 + col).toNat / 2 ^ 8 % 2 ^ 8 :=
    shiftRight_and_mask _ 8 8
  rw [setCursor_eq row col s hposition, hlow, hhigh, hardwareCursor]
  simp only [Function.update_self]
  rw [Function.update_of_ne (by decide), Function.update_self, UInt8.toNat_ofNat',
    UInt8.toNat_ofNat']
  omega

/-- The display shows its cursor where the console has it. -/
def Synced (s : Console) : Prop := (s.hardwareCursor : ℤ) = s.cursorRow * 80 + s.cursorCol

theorem Mirrors.cursor_bounds (h : s.Mirrors) : 0 ≤ s.cursorRow * 80 + s.cursorCol ∧
    s.cursorRow * 80 + s.cursorCol < 2000 := by
  have hbase := h.base_le
  have hrow := h.row
  have hcol := h.col
  have hlt := s.col_page_lt
  omega

theorem Mirrors.setCursor (h : s.Mirrors) :
    (s.setCursor s.cursorRow s.cursorCol).Mirrors ∧
      (s.setCursor s.cursorRow s.cursorCol).Synced := by
  obtain ⟨hlow, hhigh⟩ := h.cursor_bounds
  have hsynced := hardwareCursor_setCursor (s := s) _ _ hlow (by omega)
  rw [Synced]
  rw [setCursor_eq _ _ s rfl] at hsynced ⊢
  exact ⟨⟨h.base_le, h.row, h.col, h.shown, h.fresh, h.inside⟩, hsynced⟩

/-- A cleared screen shows a blank page. -/
theorem clearScreen_mirrors (h : s.Inside) : s.clearScreen.Mirrors ∧ s.clearScreen.Synced := by
  have hsynced := hardwareCursor_setCursor (s := { fillCells 0 2000 s with fed := [] }) 0 0 le_rfl
    (by decide)
  have hinside := h.fillCells (show 0 + 2000 ≤ 2000 from le_rfl)
  have hshown := fun j ↦ charAt_fillCells (s := s) (j := j) 0 2000
  rw [show s.clearScreen = setCursor 0 0 { fillCells 0 2000 s with fed := [] } from rfl, Synced]
  rw [setCursor_eq 0 0 _ rfl] at hsynced ⊢
  generalize fillCells 0 2000 s = s' at hinside hshown hsynced ⊢
  refine ⟨⟨le_rfl, rfl, rfl, ?_, fun _ _ _ ↦ rfl, hinside⟩, hsynced⟩
  intro r hr c hc
  exact (hshown _).trans (if_pos (by omega))

end Console

/-! ### Runs -/

section Run

open Console

variable {s s' s₀ : Console}

/-- Characters have been put. -/
def Fed (s s' : Console) : Prop := ∃ cs, s' = s.putChars cs

theorem Fed.refl (s : Console) : Fed s s := ⟨[], rfl⟩

theorem Fed.trans (s s' s'' : Console) : Fed s s' → Fed s' s'' → Fed s s'' := by
  rintro ⟨cs, rfl⟩ ⟨ds, rfl⟩
  exact ⟨cs ++ ds, putChars_append.symm⟩

theorem fed_pure {α : Type} (a : α) : Respects Fed (pure a : Prog Console α) :=
  respects_pure Fed.refl a

theorem fed_bind {α β : Type} {m : Prog Console α} {f : α → Prog Console β}
    (hm : Respects Fed m) (hf : ∀ a, Respects Fed (f a)) : Respects Fed (m >>= f) :=
  respects_bind Fed.trans hm hf

theorem fed_get : Respects Fed (get : Prog Console Console) := respects_get Fed.refl

theorem putChars_respects (cs : List UInt8) :
    Respects Fed (modify (putChars cs) : Prog Console PUnit) := by
  rintro s u s' h
  exact ⟨cs, (runs_modify.1 h).symm⟩

theorem putChar_respects (c : UInt8) : Respects Fed (modify (putChar c) : Prog Console PUnit) :=
  putChars_respects [c]

theorem printStrLoop_respects (fuel str : ℕ) : Respects Fed (printStrLoop fuel str) := by
  induction fuel generalizing str with
  | zero => exact fun _ _ _ h ↦ by simp [Runs, printStrLoop] at h
  | succ fuel ih =>
    exact fed_bind fed_get fun _ ↦
      respects_ite (fed_bind (putChar_respects _) fun _ ↦ ih _) (fed_pure _)

theorem printStr_respects (fuel str : ℕ) : Respects Fed (printStr fuel str) :=
  respects_ite (putChars_respects _) (printStrLoop_respects _ _)

theorem strlen_respects (fuel str : ℕ) : Respects Fed (strlen fuel str) := by
  refine respects_ite (fed_pure _) ?_
  generalize 0 = len
  induction fuel generalizing str len with
  | zero => exact fun _ _ _ h ↦ by simp [Runs, strlenLoop] at h
  | succ fuel ih => exact fed_bind fed_get fun _ ↦ respects_ite (ih _ _) (fed_pure _)

theorem convert_respects (fuel format : ℕ) (arg : UInt32) :
    Respects Fed (convert fuel format arg) := by
  have htext : ∀ (cs : List UInt8) (r : ℕ × ℕ),
      Respects Fed (do modify (putChars cs); pure r : Prog Console (ℕ × ℕ)) := fun cs r ↦
    fed_bind (putChars_respects cs) fun _ ↦ fed_pure r
  refine fed_bind fed_get fun s ↦ ?_
  refine respects_ite (htext [_] _) <| respects_ite ?_ <| respects_ite (htext _ _) <|
    respects_ite (htext _ _) <| respects_ite (htext _ _) <| respects_ite (htext _ _) <|
    respects_ite (htext _ _) <| respects_ite (htext [_] _) ?_
  · exact fed_bind (printStr_respects _ _) fun _ ↦ fed_bind (strlen_respects _ _) fun _ ↦ fed_pure _
  · exact fed_bind (putChar_respects _) fun _ ↦ fed_bind fed_get fun _ ↦
      fed_bind (putChar_respects _) fun _ ↦ fed_pure _

theorem printfLoop_respects (args : ℕ → UInt32) (fuel format k written : ℕ) :
    Respects Fed (printfLoop args fuel format k written) := by
  induction fuel generalizing format k written with
  | zero => exact fun _ _ _ h ↦ by simp [Runs, printfLoop] at h
  | succ fuel ih =>
    exact fed_bind fed_get fun _ ↦ respects_ite (fed_pure _) <|
      respects_ite (fed_bind (convert_respects _ _ _) fun _ ↦ ih _ _ _) <|
        fed_bind (putChar_respects _) fun _ ↦ ih _ _ _

/-- One step of the kernel, as far as the console is concerned. -/
inductive ConsoleStep : Console → Console → Prop
  /-- A call of `clear_screen`. -/
  | clear {s : Console} : ConsoleStep s s.clearScreen
  /-- A call of `print` that returns. -/
  | print {s s' : Console} {fuel str : ℕ} (hcall : Runs (print fuel str) s () s') :
    ConsoleStep s s'
  /-- A call of `printf` that returns. -/
  | printf {s s' : Console} {fuel format n : ℕ} {args : ℕ → UInt32}
    (hcall : Runs (printf fuel format args) s n s') : ConsoleStep s s'
  /-- Other code changes memory, but not the screen. -/
  | other {s : Console} {mem : ByteMem}
    (hmem : ∀ i < 4000, mem (0xB8000 + i) = s.mem (0xB8000 + i)) :
    ConsoleStep s { s with mem := mem }

/-- What a step does: it clears the screen, or puts characters and then sets the cursor where it
is, or leaves the screen alone. -/
theorem ConsoleStep.shape (h : ConsoleStep s s') : s' = s.clearScreen ∨
    (∃ cs, s' = (s.putChars cs).setCursor (s.putChars cs).cursorRow (s.putChars cs).cursorCol) ∨
    ∃ mem : ByteMem, (∀ i < 4000, mem (0xB8000 + i) = s.mem (0xB8000 + i)) ∧
      s' = { s with mem := mem } := by
  cases h with
  | clear => exact .inl rfl
  | @print _ fuel str hcall =>
    obtain ⟨_, t, hloop, hsync⟩ := runs_bind.1 hcall
    obtain ⟨cs, rfl⟩ := printStrLoop_respects _ _ _ _ _ hloop
    exact .inr (.inl ⟨cs, (runs_modify.1 hsync).symm⟩)
  | @printf _ fuel format n args hcall =>
    obtain ⟨written, t, hloop, hrest⟩ := runs_bind.1 hcall
    obtain ⟨_, u, hsync, hpure⟩ := runs_bind.1 hrest
    obtain ⟨cs, rfl⟩ := printfLoop_respects _ _ _ _ _ _ _ _ hloop
    exact .inr (.inl ⟨cs, by rw [← (runs_pure.1 hpure).2, ← runs_modify.1 hsync]⟩)
  | @other mem hmem => exact .inr (.inr ⟨mem, hmem, rfl⟩)

/-- What holds after every call. -/
theorem ConsoleStep.mirrors (hstep : ConsoleStep s s') (h : s.Mirrors ∧ s.Synced) :
    s'.Mirrors ∧ s'.Synced := by
  rcases hstep.shape with rfl | ⟨cs, rfl⟩ | ⟨mem, hmem, rfl⟩
  · exact clearScreen_mirrors h.1.inside
  · exact (h.1.putChars cs).setCursor
  · refine ⟨⟨h.1.base_le, h.1.row, h.1.col, ?_, h.1.fresh, h.1.inside⟩, h.2⟩
    intro r hr c hc
    exact (hmem (2 * (80 * r + c)) (by omega)).trans (h.1.shown r hr c hc)

/-- What holds in every state that is reached. -/
theorem mirrors_of_run (h₀ : s₀.touched = [])
    (hrun : Relation.ReflTransGen ConsoleStep s₀.clearScreen s) : s.Mirrors ∧ s.Synced := by
  induction hrun with
  | refl => exact clearScreen_mirrors fun i hi ↦ absurd (h₀ ▸ hi) List.not_mem_nil
  | tail _ hstep ih => exact hstep.mirrors ih

/-- A machine that has just been switched on, with zeros in its memory. -/
def Console.boot : Console where
  mem _ := 0
  cursorRow := 0
  cursorCol := 0
  crtcIndex := 0
  crtc _ := 0
  fed := []
  touched := []

end Run
