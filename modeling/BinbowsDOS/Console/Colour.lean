import BinbowsDOS.Console.Printf

/-!
# The colour of the screen

A cell is `(VGA_COLOR << 8) | c`. A `char` is signed, so a character of the upper half brings ones
into the attribute: it is shown in white on a blinking white ground. A character of the lower half
leaves the attribute `VGA_COLOR`, and a scroll moves attributes along with their characters. So all
cells keep the colour exactly as long as no character of the upper half is put
(`plain_states_iff`), and one that is put is seen at once, even if the screen scrolls.

What a call puts is known from the strings and arguments it is given (`ItemStep.given_iff`).
-/

open Prog FormatString

namespace Console

variable {s s' s₀ : Console} {c : UInt8} {cs : List UInt8} {ss : List Console} {i j : ℕ}

/-- All cells have the colour of `clear_screen`. -/
def Plain (s : Console) : Prop := ∀ i < 2000, s.byteAt 1 i = UInt8.ofNat vgaColor

/-! ### One character -/

/-- The attribute of a character that is put. -/
def attributeOf (c : UInt8) : UInt8 := UInt8.ofNat (cellValue c / 256 ^ 1)

theorem attributeOf_eq (c : UInt8) :
    attributeOf c = UInt8.ofNat (if c.toNat < 0x80 then vgaColor else 0xFF) := by
  have hc := c.toNat_lt
  have hhigh : cellValue c / 256 ^ 1 = (vgaColor ||| extendChar c / 2 ^ 8) % 2 ^ 8 := by
    have hshift : (vgaColor <<< 8 ||| extendChar c) / 2 ^ 8 =
        vgaColor ||| extendChar c / 2 ^ 8 := by
      rw [← Nat.shiftRight_eq_div_pow, Nat.shiftRight_or_distrib, Nat.shiftLeft_shiftRight,
        Nat.shiftRight_eq_div_pow]
    rw [← hshift, cellValue, u16]
    omega
  rw [attributeOf, hhigh, extendChar]
  split_ifs with hascii
  · rw [Nat.div_eq_of_lt (by omega)]
    rfl
  · rw [show (0xFFFFFF00 + c.toNat) / 2 ^ 8 = 0xFFFFFF by omega]
    rfl

/-- The upper half of the characters does not have the colour. -/
theorem attributeOf_eq_iff : attributeOf c = UInt8.ofNat vgaColor ↔ c < 0x80 := by
  have hlt : c < 0x80 ↔ c.toNat < 0x80 := Iff.rfl
  rw [attributeOf_eq, hlt]
  split_ifs with hascii
  · exact iff_of_true rfl hascii
  · exact iff_of_false (by decide) hascii

/-- The upper half has no control characters. -/
theorem interpret_of_ge (hc : 0x80 ≤ c) : s.interpret c =
    { s.writeCell (s.cursorRow * vgaWidth + s.cursorCol) (cellValue c) with
      cursorCol := s.cursorCol + 1 } := by
  have hne : ∀ d : UInt8, d < 0x80 → c ≠ d := fun d hd heq ↦ UInt8.not_lt.2 hc (heq ▸ hd)
  rw [interpret, if_neg (hne _ (by decide)), if_neg (hne _ (by decide)), if_neg (hne _ (by decide)),
    if_neg (hne _ (by decide))]
  rfl

theorem Plain.writeCell {v : ℕ} (h : s.Plain)
    (hv : UInt8.ofNat (v / 256 ^ 1) = UInt8.ofNat vgaColor) : (s.writeCell i v).Plain := by
  intro j hj
  rw [byteAt_writeCell (by decide)]
  split_ifs
  · exact hv
  · exact h j hj

/-- A new line has the colour. -/
theorem Plain.scrollScreen (h : s.Plain) : s.scrollScreen.Plain := by
  intro j hj
  rw [byteAt_scrollScreen (by decide)]
  split_ifs with hmoved
  · exact h _ (by omega)
  · exact attributeOf_eq_iff.2 (by decide)

theorem plain_clearScreen (s : Console) : s.clearScreen.Plain := by
  have hfilled : ∀ j, (fillCells 0 2000 s).byteAt 1 j = _ := fun j ↦
    byteAt_fillCells (by decide) 0 2000
  rw [show s.clearScreen = setCursor 0 0 { fillCells 0 2000 s with fed := [] } from rfl,
    setCursor_eq 0 0 _ rfl]
  generalize fillCells 0 2000 s = t at hfilled ⊢
  intro j hj
  exact ((hfilled j).trans (if_pos (by omega))).trans (attributeOf_eq_iff.2 (by decide))

theorem Plain.interpret (h : s.Plain) (hs : s.OnScreen) (hc : c < 0x80) :
    (s.interpret c).Plain := by
  obtain ⟨hrow, -, hcol, -⟩ := hs
  rw [Console.interpret]
  split_ifs
  iterate 5 exact h
  obtain ⟨p, hp⟩ : ∃ p : ℕ, s.cursorRow * vgaWidth + s.cursorCol = p :=
    Int.eq_ofNat_of_zero_le (by rw [vgaWidth]; omega)
  rw [hp]
  exact h.writeCell (i := p) (attributeOf_eq_iff.2 hc)

theorem Plain.wrapLine (h : s.Plain) : s.wrapLine.Plain := by
  rw [Console.wrapLine]
  split
  · exact h
  · exact h

theorem Plain.scrollPast (h : s.Plain) : s.scrollPast.Plain := by
  have hscroll := h.scrollScreen
  rw [Console.scrollPast]
  generalize s.scrollScreen = t at hscroll ⊢
  split
  · exact hscroll
  · exact h

theorem byteAt_wrapLine (k j : ℕ) : s.wrapLine.byteAt k j = s.byteAt k j := by
  rw [wrapLine]
  split
  · rfl
  · rfl

theorem cursorRow_wrapLine : s.wrapLine.cursorRow ≤ s.cursorRow + 1 := by
  rw [wrapLine]
  split
  · exact le_rfl
  · omega

/-- What is in the last line before a scroll is in the one above after it. -/
theorem exists_byteAt_scrollPast (hj : j < 2000) (hrow : 25 ≤ s.cursorRow → 1920 ≤ j) :
    ∃ i < 2000, s.scrollPast.byteAt 1 i = s.byteAt 1 j := by
  have hscroll : ∀ i, s.scrollScreen.byteAt 1 i = _ := fun i ↦ byteAt_scrollScreen (by decide)
  rw [scrollPast, vgaHeight]
  generalize s.scrollScreen = t at hscroll ⊢
  split
  · next hpast =>
    have hlast := hrow hpast
    refine ⟨j - 80, by omega, (hscroll _).trans ?_⟩
    rw [if_pos (by omega), Nat.sub_add_cancel (by omega)]
  · exact ⟨j, hj, rfl⟩

/-- A character of the upper half is seen once it has been put. -/
theorem not_plain_putChar (hs : s.OnScreen) (hc : 0x80 ≤ c) : ¬ (s.putChar c).Plain := by
  obtain ⟨hrow, hrow', hcol, hcol'⟩ := hs
  obtain ⟨p, hp⟩ : ∃ p : ℕ, s.cursorRow * vgaWidth + s.cursorCol = p :=
    Int.eq_ofNat_of_zero_le (by rw [vgaWidth]; omega)
  have hcell : (s.writeCell p (cellValue c)).byteAt 1 p = attributeOf c :=
    (byteAt_writeCell (by decide)).trans (if_pos rfl)
  intro hplain
  rw [putChar, interpret_of_ge hc] at hplain
  dsimp only at hplain
  rw [hp] at hplain
  rw [vgaWidth] at hp
  have hline : (wrapLine { s.writeCell p (cellValue c) with
      cursorCol := s.cursorCol + 1, fed := s.fed ++ [c] }).cursorRow ≤ s.cursorRow + 1 :=
    cursorRow_wrapLine
  obtain ⟨i, hi, hseen⟩ := exists_byteAt_scrollPast (j := p)
    (s := wrapLine { s.writeCell p (cellValue c) with
      cursorCol := s.cursorCol + 1, fed := s.fed ++ [c] }) (by omega) (by omega)
  rw [byteAt_wrapLine] at hseen
  have hcolour : attributeOf c = UInt8.ofNat vgaColor :=
    hcell.symm.trans (hseen.symm.trans (hplain i hi))
  exact UInt8.not_lt.2 hc (attributeOf_eq_iff.1 hcolour)

theorem Plain.putChar (h : s.Plain) (hs : s.OnScreen) (hc : c < 0x80) : (s.putChar c).Plain := by
  have hfed : Plain { s with fed := s.fed ++ [c] } := h
  have hon : OnScreen { s with fed := s.fed ++ [c] } := ⟨hs.1, hs.2, hs.3, hs.4⟩
  exact (hfed.interpret hon hc).wrapLine.scrollPast

/-- **Characters** keep the colour as long as they are put from the lower half. -/
theorem plain_putChars_iff (h : s.Plain) (hs : s.OnScreen) :
    (∀ ds ∈ cs.inits, (s.putChars ds).Plain) ↔ ∀ c ∈ cs, c < 0x80 := by
  induction cs generalizing s with
  | nil => exact iff_of_true (List.forall_mem_singleton.2 h) (List.forall_mem_nil _)
  | cons c cs ih =>
    have hput : ∀ ds, s.putChars (c :: ds) = (s.putChar c).putChars ds := fun _ ↦ rfl
    rw [List.inits_cons, List.forall_mem_cons, List.forall_mem_cons, List.forall_mem_map]
    simp only [hput]
    constructor
    · rintro ⟨-, hrest⟩
      have hplain : (s.putChar c).Plain := hrest [] ((List.mem_inits _ _).2 List.nil_prefix)
      have hc : c < 0x80 := UInt8.not_le.1 fun hc ↦ not_plain_putChar hs hc hplain
      exact ⟨hc, (ih hplain (hs.putChar c)).1 hrest⟩
    · rintro ⟨hc, hcs⟩
      exact ⟨h, (ih (h.putChar hs hc) (hs.putChar c)).2 hcs⟩

/-! ### Runs -/

/-- The characters that a step gives to `put_char`. -/
def given (s s' : Console) : List UInt8 := s'.fed.drop s.fed.length

/-- The characters that a run gives to `put_char`, from a state on and through these. -/
def givenAlong (s : Console) : List Console → List UInt8
  | [] => []
  | s' :: ss => given s s' ++ givenAlong s' ss

/-- The states of such a run, with those after every single character. -/
def statesAlong (s : Console) : List Console → List Console
  | [] => [s]
  | s' :: ss => (given s s').inits.map s.putChars ++ statesAlong s' ss

end Console

open Console

variable {s s' s₀ : Console} {ss : List Console}

theorem ConsoleStep.onScreen (hstep : ConsoleStep s s') (hs : s.OnScreen) : s'.OnScreen := by
  rcases hstep.shape with rfl | ⟨cs, rfl⟩ | ⟨mem, -, rfl⟩
  · exact onScreen_clearScreen s
  · rw [setCursor_eq _ _ _ rfl]
    exact ⟨hs.putChars.1, hs.putChars.2, hs.putChars.3, hs.putChars.4⟩
  · exact ⟨hs.1, hs.2, hs.3, hs.4⟩

/-- A call leaves the colour if it puts no character of the upper half. -/
theorem ConsoleStep.plain (hstep : ConsoleStep s s') (h : s.Plain) (hs : s.OnScreen)
    (hgiven : ∀ c ∈ given s s', c < 0x80) : s'.Plain := by
  rcases hstep.shape with rfl | ⟨cs, rfl⟩ | ⟨mem, hmem, rfl⟩
  · exact plain_clearScreen s
  · rw [given, fed_setCursor, fed_putChars, List.drop_left] at hgiven
    rw [setCursor_eq _ _ _ rfl]
    exact (plain_putChars_iff h hs).2 hgiven cs ((List.mem_inits _ _).2 List.prefix_rfl)
  · intro i hi
    exact (hmem (2 * i + 1) (by omega)).trans (h i hi)

/-- **The states of a run** keep the colour exactly if it puts no character of the upper half. -/
theorem plain_statesAlong_iff (hrun : List.IsChain ConsoleStep (s :: ss)) (h : s.Plain)
    (hs : s.OnScreen) :
    (∀ t ∈ statesAlong s ss, t.Plain) ↔ ∀ c ∈ givenAlong s ss, c < 0x80 := by
  induction ss generalizing s with
  | nil => exact iff_of_true (List.forall_mem_singleton.2 h) (List.forall_mem_nil _)
  | cons s' ss ih =>
    obtain ⟨hstep, hrun⟩ := List.isChain_cons_cons.1 hrun
    rw [statesAlong, givenAlong, List.forall_mem_append, List.forall_mem_append,
      List.forall_mem_map, plain_putChars_iff h hs]
    exact and_congr_right fun hgiven ↦ ih hrun (hstep.plain h hs hgiven) (hstep.onScreen hs)

/-! ### What the calls are given -/

section Inputs

variable {a format : ℕ} {t fs : List UInt8} {args : ℕ → UInt32} {x : Item} {is : List Item}
  {iss : List (List Item)}

/-- `print` gives the string to `put_char`. -/
theorem given_print (ht : CString s.mem a t) (hs : s.OnScreen)
    (hends : Ends (fun fuel ↦ print fuel a) s () s') : given s s' = t := by
  obtain ⟨u, hu, hfed⟩ := ends_print ht hs
  obtain ⟨-, rfl⟩ := hu.unique hends
  rw [given, hfed, List.drop_left]

/-- The characters that an item is given are of the lower half. The digits of its numbers are in
any case. -/
def FormatString.Item.Ascii : Item → Prop
  | text bs => ∀ c ∈ bs, c < 0x80
  | char w => UInt8.ofNat w.toNat < 0x80
  | string (some t) => ∀ c ∈ t, c < 0x80
  | _ => True

theorem forall_mem_decimal (num : ℕ) : ∀ c ∈ decimal num, c < 0x80 :=
  forall_mem_numeral (by decide) (by decide)

theorem forall_mem_intText (w : UInt32) : ∀ c ∈ intText w, c < 0x80 := by
  have hdecimal : ∀ num, ∀ c ∈ uintText num, c < 0x80 := fun num ↦ by
    rw [uintText_eq]
    exact forall_mem_decimal num
  rw [intText]
  split_ifs
  · exact hdecimal _
  · exact List.forall_mem_cons.2 ⟨by decide, hdecimal _⟩

/-- A list of known characters. -/
theorem ascii_of_all {cs : List UInt8} (h : (cs.all fun c ↦ decide (c < 0x80)) = true) :
    ∀ c ∈ cs, c < 0x80 := fun c hc ↦ of_decide_eq_true (List.all_eq_true.1 h c hc)

theorem ascii_shown_iff : (∀ c ∈ x.shown, c < 0x80) ↔ x.Ascii := by
  have hdigit : ∀ uppercase, ∀ d < 16, digitChar uppercase d < 0x80 := by decide
  cases x with
  | text bs => exact Iff.rfl
  | char w => exact List.forall_mem_singleton
  | string t =>
    cases t with
    | none => exact iff_of_true (ascii_of_all rfl) trivial
    | some t => exact Iff.rfl
  | int w => exact iff_of_true (forall_mem_intText w) trivial
  | uint w =>
    refine iff_of_true ?_ trivial
    rw [Item.shown, uintText_eq]
    exact forall_mem_decimal _
  | hex uppercase w =>
    refine iff_of_true ?_ trivial
    rw [Item.shown, hexText_eq]
    exact forall_mem_numeral (by decide) (hdigit uppercase)
  | pointer w =>
    refine iff_of_true ?_ trivial
    rw [Item.shown, ptrText_eq]
    exact List.forall_mem_cons.2 ⟨by decide, List.forall_mem_cons.2 ⟨by decide,
      forall_mem_padded (by decide) (hdigit false)⟩⟩
  | lone => exact iff_of_true (ascii_of_all rfl) trivial

/-- `printf` gives `put_char` what its items show. -/
theorem given_printf {n : ℕ} (hcall : FormatCall s.mem format args fs is) (hlone : Item.lone ∉ is)
    (hs : s.OnScreen) (hends : Ends (fun fuel ↦ printf fuel format args) s n s') :
    given s s' = is.flatMap Item.shown := by
  obtain ⟨t, ht, hfed⟩ := ends_printf hcall hlone hs
  obtain ⟨-, rfl⟩ := ht.unique hends
  rw [given, hfed, List.drop_left]

/-- A step of the kernel with what it is to print. The strings are those in memory when the call is
made. -/
inductive ItemStep : Console → List Item → Console → Prop
  /-- A call of `clear_screen`. -/
  | clear {s : Console} : ItemStep s [] s.clearScreen
  /-- A call of `print`. -/
  | print {s s' : Console} {a : ℕ} {t : List UInt8} (ht : CString s.mem a t)
    (hends : Ends (fun fuel ↦ print fuel a) s () s') : ItemStep s [.text t] s'
  /-- A call of `printf`. -/
  | printf {s s' : Console} {format n : ℕ} {args : ℕ → UInt32} {fs : List UInt8} {is : List Item}
    (hcall : FormatCall s.mem format args fs is) (hlone : Item.lone ∉ is)
    (hends : Ends (fun fuel ↦ printf fuel format args) s n s') : ItemStep s is s'
  /-- Other code changes memory, but not the screen. -/
  | other {s : Console} {mem : ByteMem}
    (hmem : ∀ i < 4000, mem (0xB8000 + i) = s.mem (0xB8000 + i)) :
    ItemStep s [] { s with mem := mem }

theorem ItemStep.consoleStep (hstep : ItemStep s is s') : ConsoleStep s s' := by
  cases hstep with
  | clear => exact .clear
  | print ht hends =>
    obtain ⟨fuel, hrun⟩ := hends.exists_runs
    exact .print hrun
  | printf hcall hlone hends =>
    obtain ⟨fuel, hrun⟩ := hends.exists_runs
    exact .printf hrun
  | other hmem => exact .other hmem

/-- **What a call is given** is of the lower half exactly if its strings and the low bytes of its
characters are. -/
theorem ItemStep.given_iff (hstep : ItemStep s is s') (hs : s.OnScreen) :
    (∀ c ∈ given s s', c < 0x80) ↔ ∀ x ∈ is, x.Ascii := by
  cases hstep with
  | clear =>
    have hnone : given s s.clearScreen = [] := List.drop_nil
    rw [hnone]
    exact iff_of_true (List.forall_mem_nil _) (List.forall_mem_nil _)
  | print ht hends =>
    rw [given_print ht hs hends, List.forall_mem_singleton, Item.Ascii]
  | printf hcall hlone hends =>
    rw [given_printf hcall hlone hs hends, List.forall_mem_flatMap]
    exact forall₂_congr fun x _ ↦ ascii_shown_iff
  | @other mem hmem =>
    have hnone : given s { s with mem := mem } = [] := List.drop_length
    rw [hnone]
    exact iff_of_true (List.forall_mem_nil _) (List.forall_mem_nil _)

/-- A run of such steps. -/
inductive ItemRun : Console → List (List Item) → List Console → Prop
  | nil {s : Console} : ItemRun s [] []
  | cons {s s' : Console} {is : List Item} {iss : List (List Item)} {ss : List Console}
    (hstep : ItemStep s is s') (hrun : ItemRun s' iss ss) : ItemRun s (is :: iss) (s' :: ss)

theorem ItemRun.given_iff (hrun : ItemRun s iss ss) (hs : s.OnScreen) :
    (∀ c ∈ givenAlong s ss, c < 0x80) ↔ ∀ x ∈ iss.flatten, x.Ascii := by
  induction hrun with
  | nil => exact iff_of_true (List.forall_mem_nil _) (List.forall_mem_nil _)
  | cons hstep _ ih =>
    rw [givenAlong, List.flatten_cons, List.forall_mem_append, List.forall_mem_append,
      hstep.given_iff hs, ih (hstep.consoleStep.onScreen hs)]

end Inputs

/-! ### Runs from `clear_screen` on -/

/-- **The colour of the screen.** Whatever was there before `clear_screen`, the states of a run that
begins with it show all cells in the one colour exactly if no character of the upper half is given
to `put_char`. Where strings and arguments are known, that is: if there is none in what the calls
are to print. -/
theorem plain_states_iff (hrun : List.IsChain ConsoleStep (s₀.clearScreen :: ss)) :
    ((∀ s ∈ statesAlong s₀.clearScreen ss, s.Plain) ↔
      ∀ c ∈ givenAlong s₀.clearScreen ss, c < 0x80) ∧
    ∀ iss, ItemRun s₀.clearScreen iss ss →
      ((∀ s ∈ statesAlong s₀.clearScreen ss, s.Plain) ↔ ∀ x ∈ iss.flatten, x.Ascii) := by
  have hgiven := plain_statesAlong_iff hrun (plain_clearScreen s₀) (onScreen_clearScreen s₀)
  exact ⟨hgiven, fun iss hitems ↦ hgiven.trans (hitems.given_iff (onScreen_clearScreen s₀))⟩

/-- Clearing the screen and printing a text. -/
theorem exists_step_print {text : String}
    (htext : CString (Console.withText text).mem 0x100000 (literal text)) :
    ∃ s', ItemStep (Console.withText text).clearScreen [.text (literal text)] s' := by
  have hkept := htext.keeps (keepsMemory_clearScreen _)
  obtain ⟨s', hends, -⟩ := ends_print hkept (onScreen_clearScreen (Console.withText text))
  exact ⟨s', .print hkept hends⟩

/-- A message. -/
theorem plain_states_message : ∃ s',
    ItemStep (Console.withText "IDE").clearScreen [.text (literal "IDE")] s' ∧
    ∀ s ∈ statesAlong (Console.withText "IDE").clearScreen [s'], s.Plain := by
  obtain ⟨s', hstep⟩ : ∃ s',
      ItemStep (Console.withText "IDE").clearScreen [.text (literal "IDE")] s' :=
    exists_step_print (by decide)
  have hrun : List.IsChain ConsoleStep [(Console.withText "IDE").clearScreen, s'] :=
    List.isChain_pair.2 hstep.consoleStep
  refine ⟨s', hstep, ((plain_states_iff hrun).2 _ (.cons hstep .nil)).2 ?_⟩
  exact List.forall_mem_singleton.2 (ascii_of_all rfl)

/-- An accented letter is shown in another colour. -/
theorem not_plain_states_accent : ¬ ∀ (s₀ : Console) (ss : List Console),
    List.IsChain ConsoleStep (s₀.clearScreen :: ss) →
      ∀ s ∈ statesAlong s₀.clearScreen ss, s.Plain := by
  intro h
  obtain ⟨s', hstep⟩ : ∃ s',
      ItemStep (Console.withText "É").clearScreen [.text (literal "É")] s' :=
    exists_step_print (by decide)
  have hon := onScreen_clearScreen (Console.withText "É")
  have hrun : List.IsChain ConsoleStep [(Console.withText "É").clearScreen, s'] :=
    List.isChain_pair.2 hstep.consoleStep
  have hput : ∀ c ∈ givenAlong (Console.withText "É").clearScreen [s'], c < 0x80 :=
    (plain_statesAlong_iff hrun (plain_clearScreen _) hon).1 (h _ _ hrun)
  have hascii := (ItemRun.given_iff (.cons hstep .nil) hon).1 hput
  exact absurd (hascii _ List.mem_cons_self 0xC9 (by decide)) (by decide)
