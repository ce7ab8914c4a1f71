import BinbowsDOS.Console.Format

/-!
# What `printf` prints and what it returns

The numbers of `vga.c` are the numerals of the reference (`Item.shown_eq_render`). So `printf`
prints what its format asks for exactly if no percent sign ends the format (`printsSafely_iff`).

What it returns counts one for every number, however long (`Item.counted_eq_iff`).
-/

open Prog FormatString Console

/-! ### Numbers -/

theorem uintText_eq (num : ℕ) : uintText num = decimal num := by
  have hdigit : ∀ d < 10, UInt8.ofNat ('0'.toNat + d) = digitChar false d := by decide
  exact numeral_congr (by decide) hdigit

theorem hexDigit_eq (uppercase : Bool) :
    ∀ d < 16, hexDigit uppercase d = digitChar uppercase d := by
  cases uppercase <;> decide

theorem hexText_eq (num : ℕ) (uppercase : Bool) :
    hexText num uppercase = numeral 16 (digitChar uppercase) num := by
  rw [← numeral_congr (by decide) (hexDigit_eq uppercase), hexText, numeral]
  cases uppercase <;> rfl

theorem ptrText_eq (addr : ℕ) :
    ptrText addr = '0'.toUInt8 :: 'x'.toUInt8 :: padded 16 (digitChar false) 8 addr := by
  rw [← padded_congr (by decide) (hexDigit_eq false)]
  rfl

theorem intText_eq (w : UInt32) : intText w = (Item.int w).render := by
  rw [intText]
  rcases Nat.lt_or_ge w.toNat (2 ^ 31) with hw | hw
  · rw [if_pos hw, uintText_eq, render_int_of_lt hw]
  · rw [if_neg (Nat.not_lt.2 hw), uintText_eq, render_int_of_ge hw, toNat_neg_of_ge hw]

/-- The least integer. -/
example : intText 0x80000000 = literal "-2147483648" := by decide

namespace FormatString

variable {x : Item} {is : List Item}

/-- **What `printf` shows** of an item is the reference. -/
theorem Item.shown_eq_render (hlone : x ≠ .lone) : x.shown = x.render := by
  cases x with
  | text bs => rfl
  | char w => rfl
  | string t => rfl
  | int w => exact intText_eq w
  | uint w => exact uintText_eq w.toNat
  | hex uppercase w => exact hexText_eq w.toNat uppercase
  | pointer w => exact ptrText_eq w.toNat
  | lone => exact absurd rfl hlone

theorem flatMap_shown (hlone : Item.lone ∉ is) :
    is.flatMap Item.shown = is.flatMap Item.render :=
  List.flatMap_congr fun _ hx ↦ Item.shown_eq_render fun heq ↦ hlone (heq ▸ hx)

end FormatString

/-! ### Runs of `printf` -/

variable {x : Item} {s : Console} {fs : List UInt8} {as : List Arg} {is : List Item}
  {args : ℕ → UInt32} {format : ℕ}

theorem Console.fed_setCursor {row col : ℤ} : (s.setCursor row col).fed = s.fed := by
  rw [setCursor_eq row col s rfl]

/-- A call of `printf` whose format has no lone percent sign. -/
theorem ends_readPrintf (hcall : FormatCall s.mem format args fs is) (hlone : Item.lone ∉ is)
    (hs : s.OnScreen) :
    ∃ s', Ends (fun fuel ↦ readPrintf fuel format args) ⟨s, []⟩ (is.map Item.counted).sum
      ⟨s', List.range' format (fs.length + 1)⟩ ∧ s'.fed = s.fed ++ is.flatMap Item.shown := by
  obtain ⟨as, hargs, hitems⟩ := hcall.args
  have hloop : Ends (fun fuel ↦ readLoop args fuel format 0 0) ⟨s, []⟩
      (0 + (is.map Item.counted).sum)
      ⟨s.putChars (is.flatMap Item.shown), [] ++ List.range' format (fs.length + 1)⟩ :=
    ends_readLoop (items_eq_some_iff.1 hitems) hlone hs hcall.format hargs
  rw [Nat.zero_add, List.nil_append] at hloop
  refine ⟨_, hloop.bind (f := fun _ written ↦ do onConsole syncCursor; pure written)
    (ends_of_runs fun _ ↦ rfl), ?_⟩
  rw [fed_setCursor, fed_putChars]

theorem ends_printf (hcall : FormatCall s.mem format args fs is) (hlone : Item.lone ∉ is)
    (hs : s.OnScreen) :
    ∃ s', Ends (fun fuel ↦ printf fuel format args) s (is.map Item.counted).sum s' ∧
      s'.fed = s.fed ++ is.flatMap Item.shown := by
  obtain ⟨s', hends, hfed⟩ := ends_readPrintf hcall hlone hs
  exact ⟨s', hends.project fun fuel ↦ projects_readPrintf fuel format, hfed⟩

/-- A call of `print`. -/
theorem ends_print {a : ℕ} {t : List UInt8} (ht : CString s.mem a t) (hs : s.OnScreen) :
    ∃ s', Ends (fun fuel ↦ print fuel a) s () s' ∧ s'.fed = s.fed ++ t := by
  refine ⟨_, (ends_printStrLoop hs ht).bind (f := fun _ _ ↦ syncCursor)
    (ends_of_runs fun _ ↦ rfl), ?_⟩
  rw [fed_setCursor, fed_putChars]

theorem Console.onScreen_clearScreen (s : Console) : s.clearScreen.OnScreen := by
  rw [show s.clearScreen = setCursor 0 0 { fillCells 0 2000 s with fed := [] } from rfl,
    setCursor_eq 0 0 _ rfl]
  exact ⟨le_rfl, Int.ofNat_lt.2 (by decide), le_rfl, Int.ofNat_lt.2 (by decide)⟩

theorem Console.keepsMemory_clearScreen (s : Console) : KeepsMemory s s.clearScreen := by
  have hfill : KeepsMemory s (fillCells 0 2000 s) := keepsMemory_fillCells (by omega)
  rw [show s.clearScreen = setCursor 0 0 { fillCells 0 2000 s with fed := [] } from rfl,
    setCursor_eq 0 0 _ rfl]
  generalize fillCells 0 2000 s = t at hfill ⊢
  exact hfill

/-- A console with a text in the memory behind the first megabyte. -/
def Console.withText (text : String) : Console :=
  { Console.boot with
    mem := fun a ↦ if a < 0x100000 then 0 else (literal text).getD (a - 0x100000) 0 }

theorem onScreen_withText (text : String) : (Console.withText text).OnScreen :=
  ⟨le_rfl, Int.ofNat_lt.2 (by decide), le_rfl, Int.ofNat_lt.2 (by decide)⟩

/-- A number of percent. -/
theorem formatCall_percent (w : UInt32) :
    FormatCall (Console.withText "%u%%").mem 0x100000 (fun _ ↦ w) (literal "%u%%")
      [.uint w, .text [percent]] :=
  ⟨by decide, by decide, [.word w], ⟨rfl, trivial⟩, rfl⟩

/-! ### What it looks at and what it prints -/

/-- `printf` ends, it has not looked behind the terminator of its format, and it has printed
`cs`. -/
def PrintsSafely (s : Console) (format length : ℕ) (args : ℕ → UInt32) (cs : List UInt8) : Prop :=
  ∃ n r, Ends (fun fuel ↦ readPrintf fuel format args) ⟨s, []⟩ n r ∧
    (∀ a ∈ r.examined, a ≤ format + length) ∧ r.console.fed = s.fed ++ cs

theorem not_printsSafely_of_lone {cs : List UInt8} (hcall : FormatCall s.mem format args fs is)
    (hlone : Item.lone ∈ is) (hs : s.OnScreen) :
    ¬ PrintsSafely s format fs.length args cs := by
  rintro ⟨n, r, hends, hexamined, -⟩
  obtain ⟨as, -, hitems⟩ := hcall.args
  obtain ⟨fuel, hrun⟩ := hends.exists_runs
  obtain ⟨written, t, hloop, hrest⟩ := runs_bind.1 hrun
  obtain ⟨b, hb, hlt⟩ := overruns (items_eq_some_iff.1 hitems) hlone hs hcall.format hloop
  obtain ⟨_, u, hsync, hpure⟩ := runs_bind.1 hrest
  obtain ⟨s', -, rfl⟩ := runs_onConsole.1 hsync
  rw [← (runs_pure.1 hpure).2] at hexamined
  exact absurd (hexamined b hb) (Nat.not_le.2 hlt)

/-- **When `printf` reads its format to the end and prints the reference text**: if the format has
no percent sign at its end. -/
theorem printsSafely_iff (hcall : FormatCall s.mem format args fs is) (hs : s.OnScreen) :
    PrintsSafely s format fs.length args (is.flatMap Item.render) ↔ Item.lone ∉ is := by
  constructor
  · exact fun h hlone ↦ not_printsSafely_of_lone hcall hlone hs h
  · intro hlone
    obtain ⟨s', hends, hfed⟩ := ends_readPrintf hcall hlone hs
    refine ⟨_, _, hends, fun a ha ↦ ?_, ?_⟩
    · obtain ⟨i, hi, rfl⟩ := List.mem_range'.1 ha
      omega
    · rw [← flatMap_shown hlone]
      exact hfed

/-- Eight percent. -/
theorem printsSafely_percent :
    PrintsSafely (.withText "%u%%") 0x100000 4 (fun _ ↦ 8) (literal "8%") :=
  (printsSafely_iff (formatCall_percent 8) (onScreen_withText _)).2 (by decide)

/-- The last percent sign is not doubled. -/
theorem not_printsSafely_percent :
    FormatCall (Console.withText "8%").mem 0x100000 (fun _ ↦ 0) (literal "8%")
        [.text (literal "8"), .lone] ∧ (Console.withText "8%").OnScreen ∧
      ¬ PrintsSafely (.withText "8%") 0x100000 2 (fun _ ↦ 0)
        ([Item.text (literal "8"), .lone].flatMap Item.render) := by
  have hcall : FormatCall (Console.withText "8%").mem 0x100000 (fun _ ↦ 0) (literal "8%")
      [.text (literal "8"), .lone] := ⟨by decide, by decide, [], trivial, by decide⟩
  exact ⟨hcall, onScreen_withText _,
    not_printsSafely_of_lone hcall (by decide) (onScreen_withText _)⟩

/-! ### What it returns -/

/-- A number that is printed takes one character. -/
def FormatString.Item.OneDigit : Item → Prop
  | int w | uint w => w.toNat < 10
  | hex _ w => w.toNat < 16
  | _ => True

/-- The fewest characters that an item of this kind takes: those of a text or a string, ten for a
pointer and one for any other directive. -/
def FormatString.Item.minLength : Item → ℕ
  | text bs => bs.length
  | string t => (t.getD (literal "(null)")).length
  | pointer _ => 10
  | lone => 0
  | _ => 1

instance : DecidablePred Item.OneDigit
  | .int _ | .uint _ | .hex _ _ => inferInstanceAs (Decidable (_ < _))
  | .text _ | .char _ | .string _ | .pointer _ | .lone => inferInstanceAs (Decidable True)

/-- `printf` ends, and what it returns, an `int`, is the number of characters it has printed. -/
def ReturnsCount (s : Console) (format : ℕ) (args : ℕ → UInt32) : Prop :=
  ∃ n s', Ends (fun fuel ↦ printf fuel format args) s n s' ∧
    (s'.fed.length : ℤ) = s.fed.length + signed (UInt32.ofNat n)

namespace FormatString

theorem Item.length_pos_intText (w : UInt32) : 0 < (intText w).length := by
  rw [intText, uintText_eq]
  split
  · exact length_numeral_pos (by decide)
  · exact Nat.succ_pos _

/-- Only a non-negative integer of one digit takes one character. -/
theorem length_intText_eq_one {w : UInt32} : (intText w).length = 1 ↔ w.toNat < 10 := by
  rw [intText_eq]
  rcases Nat.lt_or_ge w.toNat (2 ^ 31) with hw | hw
  · rw [render_int_of_lt hw]
    exact length_numeral_eq_one (by decide)
  · have hpos : 0 < (decimal (2 ^ 32 - w.toNat)).length := length_numeral_pos (by decide)
    rw [render_int_of_ge hw, List.length_cons]
    omega

/-- `printf` counts no more than it shows. -/
theorem Item.counted_le (x : Item) : x.counted ≤ x.shown.length := by
  cases x with
  | text bs => exact le_rfl
  | char w => exact le_rfl
  | string t => exact le_rfl
  | int w => exact length_pos_intText w
  | uint w =>
    rw [Item.shown, uintText_eq]
    exact length_numeral_pos (by decide)
  | hex uppercase w =>
    rw [Item.shown, hexText_eq]
    exact length_numeral_pos (by decide)
  | pointer w => exact le_rfl
  | lone => exact le_rfl

theorem Item.counted_eq_iff (x : Item) : x.counted = x.shown.length ↔ x.OneDigit := by
  cases x with
  | text bs => exact iff_of_true rfl trivial
  | char w => exact iff_of_true rfl trivial
  | string t => exact iff_of_true rfl trivial
  | int w => exact eq_comm.trans length_intText_eq_one
  | uint w =>
    rw [Item.shown, uintText_eq]
    exact eq_comm.trans (length_numeral_eq_one (by decide))
  | hex uppercase w =>
    rw [Item.shown, hexText_eq]
    exact eq_comm.trans (length_numeral_eq_one (by decide))
  | pointer w => exact iff_of_true rfl trivial
  | lone => exact iff_of_true rfl trivial

/-- What is counted depends on the kind of the item only. -/
theorem Item.counted_eq_minLength (hlone : x ≠ .lone) : x.counted = x.minLength := by
  cases x with
  | lone => exact absurd rfl hlone
  | _ => rfl

theorem sum_counted_eq_minLength (hlone : Item.lone ∉ is) :
    (is.map Item.counted).sum = (is.map Item.minLength).sum :=
  congrArg List.sum (List.map_congr_left fun _ hx ↦
    Item.counted_eq_minLength fun heq ↦ hlone (heq ▸ hx))

/-- The whole count. -/
theorem sum_counted_le (is : List Item) :
    (is.map Item.counted).sum ≤ (is.flatMap Item.shown).length := by
  rw [List.length_flatMap]
  exact List.sum_le_sum fun x _ ↦ x.counted_le

theorem sum_counted_eq_iff :
    (is.map Item.counted).sum = (is.flatMap Item.shown).length ↔ ∀ x ∈ is, x.OneDigit := by
  rw [List.length_flatMap, sum_map_eq_iff_of_le fun x _ ↦ x.counted_le]
  exact forall₂_congr fun x _ ↦ x.counted_eq_iff

/-- Kept in a word, a number that is too large is not an `int`. -/
theorem natCast_eq_signed_iff {m n : ℕ} (hle : n ≤ m) :
    (m : ℤ) = signed (UInt32.ofNat n) ↔ n = m ∧ n < 2 ^ 31 := by
  have htoNat : (UInt32.ofNat n).toNat = n % 2 ^ 32 := rfl
  rw [signed, htoNat]
  split <;> omega

end FormatString

theorem returnsCount_iff_signed (hcall : FormatCall s.mem format args fs is)
    (hlone : Item.lone ∉ is) (hs : s.OnScreen) : ReturnsCount s format args ↔
      ((is.flatMap Item.shown).length : ℤ) =
        signed (UInt32.ofNat (is.map Item.counted).sum) := by
  obtain ⟨s', hends, hfed⟩ := ends_printf hcall hlone hs
  have hlength : s'.fed.length = s.fed.length + (is.flatMap Item.shown).length := by
    rw [hfed, List.length_append]
  constructor
  · rintro ⟨n, t, hends', hcount⟩
    obtain ⟨rfl, rfl⟩ := hends.unique hends'
    omega
  · exact fun hcount ↦ ⟨_, s', hends, by omega⟩

/-- **When `printf` returns what it has printed**: if all numbers have one digit and no sign, and an
`int` can count the rest. -/
theorem returnsCount_iff (hcall : FormatCall s.mem format args fs is) (hlone : Item.lone ∉ is)
    (hs : s.OnScreen) : ReturnsCount s format args ↔
      (∀ x ∈ is, x.OneDigit) ∧ (is.map Item.minLength).sum < 2 ^ 31 := by
  rw [returnsCount_iff_signed hcall hlone hs, natCast_eq_signed_iff (sum_counted_le is),
    sum_counted_eq_iff, sum_counted_eq_minLength hlone]

/-- Eight percent are two characters. -/
theorem returnsCount_percent : ReturnsCount (.withText "%u%%") 0x100000 fun _ ↦ 8 :=
  (returnsCount_iff (formatCall_percent 8) (by decide) (onScreen_withText _)).2
    ⟨by decide, by decide⟩

/-- Eighty percent are three, and `printf` returns two. -/
theorem not_returnsCount_percent :
    FormatCall (Console.withText "%u%%").mem 0x100000 (fun _ ↦ 80) (literal "%u%%")
        [.uint 80, .text [percent]] ∧ (Console.withText "%u%%").OnScreen ∧
      ¬ ReturnsCount (.withText "%u%%") 0x100000 fun _ ↦ 80 := by
  refine ⟨formatCall_percent 80, onScreen_withText _, ?_⟩
  rw [returnsCount_iff_signed (formatCall_percent 80) (by decide) (onScreen_withText _)]
  decide
