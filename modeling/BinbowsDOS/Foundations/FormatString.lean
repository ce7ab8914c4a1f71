import BinbowsDOS.Foundations.Numerals
import Mathlib.Algebra.Order.BigOperators.Group.List
import Mathlib.Data.UInt

/-!
# Format strings

The formats of C on machines with 32-bit words. A percent sign begins a directive: `%c`, `%s`,
`%d`, `%i`, `%u`, `%x`, `%X` and `%p` take an argument, and `%` with any other character stands for
itself, except that `%%` is one percent sign. A percent sign may also be the last character.

`items` takes a format apart and gives the directives their arguments, and `Item.render` is the
text that a directive is to make of its argument. A formatter makes its own; the last section
compares texts made of the same items by their lengths.
-/

namespace FormatString

/-- `%` -/
def percent : UInt8 := '%'.toUInt8

/-- An argument: a word, or a string that may be `NULL`. -/
inductive Arg where
  /-- A word. -/
  | word (w : UInt32)
  /-- A string. -/
  | string (t : Option (List UInt8))
  deriving DecidableEq

/-- A part of a format, with its argument. -/
inductive Item where
  /-- Characters that stand for themselves. -/
  | text (bs : List UInt8)
  /-- `%c` -/
  | char (w : UInt32)
  /-- `%s` -/
  | string (t : Option (List UInt8))
  /-- `%d` and `%i` -/
  | int (w : UInt32)
  /-- `%u` -/
  | uint (w : UInt32)
  /-- `%x` and `%X` -/
  | hex (uppercase : Bool) (w : UInt32)
  /-- `%p` -/
  | pointer (w : UInt32)
  /-- A percent sign at the end. -/
  | lone
  deriving DecidableEq

/-- A directive for a word. -/
def forWord (f : UInt32 → Item) : Arg → Option Item
  | .word w => some (f w)
  | .string _ => none

/-- A directive for a string. -/
def forString (f : Option (List UInt8) → Item) : Arg → Option Item
  | .word _ => none
  | .string t => some (f t)

/-- The directives that take an argument, by their second character. -/
def conversion? (d : UInt8) : Option (Arg → Option Item) :=
  if d = 'c'.toUInt8 then some (forWord .char)
  else if d = 's'.toUInt8 then some (forString .string)
  else if d = 'd'.toUInt8 ∨ d = 'i'.toUInt8 then some (forWord .int)
  else if d = 'u'.toUInt8 then some (forWord .uint)
  else if d = 'x'.toUInt8 then some (forWord (.hex false))
  else if d = 'X'.toUInt8 then some (forWord (.hex true))
  else if d = 'p'.toUInt8 then some (forWord .pointer)
  else none

theorem ne_lone_of_conversion {d : UInt8} {f : Arg → Option Item} {a : Arg} {x : Item}
    (hd : conversion? d = some f) (hx : f a = some x) : x ≠ .lone := by
  rintro rfl
  rw [conversion?] at hd
  split_ifs at hd <;> obtain rfl := Option.some.inj hd <;> cases a <;> cases hx

/-- A format with its arguments, if these match. More arguments than the format takes do no
harm. -/
def items : List UInt8 → List Arg → Option (List Item)
  | [], _ => some []
  | [c], _ => some [if c = percent then .lone else .text [c]]
  | c :: d :: fs, as =>
    if c = percent then
      match conversion? d, as with
      | none, as => (items fs as).map (.text (if d = percent then [d] else [c, d]) :: ·)
      | some f, a :: as => (f a).bind fun x ↦ (items fs as).map (x :: ·)
      | some _, [] => none
    else (items (d :: fs) as).map (.text [c] :: ·)

theorem forWord_eq_some {f : UInt32 → Item} {arg : Arg} {x : Item} :
    forWord f arg = some x ↔ ∃ w, arg = .word w ∧ f w = x := by
  cases arg <;> simp [forWord]

theorem forString_eq_some {f : Option (List UInt8) → Item} {arg : Arg} {x : Item} :
    forString f arg = some x ↔ ∃ t, arg = .string t ∧ f t = x := by
  cases arg <;> simp [forString]

/-- The grammar of formats. -/
inductive Parses : List UInt8 → List Arg → List Item → Prop
  | nil {as : List Arg} : Parses [] as []
  /-- A percent sign is the last character. -/
  | lone {as : List Arg} : Parses [percent] as [.lone]
  /-- A character that stands for itself. -/
  | char {c : UInt8} {fs : List UInt8} {as : List Arg} {is : List Item} (hc : c ≠ percent)
    (h : Parses fs as is) : Parses (c :: fs) as (.text [c] :: is)
  /-- A directive without an argument. -/
  | copied {d : UInt8} {fs : List UInt8} {as : List Arg} {is : List Item}
    (hd : conversion? d = none) (h : Parses fs as is) :
    Parses (percent :: d :: fs) as (.text (if d = percent then [d] else [percent, d]) :: is)
  /-- A directive with an argument. -/
  | directive {d : UInt8} {fs : List UInt8} {a : Arg} {as : List Arg} {is : List Item} {x : Item}
    {f : Arg → Option Item} (hd : conversion? d = some f) (hx : f a = some x)
    (h : Parses fs as is) : Parses (percent :: d :: fs) (a :: as) (x :: is)

/-- `items` decides the grammar. -/
theorem items_eq_some_iff {fs : List UInt8} {as : List Arg} {is : List Item} :
    items fs as = some is ↔ Parses fs as is := by
  constructor
  · intro h
    fun_induction items fs as generalizing is with
    | case1 as =>
      obtain rfl := Option.some.inj h
      exact .nil
    | case2 c as =>
      obtain rfl := Option.some.inj h
      split
      · next hc =>
        subst hc
        exact .lone
      · next hc => exact .char hc .nil
    | case3 d fs as hd ih =>
      obtain ⟨is, his, rfl⟩ := Option.map_eq_some_iff.1 h
      exact .copied hd (ih his)
    | case4 d fs f a as hd ih =>
      obtain ⟨x, hx, hrest⟩ := Option.bind_eq_some_iff.1 h
      obtain ⟨is, his, rfl⟩ := Option.map_eq_some_iff.1 hrest
      exact .directive hd hx (ih his)
    | case5 => cases h
    | case6 c d fs as hc ih =>
      obtain ⟨is, his, rfl⟩ := Option.map_eq_some_iff.1 h
      exact .char hc (ih his)
  · intro h
    induction h with
    | nil => rfl
    | lone => rfl
    | @char c fs as is hc h ih =>
      cases fs with
      | nil =>
        obtain rfl : [] = is := Option.some.inj ih
        rw [items, if_neg hc]
      | cons d fs =>
        unfold items
        rw [if_neg hc, ih, Option.map_some]
    | copied hd h ih =>
      unfold items
      rw [if_pos rfl, hd]
      simp only [ih, Option.map_some]
    | directive hd hx h ih =>
      unfold items
      rw [if_pos rfl, hd]
      simp only [hx, ih, Option.bind_some, Option.map_some]

/-! ### The text -/

/-- The `int` in a word. -/
def signed (w : UInt32) : ℤ := if w.toNat < 2 ^ 31 then w.toNat else w.toNat - 2 ^ 32

/-- The character of a digit. -/
def digitChar (uppercase : Bool) (d : ℕ) : UInt8 :=
  (if uppercase then d.digitChar.toUpper else d.digitChar).toUInt8

/-- A number in decimal. -/
def decimal (num : ℕ) : List UInt8 := numeral 10 (digitChar false) num

/-- What a directive makes of its argument. -/
def Item.render : Item → List UInt8
  | text bs => bs
  | char w => [w.toUInt8]
  | string t => t.getD ("(null)".toList.map Char.toUInt8)
  | int w =>
    if signed w < 0 then '-'.toUInt8 :: decimal (signed w).natAbs else decimal (signed w).natAbs
  | uint w => decimal w.toNat
  | hex uppercase w => numeral 16 (digitChar uppercase) w.toNat
  | pointer w => '0'.toUInt8 :: 'x'.toUInt8 :: padded 16 (digitChar false) 8 w.toNat
  | lone => []

theorem render_int_of_lt {w : UInt32} (hw : w.toNat < 2 ^ 31) :
    (Item.int w).render = decimal w.toNat := by
  have hsigned : signed w = w.toNat := if_pos hw
  rw [Item.render, hsigned, if_neg (by omega), Int.natAbs_natCast]

theorem render_int_of_ge {w : UInt32} (hw : 2 ^ 31 ≤ w.toNat) :
    (Item.int w).render = '-'.toUInt8 :: decimal (2 ^ 32 - w.toNat) := by
  have hlt := w.toNat_lt
  have hsigned : signed w = w.toNat - 2 ^ 32 := if_neg (Nat.not_lt.2 hw)
  rw [Item.render, hsigned, if_pos (by omega)]
  exact congrArg _ (congrArg _ (by omega))

/-- The negation of a negative integer, as a number. -/
theorem toNat_neg_of_ge {w : UInt32} (hw : 2 ^ 31 ≤ w.toNat) : (-w).toNat = 2 ^ 32 - w.toNat := by
  have hlt := w.toNat_lt
  rw [UInt32.toNat_neg]
  exact Nat.mod_eq_of_lt (show 2 ^ 32 - w.toNat < 2 ^ 32 by omega)

/-! ### Texts of the same items -/

section Compare

variable {α β : Type} {l : List α}

/-- Sums of which one has the smaller terms are equal only term by term. -/
theorem sum_map_eq_iff_of_le {f g : α → ℕ} (hle : ∀ x ∈ l, f x ≤ g x) :
    (l.map f).sum = (l.map g).sum ↔ ∀ x ∈ l, f x = g x := by
  induction l with
  | nil => simp
  | cons x l ih =>
    obtain ⟨hx, hl⟩ := List.forall_mem_cons.1 hle
    have hsum : (l.map f).sum ≤ (l.map g).sum := List.sum_le_sum hl
    rw [List.forall_mem_cons, ← ih hl, List.map_cons, List.map_cons, List.sum_cons, List.sum_cons]
    omega

/-- Texts of which one has the shorter parts are equal only part by part. -/
theorem flatMap_eq_iff_of_length_le {f g : α → List β}
    (hle : ∀ x ∈ l, (f x).length ≤ (g x).length) :
    l.flatMap f = l.flatMap g ↔ ∀ x ∈ l, f x = g x := by
  constructor
  · intro heq
    have hlength : ∀ x ∈ l, (f x).length = (g x).length := by
      refine (sum_map_eq_iff_of_le hle).1 ?_
      rw [← List.length_flatMap, heq, List.length_flatMap]
    induction l with
    | nil => simp
    | cons x l ih =>
      rw [List.forall_mem_cons] at hle hlength ⊢
      obtain ⟨hx, hl⟩ := List.append_inj heq hlength.1
      exact ⟨hx, ih hle.2 hl hlength.2⟩
  · exact List.flatMap_congr

end Compare

end FormatString
