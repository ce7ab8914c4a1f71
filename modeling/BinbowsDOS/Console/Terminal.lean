import Mathlib.Tactic.Common

/-!
# An unbounded terminal

What a console is for, without its bounds: a page `width` characters wide on which lines only
ever go down. A character goes to the cursor and moves it right; a newline starts the next line,
as does a cursor that has left the page on the right. Nothing scrolls.
-/

/-- A terminal: the characters on its page and the cursor. -/
structure Terminal where
  /-- The character at a row and column. -/
  cell : ℕ → ℕ → UInt8
  /-- The row of the cursor. -/
  row : ℕ
  /-- The column of the cursor. -/
  col : ℕ

namespace Terminal

variable {width : ℕ} {t : Terminal} {c : UInt8}

/-- A blank page. -/
def blank : Terminal where
  cell _ _ := ' '.toUInt8
  row := 0
  col := 0

/-- Put a character at the cursor. -/
def place (t : Terminal) (c : UInt8) : Terminal where
  cell := Function.update t.cell t.row (Function.update (t.cell t.row) t.col c)
  row := t.row
  col := t.col + 1

/-- Obey a character. -/
def interpret (t : Terminal) (c : UInt8) : Terminal :=
  if c = '\n'.toUInt8 then { t with row := t.row + 1, col := 0 }
  else if c = '\r'.toUInt8 then { t with col := 0 }
  else if c = '\t'.toUInt8 then { t with col := (t.col + 4) / 4 * 4 }
  else if c = 8 then { t with col := t.col - 1 }
  else t.place c

/-- Go on with the next line once the cursor has left the page. -/
def wrap (width : ℕ) (t : Terminal) : Terminal :=
  if width ≤ t.col then { t with row := t.row + 1, col := 0 } else t

/-- Process a character. -/
def put (width : ℕ) (t : Terminal) (c : UInt8) : Terminal := (t.interpret c).wrap width

/-- Process these characters. -/
def feed (width : ℕ) (t : Terminal) (cs : List UInt8) : Terminal := cs.foldl (put width) t

theorem feed_append_singleton {cs : List UInt8} :
    feed width t (cs ++ [c]) = put width (feed width t cs) c := by
  rw [feed, List.foldl_append]
  rfl

/-- The cursor stays on the page. -/
theorem col_put_lt (hwidth : 0 < width) : (put width t c).col < width := by
  rw [put, wrap]
  split
  · exact hwidth
  · omega

theorem col_feed_lt {cs : List UInt8} (hcol : t.col < width) : (feed width t cs).col < width := by
  induction cs generalizing t with
  | nil => exact hcol
  | cons c cs ih => exact ih (col_put_lt (Nat.zero_lt_of_lt hcol))

/-- A character leaves the cursor on its line or starts the next one. -/
theorem row_put (hwidth : 0 < width) : (put width t c).row = t.row ∨
    (put width t c).row = t.row + 1 ∧ (put width t c).col = 0 := by
  rw [put, wrap, interpret]
  split_ifs <;> simp_all [place]

end Terminal
