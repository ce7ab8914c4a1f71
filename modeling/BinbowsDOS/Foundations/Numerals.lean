import Mathlib.Data.Nat.Digits.Lemmas

/-!
# Numerals

The text of a number, as a program makes it that has nothing to format with: the digits come from
the lowest on and are kept in a buffer (`fillBuffer`), which is then read backwards. `numeral` is
the text with as many digits as the number has, `padded` the one of a given width.
-/

variable {α : Type} {base num width room : ℕ} {digit : ℕ → α}

/-- `while (num) { *buf++ = digit[num % base]; num /= base; }` in a buffer with this much room. -/
def fillBuffer (base : ℕ) (digit : ℕ → α) : ℕ → ℕ → List α
  | 0, _ => []
  | room + 1, num =>
    if num = 0 then [] else digit (num % base) :: fillBuffer base digit room (num / base)

/-- A number with all its digits, the highest first. -/
def numeral (base : ℕ) (digit : ℕ → α) (num : ℕ) : List α :=
  if num = 0 then [digit 0] else ((Nat.digits base num).map digit).reverse

/-- The last `width` digits of a number, the highest first. -/
def padded (base : ℕ) (digit : ℕ → α) (width num : ℕ) : List α :=
  (List.range width).map fun i ↦ digit (num / base ^ (width - 1 - i) % base)

/-! ### The buffer -/

/-- A buffer with room for the digits gets all of them. -/
theorem fillBuffer_eq (hbase : 1 < base) (hroom : num < base ^ room) :
    fillBuffer base digit room num = (Nat.digits base num).map digit := by
  induction room generalizing num with
  | zero =>
    obtain rfl : num = 0 := Nat.lt_one_iff.1 hroom
    rw [fillBuffer, Nat.digits_zero, List.map_nil]
  | succ room ih =>
    rw [fillBuffer]
    rcases Nat.eq_zero_or_pos num with rfl | hpos
    · rw [if_pos rfl, Nat.digits_zero, List.map_nil]
    · rw [if_neg hpos.ne', Nat.digits_def' hbase hpos, List.map_cons,
        ih (Nat.div_lt_of_lt_mul (by rwa [pow_succ'] at hroom))]

/-- Read backwards it is the numeral, except for zero. -/
theorem reverse_fillBuffer (hbase : 1 < base) (hroom : num < base ^ room) (hnum : num ≠ 0) :
    (fillBuffer base digit room num).reverse = numeral base digit num := by
  rw [fillBuffer_eq hbase hroom, numeral, if_neg hnum]

/-! ### Digits -/

/-- Only the digits below the base matter. -/
theorem numeral_congr {digit' : ℕ → α} (hbase : 1 < base) (h : ∀ d < base, digit d = digit' d) :
    numeral base digit num = numeral base digit' num := by
  rw [numeral, numeral, h 0 (by omega)]
  exact congrArg _ (congrArg _ (List.map_congr_left fun d hd ↦ h d (Nat.digits_lt_base hbase hd)))

theorem padded_congr {digit' : ℕ → α} (hbase : 1 < base) (h : ∀ d < base, digit d = digit' d) :
    padded base digit width num = padded base digit' width num :=
  List.map_congr_left fun _ _ ↦ h _ (Nat.mod_lt _ (by omega))

/-- What holds of the digits holds of all characters. -/
theorem forall_mem_numeral {P : α → Prop} (hbase : 1 < base) (h : ∀ d < base, P (digit d)) :
    ∀ c ∈ numeral base digit num, P c := by
  rw [numeral]
  split_ifs
  · exact List.forall_mem_singleton.2 (h 0 (by omega))
  · intro c hc
    obtain ⟨d, hd, rfl⟩ := List.mem_map.1 (List.mem_reverse.1 hc)
    exact h d (Nat.digits_lt_base hbase hd)

theorem forall_mem_padded {P : α → Prop} (hbase : 1 < base) (h : ∀ d < base, P (digit d)) :
    ∀ c ∈ padded base digit width num, P c :=
  List.forall_mem_map.2 fun _ _ ↦ h _ (Nat.mod_lt _ (by omega))

theorem numeral_of_lt (hnum : num < base) : numeral base digit num = [digit num] := by
  rw [numeral]
  rcases eq_or_ne num 0 with rfl | hne
  · rw [if_pos rfl]
  · rw [if_neg hne, Nat.digits_of_lt base num hne hnum, List.map_singleton, List.reverse_singleton]

/-- The last digit. -/
theorem numeral_of_ge (hbase : 1 < base) (hnum : base ≤ num) :
    numeral base digit num = numeral base digit (num / base) ++ [digit (num % base)] := by
  have hdiv : num / base ≠ 0 := (Nat.div_pos hnum (by omega)).ne'
  rw [numeral, numeral, if_neg (by omega), if_neg hdiv, Nat.digits_def' hbase (by omega),
    List.map_cons, List.reverse_cons]

theorem padded_succ : padded base digit (width + 1) num =
    padded base digit width (num / base) ++ [digit (num % base)] := by
  rw [padded, padded, List.range_succ, List.map_append, List.map_singleton]
  refine congrArg₂ _ (List.map_congr_left fun i hi ↦ ?_) ?_
  · have hlt : i < width := List.mem_range.1 hi
    rw [Nat.div_div_eq_div_mul, ← pow_succ', show width - 1 - i + 1 = width + 1 - 1 - i by omega]
  · rw [Nat.add_sub_cancel, Nat.sub_self, pow_zero, Nat.div_one]

/-- A number of that width needs no padding. -/
theorem padded_eq_numeral (hbase : 1 < base) (hlow : base ^ width ≤ num)
    (hhigh : num < base ^ (width + 1)) :
    padded base digit (width + 1) num = numeral base digit num := by
  induction width generalizing num with
  | zero =>
    rw [pow_one] at hhigh
    rw [padded_succ, numeral_of_lt hhigh, Nat.mod_eq_of_lt hhigh]
    rfl
  | succ width ih =>
    have hge : base ≤ num := (Nat.le_self_pow (Nat.succ_ne_zero width) base).trans hlow
    rw [padded_succ, numeral_of_ge hbase hge, ih]
    · exact (Nat.le_div_iff_mul_le (by omega)).2 (by rwa [pow_succ] at hlow)
    · exact Nat.div_lt_of_lt_mul (by rwa [pow_succ'] at hhigh)

/-- A numeral does not begin with a zero. -/
theorem numeral_eq_cons (hbase : 1 < base) (hnum : num ≠ 0) :
    ∃ d rest, 0 < d ∧ d < base ∧ numeral base digit num = digit d :: rest := by
  induction num using Nat.strong_induction_on with
  | _ num ih =>
    rcases Nat.lt_or_ge num base with hlt | hge
    · exact ⟨num, [], Nat.pos_of_ne_zero hnum, hlt, numeral_of_lt hlt⟩
    · obtain ⟨d, rest, hd, hdb, heq⟩ := ih (num / base)
        (Nat.div_lt_self (Nat.pos_of_ne_zero hnum) hbase) (Nat.div_pos hge (by omega)).ne'
      exact ⟨d, rest ++ [digit (num % base)], hd, hdb, by rw [numeral_of_ge hbase hge, heq]; rfl⟩

theorem length_numeral_pos (hbase : 1 < base) : 0 < (numeral base digit num).length := by
  rcases eq_or_ne num 0 with rfl | hne
  · rw [numeral, if_pos rfl]
    exact Nat.one_pos
  · obtain ⟨d, rest, -, -, heq⟩ : ∃ d rest, 0 < d ∧ d < base ∧
        numeral base digit num = digit d :: rest := numeral_eq_cons hbase hne
    rw [heq]
    exact Nat.succ_pos _

/-- One digit. -/
theorem length_numeral_eq_one (hbase : 1 < base) :
    (numeral base digit num).length = 1 ↔ num < base := by
  constructor
  · intro h
    by_contra hge
    have hpos : 0 < (numeral base digit (num / base)).length := length_numeral_pos hbase
    rw [numeral_of_ge hbase (Nat.le_of_not_lt hge), List.length_append, List.length_singleton] at h
    omega
  · intro hlt
    rw [numeral_of_lt hlt, List.length_singleton]

/-- A number below a power has no more digits. -/
theorem length_numeral_le (hbase : 1 < base) (hnum : num < base ^ (width + 1)) :
    (numeral base digit num).length ≤ width + 1 := by
  induction width generalizing num with
  | zero =>
    rw [Nat.zero_add, pow_one] at hnum
    rw [numeral_of_lt hnum, List.length_singleton]
  | succ width ih =>
    rcases Nat.lt_or_ge num base with hlt | hge
    · rw [numeral_of_lt hlt, List.length_singleton]
      omega
    · have hdiv : num / base < base ^ (width + 1) :=
        Nat.div_lt_of_lt_mul (by rwa [pow_succ'] at hnum)
      rw [numeral_of_ge hbase hge, List.length_append, List.length_singleton]
      exact Nat.succ_le_succ (ih hdiv)
