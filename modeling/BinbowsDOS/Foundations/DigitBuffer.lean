import BinbowsDOS.Foundations.Numerals
import Mathlib.Logic.Function.Basic

/-!
# Digits in an array

The loops that make a numeral with an index into an array of fixed size: one stores the digits from
the lowest on, another reads them back from the last one stored. An access outside the array is an
error, `none`. An array with room for all digits has no such access, and what is read is the numeral
(`digitLoop_spec`).

A numeral is read back digit by digit (`readNumeral`); numerals and padded numerals are read as the
number they were made of.
-/

variable {α : Type} {base num width room size i : ℕ} {digit : ℕ → α} {buf : ℕ → α}
  {guard : ℕ → Bool}

/-! ### Arrays -/

/-- `buf[i] = v`, in an array of this size. -/
def storeAt (size i : ℕ) (v : α) (buf : ℕ → α) : Option (ℕ → α) :=
  if i < size then some (Function.update buf i v) else none

/-- `buf[i]`, in an array of this size. -/
def loadAt (size i : ℕ) (buf : ℕ → α) : Option α := if i < size then some (buf i) else none

/-- `while (num && guard(i)) { buf[i++] = digit[num % base]; num /= base; }`: how many digits there
are then, and the array. Without fuel it does not end. -/
def digitLoop (size : ℕ) (guard : ℕ → Bool) (base : ℕ) (digit : ℕ → α) :
    ℕ → ℕ → ℕ → (ℕ → α) → Option (ℕ × (ℕ → α))
  | 0, _, _, _ => none
  | fuel + 1, num, i, buf =>
    if num ≠ 0 ∧ guard i then
      (storeAt size i (digit (num % base)) buf).bind
        (digitLoop size guard base digit fuel (num / base) (i + 1))
    else some (i, buf)

/-- `while (i > 0) emit(buf[--i]);` -/
def replay (size : ℕ) (buf : ℕ → α) : ℕ → Option (List α)
  | 0 => some []
  | i + 1 => (loadAt size i buf).bind fun c ↦ (replay size buf i).map (c :: ·)

/-- `for (i = 0; i < n; i++) emit(buf[i]);` -/
def replayUp (size : ℕ) (buf : ℕ → α) (n : ℕ) : Option (List α) :=
  (List.range n).mapM fun i ↦ loadAt size i buf

theorem replay_congr {buf' : ℕ → α} (h : ∀ j < i, buf j = buf' j) :
    replay size buf i = replay size buf' i := by
  induction i with
  | zero => rfl
  | succ i ih =>
    rw [replay, replay, loadAt, loadAt, h i (Nat.lt_succ_self i), ih fun j hj ↦ h j (by omega)]

/-- A digit more is read first. -/
theorem replay_update {v : α} {text : List α} (hi : i < size)
    (h : replay size buf i = some text) :
    replay size (Function.update buf i v) (i + 1) = some (v :: text) := by
  have hbelow : replay size (Function.update buf i v) i = replay size buf i :=
    replay_congr fun j hj ↦ Function.update_of_ne hj.ne v buf
  rw [replay, loadAt, if_pos hi, Option.bind_some, hbelow, h, Function.update_self]
  rfl

/-- **The loop** with room for the digits that are left: nothing is stored outside the array, and
they are read back before the ones that were there. -/
theorem digitLoop_spec {fuel : ℕ} {text : List α} (hbase : 1 < base) (hroom : num < base ^ room)
    (hguard : ∀ j < i + room, guard j = true) (hsize : i + room ≤ size) (hfuel : room < fuel)
    (h : replay size buf i = some text) :
    ∃ n buf', digitLoop size guard base digit fuel num i buf = some (n, buf') ∧
      replay size buf' n = some (((Nat.digits base num).map digit).reverse ++ text) := by
  induction room generalizing num i buf text fuel with
  | zero =>
    obtain rfl : num = 0 := Nat.lt_one_iff.1 hroom
    obtain ⟨fuel, rfl⟩ := Nat.exists_eq_add_one.2 hfuel
    exact ⟨i, buf, by rw [digitLoop, if_neg fun hgo ↦ hgo.1 rfl], by simpa using h⟩
  | succ room ih =>
    obtain ⟨fuel, rfl⟩ := Nat.exists_eq_add_one.2 (Nat.zero_lt_of_lt hfuel)
    rw [digitLoop]
    rcases Nat.eq_zero_or_pos num with rfl | hpos
    · rw [if_neg fun hgo ↦ hgo.1 rfl]
      exact ⟨i, buf, rfl, by simpa using h⟩
    · have hstored : replay size (Function.update buf i (digit (num % base))) (i + 1) =
          some (digit (num % base) :: text) := replay_update (by omega) h
      have hlow : num / base < base ^ room := Nat.div_lt_of_lt_mul (by rwa [pow_succ'] at hroom)
      obtain ⟨n, buf', hloop, hreplay⟩ := ih hlow (fun j hj ↦ hguard j (by omega)) (by omega)
        (show room < fuel by omega) hstored
      rw [if_pos ⟨hpos.ne', hguard i (by omega)⟩, storeAt, if_pos (by omega), Option.bind_some,
        hloop]
      refine ⟨n, buf', rfl, hreplay.trans ?_⟩
      rw [Nat.digits_def' hbase hpos, List.map_cons, List.reverse_cons, List.append_assoc,
        List.singleton_append]

/-- From the beginning the numeral is read. -/
theorem digitLoop_numeral {fuel : ℕ} (hbase : 1 < base) (hroom : num < base ^ room)
    (hguard : ∀ j < room, guard j = true) (hsize : room ≤ size) (hfuel : room < fuel)
    (hnum : num ≠ 0) (buf : ℕ → α) :
    ∃ n buf', digitLoop size guard base digit fuel num 0 buf = some (n, buf') ∧
      replay size buf' n = some (numeral base digit num) := by
  have hempty : replay size buf 0 = some [] := rfl
  obtain ⟨n, buf', hloop, hreplay⟩ : ∃ n buf',
      digitLoop size guard base digit fuel num 0 buf = some (n, buf') ∧
        replay size buf' n = some (((Nat.digits base num).map digit).reverse ++ []) :=
    digitLoop_spec hbase hroom (by rwa [Nat.zero_add]) (by omega) hfuel hempty
  rw [List.append_nil] at hreplay
  exact ⟨n, buf', hloop, by rw [hreplay, numeral, if_neg hnum]⟩

theorem replayUp_eq {n : ℕ} (hn : n ≤ size) :
    replayUp size buf n = some ((List.range n).map buf) := by
  have hload : ∀ l : List ℕ, (∀ i ∈ l, i < size) →
      l.mapM (fun i ↦ loadAt size i buf) = some (l.map buf) := by
    intro l
    induction l with
    | nil => exact fun _ ↦ rfl
    | cons i l ih =>
      intro hl
      rw [List.forall_mem_cons] at hl
      rw [List.mapM_cons, loadAt, if_pos hl.1, ih hl.2]
      rfl
  exact hload _ fun i hi ↦ (List.mem_range.1 hi).trans_le hn

/-! ### Reading a numeral -/

variable {value : α → Option ℕ}

/-- The number that these digits are, if all of them are digits. -/
def readNumeral (base : ℕ) (value : α → Option ℕ) (text : List α) : Option ℕ :=
  text.foldl (fun num c ↦ num.bind fun num ↦ (value c).map (num * base + ·)) (some 0)

theorem readNumeral_append_singleton (text : List α) (c : α) :
    readNumeral base value (text ++ [c]) =
      (readNumeral base value text).bind fun num ↦ (value c).map (num * base + ·) := by
  rw [readNumeral, List.foldl_append]
  rfl

/-- **A numeral is read as its number.** -/
theorem readNumeral_numeral (hbase : 1 < base) (hvalue : ∀ d < base, value (digit d) = some d) :
    readNumeral base value (numeral base digit num) = some num := by
  induction num using Nat.strong_induction_on with
  | _ num ih =>
    rcases Nat.lt_or_ge num base with hlt | hge
    · rw [numeral_of_lt hlt, ← List.nil_append [digit num], readNumeral_append_singleton]
      simp [readNumeral, hvalue num hlt]
    · have hmod : num % base < base := Nat.mod_lt num (by omega)
      rw [numeral_of_ge hbase hge, readNumeral_append_singleton,
        ih (num / base) (Nat.div_lt_self (by omega) hbase), hvalue _ hmod, Option.bind_some,
        Option.map_some, Nat.div_add_mod']

/-- Of a padded one the width is read. -/
theorem readNumeral_padded (hbase : 1 < base) (hvalue : ∀ d < base, value (digit d) = some d) :
    readNumeral base value (padded base digit width num) = some (num % base ^ width) := by
  induction width generalizing num with
  | zero => rw [pow_zero, Nat.mod_one]; rfl
  | succ width ih =>
    have hmod : num % base < base := Nat.mod_lt num (by omega)
    rw [padded_succ, readNumeral_append_singleton, ih, hvalue _ hmod, Option.bind_some,
      Option.map_some, pow_succ', Nat.mod_mul]
    exact congrArg some (by rw [Nat.mul_comm, Nat.add_comm])
