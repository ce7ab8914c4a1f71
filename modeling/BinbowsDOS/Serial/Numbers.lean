import BinbowsDOS.Foundations.DigitBuffer
import BinbowsDOS.Serial.Printf

/-!
# Numbers

The functions of `vga.c` and `serial.c` that print a number, with their local arrays: which
characters they give to `put_char` or `serial_write`, and `none` if an index leaves the array. What
an array holds before it is written is unknown, `junk`.

They are what the formatters of the two files are made of (`printInt_eq` and the theorems after it).
All print the canonical numeral of every value (`faithful`).
-/

open Prog FormatString Kernel Console

/-! ### The functions -/

/-- More passes than the digits of a 32-bit number need. -/
def digitFuel : ℕ := 33

/-- The two loops on a local array: its size, what the first loop asks of the index besides, and
the digits. -/
def printDigits (size : ℕ) (guard : ℕ → Bool) (base : ℕ) (digit : ℕ → UInt8) (junk : ℕ → UInt8)
    (num : ℕ) : Option (List UInt8) :=
  (digitLoop size guard base digit digitFuel num 0 junk).bind fun r ↦ replay size r.2 r.1

/-- `print_uint` -/
def printUint (junk : ℕ → UInt8) (num : UInt32) : Option (List UInt8) :=
  if num = 0 then some ['0'.toUInt8]
  else printDigits 12 (fun _ ↦ true) 10 (fun d ↦ UInt8.ofNat ('0'.toNat + d)) junk num.toNat

/-- `print_int`. The negation of the least integer overflows, which C leaves open. The program as
built runs the loop on the bits of what it has negated as on those of an unsigned number, as it may
where nothing overflows. -/
def printInt (junk : ℕ → UInt8) (num : UInt32) : Option (List UInt8) :=
  if num = 0 then some ['0'.toUInt8]
  else if signed num < 0 then
    (printDigits 12 (fun _ ↦ true) 10 (fun d ↦ UInt8.ofNat ('0'.toNat + d)) junk
      (-num).toNat).map ('-'.toUInt8 :: ·)
  else printDigits 12 (fun _ ↦ true) 10 (fun d ↦ UInt8.ofNat ('0'.toNat + d)) junk num.toNat

/-- `print_hex` -/
def printHex (uppercase : Bool) (junk : ℕ → UInt8) (num : UInt32) : Option (List UInt8) :=
  if num = 0 then some ['0'.toUInt8]
  else printDigits 9 (fun _ ↦ true) 16 (hexDigit uppercase) junk num.toNat

/-- `for (i = n - 1; i >= 0; i--) { buffer[i] = digits[addr & 0xF]; addr >>= 4; }` -/
def ptrLoop : ℕ → ℕ → (ℕ → UInt8) → Option (ℕ → UInt8)
  | 0, _, buffer => some buffer
  | i + 1, addr, buffer =>
    (storeAt 8 i (hexDigit false (addr &&& 0xF)) buffer).bind (ptrLoop i (addr >>> 4))

/-- `print_ptr` -/
def printPtr (junk : ℕ → UInt8) (ptr : UInt32) : Option (List UInt8) :=
  (ptrLoop 8 ptr.toNat junk).bind fun buffer ↦
    (replayUp 8 buffer 8).map fun text ↦ '0'.toUInt8 :: 'x'.toUInt8 :: text

/-- `serial_putnum_unsigned`: what it gives to `serial_write`. -/
def serialPutnumUnsignedText (base : ℕ) (uppercase : Bool) (junk : ℕ → UInt8) (num : UInt32) :
    Option (List UInt8) :=
  if num = 0 then some ['0'.toUInt8]
  else printDigits 65 (fun i ↦ i < 65 - 1) base (hexDigit uppercase) junk num.toNat

/-- `serial_putnum_signed`: what it gives to `serial_write`. -/
def serialPutnumSignedText (base : ℕ) (junk : ℕ → UInt8) (num : UInt32) : Option (List UInt8) :=
  if signed num < 0 then (serialPutnumUnsignedText base false junk (-num)).map ('-'.toUInt8 :: ·)
  else serialPutnumUnsignedText base false junk num

/-! ### What they print -/

section Texts

variable {base room size : ℕ} {guard : ℕ → Bool} {digit junk : ℕ → UInt8} {uppercase : Bool}
  {num : UInt32}

/-- The array has room for the digits. -/
theorem printDigits_eq {n : ℕ} (hbase : 1 < base) (hroom : n < base ^ room)
    (hguard : ∀ j < room, guard j = true) (hsize : room ≤ size) (hfuel : room < digitFuel)
    (hn : n ≠ 0) : printDigits size guard base digit junk n = some (numeral base digit n) := by
  obtain ⟨i, buf, hloop, hreplay⟩ : ∃ i buf,
      digitLoop size guard base digit digitFuel n 0 junk = some (i, buf) ∧
        replay size buf i = some (numeral base digit n) :=
    digitLoop_numeral hbase hroom hguard hsize hfuel hn junk
  rw [printDigits, hloop, Option.bind_some, hreplay]

theorem ne_zero_of_ne (h : num ≠ 0) : num.toNat ≠ 0 := fun h' ↦ h (UInt32.toNat_inj.1 h')

/-- The ten digits of `print_int` and `print_uint`, in twelve bytes. -/
theorem printDigits_decimal {n : ℕ} (hn : n ≠ 0) (hlt : n < 2 ^ 32) :
    printDigits 12 (fun _ ↦ true) 10 (fun d ↦ UInt8.ofNat ('0'.toNat + d)) junk n =
      some (uintText n) := by
  have hroom : n < 10 ^ 10 := hlt.trans (by decide)
  rw [printDigits_eq (by decide) hroom (fun _ _ ↦ rfl) (by decide) (by decide) hn, uintText,
    numeral, if_neg hn, if_neg hn]

theorem printUint_eq (junk : ℕ → UInt8) (num : UInt32) :
    printUint junk num = some (uintText num.toNat) := by
  rw [printUint]
  split_ifs with hnum
  · rw [hnum]
    rfl
  · exact printDigits_decimal (ne_zero_of_ne hnum) num.toNat_lt

theorem signed_neg_iff : signed num < 0 ↔ 2 ^ 31 ≤ num.toNat := by
  have hlt := num.toNat_lt
  rw [signed]
  split_ifs <;> omega

theorem printInt_eq (junk : ℕ → UInt8) (num : UInt32) :
    printInt junk num = some (intText num) := by
  rw [printInt, intText]
  rcases eq_or_ne num 0 with rfl | hnum
  · rfl
  · rw [if_neg hnum]
    rcases Nat.lt_or_ge num.toNat (2 ^ 31) with hpos | hneg
    · have hnonneg : ¬ signed num < 0 := fun h ↦ absurd (signed_neg_iff.1 h) (Nat.not_le.2 hpos)
      rw [if_neg hnonneg, if_pos hpos]
      exact printDigits_decimal (ne_zero_of_ne hnum) num.toNat_lt
    · have hne : (-num).toNat ≠ 0 := ne_zero_of_ne (neg_ne_zero.2 hnum)
      rw [if_pos (signed_neg_iff.2 hneg), if_neg (Nat.not_lt.2 hneg),
        printDigits_decimal hne (-num).toNat_lt]
      rfl

theorem printHex_eq (uppercase : Bool) (junk : ℕ → UInt8) (num : UInt32) :
    printHex uppercase junk num = some (hexText num.toNat uppercase) := by
  rw [printHex]
  split_ifs with hnum
  · rw [hnum]
    rfl
  · have hne := ne_zero_of_ne hnum
    have hroom : num.toNat < 16 ^ 8 := num.toNat_lt.trans_le (by decide)
    rw [printDigits_eq (by decide) hroom (fun _ _ ↦ rfl) (by decide) (by decide) hne, hexText,
      numeral, if_neg hne, if_neg hne]

/-- The loop of `print_ptr` fills the array from its end. -/
theorem ptrLoop_spec {n addr : ℕ} {buffer : ℕ → UInt8} (hn : n ≤ 8) :
    ∃ buffer', ptrLoop n addr buffer = some buffer' ∧ (∀ j ≥ n, buffer' j = buffer j) ∧
      (List.range n).map buffer' = padded 16 (hexDigit false) n addr := by
  induction n generalizing addr buffer with
  | zero => exact ⟨buffer, rfl, fun _ _ ↦ rfl, rfl⟩
  | succ n ih =>
    rw [ptrLoop, storeAt, if_pos (by omega), Option.bind_some]
    obtain ⟨buffer', hloop, hrest, htext⟩ : ∃ buffer',
        ptrLoop n (addr >>> 4) (Function.update buffer n (hexDigit false (addr &&& 0xF))) =
          some buffer' ∧
        (∀ j ≥ n, buffer' j = Function.update buffer n (hexDigit false (addr &&& 0xF)) j) ∧
        (List.range n).map buffer' = padded 16 (hexDigit false) n (addr >>> 4) := ih (by omega)
    refine ⟨buffer', hloop, fun j hj ↦ ?_, ?_⟩
    · rw [hrest j (by omega), Function.update_of_ne (by omega)]
    · rw [List.range_succ, List.map_append, htext, List.map_singleton, hrest n le_rfl,
        Function.update_self, padded_succ, Nat.shiftRight_eq_div_pow]
      exact congrArg (_ ++ [hexDigit false ·]) (Nat.and_two_pow_sub_one_eq_mod addr 4)

theorem printPtr_eq (junk : ℕ → UInt8) (ptr : UInt32) :
    printPtr junk ptr = some (ptrText ptr.toNat) := by
  obtain ⟨buffer, hloop, -, htext⟩ : ∃ buffer, ptrLoop 8 ptr.toNat junk = some buffer ∧
      (∀ j ≥ 8, buffer j = junk j) ∧
      (List.range 8).map buffer = padded 16 (hexDigit false) 8 ptr.toNat := ptrLoop_spec le_rfl
  rw [printPtr, hloop, Option.bind_some, replayUp_eq le_rfl, htext]
  rfl

/-- The array of `serial_putnum_unsigned` has room even for binary. -/
theorem serialPutnumUnsignedText_eq {base : ℕ} (hbase : 1 < base) (hbase' : base ≤ 16)
    (uppercase : Bool) (junk : ℕ → UInt8) (num : UInt32) :
    serialPutnumUnsignedText base uppercase junk num =
      some (numeral base (digitChar uppercase) num.toNat) := by
  have hdigit : ∀ d < base, hexDigit uppercase d = digitChar uppercase d :=
    fun d hd ↦ hexDigit_eq uppercase d (hd.trans_le hbase')
  rw [serialPutnumUnsignedText]
  split_ifs with hnum
  · rw [hnum]
    cases uppercase <;> rfl
  · have hroom : num.toNat < base ^ 32 := num.toNat_lt.trans_le (Nat.pow_le_pow_left hbase 32)
    rw [printDigits_eq hbase hroom (fun j hj ↦ decide_eq_true (by omega)) (by decide) (by decide)
      (ne_zero_of_ne hnum), numeral_congr hbase hdigit]

/-- `serial_putnum_unsigned` as a program writes these characters. -/
theorem serialPutnumUnsigned_eq {σ : Type} [PortBus σ] {base fuel : ℕ} {text : List UInt8}
    (hbase : 1 < base) (hbase' : base ≤ 16)
    (htext : serialPutnumUnsignedText base uppercase junk num = some text) :
    (serialPutnumUnsigned fuel num.toNat base uppercase : KernelM σ Unit) =
      serialWriteChars fuel text := by
  have hdigit : ∀ d < base, hexDigit uppercase d = digitChar uppercase d :=
    fun d hd ↦ hexDigit_eq uppercase d (hd.trans_le hbase')
  rw [serialPutnumUnsignedText_eq hbase hbase'] at htext
  obtain rfl := Option.some.inj htext
  rw [serialPutnumUnsigned, ← numeral_congr hbase hdigit]
  rcases eq_or_ne num.toNat 0 with hzero | hne
  · rw [if_pos hzero, hzero, numeral_of_lt (by omega), serialWriteChars, serialWriteChars,
      bind_pure_unit]
    cases uppercase <;> rfl
  · have hroom : num.toNat < base ^ 64 :=
      num.toNat_lt.trans_le ((Nat.pow_le_pow_left hbase 32).trans
        (Nat.pow_le_pow_right (by omega) (by decide)))
    rw [if_neg hne, reverse_fillBuffer hbase hroom hne]

/-- So does `serial_putnum_signed`. -/
theorem serialPutnumSigned_eq {σ : Type} [PortBus σ] {base fuel : ℕ} {text : List UInt8}
    (hbase : 1 < base) (hbase' : base ≤ 16)
    (htext : serialPutnumSignedText base junk num = some text) :
    (serialPutnumSigned fuel num base : KernelM σ Unit) = serialWriteChars fuel text := by
  rw [serialPutnumSignedText] at htext
  rw [serialPutnumSigned]
  split_ifs at htext ⊢ with hneg
  · obtain ⟨digits, hdigits, rfl⟩ := Option.map_eq_some_iff.1 htext
    rw [serialPutnumUnsigned_eq hbase hbase' hdigits]
    rfl
  · exact serialPutnumUnsigned_eq hbase hbase' htext

end Texts

/-! ### What is read -/

/-- The digit that a character is, with letters of one case. -/
def digitValue (base : ℕ) (uppercase : Bool) (c : UInt8) : Option ℕ :=
  let letter := if uppercase then 'A'.toNat else 'a'.toNat
  let digit :=
    if '0'.toNat ≤ c.toNat ∧ c.toNat ≤ '9'.toNat then some (c.toNat - '0'.toNat)
    else if letter ≤ c.toNat then some (c.toNat - letter + 10)
    else none
  digit.filter (· < base)

/-- The text is the canonical numeral of `z`: a minus sign if it is negative, then at least one
digit, of which the first is a zero only if it is the only one, and they are read as the absolute
value. -/
def IsNumeral (base : ℕ) (uppercase : Bool) (z : ℤ) (text : List UInt8) : Prop :=
  ∃ digits, text = (if z < 0 then ['-'.toUInt8] else []) ++ digits ∧ digits ≠ [] ∧
    (digits.head? = some '0'.toUInt8 → digits.length = 1) ∧
    readNumeral base (digitValue base uppercase) digits = some z.natAbs

/-- The text of a pointer: `0x` and eight digits that are read as the address. -/
def IsPointer (addr : ℕ) (text : List UInt8) : Prop :=
  ∃ digits, text = '0'.toUInt8 :: 'x'.toUInt8 :: digits ∧ digits.length = 8 ∧
    readNumeral 16 (digitValue 16 false) digits = some addr

section Read

variable {base num : ℕ} {uppercase : Bool} {text : List UInt8}

theorem digitValue_digitChar (hbase : base ≤ 16) :
    ∀ d < base, digitValue base uppercase (digitChar uppercase d) = some d := by
  intro d hd
  have hhex : ∀ d < 16, digitValue 16 uppercase (digitChar uppercase d) = some d := by
    cases uppercase <;> decide
  have hvalue := hhex d (hd.trans_le hbase)
  rw [digitValue] at hvalue ⊢
  obtain ⟨hdigit, -⟩ := Option.filter_eq_some_iff.1 hvalue
  exact Option.filter_eq_some_iff.2 ⟨hdigit, decide_eq_true hd⟩

/-- A digit above zero is not the character zero. -/
theorem digitChar_ne_zero : ∀ d < 16, 0 < d → digitChar uppercase d ≠ '0'.toUInt8 := by
  cases uppercase <;> decide

theorem numeral_leading (hbase : 1 < base) (hbase' : base ≤ 16)
    (h : (numeral base (digitChar uppercase) num).head? = some '0'.toUInt8) :
    (numeral base (digitChar uppercase) num).length = 1 := by
  rcases eq_or_ne num 0 with rfl | hne
  · rw [length_numeral_eq_one hbase]
    omega
  · obtain ⟨d, rest, hpos, hd, heq⟩ : ∃ d rest, 0 < d ∧ d < base ∧
        numeral base (digitChar uppercase) num = digitChar uppercase d :: rest :=
      numeral_eq_cons hbase hne
    rw [heq, List.head?_cons, Option.some.injEq] at h
    exact absurd h (digitChar_ne_zero d (hd.trans_le hbase') hpos)

/-- A numeral behind the sign of its number. -/
theorem isNumeral_numeral {z : ℤ} (hbase : 1 < base) (hbase' : base ≤ 16) :
    IsNumeral base uppercase z ((if z < 0 then ['-'.toUInt8] else []) ++
      numeral base (digitChar uppercase) z.natAbs) :=
  ⟨_, rfl, List.ne_nil_of_length_pos (length_numeral_pos hbase), numeral_leading hbase hbase',
    readNumeral_numeral hbase (digitValue_digitChar hbase')⟩

theorem isNumeral_natCast (hbase : 1 < base) (hbase' : base ≤ 16) :
    IsNumeral base uppercase num (numeral base (digitChar uppercase) num) := by
  have hnumeral : IsNumeral base uppercase (num : ℤ) _ := isNumeral_numeral hbase hbase'
  rwa [if_neg (by omega), List.nil_append, Int.natAbs_natCast] at hnumeral

theorem isPointer_ptrText (h : num < 2 ^ 32) : IsPointer num (ptrText num) := by
  refine ⟨padded 16 (hexDigit false) 8 num, rfl, ?_, ?_⟩
  · rw [padded, List.length_map, List.length_range]
  · have hdigit : ∀ d < 16, hexDigit false d = digitChar false d := hexDigit_eq false
    rw [padded_congr (by decide) hdigit,
      readNumeral_padded (by decide) (digitValue_digitChar le_rfl),
      Nat.mod_eq_of_lt (show num < 16 ^ 8 from h)]

end Read

/-! ### Every printer -/

/-- A base that there are digits for. -/
structure DigitBase where
  base : ℕ
  one_lt : 1 < base
  le_sixteen : base ≤ 16

/-- The functions that print a number. -/
inductive NumberPrinter
  | int
  | uint
  | hex (uppercase : Bool)
  | ptr
  | putnumSigned (b : DigitBase)
  | putnumUnsigned (b : DigitBase) (uppercase : Bool)

namespace NumberPrinter

variable {p : NumberPrinter} {junk : ℕ → UInt8} {num : UInt32}

/-- The characters it emits. -/
def print (junk : ℕ → UInt8) (num : UInt32) : NumberPrinter → Option (List UInt8)
  | int => printInt junk num
  | uint => printUint junk num
  | hex uppercase => printHex uppercase junk num
  | ptr => printPtr junk num
  | putnumSigned b => serialPutnumSignedText b.base junk num
  | putnumUnsigned b uppercase => serialPutnumUnsignedText b.base uppercase junk num

/-- What they have to be. -/
def Asks (num : UInt32) (text : List UInt8) : NumberPrinter → Prop
  | int => IsNumeral 10 false (signed num) text
  | uint => IsNumeral 10 false num.toNat text
  | hex uppercase => IsNumeral 16 uppercase num.toNat text
  | ptr => IsPointer num.toNat text
  | putnumSigned b => IsNumeral b.base false (signed num) text
  | putnumUnsigned b uppercase => IsNumeral b.base uppercase num.toNat text

/-- No index leaves the array, and what is printed is what has to be. -/
def Faithful (p : NumberPrinter) (junk : ℕ → UInt8) (num : UInt32) : Prop :=
  ∃ text, p.print junk num = some text ∧ p.Asks num text

theorem natAbs_signed_of_ge (h : 2 ^ 31 ≤ num.toNat) : (signed num).natAbs = (-num).toNat := by
  have hlt := num.toNat_lt
  rw [toNat_neg_of_ge h, signed, if_neg (Nat.not_lt.2 h)]
  omega

theorem isNumeral_intText (num : UInt32) : IsNumeral 10 false (signed num) (intText num) := by
  have hnumeral : IsNumeral 10 false (signed num) _ := isNumeral_numeral (by decide) (by decide)
  rw [intText_eq, Item.render]
  split_ifs at hnumeral ⊢ with hneg
  · exact hnumeral
  · exact hnumeral

theorem faithful_putnumSigned (b : DigitBase) : (putnumSigned b).Faithful junk num := by
  refine ⟨_, ?_, isNumeral_numeral b.one_lt b.le_sixteen⟩
  rw [print, serialPutnumSignedText]
  rcases Nat.lt_or_ge num.toNat (2 ^ 31) with hpos | hneg
  · have hsigned : signed num = num.toNat := by rw [signed, if_pos hpos]
    have hnonneg : ¬ signed num < 0 := fun h ↦ absurd (signed_neg_iff.1 h) (Nat.not_le.2 hpos)
    rw [if_neg hnonneg, if_neg hnonneg, hsigned, Int.natAbs_natCast, List.nil_append]
    exact serialPutnumUnsignedText_eq b.one_lt b.le_sixteen false junk num
  · rw [if_pos (signed_neg_iff.2 hneg), if_pos (signed_neg_iff.2 hneg), natAbs_signed_of_ge hneg,
      serialPutnumUnsignedText_eq b.one_lt b.le_sixteen]
    rfl

/-- **Numbers are printed faithfully** by every printer. -/
theorem faithful (p : NumberPrinter) (junk : ℕ → UInt8) (num : UInt32) : p.Faithful junk num := by
  cases p with
  | int => exact ⟨_, printInt_eq junk num, isNumeral_intText num⟩
  | uint =>
    refine ⟨_, printUint_eq junk num, ?_⟩
    rw [uintText_eq]
    exact isNumeral_natCast (by decide) (by decide)
  | hex uppercase =>
    refine ⟨_, printHex_eq uppercase junk num, ?_⟩
    rw [hexText_eq]
    exact isNumeral_natCast (by decide) (by decide)
  | ptr => exact ⟨_, printPtr_eq junk num, isPointer_ptrText num.toNat_lt⟩
  | putnumSigned b => exact faithful_putnumSigned b
  | putnumUnsigned b uppercase =>
    exact ⟨_, serialPutnumUnsignedText_eq b.one_lt b.le_sixteen uppercase junk num,
      isNumeral_natCast b.one_lt b.le_sixteen⟩

end NumberPrinter
