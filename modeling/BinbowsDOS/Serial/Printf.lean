import BinbowsDOS.Console.Printf
import BinbowsDOS.Serial.Isolation

/-!
# `serial_printf` beside `printf`

The formatter of `serial.c`, on any bus whose line does not stay busy. It ends in the state in
which writing its text ends (`writesChars_serialPrintf`), and has then sent that text to COM1. It
stops at a percent sign that ends its format, so it makes of every format what the reference asks
for, save that its pointers have no leading zeros.

What is sent of an item is never longer than what is shown of it, so a difference is not made up for
by what comes after it (`flatMap_sent_eq_shown_iff`).
-/

open Prog Kernel FormatString
open Console (CString Passes Passed FormatCall)

section Program

variable {σ : Type} [PortBus σ]

/-- `serial_putnum_unsigned` -/
def serialPutnumUnsigned (fuel num base : ℕ) (uppercase : Bool) : KernelM σ Unit :=
  if num = 0 then serialWrite '0'.toUInt8 fuel
  else serialWriteChars fuel (fillBuffer base (hexDigit uppercase) 64 num).reverse

/-- `serial_putnum_signed`. A `long` has 32 bits. -/
def serialPutnumSigned (fuel : ℕ) (num : UInt32) (base : ℕ) : KernelM σ Unit :=
  if signed num < 0 then do
    serialWrite '-'.toUInt8 fuel
    serialPutnumUnsigned fuel (-num).toNat base false
  else serialPutnumUnsigned fuel num.toNat base false

/-- `serial_write_string(s ? s : "(null)")` -/
def serialWriteNullable (fuel s : ℕ) : KernelM σ Unit :=
  if s = 0 then serialWriteChars fuel (literal "(null)") else serialWriteString fuel s

/-- The `switch` of `serial_vserial_printf` on the character at `fmt`; `arg` is the next argument.
Returns how many arguments it takes. -/
def serialConvert (fuel fmt : ℕ) (arg : UInt32) : KernelM σ ℕ := do
  let w ← get
  let spec := w.mem fmt
  if spec = 's'.toUInt8 then do
    serialWriteNullable fuel arg.toNat
    pure 1
  else if spec = 'c'.toUInt8 then do
    serialWrite (UInt8.ofNat arg.toNat) fuel
    pure 1
  else if spec = 'd'.toUInt8 ∨ spec = 'i'.toUInt8 then do
    serialPutnumSigned fuel arg 10
    pure 1
  else if spec = 'u'.toUInt8 then do
    serialPutnumUnsigned fuel arg.toNat 10 false
    pure 1
  else if spec = 'x'.toUInt8 then do
    serialPutnumUnsigned fuel arg.toNat 16 false
    pure 1
  else if spec = 'X'.toUInt8 then do
    serialPutnumUnsigned fuel arg.toNat 16 true
    pure 1
  else if spec = 'p'.toUInt8 then do
    serialWrite '0'.toUInt8 fuel
    serialWrite 'x'.toUInt8 fuel
    serialPutnumUnsigned fuel arg.toNat 16 false
    pure 1
  else if spec = '%'.toUInt8 then do
    serialWrite '%'.toUInt8 fuel
    pure 0
  else do
    serialWrite '%'.toUInt8 fuel
    serialWrite spec fuel
    pure 0

/-- The loop of `serial_vserial_printf` from `fmt` on, with `k` arguments taken. -/
def serialPrintfLoop (args : ℕ → UInt32) : ℕ → ℕ → ℕ → KernelM σ Unit
  | 0, _, _ => fun _ ↦ none
  | fuel + 1, fmt, k => do
    let w ← get
    if w.mem fmt = 0 then pure ()
    else if w.mem fmt ≠ '%'.toUInt8 then do
      serialWrite (w.mem fmt) fuel
      serialPrintfLoop args fuel (fmt + 1) k
    else if w.mem (fmt + 1) = 0 then pure ()
    else do
      let taken ← serialConvert fuel (fmt + 1) (args k)
      serialPrintfLoop args fuel (fmt + 2) (k + taken)

/-- `serial_vserial_printf` -/
def serialVserialPrintf (fuel fmt : ℕ) (args : ℕ → UInt32) : KernelM σ Unit :=
  if fmt = 0 then pure () else serialPrintfLoop args fuel fmt 0

/-- `serial_printf` -/
def serialPrintf (fuel fmt : ℕ) (args : ℕ → UInt32) : KernelM σ Unit :=
  serialVserialPrintf fuel fmt args

end Program

/-- What `serial_printf` sends. -/
def FormatString.Item.sent : Item → List UInt8
  | pointer w => '0'.toUInt8 :: 'x'.toUInt8 :: numeral 16 (digitChar false) w.toNat
  | x => x.render

/-! ### What is written -/

/-- After some polls of the line status the transmitter is empty. -/
inductive LineFrees {σ : Type} [PortBus σ] : σ → Prop
  | free {b : σ} (h : (PortBus.inb (com1Port + 5) b).1 &&& 0x20 ≠ 0) : LineFrees b
  | wait {b : σ} (h : (PortBus.inb (com1Port + 5) b).1 &&& 0x20 = 0)
    (hrest : LineFrees (PortBus.inb (com1Port + 5) b).2) : LineFrees b

section Writes

variable {σ α β : Type} [PortBus σ] {w : Kernel σ} {cs ds : List UInt8}

theorem serialWriteChars_append (fuel : ℕ) :
    serialWriteChars fuel (cs ++ ds) =
      (serialWriteChars fuel cs >>= fun _ ↦ serialWriteChars fuel ds : KernelM σ Unit) := by
  induction cs with
  | nil => rfl
  | cons c cs ih => rw [List.cons_append, serialWriteChars, serialWriteChars, ih, bind_assoc]

theorem mem_of_ends_serialWriteChars {w' : Kernel σ}
    (h : Ends (fun fuel ↦ serialWriteChars fuel cs) w () w') : w'.mem = w.mem := by
  obtain ⟨fuel, hrun⟩ := h.exists_runs
  exact ((serialWriteChars_respects portAccess_portsOnly fuel cs).run hrun).mem_eq

/-- From `w` on the program ends with enough fuel, with the value `v`, in the state in which
writing `cs` ends. -/
def WritesChars (m : ℕ → KernelM σ α) (w : Kernel σ) (v : α) (cs : List UInt8) : Prop :=
  ∃ w', Ends m w v w' ∧ Ends (fun fuel ↦ serialWriteChars fuel cs) w () w'

theorem writesChars_pure (v : α) : WritesChars (fun _ ↦ pure v) w v [] :=
  ⟨w, ends_of_runs fun _ ↦ rfl, ends_of_runs fun _ ↦ rfl⟩

theorem WritesChars.bind {m : ℕ → KernelM σ α} {f : ℕ → α → KernelM σ β} {u : α} {v : β}
    (h : WritesChars m w u cs)
    (hf : ∀ w', w'.mem = w.mem → WritesChars (fun fuel ↦ f fuel u) w' v ds) :
    WritesChars (fun fuel ↦ m fuel >>= f fuel) w v (cs ++ ds) := by
  obtain ⟨w₁, hends₁, hchars₁⟩ := h
  obtain ⟨w₂, hends₂, hchars₂⟩ := hf w₁ (mem_of_ends_serialWriteChars hchars₁)
  have hboth : Ends (fun fuel ↦ do serialWriteChars fuel cs; serialWriteChars fuel ds) w () w₂ :=
    hchars₁.bind (f := fun fuel _ ↦ serialWriteChars fuel ds) hchars₂
  refine ⟨w₂, hends₁.bind hends₂, hboth.congr fun fuel ↦ ?_⟩
  rw [serialWriteChars_append]

/-- One after the other. -/
theorem WritesChars.seq {m : ℕ → KernelM σ Unit} {m' : ℕ → KernelM σ β} {v : β}
    (h : WritesChars m w () cs) (h' : ∀ w', w'.mem = w.mem → WritesChars m' w' v ds) :
    WritesChars (fun fuel ↦ do m fuel; m' fuel) w v (cs ++ ds) :=
  h.bind h'

theorem WritesChars.returning {m : ℕ → KernelM σ Unit} (h : WritesChars m w () cs) (v : β) :
    WritesChars (fun fuel ↦ do m fuel; pure v) w v cs := by
  have hseq := h.seq fun _ _ ↦ writesChars_pure v
  rwa [List.append_nil] at hseq

theorem WritesChars.congr {m m' : ℕ → KernelM σ α} {v : α} (heq : ∀ fuel, m' fuel w = m fuel w)
    (h : WritesChars m w v cs) : WritesChars m' w v cs := by
  obtain ⟨w₁, hends, hchars⟩ := h
  exact ⟨w₁, hends.congr heq, hchars⟩

theorem WritesChars.of_succ {m : ℕ → KernelM σ α} {v : α}
    (h : WritesChars (fun fuel ↦ m (fuel + 1)) w v cs) : WritesChars m w v cs := by
  obtain ⟨w₁, hends, hchars⟩ := h
  exact ⟨w₁, hends.of_succ, hchars⟩

end Writes

section Serial

variable {σ : Type} [PortBus σ] {w : Kernel σ} {c d : UInt8} {cs t fs : List UInt8}
  {a k : ℕ} {v : UInt32} {args : ℕ → UInt32} {arg : Arg} {as : List Arg} {x : Item}
  {is : List Item}

/-- The loop of `serial_write_string`, which has a bound of its own. -/
theorem serialWriteStringLoop_apply (ht : CString w.mem a t) (fuel : ℕ) {chars : ℕ}
    (hchars : t.length < chars) :
    serialWriteStringLoop fuel chars a w = serialWriteChars fuel t w := by
  induction t generalizing w a chars with
  | nil =>
    obtain ⟨chars, rfl⟩ := Nat.exists_eq_add_one.2 hchars
    rw [serialWriteStringLoop, bind_apply_of_runs get_apply, if_pos ht.2]
    rfl
  | cons c t ih =>
    obtain ⟨chars, rfl⟩ := Nat.exists_eq_add_one.2 (Nat.zero_lt_of_lt hchars)
    obtain ⟨-, hc, hne, ht⟩ := ht
    rw [serialWriteStringLoop, bind_apply_of_runs get_apply, hc, if_neg hne, serialWriteChars]
    refine bind_congr_of_runs fun _ w' h ↦ ih ?_ (Nat.lt_of_succ_lt_succ hchars)
    rwa [((serialWrite_respects portAccess_portsOnly c fuel).run h).mem_eq]

theorem writesChars_serialPrintfLoop_percent {j : ℕ} (hmem : w.mem a = percent)
    (hd : w.mem (a + 1) = d) (hnul : d ≠ 0)
    (hconvert : WritesChars (fun fuel ↦ serialConvert fuel (a + 1) (args k)) w j cs)
    (hrest : ∀ w' : Kernel σ, w'.mem = w.mem →
      WritesChars (fun fuel ↦ serialPrintfLoop args fuel (a + 2) (k + j)) w' () t) :
    WritesChars (fun fuel ↦ serialPrintfLoop args fuel a k) w () (cs ++ t) := by
  refine ((hconvert.bind (f := fun fuel j ↦ serialPrintfLoop args fuel (a + 2) (k + j))
    hrest).congr fun fuel ↦ ?_).of_succ
  rw [serialPrintfLoop, bind_apply_of_runs get_apply, hmem, if_neg (by decide),
    show '%'.toUInt8 = percent from rfl, if_neg (not_not.2 rfl), hd, if_neg hnul]

variable (hline : ∀ b : σ, LineFrees b)

include hline

theorem exists_ends_serialWrite : ∃ w', Ends (serialWrite c) w () w' := by
  have h := hline w.io
  generalize hb : w.io = b at h
  induction h generalizing w with
  | @free b h =>
    subst hb
    refine ⟨w.setIo (PortBus.outb com1Port c (PortBus.inb (com1Port + 5) w.io).2),
      Ends.of_succ (ends_of_runs fun fuel ↦ ?_)⟩
    rw [serialWrite]
    show Runs (if (PortBus.inb (com1Port + 5) w.io).1 &&& 0x20 = 0 then _ else _) _ _ _
    rw [if_neg h]
    rfl
  | @wait b h hrest ih =>
    subst hb
    obtain ⟨w', hends⟩ := ih (w := w.setIo (PortBus.inb (com1Port + 5) w.io).2) rfl
    refine ⟨w', Ends.of_succ (Ends.congr (fun fuel ↦ ?_) hends)⟩
    rw [serialWrite]
    show (if (PortBus.inb (com1Port + 5) w.io).1 &&& 0x20 = 0 then _ else _ : KernelM σ Unit)
      (w.setIo (PortBus.inb (com1Port + 5) w.io).2) = _
    rw [if_pos h]

theorem writesChars_serialWriteChars :
    WritesChars (fun fuel ↦ serialWriteChars fuel cs) w () cs := by
  have hends : ∃ w', Ends (fun fuel ↦ serialWriteChars fuel cs) w () w' := by
    induction cs generalizing w with
    | nil => exact ⟨w, ends_of_runs fun _ ↦ rfl⟩
    | cons c cs ih =>
      obtain ⟨w₁, hwrite⟩ := exists_ends_serialWrite hline (c := c) (w := w)
      obtain ⟨w₂, hrest⟩ := ih (w := w₁)
      exact ⟨w₂, hwrite.bind hrest⟩
  obtain ⟨w', hends⟩ := hends
  exact ⟨w', hends, hends⟩

theorem writesChars_serialWrite : WritesChars (serialWrite c) w () [c] :=
  (writesChars_serialWriteChars hline).congr fun fuel ↦ by
    rw [serialWriteChars, serialWriteChars, bind_pure_unit]

theorem writesChars_serialWriteString (ha : a ≠ 0) (ht : CString w.mem a t) :
    WritesChars (fun fuel ↦ serialWriteString fuel a) w () t := by
  obtain ⟨w', ⟨fuel₀, hends⟩, hchars⟩ :
      WritesChars (fun fuel ↦ serialWriteChars fuel t) w () t := writesChars_serialWriteChars hline
  refine ⟨w', ⟨max fuel₀ (t.length + 1), fun fuel hfuel ↦ ?_⟩, hchars⟩
  show serialWriteString fuel a w = _
  rw [serialWriteString, if_neg ha,
    serialWriteStringLoop_apply ht fuel (le_of_max_le_right hfuel)]
  exact hends fuel (le_of_max_le_left hfuel)

theorem writesChars_serialPutnumUnsigned {num base : ℕ} {uppercase : Bool} (hbase : 1 < base)
    (hbase' : base ≤ 16) (hnum : num < 2 ^ 32) :
    WritesChars (fun fuel ↦ serialPutnumUnsigned fuel num base uppercase) w ()
      (numeral base (digitChar uppercase) num) := by
  have hdigit : ∀ d < base, hexDigit uppercase d = digitChar uppercase d :=
    fun d hd ↦ hexDigit_eq uppercase d (hd.trans_le hbase')
  rw [← numeral_congr hbase hdigit]
  rcases eq_or_ne num 0 with rfl | hne
  · rw [numeral_of_lt (by omega), hdigit 0 (by omega),
      show digitChar uppercase 0 = '0'.toUInt8 by cases uppercase <;> rfl]
    exact (writesChars_serialWrite hline).congr fun fuel ↦ by rw [serialPutnumUnsigned, if_pos rfl]
  · have hroom : num < base ^ 64 :=
      (hnum.trans (by decide)).trans_le (Nat.pow_le_pow_left hbase 64)
    rw [← reverse_fillBuffer hbase hroom hne]
    exact (writesChars_serialWriteChars hline).congr fun fuel ↦ by
      rw [serialPutnumUnsigned, if_neg hne]

theorem writesChars_serialPutnumSigned :
    WritesChars (fun fuel ↦ serialPutnumSigned fuel v 10) w () (Item.int v).render := by
  have hlt := v.toNat_lt
  rcases Nat.lt_or_ge v.toNat (2 ^ 31) with hv | hv
  · have hsigned : ¬ signed v < 0 := by
      rw [signed, if_pos hv]
      omega
    rw [render_int_of_lt hv]
    exact (writesChars_serialPutnumUnsigned hline (by decide) (by decide) hlt).congr fun fuel ↦ by
      rw [serialPutnumSigned, if_neg hsigned]
  · have hsigned : signed v < 0 := by
      rw [signed, if_neg (Nat.not_lt.2 hv)]
      omega
    have hdigits : ∀ w : Kernel σ, WritesChars
        (fun fuel ↦ serialPutnumUnsigned fuel (-v).toNat 10 false) w () (decimal (-v).toNat) :=
      fun _ ↦ writesChars_serialPutnumUnsigned hline (by decide) (by decide) (-v).toNat_lt
    rw [render_int_of_ge hv, ← toNat_neg_of_ge hv]
    exact ((writesChars_serialWrite hline).bind fun w' _ ↦ hdigits w').congr fun fuel ↦ by
      rw [serialPutnumSigned, if_pos hsigned]

theorem writesChars_serialWriteNullable {o : Option (List UInt8)}
    (hpass : Passes w.mem v (.string o)) :
    WritesChars (fun fuel ↦ serialWriteNullable fuel v.toNat) w () (o.getD (literal "(null)")) := by
  cases o with
  | none =>
    have hnull : v.toNat = 0 := congrArg UInt32.toNat hpass
    exact (writesChars_serialWriteChars hline).congr fun fuel ↦ by
      rw [serialWriteNullable, if_pos hnull, Option.getD_none]
  | some t =>
    have hnull : v.toNat ≠ 0 := fun h ↦ hpass.1 (UInt32.toNat_inj.1 h)
    exact (writesChars_serialWriteString hline hnull hpass.2).congr fun fuel ↦ by
      rw [serialWriteNullable, if_neg hnull]

/-- A directive with an argument. -/
theorem writesChars_serialConvert {f : Arg → Option Item} (hd : w.mem a = d)
    (hconversion : conversion? d = some f) (hx : f arg = some x) (hpass : Passes w.mem v arg) :
    WritesChars (fun fuel ↦ serialConvert fuel a v) w 1 x.sent := by
  rw [conversion?] at hconversion
  split_ifs at hconversion with hchar hstring hint huint hlower hupper hpointer <;>
    obtain rfl := Option.some.inj hconversion
  · obtain ⟨u, rfl, rfl⟩ := forWord_eq_some.1 hx
    obtain rfl : v = u := hpass
    refine ((writesChars_serialWrite hline).returning 1).congr fun fuel ↦ ?_
    rw [serialConvert, bind_apply_of_runs get_apply, hd, if_neg (by rw [hchar]; decide),
      if_pos hchar]
    rfl
  · obtain ⟨o, rfl, rfl⟩ := forString_eq_some.1 hx
    refine ((writesChars_serialWriteNullable hline hpass).returning 1).congr fun fuel ↦ ?_
    rw [serialConvert, bind_apply_of_runs get_apply, hd, if_pos hstring]
  · obtain ⟨u, rfl, rfl⟩ := forWord_eq_some.1 hx
    obtain rfl : v = u := hpass
    refine ((writesChars_serialPutnumSigned hline).returning 1).congr fun fuel ↦ ?_
    rw [serialConvert, bind_apply_of_runs get_apply, hd, if_neg hstring, if_neg hchar, if_pos hint]
  · obtain ⟨u, rfl, rfl⟩ := forWord_eq_some.1 hx
    obtain rfl : v = u := hpass
    have hdigits : WritesChars (fun fuel ↦ serialPutnumUnsigned fuel v.toNat 10 false) w () _ :=
      writesChars_serialPutnumUnsigned hline (by decide) (by decide) v.toNat_lt
    refine (hdigits.returning 1).congr fun fuel ↦ ?_
    rw [serialConvert, bind_apply_of_runs get_apply, hd, if_neg hstring, if_neg hchar,
      if_neg hint, if_pos huint]
  · obtain ⟨u, rfl, rfl⟩ := forWord_eq_some.1 hx
    obtain rfl : v = u := hpass
    have hdigits : WritesChars (fun fuel ↦ serialPutnumUnsigned fuel v.toNat 16 false) w () _ :=
      writesChars_serialPutnumUnsigned hline (by decide) (by decide) v.toNat_lt
    refine (hdigits.returning 1).congr fun fuel ↦ ?_
    rw [serialConvert, bind_apply_of_runs get_apply, hd, if_neg hstring, if_neg hchar,
      if_neg hint, if_neg huint, if_pos hlower]
  · obtain ⟨u, rfl, rfl⟩ := forWord_eq_some.1 hx
    obtain rfl : v = u := hpass
    have hdigits : WritesChars (fun fuel ↦ serialPutnumUnsigned fuel v.toNat 16 true) w () _ :=
      writesChars_serialPutnumUnsigned hline (by decide) (by decide) v.toNat_lt
    refine (hdigits.returning 1).congr fun fuel ↦ ?_
    rw [serialConvert, bind_apply_of_runs get_apply, hd, if_neg hstring, if_neg hchar,
      if_neg hint, if_neg huint, if_neg hlower, if_pos hupper]
  · obtain ⟨u, rfl, rfl⟩ := forWord_eq_some.1 hx
    obtain rfl : v = u := hpass
    have hdigits : ∀ w : Kernel σ, WritesChars
        (fun fuel ↦ serialPutnumUnsigned fuel v.toNat 16 false) w ()
          (numeral 16 (digitChar false) v.toNat) :=
      fun _ ↦ writesChars_serialPutnumUnsigned hline (by decide) (by decide) v.toNat_lt
    refine ((writesChars_serialWrite hline).seq fun _ _ ↦
      (writesChars_serialWrite hline).seq fun w' _ ↦ (hdigits w').returning 1).congr fun fuel ↦ ?_
    rw [serialConvert, bind_apply_of_runs get_apply, hd, if_neg hstring, if_neg hchar,
      if_neg hint, if_neg huint, if_neg hlower, if_neg hupper, if_pos hpointer]

/-- A directive without one. -/
theorem writesChars_serialConvert_of_none (hd : w.mem a = d) (hconversion : conversion? d = none) :
    WritesChars (fun fuel ↦ serialConvert fuel a v) w 0
      (if d = percent then [d] else [percent, d]) := by
  rw [conversion?] at hconversion
  split_ifs at hconversion with hchar hstring hint huint hlower hupper hpointer
  by_cases hpercent : d = percent
  · rw [if_pos hpercent]
    refine ((writesChars_serialWrite hline).returning 0).congr fun fuel ↦ ?_
    rw [serialConvert, bind_apply_of_runs get_apply, hd, if_neg hstring, if_neg hchar,
      if_neg hint, if_neg huint, if_neg hlower, if_neg hupper, if_neg hpointer,
      show '%'.toUInt8 = percent from rfl, if_pos hpercent, hpercent]
  · rw [if_neg hpercent]
    refine ((writesChars_serialWrite hline).seq fun _ _ ↦
      (writesChars_serialWrite hline).returning 0).congr fun fuel ↦ ?_
    rw [serialConvert, bind_apply_of_runs get_apply, hd, if_neg hstring, if_neg hchar,
      if_neg hint, if_neg huint, if_neg hlower, if_neg hupper, if_neg hpointer,
      show '%'.toUInt8 = percent from rfl, if_neg hpercent]

/-- **The loop** stops at a lone percent sign. -/
theorem writesChars_serialPrintfLoop (hparses : Parses fs as is) (hformat : CString w.mem a fs)
    (hargs : Passed w.mem args k as) :
    WritesChars (fun fuel ↦ serialPrintfLoop args fuel a k) w () (is.flatMap Item.sent) := by
  induction hparses generalizing w a k with
  | nil =>
    refine ((writesChars_pure ()).congr fun fuel ↦ ?_).of_succ
    rw [serialPrintfLoop, bind_apply_of_runs get_apply, if_pos hformat.2]
  | lone =>
    obtain ⟨-, hmem, -, -, hend⟩ := hformat
    refine ((writesChars_pure ()).congr fun fuel ↦ ?_).of_succ
    rw [serialPrintfLoop, bind_apply_of_runs get_apply, hmem, if_neg (by decide),
      show '%'.toUInt8 = percent from rfl, if_neg (not_not.2 rfl), if_pos hend]
  | @char c fs as is hc h ih =>
    obtain ⟨-, hmem, hnul, hrest⟩ := hformat
    refine (((writesChars_serialWrite hline).seq fun w' hw' ↦
      ih (w := w') (by rwa [hw']) (by rwa [hw'])).congr fun fuel ↦ ?_).of_succ
    rw [serialPrintfLoop, bind_apply_of_runs get_apply, hmem, if_neg hnul,
      show '%'.toUInt8 = percent from rfl, if_pos hc]
  | @copied d fs as is hd h ih =>
    obtain ⟨-, hmem, -, -, hd', hnul, hrest⟩ := hformat
    exact writesChars_serialPrintfLoop_percent hmem hd' hnul
      (writesChars_serialConvert_of_none hline hd' hd) fun w' hw' ↦
        ih (w := w') (by rwa [hw']) (by rwa [hw'])
  | @directive d fs arg as is x f hd hx h ih =>
    obtain ⟨-, hmem, -, -, hd', hnul, hrest⟩ := hformat
    exact writesChars_serialPrintfLoop_percent hmem hd' hnul
      (writesChars_serialConvert hline hd' hd hx hargs.1) fun w' hw' ↦
        ih (w := w') (by rwa [hw']) (by rw [hw']; exact hargs.2)

/-- **What `serial_printf` writes.** -/
theorem writesChars_serialPrintf (hcall : FormatCall w.mem a args fs is) :
    WritesChars (fun fuel ↦ serialPrintf fuel a args) w () (is.flatMap Item.sent) := by
  obtain ⟨as, hargs, hitems⟩ := hcall.args
  refine (writesChars_serialPrintfLoop hline (items_eq_some_iff.1 hitems) hcall.format
    hargs).congr fun fuel ↦ ?_
  rw [serialPrintf, serialVserialPrintf, if_neg hcall.format_ne]

end Serial

/-! ### What is sent -/

/-- The characters given to COM1, in the order of the log. -/
def Kernel.sent {σ : Type} (w : Kernel (Watched σ)) : List UInt8 :=
  w.io.log.filterMap fun
    | .outb port data _ => if port = com1Port then some data else none
    | _ => none

/-- From `w` on the program ends with enough fuel, with the value `v`; it has sent `cs` and has
left memory alone. -/
def EndsSending {σ α : Type} (m : ℕ → KernelM (Watched σ) α) (w : Kernel (Watched σ)) (v : α)
    (cs : List UInt8) : Prop :=
  ∃ w', Ends m w v w' ∧ w'.mem = w.mem ∧ w'.sent = w.sent ++ cs

section Sent

variable {σ α : Type} [PortBus σ] {m : ℕ → KernelM (Watched σ) α} {w w' : Kernel (Watched σ)}
  {v : α} {c : UInt8} {cs : List UInt8} {fuel : ℕ}

theorem sent_inb (port : ℕ) : (w.setIo (PortBus.inb port w.io).2).sent = w.sent := by
  show List.filterMap _ (w.io.log ++ _) = _
  rw [List.filterMap_append]
  exact List.append_nil _

theorem sent_outb : (w.setIo (PortBus.outb com1Port c w.io)).sent = w.sent ++ [c] := by
  show List.filterMap _ (w.io.log ++ _) = _
  rw [List.filterMap_append]
  rfl

theorem sent_serialWrite (h : Runs (serialWrite c fuel) w () w') : w'.sent = w.sent ++ [c] := by
  induction fuel generalizing w with
  | zero => simp [Runs, serialWrite] at h
  | succ fuel ih =>
    obtain ⟨empty, w₁, hempty, hrest⟩ := runs_bind.1 h
    have hsent : w₁.sent = w.sent := by
      obtain ⟨-, rfl⟩ := Prod.mk.inj (Option.some.inj hempty)
      exact sent_inb (com1Port + 5)
    rw [← hsent]
    split at hrest
    · exact ih hrest
    · obtain ⟨-, rfl⟩ := Prod.mk.inj (Option.some.inj hrest)
      exact sent_outb

theorem sent_serialWriteChars (h : Runs (serialWriteChars fuel cs) w () w') :
    w'.sent = w.sent ++ cs := by
  induction cs generalizing w with
  | nil =>
    obtain ⟨-, rfl⟩ := runs_pure.1 h
    exact (List.append_nil _).symm
  | cons c cs ih =>
    obtain ⟨_, w₁, hwrite, hrest⟩ := runs_bind.1 h
    rw [ih hrest, sent_serialWrite hwrite, List.append_assoc, List.singleton_append]

/-- What is written is sent. -/
theorem WritesChars.endsSending (h : WritesChars m w v cs) : EndsSending m w v cs := by
  obtain ⟨w', hends, hchars⟩ := h
  obtain ⟨fuel, hrun⟩ := hchars.exists_runs
  exact ⟨w', hends, mem_of_ends_serialWriteChars hchars, sent_serialWriteChars hrun⟩

theorem lineFrees_watched {b : Watched σ} (h : LineFrees b.bus) : LineFrees b := by
  generalize hbus : b.bus = bus at h
  induction h generalizing b with
  | free h =>
    subst hbus
    exact .free h
  | wait h hrest ih =>
    subst hbus
    exact .wait h (ih rfl)

/-- **What `serial_printf` sends.** -/
theorem endsSending_serialPrintf {format : ℕ} {args : ℕ → UInt32} {fs : List UInt8}
    {is : List Item} (hline : ∀ b : σ, LineFrees b) (hcall : FormatCall w.mem format args fs is) :
    EndsSending (fun fuel ↦ serialPrintf fuel format args) w () (is.flatMap Item.sent) :=
  (writesChars_serialPrintf (fun b ↦ lineFrees_watched (hline b.bus)) hcall).endsSending

end Sent

/-! ### The same text -/

namespace FormatString

variable {x : Item} {is : List Item} {w : UInt32}

/-- The item looks the same on the screen and on the line. -/
def Item.Agrees : Item → Prop
  | pointer w => 0x10000000 ≤ w.toNat
  | _ => True

/-- Only a pointer may look different. -/
theorem Item.shown_eq_sent (hlone : x ≠ .lone) (hpointer : ∀ w, x ≠ .pointer w) :
    x.shown = x.sent := by
  rw [Item.shown_eq_render hlone]
  cases x with
  | lone => exact absurd rfl hlone
  | pointer w => exact absurd rfl (hpointer w)
  | _ => rfl

theorem Item.length_shown_pointer (w : UInt32) : (pointer w).shown.length = 10 := by
  rw [Item.shown, ptrText_eq, List.length_cons, List.length_cons, padded, List.length_map,
    List.length_range]

theorem Item.length_sent_pointer (w : UInt32) :
    (pointer w).sent.length = (numeral 16 (digitChar false) w.toNat).length + 2 := rfl

/-- What is sent of an item is no longer than what is shown of it. -/
theorem Item.length_sent_le (hlone : x ≠ .lone) : x.sent.length ≤ x.shown.length := by
  cases x with
  | pointer w =>
    have hlength : (numeral 16 (digitChar false) w.toNat).length ≤ 8 :=
      length_numeral_le (by decide) w.toNat_lt
    rw [length_shown_pointer, length_sent_pointer]
    omega
  | _ => exact (congrArg List.length (shown_eq_sent hlone (fun _ ↦ Item.noConfusion))).ge

/-- A pointer below the last of the eight digits has a shorter numeral. -/
theorem Item.sent_eq_shown_iff (hlone : x ≠ .lone) : x.sent = x.shown ↔ x.Agrees := by
  cases x with
  | pointer w =>
    constructor
    · intro heq
      by_contra hlow
      have hlength : (numeral 16 (digitChar false) w.toNat).length ≤ 7 :=
        length_numeral_le (by decide) (Nat.lt_of_not_le hlow)
      have hboth := congrArg List.length heq
      rw [length_shown_pointer, length_sent_pointer] at hboth
      omega
    · intro h
      have hpadded : padded 16 (digitChar false) 8 w.toNat = numeral 16 (digitChar false) w.toNat :=
        padded_eq_numeral (by decide) h w.toNat_lt
      rw [Item.shown, Item.sent, ptrText_eq, hpadded]
  | _ => exact iff_of_true (shown_eq_sent hlone (fun _ ↦ Item.noConfusion)).symm trivial

/-- **The two texts** are the same exactly if all items agree. -/
theorem flatMap_sent_eq_shown_iff (hlone : Item.lone ∉ is) :
    is.flatMap Item.sent = is.flatMap Item.shown ↔ ∀ x ∈ is, x.Agrees := by
  have hne : ∀ x ∈ is, x ≠ .lone := fun x hx heq ↦ hlone (heq ▸ hx)
  rw [flatMap_eq_iff_of_length_le fun x hx ↦ Item.length_sent_le (hne x hx)]
  exact forall₂_congr fun x hx ↦ Item.sent_eq_shown_iff (hne x hx)

end FormatString

section Both

variable {σ : Type} [PortBus σ] {s : Console} {w : Kernel (Watched σ)} {format : ℕ}
  {args : ℕ → UInt32} {fs : List UInt8} {is : List Item}

/-- `printf` and `serial_printf` both end, and the one has printed what the other has sent. -/
def FormattersAgree (s : Console) (w : Kernel (Watched σ)) (format : ℕ) (args : ℕ → UInt32) :
    Prop :=
  ∃ cs, (∃ n s', Ends (fun fuel ↦ printf fuel format args) s n s' ∧ s'.fed = s.fed ++ cs) ∧
    EndsSending (fun fuel ↦ serialPrintf fuel format args) w () cs

theorem formattersAgree_iff_flatMap (hline : ∀ b : σ, LineFrees b)
    (hshown : FormatCall s.mem format args fs is) (hsent : FormatCall w.mem format args fs is)
    (hlone : Item.lone ∉ is) (hs : s.OnScreen) :
    FormattersAgree s w format args ↔ is.flatMap Item.shown = is.flatMap Item.sent := by
  obtain ⟨s', hends, hfed⟩ := ends_printf hshown hlone hs
  obtain ⟨w', hends', hmem, hline'⟩ := endsSending_serialPrintf hline hsent
  constructor
  · rintro ⟨cs, ⟨n, t, hends₂, hfed₂⟩, u, hends₂', -, hsent₂⟩
    obtain ⟨-, rfl⟩ := hends.unique hends₂
    obtain ⟨-, rfl⟩ := hends'.unique hends₂'
    exact (List.append_cancel_left (hfed.symm.trans hfed₂)).trans
      (List.append_cancel_left (hline'.symm.trans hsent₂)).symm
  · intro h
    exact ⟨_, ⟨_, s', hends, hfed⟩, w', hends', hmem, by rw [h, hline']⟩

/-- **When the two formatters agree**: exactly if no pointer has leading zeros. -/
theorem formattersAgree_iff (hline : ∀ b : σ, LineFrees b)
    (hshown : FormatCall s.mem format args fs is) (hsent : FormatCall w.mem format args fs is)
    (hlone : Item.lone ∉ is) (hs : s.OnScreen) :
    FormattersAgree s w format args ↔ ∀ x ∈ is, x.Agrees := by
  rw [formattersAgree_iff_flatMap hline hshown hsent hlone hs, eq_comm,
    flatMap_sent_eq_shown_iff hlone]

/-- The UART of the model is always ready. -/
theorem lineFrees_uart (b : Machine σ Uart16550) : LineFrees b := by
  refine .free ?_
  show b.uart.lineStatus &&& 0x20 ≠ 0
  rw [Uart16550.lineStatus]
  split <;> decide

end Both

/-- The kernel without disks, with a text in its memory. -/
def Kernel.withText (text : String) : Kernel (Watched (Machine FloatingBus Uart16550)) :=
  Kernel.diskless.watch.setMem (Console.withText text).mem

/-- A pointer. -/
theorem formatCall_pointer (w : UInt32) :
    FormatCall (Console.withText "%p").mem 0x100000 (fun _ ↦ w) (literal "%p") [.pointer w] :=
  ⟨by decide, by decide, [.word w], ⟨rfl, trivial⟩, rfl⟩

/-- The local interrupt controller. -/
theorem formattersAgree_apic :
    FormattersAgree (.withText "%p") (.withText "%p") 0x100000 fun _ ↦ 0xFEE00000 :=
  (formattersAgree_iff (w := .withText "%p") lineFrees_uart (formatCall_pointer _)
    (formatCall_pointer _) (by decide) (onScreen_withText _)).2 fun x hx ↦ by
      obtain rfl := List.mem_singleton.1 hx
      show 0x10000000 ≤ (0xFEE00000 : UInt32).toNat
      decide

/-- The text screen is at `0x000b8000` for the one and at `0xb8000` for the other. -/
theorem not_formattersAgree_screen :
    FormatCall (Console.withText "%p").mem 0x100000 (fun _ ↦ 0xB8000) (literal "%p")
        [.pointer 0xB8000] ∧ (Kernel.withText "%p").mem = (Console.withText "%p").mem ∧
      (Console.withText "%p").OnScreen ∧
      ¬ FormattersAgree (.withText "%p") (.withText "%p") 0x100000 fun _ ↦ 0xB8000 := by
  refine ⟨formatCall_pointer _, rfl, onScreen_withText _, ?_⟩
  rw [formattersAgree_iff_flatMap (w := .withText "%p") lineFrees_uart (formatCall_pointer _)
    (formatCall_pointer _) (by decide) (onScreen_withText _)]
  decide
