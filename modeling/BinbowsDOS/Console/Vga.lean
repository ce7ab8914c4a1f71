import BinbowsDOS.Foundations.ByteMemory
import BinbowsDOS.Foundations.MachineWord
import BinbowsDOS.Foundations.Program
import Mathlib.Data.Nat.Digits.Defs
import Mathlib.Logic.Function.Basic

/-!
# The text console

`vga.c`: 25 lines of 80 cells at `0xB8000`, two bytes each, the character below its attribute;
two static variables for the cursor; and the cursor of the display controller, behind an index
port and a data port. Strings and the cells lie in one memory, so a string may be read while it
is overwritten.

`cursor_row` and `cursor_col` are C integers and may be negative; cell numbers are integers for
that reason. A `char` is signed, so the upper half of the characters also sets attribute bits.
The loops that walk a string run on fuel; `none` is a string without an end.

`fed` and `touched` are history variables that no function reads.
-/

/-- The console's state. -/
structure Console where
  /-- Memory, the cells included. -/
  mem : ByteMem
  /-- `cursor_row` -/
  cursorRow : ℤ
  /-- `cursor_col` -/
  cursorCol : ℤ
  /-- The index register of the display controller. -/
  crtcIndex : UInt8
  /-- The registers behind it. -/
  crtc : UInt8 → UInt8
  /-- History: the bytes given to `put_char` since the screen was last cleared. -/
  fed : List UInt8
  /-- History: the cells read or written. -/
  touched : List ℤ

/-- `VGA_WIDTH` -/
def vgaWidth : ℕ := 80

/-- `VGA_HEIGHT` -/
def vgaHeight : ℕ := 25

/-- `VGA_COLOR` -/
def vgaColor : ℕ := 0x0F

/-- The value of a `char` of the source as an unsigned 32-bit integer. -/
def extendChar (c : UInt8) : ℕ := if c.toNat < 0x80 then c.toNat else 0xFFFFFF00 + c.toNat

/-- `(VGA_COLOR << 8) | c` -/
def cellValue (c : UInt8) : ℕ := u16 (vgaColor <<< 8 ||| extendChar c)

namespace Console

/-! ### Cells and ports -/

/-- The address of `vga[i]`. -/
def cellAddr (i : ℤ) : ℕ := (0xB8000 + 2 * i).toNat

/-- `vga[i]` -/
def readCell (i : ℤ) (s : Console) : ℕ × Console :=
  (s.mem.loadLE (cellAddr i) 2, { s with touched := i :: s.touched })

/-- `vga[i] = v` -/
def writeCell (i : ℤ) (v : ℕ) (s : Console) : Console :=
  { s with
    mem := s.mem.storeLE (cellAddr i) 2 v
    touched := i :: s.touched }

/-- `outb`, on the two ports of the display controller. -/
def outb (port : ℕ) (data : UInt8) (s : Console) : Console :=
  if port = 0x3D4 then { s with crtcIndex := data }
  else if port = 0x3D5 then { s with crtc := Function.update s.crtc s.crtcIndex data }
  else s

/-- Where the display shows its cursor. -/
def hardwareCursor (s : Console) : ℕ := (s.crtc 0x0E).toNat * 256 + (s.crtc 0x0F).toNat

/-! ### Screen functions -/

/-- `set_cursor` -/
def setCursor (row col : ℤ) (s : Console) : Console :=
  let position := ((row * vgaWidth + col) % 2 ^ 16).toNat
  let s := { s with cursorRow := row, cursorCol := col }
  let s := s.outb 0x3D4 0x0F
  let s := s.outb 0x3D5 (UInt8.ofNat (position &&& 0xFF))
  let s := s.outb 0x3D4 0x0E
  s.outb 0x3D5 (UInt8.ofNat ((position >>> 8) &&& 0xFF))

/-- `for (i = start; i < start + n; i++) vga[i] = (VGA_COLOR << 8) | ' ';` -/
def fillCells (start : ℕ) : ℕ → Console → Console
  | 0, s => s
  | n + 1, s => (fillCells start n s).writeCell (start + n : ℕ) (cellValue ' '.toUInt8)

/-- `for (i = 0; i < n; i++) vga[i] = vga[i + VGA_WIDTH];` -/
def moveCells : ℕ → Console → Console
  | 0, s => s
  | n + 1, s =>
    let r := (moveCells n s).readCell (n + vgaWidth : ℕ)
    r.2.writeCell n r.1

/-- `clear_screen` -/
def clearScreen (s : Console) : Console :=
  ({ fillCells 0 (vgaWidth * vgaHeight) s with fed := [] } : Console).setCursor 0 0

/-- `scroll_screen` -/
def scrollScreen (s : Console) : Console :=
  fillCells (vgaWidth * (vgaHeight - 1)) vgaWidth (moveCells (vgaWidth * (vgaHeight - 1)) s)

/-- What `put_char` does with its character. The mask of the tab rounds down to a multiple of
four. -/
def interpret (c : UInt8) (s : Console) : Console :=
  if c = '\n'.toUInt8 then { s with cursorCol := 0, cursorRow := s.cursorRow + 1 }
  else if c = '\r'.toUInt8 then { s with cursorCol := 0 }
  else if c = '\t'.toUInt8 then { s with cursorCol := (s.cursorCol + 4) / 4 * 4 }
  else if c = 8 then
    if 0 < s.cursorCol then { s with cursorCol := s.cursorCol - 1 } else s
  else
    let s := s.writeCell (s.cursorRow * vgaWidth + s.cursorCol) (cellValue c)
    { s with cursorCol := s.cursorCol + 1 }

/-- The line wrap of `put_char`. -/
def wrapLine (s : Console) : Console :=
  if vgaWidth ≤ s.cursorCol then { s with cursorCol := 0, cursorRow := s.cursorRow + 1 } else s

/-- The screen scroll of `put_char`. -/
def scrollPast (s : Console) : Console :=
  if vgaHeight ≤ s.cursorRow then
    { s.scrollScreen with cursorRow := vgaHeight - 1, cursorCol := 0 }
  else s

/-- `put_char` -/
def putChar (c : UInt8) (s : Console) : Console :=
  ((({ s with fed := s.fed ++ [c] } : Console).interpret c).wrapLine).scrollPast

/-- `put_char` on these characters, one after the other. -/
def putChars (cs : List UInt8) (s : Console) : Console := cs.foldl (fun s c ↦ s.putChar c) s

end Console

open Console

/-! ### Printing -/

/-- `while (*str) put_char(*str++);` -/
def printStrLoop : ℕ → ℕ → Prog Console Unit
  | 0, _ => fun _ ↦ none
  | fuel + 1, str => do
    let s ← get
    if s.mem str ≠ 0 then do
      modify (putChar (s.mem str))
      printStrLoop fuel (str + 1)
    else pure ()

/-- `set_cursor(cursor_row, cursor_col)` -/
def syncCursor : Prog Console Unit := modify fun s ↦ s.setCursor s.cursorRow s.cursorCol

/-- `print` -/
def print (fuel str : ℕ) : Prog Console Unit := do
  printStrLoop fuel str
  syncCursor

/-- The characters of a literal. -/
def literal (text : String) : List UInt8 := text.toList.map Char.toUInt8

/-- `print_str` -/
def printStr (fuel str : ℕ) : Prog Console Unit :=
  if str = 0 then modify (putChars (literal "(null)")) else printStrLoop fuel str

/-- `strlen`, from `str` on with `len` counted. -/
def strlenLoop : ℕ → ℕ → ℕ → Prog Console ℕ
  | 0, _, _ => fun _ ↦ none
  | fuel + 1, str, len => do
    let s ← get
    if s.mem str ≠ 0 then strlenLoop fuel (str + 1) (len + 1) else pure len

/-- `strlen(str ? str : "(null)")` -/
def strlen (fuel str : ℕ) : Prog Console ℕ :=
  if str = 0 then pure (literal "(null)").length else strlenLoop fuel str 0

/-- `digits[d]` -/
def hexDigit (uppercase : Bool) (d : ℕ) : UInt8 :=
  (literal (if uppercase then "0123456789ABCDEF" else "0123456789abcdef")).getD d 0

/-- What `print_uint` prints. The loop that fills its buffer computes the digits from the lowest
on. -/
def uintText (num : ℕ) : List UInt8 :=
  if num = 0 then ['0'.toUInt8]
  else ((Nat.digits 10 num).map fun d ↦ UInt8.ofNat ('0'.toNat + d)).reverse

/-- What `print_int` prints. C leaves the negation of the least integer open; the program as built
takes the digits of the negated number from its bits as an unsigned one. -/
def intText (num : UInt32) : List UInt8 :=
  if num.toNat < 2 ^ 31 then uintText num.toNat else '-'.toUInt8 :: uintText (-num).toNat

/-- What `print_hex` prints. -/
def hexText (num : ℕ) (uppercase : Bool) : List UInt8 :=
  if num = 0 then ['0'.toUInt8] else ((Nat.digits 16 num).map (hexDigit uppercase)).reverse

/-- What `print_ptr` prints. -/
def ptrText (addr : ℕ) : List UInt8 :=
  '0'.toUInt8 :: 'x'.toUInt8 :: (List.range 8).map fun i ↦ hexDigit false (addr / 16 ^ (7 - i) % 16)

/-- The `switch` of `printf` on the character at `format`; `arg` is the next argument. Returns how
many arguments it takes and how many characters it counts. -/
def convert (fuel format : ℕ) (arg : UInt32) : Prog Console (ℕ × ℕ) := do
  let s ← get
  let spec := s.mem format
  if spec = 'c'.toUInt8 then do
    modify (putChar (UInt8.ofNat arg.toNat))
    pure (1, 1)
  else if spec = 's'.toUInt8 then do
    printStr fuel arg.toNat
    let len ← strlen fuel arg.toNat
    pure (1, len)
  else if spec = 'd'.toUInt8 ∨ spec = 'i'.toUInt8 then do
    modify (putChars (intText arg))
    pure (1, 1)
  else if spec = 'u'.toUInt8 then do
    modify (putChars (uintText arg.toNat))
    pure (1, 1)
  else if spec = 'x'.toUInt8 then do
    modify (putChars (hexText arg.toNat false))
    pure (1, 1)
  else if spec = 'X'.toUInt8 then do
    modify (putChars (hexText arg.toNat true))
    pure (1, 1)
  else if spec = 'p'.toUInt8 then do
    modify (putChars (ptrText arg.toNat))
    pure (1, 10)
  else if spec = '%'.toUInt8 then do
    modify (putChar '%'.toUInt8)
    pure (0, 1)
  else do
    modify (putChar '%'.toUInt8)
    -- the cell just written may be the one the format is read from
    let s ← get
    modify (putChar (s.mem format))
    pure (0, 2)

/-- The loop of `printf` from `format` on, with `k` arguments taken. A percent sign at the end of
the format takes the terminator for its conversion, and the loop goes on behind it. -/
def printfLoop (args : ℕ → UInt32) : ℕ → ℕ → ℕ → ℕ → Prog Console ℕ
  | 0, _, _, _ => fun _ ↦ none
  | fuel + 1, format, k, written => do
    let s ← get
    if s.mem format = 0 then pure written
    else if s.mem format = '%'.toUInt8 then do
      let r ← convert fuel (format + 1) (args k)
      printfLoop args fuel (format + 2) (k + r.1) (written + r.2)
    else do
      modify (putChar (s.mem format))
      printfLoop args fuel (format + 1) k (written + 1)

/-- `printf` -/
def printf (fuel format : ℕ) (args : ℕ → UInt32) : Prog Console ℕ := do
  let written ← printfLoop args fuel format 0 0
  syncCursor
  pure written
