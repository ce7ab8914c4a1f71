import BinbowsDOS.Interrupts.Idt

/-!
# Which handler is called

`irq_handler` calls the handler that was installed last for its line, however the installations were
mixed (`loadLE_installAll`). `install_irq_handler` asks of its index only whether it is below 16. A
negative one stores the handler at an address outside the table, or in an entry of it where four
times the index wraps, clears the mask that its low byte stands for, and prints its message, which
changes the memory of the screen and the variables of its cursor. So the calls with an index that is
no line do nothing exactly if there is no negative one among them (`follows_iff`).
-/

open Pics

/-! ### The last installation -/

/-- The handler that was stored last for a line. -/
def lastStored (calls : List (Int32 × UInt32)) (line : ℕ) : Option UInt32 :=
  (calls.reverse.find? fun c ↦ c.1.toInt = (line : ℤ)).map Prod.snd

/-- The handler that was installed last. A null pointer is none. -/
def lastInstalled (calls : List (Int32 × UInt32)) (line : ℕ) : Option UInt32 :=
  (lastStored calls line).filter (· ≠ 0)

/-- A run of installations. -/
def installAll (t : HandlerTable) (calls : List (Int32 × UInt32)) (s : IrqState) : IrqState :=
  calls.foldl (fun s c ↦ installIrqHandler t c.1 c.2 s) s

/-- The call changes no memory, no mask, and nothing on the screen. -/
def ChangesNothing (t : HandlerTable) (n : Int32) (handler : UInt32) (s : IrqState) : Prop :=
  (installIrqHandler t n handler s).mem = s.mem ∧
    (∀ k < 16, (installIrqHandler t n handler s).pics.maskBit k = s.pics.maskBit k) ∧
    (installIrqHandler t n handler s).printed = s.printed

/-- No handler is installed. -/
def IrqState.Empty (t : HandlerTable) (s : IrqState) : Prop :=
  ∀ line < 16, s.mem.loadLE (t.entry (Int32.ofNat line)) 4 = 0

section

variable {t : HandlerTable} {s : IrqState} {calls : List (Int32 × UInt32)} {n : Int32}
  {handler : UInt32} {line : ℕ} {mem : ByteMem}

/-! ### Entries -/

theorem exists_line (h₀ : 0 ≤ n) (h : n < 16) : ∃ line < 16, n = Int32.ofNat line := by
  have hlow : 0 ≤ n.toInt := Int32.le_iff_toInt_le.1 h₀
  have hhigh : n.toInt < 16 := Int32.lt_iff_toInt_lt.1 h
  refine ⟨n.toInt.toNat, by omega, Int32.toInt_inj.1 ?_⟩
  rw [Int32.toInt_ofNat_of_lt (by omega)]
  omega

theorem toInt_line (hline : line < 16) : (Int32.ofNat line).toInt = line :=
  Int32.toInt_ofNat_of_lt (by omega)

theorem ofNat_line_lt (hline : line < 16) : Int32.ofNat line < 16 := by
  rw [Int32.lt_iff_toInt_lt, toInt_line hline]
  exact Int.ofNat_lt.2 hline

/-- The entries of the lines lie in the table one after the other. -/
theorem entry_of_line (hline : line < 16) :
    t.entry (Int32.ofNat line) = t.addr.toNat + 4 * line := by
  have hfits := t.fits
  have hproduct : (4 * UInt32.ofNat line).toNat = 4 * line := by
    rw [UInt32.toNat_mul, UInt32.toNat_ofNat']
    show 4 * (line % 2 ^ 32) % 2 ^ 32 = 4 * line
    omega
  rw [HandlerTable.entry, Int32.toUInt32_ofNat', UInt32.toNat_add, hproduct]
  omega

/-- What `irq_handler` makes of the entry of its line. -/
theorem calledHandler_of_line (hline : line < 16)
    (hload : mem.loadLE (t.entry (Int32.ofNat line)) 4 = handler.toNat) :
    calledHandler t mem (UInt32.ofNat (32 + line)) = (some handler).filter (· ≠ 0) := by
  have hirq : (UInt32.ofNat (32 + line) - 32).toInt32 = Int32.ofNat line := by
    rw [Nat.add_comm, UInt32.ofNat_add]
    exact congrArg UInt32.toInt32 (UInt32.add_sub_cancel _ 32)
  have hlow : 0 ≤ Int32.ofNat line := Int32.le_iff_toInt_le.2 (by
    rw [toInt_line hline, Int32.toInt_zero]
    omega)
  rw [calledHandler, hirq, hload, UInt32.ofNat_toNat, Option.filter_some]
  rcases eq_or_ne handler 0 with rfl | hne
  · rw [if_neg fun h ↦ h.2.2 rfl]
    rfl
  · rw [if_pos ⟨hlow, ofNat_line_lt hline, fun h ↦ hne (UInt32.toNat_inj.1 h)⟩,
      if_pos (decide_eq_true hne)]

/-! ### One call -/

theorem installIrqHandler_of_ge (h : 16 ≤ n) : installIrqHandler t n handler s = s := by
  rw [installIrqHandler, if_neg (Int32.not_lt.2 h)]

/-- A handler is stored, and no other entry changes. -/
theorem loadLE_installIrqHandler {line' : ℕ} (hline : line < 16) (hline' : line' < 16) :
    (installIrqHandler t (Int32.ofNat line) handler s).mem.loadLE (t.entry (Int32.ofNat line')) 4 =
      if line = line' then handler.toNat else s.mem.loadLE (t.entry (Int32.ofNat line')) 4 := by
  rw [installIrqHandler, if_pos (ofNat_line_lt hline)]
  dsimp only
  split_ifs with heq
  · rw [heq, ByteMem.loadLE_storeLE_self]
    exact Nat.mod_eq_of_lt handler.toNat_lt
  · rw [entry_of_line hline, entry_of_line hline']
    exact ByteMem.loadLE_storeLE_of_disjoint (by omega)

/-- **A call** with an index that is no line changes nothing just if the index is not negative. -/
theorem changesNothing_iff (hn : n < 0 ∨ 16 ≤ n) : ChangesNothing t n handler s ↔ 0 ≤ n := by
  rcases hn with hn | hn
  · have hlt : n < 16 := Int32.lt_trans hn (by decide)
    refine iff_of_false ?_ (Int32.not_le.2 hn)
    rintro ⟨-, -, hprinted⟩
    rw [installIrqHandler, if_pos hlt] at hprinted
    exact absurd (congrArg List.length hprinted) (by simp)
  · rw [ChangesNothing, installIrqHandler_of_ge hn]
    exact iff_of_true ⟨rfl, fun _ _ ↦ rfl, rfl⟩ (Int32.le_trans (by decide) hn)

/-! ### Runs -/

theorem installAll_append_singleton {c : Int32 × UInt32} : installAll t (calls ++ [c]) s =
    installIrqHandler t c.1 c.2 (installAll t calls s) := by
  rw [installAll, List.foldl_append]
  rfl

theorem lastStored_append_singleton {c : Int32 × UInt32} : lastStored (calls ++ [c]) line =
    if c.1.toInt = (line : ℤ) then some c.2 else lastStored calls line := by
  rw [lastStored, List.reverse_append, List.reverse_singleton, List.singleton_append,
    List.find?_cons]
  split_ifs with h
  · rw [decide_eq_true h]
    rfl
  · rw [decide_eq_false h]
    rfl

/-- **The table after a run** without a negative index: every entry holds the handler that was
stored last for its line. -/
theorem loadLE_installAll (hempty : s.Empty t) (hpos : ∀ c ∈ calls, 0 ≤ c.1) (hline : line < 16) :
    (installAll t calls s).mem.loadLE (t.entry (Int32.ofNat line)) 4 =
      ((lastStored calls line).getD 0).toNat := by
  induction calls using List.reverseRecOn with
  | nil => exact hempty line hline
  | append_singleton calls c ih =>
    obtain ⟨n, handler⟩ := c
    obtain ⟨hcalls, hlast⟩ := List.forall_mem_append.1 hpos
    have h₀ : 0 ≤ n := hlast (n, handler) (List.mem_singleton_self _)
    rw [installAll_append_singleton, lastStored_append_singleton]
    dsimp only
    rcases Int32.lt_or_le n 16 with h | hn
    · obtain ⟨line', hline', rfl⟩ := exists_line h₀ h
      rw [loadLE_installIrqHandler hline' hline, toInt_line hline', ih hcalls]
      simp only [Int.natCast_inj]
      split_ifs
      · rfl
      · rfl
    · have hne : n.toInt ≠ line := by
        have hhigh : 16 ≤ n.toInt := Int32.le_iff_toInt_le.1 hn
        omega
      rw [installIrqHandler_of_ge hn, if_neg hne, ih hcalls]

/-- `irq_handler` calls the handler that was installed last for its line, and the calls with an
index that is no line change nothing. -/
def Follows (t : HandlerTable) (s : IrqState) (calls : List (Int32 × UInt32)) : Prop :=
  (∀ line < 16, calledHandler t (installAll t calls s).mem (UInt32.ofNat (32 + line)) =
    lastInstalled calls line) ∧
  ∀ before n handler after, calls = before ++ (n, handler) :: after → n < 0 ∨ 16 ≤ n →
    ChangesNothing t n handler (installAll t before s)

/-- **Dispatch follows the installations** of a run exactly if none of its calls has a negative
index. -/
theorem follows_iff (hempty : s.Empty t) : Follows t s calls ↔ ∀ c ∈ calls, 0 ≤ c.1 := by
  constructor
  · rintro ⟨-, hnothing⟩ ⟨n, handler⟩ hc
    obtain ⟨before, after, heq⟩ := List.append_of_mem hc
    rcases Int32.lt_or_le n 0 with hn | h₀
    · exact (changesNothing_iff (.inl hn)).1 (hnothing before n handler after heq (.inl hn))
    · exact h₀
  · intro hpos
    refine ⟨fun line hline ↦ ?_, fun before n handler after heq hn ↦ ?_⟩
    · rw [calledHandler_of_line hline (loadLE_installAll hempty hpos hline), lastInstalled]
      cases lastStored calls line
      · rfl
      · rfl
    · exact (changesNothing_iff hn).2 (hpos (n, handler) (heq ▸ List.mem_append_cons_self))

end

/-- The timer, then the drive, the timer again, and a line that there is not. -/
theorem follows_timer : Follows .low .firmware
    [(0, 0x1000), (14, 0x2000), (0, 0x3000), (16, 0x4000)] := by
  refine (follows_iff fun _ _ ↦ rfl).2 ?_
  simp only [List.forall_mem_cons]
  exact ⟨by decide, by decide, by decide, by decide, fun _ h ↦ absurd h List.not_mem_nil⟩

/-- The index -1 stores a handler in front of the table. -/
theorem not_follows_negative : ¬ ∀ (t : HandlerTable) (s : IrqState)
    (calls : List (Int32 × UInt32)), s.pics.Ready → s.Empty t → Follows t s calls := by
  intro h
  have hfollows : Follows .low .firmware [(-1, 0x1000)] := h _ _ _ ⟨rfl, rfl⟩ fun line _ ↦ rfl
  have hmem := (hfollows.2 [] (-1) 0x1000 [] rfl (.inl (by decide))).1
  have hstored : (installIrqHandler .low (-1) 0x1000 .firmware).mem.loadLE 0xFFFFC 4 = 0x1000 := by
    decide
  rw [show (installIrqHandler .low (-1) 0x1000 .firmware).mem = _ from hmem] at hstored
  exact absurd hstored (by decide)
