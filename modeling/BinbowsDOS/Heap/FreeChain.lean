import BinbowsDOS.Foundations.Arena
import BinbowsDOS.Heap.Allocator

/-!
# The free list in memory

`FreeChain h cur cs` says that the pointer stored at `cur` starts a null-terminated list whose
blocks are exactly the cells `cs`, with their recorded sizes. `Segment` is the same without
the terminator, so that a list splits at any cursor (`freeChain_append`). Block headers are
eight-byte aligned, so two header words are equal or disjoint and the header accessors obey
the equations of function update (`size_setSize`, `next_setNext`, `deref_assign`).

The last section evaluates the three list walks of the allocator on such a list.
-/

open ByteMem

namespace Heap

variable {h h' : Heap} {p q v n : ℕ} {cur cur' : Cursor} {c d : Cell} {xs ys cs : List Cell}

/-! ### Header words -/

theorem size_lt (h : Heap) (p : ℕ) : h.size p < 2 ^ 32 := loadLE_lt (w := 4)

theorem next_lt (h : Heap) (p : ℕ) : h.next p < 2 ^ 32 := loadLE_lt (w := 4)

@[simp] theorem freeListHead_setSize : (h.setSize p v).freeListHead = h.freeListHead := rfl

@[simp] theorem freeListHead_setNext : (h.setNext p v).freeListHead = h.freeListHead := rfl

@[simp] theorem live_setSize : (h.setSize p v).live = h.live := rfl

@[simp] theorem live_setNext : (h.setNext p v).live = h.live := rfl

@[simp] theorem live_assign : (h.assign cur v).live = h.live := by cases cur <;> rfl

@[simp]
theorem size_setSize_self : (h.setSize p v).size p = u32 v :=
  loadLE_storeLE_self (w := 4) v

theorem size_setSize_of_ne (hp : p % 8 = 0) (hq : q % 8 = 0) (hne : q ≠ p) :
    (h.setSize p v).size q = h.size q :=
  loadLE_storeLE_of_disjoint (by omega)

@[simp]
theorem next_setNext_self : (h.setNext p v).next p = u32 v :=
  loadLE_storeLE_self (w := 4) v

theorem next_setNext_of_ne (hp : p % 8 = 0) (hq : q % 8 = 0) (hne : q ≠ p) :
    (h.setNext p v).next q = h.next q :=
  loadLE_storeLE_of_disjoint (by omega)

theorem next_setSize (hp : p % 8 = 0) (hq : q % 8 = 0) : (h.setSize p v).next q = h.next q :=
  loadLE_storeLE_of_disjoint (by omega)

theorem size_setNext (hp : p % 8 = 0) (hq : q % 8 = 0) : (h.setNext p v).size q = h.size q :=
  loadLE_storeLE_of_disjoint (by omega)

/-- A cursor at `free_list_head` or at an aligned block. -/
def OnHeader : Cursor → Prop
  | .head => True
  | .next b => b % 8 = 0

theorem deref_assign_self (hv : v < 2 ^ 32) : (h.assign cur v).deref cur = v := by
  cases cur with
  | head => rfl
  | next b => exact next_setNext_self.trans (u32_of_lt hv)

theorem size_assign (hcur : OnHeader cur) (hq : q % 8 = 0) :
    (h.assign cur v).size q = h.size q := by
  cases cur with
  | head => rfl
  | next b => exact size_setNext hcur hq

theorem next_assign (hcur : OnHeader cur) (hq : q % 8 = 0) (hne : Cursor.next q ≠ cur) :
    (h.assign cur v).next q = h.next q := by
  cases cur with
  | head => rfl
  | next b => exact next_setNext_of_ne hcur hq fun heq ↦ hne (congrArg _ heq)

theorem deref_setSize (hp : p % 8 = 0) (hcur : OnHeader cur) :
    (h.setSize p v).deref cur = h.deref cur := by
  cases cur with
  | head => rfl
  | next b => exact next_setSize hp hcur

theorem deref_setNext (hp : p % 8 = 0) (hcur : OnHeader cur) (hne : cur ≠ .next p) :
    (h.setNext p v).deref cur = h.deref cur := by
  cases cur with
  | head => rfl
  | next b => exact next_setNext_of_ne hp hcur fun heq ↦ hne (congrArg _ heq)

/-! ### Lists and segments -/

/-- The pointer at `cur` starts a null-terminated list with exactly the blocks `cs`. -/
def FreeChain (h : Heap) : Cursor → List Cell → Prop
  | cur, [] => h.deref cur = 0
  | cur, c :: cs => h.deref cur = c.addr ∧ c.addr ≠ 0 ∧ h.size c.addr + headerSize = c.len ∧
      FreeChain h (.next c.addr) cs

/-- The pointer at `cur` starts a list whose first blocks are `cs`. -/
def Segment (h : Heap) : Cursor → List Cell → Prop
  | _, [] => True
  | cur, c :: cs => h.deref cur = c.addr ∧ c.addr ≠ 0 ∧ h.size c.addr + headerSize = c.len ∧
      Segment h (.next c.addr) cs

end Heap

/-- The cursor a walk from `cur` has after passing the blocks of a list. -/
def Cursor.after (cur : Cursor) : List Cell → Cursor
  | [] => cur
  | c :: cs => Cursor.after (.next c.addr) cs

@[simp] theorem Cursor.after_nil {cur : Cursor} : cur.after [] = cur := rfl

theorem Cursor.after_append_singleton {cur : Cursor} {c : Cell} {cs : List Cell} :
    cur.after (cs ++ [c]) = .next c.addr := by
  induction cs generalizing cur with
  | nil => rfl
  | cons d cs ih => exact ih

/-- After at least one block, a walk stands at the `next` field of one of them. -/
theorem Cursor.after_eq_next {cur : Cursor} {cs : List Cell} (hne : cs ≠ []) :
    ∃ c ∈ cs, cur.after cs = .next c.addr := by
  refine ⟨cs.getLast hne, List.getLast_mem hne, ?_⟩
  conv_lhs => rw [← List.dropLast_append_getLast hne]
  exact Cursor.after_append_singleton

namespace Heap

variable {h h' : Heap} {p q v n : ℕ} {cur cur' : Cursor} {c d : Cell} {xs ys cs : List Cell}

theorem freeChain_append :
    h.FreeChain cur (xs ++ ys) ↔ h.Segment cur xs ∧ h.FreeChain (cur.after xs) ys := by
  induction xs generalizing cur with
  | nil => simp [Segment]
  | cons c xs ih => simp [FreeChain, Segment, Cursor.after, ih, and_assoc]

/-- A list is found unchanged from another cursor with the same pointer, in another heap with
the same headers. -/
theorem FreeChain.move (hc : h.FreeChain cur cs) (hcur : h'.deref cur' = h.deref cur)
    (hcs : ∀ c ∈ cs, h'.size c.addr = h.size c.addr ∧ h'.next c.addr = h.next c.addr) :
    h'.FreeChain cur' cs := by
  induction cs generalizing cur cur' with
  | nil => exact hcur.trans hc
  | cons c cs ih =>
    obtain ⟨hptr, hnull, hsize, hrest⟩ := hc
    obtain ⟨hsize', hnext'⟩ := hcs c (by simp)
    exact ⟨hcur.trans hptr, hnull, hsize' ▸ hsize,
      ih hrest hnext' fun d hd ↦ hcs d (List.mem_cons_of_mem c hd)⟩

/-- A segment survives a change of the pointer that follows it, and of nothing it reads. -/
theorem Segment.frame (hs : h.Segment cur cs) (hcur : cs ≠ [] → h'.deref cur = h.deref cur)
    (hsize : ∀ c ∈ cs, h'.size c.addr = h.size c.addr)
    (hnext : ∀ c ∈ cs, Cursor.next c.addr ≠ cur.after cs → h'.next c.addr = h.next c.addr)
    (hnodup : (cs.map Cell.addr).Nodup) : h'.Segment cur cs := by
  induction cs generalizing cur with
  | nil => trivial
  | cons c cs ih =>
    obtain ⟨hptr, hnull, hsz, hrest⟩ := hs
    rw [List.map_cons, List.nodup_cons] at hnodup
    refine ⟨(hcur (by simp)).trans hptr, hnull, (hsize c (by simp)) ▸ hsz, ih hrest ?_ ?_ ?_
      hnodup.2⟩
    · intro hne
      -- the pointer after the whole segment belongs to a later block
      obtain ⟨d, hd, hafter⟩ := Cursor.after_eq_next hne
      refine hnext c (by simp) fun heq ↦ hnodup.1 ?_
      have hcd : c.addr = d.addr := Cursor.next.inj (heq.trans hafter)
      exact hcd ▸ List.mem_map_of_mem hd
    · exact fun d hd ↦ hsize d (List.mem_cons_of_mem c hd)
    · exact fun d hd ↦ hnext d (List.mem_cons_of_mem c hd)

/-! ### What a change writes -/

/-- Between two states the allocator has written at most the addresses in `S`. -/
structure WritesOnly (S : ℕ → Prop) (h h' : Heap) : Prop where
  /-- Bytes outside `S` are as before. -/
  mem : ∀ x, ¬ S x → h'.mem x = h.mem x
  /-- So is the record of writes. -/
  written : ∀ x, ¬ S x → h'.written x = h.written x
  /-- The record only grows. -/
  kept : ∀ x, h.written x = true → h'.written x = true

variable {S T : ℕ → Prop} {h'' : Heap}

theorem WritesOnly.refl (S : ℕ → Prop) (h : Heap) : WritesOnly S h h :=
  ⟨fun _ _ ↦ rfl, fun _ _ ↦ rfl, fun _ hx ↦ hx⟩

theorem WritesOnly.trans (h₁ : WritesOnly S h h') (h₂ : WritesOnly S h' h'') :
    WritesOnly S h h'' :=
  ⟨fun x hx ↦ (h₂.mem x hx).trans (h₁.mem x hx),
    fun x hx ↦ (h₂.written x hx).trans (h₁.written x hx),
    fun x hx ↦ h₂.kept x (h₁.kept x hx)⟩

/-- The ledger is not in memory. -/
theorem WritesOnly.withLive (h₁ : WritesOnly S h h') (l : List ℕ) :
    WritesOnly S h { h' with live := l } :=
  ⟨h₁.mem, h₁.written, h₁.kept⟩

theorem WritesOnly.mono (h₁ : WritesOnly S h h') (hST : ∀ x, S x → T x) : WritesOnly T h h' :=
  ⟨fun x hx ↦ h₁.mem x fun hS ↦ hx (hST x hS), fun x hx ↦ h₁.written x fun hS ↦ hx (hST x hS),
    h₁.kept⟩

theorem writesOnly_store (hS : ∀ x, p ≤ x → x < p + n → S x) : WritesOnly S h (h.store p n v) := by
  refine ⟨?_, ?_, ?_⟩
  · intro x hx
    have hout : x < p ∨ p + n ≤ x := by
      by_contra hin
      exact hx (hS x (by omega) (by omega))
    exact storeLE_apply_of_not_mem hout
  · intro x hx
    have hout : ¬ (p ≤ x ∧ x < p + n) := fun hin ↦ hx (hS x hin.1 hin.2)
    simp [store, hout]
  · intro x hx
    simp [store, hx]

theorem writesOnly_assign (hS : ∀ b, cur = .next b → ∀ x, b + 4 ≤ x → x < b + 8 → S x) :
    WritesOnly S h (h.assign cur v) := by
  cases cur with
  | head => exact ⟨fun _ _ ↦ rfl, fun _ _ ↦ rfl, fun _ hx ↦ hx⟩
  | next b => exact writesOnly_store fun x h₁ h₂ ↦ hS b rfl x h₁ (by omega)

theorem writesOnly_memsetPage (hS : ∀ x, p ≤ x → x < p + n → S x) :
    WritesOnly S h (memsetPage p v n h) := by
  induction n with
  | zero => exact .refl S h
  | succ n ih =>
    exact (ih fun x h₁ h₂ ↦ hS x h₁ (by omega)).trans
      (writesOnly_store fun x h₁ h₂ ↦ hS x (by omega) (by omega))

theorem mem_memsetPage : (memsetPage p v n h).mem = h.mem.fill p n (UInt8.ofNat v) := by
  induction n with
  | zero => exact blit_zero.symm
  | succ n ih =>
    have hone : ∀ m : ByteMem, m.storeLE (p + n) 1 v =
        m.blit (p + n) 1 fun _ ↦ UInt8.ofNat v := fun m ↦
      blit_congr fun i hi ↦ by rw [Nat.lt_one_iff.1 hi, Nat.pow_zero, Nat.div_one]
    show (memsetPage p v n h).mem.storeLE (p + n) 1 v = _
    rw [hone, ih]
    exact blit_blit_append (f := fun _ ↦ UInt8.ofNat v)

@[simp] theorem freeListHead_memsetPage : (memsetPage p v n h).freeListHead = h.freeListHead := by
  induction n with
  | zero => rfl
  | succ n ih => exact ih

/-- A header that is not written keeps its size word. -/
theorem WritesOnly.size_eq (hw : WritesOnly S h h') (hq : ∀ x, q ≤ x → x < q + 8 → ¬ S x) :
    h'.size q = h.size q :=
  loadLE_congr fun i hi ↦ hw.mem _ (hq _ (by omega) (by omega))

theorem WritesOnly.next_eq (hw : WritesOnly S h h') (hq : ∀ x, q ≤ x → x < q + 8 → ¬ S x) :
    h'.next q = h.next q :=
  loadLE_congr fun i hi ↦ hw.mem _ (hq _ (by omega) (by omega))

/-! ### The walks -/

/-- The first-fit walk comes to the end of a list without a block that fits. -/
theorem kmallocWalk_of_forall_lt {fuel : ℕ} (hc : h.FreeChain cur cs) (hfuel : cs.length < fuel)
    (hall : ∀ c ∈ cs, c.len < n + headerSize) : kmallocWalk n fuel cur h = some (0, h) := by
  induction cs generalizing cur fuel with
  | nil =>
    obtain ⟨fuel, rfl⟩ := Nat.exists_eq_succ_of_ne_zero (by omega : fuel ≠ 0)
    exact if_pos hc
  | cons c cs ih =>
    obtain ⟨fuel, rfl⟩ := Nat.exists_eq_succ_of_ne_zero (by omega : fuel ≠ 0)
    obtain ⟨hptr, hnull, hsize, hrest⟩ := hc
    have hlt := hall c (by simp)
    rw [kmallocWalk, hptr, if_neg hnull, if_neg (by omega)]
    exact ih hrest (by simpa using hfuel) fun d hd ↦ hall d (List.mem_cons_of_mem c hd)

/-- The first-fit walk stops at the first block that fits. -/
theorem kmallocWalk_of_first {fuel : ℕ} (hc : h.FreeChain cur (xs ++ c :: ys))
    (hfuel : xs.length < fuel) (hxs : ∀ d ∈ xs, d.len < n + headerSize)
    (hfit : n + headerSize ≤ c.len) :
    kmallocWalk n fuel cur h = some (takeBlock n (cur.after xs) c.addr h) := by
  induction xs generalizing cur fuel with
  | nil =>
    obtain ⟨fuel, rfl⟩ := Nat.exists_eq_succ_of_ne_zero (by omega : fuel ≠ 0)
    obtain ⟨hptr, hnull, hsize, -⟩ := hc
    rw [kmallocWalk, hptr, if_neg hnull, if_pos (by omega)]
    rfl
  | cons d xs ih =>
    obtain ⟨fuel, rfl⟩ := Nat.exists_eq_succ_of_ne_zero (by omega : fuel ≠ 0)
    obtain ⟨hptr, hnull, hsize, hrest⟩ := hc
    have hlt := hxs d (by simp)
    rw [kmallocWalk, hptr, if_neg hnull, if_neg (by omega)]
    exact ih hrest (by simpa using hfuel) fun e he ↦ hxs e (List.mem_cons_of_mem d he)

/-- The sorted walk stops behind the blocks below the one to insert. -/
theorem insertionPoint_eq {fuel block : ℕ} (hc : h.FreeChain cur (xs ++ ys))
    (hfuel : xs.length < fuel) (hxs : ∀ d ∈ xs, d.addr < block) (hys : ∀ d ∈ ys, block ≤ d.addr) :
    insertionPoint block fuel cur h = some (cur.after xs) := by
  induction xs generalizing cur fuel with
  | nil =>
    obtain ⟨fuel, rfl⟩ := Nat.exists_eq_succ_of_ne_zero (by omega : fuel ≠ 0)
    refine if_neg ?_
    cases ys with
    | nil => exact fun hwalk ↦ hwalk.1 hc
    | cons d ys =>
      have hd := hys d (by simp)
      have hptr : h.deref cur = d.addr := hc.1
      omega
  | cons d xs ih =>
    obtain ⟨fuel, rfl⟩ := Nat.exists_eq_succ_of_ne_zero (by omega : fuel ≠ 0)
    obtain ⟨hptr, hnull, -, hrest⟩ := hc
    rw [insertionPoint, hptr, if_pos ⟨hnull, hxs d (by simp)⟩]
    exact ih hrest (by simpa using hfuel) fun e he ↦ hxs e (List.mem_cons_of_mem d he)

/-- The search for the block before `c` finds it. -/
theorem predecessor_eq {fuel : ℕ} (hc : h.FreeChain cur (xs ++ d :: c :: ys))
    (hfuel : xs.length < fuel) (hxs : ∀ e ∈ xs, e.addr ≠ c.addr) (hdc : d.addr ≠ c.addr) :
    predecessor c.addr fuel (h.deref cur) h = some d.addr := by
  induction xs generalizing cur fuel with
  | nil =>
    obtain ⟨fuel, rfl⟩ := Nat.exists_eq_succ_of_ne_zero (by omega : fuel ≠ 0)
    obtain ⟨hptr, -, -, hnext, -⟩ := hc
    have hnext' : h.next d.addr = c.addr := hnext
    rw [hptr, predecessor, if_neg fun hwalk ↦ hwalk.2 hnext']
  | cons e xs ih =>
    obtain ⟨fuel, rfl⟩ := Nat.exists_eq_succ_of_ne_zero (by omega : fuel ≠ 0)
    obtain ⟨hptr, hnull, -, hrest⟩ := hc
    have hne : h.next e.addr ≠ c.addr := by
      cases xs with
      | nil => exact fun heq ↦ hdc (hrest.1.symm.trans heq)
      | cons f xs => exact fun heq ↦ hxs f (by simp) (hrest.1.symm.trans heq)
    rw [hptr, predecessor, if_pos ⟨hnull, hne⟩]
    exact ih hrest (by simpa using hfuel) fun f hf ↦ hxs f (List.mem_cons_of_mem e hf)

end Heap
