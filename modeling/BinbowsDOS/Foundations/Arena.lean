import Mathlib.Data.List.Chain
import Mathlib.Data.List.Perm.Basic
import Mathlib.Data.List.Sort
import Mathlib.Tactic.Common

/-!
# Tilings of an address range by used and unused cells

An *arena* is a range `[lo, hi)` cut into consecutive cells, each used or unused. `Tiles` says
that a list of cells is such a cut; `Coalesced` says that no two neighbours are both unused.

The normal form is bought by `coalesce`, a right fold of `absorb`: it changes neither the
range (`Tiles.coalesce`) nor the used cells (`filter_used_coalesce`), and its result is
coalesced. The main theorem is `eq_layout`: a coalesced tiling is a function of its bounds
and its used cells, so the unused cells are exactly the maximal gaps between used ones, and
two coalesced tilings with the same used cells are the same list.
-/

/-- A cell of an arena: an address, a positive length, and whether it is in use. -/
@[ext]
structure Cell where
  /-- First address of the cell. -/
  addr : ℕ
  /-- Number of addresses. -/
  len : ℕ
  /-- Whether the cell is in use. -/
  used : Bool
deriving DecidableEq, Repr

namespace Cell

/-- The first address after the cell. -/
def stop (c : Cell) : ℕ := c.addr + c.len

/-- An address lies in the cell. -/
def Covers (c : Cell) (x : ℕ) : Prop := c.addr ≤ x ∧ x < c.addr + c.len

end Cell

namespace Arena

/-- The cells are consecutive, nonempty, and cover `[lo, hi)` exactly. -/
def Tiles : ℕ → ℕ → List Cell → Prop
  | lo, hi, [] => lo = hi
  | lo, hi, c :: cs => c.addr = lo ∧ 0 < c.len ∧ Tiles c.stop hi cs

/-- No two neighbouring cells are both unused. -/
def Coalesced (cs : List Cell) : Prop :=
  cs.IsChain fun c d ↦ c.used = true ∨ d.used = true

variable {lo mid hi : ℕ} {c d : Cell} {xs ys cs : List Cell}

@[simp] theorem tiles_nil : Tiles lo hi [] ↔ lo = hi := Iff.rfl

@[simp]
theorem tiles_cons : Tiles lo hi (c :: cs) ↔ c.addr = lo ∧ 0 < c.len ∧ Tiles c.stop hi cs :=
  Iff.rfl

/-- A tiling of a concatenation is two tilings that meet. -/
theorem tiles_append : Tiles lo hi (xs ++ ys) ↔ ∃ mid, Tiles lo mid xs ∧ Tiles mid hi ys := by
  induction xs generalizing lo with
  | nil => simp
  | cons c xs ih => simp only [List.cons_append, tiles_cons, ih]; grind

theorem Tiles.le (h : Tiles lo hi cs) : lo ≤ hi := by
  induction cs generalizing lo with
  | nil => exact Nat.le_of_eq h
  | cons c cs ih =>
    obtain ⟨rfl, hlen, hcs⟩ := h
    have := ih hcs
    rw [Cell.stop] at this
    omega

theorem Tiles.bounds (h : Tiles lo hi cs) (hc : c ∈ cs) :
    lo ≤ c.addr ∧ 0 < c.len ∧ c.addr + c.len ≤ hi := by
  obtain ⟨xs, ys, rfl⟩ := List.append_of_mem hc
  obtain ⟨mid, hxs, rfl, hlen, hys⟩ := tiles_append.1 h
  exact ⟨hxs.le, hlen, hys.le⟩

/-- Earlier cells end before later ones start. -/
theorem Tiles.pairwise (h : Tiles lo hi cs) : cs.Pairwise fun c d ↦ c.addr + c.len ≤ d.addr := by
  induction cs generalizing lo with
  | nil => exact List.Pairwise.nil
  | cons c cs ih =>
    obtain ⟨-, -, hcs⟩ := h
    exact List.pairwise_cons.2 ⟨fun d hd ↦ (hcs.bounds hd).1, ih hcs⟩

/-- Different cells of a tiling have no address in common. -/
theorem Tiles.disjoint (h : Tiles lo hi cs) (hc : c ∈ cs) (hd : d ∈ cs) (hne : c.addr ≠ d.addr) :
    c.addr + c.len ≤ d.addr ∨ d.addr + d.len ≤ c.addr := by
  have hp := h.pairwise
  induction cs generalizing lo with
  | nil => simp at hc
  | cons e cs ih =>
    obtain ⟨hhead, htail⟩ := List.pairwise_cons.1 hp
    rcases List.mem_cons.1 hc with rfl | hc'
    · rcases List.mem_cons.1 hd with rfl | hd'
      · exact absurd rfl hne
      · exact Or.inl (hhead d hd')
    · rcases List.mem_cons.1 hd with rfl | hd'
      · exact Or.inr (hhead c hc')
      · exact ih h.2.2 hc' hd' htail

/-- A cell of a tiling is known by its address. -/
theorem Tiles.eq_of_addr_eq (h : Tiles lo hi cs) (hc : c ∈ cs) (hd : d ∈ cs)
    (heq : c.addr = d.addr) : c = d := by
  induction cs generalizing lo with
  | nil => simp at hc
  | cons e cs ih =>
    obtain ⟨-, hlen, hcs⟩ := h
    rcases List.mem_cons.1 hc with rfl | hc' <;> rcases List.mem_cons.1 hd with rfl | hd'
    · rfl
    · have := (hcs.bounds hd').1
      rw [Cell.stop] at this
      omega
    · have := (hcs.bounds hc').1
      rw [Cell.stop] at this
      omega
    · exact ih hcs hc' hd'

/-- A tiling by cells of at least `k` addresses has at most one cell for every `k`. -/
theorem Tiles.length_mul_le {k : ℕ} (h : Tiles lo hi cs) (hk : ∀ c ∈ cs, k ≤ c.len) :
    cs.length * k ≤ hi - lo := by
  induction cs generalizing lo with
  | nil => simp
  | cons c cs ih =>
    obtain ⟨rfl, -, hcs⟩ := h
    have hrest := ih hcs fun d hd ↦ hk d (List.mem_cons_of_mem c hd)
    have hc := hk c (by simp)
    have hle := hcs.le
    rw [Cell.stop] at hrest hle
    rw [List.length_cons, Nat.succ_mul]
    omega

/-- In a tiling, the cells before `c` end before it and those after it start after it. -/
theorem Tiles.around (h : Tiles lo hi (xs ++ c :: ys)) :
    (∀ d ∈ xs, d.addr + d.len ≤ c.addr) ∧ ∀ d ∈ ys, c.addr + c.len ≤ d.addr := by
  obtain ⟨-, hright, hleft⟩ := List.pairwise_append.1 h.pairwise
  exact ⟨fun d hd ↦ hleft d hd c (by simp), (List.pairwise_cons.1 hright).1⟩

/-! ### Editing one cell -/

/-- Replacing a run of cells by a tiling of the same range. -/
theorem Tiles.replace {zs ws : List Cell} (h : Tiles lo hi (xs ++ zs ++ ys))
    (hz : ∀ {a b}, Tiles a b zs → Tiles a b ws) : Tiles lo hi (xs ++ ws ++ ys) := by
  obtain ⟨b, hxz, hys⟩ := tiles_append.1 h
  obtain ⟨a, hxs, hzs⟩ := tiles_append.1 hxz
  exact tiles_append.2 ⟨b, tiles_append.2 ⟨a, hxs, hz hzs⟩, hys⟩

/-- Changing a cell's tag keeps the tiling. -/
theorem Tiles.retag (h : Tiles lo hi (xs ++ c :: ys)) (t : Bool) :
    Tiles lo hi (xs ++ { c with used := t } :: ys) := by
  have h' : Tiles lo hi (xs ++ [c] ++ ys) := by simpa using h
  have hnew : Tiles lo hi (xs ++ [{ c with used := t }] ++ ys) := h'.replace id
  simpa using hnew

/-- Cutting a cell in two keeps the tiling. -/
theorem Tiles.split (h : Tiles lo hi (xs ++ c :: ys)) {a b : ℕ} (hab : a + b = c.len)
    (ha : 0 < a) (hb : 0 < b) (t u : Bool) :
    Tiles lo hi (xs ++ ⟨c.addr, a, t⟩ :: ⟨c.addr + a, b, u⟩ :: ys) := by
  have h' : Tiles lo hi (xs ++ [c] ++ ys) := by simpa using h
  have hnew : Tiles lo hi (xs ++ [⟨c.addr, a, t⟩, ⟨c.addr + a, b, u⟩] ++ ys) := by
    refine h'.replace ?_
    rintro p q ⟨rfl, -, rfl⟩
    exact ⟨rfl, ha, rfl, hb, by simp only [tiles_nil, Cell.stop]; omega⟩
  simpa using hnew

/-! ### Coalescing -/

/-- Put a cell in front of a list, merging it with the first one when both are unused. -/
def absorb (c : Cell) : List Cell → List Cell
  | [] => [c]
  | d :: cs => if c.used || d.used then c :: d :: cs else ⟨c.addr, c.len + d.len, false⟩ :: cs

/-- Merge every run of unused cells. -/
def coalesce (cs : List Cell) : List Cell := cs.foldr absorb []

@[simp] theorem coalesce_nil : coalesce [] = [] := rfl

@[simp] theorem coalesce_cons : coalesce (c :: cs) = absorb c (coalesce cs) := rfl

theorem coalesce_append : coalesce (xs ++ ys) = xs.foldr absorb (coalesce ys) :=
  List.foldr_append

theorem absorb_of_used (h : c.used = true) : absorb c cs = c :: cs := by
  cases cs <;> simp [absorb, h]

theorem absorb_cons_of_used (h : d.used = true) : absorb c (d :: cs) = c :: d :: cs := by
  simp [absorb, h]

theorem absorb_cons_of_unused (hc : c.used = false) (hd : d.used = false) :
    absorb c (d :: cs) = ⟨c.addr, c.len + d.len, false⟩ :: cs := by
  simp [absorb, hc, hd]

theorem Tiles.absorb (h : Tiles lo hi (c :: cs)) : Tiles lo hi (absorb c cs) := by
  obtain ⟨rfl, hlen, hcs⟩ := h
  cases cs with
  | nil => exact ⟨rfl, hlen, hcs⟩
  | cons d cs =>
    obtain ⟨hd, hdlen, htail⟩ := hcs
    rw [Arena.absorb]
    split
    · exact ⟨rfl, hlen, hd, hdlen, htail⟩
    · refine ⟨rfl, by simp only; omega, ?_⟩
      have hstop : Cell.stop ⟨c.addr, c.len + d.len, false⟩ = d.stop := by
        rw [Cell.stop] at hd
        simp only [Cell.stop]
        omega
      rwa [hstop]

theorem Tiles.coalesce (h : Tiles lo hi cs) : Tiles lo hi (coalesce cs) := by
  induction cs generalizing lo with
  | nil => exact h
  | cons c cs ih =>
    obtain ⟨haddr, hlen, hcs⟩ := h
    exact Tiles.absorb ⟨haddr, hlen, ih hcs⟩

theorem Coalesced.absorb (h : Coalesced cs) (c : Cell) : Coalesced (absorb c cs) := by
  cases cs with
  | nil => exact List.isChain_singleton c
  | cons d cs =>
    rw [Arena.absorb]
    split
    · next hor => exact List.isChain_cons_cons.2 ⟨by simpa using hor, h⟩
    · next hor =>
      have hd : d.used = false := by simp_all
      cases cs with
      | nil => exact List.isChain_singleton _
      | cons e cs =>
        obtain ⟨hde, htail⟩ := List.isChain_cons_cons.1 h
        have he : e.used = true := by simpa [hd] using hde
        exact List.isChain_cons_cons.2 ⟨Or.inr he, htail⟩

theorem coalesced_coalesce (cs : List Cell) : Coalesced (coalesce cs) := by
  induction cs with
  | nil => exact List.isChain_nil
  | cons c cs ih => exact Coalesced.absorb ih c

theorem absorb_eq_cons (h : Coalesced (c :: cs)) : absorb c cs = c :: cs := by
  cases cs with
  | nil => rfl
  | cons d cs =>
    obtain ⟨hcd, -⟩ := List.isChain_cons_cons.1 h
    have hor : (c.used || d.used) = true := by simpa using hcd
    exact if_pos hor

/-- Putting a coalesced list in front of a list whose first cell it may touch. -/
theorem foldr_absorb_of_coalesced (h : Coalesced (xs ++ c :: cs)) :
    xs.foldr absorb (c :: cs) = xs ++ c :: cs := by
  induction xs with
  | nil => rfl
  | cons x xs ih =>
    rw [List.foldr_cons, ih (List.IsChain.tail h)]
    exact absorb_eq_cons h

theorem coalesce_of_coalesced (h : Coalesced cs) : coalesce cs = cs := by
  induction cs with
  | nil => rfl
  | cons c cs ih =>
    rw [coalesce_cons, ih (List.IsChain.tail h)]
    exact absorb_eq_cons h

/-- Coalescing moves no start of a cell and shortens no cell. -/
theorem exists_of_mem_coalesce (h : c ∈ coalesce cs) :
    ∃ d ∈ cs, d.addr = c.addr ∧ d.len ≤ c.len := by
  induction cs generalizing c with
  | nil => simp at h
  | cons e cs ih =>
    have hrest : ∀ {f}, f ∈ coalesce cs → ∃ d ∈ e :: cs, d.addr = f.addr ∧ d.len ≤ f.len := by
      intro f hf
      obtain ⟨d, hd, heq⟩ := ih hf
      exact ⟨d, List.mem_cons_of_mem e hd, heq⟩
    rw [coalesce_cons] at h
    cases hcs : coalesce cs with
    | nil =>
      rw [hcs, absorb, List.mem_singleton] at h
      exact ⟨e, by simp, by rw [h], by rw [h]⟩
    | cons g gs =>
      rw [hcs] at h hrest
      rw [absorb] at h
      split at h
      · rcases List.mem_cons.1 h with rfl | h'
        · exact ⟨c, by simp, rfl, Nat.le_refl _⟩
        · exact hrest h'
      · rcases List.mem_cons.1 h with rfl | h'
        · exact ⟨e, by simp, rfl, Nat.le_add_right ..⟩
        · exact hrest (List.mem_cons_of_mem g h')

/-- Coalescing does not touch the used cells. -/
theorem filter_used_coalesce : (coalesce cs).filter Cell.used = cs.filter Cell.used := by
  induction cs with
  | nil => rfl
  | cons c cs ih =>
    have habsorb : (absorb c (coalesce cs)).filter Cell.used =
        (c :: coalesce cs).filter Cell.used := by
      cases hcs : coalesce cs with
      | nil => rfl
      | cons d ds =>
        rw [absorb]
        split
        · rfl
        · next hor => simp_all
    rw [coalesce_cons, habsorb, List.filter_cons, List.filter_cons, ih]

theorem coalesced_cons_of_used (h : c.used = true) : Coalesced (c :: cs) ↔ Coalesced cs := by
  cases cs with
  | nil => simp [Coalesced]
  | cons d cs => simp [Coalesced, h]

/-- Around a used cell the two sides are coalesced independently. -/
theorem coalesced_append_of_used (h : c.used = true) :
    Coalesced (xs ++ c :: ys) ↔ Coalesced xs ∧ Coalesced ys := by
  rw [Coalesced, List.isChain_append, ← Coalesced, ← Coalesced, coalesced_cons_of_used h]
  simp [h]

/-- Whether a list is coalesced depends on the tags only. -/
theorem coalesced_cons_congr (h : c.used = d.used) :
    Coalesced (c :: cs) ↔ Coalesced (d :: cs) := by
  cases cs <;> simp [Coalesced, h]

/-! ### Coalescing seen from the unused cells -/

/-- The unused cells, in order. -/
def unused (cs : List Cell) : List Cell := cs.filter fun c ↦ !c.used

@[simp] theorem unused_nil : unused [] = [] := rfl

@[simp] theorem unused_append : unused (xs ++ ys) = unused xs ++ unused ys :=
  List.filter_append ..

theorem unused_cons_of_used (h : c.used = true) : unused (c :: cs) = unused cs := by
  simp [unused, h]

theorem unused_cons_of_unused (h : c.used = false) : unused (c :: cs) = c :: unused cs := by
  simp [unused, h]

theorem mem_unused : c ∈ unused cs ↔ c ∈ cs ∧ c.used = false := by
  simp [unused]

/-- Between two unused cells of a coalesced tiling there is room for a used one. -/
theorem pairwise_unused (h : Tiles lo hi cs) (hco : Coalesced cs) :
    (unused cs).Pairwise fun c d ↦ c.addr + c.len < d.addr := by
  induction cs generalizing lo with
  | nil => exact List.Pairwise.nil
  | cons c cs ih =>
    obtain ⟨-, -, hcs⟩ := h
    have hrest := ih hcs (List.IsChain.tail hco)
    cases hc : c.used with
    | true => rwa [unused_cons_of_used hc]
    | false =>
      rw [unused_cons_of_unused hc]
      refine List.pairwise_cons.2 ⟨?_, hrest⟩
      intro d hd
      obtain ⟨hdcs, hdu⟩ := mem_unused.1 hd
      cases cs with
      | nil => simp at hdcs
      | cons e es =>
        -- the neighbour of `c` is in use, so `d` starts behind it
        have he : e.used = true := by
          simpa [hc] using (List.isChain_cons_cons.1 hco).1
        have hde : d ∈ es := by
          rcases List.mem_cons.1 hdcs with rfl | hde
          · simp [he] at hdu
          · exact hde
        have hle := (hcs.2.2.bounds hde).1
        have haddr : e.addr = c.addr + c.len := hcs.1
        have hpos := hcs.2.1
        rw [Cell.stop] at hle
        omega

/-- A list is its unused cells and its used cells, up to order. -/
theorem perm_unused_append_used (cs : List Cell) :
    cs.Perm (unused cs ++ cs.filter Cell.used) := by
  have := (List.filter_append_perm Cell.used cs).symm
  exact this.trans List.perm_append_comm

/-- Put an unused cell in front of a list of unused cells, merging it with the first one when
it ends where that one starts. -/
def fuse (c : Cell) : List Cell → List Cell
  | [] => [c]
  | d :: ds =>
    if c.addr + c.len = d.addr then ⟨c.addr, c.len + d.len, false⟩ :: ds else c :: d :: ds

/-- Neighbours are found by address: on the unused cells of a tiling, `absorb` is `fuse`. -/
theorem unused_absorb (h : Tiles lo hi (c :: cs)) (hc : c.used = false) :
    unused (absorb c cs) = fuse c (unused cs) := by
  obtain ⟨-, -, hcs⟩ := h
  cases cs with
  | nil => simp [absorb, unused, fuse, hc]
  | cons d ds =>
    have hdaddr : d.addr = c.addr + c.len := hcs.1
    cases hd : d.used with
    | false =>
      rw [absorb_cons_of_unused hc hd, unused_cons_of_unused rfl, unused_cons_of_unused hd, fuse,
        if_pos hdaddr.symm]
    | true =>
      rw [absorb_cons_of_used hd, unused_cons_of_unused hc, unused_cons_of_used hd]
      cases hds : unused ds with
      | nil => rfl
      | cons e es =>
        -- the next unused cell lies behind the used one
        have he : e ∈ ds := (mem_unused.1 (hds ▸ List.mem_cons_self)).1
        have hlt := (hcs.2.2.bounds he).1
        have hpos := hcs.2.1
        rw [Cell.stop] at hlt
        rw [fuse, if_neg (by omega)]

theorem absorb_ne_nil (c : Cell) (cs : List Cell) : absorb c cs ≠ [] := by
  cases cs with
  | nil => simp [absorb]
  | cons d ds =>
    rw [absorb]
    split <;> simp

/-- **Freeing a cell.** The unused cells after retagging `c` and coalescing are obtained by
fusing it with the unused cells on its right and then the last one on its left with that. -/
theorem unused_coalesce_retag (h : Tiles lo hi (xs ++ c :: ys)) (hx : Coalesced xs)
    (hy : Coalesced ys) (hc : c.used = false) :
    unused (coalesce (xs ++ c :: ys)) =
      match (unused xs).getLast? with
      | none => fuse c (unused ys)
      | some p => (unused xs).dropLast ++ fuse p (fuse c (unused ys)) := by
  obtain ⟨mid, hxt, hct⟩ := tiles_append.1 h
  have hL : unused (absorb c ys) = fuse c (unused ys) := unused_absorb hct hc
  have hLt : Tiles mid hi (absorb c ys) := hct.absorb
  have hLc : Coalesced (absorb c ys) := hy.absorb c
  rw [coalesce_append, coalesce_cons, coalesce_of_coalesced hy, ← hL]
  generalize absorb c ys = L at hLt hLc
  rcases List.eq_nil_or_concat' xs with rfl | ⟨zs, p, rfl⟩
  · rfl
  · obtain ⟨b, hzs, hp⟩ := tiles_append.1 hxt
    have hpL : Tiles b hi (p :: L) := ⟨hp.1, hp.2.1, by rw [hp.2.2]; exact hLt⟩
    rw [List.foldr_append, List.foldr_cons, List.foldr_nil]
    cases hpu : p.used with
    | true =>
      -- a used cell in between: nothing on the left moves
      have hzsL : Coalesced (zs ++ p :: L) :=
        (coalesced_append_of_used hpu).2 ⟨((coalesced_append_of_used hpu).1 hx).1, hLc⟩
      rw [absorb_of_used hpu, foldr_absorb_of_coalesced hzsL, unused_append, unused_append,
        unused_cons_of_used hpu, unused_cons_of_used hpu, unused_nil, List.append_nil]
      rcases List.eq_nil_or_concat' (unused zs) with hnil | ⟨us, q, hus⟩
      · rw [hnil]
        rfl
      · rw [hus, List.getLast?_append, List.getLast?_singleton, List.dropLast_concat]
        have hq : q ∈ zs := (mem_unused.1 (hus ▸ by simp : q ∈ unused zs)).1
        have hqle := (hzs.bounds hq).2.2
        cases hLu : unused L with
        | nil => simp [fuse]
        | cons e es =>
          have he : e ∈ L := (mem_unused.1 (hLu ▸ List.mem_cons_self)).1
          have hlt := (hLt.bounds he).1
          have hpos := hp.2.1
          have hstop : p.addr + p.len = mid := hp.2.2
          have hstart : p.addr = b := hp.1
          simp only [Option.some_or, fuse]
          rw [if_neg (by omega)]
          simp
    | false =>
      have hzsp : Coalesced (zs ++ [p]) := hx
      have hmerged : Coalesced (zs ++ absorb p L) := by
        cases L with
        | nil => simpa [absorb] using hx
        | cons d ds =>
          rw [Coalesced, List.isChain_append]
          refine ⟨(List.isChain_append.1 hzsp).1, hLc.absorb p, ?_⟩
          intro a ha e he
          have hap := (List.isChain_append.1 hzsp).2.2 a ha p rfl
          rw [absorb] at he
          split at he <;> simp_all
      have hne := absorb_ne_nil p L
      have hfold : zs.foldr absorb (absorb p L) = zs ++ absorb p L := by
        cases hab : absorb p L with
        | nil => exact absurd hab hne
        | cons d ds => exact foldr_absorb_of_coalesced (hab ▸ hmerged)
      rw [hfold, unused_append, unused_append, unused_cons_of_unused hpu, unused_nil,
        unused_absorb hpL hpu, List.getLast?_append, List.getLast?_singleton,
        List.dropLast_concat]
      rfl

/-! ### The used cells determine the arena -/

/-- The coalesced tiling of `[lo, hi)` whose used cells are `us`: between two used cells, and
before the first and after the last, at most one unused cell that fills the gap. -/
def layout (lo hi : ℕ) : List Cell → List Cell
  | [] => if lo = hi then [] else [⟨lo, hi - lo, false⟩]
  | u :: us =>
    if lo = u.addr then u :: layout u.stop hi us
    else ⟨lo, u.addr - lo, false⟩ :: u :: layout u.stop hi us

/-- **A coalesced tiling is determined by its used cells.** -/
theorem eq_layout (h : Tiles lo hi cs) (hco : Coalesced cs) :
    cs = layout lo hi (cs.filter Cell.used) := by
  induction cs generalizing lo with
  | nil => simp [layout, tiles_nil.1 h]
  | cons c cs ih =>
    obtain ⟨rfl, hlen, hcs⟩ := h
    have hrest := ih hcs (List.IsChain.tail hco)
    cases hused : c.used with
    | true =>
      rw [List.filter_cons_of_pos hused, layout, if_pos rfl, ← hrest]
    | false =>
      have hc : c = ⟨c.addr, c.len, false⟩ := by rw [← hused]
      rw [List.filter_cons_of_neg (by simp [hused])]
      cases cs with
      | nil =>
        have hhi : c.addr + c.len = hi := hcs
        have hlen' : hi - c.addr = c.len := by omega
        rw [List.filter_nil, layout, if_neg (by omega), hlen', ← hc]
      | cons d ds =>
        -- the next cell is in use, since two neighbours are not both unused
        obtain ⟨hcd, -⟩ := List.isChain_cons_cons.1 hco
        have hd : d.used = true := by simpa [hused] using hcd
        have hdaddr : d.addr = c.addr + c.len := hcs.1
        have hlen' : d.addr - c.addr = c.len := by omega
        rw [List.filter_cons_of_pos hd, layout, if_pos hcs.1.symm] at hrest
        rw [List.filter_cons_of_pos hd, layout, if_neg (by omega), hlen', ← hc, ← hrest]

/-- Two coalesced tilings of one range with the same used cells are the same. -/
theorem eq_of_filter_used_eq {ds : List Cell} (hc : Tiles lo hi cs) (hcc : Coalesced cs)
    (hd : Tiles lo hi ds) (hdc : Coalesced ds)
    (hused : cs.filter Cell.used = ds.filter Cell.used) : cs = ds := by
  rw [eq_layout hc hcc, eq_layout hd hdc, hused]

/-- In a tiling the cells come in the order of their addresses. -/
theorem Tiles.pairwise_addr (h : Tiles lo hi cs) : cs.Pairwise fun c d ↦ c.addr < d.addr :=
  h.pairwise.imp_of_mem fun hc _ hle ↦ by
    have := (h.bounds hc).2.1
    omega

/-- It is enough that the same cells are used, in whatever order they are named. -/
theorem eq_of_mem_used_iff {ds : List Cell} (hc : Tiles lo hi cs) (hcc : Coalesced cs)
    (hd : Tiles lo hi ds) (hdc : Coalesced ds)
    (hused : ∀ c, c ∈ cs.filter Cell.used ↔ c ∈ ds.filter Cell.used) : cs = ds := by
  have hirrefl : Std.Irrefl fun c d : Cell ↦ c.addr < d.addr := ⟨fun c ↦ lt_irrefl c.addr⟩
  have hantisymm : Std.Antisymm fun c d : Cell ↦ c.addr < d.addr :=
    ⟨fun c d h₁ h₂ ↦ absurd h₂ h₁.asymm⟩
  refine eq_of_filter_used_eq hc hcc hd hdc ?_
  exact (hc.pairwise_addr.sublist List.filter_sublist).eq_of_mem_iff
    (hd.pairwise_addr.sublist List.filter_sublist) hused

end Arena
