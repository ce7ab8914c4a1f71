import BinbowsDOS.Foundations.Arena

/-!
# Maximal gaps between blocks

What is left of a range `[lo, hi)` once some blocks are taken out of it, described without
reference to any tiling: `Clear` is a subrange that meets no block, `IsGap` a clear subrange that
is contained in no larger one. In a coalesced tiling the gaps between the used cells are exactly
the unused cells (`isGap_iff`).
-/

namespace Arena

variable {lo hi a b a' b' x : ℕ} {us vs cs : List Cell} {c d : Cell}

/-- `[a, b)` is a nonempty part of `[lo, hi)` that meets none of the blocks `us`. -/
structure Clear (lo hi : ℕ) (us : List Cell) (a b : ℕ) : Prop where
  /-- It starts in the range. -/
  le : lo ≤ a
  /-- It is not empty. -/
  lt : a < b
  /-- It ends in the range. -/
  stop_le : b ≤ hi
  /-- It meets no block. -/
  free : ∀ u ∈ us, ∀ x, a ≤ x → x < b → ¬ u.Covers x

/-- `[a, b)` is a maximal gap between the blocks `us` of `[lo, hi)`. -/
structure IsGap (lo hi : ℕ) (us : List Cell) (a b : ℕ) : Prop extends Clear lo hi us a b where
  /-- No larger part is clear. -/
  maximal : ∀ a' b', Clear lo hi us a' b' → a' ≤ a → b ≤ b' → a' = a ∧ b' = b

theorem Clear.congr (h : ∀ u, u ∈ us ↔ u ∈ vs) (hc : Clear lo hi us a b) : Clear lo hi vs a b :=
  ⟨hc.le, hc.lt, hc.stop_le, fun u hu ↦ hc.free u ((h u).2 hu)⟩

/-- The order of the blocks does not matter. -/
theorem isGap_congr (h : ∀ u, u ∈ us ↔ u ∈ vs) : IsGap lo hi us a b ↔ IsGap lo hi vs a b := by
  constructor
  · intro hg
    exact ⟨hg.toClear.congr h, fun a' b' hc ↦ hg.maximal a' b' (hc.congr fun u ↦ (h u).symm)⟩
  · intro hg
    exact ⟨hg.toClear.congr fun u ↦ (h u).symm, fun a' b' hc ↦ hg.maximal a' b' (hc.congr h)⟩

/-- Two clear parts that meet form a clear part. -/
theorem Clear.union (h : Clear lo hi us a b) (h' : Clear lo hi us a' b') (h₁ : a ≤ b')
    (h₂ : a' ≤ b) : Clear lo hi us (min a a') (max b b') := by
  refine ⟨le_min h.le h'.le, ?_, max_le h.stop_le h'.stop_le, ?_⟩
  · have := h.lt
    omega
  · intro u hu x hx₁ hx₂
    rcases Nat.lt_or_ge x a with hxa | hxa
    · exact h'.free u hu x (by omega) (by omega)
    · rcases Nat.lt_or_ge x b with hxb | hxb
      · exact h.free u hu x hxa hxb
      · exact h'.free u hu x (by omega) (by omega)

/-- Two maximal gaps that meet are the same. -/
theorem IsGap.eq_of_meet (h : IsGap lo hi us a b) (h' : IsGap lo hi us a' b') (h₁ : a ≤ b')
    (h₂ : a' ≤ b) : a = a' ∧ b = b' := by
  have hu := h.toClear.union h'.toClear h₁ h₂
  obtain ⟨ha, hb⟩ := h.maximal _ _ hu (min_le_left ..) (le_max_left ..)
  obtain ⟨ha', hb'⟩ := h'.maximal _ _ hu (min_le_right ..) (le_max_right ..)
  exact ⟨ha.symm.trans ha', hb.symm.trans hb'⟩

/-! ### Gaps of a tiling -/

/-- Every address of a tiled range lies in a cell. -/
theorem Tiles.exists_covers (h : Tiles lo hi cs) (h₁ : lo ≤ x) (h₂ : x < hi) :
    ∃ c ∈ cs, c.Covers x := by
  induction cs generalizing lo with
  | nil =>
    have heq : lo = hi := h
    omega
  | cons c cs ih =>
    obtain ⟨rfl, hlen, hcs⟩ := h
    rcases Nat.lt_or_ge x c.stop with hx | hx
    · exact ⟨c, by simp, h₁, hx⟩
    · obtain ⟨d, hd, hdx⟩ := ih hcs hx
      exact ⟨d, by simp [hd], hdx⟩

theorem Tiles.eq_of_covers (h : Tiles lo hi cs) (hc : c ∈ cs) (hd : d ∈ cs) (hcx : c.Covers x)
    (hdx : d.Covers x) : c = d := by
  rcases eq_or_ne c.addr d.addr with heq | hne
  · exact h.eq_of_addr_eq hc hd heq
  · have h₁ := hcx.1
    have h₂ := hcx.2
    have h₃ := hdx.1
    have h₄ := hdx.2
    rcases h.disjoint hc hd hne with hlt | hlt <;> omega

/-- Of two neighbours in a coalesced tiling one is used. -/
theorem used_or_used_of_touch (h : Tiles lo hi cs) (hco : Coalesced cs) (hc : c ∈ cs) (hd : d ∈ cs)
    (htouch : c.addr + c.len = d.addr) : c.used = true ∨ d.used = true := by
  obtain ⟨xs, ys, rfl⟩ := List.append_of_mem hc
  obtain ⟨hleft, hright⟩ := h.around
  have hclen := (h.bounds hc).2.1
  have hdlen := (h.bounds hd).2.1
  obtain ⟨mid, -, -, -, hys⟩ := tiles_append.1 h
  have hchain : Coalesced (c :: ys) := (List.isChain_append.1 hco).2.1
  rcases List.mem_append.1 hd with hdx | hdx
  · have := hleft d hdx
    omega
  · rcases List.mem_cons.1 hdx with rfl | hdy
    · omega
    · cases ys with
      | nil => simp at hdy
      | cons e ys =>
        -- the cell behind `c` starts where `d` does
        have heq : e.addr = d.addr := hys.1.trans htouch
        rw [← h.eq_of_addr_eq (by simp) hd heq]
        exact (List.isChain_cons_cons.1 hchain).1

/-- The cell in front of a cell. -/
theorem exists_cell_before (h : Tiles lo hi cs) (hc : c ∈ cs) (hlo : lo < c.addr) :
    ∃ d ∈ cs, d.addr + d.len = c.addr ∧ d.Covers (c.addr - 1) := by
  obtain ⟨-, -, hhi⟩ := h.bounds hc
  obtain ⟨d, hd, hdx⟩ := h.exists_covers (x := c.addr - 1) (by omega) (by omega)
  refine ⟨d, hd, ?_, hdx⟩
  have h₁ := hdx.1
  have h₂ := hdx.2
  have hdc : d.addr ≠ c.addr := by omega
  rcases h.disjoint hd hc hdc with h₃ | h₃ <;> omega

/-- The cell behind a cell. -/
theorem exists_cell_behind (h : Tiles lo hi cs) (hc : c ∈ cs) (hhi : c.addr + c.len < hi) :
    ∃ d ∈ cs, c.addr + c.len = d.addr ∧ d.Covers (c.addr + c.len) := by
  obtain ⟨hlo, -, -⟩ := h.bounds hc
  obtain ⟨d, hd, hdx⟩ := h.exists_covers (x := c.addr + c.len) (by omega) hhi
  refine ⟨d, hd, ?_, hdx⟩
  have h₁ := hdx.1
  have h₂ := hdx.2
  have hdc : c.addr ≠ d.addr := by
    intro heq
    rw [← h.eq_of_addr_eq hc hd heq] at h₂
    omega
  rcases h.disjoint hc hd hdc with h₃ | h₃ <;> omega

/-- An unused cell of a coalesced tiling is a maximal gap between the used ones. -/
theorem isGap_of_mem_unused (h : Tiles lo hi cs) (hco : Coalesced cs) (hc : c ∈ unused cs) :
    IsGap lo hi (cs.filter Cell.used) c.addr (c.addr + c.len) := by
  obtain ⟨hmem, hunused⟩ := mem_unused.1 hc
  obtain ⟨hlo, hlen, hhi⟩ := h.bounds hmem
  refine ⟨⟨hlo, by omega, hhi, ?_⟩, ?_⟩
  · intro u hu x h₁ h₂ hux
    obtain ⟨humem, hused⟩ := List.mem_filter.1 hu
    rw [h.eq_of_covers humem hmem hux ⟨h₁, h₂⟩, hunused] at hused
    exact Bool.noConfusion hused
  · intro a' b' hclear ha hb
    have hstart := hclear.le
    have hstop := hclear.stop_le
    have hnone : ∀ d ∈ cs, ∀ x, a' ≤ x → x < b' → d.Covers x → d.used = false := by
      intro d hd x h₁ h₂ hdx
      by_contra hne
      exact hclear.free d (List.mem_filter.2 ⟨hd, by simpa using hne⟩) x h₁ h₂ hdx
    constructor
    · -- otherwise the cell in front of `c` is clear too
      by_contra hne
      obtain ⟨d, hd, htouch, hdx⟩ := exists_cell_before h hmem (by omega)
      have hdu := hnone d hd _ (by omega) (by omega) hdx
      rcases used_or_used_of_touch h hco hd hmem htouch with hu | hu
      · simp [hdu] at hu
      · simp [hunused] at hu
    · by_contra hne
      obtain ⟨d, hd, htouch, hdx⟩ := exists_cell_behind h hmem (by omega)
      have hdu := hnone d hd _ (by omega) (by omega) hdx
      rcases used_or_used_of_touch h hco hmem hd htouch with hu | hu
      · simp [hunused] at hu
      · simp [hdu] at hu

/-- **The maximal gaps between the used cells of a coalesced tiling are its unused cells.** -/
theorem isGap_iff (h : Tiles lo hi cs) (hco : Coalesced cs) :
    IsGap lo hi (cs.filter Cell.used) a b ↔
      ∃ c ∈ unused cs, c.addr = a ∧ c.addr + c.len = b := by
  constructor
  · intro hg
    obtain ⟨c, hc, hcx⟩ := h.exists_covers hg.le (hg.lt.trans_le hg.stop_le)
    have hunused : c.used = false := by
      by_contra hne
      exact hg.free c (List.mem_filter.2 ⟨hc, by simpa using hne⟩) a le_rfl hg.lt hcx
    have hmem := mem_unused.2 ⟨hc, hunused⟩
    obtain ⟨ha, hb⟩ := (isGap_of_mem_unused h hco hmem).eq_of_meet hg
      (by have := hcx.1; have := hg.lt; omega) (by have := hcx.2; omega)
    exact ⟨c, hmem, ha, hb⟩
  · rintro ⟨c, hc, rfl, rfl⟩
    exact isGap_of_mem_unused h hco hc

end Arena
