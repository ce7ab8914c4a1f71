import BinbowsDOS.Heap.FreeChain

/-!
# Inserting into and taking from the free list

What `insert_free_block_sorted` and the body of `kmalloc`'s loop do to a free list, stated on
the list of its blocks. Both merges of the insertion are one operation, `Arena.fuse`, applied
first to the new block and what follows it and then to the block before it
(`mergePrev_eq_mergeNext`).

`Ordered cs` collects what the list edits need of the blocks: aligned, with room for a header,
in increasing order without overlap, and inside the 32-bit address space.
-/

open Arena

namespace Heap

variable {h h' : Heap} {cur : Cursor} {b c d p : Cell} {xs ys cs : List Cell} {n : ℕ}

/-- Aligned blocks in increasing order, disjoint, inside the 32-bit address space. -/
structure Ordered (cs : List Cell) : Prop where
  /-- Addresses are multiples of eight. -/
  aligned : ∀ c ∈ cs, c.addr % 8 = 0
  /-- Every block holds its header. -/
  header_le : ∀ c ∈ cs, headerSize ≤ c.len
  /-- Blocks end inside the address space. -/
  stop_le : ∀ c ∈ cs, c.addr + c.len ≤ 2 ^ 32
  /-- No block is at `NULL`. -/
  addr_pos : ∀ c ∈ cs, 0 < c.addr
  /-- Earlier blocks end before later ones. -/
  pairwise : cs.Pairwise fun c d ↦ c.addr + c.len ≤ d.addr

theorem Ordered.sublist (ho : Ordered cs) (hs : xs.Sublist cs) : Ordered xs :=
  ⟨fun c hc ↦ ho.aligned c (hs.subset hc), fun c hc ↦ ho.header_le c (hs.subset hc),
    fun c hc ↦ ho.stop_le c (hs.subset hc), fun c hc ↦ ho.addr_pos c (hs.subset hc),
    ho.pairwise.sublist hs⟩

/-- The header of one of the blocks. -/
def InHeader (cs : List Cell) (x : ℕ) : Prop := ∃ c ∈ cs, c.addr ≤ x ∧ x < c.addr + headerSize

theorem InHeader.mono {x : ℕ} (h : InHeader xs x) (hsub : ∀ c ∈ xs, c ∈ cs) : InHeader cs x := by
  obtain ⟨c, hc, hx⟩ := h
  exact ⟨c, hsub c hc, hx⟩

theorem Ordered.eight_le (ho : Ordered cs) (hc : c ∈ cs) : 8 ≤ c.len := ho.header_le c hc

theorem addr_nodup (ho : Ordered cs) : (cs.map Cell.addr).Nodup := by
  rw [List.Nodup, List.pairwise_map]
  refine (List.Pairwise.and_mem.1 ho.pairwise).imp fun {c d} hcd ↦ ?_
  have := ho.eight_le hcd.1
  have := hcd.2.2
  omega

/-- The header of a block in front of `b` ends before `b`. -/
theorem Ordered.header_end_le (ho : Ordered (xs ++ b :: ys)) (hd : d ∈ xs) :
    d.addr + 8 ≤ b.addr := by
  have := ho.eight_le (List.mem_append_left _ hd)
  have := (List.pairwise_append.1 ho.pairwise).2.2 d hd b (by simp)
  omega

/-- A block behind `b` starts where `b` ends or later. -/
theorem Ordered.stop_le_addr (ho : Ordered (xs ++ b :: ys)) (hd : d ∈ ys) :
    b.addr + b.len ≤ d.addr :=
  (List.pairwise_cons.1 (List.pairwise_append.1 ho.pairwise).2.1).1 d hd

theorem Ordered.nodup_left (ho : Ordered (xs ++ ys)) : (xs.map Cell.addr).Nodup :=
  addr_nodup (ho.sublist (List.sublist_append_left ..))

/-- The `next` field at the cursor behind `xs` lies in the header of a block of `xs`. -/
theorem inHeader_of_after {q x : ℕ} (hq : Cursor.head.after xs = .next q) (h₁ : q + 4 ≤ x)
    (h₂ : x < q + 8) : InHeader xs x := by
  rcases List.eq_nil_or_concat' xs with rfl | ⟨zs, p, rfl⟩
  · exact Cursor.noConfusion hq
  · rw [Cursor.after_append_singleton] at hq
    have hqp : p.addr = q := Cursor.next.inj hq
    exact ⟨p, by simp, by omega, show x < p.addr + 8 by omega⟩

/-- Storing at the cursor behind some blocks leaves the head of the list alone. -/
theorem deref_head_assign_after {v : ℕ} (hne : xs ≠ []) :
    (h.assign (Cursor.head.after xs) v).deref .head = h.deref .head := by
  obtain ⟨e, -, he⟩ := Cursor.after_eq_next hne
  rw [he]
  rfl

/-! ### Merging -/

/-- **Forward coalescing.** On a list whose first block is `b`, `mergeNext` fuses `b` with
what follows it. -/
theorem mergeNext_spec (hc : h.FreeChain cur (b :: cs)) (ho : Ordered (b :: cs))
    (hcur : OnHeader cur) (hne : cur ≠ .next b.addr) :
    (mergeNext b.addr h).FreeChain cur (fuse b cs) := by
  obtain ⟨hptr, hnull, hsize, hrest⟩ := hc
  have hba := ho.aligned b (by simp)
  have hbs := ho.stop_le b (by simp)
  have hsize' : h.size b.addr + 8 = b.len := hsize
  cases cs with
  | nil =>
    -- the last block has a null successor, and the guard fails
    have hzero : h.next b.addr = 0 := hrest
    rw [mergeNext, if_neg (fun hcon ↦ hcon.1 hzero)]
    exact ⟨hptr, hnull, hsize, hrest⟩
  | cons g gs =>
    obtain ⟨hgptr, hgnull, hgsize, hgrest⟩ := hrest
    have hnext : h.next b.addr = g.addr := hgptr
    have hga := ho.aligned g (by simp)
    have hgs := ho.stop_le g (by simp)
    have hg8 := ho.eight_le (c := g) (by simp)
    have hgsize' : h.size g.addr + 8 = g.len := hgsize
    have hbg : b.addr + b.len ≤ g.addr := (List.pairwise_cons.1 ho.pairwise).1 g (by simp)
    have hend : b.addr + 8 + h.size b.addr = b.addr + b.len := by omega
    rw [mergeNext, hnext, headerSize, hend, u32_of_lt (x := b.addr + b.len) (by omega), fuse]
    rcases eq_or_ne (b.addr + b.len) g.addr with htouch | htouch
    -- `g` touches `b`: its header disappears, so the blocks behind it must not move
    · rw [if_pos ⟨hgnull, htouch⟩, if_pos htouch]
      have hnew : h.size b.addr + 8 + h.size g.addr < 2 ^ 32 := by omega
      rw [u32_of_lt hnew]
      have hb8 := ho.eight_le (c := b) (by simp)
      have hne' : ∀ e ∈ gs, e.addr ≠ b.addr := by
        intro e he
        have := (List.pairwise_cons.1 ho.pairwise).1 e (by simp [he])
        omega
      have hea : ∀ e ∈ gs, e.addr % 8 = 0 := fun e he ↦ ho.aligned e (by simp [he])
      refine ⟨?_, hnull, ?_, hgrest.move ?_ ?_⟩
      · rw [deref_setNext hba hcur hne, deref_setSize hba hcur, hptr]
      · show (Heap.size _ b.addr) + 8 = b.len + g.len
        rw [size_setNext hba hba, size_setSize_self, u32_of_lt hnew]
        omega
      · show (Heap.next _ b.addr) = h.next g.addr
        rw [next_setNext_self, next_setSize hba hba, hnext, next_setSize hba hga,
          u32_of_lt (next_lt h g.addr)]
      · intro e he
        rw [size_setNext hba (hea e he), size_setSize_of_ne hba (hea e he) (hne' e he),
          next_setNext_of_ne hba (hea e he) (hne' e he), next_setSize hba (hea e he)]
        exact ⟨rfl, rfl⟩
    · rw [if_neg (fun hcon ↦ htouch hcon.2), if_neg htouch]
      exact ⟨hptr, hnull, hsize, hgptr, hgnull, hgsize, hgrest⟩

theorem mergeNext_writesOnly {block : ℕ} {S : ℕ → Prop}
    (hS : ∀ x, block ≤ x → x < block + headerSize → S x) :
    WritesOnly S h (mergeNext block h) := by
  have hS' : ∀ x, block ≤ x → x < block + 8 → S x := hS
  rw [mergeNext]
  split
  · exact (writesOnly_store fun x h₁ h₂ ↦ hS' x h₁ (by omega)).trans
      (writesOnly_store fun x h₁ h₂ ↦ hS' x (by omega) (by omega))
  · exact .refl S h

@[simp]
theorem live_mergeNext {block : ℕ} : (mergeNext block h).live = h.live := by
  rw [mergeNext]
  split <;> rfl

@[simp]
theorem freeListHead_mergeNext {block : ℕ} :
    (mergeNext block h).freeListHead = h.freeListHead := by
  rw [mergeNext]
  split <;> rfl

/-- Backward coalescing is forward coalescing of the block before. -/
theorem mergePrev_eq_mergeNext {prev block : ℕ} (hp : prev % 8 = 0) (hprev : prev ≠ 0)
    (hblock : block ≠ 0) (hnext : h.next prev = block) :
    mergePrev prev block h = mergeNext prev h := by
  rw [mergePrev, mergeNext, hnext]
  rcases eq_or_ne (u32 (prev + headerSize + h.size prev)) block with htouch | htouch
  · rw [if_pos ⟨hprev, htouch⟩, if_pos ⟨hblock, htouch⟩]
    simp only
    rw [next_setSize hp hp, hnext]
  · rw [if_neg (fun hcon ↦ htouch hcon.2), if_neg (fun hcon ↦ htouch hcon.2)]

/-! ### Inserting -/

theorem Ordered.onHeader_after (ho : Ordered (xs ++ ys)) : OnHeader (Cursor.head.after xs) := by
  rcases List.eq_nil_or_concat' xs with rfl | ⟨zs, p, rfl⟩
  · trivial
  · rw [Cursor.after_append_singleton]
    exact ho.aligned p (by simp)

/-- The cursor behind `xs` is in no header that starts at or after the end of `xs`. -/
theorem Ordered.after_ne (ho : Ordered (xs ++ b :: ys)) {q : ℕ} (hq : b.addr ≤ q) :
    Cursor.head.after xs ≠ .next q := by
  rcases List.eq_nil_or_concat' xs with rfl | ⟨zs, p, rfl⟩
  · exact fun hcon ↦ Cursor.noConfusion hcon
  · rw [Cursor.after_append_singleton]
    intro hcon
    have := ho.header_end_le (d := p) (by simp)
    have := Cursor.next.inj hcon
    omega

/-- Writes that miss the headers of a segment leave the segment alone. -/
theorem Segment.of_writesOnly {S : ℕ → Prop} (hs : h.Segment .head xs) (hw : WritesOnly S h h')
    (hhead : h'.freeListHead = h.freeListHead)
    (hmiss : ∀ d ∈ xs, ∀ x, d.addr ≤ x → x < d.addr + 8 → ¬ S x)
    (hnodup : (xs.map Cell.addr).Nodup) : h'.Segment .head xs :=
  hs.frame (fun _ ↦ hhead) (fun d hd ↦ hw.size_eq (hmiss d hd))
    (fun d hd _ ↦ hw.next_eq (hmiss d hd)) hnodup

/-- The first block of a fusion starts where the fused block did. -/
theorem exists_fuse_eq_cons (b : Cell) (ys : List Cell) :
    ∃ b' rest, fuse b ys = b' :: rest ∧ b'.addr = b.addr := by
  cases ys with
  | nil => exact ⟨b, [], rfl, rfl⟩
  | cons g gs =>
    rw [fuse]
    split
    · exact ⟨_, gs, rfl, rfl⟩
    · exact ⟨b, g :: gs, rfl, rfl⟩

theorem Ordered.fuse (ho : Ordered (xs ++ b :: ys)) : Ordered (xs ++ fuse b ys) := by
  cases ys with
  | nil => exact ho
  | cons g gs =>
    rw [Arena.fuse]
    split
    · next htouch =>
      have hmem : ∀ e ∈ xs ++ gs, e ∈ xs ++ b :: g :: gs := by
        intro e he
        rcases List.mem_append.1 he with h₁ | h₁ <;> simp [h₁]
      have hg := ho.stop_le g (by simp)
      have hb8 := ho.header_le b (by simp)
      -- all cells but the fused one are old
      have hcell : ∀ {P : Cell → Prop}, (∀ e ∈ xs ++ gs, P e) →
          P ⟨b.addr, b.len + g.len, false⟩ →
          ∀ e ∈ xs ++ ⟨b.addr, b.len + g.len, false⟩ :: gs, P e := by
        intro P hold hnew e he
        rcases List.mem_append.1 he with h₁ | h₁
        · exact hold e (by simp [h₁])
        · rcases List.mem_cons.1 h₁ with rfl | h₂
          · exact hnew
          · exact hold e (by simp [h₂])
      obtain ⟨hpx, hpr, hcross⟩ := List.pairwise_append.1 ho.pairwise
      obtain ⟨hbr, hpr'⟩ := List.pairwise_cons.1 hpr
      obtain ⟨hgr, hpgs⟩ := List.pairwise_cons.1 hpr'
      refine ⟨hcell (fun e he ↦ ho.aligned e (hmem e he)) (ho.aligned b (by simp)),
        hcell (fun e he ↦ ho.header_le e (hmem e he)) (by simp only; omega),
        hcell (fun e he ↦ ho.stop_le e (hmem e he)) (by simp only; omega),
        hcell (fun e he ↦ ho.addr_pos e (hmem e he)) (ho.addr_pos b (by simp)), ?_⟩
      refine List.pairwise_append.2 ⟨hpx, List.pairwise_cons.2 ⟨?_, hpgs⟩, ?_⟩
      · intro e he
        have := hgr e he
        simp only
        omega
      · intro a ha e he
        rcases List.mem_cons.1 he with rfl | he'
        · exact hcross a ha b (by simp)
        · exact hcross a ha e (by simp [he'])
    · exact ho

/-- Linking `b` in at the cursor behind `xs` puts it between `xs` and `ys`. -/
theorem link_spec (hc : h.FreeChain .head (xs ++ ys)) (hb : h.size b.addr + headerSize = b.len)
    (ho : Ordered (xs ++ b :: ys)) :
    ((h.setNext b.addr (h.deref (Cursor.head.after xs))).assign (Cursor.head.after xs)
      b.addr).FreeChain .head (xs ++ b :: ys) := by
  obtain ⟨hseg, hrest⟩ := freeChain_append.1 hc
  have hba := ho.aligned b (by simp)
  have hb8 := ho.eight_le (c := b) (by simp)
  have hbs := ho.stop_le b (by simp)
  have hxa : ∀ d ∈ xs, d.addr % 8 = 0 := fun d hd ↦ ho.aligned d (by simp [hd])
  have hya : ∀ d ∈ ys, d.addr % 8 = 0 := fun d hd ↦ ho.aligned d (by simp [hd])
  have hxb : ∀ d ∈ xs, d.addr ≠ b.addr := by
    intro d hd
    have := ho.header_end_le hd
    omega
  have hyb : ∀ d ∈ ys, b.addr < d.addr := by
    intro d hd
    have := ho.stop_le_addr hd
    omega
  have hcur := ho.onHeader_after
  have hdlt : h.deref (Cursor.head.after xs) < 2 ^ 32 := by
    cases ys with
    | nil =>
      rw [show h.deref (Cursor.head.after xs) = 0 from hrest]
      decide
    | cons g gs =>
      rw [hrest.1]
      have := ho.stop_le g (by simp)
      have := ho.eight_le (c := g) (by simp)
      omega
  -- two words are written: the successor of `b`, and the word the cursor points to
  refine freeChain_append.2 ⟨hseg.frame deref_head_assign_after ?_ ?_
    ho.nodup_left, deref_assign_self (by omega), (ho.addr_pos b (by simp)).ne', ?_,
    hrest.move ?_ fun d hd ↦ ⟨?_, ?_⟩⟩
  · intro d hd
    rw [size_assign hcur (hxa d hd), size_setNext hba (hxa d hd)]
  · intro d hd hd'
    rw [next_assign hcur (hxa d hd) hd', next_setNext_of_ne hba (hxa d hd) (hxb d hd)]
  · rw [size_assign hcur hba, size_setNext hba hba, hb]
  · show Heap.next _ b.addr = _
    rw [next_assign hcur hba (ho.after_ne le_rfl).symm, next_setNext_self, u32_of_lt hdlt]
  · rw [size_assign hcur (hya d hd), size_setNext hba (hya d hd)]
  · rw [next_assign hcur (hya d hd) (ho.after_ne (hyb d hd).le).symm,
      next_setNext_of_ne hba (hya d hd) (hyb d hd).ne']

/-- Linking a block writes its header and one in front of it. -/
theorem link_writesOnly {v : ℕ} : WritesOnly (InHeader (xs ++ b :: ys)) h
    ((h.setNext b.addr v).assign (Cursor.head.after xs) b.addr) := by
  refine (writesOnly_store ?_).trans (writesOnly_assign ?_)
  · intro x h₁ h₂
    exact ⟨b, by simp, by omega, show x < b.addr + 8 by omega⟩
  · intro q hq x h₁ h₂
    exact (inHeader_of_after hq h₁ h₂).mono fun d hd ↦ List.mem_append_left _ hd

/-- Forward coalescing in the middle of a list: what is in front of `b` stays. -/
theorem mergeNext_fuses (hc : h.FreeChain .head (xs ++ b :: ys)) (ho : Ordered (xs ++ b :: ys)) :
    (mergeNext b.addr h).FreeChain .head (xs ++ fuse b ys) ∧
      WritesOnly (InHeader [b]) h (mergeNext b.addr h) := by
  obtain ⟨hseg, hsuffix⟩ := freeChain_append.1 hc
  have hw : WritesOnly (InHeader [b]) h (mergeNext b.addr h) :=
    mergeNext_writesOnly fun x h₁ h₂ ↦ ⟨b, by simp, h₁, h₂⟩
  refine ⟨freeChain_append.2 ⟨?_, ?_⟩, hw⟩
  · refine hseg.of_writesOnly hw freeListHead_mergeNext ?_ ho.nodup_left
    rintro d hd x - h₂ ⟨e, he, h₃, -⟩
    have := ho.header_end_le hd
    rw [List.mem_singleton] at he
    subst he
    omega
  · exact mergeNext_spec hsuffix (ho.sublist (List.sublist_append_right ..)) ho.onHeader_after
      (ho.after_ne le_rfl)

/-- Backward coalescing: the block in front of `b` is found and fused with it. -/
theorem mergePrev_fuses (hc : h.FreeChain .head (xs ++ p :: b :: ys))
    (ho : Ordered (xs ++ p :: b :: ys)) (hlen : xs.length < listFuel) :
    predecessor b.addr listFuel h.freeListHead h = some p.addr ∧
      (mergePrev p.addr b.addr h).FreeChain .head (xs ++ fuse p (b :: ys)) ∧
      WritesOnly (InHeader [p]) h (mergePrev p.addr b.addr h) ∧
      (mergePrev p.addr b.addr h).live = h.live := by
  have ho' : Ordered ((xs ++ [p]) ++ b :: ys) := by simpa using ho
  obtain ⟨-, -, hpnull, -, hbptr, hbnull, -⟩ := freeChain_append.1 hc
  have hmerge := mergePrev_eq_mergeNext (ho.aligned p (by simp)) hpnull hbnull
    (show h.next p.addr = b.addr from hbptr)
  obtain ⟨hchain, hw⟩ := mergeNext_fuses hc ho
  refine ⟨predecessor_eq hc hlen ?_ ?_, hmerge ▸ hchain, hmerge ▸ hw, by
    rw [hmerge, live_mergeNext]⟩
  · intro e he
    have := ho'.header_end_le (List.mem_append_left [p] he)
    omega
  · have := ho'.header_end_le (d := p) (by simp)
    omega

/-- **`insert_free_block_sorted`**: the block is fused with the blocks behind its place, and
the last block in front of its place with the result. Only block headers are written. -/
theorem insertFreeBlockSorted_spec (hc : h.FreeChain .head (xs ++ ys))
    (hb : h.size b.addr + headerSize = b.len) (ho : Ordered (xs ++ b :: ys))
    (hlen : xs.length < listFuel) :
    ∃ h', insertFreeBlockSorted b.addr h = some h' ∧
      h'.FreeChain .head (match xs.getLast? with
        | none => fuse b ys
        | some p => xs.dropLast ++ fuse p (fuse b ys)) ∧
      WritesOnly (InHeader (xs ++ b :: ys)) h h' ∧ h'.live = h.live := by
  have hpoint : insertionPoint b.addr listFuel .head h = some (Cursor.head.after xs) := by
    refine insertionPoint_eq hc hlen ?_ ?_
    · intro d hd
      have := ho.header_end_le hd
      omega
    · intro d hd
      have := ho.stop_le_addr hd
      omega
  have hlinked := link_spec hc hb ho
  have hw₁ : WritesOnly (InHeader (xs ++ b :: ys)) h
      ((h.setNext b.addr (h.deref (Cursor.head.after xs))).assign (Cursor.head.after xs)
        b.addr) := link_writesOnly
  have hnull : b.addr ≠ 0 := (ho.addr_pos b (by simp)).ne'
  rw [insertFreeBlockSorted, if_neg hnull, hpoint]
  simp only [Option.bind_eq_bind, Option.bind_some]
  have hlive₁ : ((h.setNext b.addr (h.deref (Cursor.head.after xs))).assign
      (Cursor.head.after xs) b.addr).live = h.live := by rw [live_assign, live_setNext]
  generalize (h.setNext b.addr (h.deref (Cursor.head.after xs))).assign (Cursor.head.after xs)
    b.addr = h₁ at hlinked hw₁ hlive₁
  -- forward: the block and what follows it
  obtain ⟨hchain₂, hw₂⟩ := mergeNext_fuses hlinked ho
  have hw₁₂ := hw₁.trans (hw₂.mono fun x hx ↦ hx.mono (by simp))
  have hlive₂ : (mergeNext b.addr h₁).live = h.live := by rw [live_mergeNext, hlive₁]
  generalize mergeNext b.addr h₁ = h₂ at hchain₂ hw₁₂ hlive₂
  rcases List.eq_nil_or_concat' xs with rfl | ⟨zs, p, rfl⟩
  · exact ⟨h₂, rfl, hchain₂, hw₁₂, hlive₂⟩
  · -- backward: the block in front and the result, which starts where `b` does
    obtain ⟨b', rest, hfuse, hb'⟩ := exists_fuse_eq_cons b ys
    have hchain₃ : h₂.FreeChain .head (zs ++ p :: b' :: rest) := by
      simpa [hfuse] using hchain₂
    have ho₃ : Ordered (zs ++ p :: b' :: rest) := by simpa [hfuse] using ho.fuse
    rw [List.length_append, List.length_singleton] at hlen
    obtain ⟨hpred, hchain₄, hw₄, hlive₄⟩ := mergePrev_fuses hchain₃ ho₃ (by omega)
    rw [hb'] at hpred hchain₄ hw₄ hlive₄
    refine ⟨mergePrev p.addr b.addr h₂, ?_, ?_,
      hw₁₂.trans (hw₄.mono fun x hx ↦ hx.mono (by simp)), hlive₄.trans hlive₂⟩
    · rw [Cursor.after_append_singleton, if_neg (fun hcon ↦ Cursor.noConfusion hcon), hpred,
        Option.bind_some]
    · rw [List.getLast?_append, List.getLast?_singleton]
      simp only [Option.some_or, List.dropLast_concat, hfuse]
      exact hchain₄

/-! ### Taking -/

/-- What stays unused of a block that serves a request of `n` bytes. -/
def remainder (n : ℕ) (c : Cell) : List Cell :=
  if n + 32 ≤ c.len then [⟨c.addr + (n + 8), c.len - (n + 8), false⟩] else []

/-- The size recorded in a block that serves a request of `n` bytes. -/
def grantedSize (n : ℕ) (c : Cell) : ℕ := if n + 32 ≤ c.len then n else c.len - 8

/-- The stores that split `block`: the header of the new block at `r`, of size `s`, the link to
it, and the size `n` that `block` keeps. -/
def cut (h : Heap) (cur : Cursor) (block n r s : ℕ) : Heap :=
  (((h.setSize r s).setNext r ((h.setSize r s).next block)).assign cur r).setSize block n

section Cut

variable {block q r s : ℕ}

theorem size_cut_of_ne (hcur : OnHeader cur) (hblock : block % 8 = 0) (hr : r % 8 = 0)
    (hq : q % 8 = 0) (hqr : q ≠ r) (hqb : q ≠ block) :
    (h.cut cur block n r s).size q = h.size q := by
  rw [cut, size_setSize_of_ne hblock hq hqb, size_assign hcur hq, size_setNext hr hq,
    size_setSize_of_ne hr hq hqr]

theorem next_cut_of_ne (hcur : OnHeader cur) (hblock : block % 8 = 0) (hr : r % 8 = 0)
    (hq : q % 8 = 0) (hqr : q ≠ r) (hqcur : Cursor.next q ≠ cur) :
    (h.cut cur block n r s).next q = h.next q := by
  rw [cut, next_setSize hblock hq, next_assign hcur hq hqcur, next_setNext_of_ne hr hq hqr,
    next_setSize hr hq]

@[simp]
theorem live_cut : (h.cut cur block n r s).live = h.live := by
  rw [cut, live_setSize, live_assign, live_setNext, live_setSize]

end Cut

/-- **Splitting a block** puts the new block in its place on the list. -/
theorem cut_spec (hc : h.FreeChain .head (xs ++ c :: ys)) (ho : Ordered (xs ++ c :: ys))
    (hn : n % 8 = 0) (hsplit : n + 32 ≤ c.len) (hbase : 0 < c.addr) :
    (h.cut (Cursor.head.after xs) c.addr n (c.addr + (n + 8)) (c.len - (n + 8) - 8)).FreeChain
      .head (xs ++ ⟨c.addr + (n + 8), c.len - (n + 8), false⟩ :: ys) := by
  obtain ⟨hseg, hptr, -, hsize, hrest⟩ := freeChain_append.1 hc
  have hca := ho.aligned c (by simp)
  have hcs := ho.stop_le c (by simp)
  have hxa : ∀ d ∈ xs, d.addr % 8 = 0 := fun d hd ↦ ho.aligned d (by simp [hd])
  have hya : ∀ d ∈ ys, d.addr % 8 = 0 := fun d hd ↦ ho.aligned d (by simp [hd])
  have hcur := ho.onHeader_after
  have hra : (c.addr + (n + 8)) % 8 = 0 := by omega
  -- the header of the remainder lies inside `c`, where no other header is
  refine freeChain_append.2 ⟨hseg.frame ?_ ?_ ?_
    ho.nodup_left, ?_, ?_, ?_, hrest.move ?_ fun d hd ↦ ⟨?_, ?_⟩⟩
  · intro hne
    exact deref_head_assign_after (h := (h.setSize _ _).setNext _ _) hne
  · intro d hd
    have := ho.header_end_le hd
    exact size_cut_of_ne hcur hca hra (hxa d hd) (by omega) (by omega)
  · intro d hd hd'
    have := ho.header_end_le hd
    exact next_cut_of_ne hcur hca hra (hxa d hd) (by omega) hd'
  · rw [cut, deref_setSize hca hcur, deref_assign_self (by omega)]
  · simp only
    omega
  · show Heap.size _ (c.addr + (n + 8)) + 8 = c.len - (n + 8)
    rw [cut, size_setSize_of_ne hca hra (by omega), size_assign hcur hra, size_setNext hra hra,
      size_setSize_self, u32_of_lt (by omega)]
    omega
  · show Heap.next _ (c.addr + (n + 8)) = h.next c.addr
    rw [cut, next_setSize hca hra, next_assign hcur hra (ho.after_ne (by omega)).symm,
      next_setNext_self, next_setSize hra hca, u32_of_lt (next_lt h c.addr)]
  · have := ho.stop_le_addr hd
    exact size_cut_of_ne hcur hca hra (hya d hd) (by omega) (by omega)
  · have := ho.stop_le_addr hd
    exact next_cut_of_ne hcur hca hra (hya d hd) (by omega) (ho.after_ne (by omega)).symm

/-- **Unlinking a block** takes it off the list whole. -/
theorem unlink_spec (hc : h.FreeChain .head (xs ++ c :: ys)) (ho : Ordered (xs ++ c :: ys)) :
    (h.assign (Cursor.head.after xs) (h.next c.addr)).FreeChain .head (xs ++ ys) := by
  obtain ⟨hseg, -, -, -, hrest⟩ := freeChain_append.1 hc
  have hcur := ho.onHeader_after
  have hxa : ∀ d ∈ xs, d.addr % 8 = 0 := fun d hd ↦ ho.aligned d (by simp [hd])
  have hya : ∀ d ∈ ys, d.addr % 8 = 0 := fun d hd ↦ ho.aligned d (by simp [hd])
  refine freeChain_append.2 ⟨hseg.frame deref_head_assign_after
    (fun d hd ↦ size_assign hcur (hxa d hd)) (fun d hd hd' ↦ next_assign hcur (hxa d hd) hd')
    ho.nodup_left, hrest.move (deref_assign_self (next_lt h c.addr)) fun d hd ↦
      ⟨size_assign hcur (hya d hd), next_assign hcur (hya d hd) ?_⟩⟩
  have := ho.stop_le_addr hd
  exact (ho.after_ne (by omega)).symm

/-- **The body of `kmalloc`'s loop**: on the list, the block is replaced by its remainder. -/
theorem detachBlock_spec (hc : h.FreeChain .head (xs ++ c :: ys)) (ho : Ordered (xs ++ c :: ys))
    (hn : n % 8 = 0) (hfit : n + 8 ≤ c.len) (hbase : 16 < c.addr) :
    (detachBlock n (Cursor.head.after xs) c.addr h).FreeChain .head (xs ++ (remainder n c ++ ys)) ∧
      (detachBlock n (Cursor.head.after xs) c.addr h).size c.addr = grantedSize n c ∧
      WritesOnly (fun x ↦ InHeader xs x ∨ c.Covers x) h
        (detachBlock n (Cursor.head.after xs) c.addr h) ∧
      (detachBlock n (Cursor.head.after xs) c.addr h).live = h.live := by
  have hcs := ho.stop_le c (by simp)
  have hsize : h.size c.addr + 8 = c.len := (freeChain_append.1 hc).2.2.2.1
  rw [detachBlock, headerSize, minAllocSize, u32_of_lt (x := n + 8 + 16) (by omega), remainder,
    grantedSize]
  rcases Nat.lt_or_ge c.len (n + 32) with hwhole | hsplit
  -- too little would be left for a block of its own
  · rw [if_neg (by omega), if_neg (by omega), if_neg (by omega), List.nil_append]
    refine ⟨unlink_spec hc ho, ?_,
      writesOnly_assign fun q hq x h₁ h₂ ↦ Or.inl (inHeader_of_after hq h₁ h₂), live_assign⟩
    rw [size_assign ho.onHeader_after (ho.aligned c (by simp))]
    omega
  · have hlen : sub32 (sub32 (h.size c.addr) n) 8 = c.len - (n + 8) - 8 := by
      rw [sub32_of_le (x := h.size c.addr) (by omega) (size_lt h _),
        sub32_of_le (by omega) (by omega)]
      omega
    have hnew : u32 (c.addr + 8 + n) = c.addr + (n + 8) := by
      rw [u32_of_lt (by omega)]
      omega
    rw [if_pos (by omega), if_pos hsplit, if_pos hsplit, hlen, hnew]
    refine ⟨cut_spec hc ho hn hsplit (by omega), ?_, ?_, live_cut⟩
    · rw [size_setSize_self, u32_of_lt (by omega)]
    · refine (((writesOnly_store fun x h₁ h₂ ↦ ?_).trans (writesOnly_store fun x h₁ h₂ ↦ ?_)).trans
        (writesOnly_assign fun q hq x h₁ h₂ ↦ Or.inl (inHeader_of_after hq h₁ h₂))).trans
        (writesOnly_store fun x h₁ h₂ ↦ ?_) <;>
        exact Or.inr ⟨by omega, by omega⟩

end Heap
