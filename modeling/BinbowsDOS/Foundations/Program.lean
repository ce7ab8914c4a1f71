import Mathlib.Tactic.Common

/-!
# Deterministic state programs that may run forever

`Prog σ α` is a program on states `σ`: given a state it returns a value and a new state, or
`none`, which stands for a run that does not end. `Runs m s a s'` is a finished run, and
`runs_bind` takes the run of a sequence apart.

Two ways of reasoning are supported. A total one rewrites with `bind_apply` and the equations of
the parts. A partial one, for programs whose environment is unknown, bounds what any finished
run can do: `Respects R m` says that every run of `m` relates its first state to its last one by
the preorder `R`, and the rules below carry this through the program constructs.

A program with a loop takes a bound on its passes. `Ends m s a s'` says that from some bound on it
ends, and how.
-/

/-- A deterministic program on the state `σ` that may run forever. -/
abbrev Prog (σ α : Type) := StateT σ Option α

namespace Prog

variable {σ α β : Type} {m : Prog σ α} {f : α → Prog σ β} {s s' : σ} {a : α} {b : β}

/-- The program `m` started in `s` ends in `s'` with the value `a`. -/
def Runs (m : Prog σ α) (s : σ) (a : α) (s' : σ) : Prop := m s = some (a, s')

theorem bind_apply : (m >>= f) s = (m s).bind fun p ↦ f p.1 p.2 := rfl

theorem pure_apply : (pure a : Prog σ α) s = some (a, s) := rfl

theorem get_apply : (get : Prog σ σ) s = some (s, s) := rfl

theorem modify_apply {g : σ → σ} : (modify g : Prog σ PUnit) s = some (⟨⟩, g s) := rfl

/-- A sequence whose first part is known to run continues with the second. -/
theorem bind_apply_of_runs (h : m s = some (a, s')) : (m >>= f) s = f a s' := by
  rw [bind_apply, h, Option.bind_some]

@[simp]
theorem runs_pure {a' : α} : Runs (pure a' : Prog σ α) s a s' ↔ a' = a ∧ s = s' := by
  simp [Runs, pure_apply]

@[simp]
theorem runs_get {t : σ} : Runs (get : Prog σ σ) s t s' ↔ s = t ∧ s = s' := by
  simp [Runs, get_apply]

@[simp]
theorem runs_modify {g : σ → σ} {u : PUnit} : Runs (modify g : Prog σ PUnit) s u s' ↔ g s = s' := by
  simp [Runs, modify_apply]

/-- A run of a sequence is a run of the first part followed by one of the second. -/
theorem runs_bind :
    Runs (m >>= f) s b s' ↔ ∃ a t, Runs m s a t ∧ Runs (f a) t b s' := by
  simp only [Runs, bind_apply, Option.bind_eq_some_iff, Prod.exists]

@[simp]
theorem runs_get_bind {f : σ → Prog σ β} : Runs (get >>= f) s b s' ↔ Runs (f s) s b s' := Iff.rfl

/-- A run of a sequence whose first part is known to run. -/
theorem runs_bind_of_runs {t : σ} (h : m s = some (a, t)) :
    Runs (m >>= f) s b s' ↔ Runs (f a) t b s' := by
  rw [Runs, bind_apply_of_runs h, Runs]

/-- Sequences that go on alike after every run of their first part. -/
theorem bind_congr_of_runs {g : α → Prog σ β} (h : ∀ a t, Runs m s a t → f a t = g a t) :
    (m >>= f) s = (m >>= g) s := by
  rw [bind_apply, bind_apply]
  exact Option.bind_congr fun p hp ↦ h p.1 p.2 hp

/-- A program has at most one run from a state. -/
theorem Runs.unique {a' : α} {t : σ} (h₁ : Runs m s a s') (h₂ : Runs m s a' t) :
    a = a' ∧ s' = t :=
  Prod.mk.inj (Option.some.inj (h₁.symm.trans h₂))

/-! ### What any run can do -/

/-- Every run of `m` relates its first state to its last one by `R`. -/
def Respects (R : σ → σ → Prop) (m : Prog σ α) : Prop := ∀ s a s', Runs m s a s' → R s s'

section Respects

variable {R S : σ → σ → Prop} (hrefl : ∀ s, R s s) (htrans : ∀ s t u, R s t → R t u → R s u)

include hrefl in
theorem respects_pure (a : α) : Respects R (pure a : Prog σ α) := by
  rintro s _ s' h
  obtain ⟨-, rfl⟩ := runs_pure.1 h
  exact hrefl s

include hrefl in
theorem respects_get : Respects R (get : Prog σ σ) := by
  rintro s _ s' h
  obtain ⟨-, rfl⟩ := runs_get.1 h
  exact hrefl s

include htrans in
theorem respects_bind (hm : Respects R m) (hf : ∀ a, Respects R (f a)) : Respects R (m >>= f) := by
  rintro s b s' h
  obtain ⟨a, t, h₁, h₂⟩ := runs_bind.1 h
  exact htrans s t s' (hm s a t h₁) (hf a t b s' h₂)

theorem respects_ite {P : Prop} [Decidable P] {m₁ m₂ : Prog σ α} (h₁ : Respects R m₁)
    (h₂ : Respects R m₂) : Respects R (if P then m₁ else m₂) := by
  split
  · exact h₁
  · exact h₂

theorem Respects.run (hm : Respects R m) (h : Runs m s a s') : R s s' := hm s a s' h

theorem Respects.mono (hm : Respects R m) (hRS : ∀ s t, R s t → S s t) : Respects S m :=
  fun s a s' h ↦ hRS s s' (hm s a s' h)

end Respects

/-! ### Seeing a program through a projection -/

/-- `m'` does on projected states what `m` does: forgetting a part of the state by `π` before a
run or after it comes to the same. -/
def Projects {τ : Type} (π : σ → τ) (m : Prog σ α) (m' : Prog τ α) : Prop :=
  ∀ s, m' (π s) = (m s).map fun p ↦ (p.1, π p.2)

section Projects

variable {τ : Type} {π : σ → τ} {m₁ m₂ : Prog σ α} {m' m₁' m₂' : Prog τ α} {f' : α → Prog τ β}

theorem projects_pure (a : α) : Projects π (pure a) (pure a) := fun _ ↦ rfl

theorem projects_diverge : Projects π (fun _ ↦ none : Prog σ α) (fun _ ↦ none) := fun _ ↦ rfl

theorem projects_bind (hm : Projects π m m') (hf : ∀ a, Projects π (f a) (f' a)) :
    Projects π (m >>= f) (m' >>= f') := by
  intro s
  rw [bind_apply, bind_apply, hm s]
  cases hrun : m s with
  | none => rfl
  | some p => exact hf p.1 p.2

theorem projects_get_bind {g : σ → Prog σ β} {g' : τ → Prog τ β}
    (hg : ∀ s, Projects π (g s) (g' (π s))) : Projects π (get >>= g) (get >>= g') :=
  fun s ↦ hg s s

theorem projects_modify {g : σ → σ} {g' : τ → τ} (hg : ∀ s, π (g s) = g' (π s)) :
    Projects π (modify g : Prog σ PUnit) (modify g') := by
  intro s
  rw [modify_apply, modify_apply, ← hg s]
  rfl

theorem projects_ite {P : Prop} [Decidable P] (h₁ : Projects π m₁ m₁') (h₂ : Projects π m₂ m₂') :
    Projects π (if P then m₁ else m₂) (if P then m₁' else m₂') := by
  split
  · exact h₁
  · exact h₂

/-- A run of the projected program comes from one of the program. -/
theorem Projects.lift {t : τ} (h : Projects π m m') (hrun : m' (π s) = some (a, t)) :
    ∃ s', m s = some (a, s') ∧ π s' = t := by
  rw [h s, Option.map_eq_some_iff] at hrun
  obtain ⟨⟨a', s'⟩, hm, heq⟩ := hrun
  obtain ⟨rfl, rfl⟩ := Prod.mk.inj heq
  exact ⟨s', hm, rfl⟩

end Projects

/-! ### Enough fuel -/

/-- With enough fuel the program `m`, started in `s`, ends in `s'` with the value `a`. -/
def Ends (m : ℕ → Prog σ α) (s : σ) (a : α) (s' : σ) : Prop :=
  ∃ fuel₀, ∀ fuel ≥ fuel₀, Runs (m fuel) s a s'

section Ends

variable {m m' : ℕ → Prog σ α} {f : ℕ → α → Prog σ β} {s s' t : σ} {a a' : α} {b : β}

theorem ends_of_runs (h : ∀ fuel, Runs (m fuel) s a s') : Ends m s a s' := ⟨0, fun fuel _ ↦ h fuel⟩

theorem Ends.bind (h₁ : Ends m s a t) (h₂ : Ends (fun fuel ↦ f fuel a) t b s') :
    Ends (fun fuel ↦ m fuel >>= f fuel) s b s' := by
  obtain ⟨n₁, h₁⟩ := h₁
  obtain ⟨n₂, h₂⟩ := h₂
  refine ⟨max n₁ n₂, fun fuel hfuel ↦ ?_⟩
  exact runs_bind.2 ⟨a, t, h₁ fuel (Nat.le_trans (Nat.le_max_left ..) hfuel),
    h₂ fuel (Nat.le_trans (Nat.le_max_right ..) hfuel)⟩

/-- A loop whose first pass takes one from the fuel. -/
theorem Ends.of_succ (h : Ends (fun fuel ↦ m (fuel + 1)) s a s') : Ends m s a s' := by
  obtain ⟨n, h⟩ := h
  refine ⟨n + 1, fun fuel hfuel ↦ ?_⟩
  obtain ⟨k, rfl⟩ := Nat.exists_eq_add_of_le' (show 1 ≤ fuel by omega)
  exact h k (Nat.le_of_succ_le_succ hfuel)

/-- A program that goes on as another one does from `t`. -/
theorem Ends.congr (heq : ∀ fuel, m' fuel s = m fuel t) (h : Ends m t a s') : Ends m' s a s' := by
  obtain ⟨n, h⟩ := h
  exact ⟨n, fun fuel hfuel ↦ (heq fuel).trans (h fuel hfuel)⟩

theorem Ends.unique (h₁ : Ends m s a s') (h₂ : Ends m s a' t) : a = a' ∧ s' = t := by
  obtain ⟨n₁, h₁⟩ := h₁
  obtain ⟨n₂, h₂⟩ := h₂
  exact (h₁ _ (Nat.le_max_left n₁ n₂)).unique (h₂ _ (Nat.le_max_right n₁ n₂))

theorem Ends.exists_runs (h : Ends m s a s') : ∃ fuel, Runs (m fuel) s a s' := by
  obtain ⟨n, h⟩ := h
  exact ⟨n, h n (Nat.le_refl n)⟩

/-- Seen through a projection. -/
theorem Ends.project {τ : Type} {π : σ → τ} {m' : ℕ → Prog τ α}
    (hm : ∀ fuel, Projects π (m fuel) (m' fuel)) (h : Ends m s a s') : Ends m' (π s) a (π s') := by
  obtain ⟨n, h⟩ := h
  refine ⟨n, fun fuel hfuel ↦ ?_⟩
  rw [Runs, hm fuel s, show m fuel s = some (a, s') from h fuel hfuel, Option.map_some]

end Ends

end Prog
