import Mathlib.Algebra.BigOperators.Group.List.Basic
import Mathlib.Tactic.Common

/-!
# Runs with labels

A system whose steps carry labels, and a run as the list of its labels. What every step keeps a run
keeps (`Trace.invariant`), and what every step adds to a quantity a run adds up (`Trace.sum`).

Another system simulates it that takes a step for some of the labels and none for the others. Every
run is matched then by a run of the labels that are left (`Simulates.exists_trace`).
-/

variable {α β γ M σ τ : Type*} {step : α → σ → σ → Prop} {step' : β → τ → τ → Prop}
  {label : α → Option β} {a : α} {as bs : List α} {s s' u : σ} {t : τ}

/-- A run, by its labels. -/
def Trace (step : α → σ → σ → Prop) : List α → σ → σ → Prop
  | [], s, s' => s = s'
  | a :: as, s, s' => ∃ u, step a s u ∧ Trace step as u s'

/-- Related states stay related if the other system takes the step that a label stands for. -/
def Simulates (step : α → σ → σ → Prop) (step' : β → τ → τ → Prop) (label : α → Option β)
    (R : σ → τ → Prop) : Prop :=
  ∀ a s u t, R s t → step a s u → ∃ t', Trace step' (label a).toList t t' ∧ R u t'

namespace Trace

theorem append (h : Trace step as s u) (h' : Trace step bs u s') :
    Trace step (as ++ bs) s s' := by
  induction as generalizing s with
  | nil =>
    cases h
    exact h'
  | cons a as ih =>
    obtain ⟨v, hstep, hrest⟩ := h
    exact ⟨v, hstep, ih hrest⟩

theorem of_append (h : Trace step (as ++ bs) s s') :
    ∃ u, Trace step as s u ∧ Trace step bs u s' := by
  induction as generalizing s with
  | nil => exact ⟨s, rfl, h⟩
  | cons a as ih =>
    obtain ⟨v, hstep, hrest⟩ := h
    obtain ⟨u, hfirst, hlast⟩ := ih hrest
    exact ⟨u, ⟨v, hstep, hfirst⟩, hlast⟩

/-- What every step keeps. -/
theorem invariant {P : σ → Prop} (hP : ∀ a s u, P s → step a s u → P u)
    (h : Trace step as s s') (hs : P s) : P s' := by
  induction as generalizing s with
  | nil =>
    cases h
    exact hs
  | cons a as ih =>
    obtain ⟨u, hstep, hrest⟩ := h
    exact ih hrest (hP a s u hs hstep)

/-- What every step adds, while an invariant holds. -/
theorem sum [AddMonoid M] {P : σ → Prop} {f : σ → M} {g : α → M}
    (hP : ∀ a s u, P s → step a s u → P u) (hf : ∀ a s u, P s → step a s u → f u = f s + g a)
    (h : Trace step as s s') (hs : P s) : f s' = f s + (as.map g).sum := by
  induction as generalizing s with
  | nil =>
    cases h
    exact (add_zero _).symm
  | cons a as ih =>
    obtain ⟨u, hstep, hrest⟩ := h
    rw [ih hrest (hP a s u hs hstep), hf a s u hs hstep, List.map_cons, List.sum_cons, add_assoc]

/-- What every step does, done one after the other. -/
theorem compose {P : σ → Prop} {R : List β → List γ → σ → σ → Prop} {f : α → List β}
    {g : α → List γ} (hrefl : ∀ s, R [] [] s s)
    (htrans : ∀ {bs bs' cs cs' s t u}, R bs cs s t → R bs' cs' t u → R (bs ++ bs') (cs ++ cs') s u)
    (hstep : ∀ a ∈ as, ∀ s u, P s → step a s u → P u ∧ R (f a) (g a) s u)
    (h : Trace step as s s') (hs : P s) : P s' ∧ R (as.flatMap f) (as.flatMap g) s s' := by
  induction as generalizing s with
  | nil =>
    cases h
    exact ⟨hs, hrefl _⟩
  | cons a as ih =>
    obtain ⟨u, hfirst, hrest⟩ := h
    obtain ⟨hu, hR⟩ := hstep a List.mem_cons_self s u hs hfirst
    obtain ⟨hs', hR'⟩ := ih (fun b hb ↦ hstep b (List.mem_cons_of_mem _ hb)) hrest hu
    exact ⟨hs', htrans hR hR'⟩

end Trace

/-- **Simulation** carries over to runs. -/
theorem Simulates.exists_trace {R : σ → τ → Prop} (hsim : Simulates step step' label R)
    (h : Trace step as s s') (hR : R s t) :
    ∃ t', Trace step' (as.filterMap label) t t' ∧ R s' t' := by
  induction as generalizing s t with
  | nil =>
    cases h
    exact ⟨t, rfl, hR⟩
  | cons a as ih =>
    obtain ⟨u, hstep, hrest⟩ := h
    obtain ⟨v, hmatch, hu⟩ := hsim a s u t hR hstep
    obtain ⟨t', hmatches, hR'⟩ := ih hrest hu
    refine ⟨t', ?_, hR'⟩
    rw [List.filterMap_cons]
    cases hlabel : label a with
    | none =>
      rw [hlabel] at hmatch
      cases hmatch
      exact hmatches
    | some b =>
      rw [hlabel] at hmatch
      obtain ⟨w, hstep', rfl⟩ := hmatch
      exact ⟨_, hstep', hmatches⟩
