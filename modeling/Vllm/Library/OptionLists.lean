import Mathlib.Data.List.Forall2
import Mathlib.Data.List.Perm.Subperm
import Mathlib.Data.List.Range
import Mathlib.Order.Nat

/-!
# Lists of partial results

Operations on lists that can fail at an entry, writes at given indices, and permutations of
indices.
-/

namespace Vllm.Library

open List (Forall₂)

variable {α β : Type}

/-- An operation that succeeds on each element succeeds on the list. -/
theorem mapM_forall₂ {f : α → Option β} {P : α → β → Prop} {xs : List α}
    (each : ∀ x ∈ xs, ∃ y, f x = some y ∧ P x y) : ∃ ys, xs.mapM f = some ys ∧ Forall₂ P xs ys := by
  induction xs with
  | nil => exact ⟨[], rfl, Forall₂.nil⟩
  | cons x xs inductionHypothesis =>
      rcases each x List.mem_cons_self with ⟨y, value, holds⟩
      rcases inductionHypothesis fun other member => each other (List.mem_cons_of_mem _ member) with
        ⟨ys, values, all⟩
      refine ⟨y :: ys, ?_, Forall₂.cons holds all⟩
      simp [List.mapM_cons, value, values]

end Vllm.Library
