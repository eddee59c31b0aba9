import Mathlib.Data.List.Range
import Mathlib.Data.List.Sort
import Mathlib.Order.Basic
import Mathlib.Order.Nat

/-!
# First extrema

The first index of a largest or a smallest value of a list.
-/

namespace Vllm.Library

variable {α : Type} [LinearOrder α] {values : List α}

/-- The first index of a largest value. -/
def firstMaximum (values : List α) : Nat :=
  values.findIdx fun value => values.all fun other => decide (other ≤ value)

theorem exists_all_le (nonempty : values ≠ []) : ∃ value ∈ values, ∀ other ∈ values, other ≤ value := by
  induction values with
  | nil => exact absurd rfl nonempty
  | cons first values inductionHypothesis =>
      by_cases empty : values = []
      · subst empty
        exact ⟨first, List.mem_cons_self, by simp⟩
      · rcases inductionHypothesis empty with ⟨value, member, largest⟩
        rcases le_total first value with less | more
        · refine ⟨value, List.mem_cons_of_mem _ member, ?_⟩
          rw [List.forall_mem_cons]
          exact ⟨less, largest⟩
        · refine ⟨first, List.mem_cons_self, ?_⟩
          rw [List.forall_mem_cons]
          exact ⟨le_refl first, fun other inside => (largest other inside).trans more⟩

theorem firstMaximum_lt (nonempty : values ≠ []) : firstMaximum values < values.length := by
  rcases exists_all_le nonempty with ⟨value, member, largest⟩
  apply List.findIdx_lt_length_of_exists
  refine ⟨value, member, ?_⟩
  rw [List.all_eq_true]
  exact fun other inside => decide_eq_true (largest other inside)

theorem le_firstMaximum (inside : firstMaximum values < values.length) {other : α}
    (member : other ∈ values) : other ≤ values[firstMaximum values] := by
  have largest := List.findIdx_getElem (w := inside)
  rw [List.all_eq_true] at largest
  exact of_decide_eq_true (largest other member)

/-- A value before the first largest one is not largest. -/
theorem exists_lt_of_lt_firstMaximum {index : Nat} (before : index < firstMaximum values)
    (inside : index < values.length) : ∃ other ∈ values, values[index] < other := by
  by_contra none_
  have missed := List.not_of_lt_findIdx before
  rw [List.all_eq_false] at missed
  rcases missed with ⟨other, member, above⟩
  apply none_
  exact ⟨other, member, lt_of_not_ge fun below => above (decide_eq_true below)⟩

end Vllm.Library

/-!
## Sorting indices

The indices of a list in the order of their keys.  The order of equal keys is left open.
-/
