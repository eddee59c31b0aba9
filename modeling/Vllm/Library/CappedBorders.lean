import Mathlib.Data.List.Basic
import Mathlib.Order.Nat

/-!
# Borders

A border of length `v` of a prefix of length `i`: the first `v` entries are also its last `v`.
-/

namespace Vllm.Library

variable {α : Type} {entry : Nat → α} {u v i : Nat}

/-- The first `v` entries are the last `v` of the first `i`. -/
def Border (entry : Nat → α) (v i : Nat) : Prop :=
  v ≤ i ∧ ∀ j < v, entry j = entry (i - v + j)

theorem Border.zero (entry : Nat → α) (i : Nat) : Border entry 0 i :=
  ⟨Nat.zero_le i, fun _ inside => absurd inside (Nat.not_lt_zero _)⟩

/-- A border grows by an equal entry. -/
theorem border_succ_iff : Border entry (v + 1) (i + 1) ↔ Border entry v i ∧ entry v = entry i := by
  constructor
  · rintro ⟨short, same⟩
    have short : v ≤ i := Nat.le_of_succ_le_succ short
    refine ⟨⟨short, ?_⟩, ?_⟩
    · intro j inside
      have place : i + 1 - (v + 1) + j = i - v + j := by omega
      rw [← place]
      exact same j (Nat.lt_succ_of_lt inside)
    · have place : i + 1 - (v + 1) + v = i := by omega
      have last := same v (Nat.lt_succ_self v)
      rwa [place] at last
  · rintro ⟨⟨short, same⟩, last⟩
    refine ⟨Nat.succ_le_succ short, ?_⟩
    intro j inside
    have place : i + 1 - (v + 1) + j = i - v + j := by omega
    rw [place]
    by_cases front : j < v
    · exact same j front
    · have end_ : j = v := by omega
      have whole : i - v + v = i := by omega
      rw [end_, whole]
      exact last

/-- A border of a border is a border. -/
theorem Border.trans (inner : Border entry u v) (outer : Border entry v i) : Border entry u i := by
  rcases inner with ⟨short, same⟩
  rcases outer with ⟨short', same'⟩
  refine ⟨Nat.le_trans short short', ?_⟩
  intro j inside
  have place : i - v + (v - u + j) = i - u + j := by omega
  rw [same j inside, same' (v - u + j) (by omega), place]

/-- Of two borders the shorter is a border of the longer. -/
theorem Border.of_le (shorter : Border entry u i) (longer : Border entry v i) (le : u ≤ v) :
    Border entry u v := by
  refine ⟨le, ?_⟩
  intro j inside
  have short := longer.1
  have place : i - v + (v - u + j) = i - u + j := by omega
  rw [shorter.2 j inside, longer.2 (v - u + j) (by omega), place]

end Vllm.Library
