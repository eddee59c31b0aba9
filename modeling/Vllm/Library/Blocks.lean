import Mathlib.Data.List.Basic
import Mathlib.Order.Nat

/-!
# Blocks of one length

An index is a block and a place in it.
-/

namespace Vllm.Library

variable {block place width : Nat}

variable {α β : Type}

/-- In blocks of one length an index is a block and a place in it. -/
theorem getElem?_flatMap_blocks {f : α → List β} (width : Nat) {xs : List α}
    (blocks : ∀ x ∈ xs, (f x).length = width) (inside : place < width) :
    (xs.flatMap f)[block * width + place]? = xs[block]?.bind fun x => (f x)[place]? := by
  induction xs generalizing block with
  | nil => rfl
  | cons x xs inductionHypothesis =>
      rw [List.forall_mem_cons] at blocks
      rw [List.flatMap_cons]
      cases block with
      | zero =>
          rw [Nat.zero_mul, Nat.zero_add, List.getElem?_append_left (by omega)]
          rfl
      | succ block =>
          rw [Nat.succ_mul, List.getElem?_append_right (by omega), blocks.1,
            List.getElem?_cons_succ, ← inductionHypothesis blocks.2]
          congr 1
          omega

theorem length_flatMap_blocks {f : α → List β} (width : Nat) {xs : List α}
    (blocks : ∀ x ∈ xs, (f x).length = width) : (xs.flatMap f).length = xs.length * width := by
  induction xs with
  | nil => rw [List.flatMap_nil, List.length_nil, List.length_nil, Nat.zero_mul]
  | cons x xs inductionHypothesis =>
      rw [List.forall_mem_cons] at blocks
      rw [List.flatMap_cons, List.length_append, blocks.1, inductionHypothesis blocks.2,
        List.length_cons, Nat.succ_mul, Nat.add_comm]

theorem block_lt {count : Nat} (before : block < count) (inside : place < width) :
    block * width + place < count * width :=
  calc block * width + place
      < block * width + width := Nat.add_lt_add_left inside _
    _ = (block + 1) * width := (Nat.succ_mul _ _).symm
    _ ≤ count * width := Nat.mul_le_mul_right _ before

theorem block_div (inside : place < width) : (block * width + place) / width = block := by
  rw [Nat.add_comm, Nat.add_mul_div_right _ _ (Nat.zero_lt_of_lt inside),
    Nat.div_eq_of_lt inside, Nat.zero_add]

theorem block_eq {other there : Nat} (inside : place < width) (within : there < width)
    (same : block * width + place = other * width + there) : block = other ∧ place = there := by
  have blocks : block = other := by
    calc block = (block * width + place) / width := (block_div inside).symm
      _ = (other * width + there) / width := by rw [same]
      _ = other := block_div within
  subst blocks
  exact ⟨rfl, Nat.add_left_cancel same⟩

end Vllm.Library
