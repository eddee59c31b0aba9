import Mathlib.Algebra.Order.Ring.Rat
import Mathlib.Tactic.Ring
import Vllm.Library.ParallelWrites

/-!
# Matrix products in memory

What a strided batched matrix product leaves in the memory of its output, over a commutative ring.
All matrices are stored column by column.
-/

namespace Vllm.Rocblas

open Vllm.Library

/-- Memory, element by element. -/
abbrev Memory (R : Type) := Int → R

/-- The arguments of `D = alpha * op(A) * op(B) + beta * C`. -/
structure Problem (R : Type) where
  transA : Bool
  transB : Bool
  m : Nat
  n : Nat
  k : Nat
  alpha : R
  a : Int
  lda : Nat
  strideA : Int
  b : Int
  ldb : Nat
  strideB : Int
  beta : R
  c : Int
  ldc : Nat
  strideC : Int
  d : Int
  ldd : Nat
  strideD : Int
  batches : Nat
deriving DecidableEq

/-- The place of an entry of `op` of a matrix. -/
def entry (trans : Bool) (ld row col : Nat) : Int :=
  if trans then row * ld + col else col * ld + row

namespace Problem

variable {R : Type} [CommRing R] (problem : Problem R)

/-- A term of an entry of `op(A) * op(B)`. -/
def term (A B : Memory R) (batch row col index : Nat) : R :=
  A (problem.a + batch * problem.strideA + entry problem.transA problem.lda row index) *
    B (problem.b + batch * problem.strideB + entry problem.transB problem.ldb index col)

/-- An entry of `op(A) * op(B)`. -/
def product (A B : Memory R) (batch row col : Nat) : R :=
  ∑ index ∈ Finset.range problem.k, problem.term A B batch row col index

/-- The place of an entry of `C`. -/
def cellC (batch row col : Nat) : Int :=
  problem.c + batch * problem.strideC + (col * problem.ldc + row)

/-- The place of an entry of `D`. -/
def cell (batch row col : Nat) : Int :=
  problem.d + batch * problem.strideD + (col * problem.ldd + row)

/-- The entry that `D` is to hold. -/
def value (A B before : Memory R) (batch row col : Nat) : R :=
  problem.alpha * problem.product A B batch row col +
    problem.beta * before (problem.cellC batch row col)

/-- An entry of the result. -/
def Inside (batch row col : Nat) : Prop :=
  batch < problem.batches ∧ row < problem.m ∧ col < problem.n

/-- The memory of the output after the product: the windows of `D` hold the result, and nothing
else is changed. -/
structure Computes (A B before after : Memory R) : Prop where
  result : ∀ batch row col, problem.Inside batch row col →
    after (problem.cell batch row col) = problem.value A B before batch row col
  frame : ∀ address, (∀ batch row col, problem.Inside batch row col →
    problem.cell batch row col ≠ address) → after address = before address

/-- No two entries of the output share a place. -/
def Apart : Prop :=
  ∀ batch row col batch' row' col', problem.Inside batch row col →
    problem.Inside batch' row' col' →
      problem.cell batch row col = problem.cell batch' row' col' →
        batch = batch' ∧ row = row' ∧ col = col'

/-- The product, entry by entry. -/
def run (A B before : Memory R) : Memory R :=
  writeAll ((List.range problem.batches ×ˢ (List.range problem.m ×ˢ List.range problem.n)).map
    fun (batch, row, col) =>
      (problem.cell batch row col, problem.value A B before batch row col)) before

theorem run_computes (apart : problem.Apart) (A B before : Memory R) :
    problem.Computes A B before (problem.run A B before) where
  result := by
    intro batch row col inside
    apply writeAll_eq
    · refine ⟨_, List.mem_map.mpr ⟨(batch, row, col), ?_, rfl⟩, rfl⟩
      simpa [List.mem_product, Inside] using inside
    · rintro write member same
      rcases List.mem_map.mp member with ⟨⟨batch', row', col'⟩, listed, rfl⟩
      have inside' : problem.Inside batch' row' col' := by
        simpa [List.mem_product, Inside] using listed
      rcases apart _ _ _ _ _ _ inside' inside same with ⟨rfl, rfl, rfl⟩
      rfl
  frame := by
    intro address outside
    apply writeAll_of_forall_ne
    rintro write member
    rcases List.mem_map.mp member with ⟨⟨batch, row, col⟩, listed, rfl⟩
    apply outside
    simpa [List.mem_product, Inside] using listed

/-- The memory after the product is unique. -/
theorem Computes.unique {problem : Problem R} {A B before after after' : Memory R}
    (first : problem.Computes A B before after) (second : problem.Computes A B before after') :
    after = after' := by
  funext address
  by_cases inside : ∃ batch row col, problem.Inside batch row col ∧
      problem.cell batch row col = address
  · rcases inside with ⟨batch, row, col, inside, rfl⟩
    rw [first.result batch row col inside, second.result batch row col inside]
  · have outside : ∀ batch row col, problem.Inside batch row col →
        problem.cell batch row col ≠ address := fun batch row col within same =>
      inside ⟨batch, row, col, within, same⟩
    rw [first.frame address outside, second.frame address outside]

/-! ## Batch after batch -/

/-- The first batches. -/
def upTo (problem : Problem R) (batches : Nat) : Problem R :=
  { problem with batches }

/-- The product of one batch. -/
def batch (problem : Problem R) (index : Nat) : Problem R :=
  { problem with
    a := problem.a + index * problem.strideA
    strideA := 0
    b := problem.b + index * problem.strideB
    strideB := 0
    c := problem.c + index * problem.strideC
    strideC := 0
    d := problem.d + index * problem.strideD
    strideD := 0
    batches := 1 }

/-- `C` is updated in place. -/
def InPlace (problem : Problem R) : Prop :=
  problem.c = problem.d ∧ problem.ldc = problem.ldd ∧ problem.strideC = problem.strideD

variable {problem}

section

omit [CommRing R]

theorem InPlace.cellC_eq (inPlace : problem.InPlace) (batch row col : Nat) :
    problem.cellC batch row col = problem.cell batch row col := by
  rw [cellC, cell, inPlace.1, inPlace.2.1, inPlace.2.2]

theorem Inside.of_upTo {count batch row col : Nat} (le : count ≤ problem.batches)
    (inside : (problem.upTo count).Inside batch row col) : problem.Inside batch row col :=
  ⟨Nat.lt_of_lt_of_le inside.1 le, inside.2⟩

theorem batch_cell (index row col : Nat) :
    (problem.batch index).cell 0 row col = problem.cell index row col := by
  simp [cell, batch]

end

theorem batch_value (A B before : Memory R) (index row col : Nat) :
    (problem.batch index).value A B before 0 row col = problem.value A B before index row col := by
  simp [value, product, term, cellC, batch]

/-- No batch is computed yet. -/
theorem upTo_zero_computes (A B before : Memory R) :
    (problem.upTo 0).Computes A B before before where
  result := by
    rintro batch row col ⟨none_, -⟩
    cases none_
  frame := fun _ _ => rfl

/-- One batch more. -/
theorem Computes.succ {A B before middle after : Memory R} {count : Nat} (inPlace : problem.InPlace)
    (apart : problem.Apart) (within : count < problem.batches)
    (first : (problem.upTo count).Computes A B before middle)
    (next : (problem.batch count).Computes A B middle after) :
    (problem.upTo (count + 1)).Computes A B before after where
  result := by
    intro index row col inside
    have place := inside.of_upTo within
    rcases Nat.lt_succ_iff_lt_or_eq.mp inside.1 with below | rfl
    · -- A window of an earlier batch is left alone.
      have kept : after (problem.cell index row col) = middle (problem.cell index row col) := by
        apply next.frame
        rintro first' row' col' ⟨single, inside'⟩ same
        cases Nat.lt_one_iff.mp single
        rw [batch_cell] at same
        have later := (apart _ _ _ _ _ _ ⟨within, inside'⟩ place same).1
        exact Nat.lt_irrefl _ (later ▸ below)
      exact kept.trans (first.result index row col ⟨below, inside.2⟩)
    · have computed := next.result 0 row col ⟨Nat.zero_lt_one, inside.2⟩
      rw [batch_cell, batch_value] at computed
      refine computed.trans ?_
      -- The entry of `C` is the one before the run.
      have fresh : middle (problem.cell index row col) = before (problem.cell index row col) := by
        apply first.frame
        rintro index' row' col' ⟨earlier, inside'⟩ same
        have equal := (apart _ _ _ _ _ _ ⟨Nat.lt_trans earlier within, inside'⟩ place same).1
        exact Nat.lt_irrefl _ (equal ▸ earlier)
      change problem.value A B middle index row col = problem.value A B before index row col
      rw [value, value, inPlace.cellC_eq, fresh]
  frame := by
    intro address outside
    have later : after address = middle address := by
      apply next.frame
      rintro first' row col ⟨single, inside⟩
      cases Nat.lt_one_iff.mp single
      rw [batch_cell]
      exact outside count row col ⟨Nat.lt_succ_self _, inside⟩
    refine later.trans (first.frame address ?_)
    intro index row col inside
    exact outside index row col ⟨Nat.lt_succ_of_lt inside.1, inside.2⟩

end Problem

end Vllm.Rocblas
