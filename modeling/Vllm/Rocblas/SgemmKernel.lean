import Vllm.Rocblas.Gemm

/-!
# The tiled product for single precision

`gfx803_sgemm_kernel`: a block of 16 by 16 threads stages tiles of both operands in shared memory,
and each thread adds up one entry of the result.
-/

namespace Vllm.Rocblas

open Vllm.Library

/-- `(size + tile - 1) / tile` in 32-bit integers. -/
def ceilDiv (size tile : Nat) : Int :=
  (Int.bmod (size + tile - 1 : Nat) (2 ^ 32)).tdiv tile

variable {sum size tile k : Nat}

theorem wrap_of_lt (below : sum < 2 ^ 31) : Int.bmod sum (2 ^ 32) = sum := by
  rw [Int.bmod_def]
  split
  · omega
  · omega

theorem wrap_nonpos (above : 2 ^ 31 ≤ sum) (below : sum < 2 ^ 32) : Int.bmod sum (2 ^ 32) ≤ 0 := by
  rw [Int.bmod_def]
  split
  · omega
  · omega

theorem ceilDiv_of_lt (below : size + tile - 1 < 2 ^ 31) :
    ceilDiv size tile = ((size + tile - 1) / tile : Nat) := by
  have wrapped := wrap_of_lt below
  unfold ceilDiv
  generalize size + tile - 1 = sum at *
  rw [wrapped]
  exact (Int.ofNat_tdiv sum tile).symm

theorem ceilDiv_of_ge (above : 2 ^ 31 ≤ size + tile - 1) (below : size + tile - 1 < 2 ^ 32) :
    ceilDiv size tile ≤ 0 := by
  have wrapped := wrap_nonpos above below
  unfold ceilDiv
  generalize size + tile - 1 = sum at *
  have positive := Int.tdiv_nonneg (Int.neg_nonneg_of_nonpos wrapped) (Int.natCast_nonneg tile)
  rw [Int.neg_tdiv] at positive
  exact Int.nonpos_of_neg_nonneg positive

/-- There are blocks for a size exactly when the sum in `ceilDiv` does not overflow. -/
theorem ceilDiv_pos_iff {size tile : Nat} (positive : 0 < tile) (bounded : size < 2 ^ 31)
    (small : tile ≤ 64) : 0 < ceilDiv size tile ↔ 0 < size ∧ size + tile - 1 < 2 ^ 31 := by
  by_cases below : size + tile - 1 < 2 ^ 31
  · rw [ceilDiv_of_lt below]
    constructor
    · intro some_
      refine ⟨?_, below⟩
      rcases Nat.eq_zero_or_pos size with rfl | more
      · rw [Nat.div_eq_of_lt (by omega)] at some_
        exact absurd some_ (lt_irrefl _)
      · exact more
    · rintro ⟨more, -⟩
      exact Int.natCast_pos.mpr (Nat.div_pos (by omega) positive)
  · have none_ := ceilDiv_of_ge (Nat.le_of_not_lt below) (by omega)
    constructor
    · intro some_
      exact absurd some_ (not_lt.mpr none_)
    · rintro ⟨-, below'⟩
      exact absurd below' below

/-- The tiles cover the size. -/
theorem le_ceilDiv_mul (positive : 0 < tile) (below : size + tile - 1 < 2 ^ 31) :
    size ≤ (ceilDiv size tile).toNat * tile := by
  rw [ceilDiv_of_lt below, Int.toNat_natCast]
  have split := Nat.div_add_mod (size + tile - 1) tile
  have rest := Nat.mod_lt (size + tile - 1) positive
  rw [Nat.mul_comm] at split
  omega

/-- The block of an index. -/
theorem div_lt_ceilDiv {index : Nat} (positive : 0 < tile) (within : index < size)
    (below : size + tile - 1 < 2 ^ 31) : index / tile < (ceilDiv size tile).toNat := by
  rw [Nat.div_lt_iff_lt_mul positive]
  exact Nat.lt_of_lt_of_le within (le_ceilDiv_mul positive below)

/-- The number of terms that a kernel adds up: none when the number of tiles overflows. -/
def terms (k : Nat) : Nat :=
  if k + 15 < 2 ^ 31 then k else 0

theorem terms_eq_self : terms k = k ↔ k = 0 ∨ k + 15 < 2 ^ 31 := by
  unfold terms
  split
  · rename_i fits
    exact ⟨fun _ => Or.inr fits, fun _ => rfl⟩
  · rename_i large
    exact ⟨fun none_ => Or.inl none_.symm, fun fits => (fits.resolve_right large).symm⟩

theorem terms_eq_zero : terms k = 0 ↔ k = 0 ∨ 2 ^ 31 ≤ k + 15 := by
  unfold terms
  split
  · omega
  · simp only [true_iff]
    omega

/-- The terms of all tiles, cut at the end. -/
theorem sum_ceilDiv {R : Type} [CommRing R] (bounded : k < 2 ^ 31) (term : Nat → R) :
    (∑ index ∈ Finset.range ((ceilDiv k 16).toNat * 16), if index < k then term index else 0) =
      ∑ index ∈ Finset.range (terms k), term index := by
  unfold terms
  by_cases fits : k + 15 < 2 ^ 31
  · rw [if_pos fits]
    exact sum_cut _ (le_ceilDiv_mul (by decide) fits)
  · have none_ : ceilDiv k 16 ≤ 0 :=
      ceilDiv_of_ge (show 2 ^ 31 ≤ k + 16 - 1 by omega) (show k + 16 - 1 < 2 ^ 32 by omega)
    rw [if_neg fits, Int.toNat_of_nonpos none_, zero_mul]
    rfl

/-- Entries of a stored matrix have places of their own. -/
theorem place_injective {ld row col row' col' : Nat} (below : row < ld) (below' : row' < ld)
    (same : col * ld + row = col' * ld + row') : row = row' ∧ col = col' := by
  have rows : (col * ld + row) % ld = (col' * ld + row') % ld := by rw [same]
  rw [Nat.mul_add_mod_of_lt below, Nat.mul_add_mod_of_lt below'] at rows
  subst rows
  exact ⟨rfl, Nat.eq_of_mul_eq_mul_right (Nat.zero_lt_of_lt below) (Nat.add_right_cancel same)⟩

/-- `GFX803_SGEMM_TILE`. -/
abbrev sgemmTile : Nat := 16

/-- The arguments of `gfx803_sgemm`, less the contents of its operands. -/
structure SgemmLaunch (R : Type) where
  M : Nat
  N : Nat
  K : Nat
  alpha : R
  A : Int
  lda : Nat
  transA : Bool
  B : Int
  ldb : Nat
  transB : Bool
  beta : R
  C : Int
  ldc : Nat

namespace SgemmLaunch

variable {R : Type} [CommRing R] [DecidableEq R] (launch : SgemmLaunch R) (A B : Memory R)

/-- The element of `As` that the thread at `ty`, `tx` of a block row loads for tile `t`. -/
def loadA (blockY t ty tx : Nat) : R :=
  let row := blockY * sgemmTile + ty
  let a_k := t * sgemmTile + tx
  if row < launch.M ∧ a_k < launch.K then
    if launch.transA then A (launch.A + (row * launch.lda + a_k))
    else A (launch.A + (a_k * launch.lda + row))
  else 0

/-- The element of `Bs` that the thread at `ty`, `tx` of a block column loads for tile `t`. -/
def loadB (blockX t ty tx : Nat) : R :=
  let col := blockX * sgemmTile + tx
  let b_k := t * sgemmTile + ty
  if col < launch.N ∧ b_k < launch.K then
    if launch.transB then B (launch.B + (b_k * launch.ldb + col))
    else B (launch.B + (col * launch.ldb + b_k))
  else 0

/-- The sum that a thread has after all tiles. -/
def acc (lane : Lane sgemmTile sgemmTile) : R :=
  (List.range (ceilDiv launch.K sgemmTile).toNat).foldl (fun acc t =>
    (List.range sgemmTile).foldl (fun acc k =>
      acc + launch.loadA A lane.1.2 t lane.2.2 k * launch.loadB B lane.1.1 t k lane.2.1) acc) 0

/-- What a thread of `gfx803_sgemm_kernel` writes. -/
def kernel (lane : Lane sgemmTile sgemmTile) (C : Memory R) : List (Int × R) :=
  let row := lane.1.2 * sgemmTile + lane.2.2
  let col := lane.1.1 * sgemmTile + lane.2.1
  if row < launch.M ∧ col < launch.N then
    let idx : Int := launch.C + (col * launch.ldc + row)
    [(idx, launch.alpha * launch.acc A B lane +
      if launch.beta ≠ 0 then launch.beta * C idx else 0)]
  else []

/-- The product that the kernel computes. -/
def problem : Problem R where
  transA := launch.transA
  transB := launch.transB
  m := launch.M
  n := launch.N
  k := terms launch.K
  alpha := launch.alpha
  a := launch.A
  lda := launch.lda
  strideA := 0
  b := launch.B
  ldb := launch.ldb
  strideB := 0
  beta := launch.beta
  c := launch.C
  ldc := launch.ldc
  strideC := 0
  d := launch.C
  ldd := launch.ldc
  strideD := 0
  batches := 1

variable {launch} {A B}

variable {lane : Lane sgemmTile sgemmTile}

theorem loadA_mul_loadB (row : lane.1.2 * sgemmTile + lane.2.2 < launch.M)
    (col : lane.1.1 * sgemmTile + lane.2.1 < launch.N) (t k : Nat) :
    launch.loadA A lane.1.2 t lane.2.2 k * launch.loadB B lane.1.1 t k lane.2.1 =
      if t * sgemmTile + k < launch.K then
        launch.problem.term A B 0 (lane.1.2 * sgemmTile + lane.2.2)
          (lane.1.1 * sgemmTile + lane.2.1) (t * sgemmTile + k)
      else 0 := by
  unfold loadA loadB Problem.term entry problem
  simp only [row, col, true_and, Nat.cast_zero, zero_mul, add_zero]
  split
  · congr 1
    · split
      · simp
      · simp
    · split
      · simp
      · simp
  · simp

/-- The tiles add up to the entry of the product. -/
theorem acc_eq (bounded : launch.K < 2 ^ 31) (row : lane.1.2 * sgemmTile + lane.2.2 < launch.M)
    (col : lane.1.1 * sgemmTile + lane.2.1 < launch.N) :
    launch.acc A B lane = launch.problem.product A B 0 (lane.1.2 * sgemmTile + lane.2.2)
      (lane.1.1 * sgemmTile + lane.2.1) := by
  unfold acc Problem.product
  simp only [foldl_add_eq_sum, loadA_mul_loadB row col, zero_add]
  rw [sum_tiles (fun index => if index < launch.K then launch.problem.term A B 0 _ _ index else 0)]
  exact sum_ceilDiv bounded _

theorem cell_problem (row col : Nat) :
    launch.problem.cell 0 row col = launch.C + (col * launch.ldc + row) := by
  simp [Problem.cell, problem]

theorem cellC_problem (row col : Nat) :
    launch.problem.cellC 0 row col = launch.C + (col * launch.ldc + row) := by
  simp [Problem.cellC, problem]

/-- What the thread of an entry writes. -/
theorem kernel_eq (bounded : launch.K < 2 ^ 31) (row : lane.1.2 * sgemmTile + lane.2.2 < launch.M)
    (col : lane.1.1 * sgemmTile + lane.2.1 < launch.N) (C : Memory R) :
    launch.kernel A B lane C = [(launch.problem.cell 0 (lane.1.2 * sgemmTile + lane.2.2)
          (lane.1.1 * sgemmTile + lane.2.1),
        launch.problem.value A B C 0 (lane.1.2 * sgemmTile + lane.2.2)
          (lane.1.1 * sgemmTile + lane.2.1))] := by
  unfold kernel Problem.value
  rw [cellC_problem, cell_problem]
  simp only [row, col, and_self, if_true, acc_eq bounded row col]
  by_cases none_ : launch.beta = 0
  · simp [none_, problem]
  · simp [none_, problem]

/-- The place a thread writes. -/
def Owns (launch : SgemmLaunch R) (lane : Lane sgemmTile sgemmTile) (address : Int) : Prop :=
  lane.1.2 * sgemmTile + lane.2.2 < launch.M ∧ lane.1.1 * sgemmTile + lane.2.1 < launch.N ∧
    address = launch.problem.cell 0 (lane.1.2 * sgemmTile + lane.2.2)
      (lane.1.1 * sgemmTile + lane.2.1)

theorem kernel_exclusive (tight : launch.M ≤ launch.ldc) :
    Exclusive (launch.kernel A B) launch.Owns where
  own := by
    intro lane memory write written
    unfold kernel at written
    dsimp only at written
    split at written
    · rename_i inside
      rw [List.mem_singleton.mp written]
      exact ⟨inside.1, inside.2, (cell_problem _ _).symm⟩
    · cases written
  disjoint := by
    rintro ⟨⟨blockX, blockY⟩, x, y⟩ ⟨⟨blockX', blockY'⟩, x', y'⟩ address ⟨row, col, rfl⟩
      ⟨row', col', same⟩
    rw [cell_problem, cell_problem] at same
    have places := place_injective (Nat.lt_of_lt_of_le row tight) (Nat.lt_of_lt_of_le row' tight)
      (by exact_mod_cast Int.add_left_cancel same)
    rcases place_injective y.isLt y'.isLt places.1 with ⟨sameY, rfl⟩
    rcases place_injective x.isLt x'.isLt places.2 with ⟨sameX, rfl⟩
    rw [Fin.ext sameX, Fin.ext sameY]
  local_ := by
    intro lane memory memory' agree
    unfold kernel
    dsimp only
    split
    · rename_i inside
      rw [agree _ ⟨inside.1, inside.2, (cell_problem _ _).symm⟩]
    · rfl

/-- The blocks of the launch. -/
def columns (launch : SgemmLaunch R) : Int := ceilDiv launch.N sgemmTile

/-- The block rows of the launch. -/
def rows (launch : SgemmLaunch R) : Int := ceilDiv launch.M sgemmTile

/-- A launch with blocks computes its product, in any order of the threads. -/
theorem kernel_computes (launch : SgemmLaunch R) (A B : Memory R)
    (bounded : launch.M < 2 ^ 31 ∧ launch.N < 2 ^ 31 ∧ launch.K < 2 ^ 31)
    (tight : launch.M ≤ launch.ldc) (launched : 0 < launch.columns ∧ 0 < launch.rows)
    (order : GridOrder sgemmTile sgemmTile launch.columns.toNat launch.rows.toNat)
    (before : Memory R) :
    launch.problem.Computes A B before (runThreads (launch.kernel A B) order.lanes before) where
  result := by
    rintro batch row col ⟨first, inside⟩
    cases Nat.lt_one_iff.mp first
    have wide := ((ceilDiv_pos_iff (by decide) bounded.2.1 (by decide)).mp launched.1).2
    have high := ((ceilDiv_pos_iff (by decide) bounded.1 (by decide)).mp launched.2).2
    rcases order.exists_lane (by decide) (by decide) (div_lt_ceilDiv (by decide) inside.2 wide)
      (div_lt_ceilDiv (by decide) inside.1 high) with ⟨lane, member, rfl, rfl⟩
    rw [runThreads_of_mem (kernel_exclusive tight) order.nodup member
      ⟨inside.1, inside.2, rfl⟩, kernel_eq bounded.2.2 inside.1 inside.2]
    exact Function.update_self ..
  frame := by
    intro address outside
    apply runThreads_of_forall_not (kernel_exclusive tight)
    rintro lane - ⟨row, col, rfl⟩
    exact outside 0 _ _ ⟨Nat.zero_lt_one, row, col⟩ rfl

end SgemmLaunch

end Vllm.Rocblas
