import Vllm.Rocblas.SgemmKernel

/-!
# The tiled product for half precision

`gfx803_gemm_kernel`: a block of 256 threads keeps two tiles of each operand in shared memory, and
stages one while it multiplies the other.  The matrices are stored row by row.
-/

namespace Vllm.Rocblas

open Vllm.Library

/-- The arguments of `gfx803_gemm_launch`, less the contents of its operands. -/
structure GemmLaunch where
  A : Int
  B : Int
  C : Int
  M : Nat
  N : Nat
  K : Nat

/-- A tiled array in shared memory: the buffer, the place along `K` and the other place. -/
abbrev Shared (R : Type) := Bool × Nat × Nat → R

/-- What a thread knows during its loop over the tiles. -/
structure TileState (R : Type) where
  cur : Bool
  As : Shared R
  Bs : Shared R
  acc : Nat → Nat → R

namespace GemmLaunch

variable {R : Type} [CommRing R] (launch : GemmLaunch) (A B : Memory R)

/-- An element that `load_a_tile` loads. -/
def loadATile (block_row k0 a_row a_chunk e : Nat) : R :=
  let gr := block_row + a_row
  let gc := k0 + a_chunk * 4
  if gr < launch.M ∧ gc + 3 < launch.K then A (launch.A + (gr * launch.K + gc + e : Nat))
  else
    let kk := gc + e
    if gr < launch.M ∧ kk < launch.K then A (launch.A + (gr * launch.K + kk : Nat)) else 0

/-- An element that `load_b_tile` loads. -/
def loadBTile (block_col k0 b_row b_chunk e : Nat) : R :=
  let gr := k0 + b_row
  let gc := block_col + b_chunk * 4
  if gr < launch.K ∧ gc + 3 < launch.N then B (launch.B + (gr * launch.N + gc + e : Nat))
  else
    let nn := gc + e
    if gr < launch.K ∧ nn < launch.N then B (launch.B + (gr * launch.N + nn : Nat)) else 0

/-- The threads of a block store a tile of `A`. -/
def storeA (block_row k0 : Nat) (buffer : Bool) (As : Shared R) : Shared R :=
  writeAll ((List.range 256).flatMap fun tid => (List.range 4).map fun e =>
    ((buffer, tid % 4 * 4 + e, tid / 4), launch.loadATile A block_row k0 (tid / 4) (tid % 4) e)) As

/-- The threads of a block store a tile of `B`. -/
def storeB (block_col k0 : Nat) (buffer : Bool) (Bs : Shared R) : Shared R :=
  writeAll ((List.range 256).flatMap fun tid => (List.range 4).map fun e =>
    ((buffer, tid / 16, tid % 16 * 4 + e),
      launch.loadBTile B block_col k0 (tid / 16) (tid % 16) e)) Bs

/-- `num_tiles`. -/
def numTiles : Nat := (ceilDiv launch.K 16).toNat

/-- A round of the loop over the tiles. -/
def tileStep (lane : Lane 256 1) (state : TileState R) (t : Nat) : TileState R :=
  let tx := lane.2.1.val % 16
  let ty := lane.2.1.val / 16
  let next := !state.cur
  let has_next : Bool := t + 1 < launch.numTiles
  let acc i j := (List.range 16).foldl (fun acc kk =>
    acc + state.As (state.cur, kk, ty * 4 + i) * state.Bs (state.cur, kk, tx * 4 + j))
    (state.acc i j)
  { cur := next
    As := if has_next then launch.storeA A (lane.1.2 * 64) ((t + 1) * 16) next state.As
      else state.As
    Bs := if has_next then launch.storeB B (lane.1.1 * 64) ((t + 1) * 16) next state.Bs
      else state.Bs
    acc }

/-- The state before the loop; no other element of the shared arrays is read before it is stored. -/
def firstTile (lane : Lane 256 1) : TileState R where
  cur := false
  As := launch.storeA A (lane.1.2 * 64) 0 false fun _ => 0
  Bs := launch.storeB B (lane.1.1 * 64) 0 false fun _ => 0
  acc _ _ := 0

/-- The state after the first tiles. -/
def afterTiles (lane : Lane 256 1) (count : Nat) : TileState R :=
  (List.range count).foldl (launch.tileStep A B lane) (launch.firstTile A B lane)

/-- The sums of a thread after the first tiles. -/
def acc (lane : Lane 256 1) (count i j : Nat) : R :=
  (launch.afterTiles A B lane count).acc i j

/-- What a thread of `gfx803_gemm_kernel` writes. -/
def kernel (lane : Lane 256 1) (_ : Memory R) : List (Int × R) :=
  let tx := lane.2.1.val % 16
  let ty := lane.2.1.val / 16
  (List.range 4).flatMap fun i =>
    let gr := lane.1.2 * 64 + ty * 4 + i
    if gr ≥ launch.M then []
    else (List.range 4).flatMap fun j =>
      let gc := lane.1.1 * 64 + tx * 4 + j
      if gc ≥ launch.N then []
      else [(launch.C + (gr * launch.N + gc : Nat), launch.acc A B lane launch.numTiles i j)]

/-- The product that the kernel computes, column by column. -/
def problem : Problem R where
  transA := false
  transB := false
  m := launch.N
  n := launch.M
  k := terms launch.K
  alpha := 1
  a := launch.B
  lda := launch.N
  strideA := 0
  b := launch.A
  ldb := launch.K
  strideB := 0
  beta := 0
  c := launch.C
  ldc := launch.N
  strideC := 0
  d := launch.C
  ldd := launch.N
  strideD := 0
  batches := 1

variable {launch} {A B}

/-- An element of `A`, and zero past the end. -/
def tileA (launch : GemmLaunch) (A : Memory R) (gr kk : Nat) : R :=
  if gr < launch.M ∧ kk < launch.K then A (launch.A + (gr * launch.K + kk : Nat)) else 0

/-- An element of `B`, and zero past the end. -/
def tileB (launch : GemmLaunch) (B : Memory R) (kk gc : Nat) : R :=
  if kk < launch.K ∧ gc < launch.N then B (launch.B + (kk * launch.N + gc : Nat)) else 0

variable {block_row k0 e block_col kk i j : Nat} {lane : Lane 256 1}

theorem loadATile_eq {a_row a_chunk : Nat} (below : e < 4) :
    launch.loadATile A block_row k0 a_row a_chunk e =
      launch.tileA A (block_row + a_row) (k0 + (a_chunk * 4 + e)) := by
  unfold loadATile tileA
  dsimp only
  split
  · rename_i whole
    rw [if_pos ⟨whole.1, by omega⟩, Nat.add_assoc _ _ e, Nat.add_assoc k0]
  · rw [Nat.add_assoc k0]

theorem loadBTile_eq {b_row b_chunk : Nat} (below : e < 4) :
    launch.loadBTile B block_col k0 b_row b_chunk e =
      launch.tileB B (k0 + b_row) (block_col + (b_chunk * 4 + e)) := by
  unfold loadBTile tileB
  dsimp only
  split
  · rename_i whole
    rw [if_pos ⟨whole.1, by omega⟩, Nat.add_assoc _ _ e, Nat.add_assoc block_col]
  · rw [Nat.add_assoc block_col]

/-- The stored tile of `A`. -/
theorem storeA_same {row : Nat} (buffer : Bool) (As : Shared R) (inside : kk < 16)
    (inside' : row < 64) :
    launch.storeA A block_row k0 buffer As (buffer, kk, row) =
      launch.tileA A (block_row + row) (k0 + kk) := by
  apply writeAll_eq
  · refine ⟨_, List.mem_flatMap.mpr ⟨row * 4 + kk / 4, List.mem_range.mpr (by omega),
      List.mem_map.mpr ⟨kk % 4, List.mem_range.mpr (by omega), rfl⟩⟩, ?_⟩
    simp only [Prod.mk.injEq, true_and]
    constructor
    · omega
    · omega
  · rintro write listed same
    rcases List.mem_flatMap.mp listed with ⟨tid, -, listed⟩
    rcases List.mem_map.mp listed with ⟨e, below, rfl⟩
    simp only [Prod.mk.injEq, true_and] at same
    rw [loadATile_eq (List.mem_range.mp below), same.1, same.2]

/-- The stored tile of `B`. -/
theorem storeB_same {col : Nat} (buffer : Bool) (Bs : Shared R) (inside : kk < 16)
    (inside' : col < 64) :
    launch.storeB B block_col k0 buffer Bs (buffer, kk, col) =
      launch.tileB B (k0 + kk) (block_col + col) := by
  apply writeAll_eq
  · refine ⟨_, List.mem_flatMap.mpr ⟨kk * 16 + col / 4, List.mem_range.mpr (by omega),
      List.mem_map.mpr ⟨col % 4, List.mem_range.mpr (by omega), rfl⟩⟩, ?_⟩
    simp only [Prod.mk.injEq, true_and]
    constructor
    · omega
    · omega
  · rintro write listed same
    rcases List.mem_flatMap.mp listed with ⟨tid, -, listed⟩
    rcases List.mem_map.mp listed with ⟨e, below, rfl⟩
    simp only [Prod.mk.injEq, true_and] at same
    rw [loadBTile_eq (List.mem_range.mp below), same.1, same.2]

/-- The row of an element that a thread writes. -/
def rowOf (lane : Lane 256 1) (i : Nat) : Nat :=
  lane.1.2 * 64 + (lane.2.1.val / 16 * 4 + i)

/-- The column of an element that a thread writes. -/
def colOf (lane : Lane 256 1) (j : Nat) : Nat :=
  lane.1.1 * 64 + (lane.2.1.val % 16 * 4 + j)

/-- After some tiles the next one is staged, and their terms are added up. -/
theorem afterTiles_spec (lane : Lane 256 1) {count : Nat} (within : count ≤ launch.numTiles) :
    (count < launch.numTiles ∨ count = 0 → ∀ kk < 16, ∀ place < 64,
      (launch.afterTiles A B lane count).As ((launch.afterTiles A B lane count).cur, kk, place) =
          launch.tileA A (lane.1.2 * 64 + place) (count * 16 + kk) ∧
        (launch.afterTiles A B lane count).Bs ((launch.afterTiles A B lane count).cur, kk, place) =
          launch.tileB B (count * 16 + kk) (lane.1.1 * 64 + place)) ∧
      ∀ i < 4, ∀ j < 4, (launch.afterTiles A B lane count).acc i j =
        ∑ index ∈ Finset.range (count * 16),
          launch.tileA A (rowOf lane i) index * launch.tileB B index (colOf lane j) := by
  induction count with
  | zero =>
      constructor
      · intro _ kk below place below'
        have first : launch.afterTiles A B lane 0 = launch.firstTile A B lane := rfl
        rw [zero_mul, first, firstTile]
        dsimp only
        rw [storeA_same _ _ below below', storeB_same _ _ below below']
        exact ⟨rfl, rfl⟩
      · intro i _ j _
        simp [afterTiles, firstTile]
  | succ count inductionHypothesis =>
      rcases inductionHypothesis (Nat.le_of_succ_le within) with ⟨staged, sums⟩
      have step : launch.afterTiles A B lane (count + 1) =
          launch.tileStep A B lane (launch.afterTiles A B lane count) count := by
        rw [afterTiles, List.range_succ, List.foldl_append]
        rfl
      rw [step]
      constructor
      · rintro (more | none_) kk below place below'
        · unfold tileStep
          simp only [more, decide_true, if_true]
          exact ⟨storeA_same _ _ below below', storeB_same _ _ below below'⟩
        · cases none_
      · intro i small j small'
        have staged := staged (Or.inl within)
        have ty : lane.2.1.val / 16 * 4 + i < 64 := by omega
        have tx : lane.2.1.val % 16 * 4 + j < 64 := by omega
        rw [Nat.succ_mul, Finset.sum_range_add, ← sums i small j small']
        unfold tileStep
        dsimp only
        rw [foldl_add_eq_sum]
        congr 1
        apply Finset.sum_congr rfl
        intro kk member
        rw [rowOf, colOf, (staged kk (Finset.mem_range.mp member) _ ty).1,
          (staged kk (Finset.mem_range.mp member) _ tx).2]

/-- The tiles add up to the entry of the product. -/
theorem acc_eq (bounded : launch.K < 2 ^ 31) (small : i < 4) (small' : j < 4)
    (row : rowOf lane i < launch.M) (col : colOf lane j < launch.N) :
    launch.acc A B lane launch.numTiles i j =
      launch.problem.product B A 0 (colOf lane j) (rowOf lane i) := by
  rw [acc, (afterTiles_spec lane le_rfl).2 i small j small']
  have cut : ∀ index, launch.tileA A (rowOf lane i) index * launch.tileB B index (colOf lane j) =
      if index < launch.K then
        launch.problem.term B A 0 (colOf lane j) (rowOf lane i) index else 0 := by
    intro index
    unfold tileA tileB Problem.term entry problem
    simp only [row, col, true_and, and_true, Nat.cast_zero, zero_mul, add_zero]
    split
    · simp [mul_comm]
    · simp
  simp only [cut]
  exact sum_ceilDiv bounded _

theorem mem_kernel {C : Memory R} {write : Int × R} :
    write ∈ launch.kernel A B lane C ↔ ∃ i < 4, ∃ j < 4, rowOf lane i < launch.M ∧
      colOf lane j < launch.N ∧
        write = (launch.C + (rowOf lane i * launch.N + colOf lane j : Nat),
          launch.acc A B lane launch.numTiles i j) := by
  unfold kernel rowOf colOf
  simp only [List.mem_flatMap, List.mem_range, Nat.add_assoc]
  constructor
  · rintro ⟨i, small, listed⟩
    split at listed
    · cases listed
    · rename_i row
      rcases List.mem_flatMap.mp listed with ⟨j, small', listed⟩
      split at listed
      · cases listed
      · rename_i col
        exact ⟨i, small, j, List.mem_range.mp small', Nat.lt_of_not_le row, Nat.lt_of_not_le col,
          List.mem_singleton.mp listed⟩
  · rintro ⟨i, small, j, small', row, col, rfl⟩
    refine ⟨i, small, ?_⟩
    rw [if_neg (Nat.not_le_of_lt row)]
    refine List.mem_flatMap.mpr ⟨j, List.mem_range.mpr small', ?_⟩
    rw [if_neg (Nat.not_le_of_lt col)]
    exact List.mem_singleton_self _

/-- The places a thread writes. -/
def Owns (launch : GemmLaunch) (lane : Lane 256 1) (address : Int) : Prop :=
  ∃ i < 4, ∃ j < 4, rowOf lane i < launch.M ∧ colOf lane j < launch.N ∧
    address = launch.C + (rowOf lane i * launch.N + colOf lane j : Nat)

/-- An element is written by one thread, once. -/
theorem lane_injective {lane' : Lane 256 1} {i' j' : Nat} (small : i < 4) (small' : j < 4)
    (smallRow' : i' < 4) (smallCol' : j' < 4) (row : rowOf lane i = rowOf lane' i')
    (col : colOf lane j = colOf lane' j') : lane = lane' ∧ i = i' ∧ j = j' := by
  rcases lane with ⟨⟨blockX, blockY⟩, tid, y⟩
  rcases lane' with ⟨⟨blockX', blockY'⟩, tid', y'⟩
  simp only [rowOf, colOf] at row col
  have sameX : blockX = blockX' := by omega
  have sameY : blockY = blockY' := by omega
  have same : tid.val = tid'.val := by omega
  have first : y = y' := Subsingleton.elim _ _
  rw [sameX, sameY, Fin.ext same, first]
  refine ⟨rfl, ?_, ?_⟩
  · omega
  · omega

theorem kernel_exclusive : Exclusive (launch.kernel A B) launch.Owns where
  own := by
    intro lane memory write written
    rcases mem_kernel.mp written with ⟨i, small, j, small', row, col, rfl⟩
    exact ⟨i, small, j, small', row, col, rfl⟩
  disjoint := by
    rintro lane lane' address ⟨i, small, j, small', row, col, rfl⟩
      ⟨i', smallRow', j', smallCol', row', col', same⟩
    rcases place_injective col col' (by exact_mod_cast Int.add_left_cancel same) with
      ⟨sameCol, sameRow⟩
    exact (lane_injective small small' smallRow' smallCol' sameRow sameCol).1
  local_ := fun _ _ _ _ => rfl

/-- The blocks of the launch. -/
def columns (launch : GemmLaunch) : Int := ceilDiv launch.N 64

/-- The block rows of the launch. -/
def rows (launch : GemmLaunch) : Int := ceilDiv launch.M 64

/-- The thread of an element. -/
theorem exists_lane {columns rows gr gc : Nat} (order : GridOrder 256 1 columns rows)
    (column : gc / 64 < columns) (row : gr / 64 < rows) :
    ∃ lane ∈ order.lanes, ∃ i < 4, ∃ j < 4, rowOf lane i = gr ∧ colOf lane j = gc := by
  have place : gr % 64 / 4 * 16 + gc % 64 / 4 < 256 := by omega
  refine ⟨((gc / 64, gr / 64), (⟨gr % 64 / 4 * 16 + gc % 64 / 4, place⟩, 0)),
    (order.mem_iff _).mpr ⟨column, row⟩, gr % 4, by omega, gc % 4, by omega, ?_, ?_⟩
  · simp only [rowOf]
    omega
  · simp only [colOf]
    omega

/-- What the kernel leaves at an element. -/
theorem writeAll_kernel (bounded : launch.K < 2 ^ 31) (small : i < 4) (small' : j < 4)
    (row : rowOf lane i < launch.M) (col : colOf lane j < launch.N) (C : Memory R) :
    writeAll (launch.kernel A B lane C) C (launch.C + (rowOf lane i * launch.N + colOf lane j : Nat))
      = launch.problem.product B A 0 (colOf lane j) (rowOf lane i) := by
  apply writeAll_eq
  · exact ⟨_, mem_kernel.mpr ⟨i, small, j, small', row, col, rfl⟩, rfl⟩
  · rintro write listed same
    rcases mem_kernel.mp listed with ⟨i', smallRow', j', smallCol', row', col', rfl⟩
    rcases place_injective col' col (by exact_mod_cast Int.add_left_cancel same) with
      ⟨sameCol, sameRow⟩
    rcases lane_injective smallRow' smallCol' small small' sameRow sameCol with ⟨-, rfl, rfl⟩
    rw [acc_eq bounded small small' row col]

/-- A launch with blocks computes its product, in any order of the threads. -/
theorem kernel_computes (launch : GemmLaunch) (A B : Memory R)
    (bounded : launch.M < 2 ^ 31 ∧ launch.N < 2 ^ 31 ∧ launch.K < 2 ^ 31)
    (launched : 0 < launch.columns ∧ 0 < launch.rows)
    (order : GridOrder 256 1 launch.columns.toNat launch.rows.toNat) (before : Memory R) :
    launch.problem.Computes B A before (runThreads (launch.kernel A B) order.lanes before) where
  result := by
    rintro batch row col ⟨first, inside⟩
    cases Nat.lt_one_iff.mp first
    have wide := ((ceilDiv_pos_iff (by decide) bounded.2.1 (by decide)).mp launched.1).2
    have high := ((ceilDiv_pos_iff (by decide) bounded.1 (by decide)).mp launched.2).2
    rcases exists_lane order (div_lt_ceilDiv (by decide) inside.1 wide)
      (div_lt_ceilDiv (by decide) inside.2 high) with ⟨lane, member, i, small, j, small', rfl, rfl⟩
    have place : (launch.problem : Problem R).cell 0 (colOf lane j) (rowOf lane i) =
        launch.C + (rowOf lane i * launch.N + colOf lane j : Nat) := by
      simp [Problem.cell, problem]
    have owns : launch.Owns lane (launch.C + (rowOf lane i * launch.N + colOf lane j : Nat)) :=
      ⟨i, small, j, small', inside.2, inside.1, rfl⟩
    have held := (runThreads_of_mem (kernel_exclusive (A := A) (B := B)) order.nodup member
      owns).trans (writeAll_kernel bounded.2.2 small small' inside.2 inside.1 before)
    rw [place, held, Problem.value]
    change _ = 1 * _ + 0 * _
    rw [one_mul, zero_mul, add_zero]
  frame := by
    intro address outside
    apply runThreads_of_forall_not kernel_exclusive
    rintro lane - ⟨i, small, j, small', row, col, rfl⟩
    apply outside 0 _ _ ⟨Nat.zero_lt_one, col, row⟩
    simp [Problem.cell, problem]

end GemmLaunch

end Vllm.Rocblas
