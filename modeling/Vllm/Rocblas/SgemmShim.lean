import Mathlib.Algebra.Order.Field.Basic
import Mathlib.Algebra.Order.Ring.Rat
import Mathlib.Data.Nat.Cast.Order.Basic
import Vllm.Rocblas.GemmKernel

/-!
# Scalars of the host

A scalar is read at its address, as a `float` or as a `rocblas_half`.
-/

namespace Vllm.Rocblas

/-- `rocblas_datatype`. -/
inductive Datatype where
  | f16R
  | f32R
  | other (code : Nat)
deriving DecidableEq, Repr

/-- The four bytes at the address of a scalar of the host, in two halves. -/
structure Scalar where
  low : BitVec 16
  high : BitVec 16
deriving DecidableEq

/-- The value of a finite number with `width` bits of mantissa. -/
def ieee (width bias : Nat) (negative : Bool) (exponent mantissa : Nat) : ℚ :=
  let magnitude : ℚ :=
    if exponent = 0 then mantissa * (2 : ℚ) ^ (1 - bias - width : Int)
    else (2 ^ width + mantissa : Nat) * (2 : ℚ) ^ (exponent - bias - width : Int)
  if negative then -magnitude else magnitude

namespace Scalar

/-- The four bytes as a `float`. -/
def float (scalar : Scalar) : ℚ :=
  ieee 23 127 scalar.high.msb (scalar.high.toNat / 2 ^ 7 % 2 ^ 8)
    (scalar.high.toNat % 2 ^ 7 * 2 ^ 16 + scalar.low.toNat)

/-- The first two bytes as a `rocblas_half`. -/
def half (scalar : Scalar) : ℚ :=
  ieee 10 15 scalar.low.msb (scalar.low.toNat / 2 ^ 10 % 2 ^ 5) (scalar.low.toNat % 2 ^ 10)

/-- The scalar as rocBLAS reads it. -/
def as (scalar : Scalar) : Datatype → ℚ
  | .f16R => scalar.half
  | .f32R => scalar.float
  | .other _ => 0

end Scalar

variable {scalar : Scalar} {width bias exponent mantissa : Nat}

theorem Scalar.half_of_low (none_ : scalar.low = 0) : scalar.half = 0 := by
  simp [Scalar.half, ieee, none_]

variable {negative : Bool}

theorem ieee_eq_zero (zero : ieee width bias negative exponent mantissa = 0) :
    exponent = 0 ∧ mantissa = 0 := by
  unfold ieee at zero
  have powers : ∀ power : Int, (2 : ℚ) ^ power ≠ 0 := fun power => zpow_ne_zero _ two_ne_zero
  have magnitude : (if exponent = 0 then (mantissa : ℚ) * (2 : ℚ) ^ (1 - bias - width : Int)
      else (2 ^ width + mantissa : Nat) * (2 : ℚ) ^ (exponent - bias - width : Int)) = 0 := by
    cases negative with
    | true => simpa using zero
    | false => simpa using zero
  split at magnitude
  · rename_i first
    refine ⟨first, ?_⟩
    rcases mul_eq_zero.mp magnitude with none_ | none_
    · exact_mod_cast none_
    · exact absurd none_ (powers _)
  · rcases mul_eq_zero.mp magnitude with none_ | none_
    · have whole : 2 ^ width + mantissa = 0 := by exact_mod_cast none_
      have positive : 0 < 2 ^ width := Nat.pow_pos (by decide)
      omega
    · exact absurd none_ (powers _)

theorem scaled_eq_one {count up down : Nat} (one : (count : ℚ) * (2 : ℚ) ^ (up - down : Int) = 1) :
    count * 2 ^ up = 2 ^ down := by
  rw [zpow_sub₀ two_ne_zero, zpow_natCast, zpow_natCast, mul_div_assoc',
    div_eq_one_iff_eq (pow_ne_zero _ two_ne_zero)] at one
  exact_mod_cast one

theorem ieee_eq_one (small : mantissa < 2 ^ width) (positive : 0 < bias)
    (one : ieee width bias negative exponent mantissa = 1) : exponent = bias ∧ mantissa = 0 := by
  unfold ieee at one
  dsimp only at one
  have power : ∀ up : Nat, (up - bias - width : Int) = up - (bias + width : Nat) := by
    intro up
    exact sub_sub _ _ _
  split at one
  · -- A number with a sign is not positive.
    exfalso
    have nonneg : (0 : ℚ) ≤ if exponent = 0 then (mantissa : ℚ) * (2 : ℚ) ^ (1 - bias - width : Int)
        else (2 ^ width + mantissa : Nat) * (2 : ℚ) ^ (exponent - bias - width : Int) := by
      split
      · exact mul_nonneg (Nat.cast_nonneg _) (zpow_nonneg zero_le_two _)
      · exact mul_nonneg (Nat.cast_nonneg _) (zpow_nonneg zero_le_two _)
    have nonpos := neg_nonpos.mpr nonneg
    rw [one] at nonpos
    exact absurd nonpos (not_le.mpr zero_lt_one)
  · split at one
    · exfalso
      have whole := scaled_eq_one ((power 1) ▸ one)
      have large : 2 ^ (width + 1) ≤ 2 ^ (bias + width) := Nat.pow_le_pow_right (by decide)
        (by omega)
      omega
    · have whole := scaled_eq_one ((power exponent) ▸ one)
      have least : 2 ^ (width + exponent) ≤ 2 ^ (bias + width) := by
        rw [← whole, Nat.pow_add]
        exact Nat.mul_le_mul_right _ (Nat.le_add_right _ _)
      have most : 2 ^ (bias + width) < 2 ^ (width + 1 + exponent) := by
        rw [← whole, Nat.pow_add, Nat.pow_succ]
        exact Nat.mul_lt_mul_of_pos_right (by omega) (Nat.pow_pos (by decide))
      have above := (Nat.pow_le_pow_iff_right (by decide)).mp least
      have below := (Nat.pow_lt_pow_iff_right (by decide)).mp most
      have same : exponent = bias := by omega
      subst same
      rw [Nat.add_comm exponent, Nat.pow_add] at whole
      have exact_ := Nat.eq_of_mul_eq_mul_right (Nat.pow_pos (by decide)) whole
      exact ⟨rfl, by omega⟩

theorem Scalar.half_of_zero (zero : scalar.float = 0) : scalar.half = 0 := by
  have none_ := (ieee_eq_zero zero).2
  apply Scalar.half_of_low
  apply BitVec.eq_of_toNat_eq
  have low : scalar.low.toNat = 0 := by omega
  exact low

theorem Scalar.half_of_one (one : scalar.float = 1) : scalar.half = 0 := by
  have none_ := (ieee_eq_one (by omega) (by decide) one).2
  apply Scalar.half_of_low
  apply BitVec.eq_of_toNat_eq
  have low : scalar.low.toNat = 0 := by omega
  exact low

end Vllm.Rocblas

/-!
## The shim in front of rocBLAS

The three entry points of the shim.  Each takes a call over when its arguments pass a gate, and
forwards it otherwise, or when a launch fails.
-/

namespace Vllm.Rocblas

open Vllm.Library

/-- `rocblas_operation`. -/
inductive Operation where
  | none_
  | transpose
  | conjugateTranspose
deriving DecidableEq, Repr

/-- `rocblas_gemm_algo`. -/
inductive GemmAlgo where
  | standard
  | other (code : Nat)
deriving DecidableEq, Repr

/-! ## Launches -/

/-- How the driver runs the launches of a call: which of them fail, and in which order the threads
of the others run. -/
structure Driver where
  fails : Nat → Bool
  order : Nat → (width height columns rows : Nat) → GridOrder width height columns rows

/-- What a call finds: whether `GFX803_SGEMM_SHIM_DISABLE` is set, the driver, and the contents of
the operands, which lie apart from the output. -/
structure Process where
  disabled : Bool := false
  driver : Driver
  A : Memory ℚ
  B : Memory ℚ

/-- What a call leaves: the memory of its output, and whether it was forwarded. -/
structure Outcome where
  memory : Memory ℚ
  forwarded : Bool

/-- Whether a launch succeeds; it fails without blocks. -/
def Process.launches (process : Process) (index : Nat) (columns rows : Int) : Bool :=
  0 < columns && 0 < rows && !process.driver.fails index

/-- The memory after `gfx803_sgemm_kernel`. -/
def Process.runSgemm (process : Process) (index : Nat) (launch : SgemmLaunch ℚ)
    (memory : Memory ℚ) :
    Memory ℚ :=
  runThreads (launch.kernel process.A process.B)
    (process.driver.order index sgemmTile sgemmTile launch.columns.toNat
      launch.rows.toNat).lanes memory

/-- The memory after `gfx803_gemm_kernel`, whose first operand lies in the memory of `B`. -/
def Process.runGemm (process : Process) (index : Nat) (launch : GemmLaunch) (memory : Memory ℚ) :
    Memory ℚ :=
  runThreads (launch.kernel process.B process.A)
    (process.driver.order index 256 1 launch.columns.toNat launch.rows.toNat).lanes memory

/-- `gfx803_sgemm`. -/
def Process.sgemm (process : Process) (index : Nat) (launch : SgemmLaunch ℚ) (memory : Memory ℚ) :
    Except (Memory ℚ) (Memory ℚ) :=
  if process.launches index launch.columns launch.rows then
    .ok (process.runSgemm index launch memory)
  else .error memory

/-- The launch of `route_f16`, which swaps the operands. -/
def f16Launch (a b d : Int) (m n k : Nat) : GemmLaunch where
  A := b
  B := a
  C := d
  M := n
  N := m
  K := k

/-- `route_f16`. -/
def Process.routeF16 (process : Process) (index : Nat) (a b d : Int) (m n k : Nat)
    (memory : Memory ℚ) : Except (Memory ℚ) (Memory ℚ) :=
  let launch := f16Launch a b d m n k
  if process.launches index launch.columns launch.rows then
    .ok (process.runGemm index launch memory)
  else .error memory

/-! ## Entry points -/

/-- A matrix argument; addresses count elements. -/
structure Operand where
  pointer : Int
  type_ : Datatype
  ld : Nat
deriving DecidableEq

/-- The arguments of `rocblas_sgemm`. -/
structure SgemmArgs where
  transA : Operation
  transB : Operation
  m : Nat
  n : Nat
  k : Nat
  alpha : Scalar
  A : Int
  lda : Nat
  B : Int
  ldb : Nat
  beta : Scalar
  C : Int
  ldc : Nat

/-- The arguments of `rocblas_gemm_ex`. -/
structure GemmExArgs where
  transA : Operation
  transB : Operation
  m : Nat
  n : Nat
  k : Nat
  alpha : Scalar
  a : Operand
  b : Operand
  beta : Scalar
  c : Operand
  d : Operand
  compute_type : Datatype
  algo : GemmAlgo
  solution_index : Int
deriving DecidableEq

/-- The arguments of `rocblas_gemm_strided_batched_ex`. -/
structure StridedBatchedArgs extends GemmExArgs where
  stride_a : Int
  stride_b : Int
  stride_c : Int
  stride_d : Int
  batch_count : Nat
deriving DecidableEq

/-- The launch of `rocblas_sgemm`. -/
def SgemmArgs.launch (args : SgemmArgs) : SgemmLaunch ℚ where
  M := args.m
  N := args.n
  K := args.k
  alpha := args.alpha.float
  A := args.A
  lda := args.lda
  transA := args.transA = .transpose
  B := args.B
  ldb := args.ldb
  transB := args.transB = .transpose
  beta := args.beta.float
  C := args.C
  ldc := args.ldc

/-- `rocblas_sgemm`. -/
def rocblasSgemm (process : Process) (real : Memory ℚ → Memory ℚ) (args : SgemmArgs)
    (memory : Memory ℚ) : Outcome :=
  if process.disabled then { memory := real memory, forwarded := true }
  else
    match process.sgemm 0 args.launch memory with
    | .ok memory => { memory, forwarded := false }
    | .error memory => { memory := real memory, forwarded := true }

namespace GemmExArgs

variable (args : GemmExArgs)

def all_f32 : Bool :=
  args.a.type_ = .f32R && args.b.type_ = .f32R && args.c.type_ = .f32R && args.d.type_ = .f32R &&
    args.compute_type = .f32R

def all_f16 : Bool :=
  args.a.type_ = .f16R && args.b.type_ = .f16R && args.c.type_ = .f16R && args.d.type_ = .f16R

/-- `f16_layout_ok`; the scalars are read as `float`. -/
def f16_layout_ok (stride_a stride_b stride_c stride_d : Int) : Bool :=
  let scale_one : Bool := args.alpha.float = 1 && args.beta.float = 0
  let contiguous : Bool :=
    args.a.ld = args.m && args.b.ld = args.k && args.c.ld = args.m && args.d.ld = args.m &&
      stride_a = args.m * args.k && stride_b = args.k * args.n && stride_c = args.m * args.n &&
      stride_d = args.m * args.n
  args.all_f16 && args.transA = .none_ && args.transB = .none_ &&
    args.c.pointer = args.d.pointer && scale_one && contiguous && args.algo = .standard &&
    args.solution_index = 0

/-- The launch of `gfx803_sgemm` for a batch. -/
def launch (offsetA offsetB offsetD : Int) : SgemmLaunch ℚ where
  M := args.m
  N := args.n
  K := args.k
  alpha := args.alpha.float
  A := args.a.pointer + offsetA
  lda := args.a.ld
  transA := args.transA = .transpose
  B := args.b.pointer + offsetB
  ldb := args.b.ld
  transB := args.transB = .transpose
  beta := args.beta.float
  C := args.d.pointer + offsetD
  ldc := args.d.ld

/-- A product of two sizes in 32-bit integers. -/
def size (x y : Nat) : Int :=
  Int.bmod (x * y : Nat) (2 ^ 32)

/-- The gate of the half-precision route of `rocblas_gemm_ex`. -/
def takesF16 : Bool :=
  args.f16_layout_ok (size args.m args.k) (size args.k args.n) (size args.m args.n)
    (size args.m args.n)

/-- The gate of the single-precision route of `rocblas_gemm_ex`. -/
def take_over : Bool :=
  args.all_f32 && args.algo = .standard && args.solution_index = 0 &&
    args.c.pointer = args.d.pointer

end GemmExArgs

/-- `rocblas_gemm_ex`. -/
def rocblasGemmEx (process : Process) (real : Memory ℚ → Memory ℚ) (args : GemmExArgs)
    (memory : Memory ℚ) : Outcome :=
  let routed : Except (Memory ℚ) (Memory ℚ) :=
    if args.takesF16 && !process.disabled then
      process.routeF16 0 args.a.pointer args.b.pointer args.d.pointer args.m args.n args.k memory
    else .error memory
  match routed with
  | .ok memory => { memory, forwarded := false }
  | .error memory =>
      if !(args.take_over && !process.disabled) then
        { memory := real memory, forwarded := true }
      else
        match process.sgemm 0 (args.launch 0 0 0) memory with
        | .ok memory => { memory, forwarded := false }
        | .error memory => { memory := real memory, forwarded := true }

namespace StridedBatchedArgs

variable (args : StridedBatchedArgs)

def small_problem : Bool :=
  args.m ≤ 32 && args.n ≤ 32 && args.k ≤ 32

/-- The gate of the half-precision route of `rocblas_gemm_strided_batched_ex`. -/
def takesF16 : Bool :=
  args.f16_layout_ok args.stride_a args.stride_b args.stride_c args.stride_d

/-- The gate of the single-precision route of `rocblas_gemm_strided_batched_ex`. -/
def take_over : Bool :=
  args.all_f32 && args.solution_index = 0 && args.c.pointer = args.d.pointer &&
    args.small_problem && args.stride_c = args.stride_d && args.c.ld = args.d.ld

end StridedBatchedArgs

/-- Launch batch after batch, until a launch fails. -/
def launchBatches (launch : Nat → Memory ℚ → Except (Memory ℚ) (Memory ℚ)) (count : Nat)
    (memory : Memory ℚ) : Except (Memory ℚ) (Memory ℚ) :=
  (List.range count).foldlM (fun memory i => launch i memory) memory

/-- `rocblas_gemm_strided_batched_ex`. -/
def rocblasGemmStridedBatchedEx (process : Process) (real : Memory ℚ → Memory ℚ)
    (args : StridedBatchedArgs) (memory : Memory ℚ) : Outcome :=
  let finish : Except (Memory ℚ) (Memory ℚ) → Outcome
    | .ok memory => { memory, forwarded := false }
    | .error memory => { memory := real memory, forwarded := true }
  if args.takesF16 && !process.disabled then
    finish (launchBatches (fun i => process.routeF16 i
      (args.a.pointer + i * args.stride_a) (args.b.pointer + i * args.stride_b)
      (args.d.pointer + i * args.stride_d) args.m args.n args.k) args.batch_count memory)
  else if !(args.take_over && !process.disabled) then
    { memory := real memory, forwarded := true }
  else
    finish (launchBatches (fun i => process.sgemm i
      (args.launch (i * args.stride_a) (i * args.stride_b) (i * args.stride_d)))
      args.batch_count memory)

end Vllm.Rocblas
