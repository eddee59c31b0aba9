import Vllm.Rocblas.ShimTakeover

/-!
# The law of the shim

For which arguments the calls that the shim handles leave the product that rocBLAS defines.
-/

namespace Vllm.Rocblas

open Vllm.Library

/-! ## The products of the calls -/

/-- The product that rocBLAS defines for strided batches; for real numbers a conjugate transpose is
a transpose. -/
def GemmExArgs.problemOf (args : GemmExArgs) (strideA strideB strideC strideD : Int)
    (batches : Nat) : Problem ℚ where
  transA := args.transA ≠ .none_
  transB := args.transB ≠ .none_
  m := args.m
  n := args.n
  k := args.k
  alpha := args.alpha.as args.compute_type
  a := args.a.pointer
  lda := args.a.ld
  strideA := strideA
  b := args.b.pointer
  ldb := args.b.ld
  strideB := strideB
  beta := args.beta.as args.compute_type
  c := args.c.pointer
  ldc := args.c.ld
  strideC := strideC
  d := args.d.pointer
  ldd := args.d.ld
  strideD := strideD
  batches := batches

/-- The product of `rocblas_gemm_ex`. -/
def GemmExArgs.problem (args : GemmExArgs) : Problem ℚ :=
  args.problemOf 0 0 0 0 1

/-- The product of `rocblas_gemm_strided_batched_ex`. -/
def StridedBatchedArgs.problem (args : StridedBatchedArgs) : Problem ℚ :=
  args.problemOf args.stride_a args.stride_b args.stride_c args.stride_d args.batch_count

/-- `rocblas_sgemm` is `rocblas_gemm_ex` in single precision, in place. -/
def SgemmArgs.gemmEx (args : SgemmArgs) : GemmExArgs where
  transA := args.transA
  transB := args.transB
  m := args.m
  n := args.n
  k := args.k
  alpha := args.alpha
  a := { pointer := args.A, type_ := .f32R, ld := args.lda }
  b := { pointer := args.B, type_ := .f32R, ld := args.ldb }
  beta := args.beta
  c := { pointer := args.C, type_ := .f32R, ld := args.ldc }
  d := { pointer := args.C, type_ := .f32R, ld := args.ldc }
  compute_type := .f32R
  algo := .standard
  solution_index := 0

/-- What rocBLAS demands of the arguments: sizes are 32-bit integers, the leading dimensions cover
the stored matrices, half-precision products are computed in half or single precision, and no two
entries of the output share a place. -/
structure GemmExArgs.Valid (args : GemmExArgs) (problem : Problem ℚ) : Prop where
  sizes : args.m < 2 ^ 31 ∧ args.n < 2 ^ 31 ∧ args.k < 2 ^ 31
  lda : 0 < args.a.ld ∧ (if args.transA = .none_ then args.m else args.k) ≤ args.a.ld
  ldb : 0 < args.b.ld ∧ (if args.transB = .none_ then args.k else args.n) ≤ args.b.ld
  ldc : 0 < args.c.ld ∧ args.m ≤ args.c.ld
  ldd : 0 < args.d.ld ∧ args.m ≤ args.d.ld
  compute : args.all_f16 → args.compute_type = .f16R ∨ args.compute_type = .f32R
  apart : problem.Apart

/-! ## The routes -/

namespace GemmExArgs

variable {args : GemmExArgs} {strideA strideB strideC strideD : Int} {batches : Nat}

/-- The product that the single-precision kernel computes. -/
def readF32 (args : GemmExArgs) (problem : Problem ℚ) : Problem ℚ :=
  problem.misread (args.transA = .transpose) (args.transB = .transpose) (terms args.k) args.d.ld

/-- Whether there are blocks for tiles of a size. -/
def blocks (args : GemmExArgs) (tile : Nat) : Bool :=
  0 < ceilDiv args.n tile && 0 < ceilDiv args.m tile

/-- Whether there are blocks when the rows and the columns change their places. -/
def blocksF16 (args : GemmExArgs) : Bool :=
  0 < ceilDiv args.m 64 && 0 < ceilDiv args.n 64

theorem route_f32 (valid : args.Valid (args.problemOf strideA strideB strideC strideD batches))
    (single : args.all_f32 = true) (inPlace : args.c.pointer = args.d.pointer)
    (strides : strideC = strideD) :
    Route (args.readF32 (args.problemOf strideA strideB strideC strideD batches))
      (args.blocks sgemmTile)
      fun process index => process.sgemm index
        (args.launch (index * strideA) (index * strideB) (index * strideD)) where
  next := by
    refine ⟨fun process index => process.runSgemm index
      (args.launch (index * strideA) (index * strideB) (index * strideD)), fun _ _ _ => rfl, ?_⟩
    intro some_ process index memory
    have compute : args.compute_type = .f32R := by
      simp only [all_f32, Bool.and_eq_true, decide_eq_true_eq] at single
      exact single.2
    simp only [blocks, Bool.and_eq_true, decide_eq_true_eq] at some_
    have computes := SgemmLaunch.kernel_computes
      (args.launch (index * strideA) (index * strideB) (index * strideD)) process.A process.B
      valid.sizes valid.ldd.2 some_ (process.driver.order index sgemmTile sgemmTile _ _) memory
    have same : (args.launch (index * strideA) (index * strideB) (index * strideD)).problem =
        (args.readF32 (args.problemOf strideA strideB strideC strideD batches)).batch index := by
      simp [SgemmLaunch.problem, launch, readF32, Problem.misread, Problem.batch, problemOf, compute,
        Scalar.as, inPlace, strides]
    rw [← same]
    exact computes
  inPlace := ⟨inPlace, rfl, strides⟩
  apart := valid.apart

/-- What the gate of the half-precision route checks, less the strides. -/
structure F16Layout (args : GemmExArgs) : Prop where
  all_f16 : args.all_f16 = true
  transA : args.transA = .none_
  transB : args.transB = .none_
  inPlace : args.c.pointer = args.d.pointer
  alpha : args.alpha.float = 1
  beta : args.beta.float = 0
  lda : args.a.ld = args.m
  ldb : args.b.ld = args.k
  ldc : args.c.ld = args.m
  ldd : args.d.ld = args.m

theorem F16Layout.of_ok (ok : args.f16_layout_ok strideA strideB strideC strideD = true) :
    F16Layout args ∧ strideC = strideD := by
  simp only [f16_layout_ok, Bool.and_eq_true, decide_eq_true_eq] at ok
  rcases ok with ⟨⟨⟨⟨⟨⟨⟨all_f16, transA⟩, transB⟩, inPlace⟩, alpha, beta⟩, contiguous⟩, -⟩, -⟩
  rcases contiguous with ⟨⟨⟨⟨⟨⟨⟨lda, ldb⟩, ldc⟩, ldd⟩, -⟩, -⟩, strideC⟩, strideD⟩
  exact ⟨⟨all_f16, transA, transB, inPlace, alpha, beta, lda, ldb, ldc, ldd⟩,
    strideC.trans strideD.symm⟩

theorem route_f16 (valid : args.Valid (args.problemOf strideA strideB strideC strideD batches))
    (layout : F16Layout args) (strides : strideC = strideD) :
    Route ((args.problemOf strideA strideB strideC strideD batches).plain (terms args.k))
      args.blocksF16
      fun process index => process.routeF16 index (args.a.pointer + index * strideA)
        (args.b.pointer + index * strideB) (args.d.pointer + index * strideD) args.m args.n
        args.k where
  next := by
    refine ⟨fun process index => process.runGemm index
      (f16Launch (args.a.pointer + index * strideA) (args.b.pointer + index * strideB)
        (args.d.pointer + index * strideD) args.m args.n args.k), fun _ _ _ => rfl, ?_⟩
    intro some_ process index memory
    simp only [blocksF16, Bool.and_eq_true, decide_eq_true_eq] at some_
    have computes := GemmLaunch.kernel_computes
      (f16Launch (args.a.pointer + index * strideA) (args.b.pointer + index * strideB)
        (args.d.pointer + index * strideD) args.m args.n args.k) process.B process.A
      ⟨valid.sizes.2.1, valid.sizes.1, valid.sizes.2.2⟩ some_
      (process.driver.order index 256 1 _ _) memory
    have same : (f16Launch (args.a.pointer + index * strideA) (args.b.pointer + index * strideB)
        (args.d.pointer + index * strideD) args.m args.n args.k).problem =
        ((args.problemOf strideA strideB strideC strideD batches).plain (terms args.k)).batch
          index := by
      simp [GemmLaunch.problem, f16Launch, Problem.plain, Problem.batch, problemOf, layout.transA,
        layout.transB, layout.inPlace, layout.lda, layout.ldb, layout.ldc, layout.ldd, strides]
    rw [← same]
    exact computes
  inPlace := ⟨layout.inPlace, layout.ldc.trans layout.ldd.symm, strides⟩
  apart := valid.apart

/-! ## When the kernels read the product -/

/-- The single-precision kernel reads an operand as rocBLAS does: it takes a conjugate transpose for
no transpose. -/
def Reads (op : Operation) (ld rows cols : Nat) : Prop :=
  op ≠ .conjugateTranspose ∨ ld = 1 ∨ rows = 1 ∧ cols = 1

instance (op : Operation) (ld rows cols : Nat) : Decidable (Reads op ld rows cols) :=
  inferInstanceAs (Decidable (_ ∨ _ ∨ _))

theorem sameReads_iff (op : Operation) (ld rows cols : Nat) :
    SameReads (op = .transpose) (op ≠ .none_) ld rows cols ↔ Reads op ld rows cols := by
  cases op with
  | none_ => simp [SameReads, Reads]
  | transpose => simp [SameReads, Reads]
  | conjugateTranspose => simp [SameReads, Reads]

/-- The product of the single-precision kernel is that of rocBLAS. -/
def FaithfulF32 (args : GemmExArgs) : Prop :=
  (args.alpha.float = 0 ∨ args.k = 0 ∨ args.k + 15 < 2 ^ 31 ∧
    Reads args.transA args.a.ld args.m args.k ∧ Reads args.transB args.b.ld args.k args.n) ∧
  (args.beta.float = 0 ∨ args.c.ld = args.d.ld ∨ args.n = 1)

/-- The product of the half-precision kernel is that of rocBLAS. -/
def FaithfulF16 (args : GemmExArgs) : Prop :=
  args.k = 0 ∨ if args.compute_type = .f32R then args.k + 15 < 2 ^ 31 else 2 ^ 31 ≤ args.k + 15

theorem positive_of_blocks {tile : Nat} (positive : 0 < tile) (small : tile ≤ 64)
    (sizes : args.m < 2 ^ 31 ∧ args.n < 2 ^ 31) (some_ : args.blocks tile = true) :
    0 < args.m ∧ 0 < args.n := by
  simp only [blocks, Bool.and_eq_true, decide_eq_true_eq] at some_
  exact ⟨((ceilDiv_pos_iff positive sizes.1 small).mp some_.2).1,
    ((ceilDiv_pos_iff positive sizes.2 small).mp some_.1).1⟩

theorem readF32_agrees_iff
    (valid : args.Valid (args.problemOf strideA strideB strideC strideD batches))
    (single : args.all_f32 = true) (some_ : args.blocks sgemmTile = true) (more : 0 < batches) :
    (args.readF32 (args.problemOf strideA strideB strideC strideD batches)).Agrees
        (args.problemOf strideA strideB strideC strideD batches) ↔ args.FaithfulF32 := by
  have compute : args.compute_type = .f32R := by
    simp only [all_f32, Bool.and_eq_true, decide_eq_true_eq] at single
    exact single.2
  have positive := positive_of_blocks (by decide) (by decide) ⟨valid.sizes.1, valid.sizes.2.1⟩ some_
  have dropped : ∀ op : Operation, decide (op = .transpose) = true → decide (op ≠ .none_) = true := by
    intro op
    cases op with
    | none_ => decide
    | transpose => decide
    | conjugateTranspose => decide
  rw [readF32, Problem.misread_agrees_iff valid.apart more positive.1 positive.2
    ⟨valid.lda.1, valid.ldb.1⟩ ⟨dropped _, dropped _⟩]
  simp only [problemOf, compute, Scalar.as, sameReads_iff, terms_eq_self, FaithfulF32]
  constructor
  · rintro ⟨reads, places⟩
    refine ⟨?_, places.imp_right (Or.imp_left Eq.symm)⟩
    rcases reads with zero | ⟨fits, none_ | same⟩
    · exact Or.inl zero
    · exact Or.inr (Or.inl none_)
    · rcases fits with none_ | fits
      · exact Or.inr (Or.inl none_)
      · exact Or.inr (Or.inr ⟨fits, same⟩)
  · rintro ⟨reads, places⟩
    refine ⟨?_, places.imp_right (Or.imp_left Eq.symm)⟩
    rcases reads with zero | none_ | ⟨fits, same⟩
    · exact Or.inl zero
    · exact Or.inr ⟨Or.inl none_, Or.inl none_⟩
    · exact Or.inr ⟨Or.inr fits, Or.inr same⟩

/-- The scalars of a half-precision call, as rocBLAS reads them. -/
theorem scalars_f16 (valid : args.Valid (args.problemOf strideA strideB strideC strideD batches))
    (layout : F16Layout args) :
    (args.problemOf strideA strideB strideC strideD batches).beta = 0 ∧
      (args.problemOf strideA strideB strideC strideD batches).alpha =
        if args.compute_type = .f32R then 1 else 0 := by
  simp only [problemOf]
  rcases valid.compute layout.all_f16 with compute | compute
  · simp [compute, Scalar.as, Scalar.half_of_one layout.alpha, Scalar.half_of_zero layout.beta]
  · simp [compute, Scalar.as, layout.alpha, layout.beta]

theorem plain_agrees_iff
    (valid : args.Valid (args.problemOf strideA strideB strideC strideD batches))
    (layout : F16Layout args) (some_ : args.blocksF16 = true) (more : 0 < batches) :
    ((args.problemOf strideA strideB strideC strideD batches).plain (terms args.k)).Agrees
        (args.problemOf strideA strideB strideC strideD batches) ↔ args.FaithfulF16 := by
  have positive : 0 < args.m ∧ 0 < args.n := by
    simp only [blocksF16, Bool.and_eq_true, decide_eq_true_eq] at some_
    exact ⟨((ceilDiv_pos_iff (by decide) valid.sizes.1 (by decide)).mp some_.1).1,
      ((ceilDiv_pos_iff (by decide) valid.sizes.2.1 (by decide)).mp some_.2).1⟩
  have scalars := scalars_f16 valid layout
  have scaled : (args.problemOf strideA strideB strideC strideD batches).alpha = 1 ∨
      (args.problemOf strideA strideB strideC strideD batches).alpha = 0 := by
    rw [scalars.2]
    split
    · exact Or.inl rfl
    · exact Or.inr rfl
  rw [Problem.plain_agrees_iff valid.apart more positive.1 positive.2 scalars.1 scaled, scalars.2,
    FaithfulF16]
  change _ ∧ terms args.k = args.k ∨ _ ↔ _
  rw [terms_eq_self, terms_eq_zero]
  split
  · simp
  · simp

end GemmExArgs

/-! ## Entry points -/

theorem launchBatches_one (launch : Nat → Memory ℚ → Except (Memory ℚ) (Memory ℚ))
    (memory : Memory ℚ) :
    launchBatches launch 1 memory = launch 0 memory := by
  rw [launchBatches, List.range_one, List.foldlM_cons]
  cases launch 0 memory with
  | ok after => rfl
  | error after => rfl

/-- An entry point handles a call when it is not disabled and the launches of a route succeed. -/
def Handles (entry : Process → (Memory ℚ → Memory ℚ) → Memory ℚ → Outcome)
    (attempt : Process → Nat → Memory ℚ → Except (Memory ℚ) (Memory ℚ)) (batches : Nat) : Prop :=
  ∀ process real memory after, entry process real memory = { memory := after, forwarded := false } ↔
    process.disabled = false ∧ launchBatches (attempt process) batches memory = .ok after

/-- The calls that an entry point handles leave a product. -/
def Sound (entry : Process → (Memory ℚ → Memory ℚ) → Memory ℚ → Outcome) (problem : Problem ℚ) : Prop :=
  ∀ process real memory, (entry process real memory).forwarded = false →
    problem.Computes process.A process.B memory (entry process real memory).memory

variable {entry : Process → (Memory ℚ → Memory ℚ) → Memory ℚ → Outcome} {args : GemmExArgs}
  {strideA strideB strideC strideD : Int}

theorem Route.sound_iff_solves {computed : Problem ℚ} (problem : Problem ℚ) {blocks : Bool}
    {attempt : Process → Nat → Memory ℚ → Except (Memory ℚ) (Memory ℚ)}
    (route : Route computed blocks attempt)
    (enabled : ∀ process, attempt { process with disabled := false } = attempt process)
    (handles : Handles entry attempt computed.batches)
    (batches : computed.batches = problem.batches) :
    Sound entry problem ↔ problem.batches = 0 ∨ blocks = false ∨ computed.Agrees problem := by
  rw [← route.handled_iff batches]
  constructor
  · intro sound process memory after ran
    have handled : entry { process with disabled := false } id memory =
        { memory := after, forwarded := false } :=
      (handles _ _ _ _).mpr ⟨rfl, by rw [enabled]; exact ran⟩
    have computes := sound { process with disabled := false } id memory (by rw [handled])
    rw [handled] at computes
    exact computes
  · intro sound process real memory handled
    apply sound process memory
    have whole : entry process real memory =
        { memory := (entry process real memory).memory, forwarded := false } := by
      rw [← handled]
    exact ((handles _ _ _ _).mp whole).2

/-- An entry point that forwards every call. -/
theorem sound_of_forwarded {problem : Problem ℚ}
    (forwards : ∀ process real memory, (entry process real memory).forwarded = true) :
    Sound entry problem := by
  intro process real memory handled
  rw [forwards] at handled
  cases handled

variable {batches : Nat}

theorem GemmExArgs.sound_f32
    (valid : args.Valid (args.problemOf strideA strideB strideC strideD batches))
    (single : args.all_f32 = true) (inPlace : args.c.pointer = args.d.pointer)
    (strides : strideC = strideD) (handles : Handles entry (fun process index => process.sgemm index
      (args.launch (index * strideA) (index * strideB) (index * strideD))) batches) :
    Sound entry (args.problemOf strideA strideB strideC strideD batches) ↔
      (0 < batches → args.blocks sgemmTile = true → args.FaithfulF32) := by
  rw [(args.route_f32 valid single inPlace strides).sound_iff_solves
    (args.problemOf strideA strideB strideC strideD batches) (fun _ => rfl) handles rfl]
  change batches = 0 ∨ _ ↔ _
  constructor
  · rintro (none_ | none_ | agrees) more some_
    · exact absurd none_ (Nat.ne_of_gt more)
    · rw [some_] at none_
      cases none_
    · exact (readF32_agrees_iff valid single some_ more).mp agrees
  · intro faithful
    rcases Nat.eq_zero_or_pos batches with none_ | more
    · exact Or.inl none_
    · cases some_ : args.blocks sgemmTile with
      | false => exact Or.inr (Or.inl rfl)
      | true =>
          exact Or.inr (Or.inr ((readF32_agrees_iff valid single some_ more).mpr
            (faithful more some_)))

theorem GemmExArgs.sound_f16
    (valid : args.Valid (args.problemOf strideA strideB strideC strideD batches))
    (layout : F16Layout args) (strides : strideC = strideD)
    (handles : Handles entry (fun process index => process.routeF16 index
      (args.a.pointer + index * strideA) (args.b.pointer + index * strideB)
      (args.d.pointer + index * strideD) args.m args.n args.k) batches) :
    Sound entry (args.problemOf strideA strideB strideC strideD batches) ↔
      (0 < batches → args.blocksF16 = true → args.FaithfulF16) := by
  rw [(args.route_f16 valid layout strides).sound_iff_solves
    (args.problemOf strideA strideB strideC strideD batches) (fun _ => rfl) handles rfl]
  change batches = 0 ∨ _ ↔ _
  constructor
  · rintro (none_ | none_ | agrees) more some_
    · exact absurd none_ (Nat.ne_of_gt more)
    · rw [some_] at none_
      cases none_
    · exact (plain_agrees_iff valid layout some_ more).mp agrees
  · intro faithful
    rcases Nat.eq_zero_or_pos batches with none_ | more
    · exact Or.inl none_
    · cases some_ : args.blocksF16 with
      | false => exact Or.inr (Or.inl rfl)
      | true =>
          exact Or.inr (Or.inr ((plain_agrees_iff valid layout some_ more).mpr
            (faithful more some_)))

theorem GemmExArgs.take_over_spec (takes : args.take_over = true) :
    args.all_f32 = true ∧ args.c.pointer = args.d.pointer := by
  simp only [take_over, Bool.and_eq_true, decide_eq_true_eq] at takes
  exact ⟨takes.1.1.1, takes.2⟩

theorem StridedBatchedArgs.take_over_spec {args : StridedBatchedArgs}
    (takes : args.take_over = true) : args.all_f32 = true ∧ args.problem.InPlace ∧ args.k ≤ 32 := by
  simp only [take_over, small_problem, Bool.and_eq_true, decide_eq_true_eq] at takes
  rcases takes with ⟨⟨⟨⟨⟨single, -⟩, pointers⟩, small⟩, strides⟩, lds⟩
  exact ⟨single, ⟨pointers, lds, strides⟩, small.2⟩

theorem SgemmArgs.launch_eq (args : SgemmArgs) (index : Nat) :
    args.gemmEx.launch (index * 0) (index * 0) (index * 0) = args.launch := by
  unfold GemmExArgs.launch launch
  simp only [gemmEx, mul_zero, add_zero]
  rfl

theorem rocblasSgemm_handles (args : SgemmArgs) :
    Handles (fun process real => rocblasSgemm process real args)
      (fun process index => process.sgemm index args.launch) 1 := by
  intro process real memory after
  rw [launchBatches_one]
  unfold rocblasSgemm
  dsimp only
  cases process.disabled with
  | true => simp
  | false =>
      cases process.sgemm 0 args.launch memory with
      | ok after' => simp
      | error after' => simp

theorem GemmExArgs.take_over_of_takesF16 (takes : args.takesF16 = true) :
    args.take_over = false := by
  have half := (F16Layout.of_ok takes).1.all_f16
  simp only [all_f16, Bool.and_eq_true, decide_eq_true_eq] at half
  simp [take_over, all_f32, half.1.1.1]

theorem rocblasGemmEx_handlesF16 (takes : args.takesF16 = true) :
    Handles (fun process real => rocblasGemmEx process real args)
      (fun process index => process.routeF16 index args.a.pointer args.b.pointer args.d.pointer
        args.m args.n args.k) 1 := by
  intro process real memory after
  rw [launchBatches_one]
  unfold rocblasGemmEx
  simp only [takes, GemmExArgs.take_over_of_takesF16 takes, Bool.true_and, Bool.false_and]
  cases process.disabled with
  | true => simp
  | false =>
      cases process.routeF16 0 args.a.pointer args.b.pointer args.d.pointer args.m args.n args.k
        memory with
      | ok after' => simp
      | error after' => simp

theorem rocblasGemmEx_handlesF32 (leaves : args.takesF16 = false) (takes : args.take_over = true) :
    Handles (fun process real => rocblasGemmEx process real args)
      (fun process index => process.sgemm index (args.launch 0 0 0)) 1 := by
  intro process real memory after
  rw [launchBatches_one]
  unfold rocblasGemmEx
  simp only [leaves, takes, Bool.true_and, Bool.false_and, Bool.false_eq_true, if_false]
  cases process.disabled with
  | true => simp
  | false =>
      cases process.sgemm 0 (args.launch 0 0 0) memory with
      | ok after' => simp
      | error after' => simp

theorem rocblasGemmEx_forwards (leaves : args.takesF16 = false) (leaves' : args.take_over = false)
    (process : Process) (real : Memory ℚ → Memory ℚ) (memory : Memory ℚ) :
    (rocblasGemmEx process real args memory).forwarded = true := by
  unfold rocblasGemmEx
  simp [leaves, leaves']

theorem stridedBatched_handlesF16 {args : StridedBatchedArgs} (takes : args.takesF16 = true) :
    Handles (fun process real => rocblasGemmStridedBatchedEx process real args)
      (fun process index => process.routeF16 index (args.a.pointer + index * args.stride_a)
        (args.b.pointer + index * args.stride_b) (args.d.pointer + index * args.stride_d)
        args.m args.n args.k) args.batch_count := by
  intro process real memory after
  unfold rocblasGemmStridedBatchedEx
  simp only [takes, Bool.true_and]
  cases process.disabled with
  | true => simp
  | false =>
      cases launchBatches _ args.batch_count memory with
      | ok after' => simp
      | error after' => simp

theorem stridedBatched_handlesF32 {args : StridedBatchedArgs} (leaves : args.takesF16 = false)
    (takes : args.take_over = true) :
    Handles (fun process real => rocblasGemmStridedBatchedEx process real args)
      (fun process index => process.sgemm index (args.launch (index * args.stride_a)
        (index * args.stride_b) (index * args.stride_d))) args.batch_count := by
  intro process real memory after
  unfold rocblasGemmStridedBatchedEx
  simp only [leaves, takes, Bool.true_and, Bool.false_and, Bool.false_eq_true, if_false]
  cases process.disabled with
  | true => simp
  | false =>
      cases launchBatches _ args.batch_count memory with
      | ok after' => simp
      | error after' => simp

theorem stridedBatched_forwards {args : StridedBatchedArgs} (leaves : args.takesF16 = false)
    (leaves' : args.take_over = false) (process : Process) (real : Memory ℚ → Memory ℚ)
    (memory : Memory ℚ) : (rocblasGemmStridedBatchedEx process real args memory).forwarded = true := by
  unfold rocblasGemmStridedBatchedEx
  simp [leaves, leaves']

/-! ## Calls -/

/-- A call of an entry point. -/
inductive Call where
  | sgemm (args : SgemmArgs)
  | gemmEx (args : GemmExArgs)
  | stridedBatched (args : StridedBatchedArgs)

namespace Call

def perform (call : Call) (process : Process) (real : Memory ℚ → Memory ℚ) (memory : Memory ℚ) :
    Outcome :=
  match call with
  | sgemm args => rocblasSgemm process real args memory
  | gemmEx args => rocblasGemmEx process real args memory
  | stridedBatched args => rocblasGemmStridedBatchedEx process real args memory

/-- The product that rocBLAS defines for the call. -/
def problem : Call → Problem ℚ
  | sgemm args => args.gemmEx.problem
  | gemmEx args => args.problem
  | stridedBatched args => args.problem

/-- The arguments are ones that rocBLAS defines a product for. -/
def Valid : Call → Prop
  | sgemm args => args.gemmEx.Valid args.gemmEx.problem
  | gemmEx args => args.Valid args.problem
  | stridedBatched args => args.Valid args.problem

/-- When a kernel is launched, it computes the product of the call. -/
def Faithful : Call → Prop
  | sgemm args => args.gemmEx.blocks sgemmTile = true → args.gemmEx.FaithfulF32
  | gemmEx args =>
      if args.takesF16 then args.blocksF16 = true → args.FaithfulF16
      else args.take_over = true → args.blocks sgemmTile = true → args.FaithfulF32
  | stridedBatched args =>
      0 < args.batch_count →
        if args.takesF16 then args.blocksF16 = true → args.FaithfulF16
        else args.take_over = true → args.blocks sgemmTile = true → args.FaithfulF32

/-- The calls that the shim handles leave the product that rocBLAS defines, and nothing else,
exactly when its kernel computes that product. -/
theorem sound_iff (call : Call) (valid : call.Valid) :
    Sound call.perform call.problem ↔ call.Faithful := by
  cases call with
  | sgemm args =>
      have same : (fun (process : Process) (index : Nat) => process.sgemm index args.launch) =
          fun process index => process.sgemm index
            (args.gemmEx.launch (index * 0) (index * 0) (index * 0)) := by
        funext process index
        rw [args.launch_eq]
      have handles : Handles (Call.sgemm args).perform _ 1 := rocblasSgemm_handles args
      rw [same] at handles
      exact (GemmExArgs.sound_f32 valid rfl rfl rfl handles).trans
        ⟨fun faithful => faithful Nat.zero_lt_one, fun faithful _ => faithful⟩
  | gemmEx args =>
      simp only [Faithful]
      cases takesF16 : args.takesF16 with
      | true =>
          have handles : Handles (Call.gemmEx args).perform _ 1 :=
            rocblasGemmEx_handlesF16 takesF16
          exact (GemmExArgs.sound_f16 valid (GemmExArgs.F16Layout.of_ok takesF16).1 rfl
            (by simpa using handles)).trans
              ⟨fun faithful => faithful Nat.zero_lt_one, fun faithful _ => faithful⟩
      | false =>
          cases takes : args.take_over with
          | true =>
              have handles : Handles (Call.gemmEx args).perform _ 1 :=
                rocblasGemmEx_handlesF32 takesF16 takes
              exact (GemmExArgs.sound_f32 valid (args.take_over_spec takes).1
                (args.take_over_spec takes).2 rfl (by simpa using handles)).trans
                  ⟨fun faithful _ => faithful Nat.zero_lt_one, fun faithful _ => faithful rfl⟩
          | false =>
              have sound : Sound (Call.gemmEx args).perform (Call.gemmEx args).problem :=
                sound_of_forwarded (rocblasGemmEx_forwards takesF16 takes)
              simp [sound]
  | stridedBatched args =>
      simp only [Faithful]
      cases takesF16 : args.takesF16 with
      | true =>
          exact GemmExArgs.sound_f16 valid (GemmExArgs.F16Layout.of_ok takesF16).1
            (GemmExArgs.F16Layout.of_ok takesF16).2 (stridedBatched_handlesF16 takesF16)
      | false =>
          cases takes : args.take_over with
          | true =>
              have spec := args.take_over_spec takes
              exact (GemmExArgs.sound_f32 valid spec.1 spec.2.1.1 spec.2.1.2.2
                (stridedBatched_handlesF32 takesF16 takes)).trans
                  ⟨fun faithful more _ => faithful more, fun faithful more => faithful more rfl⟩
          | false =>
              have sound : Sound (Call.stridedBatched args).perform
                  (Call.stridedBatched args).problem :=
                sound_of_forwarded (stridedBatched_forwards takesF16 takes)
              simp [sound]

/-! ## A product of a row and a column -/

/-- The scalar `1.0f`. -/
def one : Scalar where
  low := 0
  high := 0x3F80

/-- The product of a stored column, taken as a row, with a column. -/
def dot (transA : Operation) : SgemmArgs where
  transA := transA
  transB := .none_
  m := 1
  n := 1
  k := 2
  alpha := one
  A := 0
  lda := 2
  B := 0
  ldb := 2
  beta := one
  C := 0
  ldc := 1

theorem dot_valid (transA : Operation) :
    (dot transA).gemmEx.Valid (dot transA).gemmEx.problem where
  sizes := by cases transA <;> decide
  lda := by cases transA <;> decide
  ldb := by cases transA <;> decide
  ldc := by cases transA <;> decide
  ldd := by cases transA <;> decide
  compute := by rintro ⟨⟩
  apart := by
    rintro batch row col batch' row' col' ⟨first, high, wide⟩ ⟨first', high', wide'⟩ -
    cases Nat.lt_one_iff.mp first
    cases Nat.lt_one_iff.mp first'
    cases Nat.lt_one_iff.mp high
    cases Nat.lt_one_iff.mp high'
    cases Nat.lt_one_iff.mp wide
    cases Nat.lt_one_iff.mp wide'
    exact ⟨rfl, rfl, rfl⟩

theorem one_ne_zero : one.float ≠ 0 := by
  intro zero
  exact absurd (ieee_eq_zero zero).1 (by decide)

/-- With a conjugate transpose the shim multiplies another row. -/
theorem conjugated_not_sound :
    (Call.sgemm (dot .conjugateTranspose)).Valid ∧
      ¬ Sound (Call.sgemm (dot .conjugateTranspose)).perform
        (Call.sgemm (dot .conjugateTranspose)).problem := by
  refine ⟨dot_valid _, fun sound => ?_⟩
  have handles : Handles (Call.sgemm (dot .conjugateTranspose)).perform _ 1 :=
    rocblasSgemm_handles (dot .conjugateTranspose)
  have faithful := (GemmExArgs.sound_f32 (dot_valid _) rfl rfl rfl handles).mp sound
    Nat.zero_lt_one (by decide)
  rcases faithful.1 with zero | none_ | ⟨-, reads, -⟩
  · exact one_ne_zero zero
  · cases none_
  · revert reads
    decide

/-- The law at a transpose. -/
theorem transposed_sound :
    Sound (Call.sgemm (dot .transpose)).perform (Call.sgemm (dot .transpose)).problem := by
  apply (sound_iff (Call.sgemm (dot .transpose)) (dot_valid _)).mpr
  intro _
  exact ⟨Or.inr (Or.inr ⟨by decide, by decide, by decide⟩), Or.inr (Or.inl rfl)⟩

end Call

end Vllm.Rocblas
