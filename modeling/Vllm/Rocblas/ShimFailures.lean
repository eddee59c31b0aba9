import Vllm.Rocblas.ShimLaw

/-!
# Launches that fail midway

When the launch of a batch fails, the whole call is forwarded, over a memory in which the earlier
batches are already updated.
-/

namespace Vllm.Rocblas

open Vllm.Library

/-- The memory after a call of strided batches: a call that fails is forwarded. -/
def settle (real : Memory ℚ → Memory ℚ) : Except (Memory ℚ) (Memory ℚ) → Memory ℚ
  | .ok memory => memory
  | .error memory => real memory

/-- What a call finds when some launches fail. -/
def failing (fails : Nat → Bool)
    (order : Nat → (width height columns rows : Nat) → GridOrder width height columns rows)
    (A B : Memory ℚ) : Process where
  driver := { fails, order }
  A := A
  B := B

/-- With these failures an entry point leaves a product, whatever the contents, the order of the
threads and the correct product that it forwards to. -/
def Restores (entry : Process → (Memory ℚ → Memory ℚ) → Memory ℚ → Outcome) (problem : Problem ℚ)
    (fails : Nat → Bool) : Prop :=
  ∀ order A B (real : Memory ℚ → Memory ℚ) memory,
    (∀ memory, problem.Computes A B memory (real memory)) →
      problem.Computes A B memory (entry (failing fails order A B) real memory).memory

/-- A product can be computed over one whose first batches are computed. -/
def Problem.Repeats (computed problem : Problem ℚ) (count : Nat) : Prop :=
  ∀ A B before middle after, (computed.upTo count).Computes A B before middle →
    problem.Computes A B middle after → problem.Computes A B before after

/-- Two products have the same windows. -/
structure Problem.SameWindows (computed problem : Problem ℚ) : Prop where
  batches : computed.batches = problem.batches
  inside : ∀ batch row col, computed.Inside batch row col ↔ problem.Inside batch row col
  cells : ∀ batch row col, computed.cell batch row col = problem.cell batch row col

namespace Problem

variable {computed problem : Problem ℚ} {count : Nat}

theorem repeats_zero : Repeats computed problem 0 := by
  intro A B before middle after first second
  rw [first.unique (computed.upTo_zero_computes A B before)] at second
  exact second

/-- Without `C` a product can be computed again. -/
theorem repeats_of_beta (windows : SameWindows computed problem) (unadded : problem.beta = 0)
    (within : count ≤ problem.batches) : Repeats computed problem count := by
  intro A B before middle after first second
  constructor
  · intro batch row col inside
    rw [second.result batch row col inside, value, value, unadded, zero_mul, zero_mul]
  · intro address outside
    rw [second.frame address outside]
    apply first.frame
    intro batch row col early same
    apply outside batch row col
    · rw [← windows.batches] at within
      exact (windows.inside batch row col).mp (early.of_upTo within)
    · exact (windows.cells batch row col).symm.trans same

/-- When a product can be computed over one that reads its operands differently. -/
theorem repeats_iff {transA transB : Bool} {k : Nat} (apart : problem.Apart)
    (inPlace : problem.InPlace) (more : 0 < count) (within : count ≤ problem.batches)
    (high : 0 < problem.m) (wide : 0 < problem.n) :
    Repeats (problem.misread transA transB k problem.ldc) problem count ↔
      problem.beta = 0 ∨ problem.beta = 1 ∧ (problem.alpha = 0 ∨ k = 0) := by
  have windows : SameWindows (problem.misread transA transB k problem.ldc) problem :=
    ⟨rfl, fun _ _ _ => Iff.rfl, fun _ _ _ => rfl⟩
  constructor
  · intro repeats
    -- The first entry of the first window, which is computed twice.
    have twice : ∀ A B before : Memory ℚ, problem.beta * (problem.alpha *
        (problem.misread transA transB k problem.ldc).product A B 0 0 0 +
          problem.beta * before (problem.cell 0 0 0)) =
        problem.beta * before (problem.cell 0 0 0) := by
      intro A B before
      have apart' : ((problem.misread transA transB k problem.ldc).upTo count).Apart := by
        intro batch row col batch' row' col' early early'
        exact apart _ _ _ _ _ _ (early.of_upTo within) (early'.of_upTo within)
      have first := run_computes _ apart' A B before
      have second := run_computes _ apart A B
        (((problem.misread transA transB k problem.ldc).upTo count).run A B before)
      have inside : problem.Inside 0 0 0 := ⟨Nat.lt_of_lt_of_le more within, high, wide⟩
      have updated := first.result 0 0 0 ⟨more, high, wide⟩
      have again := second.result 0 0 0 inside
      have once := (repeats A B before _ _ first second).result 0 0 0 inside
      rw [again, value, value, inPlace.cellC_eq] at once
      have same := add_left_cancel once
      change _ * ((problem.misread transA transB k problem.ldc).upTo count).run A B before
        (((problem.misread transA transB k problem.ldc).upTo count).cell 0 0 0) = _ at same
      rw [updated] at same
      change problem.beta * (problem.alpha * _ + problem.beta * before (problem.cellC 0 0 0)) = _
        at same
      rw [inPlace.cellC_eq] at same
      exact same
    by_cases unadded : problem.beta = 0
    · exact Or.inl unadded
    · right
      have whole := twice 0 0 1
      rw [product_zero, mul_zero, zero_add, Pi.one_apply, mul_one] at whole
      have one : problem.beta = 1 := mul_left_cancel₀ unadded (whole.trans (mul_one _).symm)
      have terms := twice 1 1 0
      rw [product_one, Pi.zero_apply, mul_zero, add_zero, one, one_mul] at terms
      rcases mul_eq_zero.mp terms with zero | none_
      · exact ⟨one, Or.inl zero⟩
      · exact ⟨one, Or.inr (Nat.cast_eq_zero.mp none_)⟩
  · rintro (unadded | ⟨one, empty⟩)
    · exact repeats_of_beta windows unadded within
    · intro A B before middle after first second
      -- The first pass leaves everything as it is.
      have still : ((problem.misread transA transB k problem.ldc).upTo count).Computes A B before
          before := by
        constructor
        · intro batch row col early
          change before (problem.cell batch row col) = problem.alpha *
            (problem.misread transA transB k problem.ldc).product A B batch row col +
              problem.beta * before (problem.cellC batch row col)
          rw [one, one_mul, inPlace.cellC_eq]
          rcases empty with zero | none_
          · rw [zero, zero_mul, zero_add]
          · rw [misread_product, none_, Finset.range_zero, Finset.sum_empty, mul_zero, zero_add]
        · exact fun _ _ => rfl
      rw [first.unique still] at second
      exact second

end Problem

namespace Route

variable {computed problem : Problem ℚ} {blocks : Bool} {fails : Nat → Bool}
  {attempt : Process → Nat → Memory ℚ → Except (Memory ℚ) (Memory ℚ)}
  {entry : Process → (Memory ℚ → Memory ℚ) → Memory ℚ → Outcome}

variable {batches failed : Nat}

theorem blocks_of_never (never : firstFailure fails blocks batches = none) (more : 0 < batches) :
    blocks = true := by
  have passed := List.find?_eq_none.mp never 0 (List.mem_range.mpr more)
  cases blocks with
  | true => rfl
  | false => simp at passed

theorem of_firstFailure (first : firstFailure fails blocks batches = some failed) :
    failed < batches ∧ (failed = 0 ∨ blocks = true) := by
  rcases List.find?_range_eq_some.mp first with ⟨-, member, earlier⟩
  refine ⟨List.mem_range.mp member, ?_⟩
  rcases Nat.eq_zero_or_pos failed with start | later
  · exact Or.inl start
  · right
    have passed := earlier 0 later
    cases blocks with
    | true => rfl
    | false => simp at passed

/-- Without a failure the calls leave the product exactly when the kernel reads it. -/
theorem restores_iff_agrees (route : Route computed blocks attempt)
    (windows : computed.SameWindows problem)
    (settles : ∀ process real memory, process.disabled = false →
      (entry process real memory).memory =
        settle real (launchBatches (attempt process) computed.batches memory))
    (apart : problem.Apart) (never : firstFailure fails blocks computed.batches = none) :
    Restores entry problem fails ↔ problem.batches = 0 ∨ computed.Agrees problem := by
  constructor
  · intro restores
    rcases Nat.eq_zero_or_pos problem.batches with none_ | more
    · exact Or.inl none_
    · right
      intro A B before after computes
      let process := failing fails (fun _ => GridOrder.blockwise) A B
      rcases route.launched process before with ⟨run, launched, -, ran⟩
      have left := restores (fun _ => GridOrder.blockwise) A B (problem.run A B) before
        (problem.run_computes apart A B)
      rw [settles process _ _ rfl, launched, show process.driver.fails = fails from rfl, never]
        at left
      have some_ := blocks_of_never never (windows.batches ▸ more)
      rw [computes.unique (ran some_ _ le_rfl)]
      exact left
  · intro sound order A B real memory correct
    rcases route.launched (failing fails order A B) memory with ⟨run, launched, start, ran⟩
    rw [settles _ _ _ rfl, launched, show (failing fails order A B).driver.fails = fails from rfl,
      never]
    change problem.Computes A B memory (run computed.batches)
    rcases Nat.eq_zero_or_pos problem.batches with none_ | more
    · rw [windows.batches, none_, start]
      constructor
      · rintro batch row col ⟨below, -⟩
        rw [none_] at below
        exact absurd below (Nat.not_lt_zero _)
      · exact fun _ _ => rfl
    · have some_ := blocks_of_never never (windows.batches ▸ more)
      exact sound.resolve_left (Nat.ne_of_gt more) A B memory _ (ran some_ _ le_rfl)

/-- With a failure they leave it exactly when it can be computed again. -/
theorem restores_iff_repeats (route : Route computed blocks attempt)
    (settles : ∀ process real memory, process.disabled = false →
      (entry process real memory).memory =
        settle real (launchBatches (attempt process) computed.batches memory))
    (apart : problem.Apart) (first : firstFailure fails blocks computed.batches = some failed) :
    Restores entry problem fails ↔ computed.Repeats problem failed := by
  have bounds := of_firstFailure first
  -- What the batches before the failure leave.
  have partial_ : ∀ order A B memory, ∃ middle,
      (computed.upTo failed).Computes A B memory middle ∧ ∀ real : Memory ℚ → Memory ℚ,
        (entry (failing fails order A B) real memory).memory = real middle := by
    intro order A B memory
    rcases route.launched (failing fails order A B) memory with ⟨run, launched, start, ran⟩
    refine ⟨run failed, ?_, ?_⟩
    · rcases bounds.2 with rfl | some_
      · rw [start]
        exact computed.upTo_zero_computes A B memory
      · exact ran some_ failed (Nat.le_of_lt bounds.1)
    · intro real
      rw [settles _ _ _ rfl, launched, show (failing fails order A B).driver.fails = fails from rfl,
        first]
      rfl
  constructor
  · intro restores A B before middle after early later
    rcases partial_ (fun _ => GridOrder.blockwise) A B before with ⟨middle', early', forwarded⟩
    have left := restores (fun _ => GridOrder.blockwise) A B (problem.run A B) before
      (problem.run_computes apart A B)
    rw [forwarded, ← early.unique early'] at left
    rw [later.unique (problem.run_computes apart A B middle)]
    exact left
  · intro repeats order A B real memory correct
    rcases partial_ order A B memory with ⟨middle, early, forwarded⟩
    rw [forwarded]
    exact repeats A B memory middle _ early (correct middle)

end Route

/-! ## Strided batches -/

variable {args : StridedBatchedArgs}

theorem stridedBatched_settlesF16 (takes : args.takesF16 = true) (process : Process)
    (real : Memory ℚ → Memory ℚ) (memory : Memory ℚ) (enabled : process.disabled = false) :
    (rocblasGemmStridedBatchedEx process real args memory).memory =
      settle real (launchBatches (fun index => process.routeF16 index
        (args.a.pointer + index * args.stride_a) (args.b.pointer + index * args.stride_b)
        (args.d.pointer + index * args.stride_d) args.m args.n args.k) args.batch_count memory) := by
  unfold rocblasGemmStridedBatchedEx
  simp only [takes, enabled, Bool.not_false, Bool.true_and, if_true]
  cases launchBatches _ args.batch_count memory with
  | ok after => rfl
  | error after => rfl

theorem stridedBatched_settlesF32 (leaves : args.takesF16 = false) (takes : args.take_over = true)
    (process : Process) (real : Memory ℚ → Memory ℚ) (memory : Memory ℚ)
    (enabled : process.disabled = false) :
    (rocblasGemmStridedBatchedEx process real args memory).memory =
      settle real (launchBatches (fun index => process.sgemm index
        (args.launch (index * args.stride_a) (index * args.stride_b) (index * args.stride_d)))
        args.batch_count memory) := by
  unfold rocblasGemmStridedBatchedEx
  simp only [leaves, takes, enabled, Bool.not_false, Bool.not_true, Bool.true_and, Bool.false_and,
    Bool.false_eq_true, if_false]
  cases launchBatches _ args.batch_count memory with
  | ok after => rfl
  | error after => rfl

/-- The output survives the failures: the launch that fails first is the first one, or there is no
`C`, or the first pass leaves `C` as it is; without a failure the kernel computes the product. -/
def StridedBatchedArgs.Recovers (args : StridedBatchedArgs) (fails : Nat → Bool) : Prop :=
  if args.takesF16 then
    Route.firstFailure fails args.blocksF16 args.batch_count = none → 0 < args.batch_count →
      args.FaithfulF16
  else args.take_over = true →
    match Route.firstFailure fails (args.blocks sgemmTile) args.batch_count with
    | none => 0 < args.batch_count → args.FaithfulF32
    | some 0 => True
    | some (_ + 1) => args.beta.float = 0 ∨
        args.beta.float = 1 ∧ (args.alpha.float = 0 ∨ args.k = 0)

/-- With any launches failing, the output is the product that rocBLAS defines for the contents
before the call, exactly when it survives them. -/
theorem StridedBatchedArgs.restores_iff {args : StridedBatchedArgs} (valid : args.Valid args.problem)
    (fails : Nat → Bool) :
    Restores (fun process real => rocblasGemmStridedBatchedEx process real args) args.problem
      fails ↔ args.Recovers fails := by
  unfold Recovers
  cases takesF16 : args.takesF16 with
  | true =>
      have layout := GemmExArgs.F16Layout.of_ok takesF16
      have route := GemmExArgs.route_f16 valid layout.1 layout.2
      have windows : Problem.SameWindows (args.problem.plain (terms args.k)) args.problem :=
        ⟨rfl, fun _ _ _ => Iff.rfl, fun _ _ _ => rfl⟩
      cases first : Route.firstFailure fails args.blocksF16 args.batch_count with
      | none =>
          rw [route.restores_iff_agrees windows (stridedBatched_settlesF16 takesF16) valid.apart
            first]
          constructor
          · intro sound _ more
            exact (GemmExArgs.plain_agrees_iff valid layout.1 (Route.blocks_of_never first more)
              more).mp (sound.resolve_left (Nat.ne_of_gt more))
          · intro faithful
            rcases Nat.eq_zero_or_pos args.batch_count with none_ | more
            · exact Or.inl none_
            · exact Or.inr ((GemmExArgs.plain_agrees_iff valid layout.1
                (Route.blocks_of_never first more) more).mpr (faithful rfl more))
      | some failed =>
          rw [route.restores_iff_repeats (stridedBatched_settlesF16 takesF16) valid.apart first]
          have bounds := Route.of_firstFailure first
          have repeats := Problem.repeats_of_beta windows (GemmExArgs.scalars_f16 valid layout.1).1
            (Nat.le_of_lt bounds.1)
          constructor
          · rintro - ⟨⟩
          · exact fun _ => repeats
  | false =>
      simp only [Bool.false_eq_true, if_false]
      cases takes : args.take_over with
      | false =>
          have forwards : Restores (fun process real => rocblasGemmStridedBatchedEx process real args)
              args.problem fails := by
            intro order A B real memory correct
            have passed : (rocblasGemmStridedBatchedEx (failing fails order A B) real args
                memory).memory = real memory := by
              unfold rocblasGemmStridedBatchedEx
              simp [takesF16, takes]
            rw [passed]
            exact correct memory
          simp [forwards]
      | true =>
          have spec := args.take_over_spec takes
          have route := GemmExArgs.route_f32 valid spec.1 spec.2.1.1 spec.2.1.2.2
          have settles := stridedBatched_settlesF32 takesF16 takes
          have windows : Problem.SameWindows (args.readF32 args.problem) args.problem :=
            ⟨rfl, fun _ _ _ => Iff.rfl, fun _ _ _ => rfl⟩
          simp only [true_implies]
          cases first : Route.firstFailure fails (args.blocks sgemmTile) args.batch_count with
          | none =>
              rw [route.restores_iff_agrees windows settles valid.apart first]
              constructor
              · intro sound more
                exact (GemmExArgs.readF32_agrees_iff valid spec.1
                  (Route.blocks_of_never first more) more).mp
                    (sound.resolve_left (Nat.ne_of_gt more))
              · intro faithful
                rcases Nat.eq_zero_or_pos args.batch_count with none_ | more
                · exact Or.inl none_
                · exact Or.inr ((GemmExArgs.readF32_agrees_iff valid spec.1
                    (Route.blocks_of_never first more) more).mpr (faithful more))
          | some failed =>
              rw [route.restores_iff_repeats settles valid.apart first]
              cases failed with
              | zero => exact iff_of_true Problem.repeats_zero trivial
              | succ failed =>
                  have bounds := Route.of_firstFailure first
                  have some_ := bounds.2.resolve_left (Nat.succ_ne_zero failed)
                  have positive := GemmExArgs.positive_of_blocks (by decide) (by decide)
                    ⟨valid.sizes.1, valid.sizes.2.1⟩ some_
                  have same : args.readF32 args.problem = args.problem.misread
                      (args.transA = .transpose) (args.transB = .transpose) (terms args.k)
                        args.problem.ldc := by
                    rw [GemmExArgs.readF32, spec.2.1.2.1]
                    rfl
                  have compute : args.compute_type = .f32R := by
                    have single := spec.1
                    simp only [GemmExArgs.all_f32, Bool.and_eq_true, decide_eq_true_eq] at single
                    exact single.2
                  have small : terms args.k = 0 ↔ args.k = 0 := by
                    rw [terms_eq_zero]
                    omega
                  change Problem.Repeats (args.readF32 args.problem) args.problem _ ↔ _
                  rw [same, Problem.repeats_iff valid.apart spec.2.1 (Nat.succ_pos failed)
                    (Nat.le_of_lt bounds.1) positive.1 positive.2, small]
                  simp only [problem, GemmExArgs.problemOf, compute, Scalar.as]

/-! ## Two batches, the second of which fails -/

/-- Two products of single entries. -/
def twoBatches (beta : Scalar) : StridedBatchedArgs where
  transA := .none_
  transB := .none_
  m := 1
  n := 1
  k := 1
  alpha := Call.one
  a := { pointer := 0, type_ := .f32R, ld := 1 }
  b := { pointer := 0, type_ := .f32R, ld := 1 }
  beta := beta
  c := { pointer := 0, type_ := .f32R, ld := 1 }
  d := { pointer := 0, type_ := .f32R, ld := 1 }
  compute_type := .f32R
  algo := .standard
  solution_index := 0
  stride_a := 1
  stride_b := 1
  stride_c := 1
  stride_d := 1
  batch_count := 2

/-- The second launch fails. -/
def secondFails (index : Nat) : Bool :=
  index = 1

theorem twoBatches_valid (beta : Scalar) : (twoBatches beta).Valid (twoBatches beta).problem where
  sizes := by simp [twoBatches]
  lda := by simp [twoBatches]
  ldb := by simp [twoBatches]
  ldc := by simp [twoBatches]
  ldd := by simp [twoBatches]
  compute := by rintro ⟨⟩
  apart := by
    rintro batch row col batch' row' col' ⟨-, high, wide⟩ ⟨-, high', wide'⟩ same
    cases Nat.lt_one_iff.mp high
    cases Nat.lt_one_iff.mp high'
    cases Nat.lt_one_iff.mp wide
    cases Nat.lt_one_iff.mp wide'
    refine ⟨?_, rfl, rfl⟩
    simpa [Problem.cell, StridedBatchedArgs.problem, GemmExArgs.problemOf, twoBatches] using same

theorem twoBatches_take_over (beta : Scalar) :
    (twoBatches beta).takesF16 = false ∧ (twoBatches beta).take_over = true := by
  constructor
  · rfl
  · rfl

theorem twoBatches_failure (beta : Scalar) :
    Route.firstFailure secondFails ((twoBatches beta).blocks sgemmTile)
      (twoBatches beta).batch_count = some 1 := by
  have some_ : (twoBatches beta).blocks sgemmTile = true := by
    change (decide (0 < ceilDiv 1 16) && decide (0 < ceilDiv 1 16)) = true
    decide
  rw [some_]
  rfl

/-- With `beta = 1` the first batch is added twice. -/
theorem secondFails_not_restores :
    ¬ Restores (fun process real => rocblasGemmStridedBatchedEx process real (twoBatches Call.one))
      (twoBatches Call.one).problem secondFails := by
  intro restores
  have takes := twoBatches_take_over Call.one
  have valid := twoBatches_valid Call.one
  have spec := StridedBatchedArgs.take_over_spec takes.2
  have route := GemmExArgs.route_f32 valid spec.1 spec.2.1.1 spec.2.1.2.2
  have repeats := (route.restores_iff_repeats (stridedBatched_settlesF32 takes.1 takes.2) valid.apart
    (twoBatches_failure Call.one)).mp restores
  have cond := (Problem.repeats_iff valid.apart spec.2.1 Nat.zero_lt_one (Nat.le_succ 1)
    Nat.zero_lt_one Nat.zero_lt_one).mp repeats
  rcases cond with zero | ⟨-, zero | none_⟩
  · exact Call.one_ne_zero zero
  · exact Call.one_ne_zero zero
  · revert none_
    decide

/-- The law with `beta = 0`. -/
theorem secondFails_restores :
    Restores (fun process real => rocblasGemmStridedBatchedEx process real
      (twoBatches { low := 0, high := 0 })) (twoBatches { low := 0, high := 0 }).problem
        secondFails := by
  apply (StridedBatchedArgs.restores_iff (twoBatches_valid _) secondFails).mpr
  intro _
  left
  simp [twoBatches, Scalar.float, ieee]

end Vllm.Rocblas
