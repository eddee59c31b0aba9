import Vllm.Rocblas.ProductReads
import Vllm.Rocblas.SgemmShim

/-!
# What the shim computes

A call that the shim handles itself leaves the product that its kernel reads, which is the product
of the call unless the gate leaves out an argument that matters.
-/

namespace Vllm.Rocblas

open Vllm.Library

/-! ## Batch after batch -/

/-- The memory after the first batches. -/
def runBatches (next : Nat → Memory ℚ → Memory ℚ) (count : Nat) (memory : Memory ℚ) : Memory ℚ :=
  (List.range count).foldl (fun memory i => next i memory) memory

theorem runBatches_succ (next : Nat → Memory ℚ → Memory ℚ) (count : Nat) (memory : Memory ℚ) :
    runBatches next (count + 1) memory = next count (runBatches next count memory) := by
  rw [runBatches, List.range_succ, List.foldl_append]
  rfl

/-- The batches run until the first failure. -/
theorem launchBatches_eq (ok : Nat → Bool) (next : Nat → Memory ℚ → Memory ℚ) (count : Nat)
    (memory : Memory ℚ) :
    launchBatches (fun i memory => if ok i then .ok (next i memory) else .error memory) count
        memory =
      match (List.range count).find? fun i => !ok i with
      | none => .ok (runBatches next count memory)
      | some failed => .error (runBatches next failed memory) := by
  induction count with
  | zero => rfl
  | succ count inductionHypothesis =>
      unfold launchBatches at inductionHypothesis ⊢
      rw [List.range_succ, List.foldlM_append, inductionHypothesis, List.find?_append]
      cases (List.range count).find? fun i => !ok i with
      | some failed => rfl
      | none =>
          rw [runBatches_succ]
          cases known : ok count with
          | true => simp [known, bind, Except.bind, pure, Except.pure]
          | false => simp [known, bind, Except.bind]

theorem runBatches_computes {problem : Problem ℚ} (inPlace : problem.InPlace)
    (apart : problem.Apart) {A B : Memory ℚ} {next : Nat → Memory ℚ → Memory ℚ}
    (computes : ∀ index memory, (problem.batch index).Computes A B memory (next index memory))
    {count : Nat} (within : count ≤ problem.batches) (memory : Memory ℚ) :
    (problem.upTo count).Computes A B memory (runBatches next count memory) := by
  induction count with
  | zero => exact problem.upTo_zero_computes A B memory
  | succ count inductionHypothesis =>
      rw [runBatches_succ]
      exact (inductionHypothesis (Nat.le_of_succ_le within)).succ inPlace apart within
        (computes count _)

/-- A kernel that is launched for each batch: when there are blocks, a launch that does not fail
leaves the batch of the product that the kernel reads. -/
structure Route (computed : Problem ℚ) (blocks : Bool)
    (attempt : Process → Nat → Memory ℚ → Except (Memory ℚ) (Memory ℚ)) : Prop where
  next : ∃ next : Process → Nat → Memory ℚ → Memory ℚ,
    (∀ process index memory, attempt process index memory =
      if blocks && !process.driver.fails index then .ok (next process index memory)
      else .error memory) ∧
    (blocks = true → ∀ process index memory,
      (computed.batch index).Computes process.A process.B memory (next process index memory))
  inPlace : computed.InPlace
  apart : computed.Apart

namespace Route

variable {computed problem : Problem ℚ} {blocks : Bool}
  {attempt : Process → Nat → Memory ℚ → Except (Memory ℚ) (Memory ℚ)}

/-- The first batch whose launch fails. -/
def firstFailure (fails : Nat → Bool) (blocks : Bool) (batches : Nat) : Option Nat :=
  (List.range batches).find? fun index => !(blocks && !fails index)

/-- The batches before the first failure are computed. -/
theorem launched (route : Route computed blocks attempt) (process : Process) (memory : Memory ℚ) :
    ∃ run : Nat → Memory ℚ, launchBatches (attempt process) computed.batches memory =
        (match firstFailure process.driver.fails blocks computed.batches with
          | none => .ok (run computed.batches)
          | some failed => .error (run failed)) ∧
      run 0 = memory ∧
      (blocks = true → ∀ count ≤ computed.batches,
        (computed.upTo count).Computes process.A process.B memory (run count)) := by
  rcases route.next with ⟨next, attempts, computes⟩
  refine ⟨fun count => runBatches (next process) count memory, ?_, rfl, ?_⟩
  · have same : attempt process = fun index memory =>
        if blocks && !process.driver.fails index then .ok (next process index memory)
        else .error memory := by
      funext index memory
      exact attempts process index memory
    rw [same]
    exact launchBatches_eq _ _ _ _
  · intro some_ count within
    exact runBatches_computes route.inPlace route.apart (computes some_ process) within memory

theorem of_ok (route : Route computed blocks attempt) {process : Process} {memory after : Memory ℚ}
    (some_ : blocks = true)
    (ran : launchBatches (attempt process) computed.batches memory = .ok after) :
    computed.Computes process.A process.B memory after := by
  rcases route.launched process memory with ⟨run, launched, -, computes⟩
  rw [ran] at launched
  split at launched
  · cases launched
    exact computes some_ _ le_rfl
  · cases launched

/-- A driver whose launches succeed. -/
def quiet (A B : Memory ℚ) : Process where
  driver :=
    { fails := fun _ => false
      order := fun _ => GridOrder.blockwise }
  A := A
  B := B

theorem quiet_ok (route : Route computed blocks attempt) (some_ : blocks = true)
    (A B memory : Memory ℚ) :
    ∃ after, launchBatches (attempt (quiet A B)) computed.batches memory = .ok after := by
  rcases route.launched (quiet A B) memory with ⟨run, launched, -, -⟩
  have none_ : firstFailure (quiet A B).driver.fails blocks computed.batches = none := by
    rw [firstFailure, List.find?_eq_none]
    intro index _
    simp [some_, quiet]
  rw [none_] at launched
  exact ⟨_, launched⟩

/-- The calls that the route handles leave their product exactly when the kernel reads the same
product. -/
theorem handled_iff (route : Route computed blocks attempt)
    (batches : computed.batches = problem.batches) :
    (∀ process memory after, launchBatches (attempt process) computed.batches memory = .ok after →
        problem.Computes process.A process.B memory after) ↔
      problem.batches = 0 ∨ blocks = false ∨ computed.Agrees problem := by
  constructor
  · intro sound
    by_cases some_ : blocks = true
    · right
      right
      intro A B before after computes
      rcases route.quiet_ok some_ A B before with ⟨after', ran⟩
      have same := computes.unique (route.of_ok some_ ran)
      rw [same]
      exact sound _ _ _ ran
    · exact Or.inr (Or.inl (Bool.eq_false_iff.mpr some_))
  · intro cond process memory after ran
    rcases route.launched process memory with ⟨run, launched, start, -⟩
    by_cases empty : problem.batches = 0
    · rw [batches, empty] at launched
      rw [batches, empty] at ran
      rw [ran] at launched
      cases launched
      rw [start]
      constructor
      · rintro batch row col ⟨below, -⟩
        rw [empty] at below
        exact absurd below (Nat.not_lt_zero _)
      · exact fun _ _ => rfl
    · by_cases some_ : blocks = true
      · rcases cond with none_ | none_ | agrees
        · exact absurd none_ empty
        · rw [some_] at none_
          cases none_
        · exact agrees _ _ _ _ (route.of_ok some_ ran)
      · -- Without blocks the first launch fails.
        have none_ := Bool.eq_false_iff.mpr some_
        have fails : ∃ failed, firstFailure process.driver.fails blocks computed.batches =
          some failed := by
          rw [← Option.isSome_iff_exists, firstFailure, List.find?_isSome]
          refine ⟨0, List.mem_range.mpr ?_, by simp [none_]⟩
          rw [batches]
          exact Nat.pos_of_ne_zero empty
        rcases fails with ⟨failed, fails⟩
        rw [ran, fails] at launched
        cases launched

end Route

end Vllm.Rocblas
