import Mathlib.Order.Bounds.Basic
import Vllm.Core.KVCacheInterface

/-!
# Fitting the maximum model length

What one request of maximum length needs grows with the length, whatever the
specifications of the layers are.  The binary search of `_auto_fit_max_model_len`
therefore finds the largest length that every worker has memory for, and the
capacity check that follows it computes the same estimate again.
-/

namespace Vllm.Core.CachePlan

open Vllm.Library

/-- The parts of `VllmConfig` that sizing the cache reads. -/
structure VllmConfig where
  maxModelLen : Nat
  decodeContextParallelSize : Nat := 1
  maxInFlightTokens : Nat
  mambaCacheMode : MambaCacheMode := .none
  maxNumEncoderInputTokens : Nat := 0
  deriving DecidableEq

/-! ## Memory usage -/

/-- The blocks of a request in the memory of one layer; `max_admission_blocks_per_request`
bounds them where blocks are recycled. -/
def AttentionKind.maxBlocks (config : VllmConfig) (blockSize : Nat) :
    AttentionKind → Except PyError Nat
  | .full .. | .sinkFull .. | .rswa .. | .mla .. | .hiddenState .. => do
      let maxModelLen :=
        if config.decodeContextParallelSize > 1 then
          cdiv config.maxModelLen config.decodeContextParallelSize
        else config.maxModelLen
      pyCdiv maxModelLen blockSize
  | .chunkedLocal chunkSize =>
      pyCdiv (min (chunkSize + config.maxInFlightTokens) config.maxModelLen) blockSize
  | .slidingWindow window extraRetained | .slidingWindowMLA window extraRetained _ => do
      pyAssert (config.decodeContextParallelSize = 1)
      let numBlocks ← pyCdiv
        (min (window + extraRetained + config.maxInFlightTokens - 1) config.maxModelLen) blockSize
      pure (numBlocks + 1)
  | .circularBuffer => .ok 1
  | .encoderOnly => .ok 0
  | .cross => pyCdiv config.maxNumEncoderInputTokens blockSize

/-- The state blocks of a request. -/
def MambaSpec.maxBlocks (config : VllmConfig) (spec : MambaSpec) : Except PyError Nat :=
  match config.mambaCacheMode with
  | .all => do
      let numBlocks ← pyCdiv config.maxModelLen spec.blockSize
      pure (numBlocks + spec.numSpeculativeBlocks)
  | .align => .ok (2 + spec.numSpeculativeBlocks + spec.numPrefillCheckpointBlocks)
  | .none => .ok (1 + spec.numSpeculativeBlocks)

/-- `max_memory_usage_bytes` of the class; an encoder-only layer does not look at its
page. -/
def LayerSpec.maxMemoryUsageBytes (config : VllmConfig) (spec : LayerSpec) :
    Except PyError Nat :=
  match spec with
  | .attention _ .encoderOnly => .ok 0
  | .attention fields kind => do
      let numBlocks ← kind.maxBlocks config fields.blockSize
      let pageSizeBytes ← spec.pageSizeBytes
      pure (numBlocks * pageSizeBytes)
  | .mamba fields => do
      let numBlocks ← fields.maxBlocks config
      let pageSizeBytes ← spec.pageSizeBytes
      pure (numBlocks * pageSizeBytes)

/-- `cdiv(spec.max_memory_usage_bytes(vllm_config), spec.page_size_bytes)`. -/
def LayerSpec.maxPages (config : VllmConfig) (spec : LayerSpec) : Except PyError Nat := do
  let usage ← spec.maxMemoryUsageBytes config
  let pageSizeBytes ← spec.pageSizeBytes
  pyCdiv usage pageSizeBytes

/-- `UniformTypeKVCacheSpecs.max_memory_usage_pages`: the layer with the most pages. -/
def maxMemoryUsagePages (config : VllmConfig) : List LayerSpec → Except PyError Nat
  | [] => .error (.valueError "max() iterable argument is empty")
  | [spec] => spec.maxPages config
  | spec :: rest => do
      let pages ← spec.maxPages config
      let others ← maxMemoryUsagePages config rest
      pure (max pages others)

/-- The block count of a group. -/
def KVCacheGroupSpec.maxBlocks (config : VllmConfig) (group : KVCacheGroupSpec) :
    Except PyError Nat :=
  match group.kvCacheSpec with
  | .layer spec => spec.maxPages config
  | .uniformType _ kvCacheSpecs => maxMemoryUsagePages config (kvCacheSpecs.entries.map (·.2))

/-- `total_blocks` of `_max_memory_usage_bytes_from_groups`. -/
def totalBlocks (config : VllmConfig) : List KVCacheGroupSpec → Except PyError Nat
  | [] => .ok 0
  | group :: rest => do
      let numBlocks ← group.maxBlocks config
      let others ← totalBlocks config rest
      pure (numBlocks + others)

/-- `_max_memory_usage_bytes_from_groups`. -/
def maxMemoryUsageBytesFromGroups (config : VllmConfig) (kvCacheGroups : List KVCacheGroupSpec) :
    Except PyError Nat :=
  if kvCacheGroups = [] then
    .ok 0
  else do
    let bytesPerBlock ← getKvCacheBytesPerBlock kvCacheGroups
    let blocks ← totalBlocks config kvCacheGroups
    pure (bytesPerBlock * blocks)

/-! ## The search -/

/-- `fits`, which leaves the length it tried in the configuration. -/
def fits (kvCacheGroups : List KVCacheGroupSpec) (availableMemory : Int) (modelLen : Nat)
    (config : VllmConfig) : Except PyError Bool × VllmConfig :=
  let config := { config with maxModelLen := modelLen }
  ((maxMemoryUsageBytesFromGroups config kvCacheGroups).map fun usage =>
    decide ((usage : Int) ≤ availableMemory), config)

/-- The loop of the search; the interval shrinks in every round, so its length is
enough fuel. -/
def estimateLoop (kvCacheGroups : List KVCacheGroupSpec) (availableMemory : Int) :
    Nat → Nat → Nat → Nat → VllmConfig → Except PyError Nat × VllmConfig
  | 0, _, _, result, config => (.ok result, config)
  | fuel + 1, left, right, result, config =>
      if left ≤ right then
        let mid := (left + right) / 2
        match fits kvCacheGroups availableMemory mid config with
        | (.error failure, config) => (.error failure, config)
        | (.ok true, config) =>
            estimateLoop kvCacheGroups availableMemory fuel (mid + 1) right mid config
        | (.ok false, config) =>
            estimateLoop kvCacheGroups availableMemory fuel left (mid - 1) result config
      else
        (.ok result, config)

/-- `_estimate_max_model_len_from_groups`; `finally` restores the length. -/
def estimateMaxModelLenFromGroups (config : VllmConfig) (kvCacheGroups : List KVCacheGroupSpec)
    (availableMemory : Int) : Except PyError Nat × VllmConfig :=
  let originalMax := config.maxModelLen
  let searched : Except PyError Nat × VllmConfig :=
    match fits kvCacheGroups availableMemory 1 config with
    | (.error failure, config) => (.error failure, config)
    | (.ok false, config) => (.ok 0, config)
    | (.ok true, config) =>
        estimateLoop kvCacheGroups availableMemory originalMax 1 originalMax 1 config
  (searched.1, { searched.2 with maxModelLen := originalMax })

/-- The loop over the workers. -/
def autoFitLoop : List (List KVCacheGroupSpec × Int) → Nat → VllmConfig →
    Except PyError (Nat × VllmConfig)
  | [], autoFitMax, config => .ok (autoFitMax, config)
  | (groups, availableMemory) :: rest, autoFitMax, config =>
      if groups = [] then
        autoFitLoop rest autoFitMax config
      else
        match estimateMaxModelLenFromGroups config groups availableMemory with
        | (.error failure, _) => .error failure
        | (.ok workerMax, config) =>
            autoFitLoop rest (if workerMax < autoFitMax then workerMax else autoFitMax) config

/-- `_auto_fit_max_model_len`; the result is the changed configuration. -/
def autoFitMaxModelLen (config : VllmConfig)
    (projectedGroupsPerWorker : List (List KVCacheGroupSpec)) (availableMemory : List Int) :
    Except PyError VllmConfig :=
  let originalMax := config.maxModelLen
  if projectedGroupsPerWorker.all (· = []) then
    .ok config
  else do
    let _ ← pyIndex availableMemory 0
    let (autoFitMax, config) ←
      autoFitLoop (projectedGroupsPerWorker.zip availableMemory) originalMax config
    if autoFitMax = 0 then
      .error (.valueError ("Cannot auto-fit max_model_len: not enough GPU memory available " ++
        "to serve even a single token. Try increasing `gpu_memory_utilization`."))
    else if autoFitMax ≥ originalMax then
      pure config
    else
      pure { config with maxModelLen := autoFitMax }

/-- `_check_enough_kv_cache_memory`; the texts are shortened to their first parts. -/
def checkEnoughKvCacheMemory (config : VllmConfig) (groups : List KVCacheGroupSpec)
    (availableMemory : Int) : Except PyError Unit :=
  if availableMemory ≤ 0 then
    .error (.valueError ("No available memory for the cache blocks. " ++
      "Try increasing `gpu_memory_utilization` when initializing the engine"))
  else do
    let neededMemory ← maxMemoryUsageBytesFromGroups config groups
    if (neededMemory : Int) > availableMemory then
      match (estimateMaxModelLenFromGroups config groups availableMemory).1 with
      | .error failure => .error failure
      | .ok _ => .error (.valueError
          "To serve at least one request with the model's max seq len more memory is needed.")
    else
      pure ()

/-- The capacity check of `get_kv_cache_configs`. -/
def checkCapacity (config : VllmConfig) : List (List KVCacheGroupSpec × Int) →
    Except PyError Unit
  | [] => .ok ()
  | (groups, availableMemory) :: rest =>
      if groups = [] then
        checkCapacity config rest
      else do
        checkEnoughKvCacheMemory config groups availableMemory
        checkCapacity config rest

/-! ## Growth -/

/-- Two runs raise the same exception, or the second returns at least as much. -/
inductive Grows : Except PyError Nat → Except PyError Nat → Prop
  | raises (failure : PyError) : Grows (.error failure) (.error failure)
  | returns {low high : Nat} (ordered : low ≤ high) : Grows (.ok low) (.ok high)

theorem Grows.refl (answer : Except PyError Nat) : Grows answer answer := by
  cases answer with
  | error failure => exact .raises failure
  | ok value => exact .returns (Nat.le_refl value)

theorem Grows.bind {first second : Except PyError Nat} {rest others : Nat → Except PyError Nat}
    (grows : Grows first second) (after : ∀ low high, low ≤ high → Grows (rest low) (others high)) :
    Grows (first >>= rest) (second >>= others) := by
  cases grows with
  | raises failure => exact .raises failure
  | returns ordered => exact after _ _ ordered

theorem Grows.bind_same {α : Type} {rest others : α → Except PyError Nat}
    (first : Except PyError α) (after : ∀ value, Grows (rest value) (others value)) :
    Grows (first >>= rest) (first >>= others) := by
  cases first with
  | error failure => exact .raises failure
  | ok value => exact after value

theorem pyCdiv_grows {low high : Nat} (ordered : low ≤ high) (denominator : Nat) :
    Grows (pyCdiv low denominator) (pyCdiv high denominator) := by
  unfold pyCdiv
  split
  · exact .raises _
  · exact .returns (cdiv_mono ordered denominator)

section Growth

variable {low high : Nat} (ordered : low ≤ high) (config : VllmConfig)

include ordered

theorem AttentionKind.maxBlocks_grows (kind : AttentionKind) (blockSize : Nat) :
    Grows (kind.maxBlocks { config with maxModelLen := low } blockSize)
      (kind.maxBlocks { config with maxModelLen := high } blockSize) := by
  have full : Grows
      (pyCdiv (if config.decodeContextParallelSize > 1 then
        cdiv low config.decodeContextParallelSize else low) blockSize)
      (pyCdiv (if config.decodeContextParallelSize > 1 then
        cdiv high config.decodeContextParallelSize else high) blockSize) := by
    apply pyCdiv_grows
    split
    · exact cdiv_mono ordered _
    · exact ordered
  have window (tokens : Nat) : Grows
      (do
        pyAssert (config.decodeContextParallelSize = 1)
        let numBlocks ← pyCdiv (min tokens low) blockSize
        pure (numBlocks + 1))
      (do
        pyAssert (config.decodeContextParallelSize = 1)
        let numBlocks ← pyCdiv (min tokens high) blockSize
        pure (numBlocks + 1)) := by
    apply Grows.bind_same
    intro _
    apply (pyCdiv_grows (min_le_min_left tokens ordered) blockSize).bind
    exact fun _ _ more => .returns (Nat.succ_le_succ more)
  cases kind with
  | full => exact full
  | sinkFull => exact full
  | rswa => exact full
  | mla => exact full
  | hiddenState => exact full
  | chunkedLocal chunkSize => exact pyCdiv_grows (min_le_min_left _ ordered) blockSize
  | slidingWindow size extra => exact window _
  | slidingWindowMLA size extra => exact window _
  | circularBuffer => exact .refl _
  | encoderOnly => exact .refl _
  | cross => exact .refl _

theorem MambaSpec.maxBlocks_grows (spec : MambaSpec) :
    Grows (spec.maxBlocks { config with maxModelLen := low })
      (spec.maxBlocks { config with maxModelLen := high }) := by
  unfold MambaSpec.maxBlocks
  dsimp only
  split
  · apply (pyCdiv_grows ordered _).bind
    exact fun _ _ more => .returns (Nat.add_le_add_right more _)
  · exact .refl _
  · exact .refl _

theorem LayerSpec.maxMemoryUsageBytes_grows (spec : LayerSpec) :
    Grows (spec.maxMemoryUsageBytes { config with maxModelLen := low })
      (spec.maxMemoryUsageBytes { config with maxModelLen := high }) := by
  unfold LayerSpec.maxMemoryUsageBytes
  split
  · exact .refl _
  · apply (AttentionKind.maxBlocks_grows ordered config _ _).bind
    intro less more blocks
    exact Grows.bind_same _ fun page => .returns (Nat.mul_le_mul_right page blocks)
  · apply (MambaSpec.maxBlocks_grows ordered config _).bind
    intro less more blocks
    exact Grows.bind_same _ fun page => .returns (Nat.mul_le_mul_right page blocks)

theorem LayerSpec.maxPages_grows (spec : LayerSpec) :
    Grows (spec.maxPages { config with maxModelLen := low })
      (spec.maxPages { config with maxModelLen := high }) := by
  apply (LayerSpec.maxMemoryUsageBytes_grows ordered config spec).bind
  intro less more usage
  exact Grows.bind_same _ fun page => pyCdiv_grows usage page

theorem maxMemoryUsagePages_grows (specs : List LayerSpec) :
    Grows (maxMemoryUsagePages { config with maxModelLen := low } specs)
      (maxMemoryUsagePages { config with maxModelLen := high } specs) := by
  induction specs with
  | nil => exact .raises _
  | cons spec rest inductionHypothesis =>
      cases rest with
      | nil => exact LayerSpec.maxPages_grows ordered config spec
      | cons next rest =>
          apply (LayerSpec.maxPages_grows ordered config spec).bind
          intro less more pages
          apply inductionHypothesis.bind
          exact fun fewer others rest => .returns (max_le_max pages rest)

theorem totalBlocks_grows (groups : List KVCacheGroupSpec) :
    Grows (totalBlocks { config with maxModelLen := low } groups)
      (totalBlocks { config with maxModelLen := high } groups) := by
  induction groups with
  | nil => exact .refl _
  | cons group rest inductionHypothesis =>
      have first : Grows (group.maxBlocks { config with maxModelLen := low })
          (group.maxBlocks { config with maxModelLen := high }) := by
        unfold KVCacheGroupSpec.maxBlocks
        split
        · exact LayerSpec.maxPages_grows ordered config _
        · exact maxMemoryUsagePages_grows ordered config _
      apply first.bind
      intro less more blocks
      apply inductionHypothesis.bind
      exact fun fewer others rest => .returns (Nat.add_le_add blocks rest)

/-- What a request needs grows with the maximum length. -/
theorem maxMemoryUsageBytesFromGroups_grows (groups : List KVCacheGroupSpec) :
    Grows (maxMemoryUsageBytesFromGroups { config with maxModelLen := low } groups)
      (maxMemoryUsageBytesFromGroups { config with maxModelLen := high } groups) := by
  unfold maxMemoryUsageBytesFromGroups
  split
  · exact .refl _
  · apply Grows.bind_same
    intro bytesPerBlock
    apply (totalBlocks_grows ordered config groups).bind
    exact fun less more blocks => .returns (Nat.mul_le_mul_left bytesPerBlock blocks)

end Growth

/-! ## Exactness -/

/-- One request of the given length fits the memory of a worker. -/
def Fits (config : VllmConfig) (groups : List KVCacheGroupSpec) (availableMemory : Int)
    (modelLen : Nat) : Prop :=
  ∃ usage, maxMemoryUsageBytesFromGroups { config with maxModelLen := modelLen } groups =
      .ok usage ∧ (usage : Int) ≤ availableMemory

section Search

variable {config : VllmConfig} {groups : List KVCacheGroupSpec} {availableMemory : Int}

variable {modelLen usage : Nat}

/-- Shorter requests fit as well. -/
theorem Fits.shorter {shorter : Nat} (fits : Fits config groups availableMemory modelLen)
    (ordered : shorter ≤ modelLen) : Fits config groups availableMemory shorter := by
  rcases fits with ⟨usage, ran, room⟩
  have grows := maxMemoryUsageBytesFromGroups_grows ordered config groups
  rw [ran] at grows
  unfold Fits
  generalize maxMemoryUsageBytesFromGroups { config with maxModelLen := shorter } groups = less
    at grows ⊢
  cases grows with
  | returns fewer => exact ⟨_, rfl, by omega⟩

theorem Grows.returns_iff {first second : Except PyError Nat} (grows : Grows first second) :
    (∃ low, first = .ok low) ↔ ∃ high, second = .ok high := by
  cases grows <;> simp

/-- Whether the estimate can be computed does not depend on the length. -/
theorem usage_of_usage
    (ran : maxMemoryUsageBytesFromGroups { config with maxModelLen := modelLen } groups =
      .ok usage) (other : Nat) :
    ∃ usage, maxMemoryUsageBytesFromGroups { config with maxModelLen := other } groups =
      .ok usage := by
  rcases Nat.le_total modelLen other with ordered | ordered
  · exact (maxMemoryUsageBytesFromGroups_grows ordered config groups).returns_iff.mp ⟨usage, ran⟩
  · exact (maxMemoryUsageBytesFromGroups_grows ordered config groups).returns_iff.mpr ⟨usage, ran⟩

/-- A test answers and keeps everything but the length. -/
theorem fits_eq
    (ran : maxMemoryUsageBytesFromGroups { config with maxModelLen := modelLen } groups =
      .ok usage) (current : Nat) :
    fits groups availableMemory modelLen { config with maxModelLen := current } =
      (.ok (decide ((usage : Int) ≤ availableMemory)),
        { config with maxModelLen := modelLen }) := by
  unfold fits
  dsimp only
  rw [ran]
  rfl

/-- The loop finds the largest length that fits: whatever fits is at most the result or
the right end, and the interval begins at most one above the result. -/
theorem estimateLoop_spec
    (ran : maxMemoryUsageBytesFromGroups { config with maxModelLen := modelLen } groups =
      .ok usage) {fuel left right result bound : Nat} (current : Nat)
    (fueled : right + 1 - left ≤ fuel) (positive : 1 ≤ left) (near : left ≤ result + 1)
    (reached : result ≤ left) (inside : right ≤ bound)
    (holds : Fits config groups availableMemory result)
    (below : ∀ length, length ≤ bound → Fits config groups availableMemory length →
      length ≤ max result right) :
    ∃ found last, estimateLoop groups availableMemory fuel left right result
        { config with maxModelLen := current } =
          (.ok found, { config with maxModelLen := last }) ∧
      Fits config groups availableMemory found ∧
      ∀ length, length ≤ bound → Fits config groups availableMemory length → length ≤ found := by
  induction fuel generalizing left right result current with
  | zero =>
      refine ⟨result, current, rfl, holds, fun length within fitting => ?_⟩
      have most := below length within fitting
      omega
  | succ fuel inductionHypothesis =>
      rw [estimateLoop]
      split
      · rename_i nonempty
        rcases usage_of_usage ran ((left + right) / 2) with ⟨middle, tried⟩
        dsimp only
        rw [fits_eq tried current]
        by_cases room : (middle : Int) ≤ availableMemory
        · rw [decide_eq_true room]
          apply inductionHypothesis
          · omega
          · exact Nat.le_add_left 1 _
          · exact Nat.le_refl _
          · exact Nat.le_succ _
          · exact inside
          · exact ⟨middle, tried, room⟩
          · intro length within fitting
            have most := below length within fitting
            omega
        · rw [decide_eq_false room]
          apply inductionHypothesis
          · omega
          · exact positive
          · exact near
          · exact reached
          · omega
          · exact holds
          · intro length within fitting
            -- What is at least the middle needs at least as much.
            by_contra beyond
            rcases fitting.shorter (show (left + right) / 2 ≤ length by omega) with
              ⟨usage', ran', room'⟩
            rw [tried] at ran'
            cases ran'
            exact room room'
      · refine ⟨result, current, rfl, holds, fun length within fitting => ?_⟩
        have most := below length within fitting
        omega

/-- The estimate separates the lengths that fit from those that do not, and it leaves
the configuration as it was. -/
theorem estimateMaxModelLenFromGroups_spec (config : VllmConfig)
    (groups : List KVCacheGroupSpec) (availableMemory : Int) :
    (estimateMaxModelLenFromGroups config groups availableMemory).2 = config ∧
      ∀ workerMax, (estimateMaxModelLenFromGroups config groups availableMemory).1 =
          .ok workerMax →
        ∀ length, 1 ≤ length → length ≤ config.maxModelLen →
          (length ≤ workerMax ↔ Fits config groups availableMemory length) := by
  unfold estimateMaxModelLenFromGroups
  cases tried : maxMemoryUsageBytesFromGroups { config with maxModelLen := 1 } groups with
  | error failure =>
      have raised : fits groups availableMemory 1 config =
          (.error failure, { config with maxModelLen := 1 }) := by
        unfold fits
        dsimp only
        rw [tried]
        rfl
      rw [raised]
      exact ⟨rfl, nofun⟩
  | ok usage =>
      rw [show config = { config with maxModelLen := config.maxModelLen } from rfl,
        fits_eq tried config.maxModelLen]
      by_cases room : (usage : Int) ≤ availableMemory
      · rw [decide_eq_true room]
        dsimp only
        have first : Fits config groups availableMemory 1 := ⟨usage, tried, room⟩
        have fueled : config.maxModelLen + 1 - 1 ≤ config.maxModelLen := Nat.le_refl _
        have below (length : Nat) (within : length ≤ config.maxModelLen)
            (_ : Fits config groups availableMemory length) :
            length ≤ max 1 config.maxModelLen := by omega
        rcases estimateLoop_spec tried 1 fueled (Nat.le_refl 1) (Nat.le_succ 1) (Nat.le_refl 1)
          (Nat.le_refl _) first below with ⟨found, last, ran, holds, greatest⟩
        rw [ran]
        refine ⟨rfl, ?_⟩
        rintro workerMax same length positive within
        cases same
        constructor
        · exact holds.shorter
        · exact greatest length within
      · rw [decide_eq_false room]
        refine ⟨rfl, ?_⟩
        rintro workerMax same length positive within
        cases same
        constructor
        · omega
        · intro fitting
          rcases fitting.shorter positive with ⟨usage', ran', room'⟩
          rw [tried] at ran'
          cases ran'
          exact absurd room' room

end Search

/-- A length fits every worker that has cache groups. -/
def FitsAll (config : VllmConfig) (workers : List (List KVCacheGroupSpec × Int))
    (modelLen : Nat) : Prop :=
  ∀ worker ∈ workers, worker.1 ≠ [] → Fits config worker.1 worker.2 modelLen

section Minimum

variable (workerMax autoFitMax : Nat)

theorem fitted_le :
    (if workerMax < autoFitMax then workerMax else autoFitMax) ≤ autoFitMax := by
  split <;> omega

theorem le_fitted (length : Nat) :
    length ≤ (if workerMax < autoFitMax then workerMax else autoFitMax) ↔
      length ≤ workerMax ∧ length ≤ autoFitMax := by
  split <;> omega

end Minimum

variable {workers : List (List KVCacheGroupSpec × Int)}

variable {config : VllmConfig}

theorem autoFitLoop_spec {config' : VllmConfig} {autoFitMax fitted : Nat}
    (ran : autoFitLoop workers autoFitMax config = .ok (fitted, config')) :
    config' = config ∧ fitted ≤ autoFitMax ∧
      ∀ length, 1 ≤ length → length ≤ config.maxModelLen →
        (length ≤ fitted ↔ length ≤ autoFitMax ∧ FitsAll config workers length) := by
  induction workers generalizing autoFitMax with
  | nil =>
      cases ran
      exact ⟨rfl, Nat.le_refl _, fun length _ _ => by simp [FitsAll]⟩
  | cons worker rest inductionHypothesis =>
      rcases worker with ⟨groups, availableMemory⟩
      rw [autoFitLoop] at ran
      split at ran
      · rename_i none
        rcases inductionHypothesis ran with ⟨same, less, exact'⟩
        refine ⟨same, less, fun length positive within => ?_⟩
        rw [exact' length positive within]
        simp [FitsAll, none]
      · rename_i some
        rcases estimateMaxModelLenFromGroups_spec config groups availableMemory with
          ⟨unchanged, separates⟩
        split at ran
        · contradiction
        · rename_i workerMax config'' estimated
          have answer : (estimateMaxModelLenFromGroups config groups availableMemory).1 =
              .ok workerMax := by rw [estimated]
          rw [estimated] at unchanged
          subst unchanged
          rcases inductionHypothesis ran with ⟨same, less, exact'⟩
          refine ⟨same, ?_, fun length positive within => ?_⟩
          · exact le_trans less (fitted_le workerMax autoFitMax)
          · rw [exact' length positive within]
            have here := separates workerMax answer length positive within
            have both : FitsAll config'' ((groups, availableMemory) :: rest) length ↔
                length ≤ workerMax ∧ FitsAll config'' rest length := by
              rw [here]
              simp [FitsAll, some]
            rw [both, le_fitted]
            simp only [and_assoc, and_left_comm]

/-! ## The capacity check -/

/-- Where the estimate fits, only the guard on the memory itself can refuse a worker. -/
theorem checkEnoughKvCacheMemory_iff {groups : List KVCacheGroupSpec} {availableMemory : Int}
    (fitting : Fits config groups availableMemory config.maxModelLen) :
    checkEnoughKvCacheMemory config groups availableMemory = .ok () ↔ 0 < availableMemory := by
  rcases fitting with ⟨usage, ran, room⟩
  unfold checkEnoughKvCacheMemory
  split
  · rename_i exhausted
    constructor
    · nofun
    · intro positive
      omega
  · rename_i positive
    constructor
    · intro _
      omega
    · intro _
      apply bind_eq_ok.mpr ⟨usage, ran, _⟩
      rw [if_neg (Int.not_lt.mpr room)]
      rfl

theorem checkCapacity_iff (fitting : FitsAll config workers config.maxModelLen) :
    checkCapacity config workers = .ok () ↔ ∀ worker ∈ workers, worker.1 ≠ [] → 0 < worker.2 := by
  induction workers with
  | nil => simp [checkCapacity]
  | cons worker rest inductionHypothesis =>
      have others := inductionHypothesis fun worker member =>
        fitting worker (List.mem_cons_of_mem _ member)
      rw [checkCapacity]
      split
      · rename_i empty
        simp [others, empty]
      · rename_i nonempty
        have here := checkEnoughKvCacheMemory_iff (fitting _ List.mem_cons_self nonempty)
        rw [List.forall_mem_cons, ← others]
        constructor
        · intro passed
          rcases bind_eq_ok.mp passed with ⟨⟨⟩, checked, passed⟩
          exact ⟨fun _ => here.mp checked, passed⟩
        · rintro ⟨positive, passed⟩
          exact bind_eq_ok.mpr ⟨(), here.mpr (positive nonempty), passed⟩

/-- Sixteen tokens of one head in two bytes each. -/
def fittedLayer : LayerSpec :=
  .attention
    { blockSize := 16, numKvHeads := 1, headSize := 1, headSizeV := 1, dtype := ⟨"half", 2⟩ }
    (.full {})

end Vllm.Core.CachePlan
