import Vllm.Core.BlockHash
import Vllm.Core.EncoderCacheManager
import Vllm.Core.KVCacheManager
import Vllm.Core.RequestQueue

/-!
# The scheduler: state and shared operations

The state of `vllm.v1.core.sched.scheduler.Scheduler` and of its subclass
`AsyncScheduler`, and the operations that both phases of a step use.  Requests
are objects in the source: the dictionary `requests` holds them here, and queues
and sets hold their ids.

Connectors live outside the scheduler.  What they answer arrives with each call,
in `ScheduleInput` and `ModelRunnerOutput`.  Left out are statistics, events and
logging, the zeroing of new blocks, pipeline payloads, and encoder-decoder
models, which come with a cache manager of their own.
-/

namespace Vllm.Core

open Vllm.Library

/-- `PauseState`. -/
inductive PauseState where
  | unpaused
  | pausedNew
  | pausedAll
  deriving DecidableEq, Repr

/-- The settings that the scheduler reads from the configuration. -/
structure SchedulerConfig where
  maxNumRunningReqs : Nat
  maxNumScheduledTokens : Nat
  maxNumBatchedTokens : Nat
  maxModelLen : Nat
  policy : SchedulingPolicy := .fcfs
  longPrefillTokenThreshold : Nat := 0
  enableChunkedPrefill : Bool := true
  schedulerReserveFullIsl : Bool := true
  /-- `lora_config.max_loras`, if LoRA is enabled. -/
  maxLoras : Option Nat := none
  /-- `block_size` of the scheduler and of the cache configuration. -/
  blockSize : Nat
  cacheBlockSize : Nat
  hashBlockSize : Nat
  /-- The granularity of the requests' block hasher, if they have one. -/
  blockHasher : Option Nat := none
  /-- Whether the scheduler is an `AsyncScheduler`. -/
  asyncScheduling : Bool := false
  ppSize : Nat := 1
  useV2ModelRunner : Bool := false
  numSpecTokens : Nat := 0
  numLookaheadTokens : Nat := 0
  numPrefillLookahead : Nat := 0
  useEagle : Bool := false
  dynamicSdLookup : Option (List Nat) := none
  /-- `max_num_new_slots_for_drafting`. -/
  draftSlots : Nat := 0
  numSampledTokensPerStep : Nat := 1
  /-- Encoder settings. -/
  maxNumEncoderInputTokens : Nat := 0
  disableChunkedMmInput : Bool := false
  isMmEncoderOnly : Bool := false
  /-- Mamba settings. -/
  needMambaBlockAlignedSplit : Bool := false
  mambaHasPrefillCheckpointBlocks : Bool := false
  mambaPartialCacheHit : Bool := false
  /-- Connector settings. -/
  connector : Bool := false
  ecConnector : Bool := false
  recomputeKvLoadFailures : Bool := true
  deferBlockFree : Bool := false
  requiresKvDelivery : Bool := false

/-- `Scheduler`.  The last field is history: the multi-modal inputs of each request
whose encoder output was scheduled for it or reported cached since the request
last gave up its references.  No decision reads it. -/
structure Scheduler (H : Type) where
  config : SchedulerConfig
  requests : Dict RequestId (Request H)
  waiting : List RequestId
  skippedWaiting : List RequestId
  running : List RequestId
  finishedReqIds : List RequestId
  resetPreemptedReqIds : List RequestId
  numWaitingForStreamingInput : Int
  finishedRecvingKvReqIds : List RequestId
  failedRecvingKvReqIds : List RequestId
  grammarCompileErrorReqs : List RequestId
  encoderCacheManager : EncoderCacheManager
  kvCacheManager : KVCacheManager H
  currentStep : Nat
  prefillCapacityBound : Bool
  schedStepSeq : Nat
  processedStepSeq : Nat
  deferredFrees : List (Nat × List BlockId)
  pauseState : PauseState
  inflightPrefills : List RequestId
  servedInputs : Dict RequestId (List Nat)

namespace Scheduler

variable {H : Type}

/-- `__init__`, around the two cache managers. -/
def init (config : SchedulerConfig) (kvCacheManager : KVCacheManager H)
    (encoderCacheSize : Nat) : Scheduler H where
  config := config
  requests := .empty
  waiting := []
  skippedWaiting := []
  running := []
  finishedReqIds := []
  resetPreemptedReqIds := []
  numWaitingForStreamingInput := 0
  finishedRecvingKvReqIds := []
  failedRecvingKvReqIds := []
  grammarCompileErrorReqs := []
  encoderCacheManager := .init encoderCacheSize
  kvCacheManager := kvCacheManager
  currentStep := 0
  prefillCapacityBound := false
  schedStepSeq := 0
  processedStepSeq := 0
  deferredFrees := []
  pauseState := .unpaused
  inflightPrefills := []
  servedInputs := .empty

/-- The request object of an id. -/
def getRequest (scheduler : Scheduler H) (requestId : RequestId) : Except PyError (Request H) :=
  match scheduler.requests.get? requestId with
  | some request => .ok request
  | none => .error .keyError

/-- The object of the request is now in the given state. -/
def setRequest (scheduler : Scheduler H) (request : Request H) : Scheduler H :=
  { scheduler with requests := scheduler.requests.insert request.requestId request }

/-- The comparison of two queued requests. -/
def lt (scheduler : Scheduler H) (requestId other : RequestId) : Bool :=
  match scheduler.requests.get? requestId, scheduler.requests.get? other with
  | some request, some another => request.lt another
  | _, _ => false

/-- Note in the history that the request was served these inputs. -/
def serve (scheduler : Scheduler H) (requestId : RequestId) (inputIds : List Nat) :
    Scheduler H :=
  { scheduler with
    servedInputs := scheduler.servedInputs.insert requestId
      (scheduler.servedInputs.getD requestId [] ++ inputIds) }

/-- `EncoderCacheManager.free`: the request gives up all its references. -/
def freeEncoderCache (scheduler : Scheduler H) (request : Request H) :
    Except PyError (Scheduler H) := do
  let manager ← scheduler.encoderCacheManager.free request
  pure { scheduler with
    encoderCacheManager := manager
    servedInputs := scheduler.servedInputs.erase request.requestId }

/-- `_is_blocked_waiting_status`. -/
def isBlockedWaitingStatus : RequestStatus → Bool
  | .waitingForStructuredOutputGrammar | .waitingForRemoteKvs | .waitingForStreamingReq => true
  | _ => false

/-- `_enqueue_waiting_request`. -/
def enqueueWaitingRequest (scheduler : Scheduler H) (request : Request H) : Scheduler H :=
  if isBlockedWaitingStatus request.status then
    { scheduler with
      skippedWaiting := RequestQueue.addRequest scheduler.config.policy scheduler.lt
        scheduler.skippedWaiting request.requestId }
  else
    { scheduler with
      waiting := RequestQueue.addRequest scheduler.config.policy scheduler.lt
        scheduler.waiting request.requestId }

/-! ## Releasing blocks -/

/-- `_free_request_blocks`. -/
def freeRequestBlocks (scheduler : Scheduler H) (request : Request H) :
    Except PyError (Scheduler H) :=
  if !scheduler.config.deferBlockFree ∨ request.lastSchedSeq ≤ scheduler.processedStepSeq then do
    let kvCacheManager ← scheduler.kvCacheManager.free request
    pure { scheduler with kvCacheManager := kvCacheManager }
  else
    let popped := scheduler.kvCacheManager.popBlocksForFree request
    let scheduler := { scheduler with kvCacheManager := popped.2 }
    if popped.1 = [] then
      .ok scheduler
    else
      .ok { scheduler with
        deferredFrees := scheduler.deferredFrees ++ [(scheduler.schedStepSeq, popped.1)] }

/-- Return blocks to the pool. -/
def freePoolBlocks (scheduler : Scheduler H) (blocks : List BlockId) :
    Except PyError (Scheduler H) := do
  let pool ← scheduler.kvCacheManager.blockPool.freeBlocks blocks
  pure { scheduler with kvCacheManager := scheduler.kvCacheManager.setBlockPool pool }

/-- `_free_cow_retained_blocks`. -/
def freeCowRetainedBlocks (scheduler : Scheduler H) (blocks : List BlockId) (fenceSeq : Nat) :
    Except PyError (Scheduler H) :=
  if !scheduler.config.deferBlockFree ∨ fenceSeq ≤ scheduler.processedStepSeq then
    scheduler.freePoolBlocks blocks
  else
    .ok { scheduler with
      deferredFrees := scheduler.deferredFrees ++ [(fenceSeq, blocks.reverse)] }

/-- `_drain_deferred_frees`, on the queue of deferred frees. -/
def drainDeferredFrees :
    List (Nat × List BlockId) → Scheduler H → Except PyError (Scheduler H)
  | [], scheduler => .ok { scheduler with deferredFrees := [] }
  | (fence, blocks) :: rest, scheduler =>
      if fence > scheduler.processedStepSeq then
        .ok { scheduler with deferredFrees := (fence, blocks) :: rest }
      else do
        let scheduler ← scheduler.freePoolBlocks blocks.reverse
        drainDeferredFrees rest scheduler

/-! ## Preemption -/

end Scheduler

/-- The fields of a request that `_preempt_request` resets. -/
def Request.preempted {H : Type} (request : Request H) (dropStaleOutput : Bool) : Request H :=
  { request with
    status := .preempted
    numComputedTokens := 0
    specTokenIds := []
    dropStaleOutput :=
      dropStaleOutput || (request.dropStaleOutput && decide (0 < request.numStaleOutputTokens))
    numStaleOutputTokens := request.numInFlightTokens
    numOutputPlaceholders := 0
    numPreemptions := request.numPreemptions + 1 }

namespace Scheduler

variable {H : Type}

/-- `_preempt_request`. -/
def preemptRequest (scheduler : Scheduler H) (requestId : RequestId) (dropStaleOutput : Bool) :
    Except PyError (Scheduler H) := do
  let request ← scheduler.getRequest requestId
  pyAssert (request.status = .running)
  let scheduler ← scheduler.freeRequestBlocks request
  let scheduler ← scheduler.freeEncoderCache request
  let scheduler := scheduler.setRequest (request.preempted dropStaleOutput)
  pure { scheduler with
    inflightPrefills := scheduler.inflightPrefills.filter (· ≠ requestId)
    waiting := RequestQueue.prependRequest scheduler.config.policy scheduler.lt
      scheduler.waiting requestId
    resetPreemptedReqIds := scheduler.resetPreemptedReqIds.insert requestId }

/-! ## Sizing a chunk -/

/-- `_mamba_block_aligned_split`. -/
def mambaBlockAlignedSplit (config : SchedulerConfig) (request : Request H) (numNewTokens : Int)
    (numNewLocalComputedTokens numExternalComputedTokens : Nat) : Int :=
  let start : Int :=
    request.numComputedTokens + numNewLocalComputedTokens + numExternalComputedTokens
  let prefillEnd : Int := max (request.numPromptTokens : Int) (request.numTokens - 1)
  if start ≥ prefillEnd then
    numNewTokens
  else
    let blockSize : Int := config.cacheBlockSize
    let lastBlock : Int := request.numTokens - request.numTokens % blockSize
    let lastBlock := if config.useEagle then max (lastBlock - blockSize) 0 else lastBlock
    let finish := start + numNewTokens
    let useInternalCheckpoint :=
      config.mambaHasPrefillCheckpointBlocks && decide (start % blockSize = 0)
    let lastCachePosition := if useInternalCheckpoint then 0 else lastBlock
    let finish :=
      if finish < prefillEnd ∧ !useInternalCheckpoint then
        let maxPrefillTokens : Int :=
          if config.longPrefillTokenThreshold > 0 then
            min config.maxNumScheduledTokens config.longPrefillTokenThreshold
          else
            config.maxNumScheduledTokens
        let alignedEnd := finish / blockSize * blockSize
        if alignedEnd > start ∨ blockSize ≤ maxPrefillTokens then alignedEnd else finish
      else
        finish
    let nextBlockBoundary := (start / blockSize + 1) * blockSize
    let tailBoundary : Int :=
      if config.mambaPartialCacheHit then
        request.numPromptTokens / config.hashBlockSize * config.hashBlockSize
      else
        0
    let boundary : Int := request.sharedPrefixBoundary
    let stops : List Int :=
      [if start % blockSize ≠ 0 then nextBlockBoundary else 0, lastCachePosition,
        if lastCachePosition < tailBoundary ∧ tailBoundary < request.numPromptTokens then
          tailBoundary
        else
          0,
        if start < boundary ∧ boundary < finish then
          start + (boundary - start) / blockSize * blockSize
        else
          0]
    -- The earliest mandatory position strictly inside the chunk.
    let finish := (stops.filter fun stop => start < stop ∧ stop < finish).foldl min finish
    max (finish - start) 0

/-- `_reserve_prefill_lookahead`. -/
def reservePrefillLookahead (config : SchedulerConfig) (request : Request H)
    (numComputedTokens : Nat) (numNewTokens : Int) : Nat :=
  let remaining : Int := request.numTokens - numComputedTokens - numNewTokens
  if 0 < remaining ∧ remaining < config.numPrefillLookahead then
    (numNewTokens - (config.numPrefillLookahead - remaining)).toNat
  else
    numNewTokens.toNat

/-- `_request_remaining_blocks`. -/
def requestRemainingBlocks [DecidableEq H] (config : SchedulerConfig) (request : Request H)
    (manager : KVCacheManager H) : Except PyError (Int × KVCacheManager H) := do
  let fullNumTokens := min request.numTokens config.maxModelLen
  let (numBlocks, coordinator) ← manager.coordinator.getNumBlocksToAllocate request.requestId
    fullNumTokens manager.emptyKvCacheBlocks 0 request.numComputedTokens
    request.numComputedTokens fullNumTokens true
  pure (numBlocks, manager.setCoordinator coordinator)

/-- `_inflight_prefill_reserved_blocks`. -/
def inflightPrefillReservedBlocks [DecidableEq H] (scheduler : Scheduler H) :
    Except PyError (Int × Scheduler H) :=
  scheduler.inflightPrefills.foldlM
    (fun (total, scheduler) requestId => do
      let request ← scheduler.getRequest requestId
      let (numBlocks, manager) ←
        requestRemainingBlocks scheduler.config request scheduler.kvCacheManager
      pure (total + numBlocks, { scheduler with kvCacheManager := manager }))
    (0, scheduler)

end Scheduler

end Vllm.Core
