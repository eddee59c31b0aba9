import Vllm.Core.SchedulerUpdate

/-!
# `update_from_output`

The result of a step comes back: the scheduled requests drain their in-flight
counters, take their sampled tokens and stop if it is time.  Failed and finished
KV transfers are accounted for around that.
-/

namespace Vllm.Core

open Vllm.Library

/-- `KVConnectorOutput`. -/
structure KVConnectorOutput where
  invalidBlockIds : List BlockId := []
  finishedRecving : List RequestId := []
  finishedSending : List RequestId := []
  deriving Repr

/-- `ModelRunnerOutput`, by request id, with the answers that the grammar backend
and the connectors give while it is processed. -/
structure ModelRunnerOutput where
  sampledTokenIds : RequestId → List TokenId := fun _ => []
  /-- Whether the request has a pooler output. -/
  poolerOutput : RequestId → Bool := fun _ => false
  /-- Whether the grammar rejects the sampled tokens. -/
  grammarRejects : RequestId → List TokenId → Bool := fun _ _ => false
  kvConnectorOutput : Option KVConnectorOutput := none
  connectorDelays : RequestId → Bool := fun _ => false

/-- The part of `EngineCoreOutput` that depends on the request's progress; the
status it stopped with stands for its finish reason. -/
structure EngineCoreOutput where
  requestId : RequestId
  newTokenIds : List TokenId
  finishedWith : Option RequestStatus
  deriving DecidableEq, Repr

/-- The local variables of `update_from_output`, with the scheduler itself. -/
structure UpdatePass (H : Type) where
  scheduler : Scheduler H
  stoppedRunningReqs : List RequestId := []
  stoppedPreemptedReqs : List RequestId := []
  outputs : List EngineCoreOutput := []

namespace Scheduler

variable {H : Type}

/-! ## Failed KV loads -/

/-- The variables of `_update_requests_with_invalid_blocks`. -/
structure InvalidBlocksPass (H : Type) where
  scheduler : Scheduler H
  affectedReqIds : List RequestId := []
  blocksToEvict : List BlockId := []
  markedInvalidBlockIds : List BlockId := []

/-- The inner loop over the blocks of one request: whether it is affected, the
index of the first invalid block that no earlier request recomputes, and the
marked blocks. -/
def markInvalidBlocks (invalidBlockIds : List BlockId) :
    Nat → List BlockId → Bool × Option Nat × List BlockId → Bool × Option Nat × List BlockId
  | _, [], marks => marks
  | idx, blockId :: rest, (isAffected, first, marked) =>
      let marks :=
        if blockId ∈ invalidBlockIds then
          if blockId ∈ marked then (true, first, marked)
          else (true, some (first.getD idx), blockId :: marked)
        else
          (isAffected, first, marked)
      markInvalidBlocks invalidBlockIds (idx + 1) rest marks

/-- One request of `_update_requests_with_invalid_blocks`. -/
def updateRequestWithInvalidBlocks (invalidBlockIds : List BlockId)
    (numScheduledTokens : Dict RequestId Nat) (evictBlocks : Bool) (pass : InvalidBlocksPass H)
    (requestId : RequestId) : Except PyError (InvalidBlocksPass H) := do
  let request ← pass.scheduler.getRequest requestId
  match pass.scheduler.kvCacheManager.getBlocks requestId with
  | [reqBlockIds] =>
      let blockSize := pass.scheduler.config.blockSize
      let reqNumComputedTokens :=
        request.numComputedTokens - numScheduledTokens.getD requestId 0
      let (isAffected, first, marked) := markInvalidBlocks invalidBlockIds 0
        (reqBlockIds.take (cdiv reqNumComputedTokens blockSize))
        (false, none, pass.markedInvalidBlockIds)
      if isAffected then
        let numComputedTokens :=
          match first with
          | some idx => idx * blockSize
          | none => reqNumComputedTokens
        pure
          { scheduler :=
              pass.scheduler.setRequest { request with numComputedTokens := numComputedTokens }
            affectedReqIds := pass.affectedReqIds.insert requestId
            blocksToEvict :=
              match first with
              | some idx =>
                  if evictBlocks then pass.blocksToEvict ++ reqBlockIds.drop idx
                  else pass.blocksToEvict
              | none => pass.blocksToEvict
            markedInvalidBlockIds := marked }
      else
        pure { pass with markedInvalidBlockIds := marked }
  | _ => .error (.valueError "too many values to unpack (expected 1)")

/-- `_update_requests_with_invalid_blocks`. -/
def updateRequestsWithInvalidBlocks (scheduler : Scheduler H) (requestIds : List RequestId)
    (invalidBlockIds : List BlockId) (numScheduledTokens : Dict RequestId Nat)
    (evictBlocks : Bool) : Except PyError (InvalidBlocksPass H) :=
  requestIds.foldlM
    (updateRequestWithInvalidBlocks invalidBlockIds numScheduledTokens evictBlocks)
    { scheduler := scheduler }

/-- `_handle_invalid_blocks`: the requests that the main loop skips. -/
def handleInvalidBlocks [DecidableEq H] [BlockHashing H] (scheduler : Scheduler H)
    (invalidBlockIds : List BlockId) (numScheduledTokens : Dict RequestId Nat) :
    Except PyError (List RequestId × Scheduler H) := do
  let asyncLoadReqs :=
    (RequestQueue.iterate scheduler.config.policy scheduler.lt scheduler.skippedWaiting).filter
      fun requestId => (scheduler.requests.get? requestId).any
        fun request => request.status = .waitingForRemoteKvs
  let asyncLoads ← scheduler.updateRequestsWithInvalidBlocks asyncLoadReqs invalidBlockIds
    numScheduledTokens false
  let syncLoads ← asyncLoads.scheduler.updateRequestsWithInvalidBlocks
    asyncLoads.scheduler.running invalidBlockIds numScheduledTokens true
  let scheduler := syncLoads.scheduler
  if asyncLoads.affectedReqIds = [] ∧ syncLoads.affectedReqIds = [] then
    pure ([], scheduler)
  else if scheduler.config.recomputeKvLoadFailures then
    pure (syncLoads.affectedReqIds, { scheduler with
        failedRecvingKvReqIds := scheduler.failedRecvingKvReqIds ∪ asyncLoads.affectedReqIds })
  else do
    let manager ←
      (if syncLoads.blocksToEvict = [] then .ok scheduler.kvCacheManager
      else scheduler.kvCacheManager.evictBlocks syncLoads.blocksToEvict.dedup)
    pure (asyncLoads.affectedReqIds ∪ syncLoads.affectedReqIds,
      { scheduler with kvCacheManager := manager })

/-- `_update_from_kv_xfer_finished`. -/
def updateFromKvXferFinished (scheduler : Scheduler H) (output : KVConnectorOutput) :
    Except PyError (Scheduler H) := do
  let scheduler ← output.finishedRecving.foldlM
    (fun (scheduler : Scheduler H) requestId =>
      match scheduler.requests.get? requestId with
      | none => .error .assertionError
      | some request =>
          if request.status = .waitingForRemoteKvs then
            .ok { scheduler with
              finishedRecvingKvReqIds := scheduler.finishedRecvingKvReqIds.insert requestId }
          else
            scheduler.freeBlocks request)
    scheduler
  output.finishedSending.foldlM
    (fun (scheduler : Scheduler H) requestId =>
      match scheduler.requests.get? requestId with
      | none => .error .assertionError
      | some request => scheduler.freeBlocks request)
    scheduler

/-! ## The output of one request -/

end Scheduler

/-- The request drains its share of the step from the in-flight counters; the flag
says that the output is stale. -/
def Request.drained {H : Type} (request : Request H) (numTokensScheduled : Nat) :
    Bool × Request H :=
  let isStale := decide (request.numStaleOutputTokens > 0)
  (isStale, { request with
      numInFlightTokens := request.numInFlightTokens - numTokensScheduled
      numStaleOutputTokens :=
        if isStale then request.numStaleOutputTokens - numTokensScheduled
        else request.numStaleOutputTokens })

/-- Rejected drafts are rolled back.  The number is an integer, as the source has
it: it is negative if the runner returned more tokens than were scheduled. -/
def Request.rolledBack {H : Type} (request : Request H) (numRejected : Int) : Request H :=
  { request with
    numComputedTokens :=
      if request.numComputedTokens > 0 then
        ((request.numComputedTokens : Int) - numRejected).toNat
      else
        request.numComputedTokens
    numOutputPlaceholders :=
      if request.numOutputPlaceholders > 0 then request.numOutputPlaceholders - numRejected
      else request.numOutputPlaceholders }

/-- The rejection handling of `update_from_output`. -/
def Request.rejectDrafts {H : Type} (request : Request H) (config : SchedulerConfig)
    (isStale : Bool) (scheduledSpecTokenIds generatedTokenIds : List TokenId) : Request H :=
  if scheduledSpecTokenIds ≠ [] ∧
      (generatedTokenIds ≠ [] ∨ config.numSampledTokensPerStep = 0) ∧ !isStale then
    let numAccepted := generatedTokenIds.length - config.numSampledTokensPerStep
    request.rolledBack ((scheduledSpecTokenIds.length : Int) - numAccepted)
  else
    request

namespace Scheduler

variable {H : Type}

/-- Whether an item lies behind everything that a rejection or the drafter can still
reach. -/
def isBehind (config : SchedulerConfig) (request : Request H) (feature : MultiModalFeatureSpec) :
    Bool :=
  decide (((feature.mmPosition.offset + feature.mmPosition.length +
    config.numPrefillLookahead : Nat) : Int) ≤
      request.numComputedTokens - request.numOutputPlaceholders)

/-- The loop of `_free_encoder_inputs`. -/
def releaseBehind (config : SchedulerConfig) (request : Request H)
    (manager : EncoderCacheManager) : Except PyError EncoderCacheManager :=
  (manager.getCachedInputIds request).foldlM
    (fun manager inputId => do
      let feature ← pyIndex request.mmFeatures inputId
      if isBehind config request feature then
        manager.freeEncoderInput request inputId
      else
        pure manager)
    manager

/-- The inputs among the given ones that are not behind. -/
def inputsAhead (config : SchedulerConfig) (request : Request H) (inputIds : List Nat) :
    List Nat :=
  inputIds.filter fun inputId => !(request.mmFeatures[inputId]?).any (isBehind config request)

/-- `_free_encoder_inputs`.  The history forgets the inputs that are behind as
well. -/
def freeEncoderInputs (scheduler : Scheduler H) (request : Request H) :
    Except PyError (Scheduler H) := do
  let manager ← releaseBehind scheduler.config request scheduler.encoderCacheManager
  pure { scheduler with
    encoderCacheManager := manager
    servedInputs := scheduler.servedInputs.insert request.requestId
      (inputsAhead scheduler.config request
        (scheduler.servedInputs.getD request.requestId [])) }

variable [DecidableEq H] [BlockHashing H]

/-- `_update_request_with_output`, with the override of `AsyncScheduler`. -/
def updateRequestWithOutput (scheduler : Scheduler H) (request : Request H)
    (newTokenIds : List TokenId) (isStale : Bool) :
    Except PyError (Request H × List TokenId × Bool × Scheduler H) := do
  let (updated, kept, stopped) ← appendUntilStop scheduler.config newTokenIds request
  if scheduler.config.asyncScheduling then do
    let numOutputPlaceholders :=
      if isStale then updated.numOutputPlaceholders
      else updated.numOutputPlaceholders - kept.length
    pyAssert (isStale ∨ numOutputPlaceholders ≥ 0)
    let updated := { updated with numOutputPlaceholders := numOutputPlaceholders }
    let manager ←
      (if request.status = .running then
        scheduler.kvCacheManager.cacheBlocks updated
          ((updated.numComputedTokens : Int) - numOutputPlaceholders).toNat
      else
        .ok scheduler.kvCacheManager)
    pure (updated, kept, stopped, { scheduler with kvCacheManager := manager })
  else
    pure (updated, kept, stopped, scheduler)

/-- Take the sampled tokens or the pooler output, and let the grammar check the
tokens; the flag says that the request stops. -/
def takeOutput (scheduler : Scheduler H) (runner : ModelRunnerOutput) (request : Request H)
    (isStale : Bool) : Except PyError (Request H × List TokenId × Bool × Scheduler H) := do
  let generatedTokenIds := runner.sampledTokenIds request.requestId
  let (request, newTokenIds, stopped, scheduler) ←
    (if generatedTokenIds ≠ [] then
      scheduler.updateRequestWithOutput request generatedTokenIds isStale
    else if (request.poolingParams ∧ runner.poolerOutput request.requestId) ∨
        -- An encoder instance stops once the prompt is consumed.
        (scheduler.config.isMmEncoderOnly ∧
          request.numComputedTokens ≥ request.numPromptTokens) then
      .ok ({ request with status := .finishedStopped }, [], true, scheduler)
    else
      .ok (request, [], false, scheduler))
  if newTokenIds ≠ [] ∧ runner.grammarRejects request.requestId newTokenIds then
    pure ({ request with status := .finishedError, resumable := false }, newTokenIds, true,
      scheduler)
  else
    pure (request, newTokenIds, stopped, scheduler)

end Scheduler

namespace UpdatePass

variable {H : Type} [DecidableEq H] [BlockHashing H]

/-- A stopped request finishes, or its session is queued again; either way it
leaves the queue it was in when the output arrived. -/
def stop (pass : UpdatePass H) (runner : ModelRunnerOutput) (request : Request H)
    (statusBeforeStop : RequestStatus) : Except PyError (UpdatePass H) := do
  let (finished, scheduler) ← pass.scheduler.handleStoppedRequest request
  let scheduler ←
    (if finished then
      scheduler.freeRequest request false (runner.connectorDelays request.requestId)
    else
      .ok scheduler)
  if statusBeforeStop = .running then
    pure { pass with
      scheduler := scheduler
      stoppedRunningReqs := pass.stoppedRunningReqs.insert request.requestId }
  else
    pure { pass with
      scheduler := scheduler
      stoppedPreemptedReqs := pass.stoppedPreemptedReqs.insert request.requestId }

/-- The output of a request that is neither gone nor skipped. -/
def deliver (pass : UpdatePass H) (output : SchedulerOutput) (runner : ModelRunnerOutput)
    (request : Request H) (isStale : Bool) : Except PyError (UpdatePass H) := do
  let request := request.rejectDrafts pass.scheduler.config isStale
    (output.scheduledSpecDecodeTokens.getD request.requestId [])
    (runner.sampledTokenIds request.requestId)
  let scheduler ←
    (if request.hasEncoderInputs then
      (pass.scheduler.setRequest request).freeEncoderInputs request
    else
      .ok (pass.scheduler.setRequest request))
  let statusBeforeStop := request.status
  let (request, newTokenIds, stopped, scheduler) ← scheduler.takeOutput runner request isStale
  let pass := { pass with scheduler := scheduler.setRequest request }
  let delivered : EngineCoreOutput :=
    { requestId := request.requestId
      newTokenIds := newTokenIds
      finishedWith := if stopped then some request.status else none }
  let pass ← (if stopped then pass.stop runner request statusBeforeStop else .ok pass)
  if newTokenIds ≠ [] ∨ runner.poolerOutput request.requestId ∨ stopped then
    pure { pass with outputs := pass.outputs ++ [delivered] }
  else
    pure pass

/-- One round of the main loop. -/
def processScheduled (output : SchedulerOutput) (runner : ModelRunnerOutput)
    (failedKvLoadReqIds : List RequestId) (pass : UpdatePass H) (entry : RequestId × Nat) :
    Except PyError (UpdatePass H) := do
  pyAssert (entry.2 > 0)
  match pass.scheduler.requests.get? entry.1 with
  | none => pure pass
  | some request => do
      let (isStale, request) := request.drained entry.2
      pyAssert (isStale → request.numStaleOutputTokens ≥ 0)
      let pass := { pass with scheduler := pass.scheduler.setRequest request }
      if entry.1 ∈ failedKvLoadReqIds ∨ request.isFinished ∨
          (isStale ∧ request.dropStaleOutput) then
        pure pass
      else
        pass.deliver output runner request isStale

end UpdatePass

namespace Scheduler

variable {H : Type} [DecidableEq H] [BlockHashing H]

/-- The head of `update_from_output`: deferred frees become due, and failed loads
are handled. -/
def beginUpdate (scheduler : Scheduler H) (output : SchedulerOutput)
    (runner : ModelRunnerOutput) : Except PyError (List RequestId × Scheduler H) := do
  let scheduler ←
    (if scheduler.config.deferBlockFree ∧ output.totalNumScheduledTokens > 0 then
      drainDeferredFrees scheduler.deferredFrees
        { scheduler with processedStepSeq := scheduler.processedStepSeq + 1 }
    else
      .ok scheduler)
  match runner.kvConnectorOutput with
  | some kvOutput =>
      if kvOutput.invalidBlockIds = [] then
        pure ([], scheduler)
      else
        scheduler.handleInvalidBlocks kvOutput.invalidBlockIds output.numScheduledTokens
  | none => pure ([], scheduler)

/-- The requests that fail after the main loop. -/
def errorReqIds (scheduler : Scheduler H) (failedKvLoadReqIds : List RequestId) :
    List RequestId :=
  if scheduler.config.recomputeKvLoadFailures then
    scheduler.grammarCompileErrorReqs
  else
    scheduler.grammarCompileErrorReqs ∪ failedKvLoadReqIds

/-- The tail of `update_from_output`: stopped requests leave the queues, failed
ones finish with an error, and finished transfers are noted. -/
def finishUpdate (pass : UpdatePass H) (runner : ModelRunnerOutput)
    (failedKvLoadReqIds : List RequestId) :
    Except PyError (List EngineCoreOutput × Scheduler H) := do
  let scheduler :=
    { pass.scheduler with
      running := removeAll pass.scheduler.running pass.stoppedRunningReqs }
  let scheduler := scheduler.removeWaiting pass.stoppedPreemptedReqs
  let errorReqIds := scheduler.errorReqIds failedKvLoadReqIds
  let errorReqs := scheduler.unfinishedAmong errorReqIds.dedup
  let scheduler := { scheduler with grammarCompileErrorReqs := [] }
  let scheduler ←
    (if errorReqIds = [] then .ok scheduler
    else scheduler.finishRequests (some errorReqIds) .finishedError runner.connectorDelays)
  let outputs := pass.outputs ++ errorReqs.map fun request =>
    { requestId := request.requestId
      newTokenIds := []
      finishedWith := some .finishedError }
  match runner.kvConnectorOutput with
  | some kvOutput => do
      let scheduler ← scheduler.updateFromKvXferFinished kvOutput
      pure (outputs, scheduler)
  | none => pure (outputs, scheduler)

/-- `update_from_output`. -/
def updateFromOutput (scheduler : Scheduler H) (output : SchedulerOutput)
    (runner : ModelRunnerOutput) : Except PyError (List EngineCoreOutput × Scheduler H) := do
  let (failedKvLoadReqIds, scheduler) ← scheduler.beginUpdate output runner
  let pass ← output.numScheduledTokens.entries.foldlM
    (UpdatePass.processScheduled output runner failedKvLoadReqIds) { scheduler := scheduler }
  finishUpdate pass runner failedKvLoadReqIds

end Scheduler

end Vllm.Core
