import Vllm.Core.ScheduleStep

/-!
# The other calls of the scheduler

`add_request`, `finish_requests`, `update_draft_token_ids`,
`reset_prefix_cache` and `update_from_output`, which brings the result of a
step back to the requests.
-/

namespace Vllm.Core

open Vllm.Library

/-! ## Stopping -/

/-- `_has_repeating_pattern`. -/
def hasRepeatingPattern (tokenIds : List TokenId) (patternLen repetitionMinCount : Nat) : Bool :=
  (List.range' 1 patternLen).all fun n =>
    (List.range' 1 (repetitionMinCount - 1)).all fun m =>
      tokenIds[tokenIds.length - (patternLen * m + n)]? = tokenIds[tokenIds.length - n]?

/-- The loop of `check_sequence_repetition` over the pattern lengths. -/
def anyRepeatingPattern (tokenIds : List TokenId) (minCount : Nat) : List Nat → Bool
  | [] => false
  | patternLen :: rest =>
      if patternLen * minCount > tokenIds.length then false
      else if hasRepeatingPattern tokenIds patternLen minCount then true
      else anyRepeatingPattern tokenIds minCount rest

/-- `check_sequence_repetition`. -/
def checkSequenceRepetition (tokenIds : List TokenId) (params : RepetitionDetectionParams) :
    Bool :=
  let minPatternSize := if params.minPatternSize ≤ 0 then 1 else params.minPatternSize
  if params.maxPatternSize ≤ 0 ∨ params.minCount < 2 ∨ minPatternSize > params.maxPatternSize then
    false
  else
    anyRepeatingPattern tokenIds params.minCount.toNat
      (List.range' minPatternSize.toNat (params.maxPatternSize - minPatternSize + 1).toNat)

/-- `check_stop`: the request with its new status, if it stops. -/
def checkStop {H : Type} (request : Request H) (maxModelLen : Nat) :
    Except PyError (Option (Request H)) := do
  pyAssert (request.poolingParams = false)
  match request.samplingParams, request.outputTokenIds.getLast? with
  | none, _ => .error .assertionError
  | some _, none => .error .indexError
  | some params, some lastTokenId =>
      if some lastTokenId = params.eosTokenId then
        pure (some { request with status := .finishedStopped })
      else if lastTokenId ∈ params.stopTokenIds then
        pure (some
          { request with status := .finishedStopped, stopReason := some (.token lastTokenId) })
      else if request.numTokens ≥ maxModelLen ∨ request.numOutputTokens ≥ request.maxTokens then
        pure (some { request with status := .finishedLengthCapped })
      else if request.numOutputTokens < params.minTokens then
        pure none
      else
        match params.repetitionDetection with
        | some detection =>
            if checkSequenceRepetition request.outputTokenIds detection then
              pure (some
                { request with
                  status := .finishedRepetition
                  stopReason := some (.text "repetition_detected") })
            else
              pure none
        | none => pure none

section Appending

variable {H : Type} [BlockHashing H]

/-- `Scheduler._update_request_with_output`: append the tokens up to the one that
stops the request.  The result is the request, the tokens that were kept and
whether it stopped. -/
def appendUntilStop (config : SchedulerConfig) :
    List TokenId → Request H → Except PyError (Request H × List TokenId × Bool)
  | [], request => .ok (request, [], false)
  | tokenId :: rest, request => do
      let request := request.appendOutputTokenIds config.blockHasher [tokenId]
      let stop ← checkStop request config.maxModelLen
      match stop with
      | some stopped => pure (stopped, [tokenId], true)
      | none => do
          let (request, kept, stopped) ← appendUntilStop config rest request
          pure (request, tokenId :: kept, stopped)

end Appending

/-! ## Sessions -/

/-- `StreamingUpdate.from_request`. -/
def StreamingUpdate.fromRequest {H : Type} (request : Request H) : Option StreamingUpdate :=
  if request.resumable then
    some
      { mmFeatures := some request.mmFeatures
        promptTokenIds := request.promptTokenIds
        maxTokens := request.maxTokens
        arrivalTime := request.arrivalTime
        samplingParams := request.samplingParams }
  else
    none

/-- A multi-modal item at a position counted from `base`. -/
def MultiModalFeatureSpec.shifted (base : Nat) (feature : MultiModalFeatureSpec) :
    MultiModalFeatureSpec :=
  { feature with
    mmPosition := { feature.mmPosition with offset := feature.mmPosition.offset + base } }

/-- What `_update_request_as_session` does to the request: the computed tokens
become the prompt, and the update follows them. -/
def Request.continued {H : Type} [BlockHashing H] (session : Request H)
    (blockHasher : Option Nat) (update : StreamingUpdate) : Except PyError (Request H) :=
  match session.promptTokenIds with
  | none => .error .assertionError
  | some promptTokenIds =>
      let keptOutputTokens :=
        (session.allTokenIds.take session.numComputedTokens).drop session.numPromptTokens
      let allTokenIds := session.allTokenIds.take session.numComputedTokens
      let updateTokens := update.promptTokenIds.getD []
      let promptTokenIds := promptTokenIds ++ keptOutputTokens ++ updateTokens
      let extended : Request H :=
        { session with
          allTokenIds := allTokenIds ++ updateTokens
          outputTokenIds := []
          promptTokenIds := some promptTokenIds
          mmFeatures := session.mmFeatures ++
            (update.mmFeatures.getD []).map (·.shifted allTokenIds.length) }
      .ok
        { Request.updateBlockHashes blockHasher extended with
          numPromptTokens := promptTokenIds.length
          arrivalTime := update.arrivalTime
          samplingParams := update.samplingParams
          status := .waiting }

namespace Scheduler

variable {H : Type}

/-- `_update_request_as_session`. -/
def updateRequestAsSession [BlockHashing H] (scheduler : Scheduler H) (session : Request H)
    (update : StreamingUpdate) : Except PyError (Scheduler H) := do
  let continued ← session.continued scheduler.config.blockHasher update
  let scheduler := scheduler.setRequest continued
  pure { scheduler with
    numWaitingForStreamingInput :=
      if session.status = .waitingForStreamingReq then scheduler.numWaitingForStreamingInput - 1
      else scheduler.numWaitingForStreamingInput }

/-- `_handle_stopped_request`: whether the request is finished.  Otherwise its
session goes on, and it is queued again. -/
def handleStoppedRequest [BlockHashing H] (scheduler : Scheduler H) (request : Request H) :
    Except PyError (Bool × Scheduler H) :=
  if request.resumable then
    match request.streamingQueue.getD [] with
    | none :: rest =>
        .ok (true, scheduler.setRequest { request with streamingQueue := some rest })
    | some update :: rest => do
        let scheduler ← scheduler.updateRequestAsSession
          { request with streamingQueue := some rest } update
        let continued ← scheduler.getRequest request.requestId
        pure (false, scheduler.enqueueWaitingRequest continued)
    | [] =>
        let paused := { request with status := RequestStatus.waitingForStreamingReq }
        let scheduler := scheduler.setRequest paused
        .ok (false, { scheduler with
            numWaitingForStreamingInput := scheduler.numWaitingForStreamingInput + 1
            }.enqueueWaitingRequest paused)
  else
    .ok (true, scheduler)

/-! ## Finishing -/

/-- `_free_blocks`. -/
def freeBlocks (scheduler : Scheduler H) (request : Request H) :
    Except PyError (Scheduler H) := do
  pyAssert (request.isFinished)
  let scheduler ← scheduler.freeRequestBlocks request
  pure { scheduler with requests := scheduler.requests.erase request.requestId }

/-- `_connector_finished`: the blocks outside the window go first. -/
def connectorFinished (scheduler : Scheduler H) (request : Request H) :
    Except PyError (Scheduler H) :=
  if scheduler.config.connector then do
    let manager ← scheduler.kvCacheManager.removeSkippedBlocks request.requestId
      ((request.numComputedTokens : Int) - request.numInFlightTokens).toNat
      (some request.numPromptTokens)
    pure { scheduler with kvCacheManager := manager }
  else
    .ok scheduler

/-- `_free_request`.  `connectorDelays` says that a connector keeps the blocks of
the request until its transfer is done. -/
def freeRequest (scheduler : Scheduler H) (request : Request H)
    (delayFreeBlocks connectorDelays : Bool) : Except PyError (Scheduler H) := do
  pyAssert (request.isFinished)
  let scheduler ← connectorFinished
    { scheduler with
      inflightPrefills := scheduler.inflightPrefills.filter (· ≠ request.requestId) }
    request
  let scheduler ← scheduler.freeEncoderCache request
  let scheduler :=
    { scheduler with
      finishedReqIds := scheduler.finishedReqIds.insert request.requestId }
  let connectorDelays :=
    (scheduler.config.connector || scheduler.config.ecConnector) && connectorDelays
  if delayFreeBlocks || connectorDelays then
    pure scheduler
  else
    scheduler.freeBlocks request

/-- `remove_all`: a single item is removed once, several are filtered out. -/
def removeAll (requestIds itemsToRemove : List RequestId) : List RequestId :=
  match itemsToRemove with
  | [] => requestIds
  | [item] => requestIds.erase item
  | _ => requestIds.filter fun requestId => requestId ∉ itemsToRemove

/-- Take requests out of both waiting queues. -/
def removeWaiting (scheduler : Scheduler H) (requestIds : List RequestId) : Scheduler H :=
  if requestIds = [] then
    scheduler
  else
    { scheduler with
      waiting := RequestQueue.removeRequests scheduler.config.policy scheduler.lt
        scheduler.waiting requestIds
      skippedWaiting := RequestQueue.removeRequests scheduler.config.policy scheduler.lt
        scheduler.skippedWaiting requestIds }

/-- The requests of `finish_requests` that are there and not finished. -/
def unfinishedAmong (scheduler : Scheduler H) (requestIds : List RequestId) :
    List (Request H) :=
  requestIds.filterMap fun requestId =>
    (scheduler.requests.get? requestId).filter fun request => !request.isFinished

/-- The second pass of `finish_requests` on one request. -/
def finishOne (finishedStatus : RequestStatus) (connectorDelays : RequestId → Bool)
    (scheduler : Scheduler H) (request : Request H) : Except PyError (Scheduler H) :=
  let requestId := request.requestId
  let loading := request.status = .waitingForRemoteKvs
  let delayFreeBlocks := decide (loading ∧ requestId ∉ scheduler.finishedRecvingKvReqIds)
  let scheduler :=
    if loading then
      { scheduler with
        finishedRecvingKvReqIds := scheduler.finishedRecvingKvReqIds.erase requestId
        failedRecvingKvReqIds := scheduler.failedRecvingKvReqIds.erase requestId }
    else
      scheduler
  let finished := { request with status := finishedStatus }
  (scheduler.setRequest finished).freeRequest finished delayFreeBlocks (connectorDelays requestId)

/-- `finish_requests`; without ids it finishes every request. -/
def finishRequests (scheduler : Scheduler H) (requestIds : Option (List RequestId))
    (finishedStatus : RequestStatus) (connectorDelays : RequestId → Bool) :
    Except PyError (Scheduler H) := do
  pyAssert (finishedStatus.isFinished)
  let validRequests := scheduler.unfinishedAmong
    ((requestIds.map List.dedup).getD scheduler.requests.keys)
  let runningRequests : List (Request H) := validRequests.filter (·.status = .running)
  let waitingRequests : List (Request H) := validRequests.filter (·.status ≠ .running)
  let scheduler :=
    { scheduler with
      numWaitingForStreamingInput := scheduler.numWaitingForStreamingInput -
        (waitingRequests.countP fun (request : Request H) =>
          request.status = RequestStatus.waitingForStreamingReq)
      running := removeAll scheduler.running (runningRequests.map Request.requestId) }
  let scheduler := scheduler.removeWaiting (waitingRequests.map Request.requestId)
  validRequests.foldlM (finishOne finishedStatus connectorDelays) scheduler

/-! ## `add_request` and the small calls -/

/-- `add_request`. -/
def addRequest [BlockHashing H] (scheduler : Scheduler H) (request : Request H)
    (connectorDelays : RequestId → Bool) : Except PyError (Scheduler H) :=
  match scheduler.requests.get? request.requestId with
  | some existing =>
      let update := StreamingUpdate.fromRequest request
      if existing.status ≠ .waitingForStreamingReq then
        match existing.streamingQueue with
        | none => .error .assertionError
        | some queue =>
            .ok (scheduler.setRequest { existing with streamingQueue := some (queue ++ [update]) })
      else
        match update with
        | some update => scheduler.updateRequestAsSession existing update
        | none =>
            scheduler.finishRequests (some [request.requestId]) .finishedAborted connectorDelays
  | none =>
      let request :=
        if request.resumable then { request with streamingQueue := some [] } else request
      .ok ((scheduler.setRequest request).enqueueWaitingRequest request)

/-- One request of `update_draft_token_ids`; the drafts arrive as the grammar left
them. -/
def updateDraftTokenIds (scheduler : Scheduler H) (entry : RequestId × List TokenId) :
    Scheduler H :=
  match scheduler.requests.get? entry.1 with
  | none => scheduler
  | some request =>
      if request.isFinished then scheduler
      else if request.isPrefillChunk then scheduler.setRequest { request with specTokenIds := [] }
      else scheduler.setRequest { request with specTokenIds := entry.2 }

/-- Preempt all running requests, the last one first. -/
def preemptAll : Nat → Scheduler H → Except PyError (Scheduler H)
  | 0, scheduler => .ok scheduler
  | fuel + 1, scheduler =>
      match scheduler.running.getLast? with
      | none => .ok scheduler
      | some requestId => do
          let scheduler ← Scheduler.preemptRequest
            { scheduler with running := scheduler.running.dropLast } requestId true
          preemptAll fuel scheduler

/-- `reset_prefix_cache`, without the connector's own cache. -/
def resetPrefixCache (scheduler : Scheduler H) (resetRunningRequests : Bool) :
    Except PyError (Bool × Scheduler H) := do
  let scheduler ←
    (if resetRunningRequests then preemptAll scheduler.running.length scheduler
    else .ok scheduler)
  let (successful, manager) := scheduler.kvCacheManager.resetPrefixCache
  if resetRunningRequests ∧ !successful then
    .error (.runtimeError
      ("Failed to reset KV cache even when all the running requests are preempted and moved " ++
        "to the waiting queue. This is likely due to the presence of running requests waiting " ++
        "for remote KV transfer, which is not supported yet."))
  else
    pure (successful, { scheduler with kvCacheManager := manager })

end Scheduler

end Vllm.Core
