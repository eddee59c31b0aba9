import Vllm.Core.Schedule

/-!
# `schedule`: the waiting phase and the output

A waiting request is admitted if the prefix lookups, the encoder and the KV cache
allow it; otherwise it is set aside for this step, or the phase ends.  The last
part of the module builds the output and advances the scheduled requests.
-/

namespace Vllm.Core

open Vllm.Library

/-- The two queues of the waiting phase. -/
inductive WaitingQueue where
  | waiting
  | skipped
  deriving DecidableEq, Repr

namespace Scheduler

variable {H : Type}

/-- The contents of a queue. -/
def queue (scheduler : Scheduler H) : WaitingQueue → List RequestId
  | .waiting => scheduler.waiting
  | .skipped => scheduler.skippedWaiting

/-- Replace the contents of a queue. -/
def setQueue (scheduler : Scheduler H) (queue : WaitingQueue) (entries : List RequestId) :
    Scheduler H :=
  match queue with
  | .waiting => { scheduler with waiting := entries }
  | .skipped => { scheduler with skippedWaiting := entries }

/-- `_select_waiting_queue_for_scheduling`. -/
def selectWaitingQueueForScheduling (scheduler : Scheduler H) : Option WaitingQueue :=
  match scheduler.config.policy with
  | .fcfs =>
      if scheduler.skippedWaiting ≠ [] then some .skipped
      else if scheduler.waiting ≠ [] then some .waiting
      else none
  | .priority =>
      match scheduler.waiting, scheduler.skippedWaiting with
      | waitingReq :: _, skippedReq :: _ =>
          if scheduler.lt waitingReq skippedReq then some .waiting else some .skipped
      | _ :: _, [] => some .waiting
      | [], _ :: _ => some .skipped
      | [], [] => none

/-- `pop_request` on a queue.  The popped request is the one `peek_request`
showed, which the caller has. -/
def popQueue (scheduler : Scheduler H) (queue : WaitingQueue) : Except PyError (Scheduler H) := do
  let (_, rest) ← RequestQueue.popRequest scheduler.config.policy scheduler.lt
    (scheduler.queue queue)
  pure (scheduler.setQueue queue rest)

variable [DecidableEq H] [BlockHashing H]

/-- `_update_waiting_for_remote_kv`. -/
def updateWaitingForRemoteKv (scheduler : Scheduler H) (request : Request H) :
    Except PyError (Request H × Scheduler H) := do
  pyAssert (scheduler.config.connector)
  let arrived :=
    { scheduler with
      finishedRecvingKvReqIds := scheduler.finishedRecvingKvReqIds.erase request.requestId }
  if request.requestId ∈ scheduler.failedRecvingKvReqIds then do
    let manager ←
      (if request.numComputedTokens ≠ 0 then
        scheduler.kvCacheManager.cacheBlocks request request.numComputedTokens
      else
        scheduler.kvCacheManager.free request)
    pure (request, { arrived with
        kvCacheManager := manager
        failedRecvingKvReqIds := scheduler.failedRecvingKvReqIds.erase request.requestId })
  else do
    let manager ← scheduler.kvCacheManager.cacheBlocks request request.numComputedTokens
    -- The last token is recomputed, to sample from it.
    let request :=
      if request.numComputedTokens = request.numTokens then
        { request with numComputedTokens := request.numTokens - 1 }
      else
        request
    pure (request, { arrived with kvCacheManager := manager })

/-- `_try_promote_blocked_waiting_request`. -/
def tryPromoteBlockedWaitingRequest (scheduler : Scheduler H) (input : ScheduleInput H)
    (request : Request H) : Except PyError (Bool × Scheduler H) :=
  match request.status with
  | .waitingForRemoteKvs =>
      if request.requestId ∈ scheduler.finishedRecvingKvReqIds then do
        let (request, scheduler) ← scheduler.updateWaitingForRemoteKv request
        let status : RequestStatus :=
          if request.numPreemptions ≠ 0 then .preempted else .waiting
        pure (true, scheduler.setRequest { request with status := status })
      else
        .ok (false, scheduler)
  | .waitingForStructuredOutputGrammar =>
      match input.grammar request.requestId with
      | .pending => .ok (false, scheduler)
      | .failed =>
          .ok (false, { scheduler with
              grammarCompileErrorReqs :=
                scheduler.grammarCompileErrorReqs.insert request.requestId })
      | .ready => .ok (true, scheduler.setRequest { request with status := .waiting })
  | .waitingForStreamingReq => do
      pyAssert (request.streamingQueue.getD [] = [])
      pure (false, scheduler)
  | _ => .error .assertionError

/-- What the prefix lookups found for a waiting request. -/
structure PrefixLookup where
  newComputedBlocks : List (List BlockId)
  numNewLocalComputedTokens : Nat
  numExternalComputedTokens : Nat := 0
  loadKvAsync : Bool := false
  numComputedTokens : Nat

/-- The connector's part of the lookup; `none` if it cannot tell yet.  It sees a
block-aligned local hit, so that a longer remote one can replace the tail. -/
def connectorLookup (scheduler : Scheduler H) (input : ScheduleInput H) (request : Request H)
    (blocks : List (List BlockId)) (numLocal : Nat) : Except PyError (Option PrefixLookup) :=
  let localOnly : PrefixLookup :=
    { newComputedBlocks := blocks
      numNewLocalComputedTokens := numLocal
      numComputedTokens := numLocal }
  if scheduler.config.connector then
    let partialTail := numLocal % scheduler.config.blockSize
    let blockAlignedLocal := numLocal - partialTail
    match input.getNumNewMatchedTokens request blockAlignedLocal with
    | (none, _) => .ok none
    | (some extTokens, loadKvAsync) =>
        if partialTail ≠ 0 ∧ extTokens > partialTail then do
          let truncated ←
            scheduler.kvCacheManager.truncateComputedBlocks blocks blockAlignedLocal
          pure (some
            { newComputedBlocks := truncated
              numNewLocalComputedTokens := blockAlignedLocal
              numExternalComputedTokens := extTokens
              loadKvAsync := loadKvAsync
              numComputedTokens := blockAlignedLocal + extTokens })
        else if partialTail ≠ 0 then
          .ok (some localOnly)
        else
          .ok (some
            { localOnly with
              numExternalComputedTokens := extTokens
              loadKvAsync := loadKvAsync
              numComputedTokens := numLocal + extTokens })
  else
    .ok (some localOnly)

/-- Get the cached tokens of a waiting request; `none` sets it aside. -/
def lookupPrefix (scheduler : Scheduler H) (input : ScheduleInput H) (request : Request H) :
    Except PyError (Option PrefixLookup × Scheduler H) :=
  if request.numComputedTokens = 0 then do
    let ((blocks, numLocal, boundary), manager) ←
      scheduler.kvCacheManager.getComputedBlocks request
    let request := { request with sharedPrefixBoundary := boundary }
    let scheduler := { scheduler with kvCacheManager := manager }.setRequest request
    let found ← scheduler.connectorLookup input request blocks numLocal
    match found with
    | none => pure (none, scheduler)
    | some lookup => do
        pyAssert (lookup.numComputedTokens ≤ request.numTokens)
        if scheduler.config.ecConnector ∧ request.hasEncoderInputs ∧
            !input.ensureCacheAvailable request lookup.numComputedTokens then
          pure (none, scheduler)
        else
          pure (some lookup, scheduler)
  else
    .ok (some
      { newComputedBlocks := scheduler.kvCacheManager.emptyKvCacheBlocks
        numNewLocalComputedTokens := 0
        numComputedTokens := request.numComputedTokens }, scheduler)

end Scheduler

namespace SchedulePass

variable {H : Type}

/-! ## Sizing an admission -/

/-- `request_token_budget`. -/
def requestTokenBudget (pass : SchedulePass H) : Int :=
  min pass.tokenBudget (pass.inputBudget - pass.config.draftSlots)

/-- The tokens that are left to compute, padded to a full row of drafts if the
request only decodes; `none` if the padded row does not fit. -/
def paddedChunk (pass : SchedulePass H) (request : Request H) (numComputedTokens : Nat) :
    Option (Int × Bool) :=
  let config := pass.config
  let numNewTokens : Int := request.numTokens - numComputedTokens
  let paddedNumTokens := 1 + config.numSpecTokens
  if config.numSpecTokens > 0 ∧ config.dynamicSdLookup = none ∧
      config.numSampledTokensPerStep > 0 ∧ numNewTokens = 1 ∧
      pass.scheduledRunningReqs ≠ [] ∧ !pass.prefillScheduled ∧
      numComputedTokens + paddedNumTokens + config.numSampledTokensPerStep ≤
        config.maxModelLen then
    if paddedNumTokens > pass.requestTokenBudget then none
    else some (paddedNumTokens, true)
  else
    some (numNewTokens, false)

/-- The chunk of a waiting request before the encoder has its say, and whether it
is padded; `none` ends the waiting phase. -/
def waitingChunk (pass : SchedulePass H) (request : Request H)
    (lookup : Scheduler.PrefixLookup) : Except PyError (Option (Int × Bool)) :=
  let config := pass.config
  match pass.paddedChunk request lookup.numComputedTokens with
  | none => .ok none
  | some (numNewTokens, padSpecDecode) =>
      let threshold : Int := config.longPrefillTokenThreshold
      let numNewTokens := if 0 < threshold ∧ threshold < numNewTokens then threshold
        else numNewTokens
      if !config.enableChunkedPrefill ∧ numNewTokens > pass.requestTokenBudget then
        .ok none
      else do
        let numNewTokens := min numNewTokens pass.requestTokenBudget
        pyAssert (numNewTokens > 0)
        if config.needMambaBlockAlignedSplit then
          let numNewTokens := Scheduler.mambaBlockAlignedSplit config request numNewTokens
            lookup.numNewLocalComputedTokens lookup.numExternalComputedTokens
          if numNewTokens = 0 then
            pure none
          else if padSpecDecode ∧ numNewTokens ≠ 1 + config.numSpecTokens then
            -- The padding was clipped, so it is dropped.
            pure (some (1, false))
          else
            pure (some (numNewTokens, padSpecDecode))
        else
          pure (some (numNewTokens, padSpecDecode))

/-- The size of an admission, with what the encoder has to do for it. -/
structure Admission where
  numNewTokens : Nat
  padSpecDecode : Bool := false
  encoder : EncoderPass

/-- The number of tokens a waiting request gets; `none` ends the waiting phase.
The encoder cache may have changed either way. -/
def sizeAdmission (pass : SchedulePass H) (input : ScheduleInput H) (request : Request H)
    (lookup : Scheduler.PrefixLookup) : Except PyError (Option Admission × SchedulePass H) :=
  if lookup.loadKvAsync then do
    pyAssert (lookup.numExternalComputedTokens > 0)
    pure (some
      { numNewTokens := 0
        encoder :=
          { manager := pass.scheduler.encoderCacheManager
            numNewTokens := 0
            encoderComputeBudget := pass.encoderComputeBudget } }, pass)
  else if pass.deferPrefills ∧ lookup.numComputedTokens + 1 < request.numTokens then
    .ok (none, pass)
  else do
    let chunk ← pass.waitingChunk request lookup
    match chunk with
    | none => pure (none, pass)
    | some (numNewTokens, padSpecDecode) => do
        let encoder ← pass.tryEncoderInputs input request lookup.numComputedTokens numNewTokens
        let pass := pass.setEncoder request encoder
        let numNewTokens := Scheduler.reservePrefillLookahead pass.config request
          lookup.numComputedTokens encoder.numNewTokens
        if numNewTokens = 0 then
          pure (none, pass)
        else
          pure (some
            { numNewTokens := numNewTokens
              padSpecDecode := padSpecDecode
              encoder := encoder }, pass)

/-! ## The waiting loop -/

/-- Set the request aside for this step. -/
def skipWaiting (pass : SchedulePass H) (queue : WaitingQueue) (requestId : RequestId) :
    Except PyError (SchedulePass H) := do
  let scheduler ← pass.scheduler.popQueue queue
  pure { pass with
    scheduler := scheduler
    stepSkippedWaiting := RequestQueue.prependRequest pass.config.policy scheduler.lt
      pass.stepSkippedWaiting requestId }

/-- The request waits for its remote blocks.  Its computed tokens count as if they
were loaded. -/
def loadRemote (pass : SchedulePass H) (queue : WaitingQueue) (request : Request H)
    (lookup : Scheduler.PrefixLookup) : Except PyError (SchedulePass H) := do
  let pass ← pass.skipWaiting queue request.requestId
  let scheduler := pass.scheduler.setRequest
    { request with
      status := .waitingForRemoteKvs
      numComputedTokens := lookup.numComputedTokens }
  pure { pass with
    scheduler :=
      { scheduler with
        inflightPrefills := scheduler.inflightPrefills.insert request.requestId } }

/-- The adapter of an admitted request counts from now on. -/
def addLora (pass : SchedulePass H) (request : Request H) : List Nat :=
  match pass.config.maxLoras, request.loraRequest with
  | some _, some lora => pass.scheduledLoras.insert lora.loraIntId
  | _, _ => pass.scheduledLoras

/-- The request joins the running ones. -/
def admitWaiting (pass : SchedulePass H) (queue : WaitingQueue) (request : Request H)
    (lookup : Scheduler.PrefixLookup) (admission : Admission) :
    Except PyError (SchedulePass H) := do
  let scheduler ← pass.scheduler.popQueue queue
  if request.status ≠ .waiting ∧ request.status ≠ .preempted then
    .error (.runtimeError "Invalid request status")
  else do
    pyAssert (admission.padSpecDecode → admission.numNewTokens = 1 + pass.config.numSpecTokens)
    let requestId := request.requestId
    let numNewTokens := admission.numNewTokens
    let isNew := request.status = .waiting
    let running := scheduler.setRequest
      { request with
        status := .running
        numComputedTokens := lookup.numComputedTokens }
    let stillPrefilling := lookup.numComputedTokens + numNewTokens < request.numTokens
    let pass :=
      { pass with
        scheduler :=
          { running with
            running := running.running ++ [requestId]
            inflightPrefills :=
              if stillPrefilling then running.inflightPrefills.insert requestId
              else running.inflightPrefills }
        hasSyncKvLoads := pass.hasSyncKvLoads || decide (lookup.numExternalComputedTokens > 0)
        scheduledNewReqs :=
          if isNew then pass.scheduledNewReqs ++ [requestId] else pass.scheduledNewReqs
        scheduledResumedReqs :=
          if isNew then pass.scheduledResumedReqs else pass.scheduledResumedReqs ++ [requestId]
        scheduledLoras := pass.addLora request
        reqToNewBlocks :=
          pass.reqToNewBlocks.insert requestId (scheduler.kvCacheManager.getBlocks requestId)
        numScheduledTokens := pass.numScheduledTokens.insert requestId numNewTokens
        tokenBudget := pass.tokenBudget - numNewTokens
        inputBudget := pass.inputBudget - (numNewTokens + pass.config.draftSlots)
        scheduledSpecDecodeTokens :=
          if admission.padSpecDecode then
            pass.scheduledSpecDecodeTokens.insert requestId
              (List.replicate pass.config.numSpecTokens (-1))
          else
            pass.scheduledSpecDecodeTokens }
    pass.commitEncoderInputs request admission.encoder

/-- Whether the request has to wait for another step: its last output is still in
flight, or its adapter does not fit. -/
def setsAside (pass : SchedulePass H) (request : Request H) : Bool :=
  (decide (request.numStaleOutputTokens > 0) && !request.dropStaleOutput) ||
    match pass.config.maxLoras, request.loraRequest with
    | some maxLoras, some lora =>
        decide (pass.scheduledLoras.length = maxLoras ∧
          lora.loraIntId ∉ pass.scheduledLoras)
    | _, _ => false

variable [DecidableEq H] [BlockHashing H]

/-- Allocate the blocks of a sized admission and commit it; `true` ends the
loop. -/
def allocateAdmission (pass : SchedulePass H) (queue : WaitingQueue) (request : Request H)
    (lookup : Scheduler.PrefixLookup) (admission : Admission) :
    Except PyError (Bool × SchedulePass H) := do
  let (reservedBlocks, scheduler) ←
    (if lookup.loadKvAsync then pass.scheduler.inflightPrefillReservedBlocks
    else .ok (0, pass.scheduler))
  let (newBlocks, manager) ← scheduler.kvCacheManager.allocateSlots request
    { numNewTokens := admission.numNewTokens
      numNewComputedTokens := lookup.numNewLocalComputedTokens
      newComputedBlocks := some lookup.newComputedBlocks
      numLookaheadTokens := if lookup.loadKvAsync then 0 else pass.config.numLookaheadTokens
      numExternalComputedTokens := lookup.numExternalComputedTokens
      delayCacheBlocks := lookup.loadKvAsync
      fullSequenceMustFit := pass.config.schedulerReserveFullIsl
      -- A negative total, which only align mode can give, counts as none.
      reservedBlocks := reservedBlocks.toNat
      hasScheduledReqs := scheduler.running ≠ [] }
  let pass := { pass with scheduler := { scheduler with kvCacheManager := manager } }
  match newBlocks with
  | none => do
      let scheduler ←
        (if request.hasEncoderInputs then pass.scheduler.freeEncoderCache request
        else .ok pass.scheduler)
      pure (true, { pass with scheduler := scheduler })
  | some _ =>
      if lookup.loadKvAsync then do
        let pass ← pass.loadRemote queue request lookup
        pure (false, pass)
      else do
        let pass ← pass.admitWaiting queue request lookup admission
        pure (false, pass)

/-- Look up and size a request that may be scheduled; `true` ends the loop. -/
def considerWaiting (pass : SchedulePass H) (input : ScheduleInput H) (queue : WaitingQueue)
    (request : Request H) : Except PyError (Bool × SchedulePass H) := do
  let (found, scheduler) ← pass.scheduler.lookupPrefix input request
  let pass := { pass with scheduler := scheduler }
  match found with
  | none => do
      let pass ← pass.skipWaiting queue request.requestId
      pure (false, pass)
  | some lookup => do
      let request ← pass.scheduler.getRequest request.requestId
      let (sized, pass) ← pass.sizeAdmission input request lookup
      match sized with
      | none => pure (true, pass)
      | some admission => pass.allocateAdmission queue request lookup admission

/-- One round of the waiting loop; `true` ends it. -/
def scheduleWaitingRequest (pass : SchedulePass H) (input : ScheduleInput H)
    (queue : WaitingQueue) : Except PyError (Bool × SchedulePass H) := do
  let requestId ← RequestQueue.peekRequest (pass.scheduler.queue queue)
  let request ← pass.scheduler.getRequest requestId
  let (schedulable, scheduler) ←
    (if Scheduler.isBlockedWaitingStatus request.status then
      pass.scheduler.tryPromoteBlockedWaitingRequest input request
    else
      .ok (true, pass.scheduler))
  let pass := { pass with scheduler := scheduler }
  let request ← pass.scheduler.getRequest requestId
  if !schedulable ∨ pass.setsAside request then do
    let pass ← pass.skipWaiting queue requestId
    pure (false, pass)
  else
    pass.considerWaiting input queue request

omit [DecidableEq H] [BlockHashing H] in
/-- Whether the loop goes on with another request: there is one, and budget and
slots are left. -/
def waitingPhaseOpen (pass : SchedulePass H) : Bool :=
  decide (pass.tokenBudget > 0 ∧ pass.inputBudget > pass.config.draftSlots ∧
    -- Paused sessions hold a slot of the model runner.
    (pass.scheduler.running.length : Int) + pass.scheduler.numWaitingForStreamingInput <
      pass.config.maxNumRunningReqs)

/-- The waiting loop.  Every round takes a request out of the queues or ends it,
so the number of queued requests is enough fuel. -/
def scheduleWaitingRequests (input : ScheduleInput H) :
    Nat → SchedulePass H → Except PyError (SchedulePass H)
  | 0, pass => .ok pass
  | fuel + 1, pass =>
      match pass.scheduler.selectWaitingQueueForScheduling with
      | none => .ok pass
      | some queue =>
          if pass.waitingPhaseOpen then do
            let (stop, pass) ← pass.scheduleWaitingRequest input queue
            if stop then pure pass else scheduleWaitingRequests input fuel pass
          else
            .ok pass

/-- The waiting phase: what was set aside goes back in front of the skipped
requests. -/
def waitingPhase (pass : SchedulePass H) (input : ScheduleInput H) :
    Except PyError (SchedulePass H) :=
  if pass.preemptedReqs = [] ∧ pass.scheduler.pauseState = .unpaused then do
    let pass ← scheduleWaitingRequests input
      (pass.scheduler.waiting.length + pass.scheduler.skippedWaiting.length) pass
    let scheduler := pass.scheduler
    pure { pass with
      scheduler :=
        { scheduler with
          skippedWaiting := RequestQueue.prependRequests scheduler.config.policy scheduler.lt
            scheduler.skippedWaiting pass.stepSkippedWaiting
          prefillCapacityBound :=
            if pass.deferPrefills then scheduler.prefillCapacityBound
            else scheduler.waiting ≠ [] }
      stepSkippedWaiting := [] }
  else
    .ok pass

end SchedulePass

end Vllm.Core
