import Vllm.Core.ScheduleWaiting

/-!
# `schedule`: the step as a whole

The step runs its two phases, checks the budgets, hands out the copies that
partial hits need and builds the output.  `_update_after_schedule` then counts
the scheduled tokens as computed.
-/

namespace Vllm.Core

open Vllm.Library

namespace Scheduler

variable {H : Type}

/-- The start of a step: the budgets are full, unless everything is paused. -/
def startPass (scheduler : Scheduler H) (input : ScheduleInput H) : SchedulePass H :=
  let config := scheduler.config
  { scheduler :=
      { scheduler with
        currentStep := scheduler.currentStep + 1
        kvCacheManager := scheduler.kvCacheManager.newStepStarts }
    -- Prefills only wait while there are decodes to run.
    deferPrefills := input.throttlePrefills && !scheduler.prefillCapacityBound &&
      scheduler.running.any fun requestId =>
        (scheduler.requests.get? requestId).any fun request => !request.isPrefillChunk
    tokenBudget := if scheduler.pauseState = .pausedAll then 0 else config.maxNumScheduledTokens
    inputBudget := config.maxNumBatchedTokens
    encoderComputeBudget := config.maxNumEncoderInputTokens }

/-! ## `_update_after_schedule` -/

end Scheduler

/-- What `_update_after_schedule` does to a scheduled request. -/
def Request.advanced {H : Type} (request : Request H) (config : SchedulerConfig)
    (schedStepSeq numScheduledToken : Nat) : Request H :=
  let numComputedTokens := request.numComputedTokens + numScheduledToken
  { request with
    numComputedTokens := numComputedTokens
    numInFlightTokens := request.numInFlightTokens + numScheduledToken
    lastSchedSeq := if config.deferBlockFree then schedStepSeq else request.lastSchedSeq
    isPrefillChunk :=
      decide ((numComputedTokens : Int) < request.numTokens + request.numOutputPlaceholders) }

/-- What the override of `AsyncScheduler` adds: placeholders for the tokens that
the step will sample, and for the drafts of the next one. -/
def Request.placeholdersAdded {H : Type} (request : Request H) (config : SchedulerConfig)
    (currentStep numScheduledSpecTokens numSpecTokensToSchedule : Nat) : Request H :=
  if request.isPrefillChunk then
    request
  else
    { request with
      numOutputPlaceholders :=
        request.numOutputPlaceholders + (config.numSampledTokensPerStep + numScheduledSpecTokens)
      specTokenIds := List.replicate numSpecTokensToSchedule (-1)
      nextDecodeEligibleStep :=
        if config.useV2ModelRunner then currentStep + config.ppSize
        else request.nextDecodeEligibleStep }

namespace Scheduler

variable {H : Type}

/-- One round of the loop of `_update_after_schedule`. -/
def advanceScheduled (scheduler : Scheduler H) (entry : RequestId × Nat) :
    Except PyError (Scheduler H) := do
  let request ← scheduler.getRequest entry.1
  let request := request.advanced scheduler.config scheduler.schedStepSeq entry.2
  let scheduler := scheduler.setRequest request
  pure { scheduler with
    inflightPrefills :=
      if request.isPrefillChunk then scheduler.inflightPrefills
      else scheduler.inflightPrefills.filter (· ≠ entry.1) }

/-- One round of the loop of the asynchronous override. -/
def addPlaceholders (output : SchedulerOutput) (scheduler : Scheduler H)
    (entry : RequestId × Nat) : Except PyError (Scheduler H) := do
  let request ← scheduler.getRequest entry.1
  let numSpecTokens := (output.scheduledSpecDecodeTokens.getD entry.1 []).length
  pure (scheduler.setRequest (request.placeholdersAdded scheduler.config scheduler.currentStep
    numSpecTokens output.numSpecTokensToSchedule))

/-- `_update_after_schedule`. -/
def updateAfterSchedule (scheduler : Scheduler H) (output : SchedulerOutput) :
    Except PyError (Scheduler H) := do
  let scheduler ← output.numScheduledTokens.entries.foldlM advanceScheduled scheduler
  let scheduler := { scheduler with finishedReqIds := [], resetPreemptedReqIds := [] }
  if scheduler.config.asyncScheduling then
    output.numScheduledTokens.entries.foldlM (addPlaceholders output) scheduler
  else
    pure scheduler

end Scheduler

namespace SchedulePass

variable {H : Type}

/-- The checks after the two phases. -/
def checkConstraints (pass : SchedulePass H) : Except PyError Unit := do
  pyAssert (pass.numScheduledTokens.sumOn (fun _ count => count) ≤
    pass.config.maxNumScheduledTokens)
  pyAssert (pass.tokenBudget ≥ 0)
  pyAssert (pass.inputBudget ≥ 0)
  pyAssert (pass.scheduler.running.length ≤ pass.config.maxNumRunningReqs)
  pyAssert (pass.scheduledNewReqs.length + pass.scheduledResumedReqs.length +
    pass.scheduledRunningReqs.length ≤ pass.scheduler.running.length)

/-- `num_common_prefix_blocks`, asked for the first running request. -/
def countCommonPrefix (pass : SchedulePass H) : List Nat × SchedulePass H :=
  match pass.scheduler.running with
  | [] => (pass.scheduler.kvCacheManager.coordinator.singleTypeManagers.map fun _ => 0, pass)
  | first :: _ =>
      let counted := pass.scheduler.kvCacheManager.getNumCommonPrefixBlocks first
      (counted.1, pass.setKVCacheManager counted.2)

/-- Take the pending copies, and release their endpoints once they have run. -/
def takeCopies (pass : SchedulePass H) :
    Except PyError (List (BlockId × BlockId) × SchedulePass H) := do
  let (_, manager) := pass.scheduler.kvCacheManager.takeBoundaryStateOffloads
  let (copies, retained, manager) := manager.takeKvCacheBlockCopies
  let scheduler := { pass.scheduler with kvCacheManager := manager }
  let scheduler ←
    (if copies = [] then .ok scheduler
    else scheduler.freeCowRetainedBlocks retained (scheduler.schedStepSeq + 1))
  pure (copies, { pass with scheduler := scheduler })

/-- `num_spec_tokens_to_schedule`. -/
def numSpecTokensToSchedule (pass : SchedulePass H) : Except PyError Nat :=
  match pass.config.dynamicSdLookup with
  | some lookup =>
      if pass.numScheduledTokens.size > 0 then pyIndex lookup pass.numScheduledTokens.size
      else .ok pass.config.numSpecTokens
  | none => .ok pass.config.numSpecTokens

/-- Build the output, and drain what it reports. -/
def buildOutput (pass : SchedulePass H) : Except PyError (SchedulerOutput × SchedulePass H) := do
  let (numCommonPrefixBlocks, pass) := pass.countCommonPrefix
  let (copies, pass) ← pass.takeCopies
  let numSpecTokensToSchedule ← pass.numSpecTokensToSchedule
  let freed := pass.scheduler.encoderCacheManager.getFreedMmHashes
  let output : SchedulerOutput :=
    { -- The second model runner does not tell resumed requests from new ones.
      scheduledNewReqs :=
        if pass.config.useV2ModelRunner then pass.scheduledNewReqs ++ pass.scheduledResumedReqs
        else pass.scheduledNewReqs
      scheduledResumedReqs :=
        if pass.config.useV2ModelRunner then [] else pass.scheduledResumedReqs
      scheduledRunningReqs := pass.scheduledRunningReqs
      numScheduledTokens := pass.numScheduledTokens
      totalNumScheduledTokens := pass.numScheduledTokens.sumOn fun _ count => count
      scheduledSpecDecodeTokens := pass.scheduledSpecDecodeTokens
      scheduledEncoderInputs := pass.scheduledEncoderInputs
      numCommonPrefixBlocks := numCommonPrefixBlocks
      preemptedReqIds := pass.scheduler.resetPreemptedReqIds
      finishedReqIds := pass.scheduler.finishedReqIds
      freeEncoderMmHashes := freed.1
      kvCacheBlockCopies := copies
      numSpecTokensToSchedule := numSpecTokensToSchedule
      hasSyncKvLoads := pass.hasSyncKvLoads }
  let (_, manager) := pass.scheduler.kvCacheManager.takeNewBlockIds
  pure (output, (pass.setEncoderCacheManager freed.2).setKVCacheManager manager)

/-- The end of the step: the output, and the scheduler after it. -/
def finish (pass : SchedulePass H) : Except PyError (SchedulerOutput × Scheduler H) := do
  pass.checkConstraints
  let (output, pass) ← pass.buildOutput
  let scheduler := pass.scheduler
  let scheduler ← Scheduler.updateAfterSchedule
    { scheduler with
      -- Only steps that write blocks advance the fence of deferred frees.
      schedStepSeq :=
        if scheduler.config.deferBlockFree ∧ output.totalNumScheduledTokens > 0 then
          scheduler.schedStepSeq + 1
        else
          scheduler.schedStepSeq }
    output
  pure (output, scheduler)

end SchedulePass

namespace Scheduler

variable {H : Type} [DecidableEq H] [BlockHashing H]

/-- The first phase of `schedule`. -/
def runningPhase (scheduler : Scheduler H) (input : ScheduleInput H) :
    Except PyError (SchedulePass H) :=
  SchedulePass.scheduleRunningRequests input scheduler.running.length
    (scheduler.startPass input)

/-- `schedule`. -/
def schedule (scheduler : Scheduler H) (input : ScheduleInput H) :
    Except PyError (SchedulerOutput × Scheduler H) := do
  let pass ← scheduler.runningPhase input
  let pass ← pass.recordScheduledLoras
  let pass ← pass.waitingPhase input
  pass.finish

end Scheduler

end Vllm.Core
