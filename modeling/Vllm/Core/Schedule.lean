import Vllm.Core.Scheduler

/-!
# `schedule`

One scheduling step.  The running requests come first, in order; a request that
finds no blocks preempts others until it does, or is itself preempted.  If
nothing was preempted the waiting requests follow.  The local variables of the
source are the record `SchedulePass`, and each loop body is a function on it
that also tells whether the loop ends.
-/

namespace Vllm.Core

open Vllm.Library

/-- What the grammar backend says about a structured-output request. -/
inductive GrammarState where
  | pending
  | ready
  | failed
  deriving DecidableEq, Repr

/-- The argument of `schedule` and the answers its collaborators give during the
call: the KV connector, the grammar backend and the encoder-cache connector. -/
structure ScheduleInput (H : Type) where
  throttlePrefills : Bool := false
  getNumNewMatchedTokens : Request H → Nat → Option Nat × Bool := fun _ _ => (some 0, false)
  grammar : RequestId → GrammarState := fun _ => .pending
  hasCacheItem : String → Bool := fun _ => false
  ensureCacheAvailable : Request H → Nat → Bool := fun _ _ => true

/-- `SchedulerOutput`: what the workers are told, with requests by id. -/
structure SchedulerOutput where
  scheduledNewReqs : List RequestId
  scheduledResumedReqs : List RequestId
  scheduledRunningReqs : List RequestId
  numScheduledTokens : Dict RequestId Nat
  totalNumScheduledTokens : Nat
  scheduledSpecDecodeTokens : Dict RequestId (List TokenId)
  scheduledEncoderInputs : Dict RequestId (List Nat)
  numCommonPrefixBlocks : List Nat
  preemptedReqIds : List RequestId
  finishedReqIds : List RequestId
  freeEncoderMmHashes : List String
  kvCacheBlockCopies : List (BlockId × BlockId)
  numSpecTokensToSchedule : Nat
  hasSyncKvLoads : Bool

/-- The local variables of `schedule`, with the scheduler itself.  The last field is
history: whether a victim was withdrawn whose encoder inputs this step had
scheduled.  No decision reads it. -/
structure SchedulePass (H : Type) where
  scheduler : Scheduler H
  deferPrefills : Bool := false
  scheduledNewReqs : List RequestId := []
  scheduledResumedReqs : List RequestId := []
  scheduledRunningReqs : List RequestId := []
  preemptedReqs : List RequestId := []
  reqToNewBlocks : Dict RequestId (List (List BlockId)) := .empty
  numScheduledTokens : Dict RequestId Nat := .empty
  tokenBudget : Int
  inputBudget : Int
  scheduledEncoderInputs : Dict RequestId (List Nat) := .empty
  encoderComputeBudget : Int
  scheduledSpecDecodeTokens : Dict RequestId (List TokenId) := .empty
  prefillScheduled : Bool := false
  hasSyncKvLoads : Bool := false
  reqIndex : Nat := 0
  scheduledLoras : List Nat := []
  stepSkippedWaiting : List RequestId := []
  withdrewEncoderInputs : Bool := false

namespace SchedulePass

variable {H : Type}

/-- The scheduler's settings. -/
def config (pass : SchedulePass H) : SchedulerConfig :=
  pass.scheduler.config

/-- Replace the KV cache manager. -/
def setKVCacheManager (pass : SchedulePass H) (manager : KVCacheManager H) : SchedulePass H :=
  { pass with scheduler := { pass.scheduler with kvCacheManager := manager } }

/-- Replace the encoder cache manager. -/
def setEncoderCacheManager (pass : SchedulePass H) (manager : EncoderCacheManager) :
    SchedulePass H :=
  { pass with scheduler := { pass.scheduler with encoderCacheManager := manager } }

/-- The encoder cache as `_try_schedule_encoder_inputs` left it for the request. -/
def setEncoder (pass : SchedulePass H) (request : Request H) (encoder : EncoderPass) :
    SchedulePass H :=
  let pass := pass.setEncoderCacheManager encoder.manager
  { pass with
    scheduler := pass.scheduler.serve request.requestId encoder.reportedCached }

/-- The next running request. -/
def advance (pass : SchedulePass H) : SchedulePass H :=
  { pass with reqIndex := pass.reqIndex + 1 }

/-! ## Preemption inside the running loop -/

/-- The order in which victims are chosen: `(priority, arrival_time)`. -/
def isLowerPriority (request other : Request H) : Bool :=
  decide (other.priority < request.priority ∨
    other.priority = request.priority ∧ other.arrivalTime < request.arrivalTime)

/-- `max` over the running requests; the first of several maxima wins. -/
def lowestPriorityRequest (scheduler : Scheduler H) : Except PyError RequestId :=
  match scheduler.running with
  | [] => .error (.valueError "max() iterable argument is empty")
  | first :: rest => do
      let request ← scheduler.getRequest first
      let lowest ← rest.foldlM
        (fun lowest requestId => do
          let request ← scheduler.getRequest requestId
          pure (if isLowerPriority request lowest.2 then (requestId, request) else lowest))
        (first, request)
      pure lowest.1

/-- A victim that this step had scheduled already loses its entries, and the
budgets get back what it took. -/
def withdraw (pass : SchedulePass H) (requestId : RequestId) :
    Except PyError (SchedulePass H) :=
  if requestId ∈ pass.scheduledRunningReqs then
    match pass.numScheduledTokens.get? requestId, pass.reqToNewBlocks.get? requestId with
    | some restored, some _ => do
        let request ← pass.scheduler.getRequest requestId
        let numEmbedsToRestore ← (pass.scheduledEncoderInputs.getD requestId []).foldlM
          (fun (total : Nat) inputId => do
            let numEmbeds ← request.getNumEncoderEmbeds inputId
            pure (total + numEmbeds)) 0
        pure { pass with
          scheduledRunningReqs := pass.scheduledRunningReqs.erase requestId
          numScheduledTokens := pass.numScheduledTokens.erase requestId
          tokenBudget := pass.tokenBudget + restored
          inputBudget := pass.inputBudget + (restored + pass.config.draftSlots)
          reqToNewBlocks := pass.reqToNewBlocks.erase requestId
          scheduledSpecDecodeTokens := pass.scheduledSpecDecodeTokens.erase requestId
          scheduledEncoderInputs := pass.scheduledEncoderInputs.erase requestId
          encoderComputeBudget := pass.encoderComputeBudget + numEmbedsToRestore
          withdrewEncoderInputs := pass.withdrewEncoderInputs ||
            decide (pass.scheduledEncoderInputs.getD requestId [] ≠ []) }
    | _, _ => .error .keyError
  else
    .ok pass

/-- Take the victim of the next preemption out of `running`. -/
def removeVictim (pass : SchedulePass H) : Except PyError (RequestId × SchedulePass H) :=
  match pass.config.policy with
  | .priority => do
      let victim ← lowestPriorityRequest pass.scheduler
      let victimIndex := pass.scheduler.running.idxOf victim
      let pass ← withdraw
        { pass with
          scheduler :=
            { pass.scheduler with running := pass.scheduler.running.eraseIdx victimIndex }
          -- The cursor follows its request.
          reqIndex := if victimIndex < pass.reqIndex then pass.reqIndex - 1 else pass.reqIndex }
        victim
      pure (victim, pass)
  | .fcfs =>
      match pass.scheduler.running.getLast? with
      | none => .error .indexError
      | some victim =>
          .ok (victim, { pass with
              scheduler := { pass.scheduler with running := pass.scheduler.running.dropLast } })

/-- Preempt one request. -/
def preemptOne (pass : SchedulePass H) : Except PyError (RequestId × SchedulePass H) := do
  let (victim, pass) ← pass.removeVictim
  let scheduler ← pass.scheduler.preemptRequest victim pass.config.requiresKvDelivery
  pure (victim,
    { pass with scheduler := scheduler, preemptedReqs := pass.preemptedReqs ++ [victim] })

variable [DecidableEq H] [BlockHashing H]

/-- The `allocate_slots` loop of a running request: `none` if the request ended
up preempted.  Every round takes one request out of `running`, so their number
is enough fuel: without any, choosing the victim raises. -/
def allocateOrPreempt (request : Request H) (numNewTokens : Nat) :
    Nat → SchedulePass H → Except PyError (Option (List (List BlockId)) × SchedulePass H)
  | fuel, pass => do
      let (newBlocks, manager) ← pass.scheduler.kvCacheManager.allocateSlots request
        { numNewTokens := numNewTokens, numLookaheadTokens := pass.config.numLookaheadTokens }
      let pass := pass.setKVCacheManager manager
      match newBlocks with
      | some blocks => pure (some blocks, pass)
      | none => do
          let (victim, pass) ← pass.preemptOne
          if victim = request.requestId then
            pure (none, pass)
          else
            match fuel with
            | 0 => .error .indexError
            | fuel + 1 => allocateOrPreempt request numNewTokens fuel pass

/-! ## The running loop -/

section

omit [DecidableEq H] [BlockHashing H]

/-- The reasons to pass over a running request before sizing its chunk: its last
token is being computed already, its pipeline slot is not free yet, or prefills
are deferred. -/
def passesOver (pass : SchedulePass H) (request : Request H) : Bool :=
  decide (request.numOutputPlaceholders > 0 ∧
      (request.numComputedTokens : Int) + 2 - request.numOutputPlaceholders ≥
        request.numPromptTokens + request.maxTokens) ||
    decide (pass.scheduler.currentStep < request.nextDecodeEligibleStep) ||
    (pass.deferPrefills && request.isPrefillChunk)

/-- The chunk of a running request before the encoder has its say. -/
def runningChunk (pass : SchedulePass H) (request : Request H) : Int :=
  let config := pass.config
  let numNewTokens : Int :=
    request.numTokensWithSpec + request.numOutputPlaceholders - request.numComputedTokens
  let numNewTokens : Int :=
    if 0 < config.longPrefillTokenThreshold ∧ config.longPrefillTokenThreshold < numNewTokens then
      config.longPrefillTokenThreshold
    else
      numNewTokens
  let numNewTokens := min numNewTokens (min pass.tokenBudget (pass.inputBudget - config.draftSlots))
  -- Draft tokens must not take the input beyond the model length.
  let numNewTokens := min numNewTokens
    ((config.maxModelLen : Int) - request.numComputedTokens - config.numSampledTokensPerStep)
  if config.needMambaBlockAlignedSplit then
    Scheduler.mambaBlockAlignedSplit config request numNewTokens 0 0
  else
    numNewTokens

/-- `_try_schedule_encoder_inputs` with the variables of the pass. -/
def tryEncoderInputs (pass : SchedulePass H) (input : ScheduleInput H) (request : Request H)
    (numComputedTokens : Nat) (numNewTokens : Int) : Except PyError EncoderPass :=
  tryScheduleEncoderInputs pass.scheduler.encoderCacheManager request numComputedTokens
    numNewTokens pass.encoderComputeBudget pass.config.numPrefillLookahead
    pass.config.disableChunkedMmInput
    (fun mmHash => pass.config.ecConnector && input.hasCacheItem mmHash)

/-- Allocate the encoder cache for the scheduled inputs and for those that are
loaded from outside. -/
def commitEncoderInputs (pass : SchedulePass H) (request : Request H) (encoder : EncoderPass) :
    Except PyError (SchedulePass H) := do
  let manager ← (encoder.encoderInputsToSchedule ++ encoder.externalLoadEncoderInput).foldlM
    (fun (manager : EncoderCacheManager) inputId => manager.allocate request inputId)
    pass.scheduler.encoderCacheManager
  let pass := pass.setEncoderCacheManager manager
  let pass :=
    { pass with
      scheduler := pass.scheduler.serve request.requestId
        (encoder.encoderInputsToSchedule ++ encoder.externalLoadEncoderInput ++
          encoder.repeatedInputs) }
  if encoder.encoderInputsToSchedule = [] then
    pure pass
  else
    pure { pass with
      scheduledEncoderInputs :=
        pass.scheduledEncoderInputs.insert request.requestId encoder.encoderInputsToSchedule
      encoderComputeBudget := encoder.encoderComputeBudget }

/-- The draft tokens that the chunk covers are scheduled; the request drops its
drafts either way. -/
def commitSpecTokens (pass : SchedulePass H) (request : Request H) (numNewTokens : Nat) :
    SchedulePass H :=
  if request.specTokenIds = [] then
    pass
  else
    let numScheduledSpecTokens : Int :=
      numNewTokens + request.numComputedTokens - request.numTokens - request.numOutputPlaceholders
    { pass with
      scheduledSpecDecodeTokens :=
        if numScheduledSpecTokens > 0 then
          pass.scheduledSpecDecodeTokens.insert request.requestId
            (request.specTokenIds.take numScheduledSpecTokens.toNat)
        else
          pass.scheduledSpecDecodeTokens
      scheduler := pass.scheduler.setRequest { request with specTokenIds := [] } }

/-- The request got its blocks: it is scheduled. -/
def commitRunning (pass : SchedulePass H) (request : Request H) (newBlocks : List (List BlockId))
    (numNewTokens : Nat) (encoder : EncoderPass) : Except PyError (SchedulePass H) :=
  let pass :=
    { pass with
      scheduledRunningReqs := pass.scheduledRunningReqs ++ [request.requestId]
      prefillScheduled := pass.prefillScheduled || request.isPrefillChunk
      reqToNewBlocks := pass.reqToNewBlocks.insert request.requestId newBlocks
      numScheduledTokens := pass.numScheduledTokens.insert request.requestId numNewTokens
      tokenBudget := pass.tokenBudget - numNewTokens
      inputBudget := pass.inputBudget - (numNewTokens + pass.config.draftSlots)
      reqIndex := pass.reqIndex + 1 }
  (pass.commitSpecTokens request numNewTokens).commitEncoderInputs request encoder

/-- One round of the running loop; `true` ends it. -/
def scheduleRunningRequest (pass : SchedulePass H) (input : ScheduleInput H)
    (requestId : RequestId) : Except PyError (Bool × SchedulePass H) := do
  let request ← pass.scheduler.getRequest requestId
  if pass.inputBudget ≤ pass.config.draftSlots then
    pure (true, pass)
  else if pass.passesOver request then
    pure (false, pass.advance)
  else do
    let encoder ← pass.tryEncoderInputs input request request.numComputedTokens
      (pass.runningChunk request)
    let pass := pass.setEncoder request encoder
    let numNewTokens := Scheduler.reservePrefillLookahead pass.config request
      request.numComputedTokens encoder.numNewTokens
    if numNewTokens = 0 then
      pure (false, pass.advance)
    else do
      let (newBlocks, pass) ← allocateOrPreempt request numNewTokens
        pass.scheduler.running.length pass
      match newBlocks with
      | none => pure (true, pass)
      | some blocks => do
          let pass ← pass.commitRunning request blocks numNewTokens encoder
          pure (false, pass)

/-- The running loop.  The distance from the cursor to the end of `running`
shrinks in every round, so the number of running requests is enough fuel. -/
def scheduleRunningRequests (input : ScheduleInput H) :
    Nat → SchedulePass H → Except PyError (SchedulePass H)
  | 0, pass => .ok pass
  | fuel + 1, pass =>
      match pass.scheduler.running[pass.reqIndex]? with
      | none => .ok pass
      | some requestId =>
          if pass.tokenBudget > 0 then do
            let (stop, pass) ← pass.scheduleRunningRequest input requestId
            if stop then pure pass else scheduleRunningRequests input fuel pass
          else
            .ok pass

/-- The adapters of the given requests, each once. -/
def lorasOf (scheduler : Scheduler H) (requestIds : List RequestId) : List Nat :=
  (requestIds.filterMap fun requestId => do
    let request ← scheduler.requests.get? requestId
    let lora ← request.loraRequest
    if lora.loraIntId > 0 then some lora.loraIntId else none).dedup

/-- Record the adapters of the scheduled running requests. -/
def recordScheduledLoras (pass : SchedulePass H) : Except PyError (SchedulePass H) :=
  match pass.config.maxLoras with
  | none => .ok pass
  | some maxLoras => do
      let scheduledLoras := lorasOf pass.scheduler pass.scheduledRunningReqs
      pyAssert (scheduledLoras.length ≤ maxLoras)
      pure { pass with scheduledLoras := scheduledLoras }

end

end SchedulePass

end Vllm.Core
