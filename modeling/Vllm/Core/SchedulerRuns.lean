import Vllm.Core.UpdateOutcome

/-!
# Runs of the scheduler

The engine calls `schedule` and hands the outputs back to `update_from_output` in
the order in which the steps were scheduled, possibly several steps late; other
calls come in between.  A run is any such sequence of calls that do not raise.

Next to the scheduler the state keeps the steps in flight, and history that the
results speak about: how often each request had been preempted before a step was
scheduled, and the encoder outputs that a worker holds who follows the outputs.
-/

namespace Vllm.Core

open Vllm.Library

/-- A step in flight.  `epoch` tells how often a request had been preempted when the
step was scheduled. -/
structure Step where
  output : SchedulerOutput
  epoch : RequestId → Nat

/-- The scheduler, the steps in flight with the oldest first, and the worker's
encoder cache. -/
structure Engine (H : Type) where
  scheduler : Scheduler H
  inFlight : List Step
  workerCache : List String

/-- The calls of the engine.  `updateFromOutput` is about the oldest step in
flight. -/
inductive Call (H : Type) where
  | addRequest (request : Request H) (connectorDelays : RequestId → Bool)
  | schedule (input : ScheduleInput H)
  | updateFromOutput (runner : ModelRunnerOutput)
  | finishRequests (requestIds : Option (List RequestId)) (finishedStatus : RequestStatus)
      (connectorDelays : RequestId → Bool)
  | updateDraftTokenIds (entry : RequestId × List TokenId)
  | resetPrefixCache (resetRunningRequests : Bool)
  | setPauseState (pauseState : PauseState)

/-- A request as its constructor leaves it; a LoRA id is positive by the check in
`LoRARequest`. -/
structure Request.Fresh {H : Type} (request : Request H) : Prop where
  status : request.status = .waiting ∨ request.status = .waitingForStructuredOutputGrammar
  numInFlightTokens : request.numInFlightTokens = 0
  numStaleOutputTokens : request.numStaleOutputTokens = 0
  numPreemptions : request.numPreemptions = 0
  loraIntId : ∀ lora, request.loraRequest = some lora → 0 < lora.loraIntId

namespace Engine

variable {H : Type}

/-- How often a request has been preempted so far. -/
def epochOf (scheduler : Scheduler H) (requestId : RequestId) : Nat :=
  ((scheduler.requests.get? requestId).map Request.numPreemptions).getD 0

/-- The hash of an input of a request. -/
def hashOf (scheduler : Scheduler H) (requestId : RequestId) (inputId : Nat) : Option String := do
  let request ← scheduler.requests.get? requestId
  let feature ← request.mmFeatures[inputId]?
  some feature.identifier

/-- The hashes of the encoder inputs that an output schedules. -/
def scheduledHashes (scheduler : Scheduler H) (scheduled : Dict RequestId (List Nat)) :
    List String :=
  scheduled.entries.flatMap fun entry => entry.2.filterMap (hashOf scheduler entry.1)

/-- The encoder outputs that the worker holds after a step. -/
def replayOutput (scheduler : Scheduler H) (workerCache : List String)
    (output : SchedulerOutput) : List String :=
  (workerCache ++ scheduledHashes scheduler output.scheduledEncoderInputs).filter
    fun mmHash => mmHash ∉ output.freeEncoderMmHashes

variable [DecidableEq H] [BlockHashing H]

/-- A call, with the history it leaves. -/
def execute (engine : Engine H) : Call H → Except PyError (Engine H)
  | .addRequest request connectorDelays => do
      let scheduler ← engine.scheduler.addRequest request connectorDelays
      pure { engine with scheduler := scheduler }
  | .schedule input => do
      let (output, scheduler) ← engine.scheduler.schedule input
      pure
        { scheduler := scheduler
          inFlight := engine.inFlight ++ [⟨output, epochOf engine.scheduler⟩]
          workerCache := replayOutput scheduler engine.workerCache output }
  | .updateFromOutput runner =>
      match engine.inFlight with
      | [] => .error .indexError
      | step :: rest => do
          let (_, scheduler) ← engine.scheduler.updateFromOutput step.output runner
          pure { engine with scheduler := scheduler, inFlight := rest }
  | .finishRequests requestIds finishedStatus connectorDelays => do
      let scheduler ←
        engine.scheduler.finishRequests requestIds finishedStatus connectorDelays
      pure { engine with scheduler := scheduler }
  | .updateDraftTokenIds entry =>
      .ok { engine with scheduler := engine.scheduler.updateDraftTokenIds entry }
  | .resetPrefixCache resetRunningRequests => do
      let (_, scheduler) ← engine.scheduler.resetPrefixCache resetRunningRequests
      pure { engine with scheduler := scheduler }
  | .setPauseState pauseState =>
      .ok { engine with scheduler := { engine.scheduler with pauseState := pauseState } }

/-- What a call that does not raise has done. -/
inductive Executes (engine : Engine H) : Call H → Engine H → Prop
  | addRequest {request : Request H} {connectorDelays : RequestId → Bool} {scheduler : Scheduler H}
      (adding : engine.scheduler.addRequest request connectorDelays = .ok scheduler) :
      engine.Executes (.addRequest request connectorDelays) { engine with scheduler := scheduler }
  | schedule {input : ScheduleInput H} {output : SchedulerOutput} {scheduler : Scheduler H}
      (scheduling : engine.scheduler.schedule input = .ok (output, scheduler)) :
      engine.Executes (.schedule input)
        { scheduler := scheduler
          inFlight := engine.inFlight ++ [⟨output, epochOf engine.scheduler⟩]
          workerCache := replayOutput scheduler engine.workerCache output }
  | updateFromOutput {runner : ModelRunnerOutput} {outputs : _} {scheduler : Scheduler H}
      (step : Step) (rest : List Step) (flying : engine.inFlight = step :: rest)
      (updating : engine.scheduler.updateFromOutput step.output runner = .ok (outputs, scheduler)) :
      engine.Executes (.updateFromOutput runner)
        { engine with scheduler := scheduler, inFlight := rest }
  | finishRequests {requestIds : Option (List RequestId)} {finishedStatus : RequestStatus}
      {connectorDelays : RequestId → Bool} {scheduler : Scheduler H}
      (finishing : engine.scheduler.finishRequests requestIds finishedStatus connectorDelays =
        .ok scheduler) :
      engine.Executes (.finishRequests requestIds finishedStatus connectorDelays)
        { engine with scheduler := scheduler }
  | updateDraftTokenIds (entry : RequestId × List TokenId) :
      engine.Executes (.updateDraftTokenIds entry)
        { engine with scheduler := engine.scheduler.updateDraftTokenIds entry }
  | resetPrefixCache {resetRunningRequests successful : Bool} {scheduler : Scheduler H}
      (resetting : engine.scheduler.resetPrefixCache resetRunningRequests =
        .ok (successful, scheduler)) :
      engine.Executes (.resetPrefixCache resetRunningRequests)
        { engine with scheduler := scheduler }
  | setPauseState (pauseState : PauseState) :
      engine.Executes (.setPauseState pauseState)
        { engine with scheduler := { engine.scheduler with pauseState := pauseState } }

variable {engine : Engine H}

theorem executes_of_execute {next : Engine H} {call : Call H}
    (ran : engine.execute call = .ok next) :
    engine.Executes call next := by
  cases call with
  | addRequest request connectorDelays =>
      rcases bind_eq_ok.mp ran with ⟨scheduler, adding, ran⟩
      cases ran
      exact .addRequest adding
  | schedule input =>
      rcases bind_eq_ok.mp ran with ⟨⟨output, scheduler⟩, scheduling, ran⟩
      cases ran
      exact .schedule scheduling
  | updateFromOutput runner =>
      unfold execute at ran
      dsimp only at ran
      split at ran
      · contradiction
      · rename_i step rest flying
        rcases bind_eq_ok.mp ran with ⟨⟨outputs, scheduler⟩, updating, ran⟩
        cases ran
        exact .updateFromOutput step rest flying updating
  | finishRequests requestIds finishedStatus connectorDelays =>
      rcases bind_eq_ok.mp ran with ⟨scheduler, finishing, ran⟩
      cases ran
      exact .finishRequests finishing
  | updateDraftTokenIds entry =>
      cases ran
      exact .updateDraftTokenIds entry
  | resetPrefixCache resetRunningRequests =>
      rcases bind_eq_ok.mp ran with ⟨⟨successful, scheduler⟩, resetting, ran⟩
      cases ran
      exact .resetPrefixCache resetting
  | setPauseState pauseState =>
      cases ran
      exact .setPauseState pauseState

omit [DecidableEq H] [BlockHashing H] in
/-- What callers promise: requests are fresh, and the id of a new request is not one
that a step in flight still speaks about. -/
def Allowed (engine : Engine H) : Call H → Prop
  | .addRequest request _ =>
      request.Fresh ∧ (engine.scheduler.requests.get? request.requestId = none →
        ∀ step ∈ engine.inFlight, request.requestId ∉ step.output.numScheduledTokens.keys)
  | _ => True

/-- The runs in which every call meets a further condition. -/
def system (condition : Engine H → Call H → Prop) : System (Engine H) where
  start engine := ∃ config manager encoderCacheSize,
    engine = ⟨.init config manager encoderCacheSize, [], []⟩
  step engine next := ∃ call, engine.Allowed call ∧ condition engine call ∧
    engine.execute call = .ok next

variable {condition : Engine H → Call H → Prop}

/-- What holds of a new scheduler and is kept by every call holds in every run. -/
theorem reachable_rule (property : Engine H → Prop) (starts : ∀ config manager encoderCacheSize,
      property ⟨.init config manager encoderCacheSize, [], []⟩)
    (kept : ∀ engine call next, property engine → engine.Allowed call → condition engine call →
      engine.execute call = .ok next → property next)
    (reached : Reachable (system condition) engine) : property engine := by
  apply reached.invariant
  · rintro _ ⟨config, manager, encoderCacheSize, rfl⟩
    exact starts config manager encoderCacheSize
  · rintro engine next holds ⟨call, allowed, meets, ran⟩
    exact kept engine call next holds allowed meets ran

/-! ## Replayed runs -/

omit [DecidableEq H] [BlockHashing H] in
instance (request : Request H) : Decidable request.Fresh :=
  decidable_of_iff
    ((request.status = .waiting ∨ request.status = .waitingForStructuredOutputGrammar) ∧
      request.numInFlightTokens = 0 ∧ request.numStaleOutputTokens = 0 ∧
      request.numPreemptions = 0 ∧ ∀ lora ∈ request.loraRequest, 0 < lora.loraIntId)
    ⟨fun ⟨status, inFlight, stale, preemptions, lora⟩ =>
      ⟨status, inFlight, stale, preemptions, lora⟩,
    fun fresh => ⟨fresh.status, fresh.numInFlightTokens, fresh.numStaleOutputTokens,
      fresh.numPreemptions, fresh.loraIntId⟩⟩

omit [BlockHashing H] in
instance (engine : Engine H) (call : Call H) : Decidable (engine.Allowed call) :=
  match call with
  | .addRequest request _ =>
      inferInstanceAs (Decidable (request.Fresh ∧
        (engine.scheduler.requests.get? request.requestId = none →
          ∀ step ∈ engine.inFlight, request.requestId ∉ step.output.numScheduledTokens.keys)))
  | .schedule _ | .updateFromOutput _ | .finishRequests _ _ _ | .updateDraftTokenIds _
  | .resetPrefixCache _ | .setPauseState _ => inferInstanceAs (Decidable True)

/-- Replay calls that pass a check, on a new scheduler over one group of full
attention. -/
def replayCalls (check : Engine H → Call H → Bool) (config : SchedulerConfig)
    (numBlocks encoderCacheSize : Nat) (calls : List (Call H)) : Option (Engine H) :=
  match KVCacheManager.init
      { numBlocks := numBlocks
        kvCacheGroups := [{ kvCacheSpec := { blockSize := 4, kind := .fullAttention } }] }
      config.maxModelLen 4 4 none true false 0 false 1 0 with
  | .error _ => none
  | .ok manager =>
      replay
        (fun engine call =>
          if check engine call ∧ engine.Allowed call then (engine.execute call).toOption
          else none)
        calls ⟨.init config manager encoderCacheSize, [], []⟩

theorem replayCalls_reachable {check : Engine H → Call H → Bool}
    (sound : ∀ engine call, check engine call = true → condition engine call)
    {config : SchedulerConfig} {numBlocks encoderCacheSize : Nat} {calls : List (Call H)}
    (ran : replayCalls check config numBlocks encoderCacheSize calls = some engine) :
    Reachable (system condition) engine := by
  unfold replayCalls at ran
  split at ran
  · contradiction
  · refine Reachable.replay ?_ (.start ⟨config, _, encoderCacheSize, rfl⟩) ran
    intro engine call next executed
    split at executed
    · rename_i passes
      exact ⟨call, passes.2, sound engine call passes.1, toOption_eq_some.mp executed⟩
    · contradiction

end Engine

end Vllm.Core
