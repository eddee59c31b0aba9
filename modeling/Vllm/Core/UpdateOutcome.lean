import Mathlib.Data.List.Dedup
import Vllm.Core.ScheduleOutcome

/-!
# What the other calls leave

The counterpart of `Vllm.Core.ScheduleOutcome` for `update_from_output`,
`finish_requests`, `add_request` and `reset_prefix_cache`: what each of their
steps does to the profiles, the queues and the encoder cache.
-/

namespace Vllm.Core

open Vllm.Library

/-! ## Stopping -/

section Stopping

variable {H : Type}

/-- Whether the session of a request that stops goes on. -/
def sessionGoesOn (request : Request H) : Bool :=
  request.resumable && (request.streamingQueue.getD []).head? ≠ some none

/-- A request that stops only changes its status, to a finished one. -/
theorem checkStop_spec {request stopped : Request H} {maxModelLen : Nat}
    (ran : checkStop request maxModelLen = .ok (some stopped)) :
    stopped.isFinished ∧ stopped.profile = { request.profile with status := stopped.status } ∧
      sessionGoesOn stopped = sessionGoesOn request := by
  rcases bind_eq_ok.mp ran with ⟨_, _, ran⟩
  split at ran
  · contradiction
  · contradiction
  · split at ran
    · cases ran
      exact ⟨rfl, rfl, rfl⟩
    · split at ran
      · cases ran
        exact ⟨rfl, rfl, rfl⟩
      · split at ran
        · cases ran
          exact ⟨rfl, rfl, rfl⟩
        · split at ran
          · cases ran
          · split at ran
            · split at ran
              · cases ran
                exact ⟨rfl, rfl, rfl⟩
              · cases ran
            · cases ran

variable [BlockHashing H]

theorem appendOutputTokenIds_profile (request : Request H) (blockHasher : Option Nat)
    (tokenIds : List TokenId) :
    (request.appendOutputTokenIds blockHasher tokenIds).profile = request.profile ∧
      sessionGoesOn (request.appendOutputTokenIds blockHasher tokenIds) =
        sessionGoesOn request := by
  cases blockHasher <;> exact ⟨rfl, rfl⟩

/-- Appending tokens leaves the profile, except for the status of a request that
stops. -/
theorem appendUntilStop_spec {config : SchedulerConfig} {tokenIds kept : List TokenId}
    {request updated : Request H} {stopped : Bool}
    (ran : appendUntilStop config tokenIds request = .ok (updated, kept, stopped)) :
    updated.profile = { request.profile with status := updated.status } ∧
      (stopped = false → updated.status = request.status) ∧
      (stopped = true → updated.isFinished) ∧ sessionGoesOn updated = sessionGoesOn request := by
  induction tokenIds generalizing request kept with
  | nil =>
      cases ran
      exact ⟨rfl, fun _ => rfl, nofun, rfl⟩
  | cons tokenId rest ih =>
      have appended := appendOutputTokenIds_profile request config.blockHasher [tokenId]
      have status := congrArg Profile.status appended.1
      rcases bind_eq_ok.mp ran with ⟨stop, checked, ran⟩
      cases stop with
      | some stopped =>
          cases ran
          rcases checkStop_spec checked with ⟨finished, profile, session⟩
          refine ⟨?_, nofun, fun _ => finished, session.trans appended.2⟩
          rw [profile, appended.1]
      | none =>
          rcases bind_eq_ok.mp ran with ⟨⟨final, others, halted⟩, appending, ran⟩
          cases ran
          rcases ih appending with ⟨profile, same, finished, session⟩
          refine ⟨?_, ?_, finished, session.trans appended.2⟩
          · rw [profile, appended.1]
          · intro going
            exact (same going).trans status

end Stopping

namespace Scheduler

variable {H : Type} [DecidableEq H] [BlockHashing H]

variable {scheduler next : Scheduler H} {runner : ModelRunnerOutput} {request updated : Request H}
  {newTokenIds : List TokenId}

variable {isStale : Bool}

/-- Taking the output of a request changes its status only if it stops, and the KV
cache at most. -/
theorem takeOutput_spec {stopped : Bool} (ran : scheduler.takeOutput runner request isStale =
      .ok (updated, newTokenIds, stopped, next)) :
    (∃ manager, next = { scheduler with kvCacheManager := manager }) ∧
      updated.profile = { request.profile with status := updated.status } ∧
      (stopped = false → updated.status = request.status) ∧
      (stopped = true → updated.isFinished) := by
  rcases bind_eq_ok.mp ran with ⟨⟨taken, kept, halted, after⟩, taking, ran⟩
  have first : (∃ manager, after = { scheduler with kvCacheManager := manager }) ∧
      taken.profile = { request.profile with status := taken.status } ∧
      (halted = false → taken.status = request.status) ∧
      (halted = true → taken.isFinished) := by
    split at taking
    · unfold updateRequestWithOutput at taking
      rcases bind_eq_ok.mp taking with ⟨⟨appended, tokens, stop⟩, appending, taking⟩
      rcases appendUntilStop_spec appending with ⟨profile, same, finished, _⟩
      dsimp only at taking
      split at taking
      · rcases bind_eq_ok.mp taking with ⟨_, _, taking⟩
        rcases bind_eq_ok.mp taking with ⟨manager, _, taking⟩
        cases taking
        exact ⟨⟨manager, rfl⟩, profile, same, finished⟩
      · cases taking
        exact ⟨⟨_, rfl⟩, profile, same, finished⟩
    · split at taking
      · cases taking
        exact ⟨⟨_, rfl⟩, rfl, by rintro ⟨⟩, fun _ => rfl⟩
      · cases taking
        exact ⟨⟨_, rfl⟩, rfl, fun _ => rfl, by rintro ⟨⟩⟩
  rcases first with ⟨⟨manager, rfl⟩, profile, same, finished⟩
  dsimp only at ran
  split at ran
  · cases ran
    refine ⟨⟨manager, rfl⟩, ?_, by rintro ⟨⟩, fun _ => rfl⟩
    change { taken.profile with status := .finishedError } = _
    rw [profile]
  · cases ran
    exact ⟨⟨manager, rfl⟩, profile, same, finished⟩

omit [DecidableEq H] in
/-- The output stops the request, and its session goes on: its tokens stop it and the
grammar accepts them, or there are none and it is done without. -/
def StopsSession (config : SchedulerConfig) (runner : ModelRunnerOutput) (request : Request H) :
    Prop :=
  sessionGoesOn request ∧
    ((∃ updated kept, appendUntilStop config (runner.sampledTokenIds request.requestId) request =
        .ok (updated, kept, true) ∧
      (kept ≠ [] → runner.grammarRejects request.requestId kept = false)) ∨
    (runner.sampledTokenIds request.requestId = [] ∧
      ((request.poolingParams ∧ runner.poolerOutput request.requestId) ∨
        (config.isMmEncoderOnly ∧ request.numComputedTokens ≥ request.numPromptTokens))))

theorem stopsSession_of_takeOutput
    (ran : scheduler.takeOutput runner request isStale = .ok (updated, newTokenIds, true, next))
    (goesOn : sessionGoesOn updated) : StopsSession scheduler.config runner request := by
  rcases bind_eq_ok.mp ran with ⟨⟨taken, kept, halted, after⟩, taking, ran⟩
  dsimp only at ran
  split at ran
  · cases ran
    contradiction
  · rename_i accepted
    cases ran
    split at taking
    · unfold updateRequestWithOutput at taking
      rcases bind_eq_ok.mp taking with ⟨⟨appended, tokens, stop⟩, appending, taking⟩
      rcases appendUntilStop_spec appending with ⟨profile, _, _, session⟩
      have id : appended.requestId = request.requestId := congrArg Profile.requestId profile
      have outcome : updated.requestId = appended.requestId ∧ newTokenIds = tokens ∧
          stop = true ∧ sessionGoesOn updated = sessionGoesOn appended := by
        dsimp only at taking
        split at taking
        · rcases bind_eq_ok.mp taking with ⟨_, _, taking⟩
          rcases bind_eq_ok.mp taking with ⟨manager, _, taking⟩
          cases taking
          exact ⟨rfl, rfl, rfl, rfl⟩
        · cases taking
          exact ⟨rfl, rfl, rfl, rfl⟩
      rcases outcome with ⟨sameId, rfl, rfl, sameSession⟩
      refine ⟨session.symm.trans (sameSession.symm.trans goesOn), .inl ⟨_, _, appending, ?_⟩⟩
      intro some
      rw [sameId, id] at accepted
      simpa [some] using accepted
    · rename_i without
      split at taking
      · rename_i done
        cases taking
        exact ⟨goesOn, .inr ⟨by simpa using without, done⟩⟩
      · cases taking

end Scheduler

/-! ## Finishing and requeueing -/

namespace Scheduler

variable {H : Type}

/-- A finished request has given up its encoder inputs, and its object is gone or
still there as it was. -/
def Finished (scheduler : Scheduler H) (request : Request H) (next : Scheduler H) : Prop :=
  ∃ manager deferred encoder inflight finishedReqIds received failed requests,
    scheduler.encoderCacheManager.free request = .ok encoder ∧
    (requests.get? request.requestId = none ∨
      ∃ left, requests.get? request.requestId = some left ∧ left.profile = request.profile) ∧
    (∀ other, other ≠ request.requestId → requests.get? other = scheduler.requests.get? other) ∧
    next =
      { scheduler with
        kvCacheManager := manager
        deferredFrees := deferred
        encoderCacheManager := encoder
        servedInputs := scheduler.servedInputs.erase request.requestId
        inflightPrefills := inflight
        finishedReqIds := finishedReqIds
        finishedRecvingKvReqIds := received
        failedRecvingKvReqIds := failed
        requests := requests }

variable {scheduler next : Scheduler H} {request session : Request H}

theorem Finished.keyed (keyed : scheduler.Keyed) (finished : scheduler.Finished request next) :
    next.Keyed := by
  rcases finished with ⟨_, _, _, _, _, _, _, requests, _, own, others, rfl⟩
  intro requestId stored found
  by_cases here : requestId = request.requestId
  · rw [here] at found ⊢
    rcases own with gone | ⟨left, stays, profile⟩
    · rw [gone] at found
      contradiction
    · rw [stays] at found
      cases found
      exact congrArg Profile.requestId profile
  · rw [others requestId here] at found
    exact keyed requestId stored found

variable {other : RequestId}

theorem Finished.others (finished : scheduler.Finished request next)
    (differ : other ≠ request.requestId) :
    next.requests.get? other = scheduler.requests.get? other := by
  rcases finished with ⟨_, _, _, _, _, _, _, requests, _, own, others, rfl⟩
  exact others other differ

theorem Finished.config (finished : scheduler.Finished request next) :
    next.config = scheduler.config := by
  rcases finished with ⟨_, _, _, _, _, _, _, requests, _, _, _, rfl⟩
  rfl

theorem freeBlocks_spec (ran : scheduler.freeBlocks request = .ok next) :
    request.isFinished ∧ ∃ manager deferred, next =
        { scheduler with
          kvCacheManager := manager
          deferredFrees := deferred
          requests := scheduler.requests.erase request.requestId } := by
  rcases bind_eq_ok.mp ran with ⟨_, asserted, ran⟩
  rcases bind_eq_ok.mp ran with ⟨freed, freeing, ran⟩
  rcases freeRequestBlocks_spec freeing with ⟨manager, deferred, rfl⟩
  cases ran
  exact ⟨pyAssert_eq_ok.mp asserted, manager, deferred, rfl⟩

theorem freeRequest_spec {stored : Request H} {delayFreeBlocks connectorDelays : Bool}
    (found : scheduler.requests.get? request.requestId = some stored)
    (same : stored.profile = request.profile)
    (ran : scheduler.freeRequest request delayFreeBlocks connectorDelays = .ok next) :
    scheduler.Finished request next := by
  rcases bind_eq_ok.mp ran with ⟨_, _, ran⟩
  rcases bind_eq_ok.mp ran with ⟨notified, notifying, ran⟩
  rcases bind_eq_ok.mp ran with ⟨released, releasing, ran⟩
  have connector : ∃ manager inflight,
      notified = { scheduler with kvCacheManager := manager, inflightPrefills := inflight } := by
    unfold connectorFinished at notifying
    split at notifying
    · rcases bind_eq_ok.mp notifying with ⟨manager, _, notifying⟩
      cases notifying
      exact ⟨_, _, rfl⟩
    · cases notifying
      exact ⟨_, _, rfl⟩
  rcases connector with ⟨manager, inflight, rfl⟩
  rcases freeEncoderCache_spec releasing with ⟨encoder, freed, rfl⟩
  dsimp only at ran
  split at ran
  · cases ran
    exact ⟨_, _, encoder, _, _, _, _, scheduler.requests, freed, .inr ⟨stored, found, same⟩,
      fun _ _ => rfl, rfl⟩
  · rcases freeBlocks_spec ran with ⟨_, manager, deferred, rfl⟩
    exact ⟨_, _, encoder, _, _, _, _, _, freed, .inl (Dict.get?_erase_self ..),
      fun other differ => Dict.get?_erase_of_ne _ (Ne.symm differ), rfl⟩

/-- What a session that goes on keeps: everything but its status, its arrival time and
the items that the update brings. -/
def Continues (old new : Profile) : Prop :=
  old.mmFeatures <+: new.mmFeatures ∧
    new =
      { old with
        status := new.status
        mmFeatures := new.mmFeatures
        arrivalTime := new.arrivalTime }

theorem enqueueWaitingRequest_spec (scheduler : Scheduler H) (request : Request H) :
    ∃ waiting skipped, (waiting ++ skipped).Perm
        (request.requestId :: (scheduler.waiting ++ scheduler.skippedWaiting)) ∧
      scheduler.enqueueWaitingRequest request =
        { scheduler with waiting := waiting, skippedWaiting := skipped } := by
  unfold enqueueWaitingRequest
  split
  · refine ⟨scheduler.waiting, _, ?_, rfl⟩
    apply ((RequestQueue.addRequest_perm ..).append_left scheduler.waiting).trans
    exact List.perm_middle
  · exact ⟨_, scheduler.skippedWaiting, (RequestQueue.addRequest_perm ..).append_right _, rfl⟩

/-- A session that goes on is queued again, and is counted as long as it waits for its
next input. -/
def Requeued (scheduler : Scheduler H) (request : Request H) (next : Scheduler H) : Prop :=
  ∃ continued count, Continues request.profile (Request.profile continued) ∧
    ((continued.status = .waiting ∧ count =
        if request.status = .waitingForStreamingReq then scheduler.numWaitingForStreamingInput - 1
        else scheduler.numWaitingForStreamingInput) ∨
      (continued.status = .waitingForStreamingReq ∧
        count = scheduler.numWaitingForStreamingInput + 1)) ∧
    next =
      enqueueWaitingRequest
        { scheduler with
          requests := scheduler.requests.insert continued.requestId continued
          numWaitingForStreamingInput := count }
        continued

/-- The requeued session in its queue, up to order. -/
theorem Requeued.shape (requeued : scheduler.Requeued request next) :
    ∃ continued waiting skipped count, Continues request.profile (Request.profile continued) ∧
      (continued.status = .waiting ∨ continued.status = .waitingForStreamingReq) ∧
      (waiting ++ skipped).Perm
        (request.requestId :: (scheduler.waiting ++ scheduler.skippedWaiting)) ∧
      next =
        { scheduler with
          requests := scheduler.requests.insert continued.requestId continued
          waiting := waiting
          skippedWaiting := skipped
          numWaitingForStreamingInput := count } := by
  rcases requeued with ⟨continued, count, continues, status, rfl⟩
  have id : continued.requestId = request.requestId := congrArg Profile.requestId continues.2
  rcases enqueueWaitingRequest_spec
    { scheduler with
      requests := scheduler.requests.insert continued.requestId continued
      numWaitingForStreamingInput := count }
    continued with ⟨waiting, skipped, same, queued⟩
  rw [id] at same
  exact ⟨continued, waiting, skipped, count, continues, status.imp And.left And.left, same, queued⟩

theorem Requeued.keyed (keyed : scheduler.Keyed) (requeued : scheduler.Requeued request next) :
    next.Keyed := by
  rcases requeued.shape with ⟨continued, waiting, skipped, count, _, _, _, rfl⟩
  exact keyed_insert keyed rfl

theorem Requeued.config (requeued : scheduler.Requeued request next) :
    next.config = scheduler.config := by
  rcases requeued.shape with ⟨continued, waiting, skipped, count, _, _, _, rfl⟩
  rfl

theorem Requeued.others (requeued : scheduler.Requeued request next)
    (differ : other ≠ request.requestId) :
    next.requests.get? other = scheduler.requests.get? other := by
  rcases requeued.shape with ⟨continued, waiting, skipped, count, continues, _, _, rfl⟩
  have id : continued.requestId = request.requestId := congrArg Profile.requestId continues.2
  exact Dict.get?_insert_of_ne _ _ (id ▸ Ne.symm differ)

variable [BlockHashing H]

omit [BlockHashing H] in
theorem Continues.refl (request : Request H) (status : RequestStatus) :
    Continues request.profile { request.profile with status := status } :=
  ⟨List.prefix_rfl, rfl⟩

variable {update : StreamingUpdate}

theorem continued_spec {continued : Request H} {blockHasher : Option Nat}
    (ran : session.continued blockHasher update = .ok continued) :
    continued.status = .waiting ∧ Continues session.profile continued.profile ∧
      continued.arrivalTime = update.arrivalTime := by
  unfold Request.continued at ran
  split at ran
  · contradiction
  · cases ran
    refine ⟨rfl, ⟨?_, ?_⟩, rfl⟩
    · unfold Request.updateBlockHashes
      cases blockHasher <;> exact List.prefix_append ..
    · unfold Request.updateBlockHashes
      cases blockHasher <;> rfl

theorem updateRequestAsSession_spec
    (ran : scheduler.updateRequestAsSession session update = .ok next) :
    ∃ continued count, continued.status = .waiting ∧
      Continues session.profile (Request.profile continued) ∧
      continued.arrivalTime = update.arrivalTime ∧
      (count = if session.status = .waitingForStreamingReq then
          scheduler.numWaitingForStreamingInput - 1
        else scheduler.numWaitingForStreamingInput) ∧
      next =
        { scheduler with
          requests := scheduler.requests.insert continued.requestId continued
          numWaitingForStreamingInput := count } := by
  rcases bind_eq_ok.mp ran with ⟨continued, continuing, ran⟩
  cases ran
  rcases continued_spec continuing with ⟨status, continues, arrival⟩
  exact ⟨continued, _, status, continues, arrival, rfl, rfl⟩

/-- A stopped request is finished, up to what is left of its session, or its session
goes on. -/
theorem handleStoppedRequest_spec {finished : Bool}
    (ran : scheduler.handleStoppedRequest request = .ok (finished, next)) :
    (finished = true ∧ (next = scheduler ∨
      ∃ rest, next = scheduler.setRequest { request with streamingQueue := rest })) ∨
    (finished = false ∧ sessionGoesOn request ∧ scheduler.Requeued request next) := by
  unfold handleStoppedRequest at ran
  split at ran
  · rename_i resumable
    have goesOn : (request.streamingQueue.getD []).head? ≠ some none → sessionGoesOn request := by
      intro open_
      unfold sessionGoesOn
      rw [resumable, decide_eq_true open_]
      rfl
    split at ran
    · cases ran
      exact .inl ⟨rfl, .inr ⟨_, rfl⟩⟩
    · rename_i entries
      rcases bind_eq_ok.mp ran with ⟨updated, updating, ran⟩
      rcases bind_eq_ok.mp ran with ⟨current, getting, ran⟩
      cases ran
      rcases updateRequestAsSession_spec updating with
        ⟨continued, count, status, continues, _, counted, rfl⟩
      have id : continued.requestId = request.requestId := congrArg Profile.requestId continues.2
      rw [getRequest_eq_ok, ← id, Dict.get?_insert_self] at getting
      obtain rfl := Option.some.inj getting
      exact .inr ⟨rfl, goesOn (by rw [entries]; nofun), continued, count, continues,
        .inl ⟨status, counted⟩, rfl⟩
    · rename_i entries
      cases ran
      exact .inr ⟨rfl, goesOn (by rw [entries]; nofun),
        { request with status := .waitingForStreamingReq }, _, Continues.refl request _,
        .inr ⟨rfl, rfl⟩, rfl⟩
  · cases ran
    exact .inl ⟨rfl, .inl rfl⟩

end Scheduler

/-! ## The output of one request -/

namespace Scheduler

variable {H : Type}

/-- The encoder inputs of the request that are behind were released, if it has
any. -/
def ReleasesBehind (scheduler : Scheduler H) (request : Request H)
    (encoder : EncoderCacheManager) (served : Dict RequestId (List Nat)) : Prop :=
  (releaseBehind scheduler.config request scheduler.encoderCacheManager = .ok encoder ∧
    served = scheduler.servedInputs.insert request.requestId
      (inputsAhead scheduler.config request
        (scheduler.servedInputs.getD request.requestId []))) ∨
  (request.mmFeatures = [] ∧ encoder = scheduler.encoderCacheManager ∧
    served = scheduler.servedInputs)

variable {request : Request H}

theorem releasesBehind_of {scheduler released : Scheduler H}
    (ran : (if request.hasEncoderInputs then
        (scheduler.setRequest request).freeEncoderInputs request
      else .ok (scheduler.setRequest request)) = .ok released) :
    ∃ encoder served, scheduler.ReleasesBehind request encoder served ∧
      released =
        { scheduler.setRequest request with
          encoderCacheManager := encoder
          servedInputs := served } := by
  split at ran
  · rcases bind_eq_ok.mp ran with ⟨encoder, loop, ran⟩
    cases ran
    exact ⟨encoder, _, .inl ⟨loop, rfl⟩, rfl⟩
  · rename_i without
    cases ran
    refine ⟨_, _, .inr ⟨?_, rfl, rfl⟩, rfl⟩
    unfold Request.hasEncoderInputs at without
    simpa using without

theorem Finished.of_setRequest {scheduler next : Scheduler H} {written : Request H}
    (same : written.requestId = request.requestId)
    (finished : (scheduler.setRequest written).Finished request next) :
    scheduler.Finished request next := by
  rcases finished with ⟨_, _, encoder, _, _, _, _, requests, freed, own, others, rfl⟩
  refine ⟨_, _, encoder, _, _, _, _, requests, freed, own, ?_, rfl⟩
  intro other differ
  rw [others other differ, get?_setRequest, if_neg (same ▸ Ne.symm differ)]

end Scheduler

namespace UpdatePass

variable {H : Type} [DecidableEq H] [BlockHashing H]

omit [DecidableEq H] [BlockHashing H] in
/-- The request is noted as stopped, by the status it had. -/
def noteStopped (pass : UpdatePass H) (requestId : RequestId) (status : RequestStatus) :
    UpdatePass H :=
  if status = .running then
    { pass with stoppedRunningReqs := pass.stoppedRunningReqs.insert requestId }
  else
    { pass with stoppedPreemptedReqs := pass.stoppedPreemptedReqs.insert requestId }

variable {pass next : UpdatePass H} {runner : ModelRunnerOutput} {request : Request H}
  {output : SchedulerOutput}

omit [DecidableEq H] in
theorem stop_spec {status : RequestStatus}
    (found : pass.scheduler.requests.get? request.requestId = some request)
    (ran : pass.stop runner request status = .ok next) :
    ∃ scheduler, (pass.scheduler.Finished request scheduler ∨
        (sessionGoesOn request ∧ pass.scheduler.Requeued request scheduler)) ∧
      next = { pass with scheduler := scheduler }.noteStopped request.requestId status := by
  rcases bind_eq_ok.mp ran with ⟨⟨finished, handled⟩, handling, ran⟩
  rcases bind_eq_ok.mp ran with ⟨scheduler, freeing, ran⟩
  have noted : next = { pass with scheduler := scheduler }.noteStopped request.requestId status := by
    unfold noteStopped
    split at ran
    · rename_i running
      cases ran
      rw [if_pos running]
    · rename_i idle
      cases ran
      rw [if_neg idle]
  refine ⟨scheduler, ?_, noted⟩
  rcases Scheduler.handleStoppedRequest_spec handling with
    ⟨rfl, rfl | ⟨rest, rfl⟩⟩ | ⟨rfl, goesOn, requeued⟩
  · exact .inl (Scheduler.freeRequest_spec found rfl freeing)
  · have written : (pass.scheduler.setRequest
        { request with streamingQueue := rest }).requests.get? request.requestId =
          some { request with streamingQueue := rest } := Dict.get?_insert_self ..
    have finished := Scheduler.freeRequest_spec written rfl freeing
    exact .inl (Scheduler.Finished.of_setRequest (by rfl) finished)
  · cases freeing
    exact .inr ⟨goesOn, requeued⟩

section

omit [DecidableEq H] [BlockHashing H]

theorem rejectDrafts_profile (request : Request H) (config : SchedulerConfig) (isStale : Bool)
    (scheduledSpecTokenIds generatedTokenIds : List TokenId) :
    (request.rejectDrafts config isStale scheduledSpecTokenIds generatedTokenIds).profile =
      request.profile := by
  unfold Request.rejectDrafts
  split <;> rfl

/-- The request as `update_from_output` sees it when it takes its output. -/
def atDelivery (output : SchedulerOutput) (runner : ModelRunnerOutput) (config : SchedulerConfig)
    (request : Request H) (numTokensScheduled : Nat) : Request H :=
  let drained := request.drained numTokensScheduled
  drained.2.rejectDrafts config drained.1
    (output.scheduledSpecDecodeTokens.getD request.requestId [])
    (runner.sampledTokenIds request.requestId)

end

/-- Delivering the output of a request: its inputs that are behind are released, and
it goes on, finishes or has its session requeued. -/
theorem deliver_spec {isStale : Bool} (ran : pass.deliver output runner request isStale = .ok next) :
    ∃ delivered encoder served manager updated newTokenIds stopped outputs,
      let released : Scheduler H :=
        { pass.scheduler.setRequest delivered with
          encoderCacheManager := encoder
          servedInputs := served }
      let taken : Scheduler H := { released with kvCacheManager := manager }.setRequest updated
      delivered = request.rejectDrafts pass.scheduler.config isStale
        (output.scheduledSpecDecodeTokens.getD request.requestId [])
        (runner.sampledTokenIds request.requestId) ∧
      delivered.profile = request.profile ∧
      pass.scheduler.ReleasesBehind delivered encoder served ∧
      released.takeOutput runner delivered isStale =
        .ok (updated, newTokenIds, stopped, { released with kvCacheManager := manager }) ∧
      updated.profile = { delivered.profile with status := updated.status } ∧
      ((stopped = false ∧ updated.status = delivered.status ∧
        next = { pass with scheduler := taken, outputs := outputs }) ∨
      (stopped = true ∧ updated.isFinished ∧ ∃ scheduler, (taken.Finished updated scheduler ∨
          (sessionGoesOn updated ∧ taken.Requeued updated scheduler)) ∧
        next =
          { pass with scheduler := scheduler, outputs := outputs }.noteStopped updated.requestId
            delivered.status)) := by
  rcases bind_eq_ok.mp ran with ⟨released, releasing, ran⟩
  rcases bind_eq_ok.mp ran with ⟨⟨updated, newTokenIds, stopped, after⟩, taking, ran⟩
  rcases bind_eq_ok.mp ran with ⟨final, stopping, showing⟩
  have shown : ∃ outputs, next = { final with outputs := outputs } := by
    split at showing
    · cases showing
      exact ⟨_, rfl⟩
    · cases showing
      exact ⟨_, rfl⟩
  rcases shown with ⟨outputs, rfl⟩
  rcases Scheduler.releasesBehind_of releasing with ⟨encoder, served, releases, rfl⟩
  rcases Scheduler.takeOutput_spec taking with ⟨⟨manager, rfl⟩, profile, same, finished⟩
  refine ⟨_, encoder, served, manager, updated, newTokenIds, stopped, outputs, rfl,
    rejectDrafts_profile .., releases, taking, profile, ?_⟩
  cases stopped with
  | false =>
      cases stopping
      exact .inl ⟨rfl, same rfl, rfl⟩
  | true =>
      rcases stop_spec (Dict.get?_insert_self ..) stopping with ⟨scheduler, outcome, rfl⟩
      refine .inr ⟨rfl, finished rfl, scheduler, outcome, ?_⟩
      unfold noteStopped
      split <;> rfl

variable {failedKvLoadReqIds : List RequestId} {entry : RequestId × Nat}

/-- One round of the main loop on a request that is there: its counters are drained,
and the output is dropped or delivered. -/
theorem processScheduled_spec (found : pass.scheduler.requests.get? entry.1 = some request)
    (ran : processScheduled output runner failedKvLoadReqIds pass entry = .ok next) :
    next = { pass with scheduler := pass.scheduler.setRequest (request.drained entry.2).2 } ∨
    (request.isFinished = false ∧ entry.1 ∉ failedKvLoadReqIds ∧
      ¬((request.drained entry.2).1 ∧ request.dropStaleOutput) ∧
      UpdatePass.deliver
        { pass with scheduler := pass.scheduler.setRequest (request.drained entry.2).2 }
        output runner (request.drained entry.2).2 (request.drained entry.2).1 = .ok next) := by
  have status : (request.drained entry.2).2.status = request.status := rfl
  have drops : (request.drained entry.2).2.dropStaleOutput = request.dropStaleOutput := rfl
  rcases bind_eq_ok.mp ran with ⟨_, _, ran⟩
  rw [found] at ran
  dsimp only at ran
  generalize request.drained entry.2 = drained at ran status drops ⊢
  rcases bind_eq_ok.mp ran with ⟨_, _, ran⟩
  split at ran
  · cases ran
    exact .inl rfl
  · rename_i taken
    rw [not_or, not_or] at taken
    refine .inr ⟨?_, taken.1, ?_, ran⟩
    · unfold Request.isFinished at taken ⊢
      rw [← status]
      simpa using taken.2.1
    · rw [← drops]
      exact taken.2.2

section

omit [DecidableEq H] [BlockHashing H]

@[simp]
theorem noteStopped_scheduler (pass : UpdatePass H) (requestId : RequestId)
    (status : RequestStatus) : (pass.noteStopped requestId status).scheduler = pass.scheduler := by
  unfold noteStopped
  split <;> rfl

theorem mem_noteStopped_of_ne (pass : UpdatePass H) (status : RequestStatus)
    {requestId other : RequestId} (differ : other ≠ requestId) :
    (other ∈ (pass.noteStopped requestId status).stoppedRunningReqs ↔
      other ∈ pass.stoppedRunningReqs) ∧
    (other ∈ (pass.noteStopped requestId status).stoppedPreemptedReqs ↔
      other ∈ pass.stoppedPreemptedReqs) := by
  unfold noteStopped
  split <;> simp [differ]

end

/-- What a round of the main loop sees of a request: its object, and whether it was
noted as stopped. -/
def view (pass : UpdatePass H) (requestId : RequestId) : Option (Request H) × Bool × Bool :=
  (pass.scheduler.requests.get? requestId, decide (requestId ∈ pass.stoppedRunningReqs),
    decide (requestId ∈ pass.stoppedPreemptedReqs))

/-- A round of the main loop keeps the settings, keeps the objects filed and leaves
other requests alone. -/
theorem processScheduled_frame (keyed : pass.scheduler.Keyed)
    (ran : processScheduled output runner failedKvLoadReqIds pass entry = .ok next) :
    next.scheduler.Keyed ∧ next.scheduler.config = pass.scheduler.config ∧
      ∀ other, other ≠ entry.1 → next.view other = pass.view other := by
  cases found : pass.scheduler.requests.get? entry.1 with
  | none =>
      rcases bind_eq_ok.mp ran with ⟨_, _, ran⟩
      rw [found] at ran
      cases ran
      exact ⟨keyed, rfl, fun _ _ => rfl⟩
  | some request =>
      have key := keyed entry.1 request found
      have drainedKey : (request.drained entry.2).2.requestId = entry.1 := key
      rcases processScheduled_spec found ran with rfl | ⟨_, _, _, delivering⟩
      · refine ⟨keyed.setRequest _, rfl, fun other differ => ?_⟩
        unfold view
        rw [Scheduler.get?_setRequest_of_ne _ (drainedKey ▸ differ)]
      · rcases deliver_spec delivering with
          ⟨delivered, encoder, served, manager, updated, newTokenIds, stopped, outputs, _, same,
            _, _, profile, outcome⟩
        have deliveredKey : delivered.requestId = entry.1 :=
          (congrArg Profile.requestId same).trans drainedKey
        have updatedKey : updated.requestId = entry.1 :=
          (congrArg Profile.requestId profile).trans deliveredKey
        -- The object is written three times, each time under the same id.
        have filed := ((keyed.setRequest (request.drained entry.2).2).setRequest
          delivered).setRequest updated
        have kept : ∀ other, other ≠ entry.1 →
            (((pass.scheduler.setRequest (request.drained entry.2).2).setRequest
              delivered).setRequest updated).requests.get? other =
                pass.scheduler.requests.get? other := by
          intro other differ
          rw [Scheduler.get?_setRequest_of_ne _ (updatedKey ▸ differ),
            Scheduler.get?_setRequest_of_ne _ (deliveredKey ▸ differ),
            Scheduler.get?_setRequest_of_ne _ (drainedKey ▸ differ)]
        rcases outcome with ⟨_, _, rfl⟩ | ⟨_, _, scheduler, outcome, rfl⟩
        · refine ⟨filed, rfl, fun other differ => ?_⟩
          exact congrArg (·, _, _) (kept other differ)
        · rw [updatedKey]
          have left : scheduler.Keyed ∧ scheduler.config = pass.scheduler.config ∧
              ∀ other, other ≠ entry.1 →
                scheduler.requests.get? other = pass.scheduler.requests.get? other := by
            rcases outcome with finished | ⟨_, requeued⟩
            · exact ⟨finished.keyed (by exact filed), finished.config, fun other differ =>
                (finished.others (updatedKey ▸ differ)).trans (kept other differ)⟩
            · exact ⟨requeued.keyed (by exact filed), requeued.config, fun other differ =>
                (requeued.others (updatedKey ▸ differ)).trans (kept other differ)⟩
          rw [noteStopped_scheduler]
          refine ⟨left.1, left.2.1, fun other differ => ?_⟩
          unfold view
          rw [noteStopped_scheduler, left.2.2 other differ]
          have noted := mem_noteStopped_of_ne
            { pass with scheduler := scheduler, outputs := outputs } delivered.status differ
          rw [decide_eq_decide.mpr noted.1, decide_eq_decide.mpr noted.2]

end UpdatePass

/-! ## The head of `update_from_output` -/

namespace Scheduler

variable {H : Type}

/-- The two states differ in request objects with the same profiles only, as far as
the results about runs are concerned. -/
def SameProfiles (scheduler next : Scheduler H) : Prop :=
  (∀ requestId, next.profileOf requestId = scheduler.profileOf requestId) ∧
    ∃ requests, next = { scheduler with requests := requests }

theorem SameProfiles.refl (scheduler : Scheduler H) : scheduler.SameProfiles scheduler :=
  ⟨fun _ => rfl, _, rfl⟩

theorem SameProfiles.trans {first second third : Scheduler H} (one : first.SameProfiles second)
    (two : second.SameProfiles third) : first.SameProfiles third := by
  rcases one with ⟨same, requests, rfl⟩
  rcases two with ⟨again, requests, rfl⟩
  exact ⟨fun requestId => (again requestId).trans (same requestId), requests, rfl⟩

variable {scheduler next : Scheduler H} {invalidBlockIds : List BlockId}
  {numScheduledTokens : Dict RequestId Nat}

theorem SameProfiles.keyed (same : scheduler.SameProfiles next) (keyed : scheduler.Keyed) :
    next.Keyed := by
  apply keyed.of_profiles
  intro requestId profile found
  rw [same.1] at found
  exact ⟨profile, found, rfl⟩

theorem sameProfiles_setRequest {request current : Request H}
    (found : scheduler.requests.get? request.requestId = some current)
    (same : request.profile = current.profile) :
    scheduler.SameProfiles (scheduler.setRequest request) :=
  ⟨profileOf_setRequest_same found same, _, rfl⟩

variable {evictBlocks : Bool}

private theorem updateRequestWithInvalidBlocks_spec {pass next : InvalidBlocksPass H}
    {requestId : RequestId} (keyed : pass.scheduler.Keyed)
    (ran : updateRequestWithInvalidBlocks invalidBlockIds numScheduledTokens evictBlocks pass
      requestId = .ok next) : pass.scheduler.SameProfiles next.scheduler := by
  rcases bind_eq_ok.mp ran with ⟨request, getting, ran⟩
  have found := getRequest_eq_ok.mp getting
  rw [← keyed requestId request found] at found
  split at ran
  · dsimp only at ran
    split at ran
    · cases ran
      exact sameProfiles_setRequest found rfl
    · cases ran
      exact .refl _
  · contradiction

private theorem updateRequestsWithInvalidBlocks_spec {requestIds : List RequestId}
    {final : InvalidBlocksPass H} (keyed : scheduler.Keyed)
    (ran : scheduler.updateRequestsWithInvalidBlocks requestIds invalidBlockIds
      numScheduledTokens evictBlocks = .ok final) : scheduler.SameProfiles final.scheduler := by
  refine foldlM_invariant (fun pass : InvalidBlocksPass H => scheduler.SameProfiles pass.scheduler)
    ?_ (.refl _) ran
  intro requestId _ pass next same round
  exact same.trans (updateRequestWithInvalidBlocks_spec (same.keyed keyed) round)

variable [DecidableEq H] [BlockHashing H]

variable {failed : List RequestId}

private theorem handleInvalidBlocks_spec (keyed : scheduler.Keyed)
    (ran : scheduler.handleInvalidBlocks invalidBlockIds numScheduledTokens = .ok (failed, next)) :
    (∀ requestId, next.profileOf requestId = scheduler.profileOf requestId) ∧
    ∃ requests manager failedLoads, next =
        { scheduler with
          requests := requests
          kvCacheManager := manager
          failedRecvingKvReqIds := failedLoads } := by
  rcases bind_eq_ok.mp ran with ⟨asyncLoads, loading, ran⟩
  rcases bind_eq_ok.mp ran with ⟨syncLoads, syncing, ran⟩
  have first := updateRequestsWithInvalidBlocks_spec keyed loading
  have second := updateRequestsWithInvalidBlocks_spec (first.keyed keyed) syncing
  have both := first.trans second
  clear first second syncing
  rcases syncLoads with ⟨updated, affected, evicted, marked⟩
  rcases both with ⟨same, requests, shape⟩
  cases shape
  dsimp only at ran
  split at ran
  · cases ran
    exact ⟨same, _, _, _, rfl⟩
  · split at ran
    · cases ran
      exact ⟨same, _, _, _, rfl⟩
    · rcases bind_eq_ok.mp ran with ⟨manager, _, ran⟩
      cases ran
      exact ⟨same, _, _, _, rfl⟩

/-- The head of `update_from_output` leaves profiles, queues and the encoder cache. -/
theorem beginUpdate_spec {output : SchedulerOutput} {runner : ModelRunnerOutput}
    (keyed : scheduler.Keyed) (ran : scheduler.beginUpdate output runner = .ok (failed, next)) :
    (∀ requestId, next.profileOf requestId = scheduler.profileOf requestId) ∧
    ∃ requests manager deferred processed failedLoads, next =
        { scheduler with
          requests := requests
          kvCacheManager := manager
          deferredFrees := deferred
          processedStepSeq := processed
          failedRecvingKvReqIds := failedLoads } := by
  rcases bind_eq_ok.mp ran with ⟨drained, draining, ran⟩
  have first : ∃ manager deferred processed, drained =
        { scheduler with
          kvCacheManager := manager
          deferredFrees := deferred
          processedStepSeq := processed } := by
    split at draining
    · rcases drainDeferredFrees_spec draining with ⟨manager, deferred, rfl⟩
      exact ⟨_, _, _, rfl⟩
    · cases draining
      exact ⟨_, _, _, rfl⟩
  rcases first with ⟨manager, deferred, processed, rfl⟩
  split at ran
  · split at ran
    · cases ran
      exact ⟨fun _ => rfl, _, _, _, _, _, rfl⟩
    · rcases handleInvalidBlocks_spec (by exact keyed) ran with
        ⟨same, requests, manager, failedLoads, rfl⟩
      exact ⟨same, _, _, _, _, _, rfl⟩
  · cases ran
    exact ⟨fun _ => rfl, _, _, _, _, _, rfl⟩

end Scheduler

/-! ## `finish_requests` -/

namespace Scheduler

variable {H : Type}

variable {finishedStatus : RequestStatus} {connectorDelays : RequestId → Bool}
  {scheduler next : Scheduler H} {request : Request H}

theorem finishOne_spec (ran : scheduler.finishOne finishedStatus connectorDelays request = .ok next) :
    scheduler.Finished { request with status := finishedStatus } next := by
  unfold finishOne at ran
  dsimp only at ran
  split at ran
  · have finished := freeRequest_spec (Dict.get?_insert_self ..) rfl ran
    rcases Finished.of_setRequest (by rfl) finished with
      ⟨_, _, encoder, _, _, _, _, requests, freed, own, others, rfl⟩
    exact ⟨_, _, encoder, _, _, _, _, requests, freed, own, others, rfl⟩
  · have finished := freeRequest_spec (Dict.get?_insert_self ..) rfl ran
    exact Finished.of_setRequest (by rfl) finished

variable {requestIds : List RequestId}

theorem removeAll_perm (distinct : requestIds.Nodup) (gone : List RequestId) :
    removeAll requestIds gone = requestIds.filter fun requestId => requestId ∉ gone := by
  unfold removeAll
  split
  · simp
  · rename_i item
    rw [distinct.erase_eq_filter]
    apply List.filter_congr
    intro requestId _
    by_cases same : requestId = item <;> simp [same]
  · rfl

theorem removeWaiting_spec (scheduler : Scheduler H) (gone : List RequestId) :
    ∃ waiting skipped,
      (waiting ++ skipped).Perm ((scheduler.waiting ++ scheduler.skippedWaiting).filter
        fun requestId => requestId ∉ gone) ∧
      scheduler.removeWaiting gone =
        { scheduler with waiting := waiting, skippedWaiting := skipped } := by
  unfold removeWaiting
  split
  · rename_i none
    refine ⟨scheduler.waiting, scheduler.skippedWaiting, ?_, rfl⟩
    rw [none]
    simp
  · refine ⟨_, _, ?_, rfl⟩
    rw [List.filter_append]
    exact (RequestQueue.removeRequests_perm ..).append (RequestQueue.removeRequests_perm ..)

theorem mem_unfinishedAmong (member : request ∈ scheduler.unfinishedAmong requestIds) :
    ∃ requestId ∈ requestIds, scheduler.requests.get? requestId = some request ∧
      request.isFinished = false := by
  rcases List.mem_filterMap.mp member with ⟨requestId, inside, kept⟩
  rcases Option.filter_eq_some_iff.mp kept with ⟨found, unfinished⟩
  exact ⟨requestId, inside, found, by simpa using unfinished⟩

theorem unfinishedAmong_sublist (keyed : scheduler.Keyed) (requestIds : List RequestId) :
    ((scheduler.unfinishedAmong requestIds).map Request.requestId).Sublist requestIds := by
  induction requestIds with
  | nil => exact List.nil_sublist _
  | cons requestId rest ih =>
      unfold unfinishedAmong
      rw [List.filterMap_cons]
      split
      · exact ih.cons _
      · rename_i request kept
        have found := (Option.filter_eq_some_iff.mp kept).1
        rw [List.map_cons, keyed requestId request found]
        exact ih.cons_cons _

/-- The state in which the requests to finish have left the queues, and are no longer
counted as paused sessions. -/
def detached (scheduler : Scheduler H) (gone : List (Request H)) : Scheduler H :=
  removeWaiting
    { scheduler with
      numWaitingForStreamingInput := scheduler.numWaitingForStreamingInput -
        ((gone.filter (·.status ≠ .running)).countP fun (request : Request H) =>
          request.status = RequestStatus.waitingForStreamingReq)
      running := removeAll scheduler.running
        ((gone.filter (·.status = .running)).map Request.requestId) }
    ((gone.filter (·.status ≠ .running)).map Request.requestId)

/-- The queues of that state, up to order. -/
theorem detached_shape (scheduler : Scheduler H) (gone : List (Request H)) :
    ∃ count waiting skipped,
      (waiting ++ skipped).Perm ((scheduler.waiting ++ scheduler.skippedWaiting).filter
        fun requestId => requestId ∉ (gone.filter (·.status ≠ .running)).map Request.requestId) ∧
      scheduler.detached gone =
        { scheduler with
          numWaitingForStreamingInput := count
          running := removeAll scheduler.running
            ((gone.filter (·.status = .running)).map Request.requestId)
          waiting := waiting
          skippedWaiting := skipped } := by
  unfold detached
  rcases removeWaiting_spec _ _ with ⟨waiting, skipped, same, removed⟩
  rw [removed]
  exact ⟨_, waiting, skipped, same, rfl⟩

/-- `finish_requests`: unfinished requests leave the queues and are then finished one
by one. -/
theorem finishRequests_spec {requestIds : Option (List RequestId)} (keyed : scheduler.Keyed)
    (ran : scheduler.finishRequests requestIds finishedStatus connectorDelays = .ok next) :
    ∃ gone : List (Request H), finishedStatus.isFinished ∧ (gone.map Request.requestId).Nodup ∧
      (∀ request ∈ gone, scheduler.requests.get? request.requestId = some request ∧
        request.isFinished = false) ∧
      gone.foldlM (finishOne finishedStatus connectorDelays) (scheduler.detached gone) =
        .ok next := by
  rcases bind_eq_ok.mp ran with ⟨_, asserted, ran⟩
  have distinct : ((requestIds.map List.dedup).getD scheduler.requests.keys).Nodup := by
    cases requestIds with
    | none => exact scheduler.requests.nodupKeys
    | some requestIds => exact List.nodup_dedup requestIds
  refine ⟨_, pyAssert_eq_ok.mp asserted, ?_, ?_, ran⟩
  · exact distinct.sublist (unfinishedAmong_sublist keyed _)
  · intro request member
    rcases mem_unfinishedAmong member with ⟨requestId, _, found, unfinished⟩
    rw [keyed requestId request found]
    exact ⟨found, unfinished⟩

/-- The requests are finished one after the other. -/
theorem finishAll_rule (property : List (Request H) → Scheduler H → Prop)
    (kept : ∀ request rest scheduler next, property (request :: rest) scheduler →
      scheduler.Finished { request with status := finishedStatus } next → property rest next)
    {gone : List (Request H)} (holds : property gone scheduler)
    (ran : gone.foldlM (finishOne finishedStatus connectorDelays) scheduler = .ok next) :
    property [] next :=
  foldlM_rule property
    (fun request rest state after holds round =>
      kept request rest state after holds (finishOne_spec round)) holds ran

/-! ## The small calls -/

theorem updateFromKvXferFinished_spec {output : KVConnectorOutput} (property : Scheduler H → Prop)
    (noted : ∀ scheduler received, property scheduler →
      property { scheduler with finishedRecvingKvReqIds := received })
    (erased : ∀ (scheduler : Scheduler H) request manager deferred,
      scheduler.requests.get? request.requestId = some request → request.isFinished →
      property scheduler →
      property
        { scheduler with
          kvCacheManager := manager
          deferredFrees := deferred
          requests := scheduler.requests.erase request.requestId })
    (keyed : ∀ scheduler, property scheduler → scheduler.Keyed) (holds : property scheduler)
    (ran : scheduler.updateFromKvXferFinished output = .ok next) : property next := by
  rcases bind_eq_ok.mp ran with ⟨received, receiving, ran⟩
  have freed : ∀ (state after : Scheduler H) requestId request, property state →
      state.requests.get? requestId = some request → state.freeBlocks request = .ok after →
      property after := by
    intro state after requestId request holds found freeing
    rw [← keyed state holds requestId request found] at found
    rcases freeBlocks_spec freeing with ⟨finished, manager, deferred, rfl⟩
    exact erased state request manager deferred found finished holds
  have first : property received := by
    refine foldlM_invariant property ?_ holds receiving
    intro requestId _ state after holds round
    split at round
    · contradiction
    · rename_i request found
      split at round
      · cases round
        exact noted state _ holds
      · exact freed state after requestId request holds found round
  refine foldlM_invariant property ?_ first ran
  intro requestId _ state after holds round
  split at round
  · contradiction
  · rename_i request found
    exact freed state after requestId request holds found round

/-- `add_request` extends or continues a session, closes it, or queues a new
request. -/
theorem addRequest_spec [BlockHashing H]
    (ran : scheduler.addRequest request connectorDelays = .ok next) :
    (∃ existing, scheduler.requests.get? request.requestId = some existing ∧
      ((∃ queue, next = scheduler.setRequest { existing with streamingQueue := queue }) ∨
      (existing.status = .waitingForStreamingReq ∧
        ∃ update, scheduler.updateRequestAsSession existing update = .ok next) ∨
      scheduler.finishRequests (some [request.requestId]) .finishedAborted connectorDelays =
        .ok next)) ∨
    (scheduler.requests.get? request.requestId = none ∧
      ∃ added, added.requestId = request.requestId ∧ Request.profile added = request.profile ∧
        next = (scheduler.setRequest added).enqueueWaitingRequest added) := by
  unfold addRequest at ran
  split at ran
  · rename_i existing found
    refine .inl ⟨existing, found, ?_⟩
    dsimp only at ran
    split at ran
    · split at ran
      · contradiction
      · cases ran
        exact .inl ⟨_, rfl⟩
    · rename_i status
      rw [not_not] at status
      split at ran
      · rename_i update _
        exact .inr (.inl ⟨status, update, ran⟩)
      · exact .inr (.inr ran)
  · rename_i absent
    refine .inr ⟨absent, ?_⟩
    cases ran
    split
    · exact ⟨{ request with streamingQueue := some [] }, rfl, rfl, rfl⟩
    · exact ⟨request, rfl, rfl, rfl⟩

/-- New drafts do not change a profile. -/
theorem updateDraftTokenIds_spec {scheduler : Scheduler H} {entry : RequestId × List TokenId}
    (keyed : scheduler.Keyed) : scheduler.SameProfiles (scheduler.updateDraftTokenIds entry) := by
  unfold updateDraftTokenIds
  split
  · exact .refl _
  · rename_i request found
    rw [← keyed entry.1 request found] at found
    split
    · exact .refl _
    · split
      · exact sameProfiles_setRequest found rfl
      · exact sameProfiles_setRequest found rfl

/-- What preempting the last running request keeps, preempting all of them keeps. -/
theorem preemptAll_rule (property : Scheduler H → Prop)
    (kept : ∀ (scheduler next : Scheduler H) requestId, property scheduler →
      scheduler.running.getLast? = some requestId →
      Scheduler.preemptRequest { scheduler with running := scheduler.running.dropLast } requestId
        true = .ok next → property next) {fuel : Nat} (holds : property scheduler)
    (ran : preemptAll fuel scheduler = .ok next) : property next := by
  induction fuel generalizing scheduler with
  | zero =>
      cases ran
      exact holds
  | succ fuel ih =>
      rw [preemptAll] at ran
      split at ran
      · cases ran
        exact holds
      · rename_i requestId last
        rcases bind_eq_ok.mp ran with ⟨preempted, preempting, ran⟩
        exact ih (kept scheduler preempted requestId holds last preempting) ran

/-- `reset_prefix_cache` preempts running requests and changes the KV cache. -/
theorem resetPrefixCache_rule (property : Scheduler H → Prop)
    (kept : ∀ (scheduler next : Scheduler H) requestId, property scheduler →
      scheduler.running.getLast? = some requestId →
      Scheduler.preemptRequest { scheduler with running := scheduler.running.dropLast } requestId
        true = .ok next → property next) (managed : ∀ scheduler manager, property scheduler →
      property { scheduler with kvCacheManager := manager })
    {resetRunningRequests successful : Bool} (holds : property scheduler)
    (ran : scheduler.resetPrefixCache resetRunningRequests = .ok (successful, next)) :
    property next := by
  rcases bind_eq_ok.mp ran with ⟨preempted, preempting, ran⟩
  have first : property preempted := by
    split at preempting
    · exact preemptAll_rule property kept holds preempting
    · cases preempting
      exact holds
  dsimp only at ran
  split at ran
  · contradiction
  · cases ran
    exact managed preempted _ first

end Scheduler

end Vllm.Core
