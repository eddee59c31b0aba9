import Vllm.Core.UpdateFromOutput

/-!
# What the scheduler's operations change

One lemma per operation: the state after it, as an update of the state before.
What the KV cache manager answers is left open, and queues are given up to order;
the results about runs of the scheduler do not depend on either.
-/

namespace Vllm.Core

open Vllm.Library

namespace Scheduler

variable {H : Type}

/-- Every request object is filed under its own id. -/
def Keyed (scheduler : Scheduler H) : Prop :=
  ∀ requestId request, scheduler.requests.get? requestId = some request →
    request.requestId = requestId

variable {scheduler next : Scheduler H} {requestId : RequestId} {request : Request H}
  {requests : Dict RequestId (Request H)}

theorem getRequest_eq_ok :
    scheduler.getRequest requestId = .ok request ↔
      scheduler.requests.get? requestId = some request := by
  unfold getRequest
  cases scheduler.requests.get? requestId <;> simp

theorem get?_setRequest (scheduler : Scheduler H) (request : Request H) (requestId : RequestId) :
    (scheduler.setRequest request).requests.get? requestId =
      if request.requestId = requestId then some request
      else scheduler.requests.get? requestId :=
  Dict.get?_insert ..

theorem get?_setRequest_of_ne (scheduler : Scheduler H) (differ : requestId ≠ request.requestId) :
    (scheduler.setRequest request).requests.get? requestId = scheduler.requests.get? requestId :=
  Dict.get?_insert_of_ne _ _ (Ne.symm differ)

theorem keyed_insert (keyed : ∀ requestId request, requests.get? requestId = some request →
      request.requestId = requestId) {key : RequestId} {stored : Request H}
    (same : stored.requestId = key) :
    ∀ requestId request, (requests.insert key stored).get? requestId = some request →
      request.requestId = requestId := by
  intro requestId request found
  rw [Dict.get?_insert] at found
  split at found
  · rename_i here
    cases found
    exact same.trans here
  · exact keyed requestId request found

theorem Keyed.setRequest (keyed : scheduler.Keyed) (request : Request H) :
    (scheduler.setRequest request).Keyed :=
  keyed_insert keyed rfl

theorem keyed_erase (keyed : ∀ requestId request, requests.get? requestId = some request →
      request.requestId = requestId) (gone : RequestId) :
    ∀ requestId request, (requests.erase gone).get? requestId = some request →
      request.requestId = requestId := by
  intro requestId request found
  rw [Dict.get?_erase] at found
  split at found
  · contradiction
  · exact keyed requestId request found

/-! ## Releasing -/

theorem freeRequestBlocks_spec (ran : scheduler.freeRequestBlocks request = .ok next) :
    ∃ manager deferred,
      next = { scheduler with kvCacheManager := manager, deferredFrees := deferred } := by
  unfold freeRequestBlocks at ran
  split at ran
  · rcases bind_eq_ok.mp ran with ⟨manager, _, ran⟩
    cases ran
    exact ⟨manager, scheduler.deferredFrees, rfl⟩
  · dsimp only at ran
    split at ran
    · cases ran
      exact ⟨_, scheduler.deferredFrees, rfl⟩
    · cases ran
      exact ⟨_, _, rfl⟩

variable {blocks : List BlockId}

theorem freePoolBlocks_spec (ran : scheduler.freePoolBlocks blocks = .ok next) :
    ∃ manager, next = { scheduler with kvCacheManager := manager } := by
  rcases bind_eq_ok.mp ran with ⟨pool, _, ran⟩
  cases ran
  exact ⟨_, rfl⟩

theorem freeCowRetainedBlocks_spec {fenceSeq : Nat}
    (ran : scheduler.freeCowRetainedBlocks blocks fenceSeq = .ok next) :
    ∃ manager deferred,
      next = { scheduler with kvCacheManager := manager, deferredFrees := deferred } := by
  unfold freeCowRetainedBlocks at ran
  split at ran
  · rcases freePoolBlocks_spec ran with ⟨manager, rfl⟩
    exact ⟨manager, scheduler.deferredFrees, rfl⟩
  · cases ran
    exact ⟨scheduler.kvCacheManager, _, rfl⟩

theorem drainDeferredFrees_spec {queue : List (Nat × List BlockId)}
    (ran : drainDeferredFrees queue scheduler = .ok next) :
    ∃ manager deferred,
      next = { scheduler with kvCacheManager := manager, deferredFrees := deferred } := by
  induction queue generalizing scheduler with
  | nil =>
      cases ran
      exact ⟨scheduler.kvCacheManager, [], rfl⟩
  | cons entry rest ih =>
      rw [drainDeferredFrees] at ran
      split at ran
      · cases ran
        exact ⟨scheduler.kvCacheManager, _, rfl⟩
      · rcases bind_eq_ok.mp ran with ⟨freed, freeing, ran⟩
        rcases freePoolBlocks_spec freeing with ⟨manager, rfl⟩
        rcases ih ran with ⟨manager, deferred, rfl⟩
        exact ⟨manager, deferred, rfl⟩

theorem freeEncoderCache_spec (ran : scheduler.freeEncoderCache request = .ok next) :
    ∃ manager, scheduler.encoderCacheManager.free request = .ok manager ∧
      next =
        { scheduler with
          encoderCacheManager := manager
          servedInputs := scheduler.servedInputs.erase request.requestId } := by
  rcases bind_eq_ok.mp ran with ⟨manager, freed, ran⟩
  cases ran
  exact ⟨manager, freed, rfl⟩

/-! ## Preemption -/

theorem preemptRequest_spec {dropStaleOutput : Bool}
    (ran : scheduler.preemptRequest requestId dropStaleOutput = .ok next) :
    ∃ request manager deferred encoder waiting inflight reset,
      scheduler.requests.get? requestId = some request ∧ request.status = .running ∧
      scheduler.encoderCacheManager.free request = .ok encoder ∧
      waiting.Perm (requestId :: scheduler.waiting) ∧
      next =
        { scheduler with
          kvCacheManager := manager
          deferredFrees := deferred
          encoderCacheManager := encoder
          servedInputs := scheduler.servedInputs.erase request.requestId
          requests :=
            scheduler.requests.insert request.requestId (request.preempted dropStaleOutput)
          waiting := waiting
          inflightPrefills := inflight
          resetPreemptedReqIds := reset } := by
  rcases bind_eq_ok.mp ran with ⟨request, found, ran⟩
  rcases bind_eq_ok.mp ran with ⟨_, asserted, ran⟩
  rcases bind_eq_ok.mp ran with ⟨released, releasing, ran⟩
  rcases bind_eq_ok.mp ran with ⟨freed, freeing, ran⟩
  rcases freeRequestBlocks_spec releasing with ⟨manager, deferred, rfl⟩
  rcases freeEncoderCache_spec freeing with ⟨encoder, encoderFreed, rfl⟩
  cases ran
  exact ⟨request, manager, deferred, encoder, _, _, _, getRequest_eq_ok.mp found,
    pyAssert_eq_ok.mp asserted, encoderFreed, RequestQueue.prependRequest_perm .., rfl⟩

end Scheduler

namespace SchedulePass

variable {H : Type}

variable {victim : RequestId} {pass next : SchedulePass H}

theorem lowestPriorityRequest_mem {scheduler : Scheduler H}
    (chosen : lowestPriorityRequest scheduler = .ok victim) : victim ∈ scheduler.running := by
  unfold lowestPriorityRequest at chosen
  split at chosen
  · contradiction
  · rename_i first rest running
    rcases bind_eq_ok.mp chosen with ⟨request, _, chosen⟩
    rcases bind_eq_ok.mp chosen with ⟨lowest, folded, chosen⟩
    cases chosen
    rw [running]
    -- The fold keeps one of the entries it has seen.
    refine foldlM_invariant (fun best => best.1 ∈ first :: rest) ?_ List.mem_cons_self folded
    intro requestId member best next seen round
    rcases bind_eq_ok.mp round with ⟨other, _, round⟩
    cases round
    split
    · exact List.mem_cons_of_mem _ member
    · exact seen

/-- The variables of a pass that only budgets and outputs to the workers depend
on. -/
structure Budgets where
  reqToNewBlocks : Dict RequestId (List (List BlockId))
  tokenBudget : Int
  inputBudget : Int
  encoderComputeBudget : Int
  scheduledSpecDecodeTokens : Dict RequestId (List TokenId)

/-- Replace those variables. -/
def setBudgets (pass : SchedulePass H) (budgets : Budgets) : SchedulePass H :=
  { pass with
    reqToNewBlocks := budgets.reqToNewBlocks
    tokenBudget := budgets.tokenBudget
    inputBudget := budgets.inputBudget
    encoderComputeBudget := budgets.encoderComputeBudget
    scheduledSpecDecodeTokens := budgets.scheduledSpecDecodeTokens }

/-- The entries of a request are taken out of the pass. -/
def dropEntries (pass : SchedulePass H) (requestId : RequestId) : SchedulePass H :=
  { pass with
    scheduledRunningReqs := pass.scheduledRunningReqs.erase requestId
    numScheduledTokens := pass.numScheduledTokens.erase requestId
    scheduledEncoderInputs := pass.scheduledEncoderInputs.erase requestId
    withdrewEncoderInputs := pass.withdrewEncoderInputs ||
      decide (pass.scheduledEncoderInputs.getD requestId [] ≠ []) }

theorem withdraw_spec {requestId : RequestId} (ran : pass.withdraw requestId = .ok next) :
    (requestId ∈ pass.scheduledRunningReqs ∧
      ∃ budgets, next = (pass.dropEntries requestId).setBudgets budgets) ∨
    (requestId ∉ pass.scheduledRunningReqs ∧ next = pass) := by
  unfold withdraw at ran
  split at ran
  · rename_i scheduled
    split at ran
    · rcases bind_eq_ok.mp ran with ⟨request, _, ran⟩
      rcases bind_eq_ok.mp ran with ⟨restored, _, ran⟩
      cases ran
      exact .inl ⟨scheduled, ⟨_, _, _, _, _⟩, rfl⟩
    · contradiction
  · rename_i unscheduled
    cases ran
    exact .inr ⟨unscheduled, rfl⟩

theorem perm_cons_eraseIdx {α : Type} {values : List α} {index : Nat} {value : α}
    (found : values[index]? = some value) : values.Perm (value :: values.eraseIdx index) := by
  rcases List.getElem?_eq_some_iff.mp found with ⟨inside, same⟩
  have shifted := List.getElem_cons_eraseIdx_perm inside
  rw [same] at shifted
  exact shifted.symm

/-- The victim at `index` leaves `running`, and the cursor follows its request. -/
def dropRunning (pass : SchedulePass H) (index : Nat) : SchedulePass H :=
  { pass with
    scheduler := { pass.scheduler with running := pass.scheduler.running.eraseIdx index }
    reqIndex := if index < pass.reqIndex then pass.reqIndex - 1 else pass.reqIndex }

/-- A victim is taken out of `running`.  If this step had scheduled it, its entries
go as well; under the FCFS policy it is the last request. -/
theorem removeVictim_spec (inside : pass.reqIndex < pass.scheduler.running.length)
    (ran : pass.removeVictim = .ok (victim, next)) :
    ∃ index, pass.scheduler.running[index]? = some victim ∧
      ((victim ∈ pass.scheduledRunningReqs ∧ pass.config.policy = .priority ∧
        ∃ budgets, next = ((pass.dropRunning index).dropEntries victim).setBudgets budgets) ∨
      ((victim ∉ pass.scheduledRunningReqs ∨ pass.reqIndex ≤ index) ∧
        next = pass.dropRunning index)) := by
  unfold removeVictim at ran
  split at ran
  · rename_i policy
    rcases bind_eq_ok.mp ran with ⟨chosen, choosing, ran⟩
    rcases bind_eq_ok.mp ran with ⟨withdrawn, withdrawing, ran⟩
    cases ran
    have member := lowestPriorityRequest_mem choosing
    refine ⟨pass.scheduler.running.idxOf victim, List.getElem?_idxOf member, ?_⟩
    rcases withdraw_spec withdrawing with ⟨scheduled, budgets, rfl⟩ | ⟨unscheduled, rfl⟩
    · exact .inl ⟨scheduled, policy, budgets, rfl⟩
    · exact .inr ⟨.inl unscheduled, rfl⟩
  · split at ran
    · contradiction
    · rename_i last
      cases ran
      have final : ¬pass.scheduler.running.length - 1 < pass.reqIndex := by omega
      refine ⟨pass.scheduler.running.length - 1, ?_, .inr ⟨.inr (Nat.not_lt.mp final), ?_⟩⟩
      · rw [← List.getLast?_eq_getElem?]
        exact last
      · unfold dropRunning
        rw [if_neg final, List.eraseIdx_length_sub_one]

/-- One preemption inside the running loop. -/
theorem preemptOne_spec (ran : pass.preemptOne = .ok (victim, next)) :
    ∃ removed scheduler, pass.removeVictim = .ok (victim, removed) ∧
      removed.scheduler.preemptRequest victim removed.config.requiresKvDelivery = .ok scheduler ∧
      next =
        { removed with
          scheduler := scheduler
          preemptedReqs := removed.preemptedReqs ++ [victim] } := by
  rcases bind_eq_ok.mp ran with ⟨⟨chosen, removed⟩, removing, ran⟩
  rcases bind_eq_ok.mp ran with ⟨scheduler, preempting, ran⟩
  cases ran
  exact ⟨removed, scheduler, removing, preempting, rfl⟩

theorem commitEncoderInputs_spec {request : Request H} {encoder : EncoderPass}
    (ran : pass.commitEncoderInputs request encoder = .ok next) :
    ∃ manager budget, (encoder.encoderInputsToSchedule ++ encoder.externalLoadEncoderInput).foldlM
        (fun (manager : EncoderCacheManager) inputId => manager.allocate request inputId)
        pass.scheduler.encoderCacheManager = .ok manager ∧
      next =
        { pass with
          scheduler :=
            { pass.scheduler with encoderCacheManager := manager }.serve request.requestId
              (encoder.encoderInputsToSchedule ++ encoder.externalLoadEncoderInput ++
                encoder.repeatedInputs)
          scheduledEncoderInputs :=
            if encoder.encoderInputsToSchedule = [] then pass.scheduledEncoderInputs
            else pass.scheduledEncoderInputs.insert request.requestId
              encoder.encoderInputsToSchedule
          encoderComputeBudget := budget } := by
  rcases bind_eq_ok.mp ran with ⟨manager, allocated, ran⟩
  split at ran
  · rename_i none
    cases ran
    refine ⟨manager, pass.encoderComputeBudget, allocated, ?_⟩
    rw [if_pos none]
    rfl
  · rename_i some
    cases ran
    refine ⟨manager, encoder.encoderComputeBudget, allocated, ?_⟩
    rw [if_neg some]
    rfl

end SchedulePass

/-! ## The waiting queues -/

namespace Scheduler

variable {H : Type}

@[simp]
theorem setQueue_config (scheduler : Scheduler H) (queue : WaitingQueue)
    (entries : List RequestId) : (scheduler.setQueue queue entries).config = scheduler.config := by
  cases queue <;> rfl

@[simp]
theorem setQueue_requests (scheduler : Scheduler H) (queue : WaitingQueue)
    (entries : List RequestId) :
    (scheduler.setQueue queue entries).requests = scheduler.requests := by
  cases queue <;> rfl

@[simp]
theorem queue_setQueue (scheduler : Scheduler H) (queue : WaitingQueue)
    (entries : List RequestId) : (scheduler.setQueue queue entries).queue queue = entries := by
  cases queue <;> rfl

variable {scheduler next : Scheduler H}

theorem popQueue_spec {queue : WaitingQueue} (ran : scheduler.popQueue queue = .ok next) :
    ∃ requestId rest, (scheduler.queue queue).head? = some requestId ∧
      (requestId :: rest).Perm (scheduler.queue queue) ∧ next = scheduler.setQueue queue rest := by
  rcases bind_eq_ok.mp ran with ⟨⟨requestId, rest⟩, popping, ran⟩
  cases ran
  rcases RequestQueue.popRequest_spec _ _ popping with ⟨head, same⟩
  exact ⟨requestId, rest, head, same, rfl⟩

variable [DecidableEq H]

theorem inflightPrefillReservedBlocks_spec {reserved : Int}
    (ran : scheduler.inflightPrefillReservedBlocks = .ok (reserved, next)) :
    ∃ manager, next = { scheduler with kvCacheManager := manager } := by
  refine foldlM_invariant
    (fun (state : Int × Scheduler H) =>
      ∃ manager, state.2 = { scheduler with kvCacheManager := manager })
    ?_ ⟨scheduler.kvCacheManager, rfl⟩ ran
  rintro requestId _ ⟨total, _⟩ after ⟨manager, rfl⟩ round
  rcases bind_eq_ok.mp round with ⟨request, _, round⟩
  rcases bind_eq_ok.mp round with ⟨⟨numBlocks, manager⟩, _, round⟩
  cases round
  exact ⟨manager, rfl⟩

variable [BlockHashing H]

variable {input : ScheduleInput H}

variable {request : Request H}

/-- A promotion makes the request schedulable; a failed one notes at most a grammar
error. -/
theorem tryPromoteBlockedWaitingRequest_spec {promoted : Bool}
    (ran : scheduler.tryPromoteBlockedWaitingRequest input request = .ok (promoted, next)) :
    (∃ errors, next = { scheduler with grammarCompileErrorReqs := errors }) ∨
    ∃ manager finished failed status numComputedTokens, (status = .waiting ∨ status = .preempted) ∧
      next =
        { scheduler with
          kvCacheManager := manager
          finishedRecvingKvReqIds := finished
          failedRecvingKvReqIds := failed
          requests := scheduler.requests.insert request.requestId
            { request with status := status, numComputedTokens := numComputedTokens } } := by
  unfold tryPromoteBlockedWaitingRequest at ran
  split at ran
  · split at ran
    · rcases bind_eq_ok.mp ran with ⟨⟨arrived, updated⟩, updating, ran⟩
      rcases bind_eq_ok.mp updating with ⟨_, _, updating⟩
      have status : ∀ count : Nat,
          (if count ≠ 0 then RequestStatus.preempted else .waiting) = .waiting ∨
          (if count ≠ 0 then RequestStatus.preempted else .waiting) = .preempted := by
        intro count
        split
        · exact .inr rfl
        · exact .inl rfl
      right
      split at updating
      · rcases bind_eq_ok.mp updating with ⟨manager, _, updating⟩
        cases updating
        cases ran
        exact ⟨manager, _, _, _, request.numComputedTokens, status _, rfl⟩
      · rcases bind_eq_ok.mp updating with ⟨manager, _, updating⟩
        cases updating
        cases ran
        split
        · exact ⟨manager, _, scheduler.failedRecvingKvReqIds, _, request.numTokens - 1, status _,
            rfl⟩
        · exact ⟨manager, _, scheduler.failedRecvingKvReqIds, _, request.numComputedTokens,
            status _, rfl⟩
    · cases ran
      exact .inl ⟨scheduler.grammarCompileErrorReqs, rfl⟩
  · split at ran
    · cases ran
      exact .inl ⟨scheduler.grammarCompileErrorReqs, rfl⟩
    · cases ran
      exact .inl ⟨_, rfl⟩
    · cases ran
      exact .inr ⟨scheduler.kvCacheManager, scheduler.finishedRecvingKvReqIds,
        scheduler.failedRecvingKvReqIds, .waiting, request.numComputedTokens, .inl rfl, rfl⟩
  · rcases bind_eq_ok.mp ran with ⟨_, _, ran⟩
    cases ran
    exact .inl ⟨scheduler.grammarCompileErrorReqs, rfl⟩
  · contradiction

/-- The prefix lookup notes the shared prefix boundary in the request. -/
theorem lookupPrefix_spec {found : Option PrefixLookup}
    (ran : scheduler.lookupPrefix input request = .ok (found, next)) :
    next = scheduler ∨
    ∃ manager boundary, next =
        { scheduler with
          kvCacheManager := manager
          requests := scheduler.requests.insert request.requestId
            { request with sharedPrefixBoundary := boundary } } := by
  unfold lookupPrefix at ran
  split at ran
  · rcases bind_eq_ok.mp ran with ⟨⟨⟨blocks, numLocal, boundary⟩, manager⟩, _, ran⟩
    rcases bind_eq_ok.mp ran with ⟨lookup, _, ran⟩
    right
    cases lookup with
    | none =>
        cases ran
        exact ⟨manager, boundary, rfl⟩
    | some lookup =>
        rcases bind_eq_ok.mp ran with ⟨_, _, ran⟩
        split at ran
        · cases ran
          exact ⟨manager, boundary, rfl⟩
        · cases ran
          exact ⟨manager, boundary, rfl⟩
  · cases ran
    exact .inl rfl

end Scheduler

namespace SchedulePass

variable {H : Type}

variable {pass next : SchedulePass H} {queue : WaitingQueue}

theorem skipWaiting_spec {requestId : RequestId}
    (ran : pass.skipWaiting queue requestId = .ok next) :
    ∃ first rest aside, (pass.scheduler.queue queue).head? = some first ∧
      (first :: rest).Perm (pass.scheduler.queue queue) ∧
      aside.Perm (requestId :: pass.stepSkippedWaiting) ∧
      next =
        { pass with
          scheduler := pass.scheduler.setQueue queue rest
          stepSkippedWaiting := aside } := by
  rcases bind_eq_ok.mp ran with ⟨popped, popping, ran⟩
  rcases Scheduler.popQueue_spec popping with ⟨first, rest, head, same, rfl⟩
  cases ran
  exact ⟨first, rest, _, head, same, RequestQueue.prependRequest_perm .., rfl⟩

variable {lookup : Scheduler.PrefixLookup}

variable {request : Request H}

/-- A request that loads remotely is set aside with the status that says so. -/
theorem loadRemote_spec (ran : pass.loadRemote queue request lookup = .ok next) :
    ∃ first rest aside, (pass.scheduler.queue queue).head? = some first ∧
      (first :: rest).Perm (pass.scheduler.queue queue) ∧
      aside.Perm (request.requestId :: pass.stepSkippedWaiting) ∧
      next =
        { pass with
          scheduler :=
            { pass.scheduler.setQueue queue rest with
              requests := pass.scheduler.requests.insert request.requestId
                { request with
                  status := .waitingForRemoteKvs
                  numComputedTokens := lookup.numComputedTokens }
              inflightPrefills := pass.scheduler.inflightPrefills.insert request.requestId }
          stepSkippedWaiting := aside } := by
  rcases bind_eq_ok.mp ran with ⟨skipped, skipping, ran⟩
  rcases skipWaiting_spec skipping with ⟨first, rest, aside, head, same, asideSame, rfl⟩
  cases ran
  refine ⟨first, rest, aside, head, same, asideSame, ?_⟩
  cases queue <;> rfl

/-- An admitted request joins the running ones, with its entries in the pass. -/
theorem admit_spec {admission : Admission}
    (ran : pass.admitWaiting queue request lookup admission = .ok next) :
    ∃ first rest manager inflight budgets new resumed syncLoads,
      (pass.scheduler.queue queue).head? = some first ∧
      (first :: rest).Perm (pass.scheduler.queue queue) ∧
      (request.status = .waiting ∨ request.status = .preempted) ∧
      (admission.encoder.encoderInputsToSchedule ++
          admission.encoder.externalLoadEncoderInput).foldlM
        (fun (manager : EncoderCacheManager) inputId => manager.allocate request inputId)
        pass.scheduler.encoderCacheManager = .ok manager ∧
      next =
        { pass with
          scheduler :=
            { pass.scheduler.setQueue queue rest with
              requests := pass.scheduler.requests.insert request.requestId
                { request with
                  status := .running
                  numComputedTokens := lookup.numComputedTokens }
              running := pass.scheduler.running ++ [request.requestId]
              inflightPrefills := inflight
              encoderCacheManager := manager
              servedInputs := pass.scheduler.servedInputs.insert request.requestId
                (pass.scheduler.servedInputs.getD request.requestId [] ++
                  (admission.encoder.encoderInputsToSchedule ++
                    admission.encoder.externalLoadEncoderInput ++
                    admission.encoder.repeatedInputs)) }
          hasSyncKvLoads := syncLoads
          scheduledNewReqs := new
          scheduledResumedReqs := resumed
          scheduledLoras := pass.addLora request
          numScheduledTokens :=
            pass.numScheduledTokens.insert request.requestId admission.numNewTokens
          scheduledEncoderInputs :=
            if admission.encoder.encoderInputsToSchedule = [] then pass.scheduledEncoderInputs
            else pass.scheduledEncoderInputs.insert request.requestId
              admission.encoder.encoderInputsToSchedule }.setBudgets budgets := by
  rcases bind_eq_ok.mp ran with ⟨popped, popping, ran⟩
  rcases Scheduler.popQueue_spec popping with ⟨first, rest, head, same, rfl⟩
  split at ran
  · contradiction
  · rename_i status
    rcases bind_eq_ok.mp ran with ⟨_, _, ran⟩
    rcases commitEncoderInputs_spec ran with ⟨manager, budget, allocated, rfl⟩
    have schedulable : request.status = .waiting ∨ request.status = .preempted := by tauto
    cases queue with
    | waiting =>
        exact ⟨first, rest, manager, _, ⟨_, _, _, _, _⟩, _, _, _, head, same, schedulable,
          allocated, rfl⟩
    | skipped =>
        exact ⟨first, rest, manager, _, ⟨_, _, _, _, _⟩, _, _, _, head, same, schedulable,
          allocated, rfl⟩

end SchedulePass

end Vllm.Core
