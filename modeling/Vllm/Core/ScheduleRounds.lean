import Vllm.Core.ScheduleCursor

/-!
# Scheduling round by round

The chains of moves forget which moves belong to one round of a loop.  Where the
order of the rounds matters, or the values that one of them has computed before
it commits, the loops are taken apart round by round: each ends in one of a few
ways.
-/

namespace Vllm.Core

open Vllm.Library Relation

namespace SchedulePass

variable {H : Type}

/-- The queues and the variables of the pass are the same, and so are the objects of
the other requests. -/
structure Quiet (requestId : RequestId) (pass next : SchedulePass H) : Prop where
  locals : next = { pass with scheduler := next.scheduler }
  config : next.scheduler.config = pass.scheduler.config
  waiting : next.scheduler.waiting = pass.scheduler.waiting
  skippedWaiting : next.scheduler.skippedWaiting = pass.scheduler.skippedWaiting
  running : next.scheduler.running = pass.scheduler.running
  awaited : next.scheduler.numWaitingForStreamingInput =
    pass.scheduler.numWaitingForStreamingInput
  others : ∀ other, other ≠ requestId →
    next.scheduler.requests.get? other = pass.scheduler.requests.get? other

namespace Quiet

variable {requestId : RequestId} {pass middle next : SchedulePass H}

theorem rfl : Quiet requestId pass pass :=
  ⟨Eq.refl _, Eq.refl _, Eq.refl _, Eq.refl _, Eq.refl _, Eq.refl _, fun _ _ => Eq.refl _⟩

theorem trans (first : Quiet requestId pass middle) (second : Quiet requestId middle next) :
    Quiet requestId pass next := by
  refine ⟨?_, second.config.trans first.config, second.waiting.trans first.waiting,
    second.skippedWaiting.trans first.skippedWaiting, second.running.trans first.running,
    second.awaited.trans first.awaited,
    fun other differ => (second.others other differ).trans (first.others other differ)⟩
  have locals := second.locals
  rw [first.locals] at locals
  exact locals

/-- Only the scheduler is replaced. -/
theorem of_scheduler {scheduler : Scheduler H} (config : scheduler.config = pass.scheduler.config)
    (waiting : scheduler.waiting = pass.scheduler.waiting)
    (skippedWaiting : scheduler.skippedWaiting = pass.scheduler.skippedWaiting)
    (running : scheduler.running = pass.scheduler.running)
    (awaited : scheduler.numWaitingForStreamingInput = pass.scheduler.numWaitingForStreamingInput)
    (others : ∀ other, other ≠ requestId →
      scheduler.requests.get? other = pass.scheduler.requests.get? other) :
    Quiet requestId pass { pass with scheduler := scheduler } :=
  ⟨Eq.refl _, config, waiting, skippedWaiting, running, awaited, others⟩

theorem queue (quiet : Quiet requestId pass next) (queue : WaitingQueue) :
    next.scheduler.queue queue = pass.scheduler.queue queue := by
  cases queue with
  | waiting => exact quiet.waiting
  | skipped => exact quiet.skippedWaiting

end Quiet

/-! ## The waiting loop -/

/-- The size of an admission was computed in this round: the chunk, what the encoder
left of it, and the look-ahead reserve. -/
def Sized (pass : SchedulePass H) (input : ScheduleInput H) (request : Request H)
    (lookup : Scheduler.PrefixLookup) (admission : Admission) : Prop :=
  ∃ (earlier : SchedulePass H) (chunk : Int) (padded : Bool), Quiet request.requestId earlier pass ∧
    earlier.waitingChunk request lookup = .ok (some (chunk, padded)) ∧
    earlier.tryEncoderInputs input request lookup.numComputedTokens chunk =
      .ok admission.encoder ∧
    admission.numNewTokens = Scheduler.reservePrefillLookahead pass.config request
      lookup.numComputedTokens admission.encoder.numNewTokens ∧
    0 < admission.numNewTokens

/-- Why a request is set aside: its status is blocked, its last output is in flight or
its adapter does not fit, or a connector has not answered yet. -/
def Withheld (pass : SchedulePass H) (input : ScheduleInput H) (request : Request H) : Prop :=
  Scheduler.isBlockedWaitingStatus request.status = true ∨ pass.setsAside request = true ∨
  (pass.config.connector = true ∧
    ∃ numLocal, (input.getNumNewMatchedTokens request numLocal).1 = none) ∨
  (pass.config.ecConnector = true ∧
    ∃ numComputedTokens, input.ensureCacheAvailable request numComputedTokens = false)

variable [DecidableEq H] [BlockHashing H]

/-- The ways in which a round of the waiting loop ends. -/
inductive WaitingRound (input : ScheduleInput H) (queue : WaitingQueue)
    (pass : SchedulePass H) : Bool → SchedulePass H → Prop
  | stop {requestId : RequestId} {next : SchedulePass H}
      (head : (pass.scheduler.queue queue).head? = some requestId)
      (quiet : Quiet requestId pass next) : WaitingRound input queue pass true next
  | skip {middle next : SchedulePass H} {request : Request H}
      (quiet : Quiet request.requestId pass middle)
      (head : (middle.scheduler.queue queue).head? = some request.requestId)
      (found : middle.scheduler.requests.get? request.requestId = some request)
      (withheld : middle.Withheld input request)
      (ran : middle.skipWaiting queue request.requestId = .ok next) :
      WaitingRound input queue pass false next
  | load {middle next : SchedulePass H} {request : Request H} {lookup : Scheduler.PrefixLookup}
      (quiet : Quiet request.requestId pass middle)
      (head : (middle.scheduler.queue queue).head? = some request.requestId)
      (found : middle.scheduler.requests.get? request.requestId = some request)
      (ran : middle.loadRemote queue request lookup = .ok next) :
      WaitingRound input queue pass false next
  | admitWaiting {middle next : SchedulePass H} {request : Request H}
    {lookup : Scheduler.PrefixLookup}
      {admission : Admission}
      (quiet : Quiet request.requestId pass middle)
      (head : (middle.scheduler.queue queue).head? = some request.requestId)
      (found : middle.scheduler.requests.get? request.requestId = some request)
      (sized : middle.Sized input request lookup admission)
      (ran : middle.admitWaiting queue request lookup admission = .ok next) :
      WaitingRound input queue pass false next

variable {pass next start : SchedulePass H} {input : ScheduleInput H} {request : Request H}
  {lookup : Scheduler.PrefixLookup} {admission : Admission}

variable {stop : Bool} {scheduler : Scheduler H}

/-- A promotion is quiet, and a request that is not promoted keeps its blocked
status. -/
theorem promote_quiet {promoted : Bool} (keyed : pass.scheduler.Keyed)
    (ran : pass.scheduler.tryPromoteBlockedWaitingRequest input request =
      .ok (promoted, scheduler)) :
    Quiet request.requestId pass { pass with scheduler := scheduler } ∧ scheduler.Keyed := by
  rcases Scheduler.tryPromoteBlockedWaitingRequest_spec ran with
    ⟨errors, rfl⟩ | ⟨manager, finished, failed, status, numComputedTokens, _, rfl⟩
  · exact ⟨.of_scheduler rfl rfl rfl rfl rfl fun _ _ => rfl, keyed⟩
  · exact ⟨.of_scheduler rfl rfl rfl rfl rfl fun _ differ =>
      Dict.get?_insert_of_ne _ _ (Ne.symm differ), Scheduler.keyed_insert keyed rfl⟩

theorem unpromoted_same {next : Scheduler H}
    (ran : scheduler.tryPromoteBlockedWaitingRequest input request = .ok (false, next)) :
    next.requests = scheduler.requests := by
  unfold Scheduler.tryPromoteBlockedWaitingRequest at ran
  split at ran
  · split at ran
    · rcases bind_eq_ok.mp ran with ⟨_, _, ran⟩
      cases ran
    · cases ran
      rfl
  · split at ran
    · cases ran
      rfl
    · cases ran
      rfl
    · cases ran
  · rcases bind_eq_ok.mp ran with ⟨_, _, ran⟩
    cases ran
    rfl
  · contradiction

section

omit [DecidableEq H] [BlockHashing H]

/-- Sizing an admission: the size, and the loads that need none. -/
theorem sizeAdmission_sized {sized : Option Admission}
    (ran : pass.sizeAdmission input request lookup = .ok (sized, next)) :
    Quiet request.requestId pass next ∧
      next.scheduler.requests = pass.scheduler.requests ∧
      ∀ admission, sized = some admission → lookup.loadKvAsync = false →
        next.Sized input request lookup admission := by
  unfold sizeAdmission at ran
  split at ran
  · rename_i loading
    rcases bind_eq_ok.mp ran with ⟨_, _, ran⟩
    cases ran
    refine ⟨.rfl, rfl, ?_⟩
    intro admission _ computing
    rw [loading] at computing
    contradiction
  · split at ran
    · cases ran
      exact ⟨.rfl, rfl, by rintro _ ⟨⟩⟩
    · rcases bind_eq_ok.mp ran with ⟨chunk, chunked, ran⟩
      cases chunk with
      | none =>
          cases ran
          exact ⟨.rfl, rfl, by rintro _ ⟨⟩⟩
      | some chunk =>
          rcases bind_eq_ok.mp ran with ⟨encoder, encoding, ran⟩
          have quiet : Quiet request.requestId pass (pass.setEncoder request encoder) :=
            .of_scheduler rfl rfl rfl rfl rfl fun _ _ => rfl
          dsimp only at ran
          split at ran
          · cases ran
            exact ⟨quiet, rfl, by rintro _ ⟨⟩⟩
          · rename_i positive
            cases ran
            refine ⟨quiet, rfl, ?_⟩
            intro admission same _
            cases same
            exact ⟨pass, chunk.1, chunk.2, quiet, chunked, encoding, rfl,
              Nat.pos_of_ne_zero positive⟩

theorem Sized.quiet (sized : pass.Sized input request lookup admission)
    (quiet : Quiet request.requestId pass next) : next.Sized input request lookup admission := by
  rcases sized with ⟨earlier, chunk, padded, before, chunked, encoding, count, positive⟩
  refine ⟨earlier, chunk, padded, before.trans quiet, chunked, encoding, ?_, positive⟩
  rw [count]
  exact congrArg (Scheduler.reservePrefillLookahead · _ _ _) quiet.config.symm

end

/-- Allocating and committing an admission. -/
theorem allocateAdmission_round {queue : WaitingQueue} (quiet : Quiet request.requestId start pass)
    (head : (start.scheduler.queue queue).head? = some request.requestId)
    (found : pass.scheduler.requests.get? request.requestId = some request)
    (ready : lookup.loadKvAsync = false → pass.Sized input request lookup admission)
    (ran : pass.allocateAdmission queue request lookup admission = .ok (stop, next)) :
    WaitingRound input queue start stop next := by
  rcases bind_eq_ok.mp ran with ⟨⟨reserved, scheduler⟩, reserving, ran⟩
  have same : ∃ manager, scheduler = { pass.scheduler with kvCacheManager := manager } := by
    split at reserving
    · exact Scheduler.inflightPrefillReservedBlocks_spec reserving
    · cases reserving
      exact ⟨_, rfl⟩
  rcases same with ⟨_, rfl⟩
  rcases bind_eq_ok.mp ran with ⟨⟨newBlocks, manager⟩, _, ran⟩
  have allocated : Quiet request.requestId pass (pass.setKVCacheManager manager) :=
    .of_scheduler rfl rfl rfl rfl rfl fun _ _ => rfl
  have whole := quiet.trans allocated
  have sameHead : ((pass.setKVCacheManager manager).scheduler.queue queue).head? =
      some request.requestId := by
    rw [whole.queue]
    exact head
  cases newBlocks with
  | none =>
      rcases bind_eq_ok.mp ran with ⟨released, releasing, ran⟩
      cases ran
      split at releasing
      · rcases Scheduler.freeEncoderCache_spec releasing with ⟨encoder, _, rfl⟩
        exact .stop head (whole.trans (.of_scheduler rfl rfl rfl rfl rfl fun _ _ => rfl))
      · cases releasing
        exact .stop head whole
  | some blocks =>
      dsimp only at ran
      split at ran
      · rcases bind_eq_ok.mp ran with ⟨loaded, loading, ran⟩
        cases ran
        exact .load whole sameHead found loading
      · rename_i computing
        rcases bind_eq_ok.mp ran with ⟨admitted, admitting, ran⟩
        cases ran
        have sized := (ready (Bool.not_eq_true _ ▸ computing)).quiet allocated
        exact .admitWaiting whole sameHead found sized admitting

/-- Without a result of the lookup a connector has not answered yet. -/
theorem lookupPrefix_withheld
    (ran : pass.scheduler.lookupPrefix input request = .ok (none, scheduler)) :
    ∃ current, scheduler.requests.get? request.requestId = some current ∧
      current.requestId = request.requestId ∧
      Withheld { pass with scheduler := scheduler } input current := by
  unfold Scheduler.lookupPrefix at ran
  split at ran
  · rcases bind_eq_ok.mp ran with ⟨⟨⟨blocks, numLocal, boundary⟩, manager⟩, _, ran⟩
    rcases bind_eq_ok.mp ran with ⟨lookup, connecting, ran⟩
    cases lookup with
    | none =>
        cases ran
        refine ⟨_, Dict.get?_insert_self .., rfl, .inr (.inr (.inl ?_))⟩
        unfold Scheduler.connectorLookup at connecting
        dsimp only at connecting
        split at connecting
        · rename_i connector
          refine ⟨connector, numLocal - numLocal % pass.scheduler.config.blockSize, ?_⟩
          split at connecting
          · rename_i answer
            exact congrArg Prod.fst answer
          · split at connecting
            · rcases bind_eq_ok.mp connecting with ⟨_, _, connecting⟩
              cases connecting
            · split at connecting <;> cases connecting
        · cases connecting
    | some lookup =>
        rcases bind_eq_ok.mp ran with ⟨_, _, ran⟩
        split at ran
        · rename_i unavailable
          cases ran
          refine ⟨_, Dict.get?_insert_self .., rfl, .inr (.inr (.inr ?_))⟩
          exact ⟨unavailable.1, lookup.numComputedTokens, by simpa using unavailable.2.2⟩
        · cases ran
  · cases ran

/-- A request that may be scheduled. -/
theorem considerWaiting_round {queue : WaitingQueue} (quiet : Quiet request.requestId start pass)
    (keyed : pass.scheduler.Keyed)
    (head : (start.scheduler.queue queue).head? = some request.requestId)
    (ran : pass.considerWaiting input queue request = .ok (stop, next)) :
    WaitingRound input queue start stop next := by
  rcases bind_eq_ok.mp ran with ⟨⟨lookup, scheduler⟩, looking, ran⟩
  have looked : Quiet request.requestId pass { pass with scheduler := scheduler } ∧
      scheduler.Keyed := by
    rcases Scheduler.lookupPrefix_spec looking with rfl | ⟨manager, boundary, rfl⟩
    · exact ⟨.rfl, keyed⟩
    · exact ⟨.of_scheduler rfl rfl rfl rfl rfl fun _ differ =>
        Dict.get?_insert_of_ne _ _ (Ne.symm differ), Scheduler.keyed_insert keyed rfl⟩
  have whole := quiet.trans looked.1
  cases lookup with
  | none =>
      rcases bind_eq_ok.mp ran with ⟨skipped, skipping, ran⟩
      cases ran
      rcases lookupPrefix_withheld looking with ⟨current, found, key, withheld⟩
      rw [← key] at head found skipping whole
      refine .skip whole ?_ found withheld skipping
      rw [whole.queue]
      exact head
  | some lookup =>
      rcases bind_eq_ok.mp ran with ⟨current, getting, ran⟩
      have found := Scheduler.getRequest_eq_ok.mp getting
      have key := looked.2 request.requestId current found
      rcases bind_eq_ok.mp ran with ⟨⟨sized, after⟩, sizing, ran⟩
      rcases sizeAdmission_sized sizing with ⟨sizingQuiet, same, ready⟩
      cases sized with
      | none =>
          cases ran
          rw [key] at sizingQuiet
          exact .stop head (whole.trans sizingQuiet)
      | some admission =>
          rw [← key] at whole
          apply allocateAdmission_round (whole.trans sizingQuiet) ?_ ?_ (ready admission rfl) ran
          · rw [key]
            exact head
          · rw [same, key]
            exact found

/-- A round of the waiting loop. -/
theorem scheduleWaitingRequest_round {queue : WaitingQueue} (keyed : pass.scheduler.Keyed)
    (ran : pass.scheduleWaitingRequest input queue = .ok (stop, next)) :
    WaitingRound input queue pass stop next := by
  rcases bind_eq_ok.mp ran with ⟨requestId, peeking, ran⟩
  rcases bind_eq_ok.mp ran with ⟨request, getting, ran⟩
  rcases bind_eq_ok.mp ran with ⟨⟨schedulable, scheduler⟩, promoting, ran⟩
  have head := RequestQueue.peekRequest_eq_ok.mp peeking
  have found := Scheduler.getRequest_eq_ok.mp getting
  have promoted : Quiet requestId pass { pass with scheduler := scheduler } ∧
      scheduler.Keyed ∧
      (schedulable = false → scheduler.requests.get? requestId = some request ∧
        Scheduler.isBlockedWaitingStatus request.status = true) := by
    split at promoting
    · rename_i blocked
      have key := keyed requestId request found
      rcases promote_quiet keyed promoting with ⟨quiet, keyed⟩
      rw [key] at quiet
      refine ⟨quiet, keyed, ?_⟩
      rintro rfl
      rw [unpromoted_same promoting]
      exact ⟨found, blocked⟩
    · cases promoting
      exact ⟨.rfl, keyed, nofun⟩
  rcases promoted with ⟨quiet, keyed, unpromoted⟩
  rcases bind_eq_ok.mp ran with ⟨current, getting, ran⟩
  have found := Scheduler.getRequest_eq_ok.mp getting
  have key := keyed requestId current found
  split at ran
  · rename_i withheld
    rcases bind_eq_ok.mp ran with ⟨skipped, skipping, ran⟩
    cases ran
    rw [← key] at skipping head found quiet
    refine .skip quiet ?_ found ?_ skipping
    · rw [quiet.queue]
      exact head
    · rcases withheld with blocked | aside
      · rcases unpromoted (by simpa using blocked) with ⟨same, blocked⟩
        rw [← key, found] at same
        cases same
        exact .inl blocked
      · exact .inr (.inl aside)
  · rw [← key] at head quiet
    exact considerWaiting_round quiet keyed head ran

/-! ## What a round leaves -/

section

omit [DecidableEq H] [BlockHashing H]

/-- An admitted request runs, and the budgets pay for its tokens. -/
structure Admitted (pass next : SchedulePass H) (request : Request H) (admission : Admission) :
    Prop where
  config : next.scheduler.config = pass.scheduler.config
  awaited : next.scheduler.numWaitingForStreamingInput =
    pass.scheduler.numWaitingForStreamingInput
  others : ∀ other, other ≠ request.requestId →
    next.scheduler.requests.get? other = pass.scheduler.requests.get? other
  profile : next.scheduler.profileOf request.requestId =
    some { request.profile with status := .running }
  running : next.scheduler.running = pass.scheduler.running ++ [request.requestId]
  loras : next.scheduledLoras = pass.addLora request
  aside : next.stepSkippedWaiting = pass.stepSkippedWaiting
  preempted : next.preemptedReqs = pass.preemptedReqs
  scheduled : next.scheduledRunningReqs = pass.scheduledRunningReqs
  listed : (next.scheduledNewReqs ++ next.scheduledResumedReqs).Perm
    (request.requestId :: (pass.scheduledNewReqs ++ pass.scheduledResumedReqs))
  tokens : next.numScheduledTokens =
    pass.numScheduledTokens.insert request.requestId admission.numNewTokens
  tokenBudget : next.tokenBudget = pass.tokenBudget - admission.numNewTokens
  inputBudget : next.inputBudget =
    pass.inputBudget - (admission.numNewTokens + pass.config.draftSlots)
  inputs : next.scheduledEncoderInputs =
    if admission.encoder.encoderInputsToSchedule = [] then pass.scheduledEncoderInputs
    else pass.scheduledEncoderInputs.insert request.requestId
      admission.encoder.encoderInputsToSchedule
  encoderComputeBudget : next.encoderComputeBudget =
    if admission.encoder.encoderInputsToSchedule = [] then pass.encoderComputeBudget
    else admission.encoder.encoderComputeBudget

/-- Committing the encoder inputs, with the budget that is left. -/
theorem commitEncoderInputs_outcome {encoder : EncoderPass}
    (ran : pass.commitEncoderInputs request encoder = .ok next) :
    ∃ manager, next =
        { pass with
          scheduler :=
            { pass.scheduler with encoderCacheManager := manager }.serve request.requestId
              (encoder.encoderInputsToSchedule ++ encoder.externalLoadEncoderInput ++
                encoder.repeatedInputs)
          scheduledEncoderInputs :=
            if encoder.encoderInputsToSchedule = [] then pass.scheduledEncoderInputs
            else pass.scheduledEncoderInputs.insert request.requestId
              encoder.encoderInputsToSchedule
          encoderComputeBudget :=
            if encoder.encoderInputsToSchedule = [] then pass.encoderComputeBudget
            else encoder.encoderComputeBudget } := by
  rcases bind_eq_ok.mp ran with ⟨manager, _, ran⟩
  dsimp only at ran
  split at ran
  · rename_i none
    cases ran
    refine ⟨manager, ?_⟩
    rw [if_pos none, if_pos none]
    rfl
  · rename_i some
    cases ran
    refine ⟨manager, ?_⟩
    rw [if_neg some, if_neg some]
    rfl

theorem admit_outcome {queue : WaitingQueue}
    (ran : pass.admitWaiting queue request lookup admission = .ok next) :
    (∃ popped, pass.scheduler.popQueue queue = .ok popped ∧
      next.scheduler.waiting = popped.waiting ∧
      next.scheduler.skippedWaiting = popped.skippedWaiting) ∧
    Admitted pass next request admission := by
  rcases bind_eq_ok.mp ran with ⟨popped, popping, ran⟩
  split at ran
  · contradiction
  · rcases bind_eq_ok.mp ran with ⟨_, _, ran⟩
    rcases commitEncoderInputs_outcome ran with ⟨manager, rfl⟩
    have rest : popped.config = pass.scheduler.config ∧ popped.running = pass.scheduler.running ∧
        popped.numWaitingForStreamingInput = pass.scheduler.numWaitingForStreamingInput ∧
        popped.requests = pass.scheduler.requests := by
      rcases Scheduler.popQueue_spec popping with ⟨_, _, _, _, rfl⟩
      cases queue <;> exact ⟨rfl, rfl, rfl, rfl⟩
    refine ⟨⟨popped, popping, rfl, rfl⟩, rest.1, rest.2.2.1, ?_, ?_, ?_, rfl, rfl, rfl, rfl, ?_,
      rfl, rfl, rfl, rfl, rfl⟩
    · intro other differ
      exact (Dict.get?_insert_of_ne _ _ (Ne.symm differ)).trans
        (congrArg (Dict.get? · other) rest.2.2.2)
    · exact congrArg (Option.map Request.profile) (Dict.get?_insert_self popped.requests _ _)
    · exact congrArg (· ++ [request.requestId]) rest.2.1
    · dsimp only
      split
      · rw [List.append_assoc]
        exact List.perm_middle
      · rw [← List.append_assoc]
        exact List.perm_append_singleton ..

/-- A request that is set aside leaves its queue. -/
theorem skipWaiting_outcome {queue : WaitingQueue} {requestId : RequestId}
    (ran : pass.skipWaiting queue requestId = .ok next) :
    ∃ popped, pass.scheduler.popQueue queue = .ok popped ∧
      next =
        { pass with
          scheduler := popped
          stepSkippedWaiting := RequestQueue.prependRequest pass.config.policy popped.lt
            pass.stepSkippedWaiting requestId } := by
  rcases bind_eq_ok.mp ran with ⟨popped, popping, ran⟩
  cases ran
  exact ⟨popped, popping, rfl⟩

theorem loadRemote_outcome {queue : WaitingQueue}
    (ran : pass.loadRemote queue request lookup = .ok next) :
    ∃ skipped inflight, pass.skipWaiting queue request.requestId = .ok skipped ∧
      next =
        { skipped with
          scheduler :=
            { skipped.scheduler with
              requests := skipped.scheduler.requests.insert request.requestId
                { request with
                  status := .waitingForRemoteKvs
                  numComputedTokens := lookup.numComputedTokens }
              inflightPrefills := inflight } } := by
  rcases bind_eq_ok.mp ran with ⟨skipped, skipping, ran⟩
  cases ran
  exact ⟨skipped, _, skipping, rfl⟩

end

end SchedulePass

end Vllm.Core
