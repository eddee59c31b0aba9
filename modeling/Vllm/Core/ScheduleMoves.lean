import Vllm.Core.EncoderReferences
import Vllm.Core.SchedulerSpecs

/-!
# Scheduling as a sequence of moves

The two loops of `schedule` are chains of a few kinds of moves: a cache manager
answers, a request is preempted, scheduled, set aside or admitted.  A property of
the pass that every move keeps therefore holds at the end of the phase, and the
results about runs never look into the loops again.
-/

namespace Vllm.Core

open Vllm.Library Relation

namespace SchedulePass

variable {H : Type} [DecidableEq H] [BlockHashing H]

/-! ## The running phase -/

omit [DecidableEq H] [BlockHashing H] in
/-- The encoder was asked about the request in this call, and nothing was cached
since. -/
def Asked (pass : SchedulePass H) (input : ScheduleInput H) (request : Request H)
    (encoder : EncoderPass) : Prop :=
  ∃ (earlier : SchedulePass H) (numComputedTokens : Nat) (numNewTokens : Int),
    earlier.config = pass.config ∧
    earlier.tryEncoderInputs input request numComputedTokens numNewTokens = .ok encoder ∧
    EncoderCacheManager.AddsNone encoder.manager pass.scheduler.encoderCacheManager

/-- One move of the running phase. -/
inductive RunningMove (input : ScheduleInput H) : SchedulePass H → SchedulePass H → Prop
  | allocate (pass : SchedulePass H) (manager : KVCacheManager H) :
      RunningMove input pass (pass.setKVCacheManager manager)
  | advance (pass : SchedulePass H) : RunningMove input pass pass.advance
  | encode {pass : SchedulePass H} {request : Request H} {numNewTokens : Int}
      {encoder : EncoderPass}
      (found : pass.scheduler.requests.get? request.requestId = some request)
      (ran : pass.tryEncoderInputs input request request.numComputedTokens numNewTokens =
        .ok encoder) :
      RunningMove input pass (pass.setEncoder request encoder)
  | preempt {pass next : SchedulePass H} {victim : RequestId}
      (inside : pass.reqIndex < pass.scheduler.running.length)
      (ran : pass.preemptOne = .ok (victim, next)) : RunningMove input pass next
  | schedule {pass next : SchedulePass H} {request : Request H}
      {newBlocks : List (List BlockId)} {numNewTokens : Nat} {encoder : EncoderPass}
      (current : pass.scheduler.running[pass.reqIndex]? = some request.requestId)
      (found : pass.scheduler.requests.get? request.requestId = some request)
      (positive : 0 < numNewTokens)
      (ran : pass.commitRunning request newBlocks numNewTokens encoder = .ok next)
      (asked : pass.Asked input request encoder) : RunningMove input pass next

variable {pass next : SchedulePass H} {request : Request H} {input : ScheduleInput H} {stop : Bool}
  {queue : WaitingQueue}

section

omit [DecidableEq H] [BlockHashing H]

variable {victim : RequestId}

/-- Preempting another request leaves the current one under the cursor. -/
theorem preemptOne_current {current : RequestId}
    (under : pass.scheduler.running[pass.reqIndex]? = some current) (other : victim ≠ current)
    (ran : pass.preemptOne = .ok (victim, next)) :
    next.scheduler.running[next.reqIndex]? = some current := by
  rcases preemptOne_spec ran with ⟨removed, scheduler, removing, preempting, rfl⟩
  rcases Scheduler.preemptRequest_spec preempting with
    ⟨_, _, _, _, _, _, _, _, _, _, _, rfl⟩
  have inside : pass.reqIndex < pass.scheduler.running.length :=
    (List.getElem?_eq_some_iff.mp under).1
  rcases removeVictim_spec inside removing with ⟨index, atIndex, shape⟩
  have differ : index ≠ pass.reqIndex := by
    rintro rfl
    rw [atIndex] at under
    exact other (Option.some.inj under)
  have dropped : (pass.dropRunning index).scheduler.running[(pass.dropRunning index).reqIndex]? =
      some current := by
    unfold dropRunning
    dsimp only
    split
    · rename_i before
      rw [List.getElem?_eraseIdx_of_ge (by omega), Nat.sub_add_cancel (by omega)]
      exact under
    · rw [List.getElem?_eraseIdx_of_lt (by omega)]
      exact under
  rcases shape with ⟨_, _, budgets, rfl⟩ | ⟨_, rfl⟩
  · exact dropped
  · exact dropped

/-- A preemption touches one request object, that of the victim. -/
theorem preemptOne_requests (keyed : pass.scheduler.Keyed)
    (inside : pass.reqIndex < pass.scheduler.running.length)
    (ran : pass.preemptOne = .ok (victim, next)) :
    next.scheduler.Keyed ∧ ∀ requestId, requestId ≠ victim →
      next.scheduler.requests.get? requestId = pass.scheduler.requests.get? requestId := by
  rcases preemptOne_spec ran with ⟨removed, scheduler, removing, preempting, rfl⟩
  rcases Scheduler.preemptRequest_spec preempting with
    ⟨request, _, _, _, _, _, _, found, _, _, _, rfl⟩
  rcases removeVictim_spec inside removing with ⟨index, _, shape⟩
  have same : removed.scheduler.requests = pass.scheduler.requests := by
    rcases shape with ⟨_, _, budgets, rfl⟩ | ⟨_, rfl⟩ <;> rfl
  rw [same] at found
  have key := keyed victim request found
  constructor
  · unfold Scheduler.Keyed
    dsimp only
    rw [same]
    exact Scheduler.keyed_insert keyed rfl
  · intro requestId differ
    dsimp only
    rw [same, key]
    exact Dict.get?_insert_of_ne _ _ (Ne.symm differ)

/-- A preemption caches nothing. -/
theorem preemptOne_addsNone (inside : pass.reqIndex < pass.scheduler.running.length)
    (ran : pass.preemptOne = .ok (victim, next)) :
    next.config = pass.config ∧ EncoderCacheManager.AddsNone
      pass.scheduler.encoderCacheManager next.scheduler.encoderCacheManager := by
  rcases preemptOne_spec ran with ⟨removed, scheduler, removing, preempting, rfl⟩
  rcases Scheduler.preemptRequest_spec preempting with
    ⟨_, _, _, _, _, _, _, _, _, freeing, _, rfl⟩
  rcases removeVictim_spec inside removing with ⟨_, _, ⟨_, _, budgets, rfl⟩ | ⟨_, rfl⟩⟩
  · exact ⟨rfl, EncoderCacheManager.free_addsNone freeing⟩
  · exact ⟨rfl, EncoderCacheManager.free_addsNone freeing⟩

end

variable {fuel : Nat}

/-- The allocation of a running request, with the preemptions it takes. -/
theorem allocateOrPreempt_moves (input : ScheduleInput H) {numNewTokens : Nat}
    {newBlocks : Option (List (List BlockId))} (keyed : pass.scheduler.Keyed)
    (current : pass.scheduler.running[pass.reqIndex]? = some request.requestId)
    (found : pass.scheduler.requests.get? request.requestId = some request)
    (ran : allocateOrPreempt request numNewTokens fuel pass = .ok (newBlocks, next)) :
    ReflTransGen (RunningMove input) pass next ∧ next.scheduler.Keyed ∧
      (next.config = pass.config ∧ EncoderCacheManager.AddsNone
        pass.scheduler.encoderCacheManager next.scheduler.encoderCacheManager) ∧
      (newBlocks.isSome →
        next.scheduler.running[next.reqIndex]? = some request.requestId ∧
        next.scheduler.requests.get? request.requestId = some request) := by
  induction fuel using Nat.strongRecOn generalizing pass with
  | ind fuel ih =>
      rw [allocateOrPreempt.eq_def] at ran
      rcases bind_eq_ok.mp ran with ⟨⟨allocated, manager⟩, _, ran⟩
      have first : RunningMove input pass (pass.setKVCacheManager manager) :=
        .allocate pass manager
      cases allocated with
      | some blocks =>
          cases ran
          exact ⟨.single first, keyed, ⟨rfl, .refl _⟩, fun _ => ⟨current, found⟩⟩
      | none =>
          rcases bind_eq_ok.mp ran with ⟨⟨victim, preempted⟩, preempting, ran⟩
          have under : (pass.setKVCacheManager manager).scheduler.running[
              (pass.setKVCacheManager manager).reqIndex]? = some request.requestId := current
          have inside := (List.getElem?_eq_some_iff.mp under).1
          have filed : (pass.setKVCacheManager manager).scheduler.Keyed := keyed
          have kept := preemptOne_requests filed inside preempting
          have added := preemptOne_addsNone inside preempting
          have moves : ReflTransGen (RunningMove input) pass preempted :=
            .tail (.single first) (.preempt inside preempting)
          dsimp only at ran
          split at ran
          · cases ran
            exact ⟨moves, kept.1, added, nofun⟩
          · rename_i other
            cases fuel with
            | zero => contradiction
            | succ fuel =>
                have still := (kept.2 request.requestId (Ne.symm other)).trans found
                rcases ih fuel (Nat.lt_succ_self fuel) kept.1
                  (preemptOne_current under other preempting) still ran with
                  ⟨rest, keyed, addedRest, scheduled⟩
                exact ⟨moves.trans rest, keyed,
                  ⟨addedRest.1.trans added.1, added.2.trans addedRest.2⟩, scheduled⟩

/-- A round of the running loop is a chain of moves. -/
theorem scheduleRunningRequest_moves {requestId : RequestId} (keyed : pass.scheduler.Keyed)
    (current : pass.scheduler.running[pass.reqIndex]? = some requestId)
    (ran : pass.scheduleRunningRequest input requestId = .ok (stop, next)) :
    ReflTransGen (RunningMove input) pass next := by
  rcases bind_eq_ok.mp ran with ⟨request, getting, ran⟩
  have found := Scheduler.getRequest_eq_ok.mp getting
  rw [← keyed requestId request found] at current found
  split at ran
  · cases ran
    exact .refl
  · split at ran
    · cases ran
      exact .single (.advance pass)
    · rcases bind_eq_ok.mp ran with ⟨encoder, encoding, ran⟩
      have encoded : RunningMove input pass (pass.setEncoder request encoder) :=
        .encode found encoding
      dsimp only at ran
      split at ran
      · cases ran
        exact .tail (.single encoded) (.advance _)
      · rename_i positive
        rcases bind_eq_ok.mp ran with ⟨⟨newBlocks, allocated⟩, allocating, ran⟩
        have filed : (pass.setEncoder request encoder).scheduler.Keyed := keyed
        rcases allocateOrPreempt_moves input filed current found allocating with
          ⟨moves, _, added, scheduled⟩
        cases newBlocks with
        | none =>
            cases ran
            exact .head encoded moves
        | some blocks =>
            rcases bind_eq_ok.mp ran with ⟨committed, committing, ran⟩
            cases ran
            have ready := scheduled rfl
            exact .tail (.head encoded moves)
              (.schedule ready.1 ready.2 (Nat.pos_of_ne_zero positive) committing
                ⟨pass, _, _, added.1.symm, encoding, added.2⟩)

section

omit [DecidableEq H] [BlockHashing H]

/-- The moves of the running phase keep the request objects filed. -/
theorem RunningMove.keyed (move : RunningMove input pass next) (keyed : pass.scheduler.Keyed) :
    next.scheduler.Keyed := by
  cases move with
  | allocate manager => exact keyed
  | advance => exact keyed
  | encode found ran => exact keyed
  | preempt inside ran => exact (preemptOne_requests keyed inside ran).1
  | schedule current found positive ran asked =>
      rcases commitEncoderInputs_spec ran with ⟨manager, budget, _, rfl⟩
      unfold commitSpecTokens
      split
      · exact keyed
      · exact Scheduler.keyed_insert keyed rfl

/-- The running phase leaves the settings, sets nothing aside, counts no adapters, and only takes
requests out of `running`. -/
theorem RunningMove.frame (move : RunningMove input pass next) :
    next.scheduler.config = pass.scheduler.config ∧
      next.stepSkippedWaiting = pass.stepSkippedWaiting ∧
      next.scheduledLoras = pass.scheduledLoras ∧
      next.scheduler.running ⊆ pass.scheduler.running := by
  cases move with
  | allocate manager => exact ⟨rfl, rfl, rfl, List.Subset.refl _⟩
  | advance => exact ⟨rfl, rfl, rfl, List.Subset.refl _⟩
  | encode found ran => exact ⟨rfl, rfl, rfl, List.Subset.refl _⟩
  | preempt inside ran =>
      rcases preemptOne_spec ran with ⟨removed, scheduler, removing, preempting, rfl⟩
      rcases Scheduler.preemptRequest_spec preempting with ⟨_, _, _, _, _, _, _, _, _, _, _, rfl⟩
      rcases removeVictim_spec inside removing with ⟨index, _, ⟨_, _, budgets, rfl⟩ | ⟨_, rfl⟩⟩
      · exact ⟨rfl, rfl, rfl, List.eraseIdx_subset⟩
      · exact ⟨rfl, rfl, rfl, List.eraseIdx_subset⟩
  | schedule current found positive ran asked =>
      rcases commitEncoderInputs_spec ran with ⟨manager, budget, _, rfl⟩
      unfold commitSpecTokens
      split
      · exact ⟨rfl, rfl, rfl, List.Subset.refl _⟩
      · exact ⟨rfl, rfl, rfl, List.Subset.refl _⟩

end

/-- What every move keeps holds at the end of the running loop. -/
theorem scheduleRunningRequests_moves (keyed : pass.scheduler.Keyed)
    (ran : scheduleRunningRequests input fuel pass = .ok next) :
    ReflTransGen (RunningMove input) pass next := by
  induction fuel generalizing pass with
  | zero =>
      cases ran
      exact .refl
  | succ fuel ih =>
      rw [scheduleRunningRequests] at ran
      split at ran
      · cases ran
        exact .refl
      · rename_i requestId current
        split at ran
        · rcases bind_eq_ok.mp ran with ⟨⟨stop, after⟩, round, ran⟩
          have moves := scheduleRunningRequest_moves keyed current round
          have keyed := chain_keeps (fun pass => pass.scheduler.Keyed) RunningMove.keyed moves keyed
          dsimp only at ran
          split at ran
          · cases ran
            exact moves
          · exact moves.trans (ih keyed ran)
        · cases ran
          exact .refl

/-! ## The waiting phase -/

section

omit [DecidableEq H] [BlockHashing H]

/-- The adapter of the request is counted already, or there is room for it. -/
def AdapterFits (pass : SchedulePass H) (request : Request H) : Prop :=
  ∀ maxLoras lora, pass.config.maxLoras = some maxLoras → request.loraRequest = some lora →
    pass.scheduledLoras.length = maxLoras → lora.loraIntId ∈ pass.scheduledLoras

/-- One move of the waiting phase. -/
inductive WaitingMove (input : ScheduleInput H) : SchedulePass H → SchedulePass H → Prop
  | promote {pass : SchedulePass H} {request : Request H} {promoted : Bool}
      {scheduler : Scheduler H} {queue : WaitingQueue}
      (head : (pass.scheduler.queue queue).head? = some request.requestId)
      (found : pass.scheduler.requests.get? request.requestId = some request)
      (ran : pass.scheduler.tryPromoteBlockedWaitingRequest input request =
        .ok (promoted, scheduler)) :
      WaitingMove input pass { pass with scheduler := scheduler }
  | look {pass : SchedulePass H} {request : Request H} {lookup : Option Scheduler.PrefixLookup}
      {scheduler : Scheduler H}
      (found : pass.scheduler.requests.get? request.requestId = some request)
      (ran : pass.scheduler.lookupPrefix input request = .ok (lookup, scheduler)) :
      WaitingMove input pass { pass with scheduler := scheduler }
  | encode {pass : SchedulePass H} {request : Request H} {numComputedTokens : Nat}
      {numNewTokens : Int} {encoder : EncoderPass}
      (found : pass.scheduler.requests.get? request.requestId = some request)
      (ran : pass.tryEncoderInputs input request numComputedTokens numNewTokens = .ok encoder) :
      WaitingMove input pass (pass.setEncoder request encoder)
  | allocate (pass : SchedulePass H) (manager : KVCacheManager H) :
      WaitingMove input pass (pass.setKVCacheManager manager)
  | release {pass : SchedulePass H} {request : Request H} {scheduler : Scheduler H}
      (found : pass.scheduler.requests.get? request.requestId = some request)
      (ran : pass.scheduler.freeEncoderCache request = .ok scheduler) :
      WaitingMove input pass { pass with scheduler := scheduler }
  | skip {pass next : SchedulePass H} {requestId : RequestId} {queue : WaitingQueue}
      (head : (pass.scheduler.queue queue).head? = some requestId)
      (ran : pass.skipWaiting queue requestId = .ok next) : WaitingMove input pass next
  | load {pass next : SchedulePass H} {request : Request H} {queue : WaitingQueue}
      {lookup : Scheduler.PrefixLookup}
      (head : (pass.scheduler.queue queue).head? = some request.requestId)
      (found : pass.scheduler.requests.get? request.requestId = some request)
      (ran : pass.loadRemote queue request lookup = .ok next) : WaitingMove input pass next
  | admitWaiting {pass next : SchedulePass H} {request : Request H} {queue : WaitingQueue}
      {lookup : Scheduler.PrefixLookup} {admission : Admission}
      (head : (pass.scheduler.queue queue).head? = some request.requestId)
      (found : pass.scheduler.requests.get? request.requestId = some request)
      (unpreempted : pass.preemptedReqs = [])
      (fits : pass.AdapterFits request)
      (positive : 0 < admission.numNewTokens)
      (ran : pass.admitWaiting queue request lookup admission = .ok next)
      (asked : pass.Asked input request admission.encoder) : WaitingMove input pass next

theorem adapterFits_of_setsAside (taken : pass.setsAside request = false) :
    pass.AdapterFits request := by
  intro maxLoras lora limit adapter full
  unfold setsAside at taken
  rw [limit, adapter, Bool.or_eq_false_iff] at taken
  have notBoth := of_decide_eq_false taken.2
  by_contra absent
  exact notBoth ⟨full, absent⟩

end

variable {lookup : Scheduler.PrefixLookup}

/-- Sizing an admission may ask the encoder; an admission with tokens to compute has
at least one. -/
theorem sizeAdmission_moves {sized : Option Admission}
    (found : pass.scheduler.requests.get? request.requestId = some request)
    (ran : pass.sizeAdmission input request lookup = .ok (sized, next)) :
    ReflTransGen (WaitingMove input) pass next ∧
      (∃ manager served, next =
        { pass with
          scheduler :=
            { pass.scheduler with encoderCacheManager := manager, servedInputs := served } }) ∧
      ∀ admission, sized = some admission → lookup.loadKvAsync = false →
        0 < admission.numNewTokens ∧ next.Asked input request admission.encoder := by
  unfold sizeAdmission at ran
  split at ran
  · rename_i loading
    rcases bind_eq_ok.mp ran with ⟨_, _, ran⟩
    cases ran
    refine ⟨.refl, ⟨_, _, rfl⟩, ?_⟩
    intro admission _ computing
    rw [loading] at computing
    contradiction
  · split at ran
    · cases ran
      exact ⟨.refl, ⟨_, _, rfl⟩, by rintro _ ⟨⟩⟩
    · rcases bind_eq_ok.mp ran with ⟨chunk, _, ran⟩
      cases chunk with
      | none =>
          cases ran
          exact ⟨.refl, ⟨_, _, rfl⟩, by rintro _ ⟨⟩⟩
      | some chunk =>
          rcases bind_eq_ok.mp ran with ⟨encoder, encoding, ran⟩
          have encoded : ReflTransGen (WaitingMove input) pass (pass.setEncoder request encoder) :=
            .single (.encode found encoding)
          dsimp only at ran
          split at ran
          · cases ran
            exact ⟨encoded, ⟨_, _, rfl⟩, by rintro _ ⟨⟩⟩
          · rename_i positive
            cases ran
            refine ⟨encoded, ⟨_, _, rfl⟩, ?_⟩
            intro admission same _
            cases same
            exact ⟨Nat.pos_of_ne_zero positive, pass, _, _, rfl, encoding, .refl _⟩

/-- Allocating and committing an admission. -/
theorem allocateAdmission_moves {admission : Admission}
    (head : (pass.scheduler.queue queue).head? = some request.requestId)
    (found : pass.scheduler.requests.get? request.requestId = some request)
    (unpreempted : pass.preemptedReqs = []) (fits : pass.AdapterFits request)
    (ready : lookup.loadKvAsync = false →
      0 < admission.numNewTokens ∧ pass.Asked input request admission.encoder)
    (ran : pass.allocateAdmission queue request lookup admission = .ok (stop, next)) :
    ReflTransGen (WaitingMove input) pass next := by
  rcases bind_eq_ok.mp ran with ⟨⟨reserved, scheduler⟩, reserving, ran⟩
  have same : ∃ manager, scheduler = { pass.scheduler with kvCacheManager := manager } := by
    split at reserving
    · exact Scheduler.inflightPrefillReservedBlocks_spec reserving
    · cases reserving
      exact ⟨_, rfl⟩
  rcases same with ⟨_, rfl⟩
  rcases bind_eq_ok.mp ran with ⟨⟨newBlocks, manager⟩, _, ran⟩
  have allocated : WaitingMove input pass (pass.setKVCacheManager manager) :=
    .allocate pass manager
  have sameHead : ((pass.setKVCacheManager manager).scheduler.queue queue).head? =
      some request.requestId := by
    cases queue <;> exact head
  cases newBlocks with
  | none =>
      rcases bind_eq_ok.mp ran with ⟨released, releasing, ran⟩
      cases ran
      split at releasing
      · have freed : WaitingMove input (pass.setKVCacheManager manager)
            { pass.setKVCacheManager manager with scheduler := released } :=
          .release found releasing
        exact .tail (.single allocated) freed
      · cases releasing
        exact .single allocated
  | some blocks =>
      dsimp only at ran
      split at ran
      · rcases bind_eq_ok.mp ran with ⟨loaded, loading, ran⟩
        cases ran
        exact .tail (.single allocated) (.load sameHead found loading)
      · rename_i computing
        rcases bind_eq_ok.mp ran with ⟨admitted, admitting, ran⟩
        cases ran
        have enough := ready (Bool.not_eq_true _ ▸ computing)
        exact .tail (.single allocated)
          (.admitWaiting sameHead found unpreempted fits enough.1 admitting enough.2)

/-- A request that may be scheduled. -/
theorem considerWaiting_moves (head : (pass.scheduler.queue queue).head? = some request.requestId)
    (found : pass.scheduler.requests.get? request.requestId = some request)
    (unpreempted : pass.preemptedReqs = []) (fits : pass.AdapterFits request)
    (ran : pass.considerWaiting input queue request = .ok (stop, next)) :
    ReflTransGen (WaitingMove input) pass next := by
  rcases bind_eq_ok.mp ran with ⟨⟨lookup, scheduler⟩, looking, ran⟩
  have looked : WaitingMove input pass { pass with scheduler := scheduler } :=
    .look found looking
  -- The lookup leaves the queues alone, and the adapter of the request.
  have kept : scheduler.config = pass.scheduler.config ∧
      scheduler.queue queue = pass.scheduler.queue queue ∧
      ∃ seen, scheduler.requests.get? request.requestId = some seen ∧
        seen.requestId = request.requestId ∧ seen.loraRequest = request.loraRequest := by
    rcases Scheduler.lookupPrefix_spec looking with rfl | ⟨manager, boundary, rfl⟩
    · exact ⟨rfl, rfl, request, found, rfl, rfl⟩
    · refine ⟨rfl, ?_, _, Dict.get?_insert_self .., rfl, rfl⟩
      cases queue <;> rfl
  rcases kept with ⟨sameConfig, sameQueue, seen, seenFound, sameId, sameLora⟩
  cases lookup with
  | none =>
      rcases bind_eq_ok.mp ran with ⟨skipped, skipping, ran⟩
      cases ran
      exact .tail (.single looked) (.skip (by rw [sameQueue]; exact head) skipping)
  | some lookup =>
      rcases bind_eq_ok.mp ran with ⟨current, getting, ran⟩
      rw [Scheduler.getRequest_eq_ok, seenFound] at getting
      cases getting
      rcases bind_eq_ok.mp ran with ⟨⟨sized, after⟩, sizing, ran⟩
      have seenFound : ({ pass with scheduler := scheduler } : SchedulePass H).scheduler.requests.get?
          seen.requestId = some seen := by
        rw [sameId]
        exact seenFound
      rcases sizeAdmission_moves seenFound sizing with ⟨moves, ⟨manager, served, rfl⟩, positive⟩
      cases sized with
      | none =>
          cases ran
          exact .head looked moves
      | some admission =>
          have headAfter : ((({ pass with
              scheduler :=
                { scheduler with encoderCacheManager := manager, servedInputs := served } }) :
              SchedulePass H).scheduler.queue queue).head? = some seen.requestId := by
            rw [sameId, ← head, ← sameQueue]
            cases queue <;> rfl
          have fitsAfter : AdapterFits { pass with
              scheduler :=
                { scheduler with encoderCacheManager := manager, servedInputs := served } }
              seen := by
            intro maxLoras lora limit adapter full
            rw [sameLora] at adapter
            change scheduler.config.maxLoras = some maxLoras at limit
            rw [sameConfig] at limit
            exact fits maxLoras lora limit adapter full
          exact (ReflTransGen.head looked moves).trans
            (allocateAdmission_moves headAfter seenFound unpreempted fitsAfter
              (positive admission rfl) ran)

/-- A round of the waiting loop is a chain of moves. -/
theorem scheduleWaitingRequest_moves (keyed : pass.scheduler.Keyed)
    (unpreempted : pass.preemptedReqs = [])
    (ran : pass.scheduleWaitingRequest input queue = .ok (stop, next)) :
    ReflTransGen (WaitingMove input) pass next := by
  rcases bind_eq_ok.mp ran with ⟨requestId, peeking, ran⟩
  rcases bind_eq_ok.mp ran with ⟨request, getting, ran⟩
  rcases bind_eq_ok.mp ran with ⟨⟨schedulable, scheduler⟩, promoting, ran⟩
  have head := RequestQueue.peekRequest_eq_ok.mp peeking
  have found := Scheduler.getRequest_eq_ok.mp getting
  have key := keyed requestId request found
  -- A promotion changes the request in its place in the queue.
  have promoted : ReflTransGen (WaitingMove input) pass { pass with scheduler := scheduler } ∧
      scheduler.queue queue = pass.scheduler.queue queue ∧ scheduler.Keyed := by
    split at promoting
    · have found : pass.scheduler.requests.get? request.requestId = some request := by
        rw [key]
        exact found
      have head : (pass.scheduler.queue queue).head? = some request.requestId := by
        rw [key]
        exact head
      refine ⟨.single (.promote head found promoting), ?_⟩
      rcases Scheduler.tryPromoteBlockedWaitingRequest_spec promoting with
        ⟨errors, rfl⟩ | ⟨manager, finished, failed, status, numComputedTokens, _, rfl⟩
      · constructor
        · cases queue <;> rfl
        · exact keyed
      · constructor
        · cases queue <;> rfl
        · exact Scheduler.keyed_insert keyed rfl
    · cases promoting
      exact ⟨.refl, rfl, keyed⟩
  rcases promoted with ⟨moves, sameQueue, keyed⟩
  rcases bind_eq_ok.mp ran with ⟨current, getting, ran⟩
  have found := Scheduler.getRequest_eq_ok.mp getting
  have head : (({ pass with scheduler := scheduler } : SchedulePass H).scheduler.queue queue).head? =
      some requestId := by
    change (scheduler.queue queue).head? = _
    rw [sameQueue]
    exact head
  split at ran
  · rcases bind_eq_ok.mp ran with ⟨skipped, skipping, ran⟩
    cases ran
    exact .tail moves (.skip head skipping)
  · rename_i taken
    have key := keyed requestId current found
    have fits := adapterFits_of_setsAside (by
      simpa using (not_or.mp taken).2)
    rw [← key] at head found
    exact moves.trans (considerWaiting_moves head found unpreempted fits ran)

section

omit [DecidableEq H] [BlockHashing H]

/-- What no move of the waiting phase changes. -/
structure WaitingFrame (pass next : SchedulePass H) : Prop where
  config : next.scheduler.config = pass.scheduler.config
  preempted : next.preemptedReqs = pass.preemptedReqs
  withdrew : next.withdrewEncoderInputs = pass.withdrewEncoderInputs
  requests : next.scheduler.requests = pass.scheduler.requests ∨
    ∃ request status numComputedTokens boundary,
      pass.scheduler.requests.get? request.requestId = some request ∧
      next.scheduler.requests = pass.scheduler.requests.insert request.requestId
        { request with
          status := status
          numComputedTokens := numComputedTokens
          sharedPrefixBoundary := boundary }

/-- What only an admission changes. -/
structure Unadmitted (pass next : SchedulePass H) : Prop extends WaitingFrame pass next where
  running : next.scheduler.running = pass.scheduler.running
  loras : next.scheduledLoras = pass.scheduledLoras
  tokens : next.numScheduledTokens = pass.numScheduledTokens
  inputs : next.scheduledEncoderInputs = pass.scheduledEncoderInputs

end

/-- A move of the waiting phase, apart from an admission. -/
theorem WaitingMove.cases (move : WaitingMove input pass next) : Unadmitted pass next ∨
      ∃ request queue lookup admission,
        pass.scheduler.requests.get? request.requestId = some request ∧
        pass.AdapterFits request ∧ 0 < admission.numNewTokens ∧
        pass.admitWaiting queue request lookup admission = .ok next := by
  cases move with
  | promote head found ran =>
      left
      rcases Scheduler.tryPromoteBlockedWaitingRequest_spec ran with
        ⟨errors, rfl⟩ | ⟨manager, finished, failed, status, numComputedTokens, _, rfl⟩
      · exact ⟨⟨rfl, rfl, rfl, .inl rfl⟩, rfl, rfl, rfl, rfl⟩
      · exact ⟨⟨rfl, rfl, rfl, .inr ⟨_, _, _, _, found, rfl⟩⟩, rfl, rfl, rfl, rfl⟩
  | look found ran =>
      left
      rcases Scheduler.lookupPrefix_spec ran with rfl | ⟨manager, boundary, rfl⟩
      · exact ⟨⟨rfl, rfl, rfl, .inl rfl⟩, rfl, rfl, rfl, rfl⟩
      · exact ⟨⟨rfl, rfl, rfl, .inr ⟨_, _, _, _, found, rfl⟩⟩, rfl, rfl, rfl, rfl⟩
  | encode found ran => exact .inl ⟨⟨rfl, rfl, rfl, .inl rfl⟩, rfl, rfl, rfl, rfl⟩
  | allocate manager => exact .inl ⟨⟨rfl, rfl, rfl, .inl rfl⟩, rfl, rfl, rfl, rfl⟩
  | release found ran =>
      rcases Scheduler.freeEncoderCache_spec ran with ⟨manager, _, rfl⟩
      exact .inl ⟨⟨rfl, rfl, rfl, .inl rfl⟩, rfl, rfl, rfl, rfl⟩
  | skip head ran =>
      rename_i queue
      rcases skipWaiting_spec ran with ⟨first, rest, aside, _, _, _, rfl⟩
      cases queue <;> exact .inl ⟨⟨rfl, rfl, rfl, .inl rfl⟩, rfl, rfl, rfl, rfl⟩
  | load head found ran =>
      rename_i queue _
      rcases loadRemote_spec ran with ⟨first, rest, aside, _, _, _, rfl⟩
      cases queue <;> exact .inl ⟨⟨rfl, rfl, rfl, .inr ⟨_, _, _, _, found, rfl⟩⟩, rfl, rfl,
        rfl, rfl⟩
  | admitWaiting head found unpreempted fits positive ran asked =>
      exact .inr ⟨_, _, _, _, found, fits, positive, ran⟩

theorem WaitingMove.frame (move : WaitingMove input pass next) : WaitingFrame pass next := by
  rcases move.cases with unadmitted | ⟨request, queue, lookup, admission, found, -, -, ran⟩
  · exact unadmitted.toWaitingFrame
  · rcases admit_spec ran with
      ⟨first, rest, manager, inflight, budgets, new, resumed, syncLoads, _, _, _, _, rfl⟩
    cases queue <;> exact ⟨rfl, rfl, rfl, .inr ⟨_, _, _, _, found, rfl⟩⟩

/-- The moves of the waiting phase keep the request objects filed, and preempt
nobody. -/
theorem WaitingMove.keyed (move : WaitingMove input pass next)
    (kept : pass.scheduler.Keyed ∧ pass.preemptedReqs = []) :
    next.scheduler.Keyed ∧ next.preemptedReqs = [] := by
  refine ⟨?_, move.frame.preempted.trans kept.2⟩
  unfold Scheduler.Keyed
  rcases move.frame.requests with same | ⟨request, _, _, _, found, same⟩
  · rw [same]
    exact kept.1
  · rw [same]
    exact Scheduler.keyed_insert kept.1 rfl

/-- The waiting loop is a chain of moves. -/
theorem scheduleWaitingRequests_moves (keyed : pass.scheduler.Keyed)
    (unpreempted : pass.preemptedReqs = [])
    (ran : scheduleWaitingRequests input fuel pass = .ok next) :
    ReflTransGen (WaitingMove input) pass next := by
  induction fuel generalizing pass with
  | zero =>
      cases ran
      exact .refl
  | succ fuel ih =>
      rw [scheduleWaitingRequests] at ran
      split at ran
      · cases ran
        exact .refl
      · split at ran
        · rcases bind_eq_ok.mp ran with ⟨⟨stop, after⟩, round, ran⟩
          have moves := scheduleWaitingRequest_moves keyed unpreempted round
          have kept := chain_keeps
            (fun pass => pass.scheduler.Keyed ∧ pass.preemptedReqs = []) WaitingMove.keyed moves
            ⟨keyed, unpreempted⟩
          dsimp only at ran
          split at ran
          · cases ran
            exact moves
          · exact moves.trans (ih kept.1 kept.2 ran)
        · cases ran
          exact .refl

omit [DecidableEq H] [BlockHashing H] in
/-- The state after the waiting loop: what was set aside is skipped again. -/
def Rejoined (pass next : SchedulePass H) : Prop :=
  ∃ skipped bound, skipped.Perm (pass.stepSkippedWaiting ++ pass.scheduler.skippedWaiting) ∧
    next =
      { pass with
        scheduler :=
          { pass.scheduler with skippedWaiting := skipped, prefillCapacityBound := bound }
        stepSkippedWaiting := [] }

/-- The waiting phase is not entered, or it is a chain of moves after which the
requests set aside rejoin the skipped ones. -/
theorem waitingPhase_moves (keyed : pass.scheduler.Keyed)
    (ran : pass.waitingPhase input = .ok next) :
    next = pass ∨
    pass.preemptedReqs = [] ∧ pass.scheduler.pauseState = .unpaused ∧
      ∃ waited, ReflTransGen (WaitingMove input) pass waited ∧ waited.Rejoined next := by
  unfold waitingPhase at ran
  split at ran
  · rename_i entered
    rcases bind_eq_ok.mp ran with ⟨waited, waiting, ran⟩
    cases ran
    refine .inr ⟨entered.1, entered.2, waited,
      scheduleWaitingRequests_moves keyed entered.1 waiting, _, _, ?_, rfl⟩
    exact RequestQueue.prependRequests_perm ..
  · cases ran
    exact .inl rfl

/-! ## The step as a whole -/

omit [DecidableEq H] [BlockHashing H] in
theorem recordScheduledLoras_spec (ran : pass.recordScheduledLoras = .ok next) :
    pass.config.maxLoras = none ∧ next = pass ∨
    ∃ maxLoras, pass.config.maxLoras = some maxLoras ∧
      (lorasOf pass.scheduler pass.scheduledRunningReqs).length ≤ maxLoras ∧
      next = { pass with scheduledLoras := lorasOf pass.scheduler pass.scheduledRunningReqs } := by
  unfold recordScheduledLoras at ran
  split at ran
  · rename_i disabled
    cases ran
    exact .inl ⟨disabled, rfl⟩
  · rename_i maxLoras enabled
    rcases bind_eq_ok.mp ran with ⟨_, asserted, ran⟩
    cases ran
    exact .inr ⟨maxLoras, enabled, pyAssert_eq_ok.mp asserted, rfl⟩

end SchedulePass

end Vllm.Core
