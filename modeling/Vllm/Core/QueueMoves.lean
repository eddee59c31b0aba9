import Vllm.Core.PlacementRuns
import Vllm.Core.ScheduleCursor
import Vllm.Core.UpdateProfiles

/-!
# How the calls change the waiting queues

Outside the waiting phase of `schedule`, a call first lets requests join the queues
and then removes others.  Both are chains of single operations on the queues, with
changes in between that leave the queues and, where it matters, the ranks of the
queued requests alone.
-/

namespace Vllm.Core

open Vllm.Library Relation

/-- What the PRIORITY policy compares. -/
def Profile.rank (profile : Profile) : Int × Int × RequestId :=
  (profile.priority, profile.arrivalTime, profile.requestId)

namespace Scheduler

variable {H : Type}

/-- The rank of the request that is filed under an id. -/
def rankOf (scheduler : Scheduler H) (requestId : RequestId) : Option (Int × Int × RequestId) :=
  (scheduler.profileOf requestId).map Profile.rank

variable {scheduler next : Scheduler H} {requestId : RequestId} {strict stricter : Prop}

theorem rankOf_congr (same : next.profileOf requestId = scheduler.profileOf requestId) :
    next.rankOf requestId = scheduler.rankOf requestId := by
  unfold rankOf
  rw [same]

variable {request : Request H}

/-- Writing back a request with its rank. -/
theorem rankOf_insert {key : RequestId} {current : Request H}
    (requests : next.requests = scheduler.requests.insert key request)
    (found : scheduler.requests.get? key = some current)
    (rank : request.profile.rank = current.profile.rank) (requestId : RequestId) :
    next.rankOf requestId = scheduler.rankOf requestId := by
  unfold rankOf profileOf
  rw [requests]
  by_cases here : requestId = key
  · rw [here, Dict.get?_insert_self, found]
    exact congrArg some rank
  · rw [Dict.get?_insert_of_ne _ _ (Ne.symm here)]

theorem rankOf_isSome (found : scheduler.requests.get? requestId = some request) :
    (scheduler.rankOf requestId).isSome := by
  unfold rankOf
  rw [profileOf_of_found found]
  rfl

/-- The settings and the queues are the same, and if it matters so are the ranks of the
queued requests. -/
structure KeepsQueues (strict : Prop) (scheduler next : Scheduler H) : Prop where
  config : next.config = scheduler.config
  waiting : next.waiting = scheduler.waiting
  skippedWaiting : next.skippedWaiting = scheduler.skippedWaiting
  ranks : strict → ∀ requestId ∈ scheduler.waiting ++ scheduler.skippedWaiting,
    next.rankOf requestId = scheduler.rankOf requestId

/-- One operation that lets a filed request join a queue, or that keeps the queues. -/
inductive Joins (strict : Prop) : Scheduler H → Scheduler H → Prop
  | keep {scheduler next : Scheduler H} (keeps : scheduler.KeepsQueues strict next) :
      Joins strict scheduler next
  | enqueue {scheduler : Scheduler H} {request : Request H}
      (known : (scheduler.rankOf request.requestId).isSome) :
      Joins strict scheduler (scheduler.enqueueWaitingRequest request)
  | prepend {scheduler : Scheduler H} {requestId : RequestId}
      (known : (scheduler.rankOf requestId).isSome) :
      Joins strict scheduler
        { scheduler with
          waiting := RequestQueue.prependRequest scheduler.config.policy scheduler.lt
            scheduler.waiting requestId }

/-- One operation that removes requests from the queues, or that keeps them. -/
inductive Leaves (strict : Prop) : Scheduler H → Scheduler H → Prop
  | keep {scheduler next : Scheduler H} (keeps : scheduler.KeepsQueues strict next) :
      Leaves strict scheduler next
  | remove (scheduler : Scheduler H) (gone : List RequestId) :
      Leaves strict scheduler (scheduler.removeWaiting gone)

theorem KeepsQueues.mono (keeps : scheduler.KeepsQueues strict next) (weaker : stricter → strict) :
    scheduler.KeepsQueues stricter next :=
  ⟨keeps.config, keeps.waiting, keeps.skippedWaiting, fun holds => keeps.ranks (weaker holds)⟩

theorem Joins.mono (joins : Joins strict scheduler next) (weaker : stricter → strict) :
    Joins stricter scheduler next := by
  cases joins with
  | keep keeps => exact .keep (keeps.mono weaker)
  | enqueue known => exact .enqueue known
  | prepend known => exact .prepend known

/-! ## Requests that join -/

/-- A request is put in front of the waiting ones. -/
theorem joins_of_prepend (middle : Scheduler H) (keeps : scheduler.KeepsQueues strict middle)
    (known : (middle.rankOf requestId).isSome) (config : next.config = middle.config)
    (waiting : next.waiting =
      RequestQueue.prependRequest middle.config.policy middle.lt middle.waiting requestId)
    (skipped : next.skippedWaiting = middle.skippedWaiting)
    (requests : next.requests = middle.requests) : ReflTransGen (Joins strict) scheduler next := by
  refine .tail (.tail (.single (.keep keeps)) (.prepend known)) (.keep ?_)
  refine ⟨config, waiting, skipped, ?_⟩
  intro _ other _
  unfold rankOf profileOf
  rw [requests]

variable {dropStaleOutput : Bool}

theorem preemptRequest_keyed (keyed : scheduler.Keyed)
    (ran : scheduler.preemptRequest requestId dropStaleOutput = .ok next) : next.Keyed := by
  rcases preemptRequest_spec ran with ⟨_, _, _, _, _, _, _, _, _, _, _, rfl⟩
  exact keyed_insert keyed rfl

theorem preemptRequest_joins (keyed : scheduler.Keyed)
    (ran : scheduler.preemptRequest requestId dropStaleOutput = .ok next) :
    ReflTransGen (Joins strict) scheduler next := by
  rcases bind_eq_ok.mp ran with ⟨request, getting, ran⟩
  rcases bind_eq_ok.mp ran with ⟨_, _, ran⟩
  rcases bind_eq_ok.mp ran with ⟨released, releasing, ran⟩
  rcases bind_eq_ok.mp ran with ⟨freed, freeing, ran⟩
  rcases freeRequestBlocks_spec releasing with ⟨manager, deferred, rfl⟩
  rcases freeEncoderCache_spec freeing with ⟨encoder, _, rfl⟩
  cases ran
  have found := getRequest_eq_ok.mp getting
  have key := keyed requestId request found
  rw [← key] at found
  refine joins_of_prepend
    (setRequest
      { scheduler with
        kvCacheManager := manager
        deferredFrees := deferred
        encoderCacheManager := encoder
        servedInputs := scheduler.servedInputs.erase request.requestId }
      (request.preempted dropStaleOutput))
    ⟨rfl, rfl, rfl, ?_⟩ ?_ rfl rfl rfl rfl
  · exact fun _ other _ => rankOf_insert rfl found (by rfl) other
  · rw [rankOf_insert rfl found (by rfl), ← key]
    exact rankOf_isSome found

end Scheduler

namespace SchedulePass

variable {H : Type} [DecidableEq H] [BlockHashing H]

omit [DecidableEq H] [BlockHashing H] in
/-- The running phase lets preempted requests join the waiting ones. -/
theorem RunningMove.joins {strict : Prop} {input : ScheduleInput H}
    {pass next : SchedulePass H} (move : RunningMove input pass next)
    (keyed : pass.scheduler.Keyed) :
    ReflTransGen (Scheduler.Joins strict) pass.scheduler next.scheduler := by
  cases move with
  | allocate manager => exact .single (.keep ⟨rfl, rfl, rfl, fun _ _ _ => rfl⟩)
  | advance => exact .refl
  | encode found ran => exact .single (.keep ⟨rfl, rfl, rfl, fun _ _ _ => rfl⟩)
  | preempt inside ran =>
      rcases preemptOne_spec ran with ⟨removed, scheduler, removing, preempting, rfl⟩
      have first : Scheduler.KeepsQueues strict pass.scheduler removed.scheduler := by
        rcases removeVictim_spec inside removing with ⟨_, _, ⟨_, _, budgets, rfl⟩ | ⟨_, rfl⟩⟩
        · exact ⟨rfl, rfl, rfl, fun _ _ _ => rfl⟩
        · exact ⟨rfl, rfl, rfl, fun _ _ _ => rfl⟩
      have filed : removed.scheduler.Keyed := by
        rcases removeVictim_spec inside removing with ⟨_, _, ⟨_, _, budgets, rfl⟩ | ⟨_, rfl⟩⟩
        · exact keyed
        · exact keyed
      exact (Scheduler.preemptRequest_joins filed preempting).head (.keep first)
  | schedule current found positive ran asked =>
      rcases commitEncoderInputs_spec ran with ⟨manager, budget, _, rfl⟩
      unfold commitSpecTokens
      split
      · exact .single (.keep ⟨rfl, rfl, rfl, fun _ _ _ => rfl⟩)
      · exact .single (.keep ⟨rfl, rfl, rfl,
          fun _ other _ => Scheduler.rankOf_insert rfl found (by rfl) other⟩)

end SchedulePass

namespace UpdatePass

variable {H : Type} [DecidableEq H] [BlockHashing H]

variable {pass : UpdatePass H}

section

omit [DecidableEq H] [BlockHashing H]

variable {requestId : RequestId}

/-- If nobody was noted as stopped while queued, the stopped request was running. -/
theorem running_of_noteStopped {status : RequestStatus}
    (none : (pass.noteStopped requestId status).stoppedPreemptedReqs = []) :
    status = .running ∧ pass.stoppedPreemptedReqs = [] := by
  unfold noteStopped at none
  split at none
  · rename_i running
    exact ⟨running, none⟩
  · have member : requestId ∈ pass.stoppedPreemptedReqs.insert requestId := List.mem_insert_self
    rw [show pass.stoppedPreemptedReqs.insert requestId = [] from none] at member
    contradiction

/-- A running request is not queued. -/
theorem Queued.running_unqueued (queued : pass.Queued False) (none : pass.stoppedPreemptedReqs = [])
    {request : Request H} (found : pass.scheduler.requests.get? requestId = some request)
    (running : request.status = .running) :
    requestId ∉ pass.scheduler.waiting ++ pass.scheduler.skippedWaiting := by
  intro member
  have idle : requestId ∈ (pass.scheduler.idle []).filter (· ∉ pass.stoppedPreemptedReqs) := by
    rw [none]
    unfold Scheduler.idle
    simpa using member
  rcases queued.placed.idleFit requestId idle with ⟨status, stored, fits⟩
  rw [statusIn_of_found found] at stored
  cases stored
  exact fits.1 running

end

variable {output : SchedulerOutput} {runner : ModelRunnerOutput}
  {failedKvLoadReqIds : List RequestId}

/-- A round of an update lets at most the request of the round join, whose rank may
change.  If it stops nobody who is queued, the queued ones keep their ranks. -/
theorem processScheduled_joins {next : UpdatePass H} {entry : RequestId × Nat}
    (queued : pass.Queued False)
    (ran : processScheduled output runner failedKvLoadReqIds pass entry = .ok next) :
    ReflTransGen (Scheduler.Joins (next.stoppedPreemptedReqs = [])) pass.scheduler
        next.scheduler ∧ (next.stoppedPreemptedReqs = [] → pass.stoppedPreemptedReqs = []) := by
  cases missing : pass.scheduler.requests.get? entry.1 with
  | none =>
      rcases bind_eq_ok.mp ran with ⟨_, _, ran⟩
      rw [missing] at ran
      cases ran
      exact ⟨.refl, id⟩
  | some request =>
      have key := queued.keyed _ _ missing
      have found := missing
      rw [← key] at found
      have drained : Scheduler.KeepsQueues (next.stoppedPreemptedReqs = []) pass.scheduler
          (pass.scheduler.setRequest (request.drained entry.2).2) :=
        ⟨rfl, rfl, rfl, fun _ other _ => Scheduler.rankOf_insert rfl found (by rfl) other⟩
      rcases processScheduled_spec missing ran with rfl | ⟨_, _, _, delivering⟩
      · exact ⟨.single (.keep drained), id⟩
      · rcases deliver_spec delivering with
          ⟨delivered, encoder, served, manager, updated, newTokenIds, stopped, outputs, _, same, _,
            _, profile, outcome⟩
        have updatedKey : updated.requestId = entry.1 :=
          (congrArg Profile.requestId profile).trans
            ((congrArg Profile.requestId same).trans key)
        have status : delivered.status = request.status := congrArg Profile.status same
        have ownRank : updated.profile.rank = request.profile.rank := by
          rw [profile, same]
          rfl
        have deliveredKey : delivered.requestId = entry.1 :=
          (congrArg Profile.requestId same).trans key
        -- Whoever writes the request back three times keeps all ranks.
        have ranks : ∀ state : Scheduler H,
            state.requests = ((pass.scheduler.requests.insert (request.drained entry.2).2.requestId
              (request.drained entry.2).2).insert delivered.requestId delivered).insert
                updated.requestId updated →
            ∀ other, state.rankOf other = pass.scheduler.rankOf other := by
          intro state requests other
          unfold Scheduler.rankOf Scheduler.profileOf
          rw [requests, updatedKey, deliveredKey,
            show (request.drained entry.2).2.requestId = entry.1 from key]
          by_cases here : other = entry.1
          · rw [here, Dict.get?_insert_self, missing]
            exact congrArg some ownRank
          · rw [Dict.get?_insert_of_ne _ _ (Ne.symm here), Dict.get?_insert_of_ne _ _ (Ne.symm here),
              Dict.get?_insert_of_ne _ _ (Ne.symm here)]
        rcases outcome with ⟨_, _, rfl⟩ | ⟨rfl, _, scheduler, outcome, rfl⟩
        · exact ⟨.single (.keep ⟨rfl, rfl, rfl, fun _ other _ => ranks _ rfl other⟩), id⟩
        · rw [noteStopped_scheduler]
          refine ⟨?_, fun none => (running_of_noteStopped none).2⟩
          change ReflTransGen _ pass.scheduler scheduler
          have unqueued : (noteStopped { pass with scheduler := scheduler, outputs := outputs }
              updated.requestId delivered.status).stoppedPreemptedReqs = [] →
              updated.requestId ∉ pass.scheduler.waiting ++ pass.scheduler.skippedWaiting := by
            intro none
            rcases running_of_noteStopped none with ⟨running, none⟩
            rw [updatedKey]
            exact queued.running_unqueued none missing (status.symm.trans running)
          rcases outcome with gone | ⟨_, requeued⟩
          · have after : ∀ other, other ≠ updated.requestId →
                scheduler.rankOf other = pass.scheduler.rankOf other := fun other differ =>
              (Scheduler.rankOf_congr (congrArg (Option.map Request.profile)
                (gone.others differ))).trans (ranks _ rfl other)
            rcases gone with ⟨_, _, _, _, _, _, _, requests, _, _, _, rfl⟩
            refine .single (.keep ⟨rfl, rfl, rfl, ?_⟩)
            exact fun none other member =>
              after other fun here => unqueued none (here ▸ member)
          · rcases requeued with ⟨continued, count, continues, _, again⟩
            have continuedKey : continued.requestId = updated.requestId :=
              congrArg Profile.requestId continues.2
            rw [again] at unqueued ⊢
            refine .tail ?_ (.enqueue (Scheduler.rankOf_isSome (Dict.get?_insert_self ..)))
            refine .single (.keep ⟨rfl, rfl, rfl, ?_⟩)
            intro none other member
            have differ : continued.requestId ≠ other :=
              fun here => unqueued none (continuedKey.symm.trans here ▸ member)
            exact (Scheduler.rankOf_congr (congrArg (Option.map Request.profile)
              (Dict.get?_insert_of_ne _ _ differ))).trans (ranks _ rfl other)

/-- The main loop of an update lets requests join. -/
theorem updateLoop_joins {scheduler : Scheduler H} (queued : scheduler.Queued False [] [])
    (ran : output.numScheduledTokens.entries.foldlM
      (processScheduled output runner failedKvLoadReqIds) { scheduler := scheduler } =
        .ok pass) :
    pass.Queued False ∧
      ReflTransGen (Scheduler.Joins (pass.stoppedPreemptedReqs = [])) scheduler pass.scheduler := by
  have looped := foldlM_entries_rule UpdatePass.view (fun _ _ _ _ => True)
    (fun state : UpdatePass H => state.Queued False ∧
      ReflTransGen (Scheduler.Joins (state.stoppedPreemptedReqs = [])) scheduler state.scheduler)
    output.numScheduledTokens ?_ ⟨⟨queued.keyed, queued.running_nodup, ?_⟩, .refl⟩ ran
  · exact looped.1
  · rintro entry member state after ⟨queued, joins⟩ untouched round
    have frame := processScheduled_frame queued.keyed round
    have fresh := congrArg (Prod.snd ∘ Prod.snd) untouched
    rcases processScheduled_joins queued round with ⟨joined, fewer⟩
    refine ⟨⟨queued.round (of_decide_eq_false fresh) nofun round, ?_⟩, trivial, frame.2.2⟩
    exact (ReflTransGen.mono (fun _ _ move => move.mono fewer) _ _ joins).trans joined
  · have all : ∀ requestIds : List RequestId, requestIds.filter (· ∉ ([] : List RequestId)) =
        requestIds := by
      intro requestIds
      simp
    rw [all, all]
    exact queued.placed

end UpdatePass

/-! ## Requests that leave -/

namespace Scheduler

variable {H : Type}

variable {scheduler next : Scheduler H} {strict : Prop}

variable {request : Request H}

/-- A finished request that is in no queue leaves the queues and their ranks. -/
theorem Finished.keepsQueues (finished : scheduler.Finished request next)
    (unqueued : request.requestId ∉ scheduler.waiting ++ scheduler.skippedWaiting) :
    scheduler.KeepsQueues True next := by
  have others : ∀ other, other ≠ request.requestId →
      next.requests.get? other = scheduler.requests.get? other := fun _ => finished.others
  rcases finished with ⟨_, _, _, _, _, _, _, requests, _, _, _, rfl⟩
  refine ⟨rfl, rfl, rfl, ?_⟩
  intro _ other member
  exact rankOf_congr (congrArg (Option.map Request.profile)
    (others other fun here => unqueued (here ▸ member)))

variable {connectorDelays : RequestId → Bool} {output : SchedulerOutput}
  {runner : ModelRunnerOutput} {outputs : List EngineCoreOutput}

theorem finishRequests_leaves {requestIds : Option (List RequestId)}
    {finishedStatus : RequestStatus} (queued : scheduler.Queued False [] [])
    (ran : scheduler.finishRequests requestIds finishedStatus connectorDelays = .ok next) :
    ReflTransGen (Leaves True) scheduler next := by
  rcases finishRequests_spec queued.keyed ran with ⟨gone, _, _, present, finishing⟩
  have outside := (queued.detached present).2
  have left : ReflTransGen (Leaves True) scheduler (scheduler.detached gone) := by
    refine .tail ?_ (.remove _ _)
    exact .single (.keep ⟨rfl, rfl, rfl, fun _ _ _ => rfl⟩)
  have finished := finishAll_rule
    (fun rest (state : Scheduler H) => ReflTransGen (Leaves True) scheduler state ∧
      ∀ request ∈ rest, request.requestId ∉ state.idle [])
    ?_ ⟨left, fun request member => (outside request member).2⟩ finishing
  · exact finished.1
  · rintro request rest state after ⟨chain, outside⟩ finished
    have here := outside request List.mem_cons_self
    unfold idle at here
    rw [List.append_nil] at here
    have keeps := finished.keepsQueues here
    refine ⟨chain.tail (.keep keeps), ?_⟩
    intro other member
    unfold idle
    rw [keeps.waiting, keeps.skippedWaiting]
    exact outside other (.tail _ member)

theorem updateFromKvXferFinished_leaves {output : KVConnectorOutput}
    (queued : scheduler.Queued False [] [])
    (ran : scheduler.updateFromKvXferFinished output = .ok next) :
    ReflTransGen (Leaves True) scheduler next := by
  have kept := updateFromKvXferFinished_spec
    (fun state => state.Queued False [] [] ∧ ReflTransGen (Leaves True) scheduler state)
    ?_ ?_ (fun _ kept => kept.1.keyed) ⟨queued, .refl⟩ ran
  · exact kept.2
  · rintro state received ⟨queued, chain⟩
    exact ⟨⟨queued.keyed, queued.placed⟩, chain.tail (.keep ⟨rfl, rfl, rfl, fun _ _ _ => rfl⟩)⟩
  · rintro state request manager deferred found finished ⟨queued, chain⟩
    have absent := (queued.unplaced found finished).2
    unfold idle at absent
    rw [List.append_nil] at absent
    refine ⟨queued.erase found finished manager deferred, chain.tail (.keep ⟨rfl, rfl, rfl, ?_⟩)⟩
    intro _ other member
    exact rankOf_congr (congrArg (Option.map Request.profile)
      (Dict.get?_erase_of_ne _ fun here => absent (here ▸ member)))

/-- After the stopped requests the failed ones leave, and nobody else. -/
theorem finishUpdate_leaves {pass : UpdatePass H} {failedKvLoadReqIds : List RequestId}
    (queued : pass.Queued False)
    (ran : finishUpdate pass runner failedKvLoadReqIds = .ok (outputs, next)) :
    ReflTransGen (Leaves True)
      (removeWaiting
        { pass.scheduler with
          running := removeAll pass.scheduler.running pass.stoppedRunningReqs }
        pass.stoppedPreemptedReqs) next := by
  have removed := removeStopped_queued queued
  rcases bind_eq_ok.mp ran with ⟨finished, finishing, ran⟩
  generalize removeWaiting _ _ = cleared at removed finishing ⊢
  have cleaned : Queued False { cleared with grammarCompileErrorReqs := [] } [] [] :=
    ⟨removed.keyed, removed.placed⟩
  have first : Leaves True cleared { cleared with grammarCompileErrorReqs := [] } :=
    .keep ⟨rfl, rfl, rfl, fun _ _ _ => rfl⟩
  have afterErrors : finished.Queued False [] [] ∧ ReflTransGen (Leaves True) cleared finished := by
    split at finishing
    · cases finishing
      exact ⟨cleaned, .single first⟩
    · exact ⟨cleaned.finishRequests finishing, (finishRequests_leaves cleaned finishing).head first⟩
  split at ran
  · rcases bind_eq_ok.mp ran with ⟨transferred, transferring, ran⟩
    cases ran
    exact afterErrors.2.trans (updateFromKvXferFinished_leaves afterErrors.1 transferring)
  · cases ran
    exact afterErrors.2

variable [DecidableEq H] [BlockHashing H]

/-- An update lets requests join, and then others leave: first those that were stopped
while queued. -/
theorem updateFromOutput_moves (queued : scheduler.Queued False [] [])
    (ran : scheduler.updateFromOutput output runner = .ok (outputs, next)) :
    ∃ (joined : Scheduler H) (gone : List RequestId),
      ReflTransGen (Joins (gone = [])) scheduler joined ∧
      (joined.removeWaiting gone).Queued False [] [] ∧
      ReflTransGen (Leaves True) (joined.removeWaiting gone) next := by
  rcases bind_eq_ok.mp ran with ⟨⟨failed, begun⟩, beginning, ran⟩
  rcases bind_eq_ok.mp ran with ⟨pass, looping, finishing⟩
  have started : begun.Queued False [] [] ∧
      scheduler.KeepsQueues (pass.stoppedPreemptedReqs = []) begun := by
    rcases beginUpdate_spec queued.keyed beginning with ⟨same, requests, _, _, _, _, rfl⟩
    refine ⟨⟨queued.keyed.of_profiles fun requestId profile found => ?_, ?_⟩, rfl, rfl, rfl, ?_⟩
    · rw [same] at found
      exact ⟨profile, found, rfl⟩
    · exact queued.placed.congr (statusIn_of_profiles same)
    · exact fun _ other _ => rankOf_congr (same other)
  rcases UpdatePass.updateLoop_joins started.1 looping with ⟨queuedAfter, joins⟩
  refine ⟨_, _, ?_, removeStopped_queued queuedAfter, finishUpdate_leaves queuedAfter finishing⟩
  exact (joins.head (.keep started.2)).tail (.keep ⟨rfl, rfl, rfl, fun _ _ _ => rfl⟩)

/-! ## The other calls -/

omit [DecidableEq H] in
/-- A new request joins, a closed session leaves; the rank of a session changes only if
it was paused. -/
theorem addRequest_moves (queued : scheduler.Queued False [] [])
    (ran : scheduler.addRequest request connectorDelays = .ok next) :
    ReflTransGen (Joins (∀ existing, scheduler.requests.get? request.requestId = some existing →
        existing.status ≠ .waitingForStreamingReq)) scheduler next ∨
      ReflTransGen (Leaves True) scheduler next := by
  rcases addRequest_spec ran with
    ⟨existing, found, ⟨queue, rfl⟩ | ⟨status, update, updating⟩ | finishing⟩ |
    ⟨absent, added, key, profile, rfl⟩
  · left
    rw [← queued.keyed _ _ found] at found
    exact .single (.keep ⟨rfl, rfl, rfl, fun _ other _ =>
      rankOf_insert rfl found (by rfl) other⟩)
  · left
    rcases updateRequestAsSession_spec updating with ⟨continued, count, _, continues, _, _, rfl⟩
    exact .single (.keep ⟨rfl, rfl, rfl, fun fresh => absurd status (fresh existing found)⟩)
  · exact .inr (finishRequests_leaves queued finishing)
  · left
    refine .tail ?_ (.enqueue (rankOf_isSome (Dict.get?_insert_self ..)))
    refine .single (.keep ⟨rfl, rfl, rfl, ?_⟩)
    intro _ other member
    have differ : added.requestId ≠ other := by
      rintro rfl
      rw [key] at member
      have idle : request.requestId ∈ scheduler.idle [] := by
        unfold idle
        rw [List.append_nil]
        exact member
      rcases queued.placed.idleFit _ idle with ⟨value, stored, _⟩
      unfold statusIn at stored
      rw [absent] at stored
      contradiction
    exact rankOf_congr (congrArg (Option.map Request.profile)
      (Dict.get?_insert_of_ne _ _ differ))

section

omit [DecidableEq H] [BlockHashing H]

theorem SameProfiles.joins (same : scheduler.SameProfiles next) : Joins strict scheduler next := by
  rcases same with ⟨profiles, requests, rfl⟩
  exact .keep ⟨rfl, rfl, rfl, fun _ other _ => rankOf_congr (profiles other)⟩

theorem resetPrefixCache_joins {resetRunningRequests successful : Bool} (keyed : scheduler.Keyed)
    (ran : scheduler.resetPrefixCache resetRunningRequests = .ok (successful, next)) :
    ReflTransGen (Joins strict) scheduler next := by
  have kept := resetPrefixCache_rule
    (fun state => state.Keyed ∧ ReflTransGen (Joins strict) scheduler state) ?_ ?_
    ⟨keyed, .refl⟩ ran
  · exact kept.2
  · rintro state after requestId ⟨filed, joins⟩ _ preempting
    refine ⟨preemptRequest_keyed (by exact filed) preempting, ?_⟩
    have removed : Joins strict state { state with running := state.running.dropLast } :=
      .keep ⟨rfl, rfl, rfl, fun _ _ _ => rfl⟩
    exact (joins.tail removed).trans (preemptRequest_joins (by exact filed) preempting)
  · rintro state manager ⟨filed, joins⟩
    exact ⟨filed, joins.tail (.keep ⟨rfl, rfl, rfl, fun _ _ _ => rfl⟩)⟩

/-! ## The settings -/

theorem Joins.config (joins : Joins strict scheduler next) : next.config = scheduler.config := by
  cases joins with
  | keep keeps => exact keeps.config
  | enqueue known =>
      unfold enqueueWaitingRequest
      split <;> rfl
  | prepend known => rfl

theorem Leaves.config (leaves : Leaves strict scheduler next) : next.config = scheduler.config := by
  cases leaves with
  | keep keeps => exact keeps.config
  | remove gone =>
      unfold removeWaiting
      split <;> rfl

theorem joins_config (chain : ReflTransGen (Joins strict) scheduler next) :
    next.config = scheduler.config :=
  chain_keeps (fun state : Scheduler H => state.config = scheduler.config)
    (fun move same => move.config.trans same) chain rfl

theorem leaves_config (chain : ReflTransGen (Leaves strict) scheduler next) :
    next.config = scheduler.config :=
  chain_keeps (fun state : Scheduler H => state.config = scheduler.config)
    (fun move same => move.config.trans same) chain rfl

end

theorem schedule_config {input : ScheduleInput H} (keyed : scheduler.Keyed)
    (ran : scheduler.schedule input = .ok (output, next)) : next.config = scheduler.config := by
  rcases schedule_moves keyed ran with
    ⟨ranPass, recorded, waited, _, runningMoves, recording, _, waitingMoves, filed, finishing⟩
  have recedes := chain_keeps
    (fun pass : SchedulePass H => pass.scheduler.config = scheduler.config ∧
      pass.scheduler.running ⊆ scheduler.running)
    SchedulePass.RunningMove.recedes runningMoves ⟨rfl, List.Subset.refl _⟩
  have recordedConfig : recorded.scheduler.config = scheduler.config := by
    rcases SchedulePass.recordScheduledLoras_spec recording with ⟨_, rfl⟩ | ⟨_, _, _, rfl⟩
    · exact recedes.1
    · exact recedes.1
  have waitedConfig : waited.scheduler.config = scheduler.config := by
    rcases waitingMoves with rfl | ⟨_, _, last, moves, skipped, bound, _, rfl⟩
    · exact recordedConfig
    · have kept : last.scheduler.config = scheduler.config :=
        chain_keeps (fun pass : SchedulePass H => pass.scheduler.config = scheduler.config)
          (fun move config => (SchedulePass.WaitingMove.frame move).config.trans config) moves
          recordedConfig
      exact kept
  rcases SchedulePass.finish_spec filed finishing with ⟨⟨_, _, _, requests, _, rfl⟩, _⟩
  exact waitedConfig

end Scheduler

namespace Engine

variable {H : Type} [DecidableEq H] [BlockHashing H]

/-- No call changes the settings. -/
theorem execute_config {engine next : Engine H} {call : Call H}
    (queued : engine.scheduler.Queued False [] []) (ran : engine.execute call = .ok next) :
    next.scheduler.config = engine.scheduler.config := by
  cases executes_of_execute ran with
  | addRequest adding =>
      rcases Scheduler.addRequest_moves queued adding with chain | chain
      · exact Scheduler.joins_config chain
      · exact Scheduler.leaves_config chain
  | schedule scheduling =>
      exact Scheduler.schedule_config queued.keyed scheduling
  | updateFromOutput step rest flying updating =>
      exact (Scheduler.updateFromOutput_recedes queued.keyed updating).config
  | finishRequests finishing =>
      exact Scheduler.leaves_config (Scheduler.finishRequests_leaves queued finishing)
  | updateDraftTokenIds entry =>
      have same : engine.scheduler.SameProfiles (engine.scheduler.updateDraftTokenIds entry) :=
        Scheduler.updateDraftTokenIds_spec queued.keyed
      exact same.recedes.config
  | resetPrefixCache resetting =>
      exact (Scheduler.resetPrefixCache_recedes resetting).config
  | setPauseState pauseState =>
      rfl

end Engine

end Vllm.Core
