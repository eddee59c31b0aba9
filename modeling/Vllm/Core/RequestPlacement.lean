import Vllm.Core.SchedulerRuns
import Vllm.Library.Placement

/-!
# Where requests stand

Every request in a queue of the scheduler is there once and with a fitting status:
the running ones in `running`, other unfinished ones in `waiting` or
`skipped_waiting`.  Every call keeps this.  Whether every unfinished request is in
a queue is the strict form, which one path of `update_from_output` breaks.
-/

namespace Vllm.Core

open Vllm.Library Relation

/-- The statuses of the requests in `running`. -/
def IsRunning (status : RequestStatus) : Prop :=
  status = .running

/-- The statuses of the requests in the other queues. -/
def IsQueued (status : RequestStatus) : Prop :=
  status ≠ .running ∧ status.isFinished = false

theorem isRunning_not_isQueued (status : RequestStatus) (running : IsRunning status) :
    ¬IsQueued status :=
  fun queued => queued.1 running

/-- A finished request belongs into no queue. -/
theorem not_placed_of_finished {status : RequestStatus} (finished : status.isFinished) :
    ¬IsRunning status ∧ ¬IsQueued status := by
  constructor
  · rintro rfl
    contradiction
  · intro queued
    rw [queued.2] at finished
    contradiction

section Statuses

variable {H : Type}

/-- The status of the request that is filed under an id. -/
def statusIn (requests : Dict RequestId (Request H)) (requestId : RequestId) :
    Option RequestStatus :=
  (requests.get? requestId).map Request.status

variable {requests : Dict RequestId (Request H)}

variable {request : Request H} {scheduler next : Scheduler H}

variable {requestId : RequestId}

theorem statusIn_of_found (found : requests.get? requestId = some request) :
    statusIn requests requestId = some request.status := by
  unfold statusIn
  rw [found]
  rfl

theorem statusIn_insert_self (requests : Dict RequestId (Request H)) (requestId : RequestId)
    (request : Request H) :
    statusIn (requests.insert requestId request) requestId = some request.status :=
  statusIn_of_found (Dict.get?_insert_self ..)

theorem statusIn_insert_of_ne (requests : Dict RequestId (Request H)) (requestId : RequestId)
    (request : Request H) (other : RequestId) (differ : other ≠ requestId) :
    statusIn (requests.insert requestId request) other = statusIn requests other := by
  unfold statusIn
  rw [Dict.get?_insert_of_ne _ _ (Ne.symm differ)]

/-- Writing back a request with its old status. -/
theorem statusIn_insert_same {current : Request H} (found : requests.get? requestId = some current)
    (same : request.status = current.status) (other : RequestId) :
    statusIn (requests.insert requestId request) other = statusIn requests other := by
  by_cases here : other = requestId
  · rw [here, statusIn_insert_self, statusIn_of_found found, same]
  · exact statusIn_insert_of_ne _ _ _ _ here

theorem statusIn_eq_profileOf (scheduler : Scheduler H) (requestId : RequestId) :
    statusIn scheduler.requests requestId = (scheduler.profileOf requestId).map Profile.status := by
  unfold statusIn Scheduler.profileOf
  rw [Option.map_map]
  rfl

theorem statusIn_of_profiles
    (same : ∀ requestId, next.profileOf requestId = scheduler.profileOf requestId)
    (requestId : RequestId) :
    statusIn next.requests requestId = statusIn scheduler.requests requestId := by
  rw [statusIn_eq_profileOf, same, statusIn_eq_profileOf]

/-- If the object of a finished request is still there, it has its status. -/
theorem Scheduler.Finished.statusIn (finished : scheduler.Finished request next)
    (status : RequestStatus) (stays : statusIn next.requests request.requestId = some status) :
    status = request.status := by
  rcases finished with ⟨_, _, _, _, _, _, _, requests, _, own, _, rfl⟩
  rcases own with gone | ⟨left, stored, profile⟩
  · unfold Core.statusIn at stays
    rw [gone] at stays
    contradiction
  · rw [statusIn_of_found stored] at stays
    cases stays
    exact congrArg Profile.status profile

end Statuses

namespace Scheduler

variable {H : Type}

/-- The queues next to `running`, with what the waiting phase has set aside. -/
def idle (scheduler : Scheduler H) (aside : List RequestId) : List RequestId :=
  scheduler.waiting ++ scheduler.skippedWaiting ++ aside

/-- The requests stand in the queues that fit their statuses. -/
structure Queued (strict : Prop) (scheduler : Scheduler H) (aside loose : List RequestId) :
    Prop where
  keyed : scheduler.Keyed
  placed : Placed IsRunning IsQueued strict (statusIn scheduler.requests) scheduler.running
    (scheduler.idle aside) loose

variable {strict : Prop} {scheduler next : Scheduler H} {aside aside' loose : List RequestId}

theorem Queued.running_nodup (queued : scheduler.Queued strict aside loose) :
    scheduler.running.Nodup :=
  queued.placed.distinct.of_append_left

variable {queue : WaitingQueue} {rest : List RequestId}

/-- Popping a queue takes one entry out of the idle ones. -/
theorem idle_setQueue {first : RequestId} (same : (first :: rest).Perm (scheduler.queue queue))
    (aside : List RequestId) :
    (first :: (scheduler.setQueue queue rest).idle aside).Perm (scheduler.idle aside) := by
  cases queue with
  | waiting => exact (same.append_right scheduler.skippedWaiting).append_right aside
  | skipped =>
      have moved : (first :: (scheduler.waiting ++ rest)).Perm
          (scheduler.waiting ++ scheduler.skippedWaiting) :=
        List.perm_middle.symm.trans (same.append_left scheduler.waiting)
      exact moved.append_right aside

variable {requestId : RequestId}

theorem mem_idle_of_head (head : (scheduler.queue queue).head? = some requestId)
    (aside : List RequestId) :
    requestId ∈ scheduler.idle aside := by
  have member := List.mem_of_head? head
  cases queue with
  | waiting => exact List.mem_append_left _ (List.mem_append_left _ member)
  | skipped => exact List.mem_append_left _ (List.mem_append_right _ member)

/-- An entry that is set aside stays among the idle ones. -/
theorem idle_aside (same : aside'.Perm (requestId :: aside)) :
    (scheduler.idle aside').Perm (requestId :: scheduler.idle aside) :=
  (same.append_left _).trans List.perm_middle

/-! ## Preemption -/

/-- A preempted request goes from `running` to `waiting`. -/
theorem Queued.preempt {dropStaleOutput : Bool} (queued : scheduler.Queued strict aside loose)
    (removed : scheduler.running.Perm (requestId :: rest))
    (ran : Scheduler.preemptRequest { scheduler with running := rest } requestId
      dropStaleOutput = .ok next) : next.Queued strict aside loose := by
  rcases preemptRequest_spec ran with
    ⟨request, _, _, _, waiting, _, _, found, _, _, enqueued, rfl⟩
  have key := queued.keyed requestId request found
  rw [key]
  constructor
  · exact keyed_insert queued.keyed key
  · rcases (queued.placed.perm removed.symm (.refl _)).detachActive with
      ⟨free, notActive, notIdle⟩
    have joined := free.attachIdle isRunning_not_isQueued notActive notIdle
      (statusIn_insert_of_ne scheduler.requests requestId (request.preempted dropStaleOutput))
      (statusIn_insert_self ..) ⟨nofun, rfl⟩
    refine joined.perm (.refl _) ?_
    exact (enqueued.append_right scheduler.skippedWaiting).append_right aside

end Scheduler

/-! ## The moves of `schedule` -/

namespace SchedulePass

variable {H : Type} [DecidableEq H] [BlockHashing H] {strict : Prop} {loose : List RequestId}

section

omit [DecidableEq H] [BlockHashing H]

/-- The queues of a pass, with what it has set aside. -/
def Queued (strict : Prop) (pass : SchedulePass H) (loose : List RequestId) : Prop :=
  pass.scheduler.Queued strict pass.stepSkippedWaiting loose

theorem RunningMove.queued {input : ScheduleInput H} {pass next : SchedulePass H}
    (move : RunningMove input pass next) (queued : pass.Queued strict loose) :
    next.Queued strict loose := by
  cases move with
  | allocate manager => exact ⟨queued.keyed, queued.placed⟩
  | advance => exact queued
  | encode found ran => exact ⟨queued.keyed, queued.placed⟩
  | preempt inside ran =>
      rcases preemptOne_spec ran with ⟨removed, scheduler, removing, preempting, rfl⟩
      rcases removeVictim_spec inside removing with ⟨index, atIndex, shape⟩
      have front := perm_cons_eraseIdx atIndex
      rcases shape with ⟨_, _, budgets, rfl⟩ | ⟨_, rfl⟩
      · exact Scheduler.Queued.preempt queued front preempting
      · exact Scheduler.Queued.preempt queued front preempting
  | schedule current found positive ran asked =>
      rcases commitEncoderInputs_spec ran with ⟨manager, budget, _, rfl⟩
      unfold commitSpecTokens
      split
      · exact ⟨queued.keyed, queued.placed⟩
      · constructor
        · exact Scheduler.keyed_insert queued.keyed rfl
        · exact queued.placed.congr (statusIn_insert_same found rfl)

end

theorem WaitingMove.queued {input : ScheduleInput H} {pass next : SchedulePass H}
    (move : WaitingMove input pass next) (queued : pass.Queued strict loose) :
    next.Queued strict loose := by
  cases move with
  | promote head found ran =>
      have member := Scheduler.mem_idle_of_head head pass.stepSkippedWaiting
      rcases Scheduler.tryPromoteBlockedWaitingRequest_spec ran with
        ⟨errors, rfl⟩ | ⟨manager, finished, failed, status, numComputedTokens, schedulable, rfl⟩
      · exact ⟨queued.keyed, queued.placed⟩
      · constructor
        · exact Scheduler.keyed_insert queued.keyed rfl
        · rcases queued.placed.idleFit _ member with ⟨value, before, wasQueued⟩
          refine queued.placed.restate isRunning_not_isQueued (statusIn_insert_of_ne _ _ _)
            before wasQueued (statusIn_insert_self ..) ?_
          rcases schedulable with rfl | rfl
          · exact ⟨nofun, rfl⟩
          · exact ⟨nofun, rfl⟩
  | look found ran =>
      rcases Scheduler.lookupPrefix_spec ran with rfl | ⟨manager, boundary, rfl⟩
      · exact queued
      · constructor
        · exact Scheduler.keyed_insert queued.keyed rfl
        · exact queued.placed.congr (statusIn_insert_same found rfl)
  | encode found ran => exact ⟨queued.keyed, queued.placed⟩
  | allocate manager => exact ⟨queued.keyed, queued.placed⟩
  | release found ran =>
      rcases Scheduler.freeEncoderCache_spec ran with ⟨manager, _, rfl⟩
      exact ⟨queued.keyed, queued.placed⟩
  | skip head ran =>
      rename_i requestId queue
      rcases skipWaiting_spec ran with ⟨first, rest, aside, atHead, same, asideSame, rfl⟩
      obtain rfl := Option.some.inj (head.symm.trans atHead)
      have moved := (Scheduler.idle_aside asideSame).trans
        (Scheduler.idle_setQueue same pass.stepSkippedWaiting)
      have placed := queued.placed.perm (.refl _) moved
      constructor
      · cases queue <;> exact queued.keyed
      · cases queue <;> exact placed
  | load head found ran =>
      rename_i request queue lookup
      rcases loadRemote_spec ran with ⟨first, rest, aside, atHead, same, asideSame, rfl⟩
      obtain rfl := Option.some.inj (head.symm.trans atHead)
      have moved := (Scheduler.idle_aside asideSame).trans
        (Scheduler.idle_setQueue same pass.stepSkippedWaiting)
      have member := Scheduler.mem_idle_of_head head pass.stepSkippedWaiting
      rcases queued.placed.idleFit _ member with ⟨value, before, wasQueued⟩
      have placed := (queued.placed.restate isRunning_not_isQueued
        (statusIn_insert_of_ne pass.scheduler.requests request.requestId
          { request with
            status := .waitingForRemoteKvs
            numComputedTokens := lookup.numComputedTokens })
        before wasQueued (statusIn_insert_self ..) ⟨nofun, rfl⟩).perm (.refl _) moved
      constructor
      · exact Scheduler.keyed_insert queued.keyed rfl
      · cases queue <;> exact placed
  | admitWaiting head found unpreempted fits positive ran asked =>
      rename_i request queue lookup admission
      rcases admit_spec ran with
        ⟨first, rest, manager, inflight, budgets, new, resumed, syncLoads, atHead, same, _, _, rfl⟩
      obtain rfl := Option.some.inj (head.symm.trans atHead)
      have front := Scheduler.idle_setQueue same pass.stepSkippedWaiting
      rcases (queued.placed.perm (.refl _) front).detachIdle with ⟨free, notActive, notIdle⟩
      have placed := (free.attachActive isRunning_not_isQueued notActive notIdle
        (statusIn_insert_of_ne pass.scheduler.requests request.requestId
          { request with
            status := .running
            numComputedTokens := lookup.numComputedTokens })
        (statusIn_insert_self ..) rfl).perm (List.perm_append_singleton ..) (.refl _)
      constructor
      · exact Scheduler.keyed_insert queued.keyed rfl
      · cases queue <;> exact placed

end SchedulePass

namespace Scheduler

variable {H : Type} [DecidableEq H] [BlockHashing H] {strict : Prop}

/-- `schedule` keeps the requests in their places. -/
theorem Queued.schedule {scheduler next : Scheduler H} {input : ScheduleInput H}
    {output : SchedulerOutput} (queued : scheduler.Queued strict [] [])
    (ran : scheduler.schedule input = .ok (output, next)) : next.Queued strict [] [] := by
  rcases schedule_moves queued.keyed ran with
    ⟨ranPass, recorded, waited, _, runningMoves, recording, _, waitingMoves, filed, finishing⟩
  have started : (scheduler.startPass input).Queued strict [] := ⟨queued.keyed, queued.placed⟩
  have afterRunning : ranPass.Queued strict [] :=
    chain_keeps (fun pass => pass.Queued strict []) SchedulePass.RunningMove.queued runningMoves
      started
  have aside := chain_keeps (fun pass => pass.stepSkippedWaiting = [])
    (fun move none => move.frame.2.1.trans none) runningMoves rfl
  have afterRecording : recorded.Queued strict [] ∧ recorded.stepSkippedWaiting = [] := by
    rcases SchedulePass.recordScheduledLoras_spec recording with ⟨_, rfl⟩ | ⟨_, _, _, rfl⟩
    · exact ⟨afterRunning, aside⟩
    · exact ⟨afterRunning, aside⟩
  have afterWaiting : waited.scheduler.Queued strict [] [] := by
    rcases waitingMoves with rfl | ⟨_, _, last, moves, skipped, bound, same, rfl⟩
    · have placed := afterRecording.1
      unfold SchedulePass.Queued at placed
      rw [afterRecording.2] at placed
      exact placed
    · have afterLoop : last.Queued strict [] :=
        chain_keeps (fun pass => pass.Queued strict []) SchedulePass.WaitingMove.queued moves
          afterRecording.1
      refine ⟨afterLoop.keyed, afterLoop.placed.perm (.refl _) ?_⟩
      have merged : (last.scheduler.waiting ++ skipped).Perm
          (last.scheduler.waiting ++ last.scheduler.skippedWaiting ++ last.stepSkippedWaiting) := by
        rw [List.append_assoc]
        exact (same.trans List.perm_append_comm).append_left _
      change (last.scheduler.waiting ++ skipped ++ []).Perm _
      rw [List.append_nil]
      exact merged
  rcases SchedulePass.finish_spec filed finishing with
    ⟨⟨_, _, _, requests, _, rfl⟩, _, _, _, _, progress⟩
  constructor
  · refine filed.of_profiles ?_
    intro requestId profile found
    rw [progress] at found
    rcases Option.map_eq_some_iff.mp found with ⟨old, stored, rfl⟩
    exact ⟨old, stored, rfl⟩
  · refine afterWaiting.placed.congr ?_
    intro requestId
    rw [statusIn_eq_profileOf waited.scheduler]
    refine (statusIn_eq_profileOf _ requestId).trans ?_
    rw [progress, Option.map_map]
    rfl

end Scheduler

/-! ## `update_from_output` -/

namespace UpdatePass

variable {H : Type} [DecidableEq H] [BlockHashing H] {strict : Prop}

omit [DecidableEq H] in
/-- The output of the step stops a request that is not running, and its session goes
on. -/
def StopsIdleSession (scheduler : Scheduler H) (output : SchedulerOutput)
    (runner : ModelRunnerOutput) (failedKvLoadReqIds : List RequestId)
    (entry : RequestId × Nat) : Prop :=
  ∃ request, scheduler.requests.get? entry.1 = some request ∧ request.isFinished = false ∧
    request.status ≠ .running ∧ entry.1 ∉ failedKvLoadReqIds ∧
    ¬((request.drained entry.2).1 ∧ request.dropStaleOutput) ∧
    Scheduler.StopsSession scheduler.config runner
      (atDelivery output runner scheduler.config request entry.2)

section

omit [DecidableEq H] [BlockHashing H]

/-- The queues without the requests that were noted as stopped. -/
structure Queued (strict : Prop) (pass : UpdatePass H) : Prop where
  keyed : pass.scheduler.Keyed
  nodup : pass.scheduler.running.Nodup
  placed : Placed IsRunning IsQueued strict (statusIn pass.scheduler.requests)
    (pass.scheduler.running.filter (· ∉ pass.stoppedRunningReqs))
    ((pass.scheduler.idle []).filter (· ∉ pass.stoppedPreemptedReqs)) []

/-- What a round leaves of the statuses and queues: the request goes on, it finishes,
or it is queued again. -/
structure Round (pass next : UpdatePass H) (requestId : RequestId) (status : RequestStatus)
    (requeued : List RequestId) : Prop where
  running : next.scheduler.running = pass.scheduler.running
  idle : (next.scheduler.idle []).Perm (requeued ++ pass.scheduler.idle [])
  others : ∀ other, other ≠ requestId →
    statusIn next.scheduler.requests other = statusIn pass.scheduler.requests other
  stoppedRunning : next.stoppedRunningReqs = (pass.noteStopped requestId status).stoppedRunningReqs
  stoppedPreempted :
    next.stoppedPreemptedReqs = (pass.noteStopped requestId status).stoppedPreemptedReqs

end

variable {pass next : UpdatePass H}

variable {output : SchedulerOutput} {runner : ModelRunnerOutput}
  {failedKvLoadReqIds : List RequestId} {entry : RequestId × Nat}

/-- One round of the main loop on a request that is there. -/
theorem processScheduled_round {request : Request H} (keyed : pass.scheduler.Keyed)
    (found : pass.scheduler.requests.get? entry.1 = some request)
    (ran : processScheduled output runner failedKvLoadReqIds pass entry = .ok next) :
    (next.scheduler.running = pass.scheduler.running ∧
      next.scheduler.idle [] = pass.scheduler.idle [] ∧
      next.stoppedRunningReqs = pass.stoppedRunningReqs ∧
      next.stoppedPreemptedReqs = pass.stoppedPreemptedReqs ∧
      ∀ requestId, statusIn next.scheduler.requests requestId =
        statusIn pass.scheduler.requests requestId) ∨
    (request.isFinished = false ∧ Round pass next entry.1 request.status [] ∧
      ∀ status, statusIn next.scheduler.requests entry.1 = some status → status.isFinished) ∨
    (request.isFinished = false ∧ Round pass next entry.1 request.status [entry.1] ∧
      (∃ status, statusIn next.scheduler.requests entry.1 = some status ∧ IsQueued status) ∧
      (request.status ≠ .running →
        StopsIdleSession pass.scheduler output runner failedKvLoadReqIds entry)) := by
  have others : ∀ other, other ≠ entry.1 →
      statusIn next.scheduler.requests other = statusIn pass.scheduler.requests other := by
    intro other differ
    have same := congrArg Prod.fst ((processScheduled_frame keyed ran).2.2 other differ)
    exact congrArg (Option.map Request.status) same
  have drainedKey : (request.drained entry.2).2.requestId = entry.1 :=
    keyed entry.1 request found
  rcases processScheduled_spec found ran with rfl | ⟨unfinished, loaded, fresh, delivering⟩
  · refine .inl ⟨rfl, rfl, rfl, rfl, ?_⟩
    rw [← drainedKey] at found
    exact statusIn_insert_same found rfl
  · rcases deliver_spec delivering with
      ⟨delivered, encoder, served, manager, updated, newTokenIds, stopped, outputs, rejected, same,
        _, taking, profile, outcome⟩
    have deliveredStatus : delivered.status = request.status := congrArg Profile.status same
    have updatedKey : updated.requestId = entry.1 :=
      (congrArg Profile.requestId profile).trans
        ((congrArg Profile.requestId same).trans drainedKey)
    rw [deliveredStatus] at outcome
    rcases outcome with ⟨_, going, rfl⟩ | ⟨rfl, finished, scheduler, outcome, rfl⟩
    · refine .inl ⟨rfl, rfl, rfl, rfl, ?_⟩
      intro requestId
      by_cases here : requestId = entry.1
      · rw [here, statusIn_of_found found, ← going, ← updatedKey]
        exact statusIn_insert_self ..
      · exact others requestId here
    · rw [updatedKey] at others ⊢
      right
      have stoppedRunning : (noteStopped { pass with scheduler := scheduler, outputs := outputs }
          entry.1 request.status).stoppedRunningReqs =
          (pass.noteStopped entry.1 request.status).stoppedRunningReqs := by
        unfold noteStopped
        split <;> rfl
      have stoppedPreempted : (noteStopped { pass with scheduler := scheduler, outputs := outputs }
          entry.1 request.status).stoppedPreemptedReqs =
          (pass.noteStopped entry.1 request.status).stoppedPreemptedReqs := by
        unfold noteStopped
        split <;> rfl
      rcases outcome with gone | ⟨goesOn, requeued⟩
      · left
        have left := gone.statusIn
        rcases gone with ⟨_, _, _, _, _, _, _, requests, _, _, _, rfl⟩
        refine ⟨unfinished, ⟨?_, ?_, others, stoppedRunning, stoppedPreempted⟩, ?_⟩
        · rw [noteStopped_scheduler]
          rfl
        · rw [noteStopped_scheduler]
          exact .refl _
        · rw [noteStopped_scheduler, ← updatedKey]
          intro status stays
          exact left status stays ▸ finished
      · right
        rcases requeued.shape with ⟨continued, waiting, skipped, count, continues, status, queue, rfl⟩
        refine ⟨unfinished, ⟨?_, ?_, others, stoppedRunning, stoppedPreempted⟩, ?_, ?_⟩
        · rw [noteStopped_scheduler]
          rfl
        · rw [noteStopped_scheduler, ← updatedKey]
          exact queue.append_right []
        · rw [noteStopped_scheduler]
          have id : continued.requestId = entry.1 :=
            (congrArg Profile.requestId continues.2).trans updatedKey
          rw [← id]
          refine ⟨continued.status, statusIn_insert_self .., ?_⟩
          rcases status with waits | streams
          · rw [waits]
            exact ⟨nofun, rfl⟩
          · rw [streams]
            exact ⟨nofun, rfl⟩
        · intro notRunning
          have stops := Scheduler.stopsSession_of_takeOutput taking goesOn
          rw [rejected] at stops
          exact ⟨request, found, unfinished, notRunning, loaded, fresh, stops⟩

section

omit [DecidableEq H] [BlockHashing H]

private theorem filter_insert (requestIds stopped : List RequestId) (requestId : RequestId) :
    requestIds.filter (· ∉ stopped.insert requestId) =
      (requestIds.filter (· ∉ stopped)).filter (· ≠ requestId) := by
  rw [List.filter_filter]
  apply List.filter_congr
  intro other _
  simp [List.mem_insert_iff, not_or]

variable {requestId : RequestId}

private theorem filter_absent {requestIds : List RequestId} (absent : requestId ∉ requestIds) :
    requestIds.filter (· ≠ requestId) = requestIds := by
  rw [List.filter_eq_self]
  intro other member
  exact decide_eq_true fun same => absent (same ▸ member)

/-- Noting a stopped request takes it out of the queues, whichever it is in. -/
theorem Queued.noteStopped (queued : pass.Queued strict) {status : RequestStatus}
    (found : statusIn pass.scheduler.requests requestId = some status) :
    pass.scheduler.running.filter (· ∉ (pass.noteStopped requestId status).stoppedRunningReqs) =
        (pass.scheduler.running.filter (· ∉ pass.stoppedRunningReqs)).filter (· ≠ requestId) ∧
      (pass.scheduler.idle []).filter
          (· ∉ (pass.noteStopped requestId status).stoppedPreemptedReqs) =
        ((pass.scheduler.idle []).filter (· ∉ pass.stoppedPreemptedReqs)).filter
          (· ≠ requestId) := by
  unfold UpdatePass.noteStopped
  split
  · rename_i running
    refine ⟨filter_insert .., (filter_absent ?_).symm⟩
    intro member
    rcases queued.placed.idleFit requestId member with ⟨value, stored, fits⟩
    rw [found] at stored
    cases stored
    exact fits.1 running
  · rename_i notRunning
    refine ⟨(filter_absent ?_).symm, filter_insert ..⟩
    intro member
    rcases queued.placed.activeFit requestId member with ⟨value, stored, fits⟩
    rw [found] at stored
    cases stored
    exact notRunning fits

end

/-- A round of the main loop keeps the requests in their places, unless it stops an
idle session. -/
theorem Queued.round (queued : pass.Queued strict) (fresh : entry.1 ∉ pass.stoppedPreemptedReqs)
    (safe : strict → ¬StopsIdleSession pass.scheduler output runner failedKvLoadReqIds entry)
    (ran : processScheduled output runner failedKvLoadReqIds pass entry = .ok next) :
    next.Queued strict := by
  have filed := (processScheduled_frame queued.keyed ran).1
  cases found : pass.scheduler.requests.get? entry.1 with
  | none =>
      rcases bind_eq_ok.mp ran with ⟨_, _, ran⟩
      rw [found] at ran
      cases ran
      exact queued
  | some request =>
      have status := statusIn_of_found found
      have noted := queued.noteStopped status
      have free := queued.placed.detach entry.1
      have notActive : entry.1 ∉ (pass.scheduler.running.filter
          (· ∉ pass.stoppedRunningReqs)).filter (· ≠ entry.1) := by simp
      have notIdle : entry.1 ∉ ((pass.scheduler.idle []).filter
          (· ∉ pass.stoppedPreemptedReqs)).filter (· ≠ entry.1) := by simp
      rcases processScheduled_round queued.keyed found ran with
        ⟨running, idle, stoppedRunning, stoppedPreempted, statuses⟩ |
        ⟨_, round, finished⟩ | ⟨_, round, ⟨left, stored, fits⟩, idleSession⟩
      · refine ⟨filed, running ▸ queued.nodup, ?_⟩
        rw [running, idle, stoppedRunning, stoppedPreempted]
        exact queued.placed.congr statuses
      · refine ⟨filed, round.running ▸ queued.nodup, ?_⟩
        rw [round.running, round.stoppedRunning, round.stoppedPreempted, noted.1]
        refine (free.settle notActive notIdle round.others ?_).perm (.refl _) ?_
        · intro status stays
          exact (not_placed_of_finished (finished status stays)).imp_right fun idle _ => idle
        · rw [← noted.2]
          exact round.idle.filter _
      · refine ⟨filed, round.running ▸ queued.nodup, ?_⟩
        rw [round.running, round.stoppedRunning, round.stoppedPreempted, noted.1]
        by_cases wasRunning : request.status = .running
        · refine (free.attachIdle isRunning_not_isQueued notActive notIdle round.others stored
            fits).perm (.refl _) ?_
          rw [← noted.2]
          refine (round.idle.filter _).trans ?_
          unfold UpdatePass.noteStopped
          rw [if_pos wasRunning]
          simp [fresh]
        · refine (free.settle notActive notIdle round.others ?_).perm (.refl _) ?_
          · intro status stays
            rw [stored] at stays
            cases stays
            exact ⟨fun active => fits.1 active, fun strict _ =>
              safe strict (idleSession wasRunning)⟩
          · rw [← noted.2]
            refine (round.idle.filter _).trans ?_
            unfold UpdatePass.noteStopped
            rw [if_neg wasRunning]
            simp

end UpdatePass

/-! ## `finish_requests` and the end of an update -/

namespace Scheduler

variable {H : Type} {strict : Prop}

variable {scheduler next : Scheduler H}

/-- The requests to finish have left the queues and are loose. -/
theorem Queued.detached {gone : List (Request H)} (queued : scheduler.Queued strict [] [])
    (present : ∀ request ∈ gone, scheduler.requests.get? request.requestId = some request ∧
      request.isFinished = false) :
    (scheduler.detached gone).Queued strict [] (gone.map Request.requestId) ∧
      (∀ request ∈ gone, request.requestId ∉ (scheduler.detached gone).running ∧
        request.requestId ∉ (scheduler.detached gone).idle []) := by
  rcases scheduler.detached_shape gone with ⟨count, waiting, skipped, removed, shape⟩
  rw [shape]
  have free := queued.placed.detachAll (gone.map Request.requestId)
  rw [List.append_nil] at free
  -- A request of the other kind is not in the queue, so both filters agree.
  have running : scheduler.running.filter (· ∉ gone.map Request.requestId) =
      removeAll scheduler.running ((gone.filter (·.status = .running)).map Request.requestId) := by
    rw [removeAll_perm queued.running_nodup]
    apply List.filter_congr
    intro requestId member
    rw [decide_eq_decide, not_iff_not]
    constructor
    · intro inside
      rcases List.mem_map.mp inside with ⟨request, among, rfl⟩
      rcases queued.placed.activeFit _ member with ⟨status, stored, fits⟩
      rw [statusIn_of_found (present request among).1] at stored
      cases stored
      exact List.mem_map_of_mem (List.mem_filter.mpr ⟨among, decide_eq_true fits⟩)
    · exact fun inside => List.map_subset _ (List.filter_subset_self ..) inside
  have idle : (scheduler.idle []).filter (· ∉ gone.map Request.requestId) =
      (scheduler.idle []).filter
        (· ∉ (gone.filter (·.status ≠ .running)).map Request.requestId) := by
    apply List.filter_congr
    intro requestId member
    rw [decide_eq_decide, not_iff_not]
    constructor
    · intro inside
      rcases List.mem_map.mp inside with ⟨request, among, rfl⟩
      rcases queued.placed.idleFit _ member with ⟨status, stored, fits⟩
      rw [statusIn_of_found (present request among).1] at stored
      cases stored
      exact List.mem_map_of_mem (List.mem_filter.mpr ⟨among, decide_eq_true fits.1⟩)
    · exact fun inside => List.map_subset _ (List.filter_subset_self ..) inside
  have entries : (waiting ++ skipped ++ []).Perm
      ((scheduler.idle []).filter (· ∉ gone.map Request.requestId)) := by
    rw [idle]
    unfold Scheduler.idle
    rw [List.append_nil, List.append_nil]
    exact removed
  rw [running] at free
  constructor
  · exact ⟨queued.keyed, free.perm (.refl _) entries⟩
  · intro request among
    have member : request.requestId ∈ gone.map Request.requestId := List.mem_map_of_mem among
    constructor
    · intro inside
      have outside := (List.mem_filter.mp (running ▸ inside)).2
      exact of_decide_eq_true outside member
    · intro inside
      have outside := (List.mem_filter.mp (entries.subset inside)).2
      exact of_decide_eq_true outside member

theorem Queued.finishRequests {requestIds : Option (List RequestId)}
    {finishedStatus : RequestStatus} {connectorDelays : RequestId → Bool}
    (queued : scheduler.Queued strict [] [])
    (ran : scheduler.finishRequests requestIds finishedStatus connectorDelays = .ok next) :
    next.Queued strict [] [] := by
  rcases finishRequests_spec queued.keyed ran with
    ⟨gone, finishes, distinct, present, finishing⟩
  rcases queued.detached present with ⟨loose, outside⟩
  have finished := finishAll_rule
    (fun rest (state : Scheduler H) =>
      state.Queued strict [] (rest.map Request.requestId) ∧
      (rest.map Request.requestId).Nodup ∧
      ∀ request ∈ rest, request.requestId ∉ state.running ∧
        request.requestId ∉ state.idle [])
    ?_ ⟨loose, distinct, outside⟩ finishing
  · exact finished.1
  · rintro request rest state after ⟨placed, distinct, outside⟩ finished
    have filed := finished.keyed placed.keyed
    have left := finished.statusIn
    rcases finished with ⟨_, _, _, _, _, _, _, requests, _, _, others, rfl⟩
    rw [List.map_cons, List.nodup_cons] at distinct
    have here := outside request List.mem_cons_self
    refine ⟨⟨filed, ?_⟩, distinct.2, fun other member => outside other (.tail _ member)⟩
    refine placed.placed.settle here.1 here.2 ?_ ?_
    · intro other differ
      exact congrArg (Option.map Request.status) (others other differ)
    · intro status stays
      exact (not_placed_of_finished (left status stays ▸ finishes)).imp_right fun idle _ => idle

variable {request : Request H}

/-- A finished request is in no queue. -/
theorem Queued.unplaced (queued : scheduler.Queued strict [] []) {requestId : RequestId}
    (found : scheduler.requests.get? requestId = some request) (finished : request.isFinished) :
    requestId ∉ scheduler.running ∧ requestId ∉ scheduler.idle [] := by
  have status := statusIn_of_found found
  have past := not_placed_of_finished finished
  constructor
  · intro member
    rcases queued.placed.activeFit _ member with ⟨value, stored, fits⟩
    rw [status] at stored
    cases stored
    exact past.1 fits
  · intro member
    rcases queued.placed.idleFit _ member with ⟨value, stored, fits⟩
    rw [status] at stored
    cases stored
    exact past.2 fits

/-- A finished request is deleted. -/
theorem Queued.erase (queued : scheduler.Queued strict [] [])
    (found : scheduler.requests.get? request.requestId = some request)
    (finished : request.isFinished) (manager : KVCacheManager H)
    (deferred : List (Nat × List BlockId)) :
    Queued strict
      { scheduler with
        kvCacheManager := manager
        deferredFrees := deferred
        requests := scheduler.requests.erase request.requestId } [] [] := by
  rcases queued.unplaced found finished with ⟨notRunning, notIdle⟩
  refine ⟨keyed_erase queued.keyed _, ?_⟩
  refine (queued.placed.loosen request.requestId).settle notRunning notIdle ?_ ?_
  · intro other differ
    exact congrArg (Option.map Request.status)
      (Dict.get?_erase_of_ne scheduler.requests (Ne.symm differ))
  · intro value stays
    unfold statusIn at stays
    rw [Dict.get?_erase_self] at stays
    contradiction

theorem Queued.updateFromKvXferFinished {output : KVConnectorOutput}
    (queued : scheduler.Queued strict [] [])
    (ran : scheduler.updateFromKvXferFinished output = .ok next) : next.Queued strict [] [] := by
  refine updateFromKvXferFinished_spec (fun state => state.Queued strict [] []) ?_ ?_
    (fun _ queued => queued.keyed) queued ran
  · intro state received queued
    exact ⟨queued.keyed, queued.placed⟩
  · intro state request manager deferred found finished queued
    exact queued.erase found finished manager deferred

variable [DecidableEq H] [BlockHashing H]

section

omit [DecidableEq H] [BlockHashing H]

variable {pass : UpdatePass H}

/-- Removing the stopped requests restores the queues. -/
theorem removeStopped_queued (queued : pass.Queued strict) :
    Scheduler.Queued strict
      (removeWaiting
        { pass.scheduler with
          running := removeAll pass.scheduler.running pass.stoppedRunningReqs }
        pass.stoppedPreemptedReqs) [] [] := by
  rcases removeWaiting_spec
    { pass.scheduler with
      running := removeAll pass.scheduler.running pass.stoppedRunningReqs }
    pass.stoppedPreemptedReqs with ⟨waiting, skipped, removed, shape⟩
  rw [shape]
  refine ⟨queued.keyed, ?_⟩
  have entries : (waiting ++ skipped ++ []).Perm
      ((pass.scheduler.idle []).filter (· ∉ pass.stoppedPreemptedReqs)) := by
    unfold Scheduler.idle
    rw [List.append_nil, List.append_nil]
    exact removed
  have placed := queued.placed.perm (.refl _) entries
  rw [← removeAll_perm queued.nodup] at placed
  exact placed

theorem finishUpdate_queued {runner : ModelRunnerOutput} {failedKvLoadReqIds : List RequestId}
    {outputs : List EngineCoreOutput} (queued : pass.Queued strict)
    (ran : finishUpdate pass runner failedKvLoadReqIds = .ok (outputs, next)) :
    next.Queued strict [] [] := by
  have removed := removeStopped_queued queued
  rcases bind_eq_ok.mp ran with ⟨finished, finishing, ran⟩
  generalize removeWaiting _ _ = cleared at removed finishing
  have cleaned : Scheduler.Queued strict { cleared with grammarCompileErrorReqs := [] } [] [] :=
    ⟨removed.keyed, removed.placed⟩
  have afterErrors : finished.Queued strict [] [] := by
    split at finishing
    · cases finishing
      exact cleaned
    · exact cleaned.finishRequests finishing
  split at ran
  · rcases bind_eq_ok.mp ran with ⟨transferred, transferring, ran⟩
    cases ran
    exact afterErrors.updateFromKvXferFinished transferring
  · cases ran
    exact afterErrors

end

/-- `update_from_output` keeps the requests in their places, unless it stops an idle
session. -/
theorem Queued.updateFromOutput {output : SchedulerOutput} {runner : ModelRunnerOutput}
    {outputs : List EngineCoreOutput} (queued : scheduler.Queued strict [] [])
    (safe : strict → ∀ failed begun, scheduler.beginUpdate output runner = .ok (failed, begun) →
      ∀ entry ∈ output.numScheduledTokens.entries,
        ¬UpdatePass.StopsIdleSession begun output runner failed entry)
    (ran : scheduler.updateFromOutput output runner = .ok (outputs, next)) :
    next.Queued strict [] [] := by
  rcases bind_eq_ok.mp ran with ⟨⟨failed, begun⟩, beginning, ran⟩
  rcases bind_eq_ok.mp ran with ⟨pass, looping, ran⟩
  have started : begun.Queued strict [] [] := by
    rcases beginUpdate_spec queued.keyed beginning with ⟨same, requests, _, _, _, _, rfl⟩
    refine ⟨queued.keyed.of_profiles fun requestId profile found => ?_, ?_⟩
    · rw [same] at found
      exact ⟨profile, found, rfl⟩
    · exact queued.placed.congr (statusIn_of_profiles same)
  have looped := foldlM_entries_rule UpdatePass.view (fun _ _ _ _ => True)
    (fun pass : UpdatePass H => pass.Queued strict ∧ pass.scheduler.config = begun.config)
    output.numScheduledTokens ?_ ⟨⟨started.keyed, started.running_nodup, ?_⟩, rfl⟩ looping
  · exact finishUpdate_queued looped.1.1 ran
  · rintro entry member state after ⟨queued, settings⟩ untouched round
    have frame := UpdatePass.processScheduled_frame queued.keyed round
    have object := congrArg Prod.fst untouched
    have fresh := congrArg (Prod.snd ∘ Prod.snd) untouched
    refine ⟨⟨queued.round ?_ ?_ round, frame.2.1.trans settings⟩, trivial, frame.2.2⟩
    · exact of_decide_eq_false fresh
    · rintro isStrict ⟨request, found, stops⟩
      rw [settings] at stops
      exact safe isStrict failed begun beginning entry member
        ⟨request, object.symm.trans found, stops⟩
  · have all : ∀ requestIds : List RequestId, requestIds.filter (· ∉ ([] : List RequestId)) =
        requestIds := by
      intro requestIds
      simp
    rw [all, all]
    exact started.placed

/-! ## The other calls -/

omit [DecidableEq H] in
theorem Queued.addRequest {scheduler next : Scheduler H} {request : Request H}
    {connectorDelays : RequestId → Bool} (queued : scheduler.Queued strict [] [])
    (fresh : request.Fresh) (ran : scheduler.addRequest request connectorDelays = .ok next) :
    next.Queued strict [] [] := by
  rcases addRequest_spec ran with
    ⟨existing, found, ⟨queue, rfl⟩ | ⟨status, update, updating⟩ | finishing⟩ |
    ⟨absent, added, id, profile, rfl⟩
  · have key := queued.keyed _ _ found
    rw [← key] at found
    refine ⟨queued.keyed.setRequest _, queued.placed.congr ?_⟩
    exact statusIn_insert_same found rfl
  · have key := queued.keyed _ _ found
    rcases updateRequestAsSession_spec updating with
      ⟨continued, count, waits, continues, _, _, rfl⟩
    have id : continued.requestId = request.requestId :=
      (congrArg Profile.requestId continues.2).trans key
    rw [id]
    refine ⟨keyed_insert queued.keyed id, ?_⟩
    refine queued.placed.restate isRunning_not_isQueued (statusIn_insert_of_ne _ _ _)
      (statusIn_of_found found) ?_ (statusIn_insert_self ..) ?_
    · rw [status]
      exact ⟨nofun, rfl⟩
    · rw [waits]
      exact ⟨nofun, rfl⟩
  · exact queued.finishRequests finishing
  · rcases (scheduler.setRequest added).enqueueWaitingRequest_spec added with
      ⟨waiting, skipped, same, shape⟩
    rw [shape]
    unfold setRequest at same ⊢
    rw [id] at same ⊢
    refine ⟨keyed_insert queued.keyed id, ?_⟩
    have missing : statusIn scheduler.requests request.requestId = none :=
      congrArg (Option.map Request.status) absent
    have entries : (waiting ++ skipped ++ []).Perm (request.requestId :: scheduler.idle []) := by
      unfold Scheduler.idle
      rw [List.append_nil, List.append_nil]
      exact same
    refine ((queued.placed.loosen request.requestId).attachIdle isRunning_not_isQueued ?_ ?_
      (statusIn_insert_of_ne _ _ _) (statusIn_insert_self ..) ?_).perm (.refl _) entries
    · intro member
      rcases queued.placed.activeFit _ member with ⟨value, stored, _⟩
      rw [missing] at stored
      contradiction
    · intro member
      rcases queued.placed.idleFit _ member with ⟨value, stored, _⟩
      rw [missing] at stored
      contradiction
    · rw [show added.status = request.status from congrArg Profile.status profile]
      rcases fresh.status with waits | compiles
      · rw [waits]
        exact ⟨nofun, rfl⟩
      · rw [compiles]
        exact ⟨nofun, rfl⟩

section

omit [DecidableEq H] [BlockHashing H]

theorem Queued.sameProfiles (queued : scheduler.Queued strict [] [])
    (same : scheduler.SameProfiles next) : next.Queued strict [] [] := by
  have filed := same.keyed queued.keyed
  rcases same with ⟨profiles, requests, rfl⟩
  exact ⟨filed, queued.placed.congr (statusIn_of_profiles profiles)⟩

theorem Queued.resetPrefixCache {resetRunningRequests successful : Bool}
    (queued : scheduler.Queued strict [] [])
    (ran : scheduler.resetPrefixCache resetRunningRequests = .ok (successful, next)) :
    next.Queued strict [] [] := by
  refine resetPrefixCache_rule (fun state => state.Queued strict [] []) ?_ ?_ queued ran
  · intro state after requestId queued last preempting
    refine queued.preempt ?_ preempting
    have split := List.dropLast_append_getLast? requestId last
    have moved := List.perm_append_singleton requestId state.running.dropLast
    rw [split] at moved
    exact moved
  · intro state manager queued
    exact ⟨queued.keyed, queued.placed⟩

end

end Scheduler

end Vllm.Core
