import Vllm.Core.PriorityOrder

/-!
# Priority order over runs

Every call keeps the waiting queues in order, so whatever is popped is the smallest
of its queue, as long as no paused session is continued with an arrival time that
moves it past its neighbours in the heap.
-/

namespace Vllm.Core

open Vllm.Library Relation

namespace Scheduler

variable {H : Type} [DecidableEq H] [BlockHashing H]

/-- A state of the waiting loop of `schedule`. -/
def InLoop (scheduler : Scheduler H) (input : ScheduleInput H) (pass : SchedulePass H) : Prop :=
  ∃ ranPass recorded, scheduler.runningPhase input = .ok ranPass ∧
    ranPass.recordScheduledLoras = .ok recorded ∧ recorded.preemptedReqs = [] ∧
    recorded.scheduler.pauseState = .unpaused ∧
    ReflTransGen (SchedulePass.LoopRound input) recorded pass

/-- Whenever the waiting loop pops a request, no request that stays in its queue is
smaller. -/
def PopsSmallest (scheduler : Scheduler H) : Prop :=
  ∀ input pass queue next, scheduler.InLoop input pass →
    pass.scheduler.selectWaitingQueueForScheduling = some queue →
    pass.waitingPhaseOpen = true → pass.scheduleWaitingRequest input queue = .ok (false, next) →
    ∃ requestId, (pass.scheduler.queue queue).head? = some requestId ∧
      (requestId :: next.scheduler.queue queue).Perm (pass.scheduler.queue queue) ∧
      ∀ other ∈ next.scheduler.queue queue, next.scheduler.lt other requestId = false

variable {scheduler next : Scheduler H}

variable {input : ScheduleInput H} {request existing : Request H}
  {connectorDelays : RequestId → Bool}

/-- When the waiting phase begins, the queues are in order. -/
theorem HeapOrdered.runningPhase {ranPass recorded : SchedulePass H}
    (ordered : scheduler.HeapOrdered) (keyed : scheduler.Keyed)
    (phase : scheduler.runningPhase input = .ok ranPass)
    (recording : ranPass.recordScheduledLoras = .ok recorded) :
    recorded.scheduler.HeapOrdered ∧ recorded.scheduler.Keyed := by
  have moves := SchedulePass.scheduleRunningRequests_moves (by exact keyed) phase
  have joined := chain_keeps
    (fun pass : SchedulePass H => pass.scheduler.Keyed ∧
      ReflTransGen (Joins True) scheduler pass.scheduler)
    (fun move kept => ⟨move.keyed kept.1, kept.2.trans (move.joins kept.1)⟩)
    moves ⟨keyed, .single (.keep ⟨rfl, rfl, rfl, fun _ _ _ => rfl⟩)⟩
  have heaps := chain_keeps HeapOrdered Joins.heapOrdered joined.2 ordered
  rcases SchedulePass.recordScheduledLoras_spec recording with ⟨_, rfl⟩ | ⟨_, _, _, rfl⟩
  · exact ⟨heaps, joined.1⟩
  · exact ⟨heaps, joined.1⟩

theorem HeapOrdered.popsSmallest (ordered : scheduler.HeapOrdered) (keyed : scheduler.Keyed) :
    scheduler.PopsSmallest := by
  rintro input pass queue next ⟨ranPass, recorded, phase, recording, unpreempted, _, rounds⟩
    _ _ round
  rcases ordered.runningPhase keyed phase recording with ⟨heaps, filed⟩
  have looped := chain_keeps SchedulePass.LoopOrdered
    (fun step kept => (SchedulePass.round_moves kept step.choose_spec.2.2).1) rounds
    ⟨filed, unpreempted, heaps⟩
  exact looped.pops round

omit [DecidableEq H] [BlockHashing H] in
theorem rankOf_of_progress {requestId : RequestId} {count : Nat}
    (progress : next.profileOf requestId =
      (scheduler.profileOf requestId).map (·.progressed count)) :
    next.rankOf requestId = scheduler.rankOf requestId := by
  unfold rankOf
  rw [progress, Option.map_map]
  rfl

/-- `schedule` keeps the queues in order. -/
theorem HeapOrdered.schedule {output : SchedulerOutput} (ordered : scheduler.HeapOrdered)
    (queued : scheduler.Queued False [] []) (ran : scheduler.schedule input = .ok (output, next)) :
    next.HeapOrdered := by
  have placed := queued.schedule ran
  rcases bind_eq_ok.mp ran with ⟨ranPass, phase, ran⟩
  rcases bind_eq_ok.mp ran with ⟨recorded, recording, ran⟩
  rcases bind_eq_ok.mp ran with ⟨waited, waiting, finishing⟩
  rcases ordered.runningPhase queued.keyed phase recording with ⟨heaps, filed⟩
  unfold SchedulePass.waitingPhase at waiting
  split at waiting
  · rename_i entered
    rcases bind_eq_ok.mp waiting with ⟨last, looping, waiting⟩
    cases waiting
    have moves := SchedulePass.scheduleWaitingRequests_moves filed entered.1 looping
    have lastHeaps := chain_keeps (fun pass : SchedulePass H => pass.scheduler.HeapOrdered)
      SchedulePass.WaitingMove.heapOrdered moves heaps
    have lastKeyed := (chain_keeps (fun pass => pass.scheduler.Keyed ∧ pass.preemptedReqs = [])
      SchedulePass.WaitingMove.keyed moves ⟨filed, entered.1⟩).1
    rcases SchedulePass.finish_spec (by exact lastKeyed) finishing with
      ⟨⟨_, _, _, requests, _, rfl⟩, _, _, _, _, progress⟩
    have ranks : ∀ requestId, rankOf _ requestId = last.scheduler.rankOf requestId :=
      fun requestId => rankOf_of_progress (progress requestId)
    -- What was set aside is among what the next state has queued.
    have knownAside : ∀ requestId ∈ last.stepSkippedWaiting,
        (last.scheduler.rankOf requestId).isSome := by
      intro requestId member
      rw [← ranks]
      apply known_of_queued placed
      apply List.mem_append_left
      apply List.mem_append_right
      exact (RequestQueue.prependRequests_perm ..).mem_iff.mpr (List.mem_append_left _ member)
    have rejoined : HeapOrdered
        { last.scheduler with
          skippedWaiting := RequestQueue.prependRequests last.scheduler.config.policy
            last.scheduler.lt last.scheduler.skippedWaiting last.stepSkippedWaiting } := by
      have knownSkipped := fun requestId member =>
        lastHeaps.known requestId (List.mem_append_right last.scheduler.waiting member)
      refine ⟨lastHeaps.policy, ?_, lastHeaps.waiting, ?_⟩
      · intro requestId member
        rcases List.mem_append.mp member with inside | inside
        · exact lastHeaps.known requestId (List.mem_append_left _ inside)
        · rcases List.mem_append.mp ((RequestQueue.prependRequests_perm ..).mem_iff.mp inside) with
            aside | skipped
          · exact knownAside requestId aside
          · exact knownSkipped requestId skipped
      · unfold RequestQueue.prependRequests
        rw [lastHeaps.policy]
        apply Heap.pushAll_heaped (lt_ranked _) knownSkipped ?_ lastHeaps.skippedWaiting
        intro requestId member
        exact knownAside requestId ((Heap.drain_perm _ (Nat.le_refl _)).mem_iff.mp member)
    exact rejoined.of_same rfl rfl rfl ranks
  · cases waiting
    rcases SchedulePass.finish_spec filed finishing with
      ⟨⟨_, _, _, requests, _, rfl⟩, _, _, _, _, progress⟩
    exact heaps.of_same rfl rfl rfl fun requestId => rankOf_of_progress (progress requestId)

/-! ## A paused session that goes on -/

section

omit [DecidableEq H] [BlockHashing H]

/-- The ranks after the update of a session. -/
def renewedRank (scheduler : Scheduler H) (request existing : Request H)
    (requestId : RequestId) : Option (Int × Int × RequestId) :=
  if requestId = request.requestId then
    some (existing.priority, request.arrivalTime, request.requestId)
  else scheduler.rankOf requestId

/-- With its new arrival time the session fits between its parent and its children. -/
def FitsInPlace (scheduler : Scheduler H) (request existing : Request H) : Prop :=
  ∀ queue child above below rank other, 0 < child →
    (scheduler.queue queue)[(child - 1) / 2]? = some above →
    (scheduler.queue queue)[child]? = some below →
    (above = request.requestId ∨ below = request.requestId) →
    scheduler.renewedRank request existing above = some rank →
    scheduler.renewedRank request existing below = some other → rankLt other rank = false

end

omit [DecidableEq H] in
/-- A paused session is updated with the arrival time of the request, or closed. -/
theorem addRequest_resumes (found : scheduler.requests.get? request.requestId = some existing)
    (paused : existing.status = .waitingForStreamingReq)
    (ran : scheduler.addRequest request connectorDelays = .ok next) :
    (∃ update, StreamingUpdate.fromRequest request = some update ∧
      scheduler.updateRequestAsSession existing update = .ok next) ∨
    scheduler.finishRequests (some [request.requestId]) .finishedAborted connectorDelays =
      .ok next := by
  unfold addRequest at ran
  rw [found] at ran
  dsimp only at ran
  rw [if_neg (not_not.mpr paused)] at ran
  split at ran
  · rename_i update given
    exact .inl ⟨update, given, ran⟩
  · exact .inr ran

omit [DecidableEq H] in
/-- A session that fits in its place leaves the queues in order. -/
theorem HeapOrdered.resume (ordered : scheduler.HeapOrdered) (queued : scheduler.Queued False [] [])
    (found : scheduler.requests.get? request.requestId = some existing)
    (paused : existing.status = .waitingForStreamingReq)
    (fits : StreamingUpdate.fromRequest request ≠ none → scheduler.FitsInPlace request existing)
    (ran : scheduler.addRequest request connectorDelays = .ok next) : next.HeapOrdered := by
  rcases addRequest_resumes found paused ran with ⟨update, given, updating⟩ | finishing
  · have fits := fits (by rw [given]; nofun)
    have key := queued.keyed _ _ found
    rcases updateRequestAsSession_spec updating with
      ⟨continued, count, _, continues, arrival, _, rfl⟩
    have given : update.arrivalTime = request.arrivalTime := by
      unfold StreamingUpdate.fromRequest at given
      split at given
      · cases given
        rfl
      · contradiction
    have sameKey : continued.requestId = request.requestId :=
      (congrArg Profile.requestId continues.2).trans key
    have samePriority : continued.priority = existing.priority :=
      congrArg Profile.priority continues.2
    have ranks : ∀ requestId, rankOf
        { scheduler with
          requests := scheduler.requests.insert continued.requestId continued
          numWaitingForStreamingInput := count } requestId =
        scheduler.renewedRank request existing requestId := by
      intro requestId
      unfold renewedRank
      split
      · rename_i here
        rw [here, ← sameKey]
        refine (congrArg (fun stored => (Option.map Request.profile stored).map Profile.rank)
          (Dict.get?_insert_self scheduler.requests continued.requestId continued)).trans ?_
        change some (continued.priority, continued.arrivalTime, continued.requestId) = _
        rw [samePriority, arrival, given]
      · rename_i differ
        exact rankOf_congr (congrArg (Option.map Request.profile)
          (Dict.get?_insert_of_ne _ _ fun here => differ (here.symm.trans sameKey)))
    have heaps : ∀ queue, Heap.Heaped scheduler.lt 0 (scheduler.queue queue) →
        Heap.Heaped
          (lt { scheduler with
            requests := scheduler.requests.insert continued.requestId continued
            numWaitingForStreamingInput := count }) 0 (scheduler.queue queue) := by
      intro queue heaped child positive behind above below atAbove atBelow
      rw [lt_eq, ranks, ranks]
      split
      · rename_i other rank hasOther hasRank
        by_cases touched : above = request.requestId ∨ below = request.requestId
        · exact fits queue child above below rank other positive atAbove atBelow touched hasRank
            hasOther
        · rw [not_or] at touched
          have ordered := heaped child positive behind above below atAbove atBelow
          unfold renewedRank at hasOther hasRank
          rw [if_neg touched.1] at hasRank
          rw [if_neg touched.2] at hasOther
          rw [lt_eq_rankLt hasOther hasRank] at ordered
          exact ordered
      · rfl
    refine ⟨ordered.policy, ?_, heaps .waiting ordered.waiting,
      heaps .skipped ordered.skippedWaiting⟩
    intro requestId member
    rw [ranks]
    unfold renewedRank
    split
    · rfl
    · exact ordered.known requestId member
  · exact chain_keeps HeapOrdered Leaves.heapOrdered (finishRequests_leaves queued finishing)
      ordered

end Scheduler

namespace Engine

variable {H : Type} [DecidableEq H] [BlockHashing H]

omit [DecidableEq H] in
/-- A paused session is continued only with an arrival time with which it fits in its
place. -/
def KeepsPlaces (engine : Engine H) : Call H → Prop
  | .addRequest request _ => ∀ existing,
      engine.scheduler.requests.get? request.requestId = some existing →
      existing.status = .waitingForStreamingReq →
      StreamingUpdate.fromRequest request ≠ none →
      engine.scheduler.FitsInPlace request existing
  | _ => True

variable {call : Call H}

/-- A call keeps the queues in order. -/
theorem execute_heapOrdered {engine next : Engine H} (queued : engine.scheduler.Queued False [] [])
    (ordered : engine.scheduler.HeapOrdered) (keeps : engine.KeepsPlaces call)
    (ran : engine.execute call = .ok next) :
    next.scheduler.HeapOrdered := by
  have joined : ∀ {state : Scheduler H},
      ReflTransGen (Scheduler.Joins True) engine.scheduler state → state.HeapOrdered :=
    fun chain => chain_keeps Scheduler.HeapOrdered Scheduler.Joins.heapOrdered chain ordered
  have left : ∀ {state : Scheduler H},
      ReflTransGen (Scheduler.Leaves True) engine.scheduler state → state.HeapOrdered :=
    fun chain => chain_keeps Scheduler.HeapOrdered Scheduler.Leaves.heapOrdered chain ordered
  cases executes_of_execute ran with
  | @addRequest request _ _ adding =>
      by_cases paused : ∃ existing,
          engine.scheduler.requests.get? request.requestId = some existing ∧
          existing.status = .waitingForStreamingReq
      · rcases paused with ⟨existing, found, paused⟩
        exact ordered.resume queued found paused (keeps existing found paused) adding
      · have unpaused : ∀ existing,
            engine.scheduler.requests.get? request.requestId = some existing →
            existing.status ≠ .waitingForStreamingReq :=
          fun existing found paused' => paused ⟨existing, found, paused'⟩
        rcases Scheduler.addRequest_moves queued adding with chain | chain
        · exact joined (ReflTransGen.mono (fun _ _ move => move.mono fun _ => unpaused) _ _ chain)
        · exact left chain
  | schedule scheduling =>
      exact ordered.schedule queued scheduling
  | updateFromOutput step rest flying updating =>
      rcases Scheduler.updateFromOutput_moves queued updating with
        ⟨state, gone, joins, placed, leaves⟩
      have policy : state.config.policy = .priority := by
        rw [Scheduler.joins_config joins]
        exact ordered.policy
      have first : (state.removeWaiting gone).HeapOrdered := by
        apply Scheduler.removeWaiting_heapOrdered policy
        · intro requestId member
          have known := Scheduler.known_of_queued placed requestId
            (List.mem_append_left _ member)
          rcases Scheduler.removeWaiting_spec state gone with ⟨_, _, _, shape⟩
          rw [shape] at known
          exact known
        · intro none
          exact joined (ReflTransGen.mono (fun _ _ move => move.mono fun _ => none) _ _ joins)
      exact chain_keeps Scheduler.HeapOrdered Scheduler.Leaves.heapOrdered leaves first
  | finishRequests finishing =>
      exact left (Scheduler.finishRequests_leaves queued finishing)
  | updateDraftTokenIds entry =>
      have same : engine.scheduler.SameProfiles (engine.scheduler.updateDraftTokenIds entry) :=
        Scheduler.updateDraftTokenIds_spec queued.keyed
      exact joined (.single same.joins)
  | resetPrefixCache resetting =>
      exact joined (Scheduler.resetPrefixCache_joins queued.keyed resetting)
  | setPauseState pauseState =>
      exact ordered.of_same rfl rfl rfl fun _ => rfl

/-- In every run under the PRIORITY policy in which paused sessions keep their places,
`schedule` pops the smallest request of a queue. -/
theorem reachable_popsSmallest {engine : Engine H} (reached : Reachable (system KeepsPlaces) engine)
    (policy : engine.scheduler.config.policy = .priority) : engine.scheduler.PopsSmallest := by
  have kept := reachable_rule
    (fun engine : Engine H => engine.scheduler.Queued False [] [] ∧
      (engine.scheduler.config.policy = .priority → engine.scheduler.HeapOrdered))
    (fun config manager encoderCacheSize => by
      refine ⟨init_queued False config manager encoderCacheSize, fun policy => ⟨policy, ?_, ?_, ?_⟩⟩
      · exact fun _ member => absurd member List.not_mem_nil
      · exact Heap.heaped_of_short (Nat.zero_le _)
      · exact Heap.heaped_of_short (Nat.zero_le _))
    (fun engine call next kept allowed keeps ran => by
      refine ⟨execute_queued kept.1 allowed nofun ran, fun policy => ?_⟩
      rw [execute_config kept.1 ran] at policy
      exact execute_heapOrdered kept.1 (kept.2 policy) keeps ran)
    reached
  exact (kept.2 policy).popsSmallest kept.1.keyed

/-- A check that implies `KeepsPlaces`. -/
def keepsPlaces (engine : Engine H) : Call H → Bool
  | .addRequest request _ =>
      (engine.scheduler.requests.get? request.requestId).all fun existing =>
        [WaitingQueue.waiting, .skipped].all fun queue =>
          (List.range (engine.scheduler.queue queue).length).all fun child =>
            decide (child = 0) ||
            match (engine.scheduler.queue queue)[(child - 1) / 2]?,
              (engine.scheduler.queue queue)[child]? with
            | some above, some below =>
                match engine.scheduler.renewedRank request existing above,
                  engine.scheduler.renewedRank request existing below with
                | some rank, some other => !rankLt other rank
                | _, _ => true
            | _, _ => true
  | _ => true

omit [DecidableEq H] [BlockHashing H] in
theorem keepsPlaces_sound {engine : Engine H} (keeps : engine.keepsPlaces call = true) :
    engine.KeepsPlaces call := by
  cases call with
  | addRequest request connectorDelays =>
      intro existing found _ _ queue child above below rank other positive atAbove atBelow _
        hasRank hasOther
      simp only [keepsPlaces, found, Option.all_some, List.all_eq_true] at keeps
      have both : queue ∈ [WaitingQueue.waiting, .skipped] := by
        cases queue <;> decide
      have bound := (List.getElem?_eq_some_iff.mp atBelow).1
      have checked := keeps queue both child (List.mem_range.mpr bound)
      rw [atAbove, atBelow] at checked
      dsimp only at checked
      rw [hasRank, hasOther, decide_eq_false (Nat.ne_of_gt positive), Bool.false_or] at checked
      simpa using checked
  | schedule | updateFromOutput | finishRequests | updateDraftTokenIds | resetPrefixCache
  | setPauseState => trivial

/-- One input of a session, with its arrival time. -/
def sessionInput (requestId : RequestId) (arrivalTime : Int) : Call SymbolicHash :=
  .addRequest
    { requestId := requestId
      arrivalTime := arrivalTime
      promptTokenIds := some [1]
      allTokenIds := [1]
      numPromptTokens := 1
      maxTokens := 2
      samplingParams := some { maxTokens := 2, eosTokenId := some 9 }
      resumable := true }
    fun _ => false

def byPriority : SchedulerConfig where
  policy := .priority
  maxNumRunningReqs := 8
  maxNumScheduledTokens := 64
  maxNumBatchedTokens := 64
  maxModelLen := 100
  blockSize := 4
  cacheBlockSize := 4
  hashBlockSize := 4

/-- Two sessions whose first inputs are done. -/
def pausedSessions : List (Call SymbolicHash) :=
  [sessionInput "early" 1, sessionInput "late" 2, .schedule {},
    .updateFromOutput { sampledTokenIds := fun _ => [9] }]

/-- The later session goes on, behind the earlier one. -/
theorem reachable_popsSmallest_sessions :
    ∃ engine : Engine SymbolicHash, engine.scheduler.skippedWaiting = ["early", "late"] ∧
      (engine.scheduler.requests.get? "late").map Request.arrivalTime = some 5 ∧
      engine.scheduler.PopsSmallest := by
  have computed : (replayCalls keepsPlaces byPriority 10 0
      (pausedSessions ++ [sessionInput "late" 5])).map (fun engine => decide (
        engine.scheduler.config.policy = .priority ∧
        engine.scheduler.skippedWaiting = ["early", "late"] ∧
        (engine.scheduler.requests.get? "late").map Request.arrivalTime = some 5)) =
      some true := by
    decide +kernel
  rcases Option.map_eq_some_iff.mp computed with ⟨engine, replayed, shown⟩
  have facts := of_decide_eq_true shown
  exact ⟨engine, facts.2.1, facts.2.2, reachable_popsSmallest
    (replayCalls_reachable (fun _ _ => keepsPlaces_sound) replayed) facts.1⟩

/-- The earlier session goes on with a later arrival time than the other one has, and is
popped in front of it all the same. -/
theorem resumed_session_jumps :
    ¬∀ engine : Engine SymbolicHash, Reachable (system fun _ _ => True) engine →
      engine.scheduler.config.policy = .priority → engine.scheduler.PopsSmallest := by
  intro smallest
  have computed : (replayCalls (fun _ _ => true) byPriority 10 0
      (pausedSessions ++ [sessionInput "early" 10])).map (fun engine =>
        decide (engine.scheduler.config.policy = .priority) &&
        (engine.scheduler.runningPhase {}).toOption.any fun ranPass =>
          ranPass.recordScheduledLoras.toOption.any fun recorded =>
            decide (recorded.preemptedReqs = [] ∧ recorded.scheduler.pauseState = .unpaused ∧
              recorded.scheduler.selectWaitingQueueForScheduling = some .skipped ∧
              recorded.waitingPhaseOpen = true ∧
              (recorded.scheduler.queue .skipped).head? = some "early") &&
            (recorded.scheduleWaitingRequest {} .skipped).toOption.any fun round =>
              decide (round.1 = false ∧ round.2.scheduler.queue .skipped = ["late"] ∧
                round.2.scheduler.lt "late" "early" = true)) =
      some true := by
    decide +kernel
  rcases Option.map_eq_some_iff.mp computed with ⟨engine, replayed, shown⟩
  rcases Bool.and_eq_true_iff.mp shown with ⟨policy, shown⟩
  rcases (Option.any_eq_true ..).mp shown with ⟨ranPass, phase, shown⟩
  rcases (Option.any_eq_true ..).mp shown with ⟨recorded, recording, shown⟩
  rcases Bool.and_eq_true_iff.mp shown with ⟨state, shown⟩
  rcases (Option.any_eq_true ..).mp shown with ⟨⟨stop, next⟩, round, shown⟩
  rcases of_decide_eq_true state with ⟨unpreempted, unpaused, selected, isOpen, head⟩
  rcases of_decide_eq_true shown with ⟨goesOn, rest, less⟩
  dsimp only at goesOn
  rw [goesOn] at round
  have reached : Reachable (system fun _ _ => True) engine :=
    replayCalls_reachable (fun _ _ _ => trivial) replayed
  rcases smallest engine reached (of_decide_eq_true policy) {} recorded .skipped next
      ⟨ranPass, recorded, toOption_eq_some.mp phase, toOption_eq_some.mp recording, unpreempted,
        unpaused, .refl⟩
      selected isOpen (toOption_eq_some.mp round) with ⟨requestId, first, _, least⟩
  cases head.symm.trans first
  have notLess := least "late" (by rw [rest]; decide)
  rw [show next.scheduler.lt "late" "early" = true from less] at notLess
  exact absurd notLess (by decide)

end Engine

end Vllm.Core
