import Vllm.Core.QueueMoves
import Vllm.Core.ScheduleRounds
import Vllm.Library.HeapOrder

/-!
# The order of the priority queues

Under the PRIORITY policy the waiting queues are heaps of requests whose ranks other
operations can change.  Every call keeps their order, except that a paused session
which is continued gets a new arrival time where it stands in its queue.
-/

namespace Vllm.Core

open Vllm.Library Relation

/-- `__lt__` on ranks. -/
def rankLt (first second : Int × Int × RequestId) : Bool :=
  if first.1 ≠ second.1 then first.1 < second.1
  else if first.2.1 ≠ second.2.1 then first.2.1 < second.2.1
  else first.2.2 < second.2.2

variable {first second : Int × Int × RequestId}

theorem rankLt_asymm (less : rankLt first second = true) : rankLt second first = false := by
  unfold rankLt at less ⊢
  split_ifs at less ⊢ with differ same
  all_goals simp only [decide_eq_true_eq, decide_eq_false_iff_not] at less ⊢
  all_goals first | omega | exact String.lt_asymm less

theorem rankLt_trans {third : Int × Int × RequestId} (one : rankLt second first = false)
    (two : rankLt third second = false) :
    rankLt third first = false := by
  rcases first with ⟨priority, arrival, requestId⟩
  unfold rankLt at one two ⊢
  dsimp only at one two ⊢
  split_ifs at one two ⊢
  all_goals simp only [decide_eq_false_iff_not] at one two ⊢
  all_goals first | omega | exact String.le_trans one two

namespace Scheduler

variable {H : Type}

/-- The comparison of two queued requests looks at their ranks. -/
theorem lt_eq (scheduler : Scheduler H) (first second : RequestId) :
    scheduler.lt first second =
      match scheduler.rankOf first, scheduler.rankOf second with
      | some rank, some other => rankLt rank other
      | _, _ => false := by
  unfold lt rankOf profileOf
  cases scheduler.requests.get? first with
  | none => rfl
  | some request =>
      cases scheduler.requests.get? second with
      | none => rfl
      | some another => rfl

variable {scheduler next : Scheduler H}

variable {first second : RequestId}

theorem lt_eq_rankLt {rank other : Int × Int × RequestId}
    (here : scheduler.rankOf first = some rank) (there : scheduler.rankOf second = some other) :
    scheduler.lt first second = rankLt rank other := by
  rw [lt_eq, here, there]

theorem lt_congr (one : next.rankOf first = scheduler.rankOf first)
    (two : next.rankOf second = scheduler.rankOf second) :
    next.lt first second = scheduler.lt first second := by
  rw [lt_eq, lt_eq, one, two]

/-- Known requests are ranked. -/
theorem lt_ranked (scheduler : Scheduler H) :
    Heap.Ranked scheduler.lt fun requestId => (scheduler.rankOf requestId).isSome := by
  constructor
  · intro first second one two less
    rcases Option.isSome_iff_exists.mp one with ⟨rank, here⟩
    rcases Option.isSome_iff_exists.mp two with ⟨other, there⟩
    rw [lt_eq_rankLt here there] at less
    rw [lt_eq_rankLt there here]
    exact rankLt_asymm less
  · intro first second third one two three below above
    rcases Option.isSome_iff_exists.mp one with ⟨rank, here⟩
    rcases Option.isSome_iff_exists.mp two with ⟨other, there⟩
    rcases Option.isSome_iff_exists.mp three with ⟨last, end_⟩
    rw [lt_eq_rankLt there here] at below
    rw [lt_eq_rankLt end_ there] at above
    rw [lt_eq_rankLt end_ here]
    exact rankLt_trans below above

/-- Both queues are heaps of filed requests. -/
structure HeapOrdered (scheduler : Scheduler H) : Prop where
  policy : scheduler.config.policy = .priority
  known : ∀ requestId ∈ scheduler.waiting ++ scheduler.skippedWaiting,
    (scheduler.rankOf requestId).isSome
  waiting : Heap.Heaped scheduler.lt 0 scheduler.waiting
  skippedWaiting : Heap.Heaped scheduler.lt 0 scheduler.skippedWaiting

theorem KeepsQueues.heapOrdered (keeps : scheduler.KeepsQueues True next)
    (ordered : scheduler.HeapOrdered) : next.HeapOrdered := by
  have ranks := keeps.ranks trivial
  have agree : ∀ queue : List RequestId,
      (∀ requestId ∈ queue, requestId ∈ scheduler.waiting ++ scheduler.skippedWaiting) →
      ∀ first ∈ queue, ∀ second ∈ queue, next.lt first second = scheduler.lt first second :=
    fun queue within first one second two =>
      lt_congr (ranks first (within first one)) (ranks second (within second two))
  refine ⟨keeps.config ▸ ordered.policy, ?_, ?_, ?_⟩
  · rw [keeps.waiting, keeps.skippedWaiting]
    intro requestId member
    rw [ranks requestId member]
    exact ordered.known requestId member
  · rw [keeps.waiting]
    exact ordered.waiting.congr (agree _ fun _ => List.mem_append_left _)
  · rw [keeps.skippedWaiting]
    exact ordered.skippedWaiting.congr (agree _ fun _ => List.mem_append_right _)

/-- A filed request joins a queue in order. -/
theorem Joins.heapOrdered (joins : Joins True scheduler next) (ordered : scheduler.HeapOrdered) :
    next.HeapOrdered := by
  have ranked := scheduler.lt_ranked
  have knownWaiting := fun requestId member =>
    ordered.known requestId (List.mem_append_left scheduler.skippedWaiting member)
  have knownSkipped := fun requestId member =>
    ordered.known requestId (List.mem_append_right scheduler.waiting member)
  cases joins with
  | keep keeps => exact keeps.heapOrdered ordered
  | enqueue known =>
      unfold enqueueWaitingRequest RequestQueue.addRequest
      rw [ordered.policy]
      split
      · refine ⟨ordered.policy, ?_, ordered.waiting,
          Heap.push_heaped ranked knownSkipped known ordered.skippedWaiting⟩
        intro requestId member
        rcases List.mem_append.mp member with inside | inside
        · exact knownWaiting requestId inside
        · rcases List.mem_cons.mp ((Heap.push_perm ..).mem_iff.mp inside) with rfl | earlier
          · exact known
          · exact knownSkipped requestId earlier
      · refine ⟨ordered.policy, ?_, Heap.push_heaped ranked knownWaiting known ordered.waiting,
          ordered.skippedWaiting⟩
        intro requestId member
        rcases List.mem_append.mp member with inside | inside
        · rcases List.mem_cons.mp ((Heap.push_perm ..).mem_iff.mp inside) with rfl | earlier
          · exact known
          · exact knownWaiting requestId earlier
        · exact knownSkipped requestId inside
  | prepend known =>
      rw [ordered.policy]
      refine ⟨ordered.policy, ?_, Heap.push_heaped ranked knownWaiting known ordered.waiting,
        ordered.skippedWaiting⟩
      intro requestId member
      rcases List.mem_append.mp member with inside | inside
      · rcases List.mem_cons.mp ((Heap.push_perm ..).mem_iff.mp inside) with rfl | earlier
        · exact known
        · exact knownWaiting requestId earlier
      · exact knownSkipped requestId inside

theorem known_of_queued {strict : Prop} {aside loose : List RequestId}
    (queued : scheduler.Queued strict aside loose) :
    ∀ requestId ∈ scheduler.idle aside, (scheduler.rankOf requestId).isSome := by
  intro requestId member
  rcases queued.placed.idleFit requestId member with ⟨status, stored, _⟩
  rcases Option.map_eq_some_iff.mp stored with ⟨request, found, _⟩
  exact rankOf_isSome found

/-- Removing requests puts the queues in order, unless there is nobody to remove. -/
theorem removeWaiting_heapOrdered {gone : List RequestId}
    (policy : scheduler.config.policy = .priority)
    (known : ∀ requestId ∈ (scheduler.removeWaiting gone).waiting ++
      (scheduler.removeWaiting gone).skippedWaiting, (scheduler.rankOf requestId).isSome)
    (ordered : gone = [] → scheduler.HeapOrdered) : (scheduler.removeWaiting gone).HeapOrdered := by
  unfold removeWaiting at known ⊢
  split
  · rename_i none
    exact ordered none
  · rename_i some
    rw [if_neg some] at known
    rw [policy] at known ⊢
    refine ⟨policy, known, ?_, ?_⟩
    · apply Heap.heapify_heaped scheduler.lt_ranked
      exact fun requestId member => known requestId
        (List.mem_append_left _ ((Heap.heapify_perm ..).mem_iff.mpr member))
    · apply Heap.heapify_heaped scheduler.lt_ranked
      exact fun requestId member => known requestId
        (List.mem_append_right _ ((Heap.heapify_perm ..).mem_iff.mpr member))

theorem Leaves.heapOrdered (leaves : Leaves True scheduler next) (ordered : scheduler.HeapOrdered) :
    next.HeapOrdered := by
  cases leaves with
  | keep keeps => exact keeps.heapOrdered ordered
  | remove gone =>
      apply removeWaiting_heapOrdered ordered.policy ?_ fun _ => ordered
      rcases removeWaiting_spec scheduler gone with ⟨waiting, skipped, same, shape⟩
      rw [shape]
      intro requestId member
      rcases List.mem_append.mp (List.mem_filter.mp (same.mem_iff.mp member)).1 with first | second
      · exact ordered.known requestId (List.mem_append_left _ first)
      · exact ordered.known requestId (List.mem_append_right _ second)

/-- Popping a queue leaves it in order, and what it takes is the smallest. -/
theorem popQueue_heapOrdered {popped : Scheduler H} {queue : WaitingQueue}
    (ordered : scheduler.HeapOrdered) (ran : scheduler.popQueue queue = .ok popped) :
    popped.HeapOrdered ∧ ∃ requestId, (scheduler.queue queue).head? = some requestId ∧
      ∀ other ∈ popped.queue queue, scheduler.lt other requestId = false := by
  have ranked := scheduler.lt_ranked
  rcases bind_eq_ok.mp ran with ⟨⟨first, rest⟩, popping, ran⟩
  cases ran
  rcases RequestQueue.popRequest_spec _ _ popping with ⟨head, same⟩
  unfold RequestQueue.popRequest at popping
  rw [ordered.policy] at popping
  dsimp only at popping
  split at popping
  · contradiction
  · rename_i entry found
    cases popping
    cases queue with
    | waiting =>
        have known := fun requestId member =>
          ordered.known requestId (List.mem_append_left scheduler.skippedWaiting member)
        refine ⟨⟨ordered.policy, ?_, Heap.pop_heaped ranked known ordered.waiting found,
          ordered.skippedWaiting⟩, first, head, ?_⟩
        · intro requestId member
          rcases List.mem_append.mp member with inside | inside
          · exact known requestId (same.mem_iff.mp (List.mem_cons_of_mem _ inside))
          · exact ordered.known requestId (List.mem_append_right _ inside)
        · intro other member
          exact ordered.waiting.root_least ranked known head
            (same.mem_iff.mp (List.mem_cons_of_mem _ member))
    | skipped =>
        have known := fun requestId member =>
          ordered.known requestId (List.mem_append_right scheduler.waiting member)
        refine ⟨⟨ordered.policy, ?_, ordered.waiting,
          Heap.pop_heaped ranked known ordered.skippedWaiting found⟩, first, head, ?_⟩
        · intro requestId member
          rcases List.mem_append.mp member with inside | inside
          · exact ordered.known requestId (List.mem_append_left _ inside)
          · exact known requestId (same.mem_iff.mp (List.mem_cons_of_mem _ inside))
        · intro other member
          exact ordered.skippedWaiting.root_least ranked known head
            (same.mem_iff.mp (List.mem_cons_of_mem _ member))

theorem rankOf_of_lasting {requestId : RequestId}
    (lasts : lastingIn next.requests requestId = lastingIn scheduler.requests requestId) :
    next.rankOf requestId = scheduler.rankOf requestId := by
  have ranks : ∀ state : Scheduler H, state.rankOf requestId =
      (lastingIn state.requests requestId).map Profile.rank := by
    intro state
    rw [lastingIn_eq_profileOf, Option.map_map]
    rfl
  rw [ranks, ranks, lasts]

/-- The same queues with the same ranks. -/
theorem HeapOrdered.of_same (ordered : scheduler.HeapOrdered)
    (config : next.config = scheduler.config) (waiting : next.waiting = scheduler.waiting)
    (skipped : next.skippedWaiting = scheduler.skippedWaiting)
    (ranks : ∀ requestId, next.rankOf requestId = scheduler.rankOf requestId) : next.HeapOrdered :=
  KeepsQueues.heapOrdered ⟨config, waiting, skipped, fun _ requestId _ => ranks requestId⟩ ordered

end Scheduler

/-! ## The waiting phase -/

namespace SchedulePass

variable {H : Type} [DecidableEq H] [BlockHashing H]

variable {input : ScheduleInput H} {pass next : SchedulePass H} {queue : WaitingQueue}

/-- The waiting phase keeps the order of the queues. -/
theorem WaitingMove.heapOrdered (move : WaitingMove input pass next)
    (ordered : pass.scheduler.HeapOrdered) : next.scheduler.HeapOrdered := by
  have ranks := fun requestId => Scheduler.rankOf_of_lasting (move.lasting requestId)
  -- What a popping move does to the other fields does not matter.
  have pops : ∀ {popped : Scheduler H} {queue : WaitingQueue},
      pass.scheduler.popQueue queue = .ok popped →
      next.scheduler.config = popped.config → next.scheduler.waiting = popped.waiting →
      next.scheduler.skippedWaiting = popped.skippedWaiting → next.scheduler.HeapOrdered := by
    intro popped queue ran config waiting skipped
    have requests : popped.requests = pass.scheduler.requests := by
      rcases Scheduler.popQueue_spec ran with ⟨_, _, _, _, rfl⟩
      exact Scheduler.setQueue_requests ..
    apply (Scheduler.popQueue_heapOrdered ordered ran).1.of_same config waiting skipped
    intro requestId
    rw [ranks]
    unfold Scheduler.rankOf Scheduler.profileOf
    rw [requests]
  cases move with
  | promote head found ran =>
      rcases Scheduler.tryPromoteBlockedWaitingRequest_spec ran with
        ⟨errors, rfl⟩ | ⟨manager, finished, failed, status, numComputedTokens, _, rfl⟩
      · exact ordered.of_same rfl rfl rfl ranks
      · exact ordered.of_same rfl rfl rfl ranks
  | look found ran =>
      rcases Scheduler.lookupPrefix_spec ran with rfl | ⟨manager, boundary, rfl⟩
      · exact ordered
      · exact ordered.of_same rfl rfl rfl ranks
  | encode found ran => exact ordered.of_same rfl rfl rfl ranks
  | allocate manager => exact ordered.of_same rfl rfl rfl ranks
  | release found ran =>
      rcases Scheduler.freeEncoderCache_spec ran with ⟨manager, _, rfl⟩
      exact ordered.of_same rfl rfl rfl ranks
  | skip head ran =>
      rcases skipWaiting_outcome ran with ⟨popped, popping, rfl⟩
      exact pops popping rfl rfl rfl
  | load head found ran =>
      rcases loadRemote_outcome ran with ⟨skipped, inflight, skipping, rfl⟩
      rcases skipWaiting_outcome skipping with ⟨popped, popping, rfl⟩
      exact pops popping rfl rfl rfl
  | admitWaiting head found unpreempted fits positive ran asked =>
      rcases admit_outcome ran with ⟨⟨popped, popping, waiting, skipped⟩, admitted⟩
      have config : popped.config = pass.scheduler.config := by
        rcases Scheduler.popQueue_spec popping with ⟨_, _, _, _, rfl⟩
        exact Scheduler.setQueue_config ..
      exact pops popping (admitted.config.trans config.symm) waiting skipped

omit [DecidableEq H] [BlockHashing H] in
/-- A round that goes on has popped the head of its queue. -/
theorem WaitingRound.pops (round : WaitingRound input queue pass false next) :
    ∃ requestId, (pass.scheduler.queue queue).head? = some requestId ∧
      (requestId :: next.scheduler.queue queue).Perm (pass.scheduler.queue queue) := by
  have taken : ∀ {middle popped : Scheduler H} {requestId : RequestId},
      (middle.queue queue).head? = some requestId → middle.popQueue queue = .ok popped →
      (requestId :: popped.queue queue).Perm (middle.queue queue) := by
    intro middle popped requestId head ran
    rcases Scheduler.popQueue_spec ran with ⟨first, rest, found, same, rfl⟩
    cases found.symm.trans head
    rw [Scheduler.queue_setQueue]
    exact same
  -- The other steps of the round leave the queues.
  have quietly : ∀ {middle : SchedulePass H} {popped : Scheduler H} {requestId : RequestId},
      Quiet requestId pass middle → (middle.scheduler.queue queue).head? = some requestId →
      middle.scheduler.popQueue queue = .ok popped →
      next.scheduler.waiting = popped.waiting →
      next.scheduler.skippedWaiting = popped.skippedWaiting →
      ∃ requestId, (pass.scheduler.queue queue).head? = some requestId ∧
        (requestId :: next.scheduler.queue queue).Perm (pass.scheduler.queue queue) := by
    intro middle popped requestId quiet head ran waiting skipped
    have rest : next.scheduler.queue queue = popped.queue queue := by
      cases queue with
      | waiting => exact waiting
      | skipped => exact skipped
    have same := taken head ran
    rw [quiet.queue] at head same
    exact ⟨requestId, head, rest ▸ same⟩
  cases round with
  | skip quiet head found withheld ran =>
      rcases skipWaiting_outcome ran with ⟨popped, popping, rfl⟩
      exact quietly quiet head popping rfl rfl
  | load quiet head found ran =>
      rcases loadRemote_outcome ran with ⟨skipped, inflight, skipping, rfl⟩
      rcases skipWaiting_outcome skipping with ⟨popped, popping, rfl⟩
      exact quietly quiet head popping rfl rfl
  | admitWaiting quiet head found sized ran =>
      rcases admit_outcome ran with ⟨⟨popped, popping, waiting, skipped⟩, _⟩
      exact quietly quiet head popping waiting skipped

/-- One round of the waiting loop that goes on. -/
def LoopRound (input : ScheduleInput H) (pass next : SchedulePass H) : Prop :=
  ∃ queue, pass.scheduler.selectWaitingQueueForScheduling = some queue ∧
    pass.waitingPhaseOpen = true ∧ pass.scheduleWaitingRequest input queue = .ok (false, next)

/-- What is true of the pass in the waiting loop. -/
structure LoopOrdered (pass : SchedulePass H) : Prop where
  keyed : pass.scheduler.Keyed
  unpreempted : pass.preemptedReqs = []
  ordered : pass.scheduler.HeapOrdered

theorem round_moves {stop : Bool} (ordered : pass.LoopOrdered)
    (round : pass.scheduleWaitingRequest input queue = .ok (stop, next)) :
    next.LoopOrdered ∧
      ∀ requestId, next.scheduler.rankOf requestId = pass.scheduler.rankOf requestId := by
  have moves := scheduleWaitingRequest_moves ordered.keyed ordered.unpreempted round
  have kept := chain_keeps (fun pass => pass.scheduler.Keyed ∧ pass.preemptedReqs = [])
    WaitingMove.keyed moves ⟨ordered.keyed, ordered.unpreempted⟩
  have heaps := chain_keeps (fun pass : SchedulePass H => pass.scheduler.HeapOrdered)
    WaitingMove.heapOrdered moves ordered.ordered
  refine ⟨⟨kept.1, kept.2, heaps⟩, fun requestId => ?_⟩
  have ranks := chain_keeps
    (fun state : SchedulePass H =>
      state.scheduler.rankOf requestId = pass.scheduler.rankOf requestId)
    (fun move same => (Scheduler.rankOf_of_lasting (WaitingMove.lasting move requestId)).trans same)
    moves rfl
  exact ranks

/-- A round that goes on pops the smallest request of its queue. -/
theorem LoopOrdered.pops (ordered : pass.LoopOrdered)
    (round : pass.scheduleWaitingRequest input queue = .ok (false, next)) :
    ∃ requestId, (pass.scheduler.queue queue).head? = some requestId ∧
      (requestId :: next.scheduler.queue queue).Perm (pass.scheduler.queue queue) ∧
      ∀ other ∈ next.scheduler.queue queue, next.scheduler.lt other requestId = false := by
  rcases (scheduleWaitingRequest_round ordered.keyed round).pops with ⟨requestId, head, same⟩
  have ranks := (round_moves ordered round).2
  refine ⟨requestId, head, same, ?_⟩
  intro other member
  have inside := same.mem_iff.mp (List.mem_cons_of_mem _ member)
  rw [Scheduler.lt_congr (ranks other) (ranks requestId)]
  have heaps := ordered.ordered
  cases queue with
  | waiting =>
      exact heaps.waiting.root_least (Scheduler.lt_ranked _)
        (fun entry member => heaps.known entry (List.mem_append_left _ member)) head inside
  | skipped =>
      exact heaps.skippedWaiting.root_least (Scheduler.lt_ranked _)
        (fun entry member => heaps.known entry (List.mem_append_right _ member)) head inside

end SchedulePass

end Vllm.Core
