import Vllm.Core.AdapterRuns
import Vllm.Core.ScheduleRounds

/-!
# First come, first served

Under the FCFS policy the waiting requests form one line, the skipped ones in front.
A step that preempts nobody takes some of them out of the line, in its order, and
leaves the others as they stood: what it has set aside goes back to its place.
-/

namespace Vllm.Core

open Vllm.Library Relation

namespace Scheduler

variable {H : Type}

/-- The waiting requests in the order in which the FCFS policy considers them. -/
def inLine (scheduler : Scheduler H) : List RequestId :=
  scheduler.skippedWaiting ++ scheduler.waiting

/-- A running request has the adapter. -/
def UsesAdapter (scheduler : Scheduler H) (adapter : Nat) : Prop :=
  ∃ requestId ∈ scheduler.running, ∃ profile lora,
    scheduler.profileOf requestId = some profile ∧ profile.loraRequest = some lora ∧
      lora.loraIntId = adapter

/-- The running requests use as many adapters as may be in use, and not this one. -/
def AdaptersTaken (scheduler : Scheduler H) (lora : LoRARequest) : Prop :=
  ∃ taken : List Nat, scheduler.config.maxLoras = some taken.length ∧ taken.Nodup ∧
    lora.loraIntId ∉ taken ∧ ∀ adapter ∈ taken, scheduler.UsesAdapter adapter

/-- Why a waiting request has to let others pass in a step: its status is blocked, its
last output is in flight, the adapters are taken, or a connector has not answered
yet. -/
def HeldBack (scheduler : Scheduler H) (input : ScheduleInput H) (requestId : RequestId) : Prop :=
  ∃ profile, scheduler.profileOf requestId = some profile ∧
    (isBlockedWaitingStatus profile.status = true ∨ 0 < profile.numStaleOutputTokens ∨
      (∃ lora, profile.loraRequest = some lora ∧ scheduler.AdaptersTaken lora) ∨
      (scheduler.config.connector = true ∧ ∃ request numLocal, request.requestId = requestId ∧
          (input.getNumNewMatchedTokens request numLocal).1 = none) ∨
      (scheduler.config.ecConnector = true ∧ ∃ request numComputedTokens,
        request.requestId = requestId ∧
          input.ensureCacheAvailable request numComputedTokens = false))

variable {scheduler next : Scheduler H} {requestId : RequestId}

theorem UsesAdapter.mono {adapter : Nat} (uses : scheduler.UsesAdapter adapter)
    (running : ∀ requestId ∈ scheduler.running, requestId ∈ next.running ∧
      (next.profileOf requestId).map Profile.loraRequest =
        (scheduler.profileOf requestId).map Profile.loraRequest) : next.UsesAdapter adapter := by
  rcases uses with ⟨requestId, member, profile, lora, stored, loads, id⟩
  rcases running requestId member with ⟨stays, same⟩
  rw [stored] at same
  rcases Option.map_eq_some_iff.mp same with ⟨after, found, keeps⟩
  exact ⟨requestId, stays, after, lora, found, keeps.trans loads, id⟩

variable {input : ScheduleInput H}

/-- Who is held back stays so as long as its profile stays and the running requests
keep their adapters. -/
theorem HeldBack.mono (held : scheduler.HeldBack input requestId)
    (config : next.config = scheduler.config)
    (same : next.profileOf requestId = scheduler.profileOf requestId)
    (running : ∀ requestId ∈ scheduler.running, requestId ∈ next.running ∧
      (next.profileOf requestId).map Profile.loraRequest =
        (scheduler.profileOf requestId).map Profile.loraRequest) :
    next.HeldBack input requestId := by
  rcases held with ⟨profile, stored, reason⟩
  refine ⟨profile, same.trans stored, ?_⟩
  rw [config]
  refine reason.imp_right (Or.imp_right (Or.imp_left ?_))
  rintro ⟨lora, loads, taken, limit, distinct, absent, uses⟩
  exact ⟨lora, loads, taken, config ▸ limit, distinct, absent,
    fun adapter member => (uses adapter member).mono running⟩

theorem HeldBack.of_requests (held : scheduler.HeldBack input requestId)
    (config : next.config = scheduler.config) (running : next.running = scheduler.running)
    (requests : next.requests = scheduler.requests) : next.HeldBack input requestId := by
  have profiles : ∀ other, next.profileOf other = scheduler.profileOf other := by
    intro other
    unfold profileOf
    rw [requests]
  apply held.mono config (profiles requestId)
  intro other member
  rw [running, profiles]
  exact ⟨member, rfl⟩

variable {queue : WaitingQueue}

/-- Under the FCFS policy the selected queue has the front of the line, and popping it
takes the front away. -/
theorem popQueue_inLine {popped : Scheduler H} (policy : scheduler.config.policy = .fcfs)
    (selected : scheduler.selectWaitingQueueForScheduling = some queue)
    (ran : scheduler.popQueue queue = .ok popped)
    (head : (scheduler.queue queue).head? = some requestId) :
    scheduler.inLine = requestId :: popped.inLine ∧
      popped.config = scheduler.config ∧ popped.running = scheduler.running ∧
      popped.requests = scheduler.requests := by
  rcases bind_eq_ok.mp ran with ⟨⟨first, rest⟩, popping, ran⟩
  cases ran
  rw [policy] at popping
  unfold selectWaitingQueueForScheduling at selected
  rw [policy] at selected
  dsimp only at selected
  generalize line : scheduler.queue queue = items at popping head
  cases items with
  | nil => cases head
  | cons front others =>
      cases popping
      cases head
      unfold inLine setQueue
      cases queue with
      | skipped =>
          change scheduler.skippedWaiting = _ at line
          rw [line]
          exact ⟨rfl, rfl, rfl, rfl⟩
      | waiting =>
          have empty : scheduler.skippedWaiting = [] := by
            by_contra skipped
            rw [if_pos skipped] at selected
            contradiction
          change scheduler.waiting = _ at line
          rw [empty, line]
          exact ⟨rfl, rfl, rfl, rfl⟩

/-- The request that the selected queue shows is in front. -/
theorem inLine_of_head (policy : scheduler.config.policy = .fcfs)
    (selected : scheduler.selectWaitingQueueForScheduling = some queue)
    (head : (scheduler.queue queue).head? = some requestId) :
    ∃ rest, scheduler.inLine = requestId :: rest := by
  unfold selectWaitingQueueForScheduling at selected
  rw [policy] at selected
  dsimp only at selected
  unfold inLine
  cases queue with
  | skipped =>
      change scheduler.skippedWaiting.head? = _ at head
      rcases List.head?_eq_some_iff.mp head with ⟨rest, line⟩
      rw [line]
      exact ⟨_, rfl⟩
  | waiting =>
      have empty : scheduler.skippedWaiting = [] := by
        by_contra skipped
        rw [if_pos skipped] at selected
        contradiction
      change scheduler.waiting.head? = _ at head
      rcases List.head?_eq_some_iff.mp head with ⟨rest, line⟩
      rw [empty, line]
      exact ⟨rest, rfl⟩

end Scheduler

namespace SchedulePass

variable {H : Type}

/-- The waiting phase has worked off the front of the line: it has admitted some of it
in order, and set the others aside in order. -/
structure InOrder (start : Scheduler H) (input : ScheduleInput H) (pass : SchedulePass H)
    (popped : List RequestId) : Prop where
  policy : pass.scheduler.config.policy = .fcfs
  line : start.inLine = popped ++ pass.scheduler.inLine
  aside : pass.stepSkippedWaiting.reverse = popped.filter (· ∉ pass.scheduler.running)
  admitted : pass.scheduler.running =
    start.running ++ popped.filter (· ∈ pass.scheduler.running)
  adapters : pass.scheduledLoras.Nodup ∧
    ∀ adapter ∈ pass.scheduledLoras, pass.scheduler.UsesAdapter adapter
  held : ∀ requestId ∈ popped, requestId ∉ pass.scheduler.running →
    pass.scheduler.HeldBack input requestId

theorem Withheld.heldBack {pass : SchedulePass H} {input : ScheduleInput H}
    {request : Request H} (withheld : pass.Withheld input request)
    (found : pass.scheduler.requests.get? request.requestId = some request)
    (adapters : pass.scheduledLoras.Nodup ∧
      ∀ adapter ∈ pass.scheduledLoras, pass.scheduler.UsesAdapter adapter) :
    pass.scheduler.HeldBack input request.requestId := by
  refine ⟨request.profile, Scheduler.profileOf_of_found found, ?_⟩
  rcases withheld with blocked | aside | ⟨connector, numLocal, unknown⟩ |
    ⟨connector, numComputedTokens, missing⟩
  · exact .inl blocked
  · unfold setsAside at aside
    rcases Bool.or_eq_true_iff.mp aside with stale | full
    · exact .inr (.inl (of_decide_eq_true (Bool.and_eq_true_iff.mp stale).1))
    · right; right; left
      split at full
      · rename_i limit lora enabled loads
        rcases of_decide_eq_true full with ⟨reached, absent⟩
        exact ⟨lora, loads, pass.scheduledLoras, reached.symm ▸ enabled, adapters.1, absent,
          adapters.2⟩
      · contradiction
  · exact .inr (.inr (.inr (.inl ⟨connector, request, numLocal, rfl, unknown⟩)))
  · exact .inr (.inr (.inr (.inr ⟨connector, request, numComputedTokens, rfl, missing⟩)))

section

variable {start : Scheduler H} {input : ScheduleInput H} {pass next : SchedulePass H}
  {popped : List RequestId}

variable {requestId : RequestId}

/-- What a round does to the request in front leaves the running ones with their
adapters. -/
theorem keepsRunning (idle : requestId ∉ pass.scheduler.running)
    (others : ∀ other, other ≠ requestId →
      next.scheduler.requests.get? other = pass.scheduler.requests.get? other)
    (running : ∀ other ∈ pass.scheduler.running, other ∈ next.scheduler.running) :
    ∀ other ∈ pass.scheduler.running, other ∈ next.scheduler.running ∧
      (next.scheduler.profileOf other).map Profile.loraRequest =
        (pass.scheduler.profileOf other).map Profile.loraRequest := by
  intro other member
  have differ : other ≠ requestId := fun same => idle (same ▸ member)
  refine ⟨running other member, ?_⟩
  unfold Scheduler.profileOf
  rw [others other differ]

/-- It leaves the others held back. -/
theorem InOrder.keepsHeld (order : pass.InOrder start input popped) (unpopped : requestId ∉ popped)
    (idle : requestId ∉ pass.scheduler.running)
    (config : next.scheduler.config = pass.scheduler.config) (others : ∀ other, other ≠ requestId →
      next.scheduler.requests.get? other = pass.scheduler.requests.get? other)
    (running : ∀ other ∈ pass.scheduler.running, other ∈ next.scheduler.running) :
    ∀ other ∈ popped, other ∉ next.scheduler.running → next.scheduler.HeldBack input other := by
  intro other member waits
  have differ : other ≠ requestId := fun same => unpopped (same ▸ member)
  have held := order.held other member fun inside => waits (running other inside)
  apply held.mono config ?_ (keepsRunning idle others running)
  unfold Scheduler.profileOf
  rw [others other differ]

theorem InOrder.quiet (order : pass.InOrder start input popped) (unpopped : requestId ∉ popped)
    (idle : requestId ∉ pass.scheduler.running) (quiet : Quiet requestId pass next) :
    next.InOrder start input popped := by
  have stays : ∀ other ∈ pass.scheduler.running, other ∈ next.scheduler.running :=
    fun other member => quiet.running.symm ▸ member
  have loras : next.scheduledLoras = pass.scheduledLoras := by
    rw [quiet.locals]
  have line : next.scheduler.inLine = pass.scheduler.inLine := by
    unfold Scheduler.inLine
    rw [quiet.waiting, quiet.skippedWaiting]
  have aside : next.stepSkippedWaiting = pass.stepSkippedWaiting := by
    rw [quiet.locals]
  refine ⟨?_, ?_, ?_, ?_, ?_, ?_⟩
  · rw [quiet.config]
    exact order.policy
  · rw [line]
    exact order.line
  · rw [aside, quiet.running]
    exact order.aside
  · rw [quiet.running]
    exact order.admitted
  · rw [loras]
    exact ⟨order.adapters.1, fun adapter member =>
      (order.adapters.2 adapter member).mono (keepsRunning idle quiet.others stays)⟩
  · exact order.keepsHeld unpopped idle quiet.config quiet.others stays

/-- The front of the line has not been dealt with yet. -/
theorem InOrder.fresh (order : pass.InOrder start input popped) {rest : List RequestId}
    (distinct : (start.running ++ start.inLine).Nodup)
    (front : pass.scheduler.inLine = requestId :: rest) :
    requestId ∉ popped ∧ requestId ∉ pass.scheduler.running := by
  rw [order.line, front] at distinct
  have unpopped : requestId ∉ popped := by
    intro member
    have line := distinct.of_append_right
    exact List.disjoint_of_nodup_append line member List.mem_cons_self
  refine ⟨unpopped, ?_⟩
  rw [order.admitted]
  intro member
  rcases List.mem_append.mp member with earlier | admitted
  · exact List.disjoint_of_nodup_append distinct earlier
      (List.mem_append_right _ List.mem_cons_self)
  · exact unpopped (List.mem_filter.mp admitted).1

/-- The front of the line is set aside. -/
theorem InOrder.setAside (order : pass.InOrder start input popped)
    (distinct : (start.running ++ start.inLine).Nodup)
    (front : pass.scheduler.inLine = requestId :: next.scheduler.inLine)
    (config : next.scheduler.config = pass.scheduler.config)
    (running : next.scheduler.running = pass.scheduler.running)
    (loras : next.scheduledLoras = pass.scheduledLoras)
    (aside : next.stepSkippedWaiting = requestId :: pass.stepSkippedWaiting)
    (others : ∀ other, other ≠ requestId →
      next.scheduler.requests.get? other = pass.scheduler.requests.get? other)
    (held : (∀ adapter ∈ next.scheduledLoras, next.scheduler.UsesAdapter adapter) →
      next.scheduler.HeldBack input requestId) :
    next.InOrder start input (popped ++ [requestId]) := by
  rcases order.fresh distinct front with ⟨unpopped, idle⟩
  have stays : ∀ other ∈ pass.scheduler.running, other ∈ next.scheduler.running :=
    fun other member => running.symm ▸ member
  have adapters : ∀ adapter ∈ next.scheduledLoras, next.scheduler.UsesAdapter adapter := by
    rw [loras]
    exact fun adapter member =>
      (order.adapters.2 adapter member).mono (keepsRunning idle others stays)
  refine ⟨config ▸ order.policy, ?_, ?_, ?_, ⟨loras ▸ order.adapters.1, adapters⟩, ?_⟩
  · rw [order.line, front, List.append_assoc, List.singleton_append]
  · rw [aside, running, List.reverse_cons, order.aside, List.filter_append,
      List.filter_singleton, decide_eq_true idle]
    rfl
  · rw [running, List.filter_append, List.filter_singleton, decide_eq_false idle]
    simpa using order.admitted
  · intro other member waits
    rcases List.mem_append.mp member with earlier | last
    · exact order.keepsHeld unpopped idle config others stays other earlier waits
    · rw [List.mem_singleton.mp last]
      exact held adapters

/-- The front of the line is admitted. -/
theorem InOrder.admitWaiting (order : pass.InOrder start input popped) {request : Request H}
    {admission : Admission} (distinct : (start.running ++ start.inLine).Nodup)
    (front : pass.scheduler.inLine = request.requestId :: next.scheduler.inLine)
    (admitted : Admitted pass next request admission) :
    next.InOrder start input (popped ++ [request.requestId]) := by
  rcases order.fresh distinct front with ⟨unpopped, idle⟩
  have running := admitted.running
  -- Among what was popped before, the same requests run.
  have same : ∀ other ∈ popped,
      (other ∈ next.scheduler.running ↔ other ∈ pass.scheduler.running) := by
    intro other member
    rw [running, List.mem_append, List.mem_singleton]
    constructor
    · rintro (earlier | rfl)
      · exact earlier
      · contradiction
    · exact .inl
  have runs : request.requestId ∈ next.scheduler.running := by
    rw [running]
    exact List.mem_append_right _ (List.mem_singleton_self _)
  have stays : ∀ other ∈ pass.scheduler.running, other ∈ next.scheduler.running := by
    intro _ inside
    rw [running]
    exact List.mem_append_left _ inside
  have uses : ∀ adapter ∈ pass.scheduledLoras, next.scheduler.UsesAdapter adapter :=
    fun adapter member =>
      (order.adapters.2 adapter member).mono (keepsRunning idle admitted.others stays)
  refine ⟨admitted.config ▸ order.policy, ?_, ?_, ?_, ?_, ?_⟩
  · rw [order.line, front, List.append_assoc, List.singleton_append]
  · rw [admitted.aside, order.aside, List.filter_append, List.filter_singleton,
      decide_eq_false (not_not.mpr runs)]
    simp only [cond_false, List.append_nil]
    apply List.filter_congr
    intro other member
    exact decide_eq_decide.mpr (not_congr (same other member).symm)
  · rw [List.filter_append, List.filter_singleton, decide_eq_true runs,
      List.filter_congr fun other member => decide_eq_decide.mpr (same other member),
      ← List.append_assoc, ← order.admitted]
    exact running
  · rw [admitted.loras]
    unfold SchedulePass.addLora
    split
    · rename_i limit lora enabled loads
      refine ⟨order.adapters.1.insert, ?_⟩
      intro adapter member
      rcases List.mem_insert_iff.mp member with rfl | earlier
      · exact ⟨request.requestId, runs, _, lora, admitted.profile, loads, rfl⟩
      · exact uses adapter earlier
    · exact ⟨order.adapters.1, uses⟩
  · intro other member waits
    rcases List.mem_append.mp member with earlier | last
    · exact order.keepsHeld unpopped idle admitted.config admitted.others stays other earlier
        waits
    · rw [List.mem_singleton.mp last] at waits
      exact absurd runs waits

end

variable [DecidableEq H] [BlockHashing H] {start : Scheduler H} {input : ScheduleInput H}
  {pass next : SchedulePass H} {popped : List RequestId}

omit [DecidableEq H] [BlockHashing H] in
/-- A round takes at most the front of the line. -/
theorem InOrder.round {queue : WaitingQueue} {stop : Bool}
    (order : pass.InOrder start input popped) (distinct : (start.running ++ start.inLine).Nodup)
    (selected : pass.scheduler.selectWaitingQueueForScheduling = some queue)
    (round : WaitingRound input queue pass stop next) :
    ∃ popped, next.InOrder start input popped := by
  -- What is quiet changes neither the selection nor what is in front.
  have settle : ∀ middle requestId, Quiet requestId pass middle →
      (middle.scheduler.queue queue).head? = some requestId →
      middle.InOrder start input popped ∧
        middle.scheduler.selectWaitingQueueForScheduling = some queue := by
    intro middle requestId quiet head
    rw [quiet.queue] at head
    rcases Scheduler.inLine_of_head order.policy selected head with ⟨rest, front⟩
    rcases order.fresh distinct front with ⟨unpopped, idle⟩
    refine ⟨order.quiet unpopped idle quiet, ?_⟩
    unfold Scheduler.selectWaitingQueueForScheduling at selected ⊢
    rw [quiet.config, order.policy, quiet.skippedWaiting, quiet.waiting]
    rw [order.policy] at selected
    exact selected
  cases round with
  | stop head quiet =>
      rw [← quiet.queue] at head
      exact ⟨popped, (settle _ _ quiet head).1⟩
  | skip quiet head found withheld ran =>
      rcases settle _ _ quiet head with ⟨kept, selected⟩
      rcases skipWaiting_outcome ran with ⟨taken, popping, rfl⟩
      rcases Scheduler.popQueue_inLine kept.policy selected popping head with
        ⟨front, config, running, requests⟩
      refine ⟨_, kept.setAside distinct front config running rfl ?_ ?_ ?_⟩
      · unfold SchedulePass.config
        rw [kept.policy]
        rfl
      · exact fun other _ => congrArg (Dict.get? · other) requests
      · exact fun _ =>
          (withheld.heldBack found kept.adapters).of_requests config running requests
  | load quiet head found ran =>
      rcases settle _ _ quiet head with ⟨kept, selected⟩
      rcases loadRemote_outcome ran with ⟨skipped, inflight, skipping, rfl⟩
      rcases skipWaiting_outcome skipping with ⟨taken, popping, rfl⟩
      rcases Scheduler.popQueue_inLine kept.policy selected popping head with
        ⟨front, config, running, requests⟩
      refine ⟨_, kept.setAside distinct front config running rfl ?_ ?_ ?_⟩
      · unfold SchedulePass.config
        rw [kept.policy]
        rfl
      · intro other differ
        exact (Dict.get?_insert_of_ne _ _ (Ne.symm differ)).trans
          (congrArg (Dict.get? · other) requests)
      · exact fun _ => ⟨_, Scheduler.profileOf_of_found (Dict.get?_insert_self ..), .inl rfl⟩
  | admitWaiting quiet head found sized ran =>
      rcases settle _ _ quiet head with ⟨kept, selected⟩
      rcases admit_outcome ran with ⟨⟨taken, popping, waiting, skipped⟩, admitted⟩
      rcases Scheduler.popQueue_inLine kept.policy selected popping head with ⟨front, _, _⟩
      refine ⟨_, kept.admitWaiting distinct ?_ admitted⟩
      rw [front]
      unfold Scheduler.inLine
      rw [waiting, skipped]

theorem scheduleWaitingRequests_inOrder {fuel : Nat}
    (order : pass.InOrder start input popped) (distinct : (start.running ++ start.inLine).Nodup)
    (keyed : pass.scheduler.Keyed) (unpreempted : pass.preemptedReqs = [])
    (ran : scheduleWaitingRequests input fuel pass = .ok next) :
    ∃ popped, next.InOrder start input popped := by
  induction fuel generalizing pass popped with
  | zero =>
      cases ran
      exact ⟨popped, order⟩
  | succ fuel ih =>
      rw [scheduleWaitingRequests] at ran
      split at ran
      · cases ran
        exact ⟨popped, order⟩
      · rename_i queue selected
        split at ran
        · rcases bind_eq_ok.mp ran with ⟨⟨stop, after⟩, round, ran⟩
          have moves := scheduleWaitingRequest_moves keyed unpreempted round
          have kept := chain_keeps
            (fun pass => pass.scheduler.Keyed ∧ pass.preemptedReqs = []) WaitingMove.keyed moves
            ⟨keyed, unpreempted⟩
          rcases order.round distinct selected (scheduleWaitingRequest_round keyed round) with
            ⟨poppedAfter, orderAfter⟩
          dsimp only at ran
          split at ran
          · cases ran
            exact ⟨poppedAfter, orderAfter⟩
          · exact ih orderAfter kept.1 kept.2 ran
        · cases ran
          exact ⟨popped, order⟩

omit [DecidableEq H] [BlockHashing H] in
/-- As long as nothing is preempted, the running phase leaves the queues. -/
theorem RunningMove.queues (move : RunningMove input pass next)
    (same : pass.preemptedReqs = [] → pass.scheduler.inLine = start.inLine ∧
      pass.scheduler.running = start.running) (unpreempted : next.preemptedReqs = []) :
    next.scheduler.inLine = start.inLine ∧ next.scheduler.running = start.running := by
  cases move with
  | allocate manager => exact same unpreempted
  | advance => exact same unpreempted
  | encode found ran => exact same unpreempted
  | preempt inside ran =>
      rcases preemptOne_spec ran with ⟨removed, scheduler, _, _, rfl⟩
      simp at unpreempted
  | schedule current found positive ran asked =>
      rcases commitEncoderInputs_outcome ran with ⟨manager, rfl⟩
      unfold commitSpecTokens at unpreempted ⊢
      split at unpreempted
      · rename_i plain
        rw [if_pos plain]
        exact same unpreempted
      · rename_i drafts
        rw [if_neg drafts]
        exact same unpreempted

end SchedulePass

namespace Scheduler

variable {H : Type} [DecidableEq H] [BlockHashing H]

/-- The call preempts nobody. -/
def PreemptsNone (scheduler : Scheduler H) (input : ScheduleInput H) : Prop :=
  ∀ pass, scheduler.runningPhase input = .ok pass → pass.preemptedReqs = []

/-- What a step leaves of the line under the FCFS policy. -/
structure ServedInOrder (scheduler : Scheduler H) (input : ScheduleInput H)
    (next : Scheduler H) : Prop where
  line : next.inLine = scheduler.inLine.filter (· ∉ next.running)
  running : next.running = scheduler.running ++ scheduler.inLine.filter (· ∈ next.running)
  overtaken : ∀ first second, [first, second].Sublist scheduler.inLine →
    second ∈ next.running → first ∈ next.running ∨ next.HeldBack input first

section

omit [DecidableEq H] [BlockHashing H]

/-- Who stands before a popped request was popped as well. -/
theorem mem_of_sublist_append {popped rest : List RequestId} {first second : RequestId}
    (distinct : (popped ++ rest).Nodup) (before : [first, second].Sublist (popped ++ rest))
    (member : second ∈ popped) : first ∈ popped := by
  rcases List.sublist_append_iff.mp before with ⟨left, right, split, inPopped, inRest⟩
  have outside : second ∉ right := fun inside =>
    List.disjoint_of_nodup_append distinct member (inRest.subset inside)
  cases left with
  | nil =>
      rw [List.nil_append] at split
      rw [← split] at outside
      simp at outside
  | cons front others =>
      rw [List.cons_append, List.cons.injEq] at split
      rw [split.1]
      exact inPopped.subset List.mem_cons_self

/-- What was set aside goes back in front: the line is in order again. -/
theorem servedInOrder_of_inOrder {start next : Scheduler H} {input : ScheduleInput H}
    {pass : SchedulePass H} {popped : List RequestId} (order : pass.InOrder start input popped)
    (distinct : (start.running ++ start.inLine).Nodup)
    (line : next.inLine = pass.stepSkippedWaiting.reverse ++ pass.scheduler.inLine)
    (running : next.running = pass.scheduler.running)
    (config : next.config = pass.scheduler.config) {count : RequestId → Nat}
    (progress : ∀ requestId, next.profileOf requestId =
      (pass.scheduler.profileOf requestId).map (·.progressed (count requestId)))
    (unscheduled : ∀ requestId, requestId ∉ next.running → count requestId = 0) :
    start.ServedInOrder input next := by
  have whole := order.line
  have parts := distinct
  rw [whole] at parts
  have lineDistinct := parts.of_append_right
  -- Nobody runs who was not popped.
  have idle : ∀ requestId ∈ pass.scheduler.inLine, requestId ∉ next.running := by
    intro requestId member runs
    rw [running, order.admitted] at runs
    rcases List.mem_append.mp runs with earlier | admitted
    · exact List.disjoint_of_nodup_append parts earlier (List.mem_append_right _ member)
    · exact List.disjoint_of_nodup_append lineDistinct (List.mem_filter.mp admitted).1 member
  have none : pass.scheduler.inLine.filter (· ∈ next.running) = [] := by
    rw [List.filter_eq_nil_iff]
    intro requestId member runs
    exact idle requestId member (of_decide_eq_true runs)
  have all : pass.scheduler.inLine.filter (· ∉ next.running) = pass.scheduler.inLine := by
    rw [List.filter_eq_self]
    intro requestId member
    exact decide_eq_true (idle requestId member)
  refine ⟨?_, ?_, ?_⟩
  · rw [line, order.aside, whole, List.filter_append, all, running]
  · rw [whole, List.filter_append, none, List.append_nil, running]
    exact order.admitted
  · intro first second before runs
    rw [whole] at before
    have popped : second ∈ popped := by
      have member := before.subset (List.mem_cons_of_mem _ (List.mem_singleton_self _))
      rcases List.mem_append.mp member with early | late
      · exact early
      · exact absurd runs (idle second late)
    have earlier := mem_of_sublist_append lineDistinct before popped
    by_cases admitted : first ∈ next.running
    · exact .inl admitted
    · right
      rw [running] at admitted
      have held := order.held first earlier admitted
      apply held.mono config
      · rw [progress, unscheduled first (running ▸ admitted)]
        simp
      · intro other member
        refine ⟨running.symm ▸ member, ?_⟩
        rw [progress, Option.map_map]
        rfl

end

/-- A step that preempts nobody serves the line in order. -/
theorem schedule_servedInOrder {scheduler next : Scheduler H} {input : ScheduleInput H}
    {output : SchedulerOutput} (queued : scheduler.Queued False [] [])
    (policy : scheduler.config.policy = .fcfs) (unpreempted : scheduler.PreemptsNone input)
    (ran : scheduler.schedule input = .ok (output, next)) : scheduler.ServedInOrder input next := by
  have keyed := queued.keyed
  have distinct : (scheduler.running ++ scheduler.inLine).Nodup := by
    have placed := queued.placed.distinct
    have same : (scheduler.idle []).Perm scheduler.inLine := by
      unfold idle inLine
      rw [List.append_nil]
      exact List.perm_append_comm
    exact (same.append_left _).nodup_iff.mp placed
  rcases bind_eq_ok.mp ran with ⟨ranPass, phase, ran⟩
  rcases bind_eq_ok.mp ran with ⟨recorded, recording, ran⟩
  rcases bind_eq_ok.mp ran with ⟨waited, waiting, finishing⟩
  have moves := SchedulePass.scheduleRunningRequests_moves (by exact keyed) phase
  have none := unpreempted ranPass phase
  rcases runningPhase_settled keyed queued.running_nodup moves with ⟨ranKeyed, cursor, _⟩
  have quietStart := chain_keeps
    (fun pass : SchedulePass H => pass.preemptedReqs = [] →
      pass.scheduler.inLine = scheduler.inLine ∧ pass.scheduler.running = scheduler.running)
    SchedulePass.RunningMove.queues moves (fun _ => ⟨rfl, rfl⟩)
  have recedes := chain_keeps
    (fun pass : SchedulePass H => pass.scheduler.config = scheduler.config ∧
      pass.scheduler.running ⊆ scheduler.running)
    SchedulePass.RunningMove.recedes moves ⟨rfl, List.Subset.refl _⟩
  have nothingAside := chain_keeps (fun pass : SchedulePass H => pass.stepSkippedWaiting = [])
    (fun move none => move.frame.2.1.trans none) moves rfl
  have nothingLoaded := chain_keeps (fun pass : SchedulePass H => pass.scheduledLoras = [])
    (fun move none => move.frame.2.2.1.trans none) moves rfl
  rcases quietStart none with ⟨line, running⟩
  have started : recorded.InOrder scheduler input [] ∧ recorded.scheduler.Keyed ∧
      recorded.preemptedReqs = [] ∧ recorded.Entries := by
    have entries := cursor.entries
    have same : recorded.scheduler = ranPass.scheduler ∧
        recorded.stepSkippedWaiting = ranPass.stepSkippedWaiting ∧
        recorded.preemptedReqs = ranPass.preemptedReqs ∧ recorded.Entries ∧
        recorded.scheduledLoras.Nodup ∧
        ∀ adapter ∈ recorded.scheduledLoras, ranPass.scheduler.UsesAdapter adapter := by
      rcases SchedulePass.recordScheduledLoras_spec recording with ⟨_, rfl⟩ | ⟨_, _, _, rfl⟩
      · rw [nothingLoaded]
        exact ⟨rfl, rfl, rfl, entries, List.nodup_nil, nofun⟩
      · refine ⟨rfl, rfl, rfl, ⟨entries.tokens, entries.inputs, entries.positive⟩,
          List.nodup_dedup _, ?_⟩
        intro adapter member
        rcases SchedulePass.mem_lorasOf.mp member with
          ⟨requestId, scheduled, profile, lora, stored, loads, _, id⟩
        exact ⟨requestId, (cursor.before _ scheduled).mem, profile, lora, stored, loads, id⟩
    rcases same with ⟨sameScheduler, sameAside, samePreempted, entries, distinctLoras, uses⟩
    refine ⟨⟨?_, ?_, ?_, ?_, ⟨distinctLoras, ?_⟩, nofun⟩, sameScheduler ▸ ranKeyed,
      samePreempted.trans none, entries⟩
    · rw [sameScheduler, recedes.1]
      exact policy
    · rw [sameScheduler]
      exact line.symm
    · rw [sameAside, nothingAside]
      rfl
    · rw [sameScheduler, List.filter_nil, List.append_nil]
      exact running
    · rw [sameScheduler]
      exact uses
  rcases started with ⟨order, recordedKeyed, recordedNone, recordedEntries⟩
  -- The state at the end of the waiting loop, before what was set aside goes back.
  have looped : ∃ (last : SchedulePass H) (popped : List RequestId),
      last.InOrder scheduler input popped ∧ last.scheduler.Keyed ∧ last.Entries ∧
      waited.scheduler.inLine = last.stepSkippedWaiting.reverse ++ last.scheduler.inLine ∧
      waited.scheduler.running = last.scheduler.running ∧
      waited.scheduler.config = last.scheduler.config ∧
      waited.scheduler.requests = last.scheduler.requests ∧
      waited.numScheduledTokens = last.numScheduledTokens := by
    unfold SchedulePass.waitingPhase at waiting
    split at waiting
    · rcases bind_eq_ok.mp waiting with ⟨last, looping, waiting⟩
      cases waiting
      rcases SchedulePass.scheduleWaitingRequests_inOrder order distinct recordedKeyed
        recordedNone looping with ⟨popped, order⟩
      have moves := SchedulePass.scheduleWaitingRequests_moves recordedKeyed recordedNone looping
      have keyed := (chain_keeps (fun pass => pass.scheduler.Keyed ∧ pass.preemptedReqs = [])
        SchedulePass.WaitingMove.keyed moves ⟨recordedKeyed, recordedNone⟩).1
      have entries := chain_keeps SchedulePass.Entries SchedulePass.WaitingMove.entries moves
        recordedEntries
      refine ⟨last, popped, order, keyed, entries, ?_, rfl, rfl, rfl, rfl⟩
      unfold inLine
      rw [order.policy]
      unfold RequestQueue.prependRequests
      rw [List.foldl_flip_cons_eq_append', List.append_assoc]
    · cases waiting
      refine ⟨recorded, [], order, recordedKeyed, recordedEntries, ?_, rfl, rfl, rfl, rfl⟩
      have aside := order.aside
      rw [aside]
      rfl
  rcases looped with ⟨last, popped, order, lastKeyed, entries, line, running, config, requests,
    tokens⟩
  have waitedKeyed : waited.scheduler.Keyed := by
    unfold Keyed
    rw [requests]
    exact lastKeyed
  rcases SchedulePass.finish_spec waitedKeyed finishing with
    ⟨⟨_, _, _, _, _, rfl⟩, _, _, _, _, progress⟩
  have same : ∀ requestId, waited.scheduler.profileOf requestId =
      last.scheduler.profileOf requestId := by
    intro requestId
    unfold profileOf
    rw [requests]
  refine servedInOrder_of_inOrder order distinct line running config
    (fun requestId => (progress requestId).trans (congrArg _ (same requestId))) ?_
  intro requestId idle
  have unscheduled : waited.numScheduledTokens.get? requestId = Option.none := by
    rw [tokens, Dict.get?_eq_none_iff]
    intro member
    exact idle (running.symm ▸ entries.tokens requestId member)
  unfold Dict.getD
  rw [unscheduled]
  rfl

end Scheduler

end Vllm.Core
