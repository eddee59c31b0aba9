import Vllm.Core.FirstComeFirstServed
import Vllm.Core.QueueMoves

/-!
# Nobody overtakes

Outside `schedule` the line only grows and loses requests, so those who stay keep
their order.  Over any number of calls, a request that is admitted under the FCFS
policy finds those in front of it admitted as well, or held back.
-/

namespace Vllm.Core

open Vllm.Library Relation

namespace Scheduler

variable {H : Type}

/-- Both wait, the first in front of the second. -/
def Precedes (scheduler : Scheduler H) (first second : RequestId) : Prop :=
  [first, second].Sublist scheduler.inLine

variable {scheduler next : Scheduler H} {first second : RequestId}

/-- Those who stay keep their order. -/
theorem Precedes.filter (before : scheduler.Precedes first second) {kept : RequestId → Bool}
    (line : next.inLine = scheduler.inLine.filter kept)
    (stays : first ∈ next.inLine ∧ second ∈ next.inLine) : next.Precedes first second := by
  unfold Precedes
  rw [line] at stays ⊢
  have firstKept := (List.mem_filter.mp stays.1).2
  have secondKept := (List.mem_filter.mp stays.2).2
  have pair : [first, second].filter kept = [first, second] := by
    rw [List.filter_cons_of_pos firstKept, List.filter_cons_of_pos secondKept]
    rfl
  rw [← pair]
  exact List.Sublist.filter kept before

variable {strict : Prop}

/-- Who joins does not move the others. -/
theorem Joins.line (joins : Joins strict scheduler next)
    (kept : scheduler.config.policy = .fcfs ∧ scheduler.Precedes first second) :
    next.config.policy = .fcfs ∧ next.Precedes first second := by
  rcases kept with ⟨policy, before⟩
  unfold Precedes inLine at before ⊢
  cases joins with
  | keep keeps =>
      rw [keeps.config, keeps.waiting, keeps.skippedWaiting]
      exact ⟨policy, before⟩
  | enqueue known =>
      unfold enqueueWaitingRequest RequestQueue.addRequest
      rw [policy]
      split
      · refine ⟨policy, before.trans ?_⟩
        exact (List.sublist_append_left _ _).append_right _
      · refine ⟨policy, before.trans ?_⟩
        exact (List.sublist_append_left _ _).append_left _
  | prepend known =>
      refine ⟨policy, before.trans ?_⟩
      rw [policy]
      exact (List.sublist_cons_self _ _).append_left _

/-- Who leaves does not move the others. -/
theorem Leaves.line (leaves : Leaves strict scheduler next)
    (policy : scheduler.config.policy = .fcfs) :
    next.config.policy = .fcfs ∧ ∃ kept, next.inLine = scheduler.inLine.filter kept := by
  cases leaves with
  | keep keeps =>
      unfold inLine
      rw [keeps.config, keeps.waiting, keeps.skippedWaiting]
      exact ⟨policy, fun _ => true, by simp⟩
  | remove gone =>
      unfold removeWaiting
      split
      · exact ⟨policy, fun _ => true, by simp⟩
      · refine ⟨policy, (· ∉ gone), ?_⟩
        rw [policy]
        exact (List.filter_append ..).symm

theorem leaves_line (chain : ReflTransGen (Leaves strict) scheduler next)
    (policy : scheduler.config.policy = .fcfs) :
    next.config.policy = .fcfs ∧ ∃ kept, next.inLine = scheduler.inLine.filter kept := by
  apply chain_keeps (fun state => state.config.policy = .fcfs ∧
    ∃ kept, state.inLine = scheduler.inLine.filter kept) ?_ chain ⟨policy, fun _ => true, by simp⟩
  rintro state after move ⟨policy, kept, line⟩
  rcases move.line policy with ⟨policyAfter, keptAfter, lineAfter⟩
  refine ⟨policyAfter, fun requestId => kept requestId && keptAfter requestId, ?_⟩
  rw [lineAfter, line, List.filter_filter]
  exact List.filter_congr fun _ _ => Bool.and_comm ..

/-- Requests join, and then others leave. -/
theorem Precedes.moves {stricter : Prop} {joined : Scheduler H}
    (before : scheduler.Precedes first second) (policy : scheduler.config.policy = .fcfs)
    (joins : ReflTransGen (Joins strict) scheduler joined) {gone : List RequestId}
    (leaves : ReflTransGen (Leaves stricter) (joined.removeWaiting gone) next)
    (stays : first ∈ next.inLine ∧ second ∈ next.inLine) :
    next.config.policy = .fcfs ∧ next.Precedes first second := by
  have grown := chain_keeps
    (fun state : Scheduler H => state.config.policy = .fcfs ∧ state.Precedes first second)
    Joins.line joins ⟨policy, before⟩
  have shrunk := leaves_line (leaves.head (.remove joined gone)) grown.1
  rcases shrunk with ⟨policy, kept, line⟩
  exact ⟨policy, grown.2.filter line stays⟩

variable [DecidableEq H] [BlockHashing H]

/-- A step keeps the order of those who still wait, whether it preempts or not. -/
theorem schedule_precedes {input : ScheduleInput H} {output : SchedulerOutput}
    (queued : scheduler.Queued False [] []) (policy : scheduler.config.policy = .fcfs)
    (before : scheduler.Precedes first second) (ran : scheduler.schedule input = .ok (output, next))
    (stays : first ∈ next.inLine ∧ second ∈ next.inLine) :
    next.config.policy = .fcfs ∧ next.Precedes first second := by
  rcases schedule_moves queued.keyed ran with
    ⟨ranPass, recorded, waited, phase, runningMoves, recording, _, waitingMoves, filed, finishing⟩
  have same : recorded.scheduler = ranPass.scheduler ∧
      recorded.preemptedReqs = ranPass.preemptedReqs := by
    rcases SchedulePass.recordScheduledLoras_spec recording with ⟨_, rfl⟩ | ⟨_, _, _, rfl⟩
    · exact ⟨rfl, rfl⟩
    · exact ⟨rfl, rfl⟩
  rcases SchedulePass.finish_spec filed finishing with ⟨⟨_, _, _, requests, _, shape⟩, _⟩
  refine ⟨by rw [schedule_config queued.keyed ran]; exact policy, ?_⟩
  by_cases unpreempted : ranPass.preemptedReqs = []
  · have none : scheduler.PreemptsNone input := by
      intro pass again
      cases phase.symm.trans again
      exact unpreempted
    exact before.filter (schedule_servedInOrder queued policy none ran).line stays
  · -- After a preemption nobody is admitted.
    have skipped : waited = recorded := by
      rcases waitingMoves with rfl | ⟨none, _⟩
      · rfl
      · exact absurd (same.2.symm.trans none) unpreempted
    have joined := chain_keeps
      (fun pass : SchedulePass H => pass.scheduler.Keyed ∧
        ReflTransGen (Joins False) scheduler pass.scheduler)
      (fun move kept => ⟨move.keyed kept.1, kept.2.trans (move.joins kept.1)⟩)
      runningMoves ⟨queued.keyed, .single (.keep ⟨rfl, rfl, rfl, nofun⟩)⟩
    have grown := chain_keeps
      (fun state : Scheduler H => state.config.policy = .fcfs ∧ state.Precedes first second)
      Joins.line joined.2 ⟨policy, before⟩
    rw [skipped, same.1] at shape
    rw [shape]
    exact grown.2

end Scheduler

namespace Engine

variable {H : Type} [DecidableEq H] [BlockHashing H]

variable {first second : RequestId}

/-- A call keeps the order of those who still wait. -/
theorem execute_precedes {engine next : Engine H} {call : Call H}
    (queued : engine.scheduler.Queued False [] []) (policy : engine.scheduler.config.policy = .fcfs)
    (before : engine.scheduler.Precedes first second) (ran : engine.execute call = .ok next)
    (stays : first ∈ next.scheduler.inLine ∧ second ∈ next.scheduler.inLine) :
    next.scheduler.config.policy = .fcfs ∧ next.scheduler.Precedes first second := by
  -- The two ends of a chain of joins or of leaves.
  have joins : ∀ {strict : Prop} {state : Scheduler H},
      ReflTransGen (Scheduler.Joins strict) engine.scheduler state →
      state.config.policy = .fcfs ∧ state.Precedes first second := fun chain =>
    chain_keeps
      (fun state : Scheduler H => state.config.policy = .fcfs ∧ state.Precedes first second)
      Scheduler.Joins.line chain ⟨policy, before⟩
  have leaves : ∀ {state : Scheduler H},
      ReflTransGen (Scheduler.Leaves True) engine.scheduler state →
      first ∈ state.inLine ∧ second ∈ state.inLine →
      state.config.policy = .fcfs ∧ state.Precedes first second := by
    intro state chain stays
    rcases Scheduler.leaves_line chain policy with ⟨policy, kept, line⟩
    exact ⟨policy, before.filter line stays⟩
  cases executes_of_execute ran with
  | addRequest adding =>
      rcases Scheduler.addRequest_moves queued adding with chain | chain
      · exact joins chain
      · exact leaves chain stays
  | schedule scheduling =>
      exact Scheduler.schedule_precedes queued policy before scheduling stays
  | updateFromOutput step rest flying updating =>
      rcases Scheduler.updateFromOutput_moves queued updating with
        ⟨joined, gone, joins, _, leaves⟩
      exact before.moves policy joins leaves stays
  | finishRequests finishing =>
      exact leaves (Scheduler.finishRequests_leaves queued finishing) stays
  | updateDraftTokenIds entry =>
      have kept := @Scheduler.updateDraftTokenIds_spec _ _ entry queued.keyed
      have joined : Scheduler.Joins False _ _ := kept.joins
      exact joins (.single joined)
  | resetPrefixCache resetting =>
      have joined : ReflTransGen (Scheduler.Joins False) _ _ :=
        Scheduler.resetPrefixCache_joins queued.keyed resetting
      exact joins joined
  | setPauseState pauseState =>
      exact ⟨policy, before⟩

/-- One call after which both still wait. -/
def BothWait (first second : RequestId) (engine next : Engine H) : Prop :=
  ∃ call, engine.Allowed call ∧ engine.execute call = .ok next ∧
    first ∈ next.scheduler.inLine ∧ second ∈ next.scheduler.inLine

/-- Over any number of calls after which both still wait, they keep their order. -/
theorem bothWait_precedes {engine later : Engine H} (queued : engine.scheduler.Queued False [] [])
    (policy : engine.scheduler.config.policy = .fcfs)
    (before : engine.scheduler.Precedes first second)
    (run : ReflTransGen (BothWait first second) engine later) :
    later.scheduler.Queued False [] [] ∧ later.scheduler.config.policy = .fcfs ∧
      later.scheduler.Precedes first second := by
  apply chain_keeps (fun state : Engine H => state.scheduler.Queued False [] [] ∧
    state.scheduler.config.policy = .fcfs ∧ state.scheduler.Precedes first second) ?_ run
    ⟨queued, policy, before⟩
  rintro state next ⟨call, allowed, ran, stays⟩ ⟨queued, policy, before⟩
  exact ⟨execute_queued queued allowed nofun ran, execute_precedes queued policy before ran stays⟩

/-- In every run under the FCFS policy, a step that preempts nobody takes the newly
running requests out of the line and leaves the others as they stood; and whoever
is admitted after any number of calls finds those who were in front of it admitted
as well, gone from the line, or held back in that step. -/
theorem reachable_servedInOrder {engine : Engine H}
    (reached : Reachable (system fun _ _ => True) engine)
    (policy : engine.scheduler.config.policy = .fcfs) :
    (∀ input output next, engine.scheduler.PreemptsNone input →
      engine.scheduler.schedule input = .ok (output, next) →
      engine.scheduler.ServedInOrder input next) ∧
    ∀ first second later, engine.scheduler.Precedes first second →
      ReflTransGen (BothWait first second) engine later →
      later.scheduler.Precedes first second ∧
      ∀ input output next, later.scheduler.PreemptsNone input →
        later.scheduler.schedule input = .ok (output, next) →
        second ∈ next.running → first ∈ next.running ∨ next.HeldBack input first := by
  have queued := reachable_queued reached
  constructor
  · intro input output next unpreempted ran
    exact Scheduler.schedule_servedInOrder queued policy unpreempted ran
  · intro first second later before run
    rcases bothWait_precedes queued policy before run with ⟨queued, policy, before⟩
    refine ⟨before, ?_⟩
    intro input output next unpreempted ran admitted
    exact (Scheduler.schedule_servedInOrder queued policy unpreempted ran).overtaken first second
      before admitted

/-- The first request runs with the only adapter that may be in use; the second needs
another one, the third the same. -/
def twoAdapters : List (Call SymbolicHash) :=
  [adapterRequest "first" 1, .schedule {}, .updateFromOutput { sampledTokenIds := fun _ => [5] },
    adapterRequest "second" 2, adapterRequest "third" 1]

/-- The third request is admitted, the second one is held back. -/
theorem twoAdapters_scheduled :
    ∃ (engine : Engine SymbolicHash) (output : SchedulerOutput) (next : Scheduler SymbolicHash),
      Reachable (system fun _ _ => True) engine ∧ engine.scheduler.config.policy = .fcfs ∧
      engine.scheduler.inLine = ["second", "third"] ∧ engine.scheduler.PreemptsNone {} ∧
      engine.scheduler.schedule {} = .ok (output, next) ∧
      next.running = ["first", "third"] ∧
      (next.requests.get? "second").map Request.status = some .waiting := by
  have computed : (replayCalls (fun _ _ => true) oneAdapter 10 0 twoAdapters).map
      (fun engine =>
        decide (engine.scheduler.config.policy = .fcfs ∧
          engine.scheduler.inLine = ["second", "third"]) &&
        (engine.scheduler.runningPhase {}).toOption.all (fun pass => pass.preemptedReqs = []) &&
        (engine.scheduler.schedule {}).toOption.any fun result => decide (
          result.2.running = ["first", "third"] ∧
          (result.2.requests.get? "second").map Request.status = some .waiting)) =
      some true := by
    decide +kernel
  rcases Option.map_eq_some_iff.mp computed with ⟨engine, replayed, shown⟩
  rcases Bool.and_eq_true_iff.mp shown with ⟨shown, scheduled⟩
  rcases Bool.and_eq_true_iff.mp shown with ⟨line, unpreempted⟩
  rcases (Option.any_eq_true ..).mp scheduled with ⟨⟨output, next⟩, scheduled, outcome⟩
  have facts := of_decide_eq_true line
  have after := of_decide_eq_true outcome
  have reached : Reachable (system fun _ _ => True) engine :=
    replayCalls_reachable (fun _ _ _ => trivial) replayed
  refine ⟨engine, output, next, reached, facts.1, facts.2, ?_, toOption_eq_some.mp scheduled,
    after.1, after.2⟩
  intro pass phase
  rw [phase] at unpreempted
  exact of_decide_eq_true unpreempted

/-- The line after that step, and why the second request is still in it. -/
theorem reachable_servedInOrder_adapters :
    ∃ (scheduler next : Scheduler SymbolicHash),
      scheduler.ServedInOrder {} next ∧ scheduler.inLine = ["second", "third"] ∧
      next.inLine = ["second"] ∧ next.HeldBack {} "second" := by
  rcases twoAdapters_scheduled with
    ⟨engine, output, next, reached, policy, line, unpreempted, ran, running, _⟩
  have results := reachable_servedInOrder reached policy
  have served := results.1 {} output next unpreempted ran
  have before : engine.scheduler.Precedes "second" "third" := by
    unfold Scheduler.Precedes
    rw [line]
  refine ⟨engine.scheduler, next, served, line, ?_, ?_⟩
  · rw [served.line, line, running]
    decide
  · have waits := (results.2 "second" "third" engine before .refl).2 {} output next unpreempted ran
    rw [running] at waits
    rcases waits (by decide) with admitted | held
    · exact absurd admitted (by decide)
    · exact held

/-- A blocked status is not the only reason to let others pass: the second request is
overtaken with the status of a request that may be scheduled. -/
theorem waiting_overtaken :
    ¬∀ engine : Engine SymbolicHash, Reachable (system fun _ _ => True) engine →
      engine.scheduler.config.policy = .fcfs → ∀ input output next,
        engine.scheduler.PreemptsNone input →
        engine.scheduler.schedule input = .ok (output, next) →
        ∀ first second, engine.scheduler.Precedes first second → second ∈ next.running →
          first ∈ next.running ∨ ∃ status,
            (next.requests.get? first).map Request.status = some status ∧
              Scheduler.isBlockedWaitingStatus status = true := by
  intro ordered
  rcases twoAdapters_scheduled with
    ⟨engine, output, next, reached, policy, line, unpreempted, ran, running, status⟩
  have before : engine.scheduler.Precedes "second" "third" := by
    unfold Scheduler.Precedes
    rw [line]
  have waits := ordered engine reached policy {} output next unpreempted ran "second" "third" before
  rw [running, status] at waits
  rcases waits (by decide) with admitted | ⟨_, same, blocked⟩
  · exact absurd admitted (by decide)
  · cases same
    exact absurd blocked (by decide)

end Engine

end Vllm.Core
