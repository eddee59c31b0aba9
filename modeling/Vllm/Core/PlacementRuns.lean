import Vllm.Core.RequestPlacement

/-!
# The queue partition over runs

In every run the requests in the queues are there once and with a fitting status.
That every unfinished request is in a queue holds as long as no output stops a
request that is not running and whose session goes on: such a request is put
into a queue and removed from it again in the same call.
-/

namespace Vllm.Core

open Vllm.Library

namespace Scheduler

variable {H : Type}

/-- Every unfinished request is in exactly one of the three queues and there once, in
`running` if and only if its status says so, and no other request is in them. -/
def Partitioned (scheduler : Scheduler H) : Prop :=
  (∀ requestId request, scheduler.requests.get? requestId = some request →
    request.isFinished = false →
      (scheduler.running ++ scheduler.waiting ++ scheduler.skippedWaiting).count requestId = 1 ∧
      (requestId ∈ scheduler.running ↔ request.status = .running)) ∧
  ∀ requestId ∈ scheduler.running ++ scheduler.waiting ++ scheduler.skippedWaiting,
    ∃ request, scheduler.requests.get? requestId = some request ∧ request.isFinished = false

theorem Queued.partitioned {scheduler : Scheduler H} (queued : scheduler.Queued True [] []) :
    scheduler.Partitioned := by
  have entries : scheduler.running ++ scheduler.waiting ++ scheduler.skippedWaiting =
      scheduler.running ++ scheduler.idle [] := by
    unfold Scheduler.idle
    rw [List.append_nil, List.append_assoc]
  have distinct := queued.placed.distinct
  constructor
  · intro requestId request found unfinished
    have status := statusIn_of_found found
    have member : requestId ∈ scheduler.running ++ scheduler.idle [] ∧
        (requestId ∈ scheduler.running ↔ request.status = .running) := by
      by_cases running : request.status = .running
      · rcases queued.placed.keepsActive requestId _ status running with kept | none
        · exact ⟨List.mem_append_left _ kept, iff_of_true kept running⟩
        · contradiction
      · rcases queued.placed.keepsIdle trivial requestId _ status ⟨running, unfinished⟩ with
          kept | none
        · refine ⟨List.mem_append_right _ kept, iff_of_false ?_ running⟩
          intro inside
          exact List.disjoint_of_nodup_append distinct inside kept
        · contradiction
    rw [entries]
    exact ⟨List.count_eq_one_of_mem distinct member.1, member.2⟩
  · intro requestId member
    rw [entries] at member
    have fits : ∃ status, statusIn scheduler.requests requestId = some status ∧
        status.isFinished = false := by
      rcases List.mem_append.mp member with running | idle
      · rcases queued.placed.activeFit requestId running with ⟨status, stored, rfl⟩
        exact ⟨_, stored, rfl⟩
      · rcases queued.placed.idleFit requestId idle with ⟨status, stored, fits⟩
        exact ⟨status, stored, fits.2⟩
    rcases fits with ⟨status, stored, unfinished⟩
    rcases Option.map_eq_some_iff.mp stored with ⟨request, found, rfl⟩
    exact ⟨request, found, unfinished⟩

end Scheduler

namespace Engine

variable {H : Type} [DecidableEq H] [BlockHashing H]

omit [DecidableEq H] [BlockHashing H] in
theorem init_queued (strict : Prop) (config : SchedulerConfig) (manager : KVCacheManager H)
    (encoderCacheSize : Nat) :
    (Scheduler.init config manager encoderCacheSize).Queued strict [] [] := by
  have unknown : ∀ requestId,
      statusIn (Scheduler.init config manager encoderCacheSize).requests requestId = none :=
    fun _ => rfl
  refine ⟨fun _ _ found => by contradiction, List.nodup_nil, ?_, ?_, ?_, ?_⟩
  · exact fun _ member => absurd member List.not_mem_nil
  · exact fun _ member => absurd member List.not_mem_nil
  · intro requestId value found
    rw [unknown] at found
    contradiction
  · intro _ requestId value found
    rw [unknown] at found
    contradiction

/-- No output stops a request that is not running and whose session goes on. -/
def KeepsSessions (engine : Engine H) : Call H → Prop
  | .updateFromOutput runner =>
      ∀ step rest failed begun, engine.inFlight = step :: rest →
        engine.scheduler.beginUpdate step.output runner = .ok (failed, begun) →
        ∀ entry ∈ step.output.numScheduledTokens.entries,
          ¬UpdatePass.StopsIdleSession begun step.output runner failed entry
  | _ => True

variable {engine : Engine H}

variable {call : Call H}

/-- A call keeps the requests in their places. -/
theorem execute_queued {strict : Prop} {next : Engine H}
    (queued : engine.scheduler.Queued strict [] []) (allowed : engine.Allowed call)
    (safe : strict → engine.KeepsSessions call) (ran : engine.execute call = .ok next) :
    next.scheduler.Queued strict [] [] := by
  cases executes_of_execute ran with
  | addRequest adding =>
      exact queued.addRequest allowed.1 adding
  | schedule scheduling =>
      exact queued.schedule scheduling
  | updateFromOutput step rest flying updating =>
      exact queued.updateFromOutput
        (fun isStrict failed begun => safe isStrict step rest failed begun flying) updating
  | finishRequests finishing =>
      exact queued.finishRequests finishing
  | updateDraftTokenIds entry =>
      exact queued.sameProfiles (Scheduler.updateDraftTokenIds_spec queued.keyed)
  | resetPrefixCache resetting =>
      exact queued.resetPrefixCache resetting
  | setPauseState pauseState =>
      exact ⟨queued.keyed, queued.placed⟩

/-- In every run the queued requests are in their places. -/
theorem reachable_queued {condition : Engine H → Call H → Prop}
    (reached : Reachable (system condition) engine) : engine.scheduler.Queued False [] [] := by
  refine reachable_rule (fun engine => engine.scheduler.Queued False [] [])
    (init_queued False) ?_ reached
  intro engine call next queued allowed _ ran
  exact execute_queued queued allowed nofun ran

/-- In every run whose calls keep the sessions, the queues partition the unfinished
requests. -/
theorem reachable_partitioned {engine : Engine H}
    (reached : Reachable (system KeepsSessions) engine) : engine.scheduler.Partitioned := by
  have queued := reachable_rule (fun engine : Engine H => engine.scheduler.Queued True [] [])
    (init_queued True)
    (fun engine call next queued allowed meets ran =>
      execute_queued queued allowed (fun _ => meets) ran) reached
  exact queued.partitioned

/-- A check that implies `KeepsSessions`: the requests of the step are running. -/
def stepIsRunning (engine : Engine H) : Call H → Bool
  | .updateFromOutput runner =>
      engine.inFlight.head?.all fun step =>
        match engine.scheduler.beginUpdate step.output runner with
        | .error _ => true
        | .ok begun => step.output.numScheduledTokens.entries.all fun entry =>
            (begun.2.requests.get? entry.1).all fun request => request.status = .running
  | _ => true

theorem keepsSessions_of_stepIsRunning (running : engine.stepIsRunning call = true) :
    engine.KeepsSessions call := by
  cases call with
  | updateFromOutput runner =>
      rintro step rest failed begun flying beginning entry member ⟨request, found, _, idle, _⟩
      simp only [stepIsRunning, flying, beginning, List.head?_cons, Option.all_some,
        List.all_eq_true] at running
      have status := running entry member
      rw [found, Option.all_some] at status
      exact idle (of_decide_eq_true status)
  | addRequest | schedule | finishRequests | updateDraftTokenIds | resetPrefixCache
  | setPauseState => trivial

/-- A session that samples its end-of-sequence token while its next step is in
flight. -/
def endingSession : List (Call SymbolicHash) :=
  [.addRequest
      { requestId := "session"
        promptTokenIds := some [1]
        allTokenIds := [1]
        numPromptTokens := 1
        maxTokens := 2
        samplingParams := some { maxTokens := 2, eosTokenId := some 9 }
        resumable := true }
      fun _ => false,
    .schedule {}, .schedule {}, .updateFromOutput { sampledTokenIds := fun _ => [9] }]

def asynchronous : SchedulerConfig where
  maxNumRunningReqs := 8
  maxNumScheduledTokens := 64
  maxNumBatchedTokens := 64
  maxModelLen := 100
  blockSize := 4
  cacheBlockSize := 4
  hashBlockSize := 4
  asyncScheduling := true

/-- While the second step is in flight the session waits for its next input, in
`skipped_waiting`. -/
theorem reachable_partitioned_waiting :
    ∃ engine : Engine SymbolicHash, engine.scheduler.skippedWaiting = ["session"] ∧
      engine.inFlight.length = 1 ∧ engine.scheduler.Partitioned := by
  have computed : (replayCalls stepIsRunning asynchronous 10 0 endingSession).map
      (fun engine => decide (engine.scheduler.skippedWaiting = ["session"] ∧
        engine.inFlight.length = 1)) = some true := by
    decide +kernel
  rcases Option.map_eq_some_iff.mp computed with ⟨engine, replayed, shown⟩
  have facts := of_decide_eq_true shown
  exact ⟨engine, facts.1, facts.2, reachable_partitioned
    (replayCalls_reachable (fun _ _ => keepsSessions_of_stepIsRunning) replayed)⟩

/-- The output of that step hits the length limit: the session is queued again and
removed, and is in no queue. -/
theorem partition_loses_session :
    ¬∀ engine : Engine SymbolicHash, Reachable (system fun _ _ => True) engine →
      engine.scheduler.Partitioned := by
  intro partitioned
  have computed : (replayCalls (fun _ _ => true) asynchronous 10 0
      (endingSession ++ [.updateFromOutput { sampledTokenIds := fun _ => [5] }])).map
        (fun engine => decide (
          (engine.scheduler.running ++ engine.scheduler.waiting ++
            engine.scheduler.skippedWaiting).count "session" = 0 ∧
          (engine.scheduler.requests.get? "session").map Request.isFinished = some false)) =
      some true := by
    decide +kernel
  rcases Option.map_eq_some_iff.mp computed with ⟨engine, replayed, shown⟩
  rcases of_decide_eq_true shown with ⟨nowhere, unfinished⟩
  rcases Option.map_eq_some_iff.mp unfinished with ⟨request, found, unfinished⟩
  have reached : Reachable (system fun _ _ => True) engine :=
    replayCalls_reachable (fun _ _ _ => trivial) replayed
  have once := ((partitioned engine reached).1 "session" request found unfinished).1
  exact Nat.zero_ne_one (nowhere.symm.trans once)

end Engine

end Vllm.Core
