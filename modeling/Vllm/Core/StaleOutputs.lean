import Vllm.Core.ScheduleCursor
import Vllm.Core.UpdateProfiles
import Vllm.Library.EpochQueue

/-!
# Stale outputs

A request keeps two counters of the tokens whose outputs have not come back: all
of them, and those of the steps before its last preemption.  They describe the
steps in flight in every run, so an output is treated as stale if and only if
its step was scheduled before the last preemption of the request.
-/

namespace Vllm.Core

open Vllm.Library

/-- The shares that a request has in the steps in flight. -/
def sharesOf (inFlight : List Step) (requestId : RequestId) : List (Nat × Nat) :=
  inFlight.filterMap fun step =>
    (step.output.numScheduledTokens.get? requestId).map (step.epoch requestId, ·)

theorem sharesOf_cons (step : Step) (rest : List Step) (requestId : RequestId) :
    sharesOf (step :: rest) requestId =
      ((step.output.numScheduledTokens.get? requestId).map (step.epoch requestId, ·)).toList ++
        sharesOf rest requestId := by
  unfold sharesOf
  rw [List.filterMap_cons]
  cases step.output.numScheduledTokens.get? requestId <;> rfl

/-- A request that no step speaks about has no shares. -/
theorem sharesOf_eq_nil {inFlight : List Step} {requestId : RequestId}
    (unknown : ∀ step ∈ inFlight, requestId ∉ step.output.numScheduledTokens.keys) :
    sharesOf inFlight requestId = [] := by
  unfold sharesOf
  rw [List.filterMap_eq_nil_iff]
  intro step member
  rw [(Dict.get?_eq_none_iff _ _).mpr (unknown step member)]
  rfl

/-- The counters of the profile describe the shares. -/
def Profile.Tracked (profile : Profile) (shares : List (Nat × Nat)) : Prop :=
  Tracks shares profile.numPreemptions profile.numInFlightTokens profile.numStaleOutputTokens

theorem Scheduler.Continues.tracked {old new : Profile} {shares : List (Nat × Nat)}
    (continues : Scheduler.Continues old new) (tracked : old.Tracked shares) :
    new.Tracked shares := by
  rw [continues.2]
  exact tracked

namespace Engine

variable {H : Type}

/-- The counters of every request describe its shares in the steps in flight. -/
def Accounted (inFlight : List Step) (scheduler : Scheduler H) : Prop :=
  ∀ requestId profile, lastingIn scheduler.requests requestId = some profile →
    profile.Tracked (sharesOf inFlight requestId)

variable {inFlight : List Step} {scheduler next : Scheduler H} {requestId : RequestId}

theorem Accounted.profile (accounted : Accounted inFlight scheduler) {profile : Profile}
    (found : scheduler.profileOf requestId = some profile) :
    profile.Tracked (sharesOf inFlight requestId) := by
  refine accounted requestId profile.lasting ?_
  rw [lastingIn_eq_profileOf, found]
  rfl

theorem Accounted.of_profiles
    (tracked : ∀ requestId profile, scheduler.profileOf requestId = some profile →
      profile.Tracked (sharesOf inFlight requestId)) : Accounted inFlight scheduler := by
  intro requestId profile lasts
  rw [lastingIn_eq_profileOf] at lasts
  rcases Option.map_eq_some_iff.mp lasts with ⟨found, stored, rfl⟩
  exact tracked requestId found stored

theorem Accounted.carries (accounted : Accounted inFlight scheduler)
    (carries : scheduler.Carries next) : Accounted inFlight next := by
  apply Accounted.of_profiles
  intro requestId new found
  rcases carries requestId new found with ⟨old, stored, continues⟩
  exact continues.tracked (accounted.profile stored)

/-- A preemption declares everything in flight stale. -/
theorem Accounted.preempt {dropStaleOutput : Bool} (keyed : scheduler.Keyed)
    (accounted : Accounted inFlight scheduler)
    (ran : scheduler.preemptRequest requestId dropStaleOutput = .ok next) :
    next.Keyed ∧ Accounted inFlight next := by
  rcases Scheduler.preemptRequest_spec ran with
    ⟨request, _, _, _, _, _, _, found, _, _, _, rfl⟩
  have key := keyed requestId request found
  refine ⟨Scheduler.keyed_insert keyed rfl, ?_⟩
  intro other profile lasts
  by_cases here : other = request.requestId
  · rw [here] at lasts ⊢
    rw [lastingIn_of_found (Dict.get?_insert_self ..)] at lasts
    cases lasts
    rw [← key] at found
    exact (accounted _ _ (lastingIn_of_found found)).declareStale
  · rw [lastingIn_insert_of_ne _ _ here] at lasts
    exact accounted other profile lasts

theorem epochOf_of_lasting {profile : Profile}
    (lasts : lastingIn scheduler.requests requestId = some profile) :
    epochOf scheduler requestId = profile.numPreemptions := by
  rcases Option.map_eq_some_iff.mp lasts with ⟨request, found, rfl⟩
  unfold epochOf
  rw [found]
  rfl

variable [DecidableEq H] [BlockHashing H]

/-- A new step is the last one in flight. -/
theorem Accounted.schedule {input : ScheduleInput H} {output : SchedulerOutput}
    (keyed : scheduler.Keyed) (nodup : scheduler.running.Nodup)
    (accounted : Accounted inFlight scheduler)
    (ran : scheduler.schedule input = .ok (output, next)) :
    Accounted (inFlight ++ [⟨output, epochOf scheduler⟩]) next := by
  intro requestId profile lasts
  have shares : sharesOf (inFlight ++ [⟨output, epochOf scheduler⟩]) requestId =
      sharesOf inFlight requestId ++
        ((output.numScheduledTokens.get? requestId).map (epochOf scheduler requestId, ·)).toList := by
    unfold sharesOf
    rw [List.filterMap_append, List.filterMap_cons]
    cases output.numScheduledTokens.get? requestId <;> rfl
  rw [shares]
  rcases Scheduler.schedule_lasting keyed nodup ran requestId with
    ⟨numTokens, scheduled, positive, progress⟩ | ⟨unscheduled, same | preempted⟩
  · rw [progress] at lasts
    rcases Option.map_eq_some_iff.mp lasts with ⟨old, before, rfl⟩
    rw [scheduled, epochOf_of_lasting before]
    exact (accounted requestId old before).handOut positive
  · rw [same] at lasts
    rw [unscheduled, Option.map_none, Option.toList_none, List.append_nil]
    exact accounted requestId profile lasts
  · rw [preempted] at lasts
    rcases Option.map_eq_some_iff.mp lasts with ⟨old, before, rfl⟩
    rw [unscheduled, Option.map_none, Option.toList_none, List.append_nil]
    exact (accounted requestId old before).declareStale

/-- The oldest step comes back. -/
theorem Accounted.updateFromOutput {step : Step} {rest : List Step} {runner : ModelRunnerOutput}
    {outputs : List EngineCoreOutput} (keyed : scheduler.Keyed)
    (accounted : Accounted (step :: rest) scheduler)
    (ran : scheduler.updateFromOutput step.output runner = .ok (outputs, next)) :
    Accounted rest next := by
  apply Accounted.of_profiles
  intro requestId new found
  rcases Scheduler.updateFromOutput_drains keyed ran found with ⟨old, stored, continues⟩
  have tracked := accounted.profile stored
  rw [sharesOf_cons] at tracked
  apply continues.tracked
  unfold Scheduler.drainedBy
  cases scheduled : step.output.numScheduledTokens.get? requestId with
  | none =>
      rw [scheduled] at tracked
      exact tracked
  | some numTokens =>
      rw [scheduled] at tracked
      exact tracked.comeBack

variable {engine : Engine H} {condition : Engine H → Call H → Prop}

theorem execute_accounted {next : Engine H} {call : Call H}
    (queued : engine.scheduler.Queued False [] [])
    (accounted : Accounted engine.inFlight engine.scheduler) (allowed : engine.Allowed call)
    (ran : engine.execute call = .ok next) : Accounted next.inFlight next.scheduler := by
  have keyed := queued.keyed
  cases executes_of_execute ran with
  | @addRequest request _ _ adding =>
      rcases Scheduler.addRequest_profiles keyed adding with carries | ⟨absent, profiles⟩
      · exact accounted.carries carries
      · apply Accounted.of_profiles
        intro requestId new found
        rcases profiles requestId new found with ⟨rfl, rfl⟩ | before
        · rw [sharesOf_eq_nil (allowed.2 absent)]
          change Tracks [] request.numPreemptions request.numInFlightTokens
            request.numStaleOutputTokens
          rw [allowed.1.numInFlightTokens, allowed.1.numStaleOutputTokens]
          exact Tracks.empty _
        · exact accounted.profile before
  | schedule scheduling =>
      exact accounted.schedule keyed queued.running_nodup scheduling
  | updateFromOutput step rest flying updating =>
      rw [flying] at accounted
      exact accounted.updateFromOutput keyed updating
  | finishRequests finishing =>
      exact accounted.carries (Scheduler.finishRequests_carries keyed finishing)
  | updateDraftTokenIds entry =>
      exact accounted.carries
        (Scheduler.Carries.of_same (Scheduler.updateDraftTokenIds_spec keyed).1)
  | resetPrefixCache resetting =>
      have reset := Scheduler.resetPrefixCache_rule
        (fun state => state.Keyed ∧ Accounted engine.inFlight state) ?_ ?_ ⟨keyed, accounted⟩
        resetting
      · exact reset.2
      · intro state after requestId kept _ preempting
        exact Accounted.preempt (by exact kept.1) (by exact kept.2) preempting
      · exact fun state manager kept => kept
  | setPauseState pauseState =>
      exact accounted

/-- In every run the counters describe the steps in flight. -/
theorem reachable_countersAccounted (reached : Reachable (system condition) engine) :
    Accounted engine.inFlight engine.scheduler := by
  have both := reachable_rule
    (fun engine : Engine H => engine.scheduler.Queued False [] [] ∧
      Accounted engine.inFlight engine.scheduler)
    (fun config manager encoderCacheSize =>
      ⟨init_queued False config manager encoderCacheSize, fun _ _ unknown => by contradiction⟩)
    (fun engine call next kept allowed _ ran =>
      ⟨execute_queued kept.1 allowed nofun ran, execute_accounted kept.1 kept.2 allowed ran⟩)
    reached
  exact both.2

/-- The oldest step, when the main loop of `update_from_output` comes to one of its
entries: the output is treated as stale if and only if the request was preempted
since the step was scheduled, and draining the counters keeps them from being
negative. -/
def StaleExactly (engine : Engine H) : Prop :=
  ∀ step rest runner failed begun, engine.inFlight = step :: rest →
    engine.scheduler.beginUpdate step.output runner = .ok (failed, begun) →
    ∀ done entry todo pass request, step.output.numScheduledTokens.entries = done ++ entry :: todo →
      done.foldlM (UpdatePass.processScheduled step.output runner failed)
        { scheduler := begun } = .ok pass →
      pass.scheduler.requests.get? entry.1 = some request →
        ((request.drained entry.2).1 = true ↔ step.epoch entry.1 < request.numPreemptions) ∧
        0 ≤ (request.drained entry.2).2.numInFlightTokens ∧
        0 ≤ (request.drained entry.2).2.numStaleOutputTokens

/-- In every run an output is treated as stale if and only if its step was scheduled
before the last preemption of the request, and the counters are never negative. -/
theorem reachable_stale_exactly {engine : Engine H}
    (reached : Reachable (system fun _ _ => True) engine) :
    engine.StaleExactly ∧
      ∀ requestId request, engine.scheduler.requests.get? requestId = some request →
        0 ≤ request.numInFlightTokens ∧ 0 ≤ request.numStaleOutputTokens := by
  have keyed := (reachable_queued reached).keyed
  have accounted := reachable_countersAccounted reached
  constructor
  · intro step rest runner failed begun flying beginning done entry todo pass request entries
      processing found
    -- The entries before this one are about other requests.
    have distinct := step.output.numScheduledTokens.nodupKeys
    rw [entries, List.map_append, List.map_cons] at distinct
    have fresh : entry.1 ∉ done.map Prod.fst := fun member =>
      List.disjoint_of_nodup_append distinct member List.mem_cons_self
    have same := (Scheduler.beginUpdate_spec keyed beginning).1
    have filed := (Scheduler.Carries.of_same same).keyed keyed
    rw [(UpdatePass.processAll_frame (by exact filed) fresh processing).2] at found
    have stored := (same entry.1).symm.trans (Scheduler.profileOf_of_found found)
    have tracked := accounted.profile stored
    have scheduled : step.output.numScheduledTokens.get? entry.1 = some entry.2 := by
      rw [Dict.get?_eq_some_iff, entries]
      exact List.mem_append_right _ List.mem_cons_self
    rw [flying, sharesOf_cons, scheduled] at tracked
    have drained := tracked.comeBack
    refine ⟨?_, drained.pending_nonneg, ?_⟩
    · exact decide_eq_true_iff.trans tracked.stale_pos_iff
    · have nonnegative := drained.stale_nonneg
      rw [show (request.drained entry.2).2.numStaleOutputTokens =
        (request.profile.drained entry.2).numStaleOutputTokens from
          congrArg Profile.numStaleOutputTokens (request.drained_profile entry.2)]
      exact nonnegative
  · intro requestId request found
    have tracked := accounted.profile (Scheduler.profileOf_of_found found)
    exact ⟨tracked.pending_nonneg, tracked.stale_nonneg⟩

/-- A request that is preempted and resumed while a step of it is in flight. -/
def resumedRequest : List (Call SymbolicHash) :=
  [.addRequest
      { requestId := "request"
        promptTokenIds := some [1, 2]
        allTokenIds := [1, 2]
        numPromptTokens := 2
        maxTokens := 8
        samplingParams := some { maxTokens := 8 } }
      fun _ => false,
    .schedule {}, .schedule {}, .resetPrefixCache true,
    .updateFromOutput { sampledTokenIds := fun _ => [5] }, .schedule {}]

/-- The older of the two steps in flight is stale, the newer one is not. -/
theorem reachable_stale_exactly_resumed :
    ∃ engine : Engine SymbolicHash,
      engine.inFlight.map (fun step => step.epoch "request") = [0, 1] ∧
      epochOf engine.scheduler "request" = 1 ∧ engine.StaleExactly := by
  have computed : (replayCalls (fun _ _ => true) asynchronous 10 0 resumedRequest).map
      (fun engine => decide (
        engine.inFlight.map (fun step => step.epoch "request") = [0, 1] ∧
        epochOf engine.scheduler "request" = 1)) = some true := by
    decide +kernel
  rcases Option.map_eq_some_iff.mp computed with ⟨engine, replayed, shown⟩
  have facts := of_decide_eq_true shown
  have reached : Reachable (system fun _ _ => True) engine :=
    replayCalls_reachable (fun _ _ _ => trivial) replayed
  exact ⟨engine, facts.1, facts.2, (reachable_stale_exactly reached).1⟩

/-- The tokens of a request that some steps compute. -/
def handedOut (requestId : RequestId) (steps : List Step) : Nat :=
  (steps.map fun step => step.output.numScheduledTokens.getD requestId 0).sum

theorem total_sharesOf (steps : List Step) (requestId : RequestId) :
    total (sharesOf steps requestId) = handedOut requestId steps := by
  induction steps with
  | nil => rfl
  | cons step rest inductionHypothesis =>
      rw [sharesOf_cons, total_append, inductionHypothesis]
      unfold handedOut Dict.getD
      cases scheduled : step.output.numScheduledTokens.get? requestId with
      | none => simp [scheduled, total]
      | some numTokens => simp [scheduled, total]

theorem staleShares_sharesOf (epoch : Nat) (steps : List Step) (requestId : RequestId) :
    staleShares epoch (sharesOf steps requestId) =
      sharesOf (steps.filter fun step => step.epoch requestId < epoch) requestId := by
  unfold staleShares sharesOf
  rw [List.filter_filterMap, List.filterMap_filter]
  congr 1
  funext step
  cases step.output.numScheduledTokens.get? requestId with
  | none => simp
  | some numTokens => simp [Option.filter]

/-- In every run the counters of a request are the tokens that the steps in flight compute for it,
in all and in the steps scheduled before its last preemption. -/
theorem reachable_counters_exact (reached : Reachable (system condition) engine)
    (requestId : RequestId) (request : Request H)
    (found : engine.scheduler.requests.get? requestId = some request) :
    request.numInFlightTokens = handedOut requestId engine.inFlight ∧
      request.numStaleOutputTokens = handedOut requestId
        (engine.inFlight.filter fun step => step.epoch requestId < request.numPreemptions) := by
  have tracked := (reachable_countersAccounted reached).profile (Scheduler.profileOf_of_found found)
  constructor
  · rw [← total_sharesOf]
    exact tracked.pending_eq
  · rw [← total_sharesOf, ← staleShares_sharesOf]
    exact tracked.stale_eq

/-- One of the two steps in flight is stale. -/
theorem reachable_counters_exact_resumed :
    ∃ (engine : Engine SymbolicHash) (request : Request SymbolicHash),
      engine.inFlight.map (fun step => step.epoch "request") = [0, 1] ∧
      request.numPreemptions = 1 ∧ request.numStaleOutputTokens = 1 ∧
      request.numInFlightTokens = handedOut "request" engine.inFlight := by
  have computed : (replayCalls (fun _ _ => true) asynchronous 10 0 resumedRequest).map
      (fun engine => (engine.scheduler.requests.get? "request").map fun request => decide (
        engine.inFlight.map (fun step => step.epoch "request") = [0, 1] ∧
        request.numPreemptions = 1 ∧ request.numStaleOutputTokens = 1)) = some (some true) := by
    decide +kernel
  rcases Option.map_eq_some_iff.mp computed with ⟨engine, replayed, stored⟩
  rcases Option.map_eq_some_iff.mp stored with ⟨request, found, shown⟩
  have facts := of_decide_eq_true shown
  have reached : Reachable (system fun _ _ => True) engine :=
    replayCalls_reachable (fun _ _ _ => trivial) replayed
  exact ⟨engine, request, facts.1, facts.2.1, facts.2.2,
    (reachable_counters_exact reached "request" request found).1⟩

end Engine

end Vllm.Core
