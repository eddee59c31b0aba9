import Vllm.Core.ScheduleCursor
import Vllm.Core.UpdateProfiles

/-!
# The adapters of the running requests

The waiting phase counts the adapters of the requests that this step has scheduled,
and admits a request only if its adapter fits.  A running request that the step
passes over keeps its adapter without being counted.  Where every adapter in use
is counted, the running requests never use more than `max_loras` of them.
-/

namespace Vllm.Core

open Vllm.Library Relation

namespace SchedulePass

variable {H : Type}

variable {scheduler : Scheduler H} {requestIds : List RequestId}

/-- The adapters in a list of requests, by their profiles. -/
theorem mem_lorasOf {adapter : Nat} :
    adapter ∈ lorasOf scheduler requestIds ↔
      ∃ requestId ∈ requestIds, ∃ profile lora, scheduler.profileOf requestId = some profile ∧
        profile.loraRequest = some lora ∧ 0 < lora.loraIntId ∧ lora.loraIntId = adapter := by
  unfold lorasOf
  rw [List.mem_dedup, List.mem_filterMap]
  constructor
  · rintro ⟨requestId, member, computed⟩
    rcases Option.bind_eq_some_iff.mp computed with ⟨request, found, computed⟩
    rcases Option.bind_eq_some_iff.mp computed with ⟨lora, loads, computed⟩
    split at computed
    · rename_i positive
      exact ⟨requestId, member, _, lora, Scheduler.profileOf_of_found found, loads, positive,
        Option.some.inj computed⟩
    · contradiction
  · rintro ⟨requestId, member, profile, lora, stored, loads, positive, rfl⟩
    rcases Option.map_eq_some_iff.mp stored with ⟨request, found, rfl⟩
    refine ⟨requestId, member, Option.bind_eq_some_iff.mpr ⟨request, found, ?_⟩⟩
    exact Option.bind_eq_some_iff.mpr ⟨lora, loads, if_pos positive⟩

theorem lorasOf_length_le {bound : List Nat} (within : lorasOf scheduler requestIds ⊆ bound) :
    (lorasOf scheduler requestIds).length ≤ bound.length :=
  (List.nodup_dedup _).length_le_of_subset within

end SchedulePass

/-- The request has an adapter only if it had it before. -/
def KeepsLora {H : Type} (scheduler next : Scheduler H) (requestId : RequestId) : Prop :=
  ∀ new, next.profileOf requestId = some new →
    ∃ old, scheduler.profileOf requestId = some old ∧ new.loraRequest = old.loraRequest

theorem keepsLora_of_lasting {H : Type} {scheduler next : Scheduler H} {requestId : RequestId}
    (same : lastingIn next.requests requestId = lastingIn scheduler.requests requestId) :
    KeepsLora scheduler next requestId := by
  intro new stored
  rw [lastingIn_eq_profileOf, stored, lastingIn_eq_profileOf] at same
  rcases Option.map_eq_some_iff.mp same.symm with ⟨old, before, lasts⟩
  have loads := congrArg Profile.loraRequest lasts
  exact ⟨old, before, loads.symm⟩

namespace SchedulePass

variable {H : Type}

/-- Fewer requests with the same adapters. -/
theorem lorasOf_subset {scheduler next : Scheduler H} {requestIds fewer : List RequestId}
    (within : fewer ⊆ requestIds) (same : ∀ requestId ∈ fewer, KeepsLora scheduler next requestId) :
    lorasOf next fewer ⊆ lorasOf scheduler requestIds := by
  intro adapter member
  rcases mem_lorasOf.mp member with ⟨requestId, inside, new, lora, stored, loads, positive, id⟩
  rcases same requestId inside new stored with ⟨old, before, unchanged⟩
  exact mem_lorasOf.mpr ⟨requestId, within inside, old, lora, before,
    unchanged.symm.trans loads, positive, id⟩

/-! ## The running phase -/

variable {next pass : SchedulePass H}

/-- A request keeps its adapter, preempted or not. -/
theorem Settled.lora {start : Scheduler H} (settled : pass.Settled start) (requestId : RequestId) :
    KeepsLora start pass.scheduler requestId := by
  rcases settled requestId with same | ⟨_, _, preempted⟩
  · exact keepsLora_of_lasting same
  · intro new stored
    rw [lastingIn_eq_profileOf, stored, lastingIn_eq_profileOf, Option.map_map] at preempted
    rcases Option.map_eq_some_iff.mp preempted.symm with ⟨old, before, lasts⟩
    have loads := congrArg Profile.loraRequest lasts
    exact ⟨old, before, loads.symm⟩

/-! ## The waiting phase -/

variable [DecidableEq H] [BlockHashing H]

section

omit [DecidableEq H] [BlockHashing H]

/-- The adapters in use are counted, and there are not too many. -/
def AdaptersCounted (pass : SchedulePass H) : Prop :=
  ∀ maxLoras, pass.scheduler.config.maxLoras = some maxLoras →
    pass.scheduledLoras.length ≤ maxLoras ∧
      lorasOf pass.scheduler pass.scheduler.running ⊆ pass.scheduledLoras

theorem AdaptersCounted.of_same (counted : pass.AdaptersCounted)
    (lasts : ∀ requestId, lastingIn next.scheduler.requests requestId =
      lastingIn pass.scheduler.requests requestId)
    (config : next.scheduler.config = pass.scheduler.config)
    (running : next.scheduler.running = pass.scheduler.running)
    (loras : next.scheduledLoras = pass.scheduledLoras) : next.AdaptersCounted := by
  intro maxLoras enabled
  rw [config] at enabled
  rw [running, loras]
  refine ⟨(counted maxLoras enabled).1, List.Subset.trans ?_ (counted maxLoras enabled).2⟩
  exact lorasOf_subset (List.Subset.refl _) fun requestId _ =>
    keepsLora_of_lasting (lasts requestId)

/-- The adapter of an admitted request is counted, and there was room for it. -/
theorem AdapterFits.addLora {maxLoras : Nat} {request : Request H} (fits : pass.AdapterFits request)
    (enabled : pass.config.maxLoras = some maxLoras)
    (room : pass.scheduledLoras.length ≤ maxLoras) :
    (pass.addLora request).length ≤ maxLoras ∧ pass.scheduledLoras ⊆ pass.addLora request ∧
      ∀ lora, request.loraRequest = some lora → lora.loraIntId ∈ pass.addLora request := by
  unfold SchedulePass.addLora
  rw [enabled]
  cases loads : request.loraRequest with
  | none => exact ⟨room, List.Subset.refl _, nofun⟩
  | some lora =>
      dsimp only
      refine ⟨?_, fun _ member => List.mem_insert_of_mem member, ?_⟩
      · by_cases known : lora.loraIntId ∈ pass.scheduledLoras
        · rw [List.insert_of_mem known]
          exact room
        · have unfilled : pass.scheduledLoras.length ≠ maxLoras :=
            fun full => known (fits maxLoras lora enabled loads full)
          rw [List.length_insert_of_not_mem known]
          omega
      · intro other same
        cases same
        exact List.mem_insert_self

end

theorem WaitingMove.adapters {input : ScheduleInput H} (move : WaitingMove input pass next)
    (counted : pass.AdaptersCounted) : next.AdaptersCounted := by
  have lasts := move.lasting
  have config := move.frame.config
  rcases move.cases with unadmitted | ⟨request, queue, lookup, admission, found, fits, -, ran⟩
  · exact counted.of_same lasts config unadmitted.running unadmitted.loras
  · rcases admit_spec ran with
      ⟨first, rest, manager, inflight, budgets, new, resumed, syncLoads, _, _, _, _, rfl⟩
    intro maxLoras limit
    rw [config] at limit
    rcases counted maxLoras limit with ⟨room, within⟩
    rcases fits.addLora limit room with ⟨room, keeps, own⟩
    refine ⟨room, ?_⟩
    intro adapter member
    rcases mem_lorasOf.mp member with
      ⟨requestId, running, new, lora, after, loads, positive, id⟩
    rcases keepsLora_of_lasting (lasts requestId) new after with ⟨old, before, unchanged⟩
    rw [unchanged] at loads
    rcases List.mem_append.mp running with earlier | joined
    · exact keeps (within (mem_lorasOf.mpr
        ⟨requestId, earlier, old, lora, before, loads, positive, id⟩))
    · obtain rfl := List.mem_singleton.mp joined
      rw [Scheduler.profileOf_of_found found] at before
      cases before
      exact id ▸ own lora loads

end SchedulePass

/-! ## Runs -/

namespace Scheduler

variable {H : Type} [DecidableEq H] [BlockHashing H]

omit [DecidableEq H] [BlockHashing H] in
/-- The adapters of the running requests, counted as `schedule` counts them. -/
def AdaptersWithin (scheduler : Scheduler H) : Prop :=
  ∀ maxLoras, scheduler.config.maxLoras = some maxLoras →
    (SchedulePass.lorasOf scheduler scheduler.running).length ≤ maxLoras

variable {scheduler next : Scheduler H}

section

omit [DecidableEq H] [BlockHashing H]

theorem AdaptersWithin.recedes (within : scheduler.AdaptersWithin)
    (config : next.config = scheduler.config) (running : next.running ⊆ scheduler.running)
    (same : ∀ requestId ∈ next.running, KeepsLora scheduler next requestId) :
    next.AdaptersWithin := by
  intro maxLoras enabled
  rw [config] at enabled
  have fewer := SchedulePass.lorasOf_length_le (SchedulePass.lorasOf_subset running same)
  exact fewer.trans (within maxLoras enabled)

theorem preemptRequest_keepsLora {start : Scheduler H} {requestId : RequestId}
    {dropStaleOutput : Bool} (keyed : scheduler.Keyed)
    (keeps : ∀ requestId, KeepsLora start scheduler requestId)
    (ran : scheduler.preemptRequest requestId dropStaleOutput = .ok next) :
    next.Keyed ∧ ∀ requestId, KeepsLora start next requestId := by
  rcases preemptRequest_spec ran with ⟨request, _, _, _, _, _, _, found, _, _, _, rfl⟩
  refine ⟨keyed_insert keyed rfl, ?_⟩
  intro other new stored
  have written := (profileOf_setRequest scheduler (request.preempted dropStaleOutput)
    other).symm.trans stored
  split at written
  · rename_i here
    cases written
    have key : request.requestId = other := here
    rw [keyed requestId request found] at key
    exact keeps other request.profile (profileOf_of_found (key ▸ found))
  · exact keeps other new written

theorem Carries.lora (carries : scheduler.Carries next) (requestId : RequestId) :
    KeepsLora scheduler next requestId := by
  intro new found
  rcases carries requestId new found with ⟨old, stored, continues⟩
  exact ⟨old, stored, by rw [continues.2]⟩

/-- The running phase has counted every adapter in use when the waiting phase
begins. -/
def CoversAdapters (scheduler : Scheduler H) (input : ScheduleInput H) : Prop :=
  ∀ pass, scheduler.runningPhase input = .ok pass → pass.preemptedReqs = [] →
    pass.scheduler.pauseState = .unpaused →
      SchedulePass.lorasOf pass.scheduler pass.scheduler.running ⊆
        SchedulePass.lorasOf pass.scheduler pass.scheduledRunningReqs

/-- After the running phase: the adapters are as before or fewer, and so are those of
the scheduled requests. -/
theorem AdaptersWithin.runningPhase {input : ScheduleInput H} {pass : SchedulePass H}
    (within : scheduler.AdaptersWithin) (keyed : scheduler.Keyed) (nodup : scheduler.running.Nodup)
    (moves : ReflTransGen (SchedulePass.RunningMove input) (scheduler.startPass input) pass) :
    pass.scheduler.AdaptersWithin ∧ pass.scheduler.config = scheduler.config ∧
      SchedulePass.lorasOf pass.scheduler pass.scheduledRunningReqs ⊆
        SchedulePass.lorasOf pass.scheduler pass.scheduler.running := by
  rcases runningPhase_settled keyed nodup moves with ⟨_, cursor, settled⟩
  have recedes := chain_keeps
    (fun pass : SchedulePass H => pass.scheduler.config = scheduler.config ∧
      pass.scheduler.running ⊆ scheduler.running)
    SchedulePass.RunningMove.recedes moves ⟨rfl, List.Subset.refl _⟩
  refine ⟨within.recedes recedes.1 recedes.2 fun requestId _ => settled.lora requestId,
    recedes.1, ?_⟩
  refine SchedulePass.lorasOf_subset (fun requestId member => (cursor.before _ member).mem) ?_
  exact fun requestId _ new stored => ⟨new, stored, rfl⟩

end

/-- A step that counts every adapter in use keeps their number within the limit. -/
theorem AdaptersWithin.schedule {input : ScheduleInput H} {output : SchedulerOutput}
    (within : scheduler.AdaptersWithin) (keyed : scheduler.Keyed) (nodup : scheduler.running.Nodup)
    (covers : scheduler.CoversAdapters input) (ran : scheduler.schedule input = .ok (output, next)) :
    next.AdaptersWithin := by
  rcases schedule_moves keyed ran with
    ⟨ranPass, recorded, waited, phase, runningMoves, recording, _, waitingMoves, filed, finishing⟩
  rcases within.runningPhase keyed nodup runningMoves with ⟨afterRunning, config, _⟩
  have afterWaiting : waited.scheduler.AdaptersWithin := by
    have afterRecording : recorded.scheduler = ranPass.scheduler ∧
        (recorded.preemptedReqs = [] → recorded.scheduler.pauseState = .unpaused →
          recorded.AdaptersCounted) := by
      rcases SchedulePass.recordScheduledLoras_spec recording with
        ⟨disabled, rfl⟩ | ⟨maxLoras, enabled, room, rfl⟩
      · refine ⟨rfl, fun _ _ maxLoras enabled => ?_⟩
        exact absurd (disabled.symm.trans enabled) nofun
      · refine ⟨rfl, fun unpreempted unpaused limit same => ?_⟩
        cases enabled.symm.trans same
        exact ⟨room, covers ranPass phase unpreempted unpaused⟩
    rcases waitingMoves with rfl | ⟨unpreempted, unpaused, last, moves, skipped, bound, _, rfl⟩
    · rw [afterRecording.1]
      exact afterRunning
    · have counted := chain_keeps SchedulePass.AdaptersCounted SchedulePass.WaitingMove.adapters
        moves (afterRecording.2 unpreempted unpaused)
      intro maxLoras enabled
      have within := counted maxLoras enabled
      exact (SchedulePass.lorasOf_length_le within.2).trans within.1
  rcases SchedulePass.finish_spec filed finishing with
    ⟨⟨_, _, _, requests, _, rfl⟩, _, _, _, _, progress⟩
  refine afterWaiting.recedes rfl (List.Subset.refl _) ?_
  intro requestId _ new stored
  rw [progress] at stored
  rcases Option.map_eq_some_iff.mp stored with ⟨old, before, rfl⟩
  exact ⟨old, before, rfl⟩

end Scheduler

namespace Engine

variable {H : Type} [DecidableEq H] [BlockHashing H]

/-- The running requests use at most `max_loras` adapters, and the assertion before
the waiting phase of the next step holds. -/
structure AdaptersBounded (engine : Engine H) : Prop where
  within : engine.scheduler.AdaptersWithin
  asserted : ∀ input pass, engine.scheduler.runningPhase input = .ok pass →
    ∃ recorded, pass.recordScheduledLoras = .ok recorded

/-- Every step counts the adapters of all running requests when its waiting phase
begins. -/
def CoversAdapters (engine : Engine H) : Call H → Prop
  | .schedule input => engine.scheduler.CoversAdapters input
  | _ => True

variable {call : Call H}

theorem execute_adaptersWithin {engine next : Engine H}
    (queued : engine.scheduler.Queued False [] []) (within : engine.scheduler.AdaptersWithin)
    (covers : engine.CoversAdapters call) (ran : engine.execute call = .ok next) :
    next.scheduler.AdaptersWithin := by
  have keyed := queued.keyed
  cases executes_of_execute ran with
  | addRequest adding =>
      have recedes := Scheduler.addRequest_recedes keyed adding
      apply within.recedes recedes.config recedes.running
      intro requestId member
      rcases Scheduler.addRequest_profiles keyed adding with carries | ⟨absent, profiles⟩
      · exact carries.lora requestId
      · intro new found
        rcases profiles requestId new found with ⟨rfl, _⟩ | before
        · -- A new request is not running.
          rcases queued.placed.activeFit _ (recedes.running member) with ⟨status, stored, _⟩
          unfold statusIn at stored
          rw [absent] at stored
          contradiction
        · exact ⟨new, before, rfl⟩
  | schedule scheduling =>
      exact within.schedule keyed queued.running_nodup covers scheduling
  | updateFromOutput step rest flying updating =>
      have recedes := Scheduler.updateFromOutput_recedes keyed updating
      apply within.recedes recedes.config recedes.running
      intro requestId _ new found
      rcases Scheduler.updateFromOutput_drains keyed updating found with
        ⟨old, stored, continues⟩
      refine ⟨old, stored, ?_⟩
      rw [continues.2]
      unfold Scheduler.drainedBy
      split <;> rfl
  | finishRequests finishing =>
      have recedes := Scheduler.finishRequests_recedes keyed finishing
      exact within.recedes recedes.config recedes.running
        fun requestId _ => (Scheduler.finishRequests_carries keyed finishing).lora requestId
  | updateDraftTokenIds entry =>
      have same : engine.scheduler.SameProfiles (engine.scheduler.updateDraftTokenIds entry) :=
        Scheduler.updateDraftTokenIds_spec keyed
      exact within.recedes same.recedes.config same.recedes.running
        fun requestId _ => (Scheduler.Carries.of_same same.1).lora requestId
  | resetPrefixCache resetting =>
      have recedes := Scheduler.resetPrefixCache_recedes resetting
      apply within.recedes recedes.config recedes.running
      have kept := Scheduler.resetPrefixCache_rule
        (fun state => state.Keyed ∧ ∀ requestId, KeepsLora engine.scheduler state requestId)
        (fun _ _ _ kept _ preempting =>
          Scheduler.preemptRequest_keepsLora (by exact kept.1) (by exact kept.2) preempting)
        (fun _ _ kept => kept) ⟨keyed, fun _ new found => ⟨new, found, rfl⟩⟩ resetting
      exact fun requestId _ => kept.2 requestId
  | setPauseState pauseState =>
      exact within

/-- A check that implies `CoversAdapters`. -/
def coversAdapters (engine : Engine H) : Call H → Bool
  | .schedule input =>
      match engine.scheduler.runningPhase input with
      | .error _ => true
      | .ok pass => decide (SchedulePass.lorasOf pass.scheduler pass.scheduler.running ⊆
          SchedulePass.lorasOf pass.scheduler pass.scheduledRunningReqs)
  | _ => true

theorem coversAdapters_sound {engine : Engine H} (covers : engine.coversAdapters call = true) :
    engine.CoversAdapters call := by
  cases call with
  | schedule input =>
      intro pass phase _ _
      simp only [coversAdapters, phase] at covers
      exact of_decide_eq_true covers
  | addRequest | updateFromOutput | finishRequests | updateDraftTokenIds | resetPrefixCache
  | setPauseState => trivial

/-- A request with an adapter. -/
def adapterRequest (requestId : RequestId) (adapter : Nat) : Call SymbolicHash :=
  .addRequest
    { requestId := requestId
      promptTokenIds := some [1]
      allTokenIds := [1]
      numPromptTokens := 1
      maxTokens := 8
      samplingParams := some { maxTokens := 8 }
      loraRequest := some { loraName := requestId, loraIntId := adapter } }
    fun _ => false

/-- One adapter at a time. -/
def oneAdapter : SchedulerConfig where
  maxNumRunningReqs := 8
  maxNumScheduledTokens := 64
  maxNumBatchedTokens := 64
  maxModelLen := 100
  blockSize := 4
  cacheBlockSize := 4
  hashBlockSize := 4
  maxLoras := some 1

end Engine

end Vllm.Core
