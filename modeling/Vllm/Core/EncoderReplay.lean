import Vllm.Core.ScheduleCursor
import Vllm.Core.UpdateProfiles

/-!
# The worker's encoder cache

A worker that follows the outputs encodes what they schedule and drops what they
report as freed.  It then holds everything that the manager reports as cached,
as long as no preemption takes back inputs that the same step has scheduled:
their entries stay cached, but the output no longer schedules them.
-/

namespace Vllm.Core

open Vllm.Library Relation

open EncoderCacheManager

namespace Engine

variable {H : Type}

/-- The hash of an input only depends on what lasts. -/
theorem hashOf_eq (scheduler : Scheduler H) (requestId : RequestId) (inputId : Nat) :
    hashOf scheduler requestId inputId =
      (lastingIn scheduler.requests requestId).bind fun profile =>
        (profile.mmFeatures[inputId]?).map MultiModalFeatureSpec.identifier := by
  unfold hashOf lastingIn
  cases scheduler.requests.get? requestId with
  | none => rfl
  | some request =>
      change (request.mmFeatures[inputId]?).bind _ = (request.mmFeatures[inputId]?).map _
      cases request.mmFeatures[inputId]? <;> rfl

variable {scheduler : Scheduler H}

theorem hashOf_of_found {request : Request H}
    (found : scheduler.requests.get? request.requestId = some request) {inputId : Nat}
    {feature : MultiModalFeatureSpec} (placed : request.mmFeatures[inputId]? = some feature) :
    hashOf scheduler request.requestId inputId = some feature.identifier := by
  rw [hashOf_eq, lastingIn_of_found found]
  exact congrArg (Option.map MultiModalFeatureSpec.identifier) placed

theorem mem_scheduledHashes {scheduled : Dict RequestId (List Nat)} {mmHash : String} :
    mmHash ∈ scheduledHashes scheduler scheduled ↔
      ∃ requestId inputIds, scheduled.get? requestId = some inputIds ∧
        ∃ inputId ∈ inputIds, hashOf scheduler requestId inputId = some mmHash := by
  unfold scheduledHashes
  simp only [List.mem_flatMap, List.mem_filterMap, Prod.exists, Dict.get?_eq_some_iff]

theorem scheduledHashes_congr {next : Scheduler H}
    (same : ∀ requestId inputId, hashOf next requestId inputId = hashOf scheduler requestId inputId)
    (scheduled : Dict RequestId (List Nat)) :
    scheduledHashes next scheduled = scheduledHashes scheduler scheduled := by
  unfold scheduledHashes
  rw [show hashOf next = hashOf scheduler from funext fun _ => funext fun _ => same _ _]

end Engine

namespace SchedulePass

variable {H : Type}

variable {start : Scheduler H} {pass next : SchedulePass H} {workerCache : List String}
  {input : ScheduleInput H}

/-- A request keeps its items, preempted or not. -/
theorem Settled.hashOf (settled : pass.Settled start) (requestId : RequestId) (inputId : Nat) :
    Engine.hashOf pass.scheduler requestId inputId = Engine.hashOf start requestId inputId := by
  rw [Engine.hashOf_eq, Engine.hashOf_eq]
  rcases settled requestId with same | ⟨_, _, preempted⟩
  · rw [same]
  · rw [preempted]
    cases lastingIn start.requests requestId <;> rfl

/-- Unless scheduled inputs were taken back, what is cached is held by the worker or
scheduled by this step. -/
def Replayed (start : Scheduler H) (workerCache : List String) (pass : SchedulePass H) : Prop :=
  pass.withdrewEncoderInputs = false → ∀ mmHash,
    mmHash ∉ workerCache → mmHash ∉ Engine.scheduledHashes start pass.scheduledEncoderInputs →
      pass.scheduler.encoderCacheManager.cached.get? mmHash = none

theorem Replayed.of_same (replayed : pass.Replayed start workerCache)
    (withdrew : next.withdrewEncoderInputs = pass.withdrewEncoderInputs)
    (inputs : next.scheduledEncoderInputs = pass.scheduledEncoderInputs)
    (added : AddsNone pass.scheduler.encoderCacheManager next.scheduler.encoderCacheManager) :
    next.Replayed start workerCache := by
  intro kept mmHash unheld unscheduled
  rw [withdrew] at kept
  rw [inputs] at unscheduled
  exact added mmHash (replayed kept mmHash unheld unscheduled)

/-- No encoder output is loaded from outside. -/
def NoExternalLoads (config : SchedulerConfig) (input : ScheduleInput H) : Prop :=
  ∀ mmHash, (config.ecConnector && input.hasCacheItem mmHash) = false

variable {request : Request H} {encoder : EncoderPass}

theorem Asked.internal (asked : pass.Asked input request encoder)
    (internal : NoExternalLoads pass.scheduler.config input) :
    encoder.externalLoadEncoderInput = [] := by
  rcases asked with ⟨earlier, _, _, config, ran, _⟩
  refine (tryScheduleEncoderInputs_collects ran).2.2 ?_
  rw [config]
  exact internal

/-- The encoder inputs of a request are allocated and scheduled. -/
theorem Replayed.commit {manager : EncoderCacheManager} (replayed : pass.Replayed start workerCache)
    (settled : pass.Settled start)
    (found : pass.scheduler.requests.get? request.requestId = some request)
    (internal : NoExternalLoads pass.scheduler.config input)
    (asked : pass.Asked input request encoder)
    (fresh : request.requestId ∉ pass.scheduledEncoderInputs.keys)
    (allocated : (encoder.encoderInputsToSchedule ++ encoder.externalLoadEncoderInput).foldlM
      (fun (manager : EncoderCacheManager) inputId => manager.allocate request inputId)
      pass.scheduler.encoderCacheManager = .ok manager)
    (managed : next.scheduler.encoderCacheManager = manager)
    (withdrew : next.withdrewEncoderInputs = pass.withdrewEncoderInputs)
    (inputs : next.scheduledEncoderInputs =
      if encoder.encoderInputsToSchedule = [] then pass.scheduledEncoderInputs
      else pass.scheduledEncoderInputs.insert request.requestId encoder.encoderInputsToSchedule) :
    next.Replayed start workerCache := by
  intro kept mmHash unheld unscheduled
  rw [withdrew] at kept
  rw [managed]
  rw [asked.internal internal, List.append_nil] at allocated
  have missing : mmHash ∉ Engine.scheduledHashes start pass.scheduledEncoderInputs := by
    intro earlier
    apply unscheduled
    rw [inputs]
    split
    · exact earlier
    · rcases Engine.mem_scheduledHashes.mp earlier with ⟨other, inputIds, stored, among⟩
      have differ : request.requestId ≠ other := by
        rintro rfl
        rw [(Dict.get?_eq_none_iff _ _).mpr fresh] at stored
        contradiction
      exact Engine.mem_scheduledHashes.mpr
        ⟨other, inputIds, (Dict.get?_insert_of_ne _ _ differ).trans stored, among⟩
  rcases allocateAll_adds allocated (replayed kept mmHash unheld missing) with
    uncached | ⟨inputId, member, feature, placed, rfl⟩
  · exact uncached
  · refine absurd ?_ unscheduled
    rw [inputs, if_neg (List.ne_nil_of_mem member)]
    refine Engine.mem_scheduledHashes.mpr
      ⟨request.requestId, _, Dict.get?_insert_self .., inputId, member, ?_⟩
    rw [← settled.hashOf]
    exact Engine.hashOf_of_found found placed

/-- Taking back a victim that had no encoder inputs scheduled. -/
theorem Replayed.dropEntries (replayed : pass.Replayed start workerCache) (victim : RequestId) :
    (pass.dropEntries victim).Replayed start workerCache := by
  intro kept mmHash unheld unscheduled
  rcases Bool.or_eq_false_iff.mp kept with ⟨before, none⟩
  refine replayed before mmHash unheld ?_
  intro scheduled
  rcases Engine.mem_scheduledHashes.mp scheduled with
    ⟨other, inputIds, stored, inputId, member, hash⟩
  have differ : victim ≠ other := by
    rintro rfl
    have empty := not_not.mp (of_decide_eq_false none)
    unfold Dict.getD at empty
    rw [stored, Option.getD_some] at empty
    rw [empty] at member
    contradiction
  exact unscheduled (Engine.mem_scheduledHashes.mpr
    ⟨other, inputIds, (Dict.get?_erase_of_ne _ differ).trans stored, inputId, member, hash⟩)

theorem RunningMove.replayed (move : RunningMove input pass next)
    (internal : NoExternalLoads pass.scheduler.config input) (cursor : pass.Cursor)
    (settled : pass.Settled start) (replayed : pass.Replayed start workerCache) :
    next.Replayed start workerCache := by
  cases move with
  | allocate manager => exact replayed.of_same rfl rfl (.refl _)
  | advance => exact replayed.of_same rfl rfl (.refl _)
  | encode found ran =>
      exact replayed.of_same rfl rfl (tryScheduleEncoderInputs_collects ran).2.1
  | preempt inside ran =>
      have added := (preemptOne_addsNone inside ran).2
      rcases preemptOne_spec ran with ⟨removed, scheduler, removing, preempting, rfl⟩
      rcases removeVictim_spec inside removing with ⟨index, _, ⟨_, _, budgets, rfl⟩ | ⟨_, rfl⟩⟩
      · exact (replayed.dropEntries _).of_same rfl rfl added
      · exact replayed.of_same rfl rfl added
  | schedule current found positive ran asked =>
      rename_i request newBlocks numNewTokens encoder
      have fresh : request.requestId ∉ pass.scheduledEncoderInputs.keys := by
        intro member
        exact not_before_of_cursor cursor.nodup (Nat.le_refl _) current
          (cursor.before _ (cursor.tokens _ (cursor.inputs _ member)))
      rcases commitEncoderInputs_spec ran with ⟨manager, budget, allocated, rfl⟩
      unfold commitSpecTokens at allocated ⊢
      split at allocated
      · rename_i plain
        rw [if_pos plain]
        exact replayed.commit settled found internal asked fresh allocated rfl rfl rfl
      · rename_i drafts
        rw [if_neg drafts]
        exact replayed.commit settled found internal asked fresh allocated rfl rfl rfl

variable [DecidableEq H] [BlockHashing H]

theorem WaitingMove.replayed (move : WaitingMove input pass next)
    (internal : NoExternalLoads pass.scheduler.config input) (queued : pass.Queued False [])
    (entries : pass.Entries) (settled : pass.Settled start)
    (replayed : pass.Replayed start workerCache) : next.Replayed start workerCache := by
  cases move with
  | promote head found ran =>
      rcases Scheduler.tryPromoteBlockedWaitingRequest_spec ran with
        ⟨errors, rfl⟩ | ⟨manager, finished, failed, status, numComputedTokens, _, rfl⟩
      · exact replayed.of_same rfl rfl (.refl _)
      · exact replayed.of_same rfl rfl (.refl _)
  | look found ran =>
      rcases Scheduler.lookupPrefix_spec ran with rfl | ⟨manager, boundary, rfl⟩
      · exact replayed
      · exact replayed.of_same rfl rfl (.refl _)
  | encode found ran =>
      exact replayed.of_same rfl rfl (tryScheduleEncoderInputs_collects ran).2.1
  | allocate manager => exact replayed.of_same rfl rfl (.refl _)
  | release found ran =>
      rcases Scheduler.freeEncoderCache_spec ran with ⟨manager, freed, rfl⟩
      exact replayed.of_same rfl rfl (free_addsNone freed)
  | skip head ran =>
      rename_i queue
      rcases skipWaiting_spec ran with ⟨first, rest, aside, _, _, _, rfl⟩
      cases queue <;> exact replayed.of_same rfl rfl (.refl _)
  | load head found ran =>
      rename_i queue _
      rcases loadRemote_spec ran with ⟨first, rest, aside, _, _, _, rfl⟩
      cases queue <;> exact replayed.of_same rfl rfl (.refl _)
  | admitWaiting head found unpreempted fits positive ran asked =>
      rename_i request queue lookup admission
      have waits := Scheduler.mem_idle_of_head head pass.stepSkippedWaiting
      have fresh : request.requestId ∉ pass.scheduledEncoderInputs.keys := by
        intro member
        exact List.disjoint_of_nodup_append queued.placed.distinct
          (entries.tokens _ (entries.inputs _ member)) waits
      rcases admit_spec ran with
        ⟨first, rest, manager, inflight, budgets, new, resumed, syncLoads, _, _, _, allocated, rfl⟩
      exact replayed.commit settled found internal asked fresh allocated rfl rfl rfl

end SchedulePass

namespace Scheduler

variable {H : Type} [DecidableEq H] [BlockHashing H]

/-- The running phase takes no scheduled encoder inputs back. -/
def KeepsEncoderInputs (scheduler : Scheduler H) (input : ScheduleInput H) : Prop :=
  ∀ pass, scheduler.runningPhase input = .ok pass → pass.withdrewEncoderInputs = false

/-- What is cached is held by the worker. -/
def HeldBy (scheduler : Scheduler H) (workerCache : List String) : Prop :=
  ∀ mmHash, mmHash ∉ workerCache → scheduler.encoderCacheManager.cached.get? mmHash = none

/-- After a step the worker holds what is cached. -/
theorem HeldBy.schedule {scheduler next : Scheduler H} {input : ScheduleInput H}
    {output : SchedulerOutput} {workerCache : List String} (held : scheduler.HeldBy workerCache)
    (queued : scheduler.Queued False [] []) (keeps : scheduler.KeepsEncoderInputs input)
    (internal : SchedulePass.NoExternalLoads scheduler.config input)
    (ran : scheduler.schedule input = .ok (output, next)) :
    next.HeldBy (Engine.replayOutput next workerCache output) := by
  rcases schedule_moves queued.keyed ran with
    ⟨ranPass, recorded, waited, phase, runningMoves, recording, _, waitingMoves, filed, finishing⟩
  have started : (scheduler.startPass input).Replayed scheduler workerCache :=
    fun _ mmHash unheld _ => held mmHash unheld
  have afterRunning := chain_keeps
    (fun pass : SchedulePass H => (pass.scheduler.Keyed ∧ pass.Cursor ∧ pass.Settled scheduler) ∧
      pass.Queued False [] ∧
      (pass.scheduler.config = scheduler.config ∧ pass.scheduler.running ⊆ scheduler.running) ∧
      pass.Replayed scheduler workerCache)
    (fun move ⟨settled, placed, recedes, replayed⟩ =>
      ⟨move.settled settled, move.queued placed, move.recedes recedes,
        move.replayed (recedes.1.symm ▸ internal) settled.2.1 settled.2.2 replayed⟩)
    runningMoves
    ⟨⟨queued.keyed, SchedulePass.startPass_cursor queued.running_nodup input, fun _ => .inl rfl⟩,
      ⟨queued.keyed, queued.placed⟩, ⟨rfl, List.Subset.refl _⟩, started⟩
  rcases afterRunning with ⟨⟨_, cursor, settled⟩, placed, ⟨config, _⟩, replayed⟩
  have kept := keeps ranPass phase
  have entries := cursor.entries
  have afterRecording : recorded.scheduler.config = scheduler.config ∧
      recorded.withdrewEncoderInputs = false ∧ recorded.Queued False [] ∧ recorded.Entries ∧
      recorded.Settled scheduler ∧ recorded.Replayed scheduler workerCache := by
    rcases SchedulePass.recordScheduledLoras_spec recording with ⟨_, rfl⟩ | ⟨_, _, _, rfl⟩
    · exact ⟨config, kept, placed, entries, settled, replayed⟩
    · exact ⟨config, kept, placed, ⟨entries.tokens, entries.inputs, entries.positive⟩, settled,
        replayed⟩
  have afterWaiting : waited.withdrewEncoderInputs = false ∧ waited.Settled scheduler ∧
      waited.Replayed scheduler workerCache := by
    rcases afterRecording with ⟨config, kept, placed, entries, settled, replayed⟩
    rcases waitingMoves with rfl | ⟨unpreempted, _, last, moves, skipped, bound, _, rfl⟩
    · exact ⟨kept, settled, replayed⟩
    · have lasts := settled.lasting unpreempted
      have final := chain_keeps
        (fun pass : SchedulePass H => pass.scheduler.config = scheduler.config ∧
          pass.withdrewEncoderInputs = false ∧ pass.Queued False [] ∧ pass.Entries ∧
          (∀ requestId, lastingIn pass.scheduler.requests requestId =
            lastingIn scheduler.requests requestId) ∧
          pass.Replayed scheduler workerCache)
        (fun move ⟨config, kept, placed, entries, lasts, replayed⟩ =>
          ⟨move.frame.config.trans config, move.frame.withdrew.trans kept, move.queued placed,
            move.entries entries, fun requestId => (move.lasting requestId).trans (lasts requestId),
            move.replayed (config.symm ▸ internal) placed entries
              (fun requestId => .inl (lasts requestId)) replayed⟩)
        moves ⟨config, kept, placed, entries, lasts, replayed⟩
      rcases final with ⟨_, kept, _, _, lasts, replayed⟩
      exact ⟨kept, fun requestId => .inl (lasts requestId), replayed⟩
  rcases afterWaiting with ⟨kept, settled, replayed⟩
  rcases SchedulePass.finish_spec filed finishing with
    ⟨⟨_, _, _, requests, _, rfl⟩, _, inputs, freed, _, progress⟩
  -- The step counts tokens, and leaves the items of the requests.
  have hashes : ∀ (requestId : RequestId) (inputId : Nat),
      Engine.hashOf { waited.scheduler with requests := requests } requestId inputId =
        Engine.hashOf scheduler requestId inputId := by
    intro requestId inputId
    rw [← settled.hashOf, Engine.hashOf_eq, Engine.hashOf_eq, lastingIn_eq_profileOf,
      lastingIn_eq_profileOf]
    have after : Scheduler.profileOf { waited.scheduler with requests := requests } requestId =
        _ := progress requestId
    rw [after]
    cases waited.scheduler.profileOf requestId <;> rfl
  have scheduled : Engine.scheduledHashes { waited.scheduler with requests := requests }
      waited.scheduledEncoderInputs =
        Engine.scheduledHashes scheduler waited.scheduledEncoderInputs :=
    Engine.scheduledHashes_congr hashes _
  intro mmHash unheld
  cases cached : waited.scheduler.encoderCacheManager.cached.get? mmHash with
  | none => exact cached
  | some references =>
      refine absurd ?_ unheld
      -- What is cached at the end is not reported as freed.
      have unfreed : mmHash ∉ output.freeEncoderMmHashes := by
        rw [freed]
        intro member
        have absent := (List.mem_filter.mp member).2
        rw [Dict.contains, cached] at absent
        contradiction
      refine List.mem_filter.mpr ⟨?_, decide_eq_true unfreed⟩
      rw [inputs]
      refine List.mem_append.mpr ?_
      by_contra neither
      rw [not_or] at neither
      have unscheduled : mmHash ∉ Engine.scheduledHashes scheduler waited.scheduledEncoderInputs := by
        rw [← scheduled]
        exact neither.2
      have missing := replayed kept mmHash neither.1 unscheduled
      rw [cached] at missing
      contradiction

end Scheduler

/-! ## Runs -/

namespace Engine

variable {H : Type} [DecidableEq H] [BlockHashing H]

/-- Every step keeps the encoder inputs it has scheduled, and loads none from
outside. -/
def KeepsEncoderInputs (engine : Engine H) : Call H → Prop
  | .schedule input => engine.scheduler.KeepsEncoderInputs input ∧
      SchedulePass.NoExternalLoads engine.scheduler.config input
  | _ => True

omit [DecidableEq H] [BlockHashing H] in
theorem heldBy_of_recedes {scheduler next : Scheduler H} {workerCache : List String}
    (held : scheduler.HeldBy workerCache) (recedes : scheduler.Recedes next) :
    next.HeldBy workerCache := by
  intro mmHash unheld
  exact recedes.addsNone mmHash (held mmHash unheld)

variable {call : Call H}

/-- Only a step adds to the cache. -/
theorem execute_heldBy {engine next : Engine H} (queued : engine.scheduler.Queued False [] [])
    (held : engine.scheduler.HeldBy engine.workerCache) (keeps : engine.KeepsEncoderInputs call)
    (ran : engine.execute call = .ok next) : next.scheduler.HeldBy next.workerCache := by
  have keyed := queued.keyed
  cases executes_of_execute ran with
  | addRequest adding =>
      exact heldBy_of_recedes held (Scheduler.addRequest_recedes keyed adding)
  | schedule scheduling =>
      exact held.schedule queued keeps.1 keeps.2 scheduling
  | updateFromOutput step rest flying updating =>
      exact heldBy_of_recedes held (Scheduler.updateFromOutput_recedes keyed updating)
  | finishRequests finishing =>
      exact heldBy_of_recedes held (Scheduler.finishRequests_recedes keyed finishing)
  | updateDraftTokenIds entry =>
      have same : engine.scheduler.SameProfiles (engine.scheduler.updateDraftTokenIds entry) :=
        Scheduler.updateDraftTokenIds_spec keyed
      exact heldBy_of_recedes held same.recedes
  | resetPrefixCache resetting =>
      exact heldBy_of_recedes held (Scheduler.resetPrefixCache_recedes resetting)
  | setPauseState pauseState =>
      exact held

/-- A check that implies `KeepsEncoderInputs`. -/
def keepsEncoderInputs (engine : Engine H) : Call H → Bool
  | .schedule input => !engine.scheduler.config.ecConnector &&
      match engine.scheduler.runningPhase input with
      | .error _ => true
      | .ok pass => !pass.withdrewEncoderInputs
  | _ => true

theorem keepsEncoderInputs_sound {engine : Engine H}
    (keeps : engine.keepsEncoderInputs call = true) :
    engine.KeepsEncoderInputs call := by
  cases call with
  | schedule input =>
      rcases Bool.and_eq_true_iff.mp keeps with ⟨internal, kept⟩
      constructor
      · intro pass phase
        rw [phase] at kept
        simpa using kept
      · intro mmHash
        have absent : engine.scheduler.config.ecConnector = false := by simpa using internal
        rw [absent]
        rfl
  | addRequest | updateFromOutput | finishRequests | updateDraftTokenIds | resetPrefixCache
  | setPauseState => trivial

/-- A request with a prompt of the given length. -/
def encoderRequest (requestId : RequestId) (priority : Int) (numPromptTokens : Nat)
    (mmFeatures : List MultiModalFeatureSpec) : Call SymbolicHash :=
  .addRequest
    (Request.updateBlockHashes (some 4)
      { requestId := requestId
        priority := priority
        promptTokenIds := some (List.range' 1 numPromptTokens)
        allTokenIds := List.range' 1 numPromptTokens
        numPromptTokens := numPromptTokens
        maxTokens := 8
        mmFeatures := mmFeatures
        samplingParams := some { maxTokens := 8 } })
    fun _ => false

/-- Chunks of four tokens, by priority. -/
def prioritized : SchedulerConfig where
  maxNumRunningReqs := 8
  maxNumScheduledTokens := 64
  maxNumBatchedTokens := 64
  maxModelLen := 100
  policy := .priority
  longPrefillTokenThreshold := 4
  blockSize := 4
  cacheBlockSize := 4
  hashBlockSize := 4
  blockHasher := some 4
  maxNumEncoderInputTokens := 8

/-- A request of low priority reaches its picture in the step in which a request of
high priority needs another block. -/
def competingRequests : List (Call SymbolicHash) :=
  let update : Call SymbolicHash := .updateFromOutput
    { sampledTokenIds := fun requestId => if requestId = "text" then [5] else [] }
  [encoderRequest "image" 1 12 [⟨"picture", ⟨8, 4, none⟩⟩], .schedule {}, update,
    encoderRequest "text" 0 4 [], .schedule {}, update, .schedule {}]

end Engine

end Vllm.Core
