import Vllm.Core.ScheduleMoves

/-!
# What a call of `schedule` leaves

The end of the step counts the scheduled tokens as computed and in flight.  The
results about runs only look at a few fields of a request, its profile; the call
as a whole is then the two chains of moves, followed by the progress of the
profiles.
-/

namespace Vllm.Core

open Vllm.Library Relation

/-- The rule for loops over a dictionary: every round has an effect on the view under
its own key, which no earlier round has touched, and leaves the other keys alone.
At the end every entry has had its effect once. -/
theorem foldlM_entries_rule {κ ν β γ : Type} [DecidableEq κ]
    {round : β → κ × ν → Except PyError β} (view : β → κ → γ)
    (effect : κ → ν → γ → γ → Prop) (invariant : β → Prop) (dict : Dict κ ν) {start final : β}
    (rounds : ∀ entry ∈ dict.entries, ∀ state next, invariant state →
      view state entry.1 = view start entry.1 → round state entry = .ok next →
      invariant next ∧ effect entry.1 entry.2 (view start entry.1) (view next entry.1) ∧
        ∀ other, other ≠ entry.1 → view next other = view state other)
    (holds : invariant start) (ran : dict.entries.foldlM round start = .ok final) :
    invariant final ∧
      (∀ key value, dict.get? key = some value →
        effect key value (view start key) (view final key)) ∧
      ∀ key, dict.get? key = none → view final key = view start key := by
  have looped := foldlM_rule
    (fun rest (current : β) =>
      (∀ entry ∈ rest, entry ∈ dict.entries) ∧ (rest.map Prod.fst).Nodup ∧ invariant current ∧
      (∀ key ∈ rest.map Prod.fst, view current key = view start key) ∧
      ∀ key, key ∉ rest.map Prod.fst →
        (∀ value, dict.get? key = some value → effect key value (view start key)
          (view current key)) ∧
        (dict.get? key = none → view current key = view start key))
    ?_ ?_ ran
  · rcases looped with ⟨_, _, kept, _, done⟩
    exact ⟨kept, fun key => (done key List.not_mem_nil).1, fun key => (done key List.not_mem_nil).2⟩
  · rintro entry rest current next ⟨within, distinct, kept, pending, done⟩ ran
    rw [List.map_cons, List.nodup_cons] at distinct
    have member := within entry List.mem_cons_self
    rcases rounds entry member current next kept (pending entry.1 List.mem_cons_self) ran with
      ⟨after, affected, others⟩
    refine ⟨fun other inside => within other (List.mem_cons_of_mem _ inside), distinct.2, after,
      ?_, ?_⟩
    · intro key inside
      have differ : key ≠ entry.1 := fun same => distinct.1 (same ▸ inside)
      rw [others key differ]
      exact pending key (List.mem_cons_of_mem _ inside)
    · intro key outside
      by_cases here : key = entry.1
      · subst here
        have stored := (dict.get?_eq_some_iff entry.1 entry.2).mpr member
        rw [stored]
        exact ⟨fun value same => Option.some.inj same ▸ affected, nofun⟩
      · rw [others key here]
        exact done key (List.not_mem_cons_of_ne_of_not_mem here outside)
  · refine ⟨fun _ member => member, dict.nodupKeys, holds, fun _ _ => rfl, ?_⟩
    intro key absent
    have missing := (dict.get?_eq_none_iff key).mpr absent
    exact ⟨fun value found => by rw [missing] at found; contradiction, fun _ => rfl⟩

/-- The fields of a request that say where it stands: its place in a queue, its
adapter, its multi-modal items and its in-flight counters. -/
structure Profile where
  requestId : RequestId
  priority : Int
  arrivalTime : Int
  status : RequestStatus
  loraRequest : Option LoRARequest
  mmFeatures : List MultiModalFeatureSpec
  numInFlightTokens : Int
  numStaleOutputTokens : Int
  numPreemptions : Nat

/-- The profile after tokens were scheduled. -/
def Profile.progressed (profile : Profile) (numTokens : Nat) : Profile :=
  { profile with numInFlightTokens := profile.numInFlightTokens + numTokens }

@[simp]
theorem Profile.progressed_zero (profile : Profile) : profile.progressed 0 = profile := by
  simp [progressed]

/-- The profile of a request. -/
def Request.profile {H : Type} (request : Request H) : Profile where
  requestId := request.requestId
  priority := request.priority
  arrivalTime := request.arrivalTime
  status := request.status
  loraRequest := request.loraRequest
  mmFeatures := request.mmFeatures
  numInFlightTokens := request.numInFlightTokens
  numStaleOutputTokens := request.numStaleOutputTokens
  numPreemptions := request.numPreemptions

namespace Scheduler

variable {H : Type}

/-- The profile that is filed under an id. -/
def profileOf (scheduler : Scheduler H) (requestId : RequestId) : Option Profile :=
  (scheduler.requests.get? requestId).map Request.profile

variable {scheduler next : Scheduler H} {output : SchedulerOutput}

variable {request : Request H}

theorem profileOf_of_found {requestId : RequestId}
    (found : scheduler.requests.get? requestId = some request) :
    scheduler.profileOf requestId = some request.profile := by
  unfold profileOf
  rw [found]
  rfl

/-- Only the profiles matter for whether the request objects are filed. -/
theorem keyed_iff (scheduler : Scheduler H) :
    scheduler.Keyed ↔
      ∀ requestId profile, scheduler.profileOf requestId = some profile →
        profile.requestId = requestId := by
  constructor
  · intro keyed requestId profile found
    rcases Option.map_eq_some_iff.mp found with ⟨request, stored, rfl⟩
    exact keyed requestId request stored
  · intro keyed requestId request found
    exact keyed requestId request.profile (profileOf_of_found found)

theorem profileOf_setRequest (scheduler : Scheduler H) (request : Request H)
    (requestId : RequestId) :
    (scheduler.setRequest request).profileOf requestId =
      if request.requestId = requestId then some request.profile
      else scheduler.profileOf requestId := by
  unfold profileOf
  rw [get?_setRequest]
  split <;> rfl

/-- Writing back a request with its old profile changes no profile. -/
theorem profileOf_setRequest_same {current : Request H}
    (found : scheduler.requests.get? request.requestId = some current)
    (same : request.profile = current.profile) (requestId : RequestId) :
    (scheduler.setRequest request).profileOf requestId = scheduler.profileOf requestId := by
  rw [profileOf_setRequest]
  split
  · rename_i here
    rw [← here, profileOf_of_found found, same]
  · rfl

/-! ## The progress of the scheduled requests -/

variable {entry : RequestId × Nat}

private theorem advanceScheduled_spec (keyed : scheduler.Keyed)
    (ran : scheduler.advanceScheduled entry = .ok next) :
    (∃ requests inflight,
      next = { scheduler with requests := requests, inflightPrefills := inflight }) ∧
    (∃ profile, scheduler.profileOf entry.1 = some profile ∧
      next.profileOf entry.1 = some (profile.progressed entry.2)) ∧
    ∀ other, other ≠ entry.1 → next.profileOf other = scheduler.profileOf other := by
  rcases bind_eq_ok.mp ran with ⟨request, getting, ran⟩
  have found := getRequest_eq_ok.mp getting
  have key := keyed entry.1 request found
  cases ran
  have written := profileOf_setRequest scheduler
    (request.advanced scheduler.config scheduler.schedStepSeq entry.2)
  refine ⟨⟨_, _, rfl⟩, ⟨request.profile, profileOf_of_found found, ?_⟩, ?_⟩
  · exact (written entry.1).trans (if_pos key)
  · intro other differ
    exact (written other).trans (if_neg fun same => differ (same.symm.trans key))

/-- Profiles that keep their ids keep the request objects filed. -/
theorem Keyed.of_profiles (keyed : scheduler.Keyed)
    (same : ∀ requestId profile, next.profileOf requestId = some profile →
      ∃ old, scheduler.profileOf requestId = some old ∧ profile.requestId = old.requestId) :
    next.Keyed := by
  rw [keyed_iff] at keyed ⊢
  intro requestId profile found
  rcases same requestId profile found with ⟨old, stored, id⟩
  exact id.trans (keyed requestId old stored)

private theorem advanceAll_spec (scheduled : Dict RequestId Nat) (keyed : scheduler.Keyed)
    (ran : scheduled.entries.foldlM advanceScheduled scheduler = .ok next) :
    (∃ requests inflight,
      next = { scheduler with requests := requests, inflightPrefills := inflight }) ∧
    (∀ requestId ∈ scheduled.keys, (scheduler.profileOf requestId).isSome) ∧
    ∀ requestId, next.profileOf requestId = (scheduler.profileOf requestId).map
      (·.progressed (scheduled.getD requestId 0)) := by
  have looped := foldlM_entries_rule profileOf
    (fun _ tokens old new => ∃ profile : Profile, old = some profile ∧
      new = some (profile.progressed tokens))
    (fun state => state.Keyed ∧ ∃ requests inflight,
      state = { scheduler with requests := requests, inflightPrefills := inflight })
    scheduled ?_ ⟨keyed, _, _, rfl⟩ ran
  · rcases looped with ⟨⟨_, shape⟩, progress, same⟩
    refine ⟨shape, ?_, ?_⟩
    · intro requestId member
      cases found : scheduled.get? requestId with
      | none => exact absurd member ((Dict.get?_eq_none_iff _ _).mp found)
      | some tokens =>
          rcases progress requestId tokens found with ⟨profile, old, _⟩
          rw [old]
          rfl
    · intro requestId
      unfold Dict.getD
      cases found : scheduled.get? requestId with
      | none =>
          rw [same requestId found]
          simp
      | some tokens =>
          rcases progress requestId tokens found with ⟨profile, old, new⟩
          rw [new, old]
          rfl
  · rintro entry _ state after ⟨filed, _, _, rfl⟩ untouched round
    rcases advanceScheduled_spec filed round with ⟨⟨requests, inflight, rfl⟩, progress, others⟩
    refine ⟨⟨filed.of_profiles ?_, _, _, rfl⟩, untouched ▸ progress, others⟩
    intro requestId profile found
    by_cases here : requestId = entry.1
    · subst here
      rcases progress with ⟨old, before, after⟩
      rw [after] at found
      cases found
      exact ⟨old, before, rfl⟩
    · rw [others requestId here] at found
      exact ⟨profile, found, rfl⟩

private theorem addPlaceholders_spec (keyed : scheduler.Keyed)
    (ran : scheduler.addPlaceholders output entry = .ok next) :
    (∃ requests, next = { scheduler with requests := requests }) ∧
    ∀ requestId, next.profileOf requestId = scheduler.profileOf requestId := by
  rcases bind_eq_ok.mp ran with ⟨request, getting, ran⟩
  have found := getRequest_eq_ok.mp getting
  rw [← keyed entry.1 request found] at found
  cases ran
  refine ⟨⟨_, rfl⟩, ?_⟩
  unfold Request.placeholdersAdded
  split
  · exact profileOf_setRequest_same found rfl
  · exact profileOf_setRequest_same found rfl

private theorem addAllPlaceholders_spec (keyed : scheduler.Keyed)
    (ran : output.numScheduledTokens.entries.foldlM (addPlaceholders output) scheduler = .ok next) :
    (∃ requests, next = { scheduler with requests := requests }) ∧
    ∀ requestId, next.profileOf requestId = scheduler.profileOf requestId := by
  have looped := foldlM_invariant
    (fun state : Scheduler H => state.Keyed ∧
      (∃ requests, state = { scheduler with requests := requests }) ∧
      ∀ requestId, state.profileOf requestId = scheduler.profileOf requestId)
    ?_ ⟨keyed, ⟨_, rfl⟩, fun _ => rfl⟩ ran
  · exact looped.2
  · rintro entry _ state after ⟨filed, ⟨_, rfl⟩, profiles⟩ round
    rcases addPlaceholders_spec filed round with ⟨⟨requests, rfl⟩, kept⟩
    have same := fun requestId => (kept requestId).trans (profiles requestId)
    refine ⟨keyed.of_profiles ?_, ⟨_, rfl⟩, same⟩
    intro requestId profile found
    rw [same] at found
    exact ⟨profile, found, rfl⟩

/-- `_update_after_schedule` makes the scheduled requests progress. -/
theorem updateAfterSchedule_spec (keyed : scheduler.Keyed)
    (ran : scheduler.updateAfterSchedule output = .ok next) :
    (∃ requests inflight, next =
        { scheduler with
          requests := requests
          inflightPrefills := inflight
          finishedReqIds := []
          resetPreemptedReqIds := [] }) ∧
    (∀ requestId ∈ output.numScheduledTokens.keys, (scheduler.profileOf requestId).isSome) ∧
    ∀ requestId, next.profileOf requestId = (scheduler.profileOf requestId).map
      (·.progressed (output.numScheduledTokens.getD requestId 0)) := by
  rcases bind_eq_ok.mp ran with ⟨advanced, advancing, ran⟩
  rcases advanceAll_spec output.numScheduledTokens keyed advancing with
    ⟨⟨requests, inflight, rfl⟩, known, progress⟩
  dsimp only at ran
  split at ran
  · have filed : Keyed { scheduler with
        requests := requests
        inflightPrefills := inflight
        finishedReqIds := []
        resetPreemptedReqIds := [] } := by
      refine keyed.of_profiles ?_
      intro requestId profile found
      rcases Option.map_eq_some_iff.mp ((progress requestId).symm.trans found) with
        ⟨old, stored, rfl⟩
      exact ⟨old, stored, rfl⟩
    rcases addAllPlaceholders_spec filed ran with ⟨⟨requests, rfl⟩, same⟩
    exact ⟨⟨_, _, rfl⟩, known, fun requestId => (same requestId).trans (progress requestId)⟩
  · cases ran
    exact ⟨⟨_, _, rfl⟩, known, progress⟩

end Scheduler

/-! ## The end of the step -/

namespace SchedulePass

variable {H : Type}

variable {pass next : SchedulePass H}

theorem takeCopies_spec {copies : List (BlockId × BlockId)}
    (ran : pass.takeCopies = .ok (copies, next)) :
    ∃ manager deferred, next =
        { pass with
          scheduler :=
            { pass.scheduler with kvCacheManager := manager, deferredFrees := deferred } } := by
  rcases bind_eq_ok.mp ran with ⟨scheduler, freeing, ran⟩
  cases ran
  split at freeing
  · cases freeing
    exact ⟨_, _, rfl⟩
  · rcases Scheduler.freeCowRetainedBlocks_spec freeing with ⟨manager, deferred, rfl⟩
    exact ⟨manager, deferred, rfl⟩

variable {output : SchedulerOutput}

/-- The output reports the entries of the pass and the evicted encoder outputs. -/
theorem buildOutput_spec (ran : pass.buildOutput = .ok (output, next)) :
    ∃ manager deferred, output.numScheduledTokens = pass.numScheduledTokens ∧
      output.scheduledEncoderInputs = pass.scheduledEncoderInputs ∧
      output.freeEncoderMmHashes = pass.scheduler.encoderCacheManager.getFreedMmHashes.1 ∧
      next =
        { pass with
          scheduler :=
            { pass.scheduler with
              kvCacheManager := manager
              deferredFrees := deferred
              encoderCacheManager := pass.scheduler.encoderCacheManager.getFreedMmHashes.2 } } := by
  have counted : ∃ manager, pass.countCommonPrefix.2 = pass.setKVCacheManager manager := by
    unfold countCommonPrefix
    split
    · exact ⟨pass.scheduler.kvCacheManager, rfl⟩
    · exact ⟨_, rfl⟩
  rcases counted with ⟨manager, counted⟩
  rcases bind_eq_ok.mp ran with ⟨⟨copies, copied⟩, copying, ran⟩
  change pass.countCommonPrefix.2.takeCopies = _ at copying
  rw [counted] at copying
  rcases takeCopies_spec copying with ⟨manager, deferred, rfl⟩
  rcases bind_eq_ok.mp ran with ⟨numSpecTokens, _, ran⟩
  cases ran
  exact ⟨_, deferred, rfl, rfl, rfl, rfl⟩

/-- The end of the step, from the pass to the next state. -/
theorem finish_spec {next : Scheduler H} (keyed : pass.scheduler.Keyed)
    (ran : pass.finish = .ok (output, next)) :
    (∃ manager deferred schedStepSeq requests inflight, next =
        { pass.scheduler with
          kvCacheManager := manager
          deferredFrees := deferred
          encoderCacheManager := pass.scheduler.encoderCacheManager.getFreedMmHashes.2
          schedStepSeq := schedStepSeq
          requests := requests
          inflightPrefills := inflight
          finishedReqIds := []
          resetPreemptedReqIds := [] }) ∧
    output.numScheduledTokens = pass.numScheduledTokens ∧
    output.scheduledEncoderInputs = pass.scheduledEncoderInputs ∧
    output.freeEncoderMmHashes = pass.scheduler.encoderCacheManager.getFreedMmHashes.1 ∧
    (∀ requestId ∈ pass.numScheduledTokens.keys, (pass.scheduler.profileOf requestId).isSome) ∧
    ∀ requestId, next.profileOf requestId = (pass.scheduler.profileOf requestId).map
      (·.progressed (pass.numScheduledTokens.getD requestId 0)) := by
  rcases bind_eq_ok.mp ran with ⟨_, _, ran⟩
  rcases bind_eq_ok.mp ran with ⟨⟨built, after⟩, building, ran⟩
  rcases bind_eq_ok.mp ran with ⟨advanced, advancing, ran⟩
  cases ran
  rcases buildOutput_spec building with ⟨manager, deferred, tokens, inputs, freed, rfl⟩
  rcases Scheduler.updateAfterSchedule_spec (by exact keyed) advancing with
    ⟨⟨requests, inflight, rfl⟩, known, progress⟩
  rw [tokens] at known progress
  exact ⟨⟨_, _, _, _, _, rfl⟩, tokens, inputs, freed, known, progress⟩

end SchedulePass

namespace Scheduler

variable {H : Type} [DecidableEq H] [BlockHashing H]

/-- A call of `schedule`: the chain of the running phase, the chain of the waiting
phase if it is entered, and the progress of the scheduled requests. -/
theorem schedule_moves {scheduler next : Scheduler H} {input : ScheduleInput H}
    {output : SchedulerOutput} (keyed : scheduler.Keyed)
    (ran : scheduler.schedule input = .ok (output, next)) :
    ∃ ranPass recorded waited, scheduler.runningPhase input = .ok ranPass ∧
      ReflTransGen (SchedulePass.RunningMove input) (scheduler.startPass input) ranPass ∧
      ranPass.recordScheduledLoras = .ok recorded ∧
      recorded.scheduler.Keyed ∧
      (waited = recorded ∨
        recorded.preemptedReqs = [] ∧ recorded.scheduler.pauseState = .unpaused ∧
        ∃ last, ReflTransGen (SchedulePass.WaitingMove input) recorded last ∧
          last.Rejoined waited) ∧
      waited.scheduler.Keyed ∧ waited.finish = .ok (output, next) := by
  rcases bind_eq_ok.mp ran with ⟨ranPass, running, ran⟩
  rcases bind_eq_ok.mp ran with ⟨recorded, recording, ran⟩
  rcases bind_eq_ok.mp ran with ⟨waited, waiting, finishing⟩
  have started : (scheduler.startPass input).scheduler.Keyed := keyed
  have moves := SchedulePass.scheduleRunningRequests_moves started running
  have filed := chain_keeps (fun pass => pass.scheduler.Keyed) SchedulePass.RunningMove.keyed
    moves started
  have recordedKeyed : recorded.scheduler.Keyed := by
    rcases SchedulePass.recordScheduledLoras_spec recording with ⟨_, rfl⟩ | ⟨_, _, _, rfl⟩
    · exact filed
    · exact filed
  have phase := SchedulePass.waitingPhase_moves recordedKeyed waiting
  refine ⟨ranPass, recorded, waited, running, moves, recording, recordedKeyed, phase, ?_, finishing⟩
  rcases phase with rfl | ⟨unpreempted, _, last, chain, skipped, bound, _, rfl⟩
  · exact recordedKeyed
  · exact (chain_keeps (fun pass => pass.scheduler.Keyed ∧ pass.preemptedReqs = [])
      SchedulePass.WaitingMove.keyed chain ⟨recordedKeyed, unpreempted⟩).1

end Scheduler

end Vllm.Core
