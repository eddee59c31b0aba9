import Vllm.Core.UpdateOutcome

/-!
# The profiles after an update

`update_from_output` drains the counters of the requests of the step.  Beyond that
it changes the status of a request and may let a session bring new items; other
profiles stay, or go with their requests.
-/

namespace Vllm.Core

open Vllm.Library

/-- The profile after a share of the step was drained. -/
def Profile.drained (profile : Profile) (numTokensScheduled : Nat) : Profile :=
  { profile with
    numInFlightTokens := profile.numInFlightTokens - numTokensScheduled
    numStaleOutputTokens :=
      if 0 < profile.numStaleOutputTokens then profile.numStaleOutputTokens - numTokensScheduled
      else profile.numStaleOutputTokens }

theorem Request.drained_profile {H : Type} (request : Request H) (numTokensScheduled : Nat) :
    (request.drained numTokensScheduled).2.profile =
      request.profile.drained numTokensScheduled := by
  unfold Request.drained Profile.drained Request.profile
  simp only [gt_iff_lt, decide_eq_true_eq]

namespace Scheduler

theorem Continues.rfl (profile : Profile) : Continues profile profile :=
  ⟨List.prefix_rfl, Eq.refl _⟩

theorem Continues.trans {first second third : Profile} (one : Continues first second)
    (two : Continues second third) : Continues first third := by
  refine ⟨one.1.trans two.1, ?_⟩
  rw [two.2, one.2]

variable {old new : Profile} {scheduler next : Scheduler H} {request : Request H}

theorem Continues.of_status (same : new = { old with status := new.status }) :
    Continues old new := by
  rw [same]
  exact ⟨List.prefix_rfl, Eq.refl _⟩

variable {H : Type}

/-- Every profile continues one that was there before. -/
def Carries (scheduler next : Scheduler H) : Prop :=
  ∀ requestId new, next.profileOf requestId = some new →
    ∃ old, scheduler.profileOf requestId = some old ∧ Continues old new

theorem Carries.of_same
    (same : ∀ requestId, next.profileOf requestId = scheduler.profileOf requestId) :
    scheduler.Carries next := by
  intro requestId new found
  rw [same] at found
  exact ⟨new, found, Continues.rfl new⟩

theorem Carries.trans {first second third : Scheduler H} (one : first.Carries second)
    (two : second.Carries third) : first.Carries third := by
  intro requestId new found
  rcases two requestId new found with ⟨middle, stored, later⟩
  rcases one requestId middle stored with ⟨old, before, earlier⟩
  exact ⟨old, before, earlier.trans later⟩

theorem Carries.keyed (carries : scheduler.Carries next) (keyed : scheduler.Keyed) :
    next.Keyed := by
  apply keyed.of_profiles
  intro requestId new found
  rcases carries requestId new found with ⟨old, stored, continues⟩
  refine ⟨old, stored, ?_⟩
  rw [continues.2]

theorem profileOf_congr {requestId : RequestId}
    (same : next.requests.get? requestId = scheduler.requests.get? requestId) :
    next.profileOf requestId = scheduler.profileOf requestId :=
  congrArg (Option.map Request.profile) same

/-- If the object of a finished request is still there, it has its profile. -/
theorem Finished.profileOf (finished : scheduler.Finished request next)
    (stays : next.profileOf request.requestId = some new) : new = request.profile := by
  rcases finished with ⟨_, _, _, _, _, _, _, requests, _, own, _, rfl⟩
  rcases own with gone | ⟨left, stored, profile⟩
  · unfold Scheduler.profileOf at stays
    rw [gone] at stays
    contradiction
  · rw [profileOf_of_found stored] at stays
    cases stays
    exact profile

theorem Requeued.profileOf (requeued : scheduler.Requeued request next)
    (stays : next.profileOf request.requestId = some new) : Continues request.profile new := by
  rcases requeued.shape with ⟨continued, waiting, skipped, count, continues, _, _, rfl⟩
  have id : continued.requestId = request.requestId := congrArg Profile.requestId continues.2
  rw [← id] at stays
  have stored := (profileOf_of_found (Dict.get?_insert_self ..)).symm.trans stays
  cases stored
  exact continues

/-- Finishing a request that is there. -/
theorem Finished.carries (finished : scheduler.Finished request next)
    (found : scheduler.profileOf request.requestId = some old)
    (continues : Continues old request.profile) : scheduler.Carries next := by
  intro requestId new stays
  by_cases here : requestId = request.requestId
  · subst here
    rw [finished.profileOf stays]
    exact ⟨old, found, continues⟩
  · rw [profileOf_congr (finished.others here)] at stays
    exact ⟨new, stays, Continues.rfl new⟩

theorem finishRequests_carries {requestIds : Option (List RequestId)}
    {finishedStatus : RequestStatus} {connectorDelays : RequestId → Bool} (keyed : scheduler.Keyed)
    (ran : scheduler.finishRequests requestIds finishedStatus connectorDelays = .ok next) :
    scheduler.Carries next := by
  rcases finishRequests_spec keyed ran with
    ⟨gone, _, distinct, present, finishing⟩
  rcases scheduler.detached_shape gone with ⟨_, _, _, _, shape⟩
  rw [shape] at finishing
  have finished := finishAll_rule
    (fun rest (state : Scheduler H) => scheduler.Carries state ∧
      (rest.map Request.requestId).Nodup ∧
      ∀ request ∈ rest, state.requests.get? request.requestId = some request)
    ?_ (by exact ⟨Carries.of_same fun _ => rfl, distinct,
      fun request among => (present request among).1⟩) finishing
  · exact finished.1
  · rintro request rest state after ⟨carries, distinct, stored⟩ finished
    rw [List.map_cons, List.nodup_cons] at distinct
    have found := profileOf_of_found (stored request List.mem_cons_self)
    have ends := finished.carries found (Continues.of_status rfl)
    refine ⟨carries.trans ends, distinct.2, ?_⟩
    intro other member
    have differ : other.requestId ≠ request.requestId :=
      fun same => distinct.1 (same ▸ List.mem_map_of_mem member)
    exact (finished.others differ).trans (stored other (List.mem_cons_of_mem _ member))

theorem updateFromKvXferFinished_carries {output : KVConnectorOutput} (keyed : scheduler.Keyed)
    (ran : scheduler.updateFromKvXferFinished output = .ok next) : scheduler.Carries next := by
  have kept := updateFromKvXferFinished_spec
    (fun state => state.Keyed ∧ scheduler.Carries state) ?_ ?_ (fun _ kept => kept.1)
    ⟨keyed, Carries.of_same fun _ => rfl⟩ ran
  · exact kept.2
  · intro state received kept
    exact ⟨kept.1, kept.2.trans (Carries.of_same fun _ => rfl)⟩
  · intro state request manager deferred found finished kept
    refine ⟨keyed_erase kept.1 _, kept.2.trans ?_⟩
    intro requestId new stays
    have there : requestId ≠ request.requestId := by
      rintro rfl
      unfold Scheduler.profileOf at stays
      rw [Dict.get?_erase_self] at stays
      contradiction
    have same := Dict.get?_erase_of_ne state.requests (Ne.symm there)
    exact ⟨new, (congrArg (Option.map Request.profile) same).symm.trans stays, Continues.rfl new⟩

theorem finishUpdate_carries {pass : UpdatePass H} {runner : ModelRunnerOutput}
    {failedKvLoadReqIds : List RequestId} {outputs : List EngineCoreOutput}
    {next : Scheduler H} (keyed : pass.scheduler.Keyed)
    (ran : finishUpdate pass runner failedKvLoadReqIds = .ok (outputs, next)) :
    pass.scheduler.Carries next := by
  rcases removeWaiting_spec
    { pass.scheduler with
      running := removeAll pass.scheduler.running pass.stoppedRunningReqs }
    pass.stoppedPreemptedReqs with ⟨waiting, skipped, _, shape⟩
  rcases bind_eq_ok.mp ran with ⟨finished, finishing, ran⟩
  rw [shape] at finishing
  have afterErrors : pass.scheduler.Carries finished := by
    split at finishing
    · cases finishing
      exact Carries.of_same fun _ => rfl
    · have carries := finishRequests_carries (by exact keyed) finishing
      exact carries
  split at ran
  · rcases bind_eq_ok.mp ran with ⟨transferred, transferring, ran⟩
    cases ran
    exact afterErrors.trans
      (updateFromKvXferFinished_carries (afterErrors.keyed keyed) transferring)
  · cases ran
    exact afterErrors

end Scheduler

namespace UpdatePass

variable {H : Type} [DecidableEq H] [BlockHashing H]

variable {output : SchedulerOutput} {runner : ModelRunnerOutput}
  {failedKvLoadReqIds : List RequestId} {pass next : UpdatePass H}

/-- A round of the main loop drains the counters of its request. -/
theorem processScheduled_drains {entry : RequestId × Nat} (keyed : pass.scheduler.Keyed)
    (ran : processScheduled output runner failedKvLoadReqIds pass entry = .ok next) {new : Profile}
    (stays : next.scheduler.profileOf entry.1 = some new) :
    ∃ old, pass.scheduler.profileOf entry.1 = some old ∧
      Scheduler.Continues (old.drained entry.2) new := by
  cases found : pass.scheduler.requests.get? entry.1 with
  | none =>
      rcases bind_eq_ok.mp ran with ⟨_, _, ran⟩
      rw [found] at ran
      cases ran
      unfold Scheduler.profileOf at stays
      rw [found] at stays
      contradiction
  | some request =>
      have drainedKey : (request.drained entry.2).2.requestId = entry.1 :=
        keyed entry.1 request found
      refine ⟨request.profile, Scheduler.profileOf_of_found found, ?_⟩
      rw [← Request.drained_profile]
      rcases processScheduled_spec found ran with rfl | ⟨_, _, _, delivering⟩
      · have written := (Scheduler.profileOf_setRequest ..).symm.trans stays
        rw [if_pos drainedKey] at written
        cases written
        exact Scheduler.Continues.rfl _
      · rcases deliver_spec delivering with
          ⟨delivered, encoder, served, manager, updated, newTokenIds, stopped, outputs, _, same,
            _, _, profile, outcome⟩
        have updatedKey : updated.requestId = entry.1 :=
          (congrArg Profile.requestId profile).trans
            ((congrArg Profile.requestId same).trans drainedKey)
        rw [same] at profile
        have continues := Scheduler.Continues.of_status profile
        rcases outcome with ⟨_, _, rfl⟩ | ⟨_, _, scheduler, outcome, rfl⟩
        · have written := (Scheduler.profileOf_setRequest ..).symm.trans stays
          rw [if_pos updatedKey] at written
          cases written
          exact continues
        · rw [noteStopped_scheduler, ← updatedKey] at stays
          rcases outcome with finished | ⟨_, requeued⟩
          · rw [finished.profileOf stays]
            exact continues
          · exact continues.trans (requeued.profileOf stays)

/-- The main loop leaves the requests that are not among its entries alone. -/
theorem processAll_frame {entries : List (RequestId × Nat)} {requestId : RequestId}
    (keyed : pass.scheduler.Keyed) (absent : requestId ∉ entries.map Prod.fst)
    (ran : entries.foldlM (processScheduled output runner failedKvLoadReqIds) pass = .ok next) :
    next.scheduler.Keyed ∧
      next.scheduler.requests.get? requestId = pass.scheduler.requests.get? requestId := by
  refine foldlM_invariant
    (fun state : UpdatePass H => state.scheduler.Keyed ∧
      state.scheduler.requests.get? requestId = pass.scheduler.requests.get? requestId)
    ?_ ⟨keyed, rfl⟩ ran
  rintro entry member state after ⟨filed, same⟩ round
  rcases processScheduled_frame filed round with ⟨filed, _, others⟩
  have differ : requestId ≠ entry.1 := fun here => absent (here ▸ List.mem_map_of_mem member)
  exact ⟨filed, (congrArg Prod.fst (others requestId differ)).trans same⟩

end UpdatePass

namespace Scheduler

variable {H : Type} [DecidableEq H] [BlockHashing H]

/-- The profile after the outputs of a step came back. -/
def drainedBy (output : SchedulerOutput) (requestId : RequestId) (profile : Profile) : Profile :=
  match output.numScheduledTokens.get? requestId with
  | some numTokensScheduled => profile.drained numTokensScheduled
  | none => profile

variable {scheduler next : Scheduler H}

/-- `update_from_output` drains the counters of the requests of the step. -/
theorem updateFromOutput_drains {output : SchedulerOutput} {runner : ModelRunnerOutput}
    {outputs : List EngineCoreOutput} (keyed : scheduler.Keyed)
    (ran : scheduler.updateFromOutput output runner = .ok (outputs, next)) {requestId : RequestId}
    {new : Profile} (stays : next.profileOf requestId = some new) :
    ∃ old, scheduler.profileOf requestId = some old ∧
      Continues (drainedBy output requestId old) new := by
  rcases bind_eq_ok.mp ran with ⟨⟨failed, begun⟩, beginning, ran⟩
  rcases bind_eq_ok.mp ran with ⟨pass, processing, finishing⟩
  have same := (beginUpdate_spec keyed beginning).1
  have filed : begun.Keyed := (Carries.of_same same).keyed keyed
  have looped := foldlM_entries_rule (fun (pass : UpdatePass H) id => pass.scheduler.profileOf id)
    (fun _ tokens old new => ∀ profile, new = some profile →
      ∃ before : Profile, old = some before ∧ Continues (before.drained tokens) profile)
    (fun pass => pass.scheduler.Keyed) output.numScheduledTokens ?_ (by exact filed) processing
  · rcases looped with ⟨processed, drained, untouched⟩
    rcases finishUpdate_carries processed finishing requestId new stays with
      ⟨middle, stored, later⟩
    unfold drainedBy
    cases scheduled : output.numScheduledTokens.get? requestId with
    | some tokens =>
        rcases drained requestId tokens scheduled middle stored with ⟨old, before, earlier⟩
        exact ⟨old, (same requestId).symm.trans before, earlier.trans later⟩
    | none =>
        rw [untouched requestId scheduled] at stored
        exact ⟨middle, (same requestId).symm.trans stored, later⟩
  · intro entry _ state after filed untouched round
    rcases UpdatePass.processScheduled_frame filed round with ⟨kept, _, others⟩
    refine ⟨kept, ?_, ?_⟩
    · intro profile stays
      rw [← untouched]
      exact UpdatePass.processScheduled_drains filed round stays
    · intro other differ
      exact profileOf_congr (congrArg Prod.fst (others other differ))

omit [DecidableEq H] in
/-- `add_request` brings at most the profile of a new request. -/
theorem addRequest_profiles {request : Request H} {connectorDelays : RequestId → Bool}
    (keyed : scheduler.Keyed) (ran : scheduler.addRequest request connectorDelays = .ok next) :
    scheduler.Carries next ∨
    (scheduler.requests.get? request.requestId = none ∧
      ∀ requestId new, next.profileOf requestId = some new →
        (requestId = request.requestId ∧ new = request.profile) ∨
        scheduler.profileOf requestId = some new) := by
  rcases addRequest_spec ran with
    ⟨existing, found, ⟨queue, rfl⟩ | ⟨_, update, updating⟩ | finishing⟩ |
    ⟨absent, added, id, profile, rfl⟩
  · left
    rw [← keyed _ existing found] at found
    have same : ∀ requestId, (scheduler.setRequest
        { existing with streamingQueue := queue }).profileOf requestId =
          scheduler.profileOf requestId := profileOf_setRequest_same found rfl
    exact Carries.of_same same
  · left
    rcases updateRequestAsSession_spec updating with ⟨continued, count, _, continues, _, _, rfl⟩
    have key : continued.requestId = existing.requestId := congrArg Profile.requestId continues.2
    rw [← keyed _ existing found] at found
    intro requestId new stays
    have written := (profileOf_setRequest scheduler continued requestId).symm.trans stays
    split at written
    · rename_i here
      cases written
      refine ⟨existing.profile, ?_, continues⟩
      rw [← here, key]
      exact profileOf_of_found found
    · exact ⟨new, written, Continues.rfl new⟩
  · exact .inl (finishRequests_carries keyed finishing)
  · right
    rcases (scheduler.setRequest added).enqueueWaitingRequest_spec added with ⟨_, _, _, shape⟩
    rw [shape]
    refine ⟨absent, ?_⟩
    intro requestId new stays
    have written := (profileOf_setRequest scheduler added requestId).symm.trans stays
    split at written
    · rename_i here
      cases written
      exact .inl ⟨here.symm.trans id, profile⟩
    · exact .inr written

end Scheduler

/-! ## What no update brings -/

namespace Scheduler

variable {H : Type}

/-- No request joins the running ones, and no encoder output is cached. -/
structure Recedes (scheduler next : Scheduler H) : Prop where
  config : next.config = scheduler.config
  running : next.running ⊆ scheduler.running
  addsNone : EncoderCacheManager.AddsNone scheduler.encoderCacheManager next.encoderCacheManager

theorem Recedes.refl (scheduler : Scheduler H) : scheduler.Recedes scheduler :=
  ⟨rfl, List.Subset.refl _, .refl _⟩

theorem Recedes.trans {first second third : Scheduler H} (one : first.Recedes second)
    (two : second.Recedes third) : first.Recedes third :=
  ⟨two.config.trans one.config, List.Subset.trans two.running one.running,
    one.addsNone.trans two.addsNone⟩

theorem removeAll_subset (requestIds gone : List RequestId) :
    removeAll requestIds gone ⊆ requestIds := by
  unfold removeAll
  split
  · exact List.Subset.refl _
  · exact List.erase_subset
  · exact List.filter_subset_self _

variable {scheduler next : Scheduler H} {request : Request H} {runner : ModelRunnerOutput}

theorem Finished.recedes (finished : scheduler.Finished request next) : scheduler.Recedes next := by
  rcases finished with ⟨_, _, _, _, _, _, _, _, freed, _, _, rfl⟩
  exact ⟨rfl, List.Subset.refl _, EncoderCacheManager.free_addsNone freed⟩

theorem Requeued.recedes (requeued : scheduler.Requeued request next) : scheduler.Recedes next := by
  rcases requeued.shape with ⟨_, _, _, _, _, _, _, rfl⟩
  exact ⟨rfl, List.Subset.refl _, .refl _⟩

theorem ReleasesBehind.addsNone {encoder : EncoderCacheManager} {served : Dict RequestId (List Nat)}
    (releases : scheduler.ReleasesBehind request encoder served) :
    EncoderCacheManager.AddsNone scheduler.encoderCacheManager encoder := by
  rcases releases with ⟨releasing, _⟩ | ⟨_, rfl, _⟩
  · refine foldlM_invariant
      (EncoderCacheManager.AddsNone scheduler.encoderCacheManager) ?_ (.refl _) releasing
    intro inputId _ state after added round
    rcases bind_eq_ok.mp round with ⟨feature, _, round⟩
    split at round
    · exact added.trans (EncoderCacheManager.freeEncoderInput_addsNone round)
    · cases round
      exact added
  · exact .refl _

variable {connectorDelays : RequestId → Bool} {failedKvLoadReqIds : List RequestId}
  {outputs : List EngineCoreOutput} {output : SchedulerOutput}

theorem finishRequests_recedes {requestIds : Option (List RequestId)}
    {finishedStatus : RequestStatus} (keyed : scheduler.Keyed)
    (ran : scheduler.finishRequests requestIds finishedStatus connectorDelays = .ok next) :
    scheduler.Recedes next := by
  rcases finishRequests_spec keyed ran with
    ⟨gone, _, _, _, finishing⟩
  rcases scheduler.detached_shape gone with ⟨_, _, _, _, shape⟩
  rw [shape] at finishing
  refine finishAll_rule (fun _ state => scheduler.Recedes state) ?_
    (by exact ⟨rfl, removeAll_subset .., .refl _⟩) finishing
  intro request rest state after recedes finished
  exact recedes.trans finished.recedes

theorem finishUpdate_recedes {pass : UpdatePass H} (keyed : pass.scheduler.Keyed)
    (ran : finishUpdate pass runner failedKvLoadReqIds = .ok (outputs, next)) :
    pass.scheduler.Recedes next := by
  rcases removeWaiting_spec
    { pass.scheduler with
      running := removeAll pass.scheduler.running pass.stoppedRunningReqs }
    pass.stoppedPreemptedReqs with ⟨waiting, skipped, _, shape⟩
  rcases bind_eq_ok.mp ran with ⟨finished, finishing, ran⟩
  rw [shape] at finishing
  have removed := removeAll_subset pass.scheduler.running pass.stoppedRunningReqs
  have afterErrors : finished.Keyed ∧ pass.scheduler.Recedes finished := by
    split at finishing
    · cases finishing
      exact ⟨keyed, rfl, removed, .refl _⟩
    · have recedes := finishRequests_recedes (by exact keyed) finishing
      have carries := finishRequests_carries (by exact keyed) finishing
      exact ⟨carries.keyed keyed, recedes.config, List.Subset.trans recedes.running removed,
        recedes.addsNone⟩
  split at ran
  · rcases bind_eq_ok.mp ran with ⟨transferred, transferring, ran⟩
    cases ran
    have kept := updateFromKvXferFinished_spec
      (fun state => state.Keyed ∧ pass.scheduler.Recedes state)
      (fun _ _ kept => ⟨kept.1, kept.2.config, kept.2.running, kept.2.addsNone⟩)
      (fun _ _ _ _ _ _ kept =>
        ⟨keyed_erase kept.1 _, kept.2.config, kept.2.running, kept.2.addsNone⟩)
      (fun _ kept => kept.1) afterErrors transferring
    exact kept.2
  · cases ran
    exact afterErrors.2

variable [DecidableEq H] [BlockHashing H]

theorem processScheduled_recedes {pass next : UpdatePass H} {entry : RequestId × Nat}
    (ran : UpdatePass.processScheduled output runner failedKvLoadReqIds pass entry = .ok next) :
    pass.scheduler.Recedes next.scheduler := by
  cases found : pass.scheduler.requests.get? entry.1 with
  | none =>
      rcases bind_eq_ok.mp ran with ⟨_, _, ran⟩
      rw [found] at ran
      cases ran
      exact Recedes.refl _
  | some request =>
      rcases UpdatePass.processScheduled_spec found ran with rfl | ⟨_, _, _, delivering⟩
      · exact ⟨rfl, List.Subset.refl _, .refl _⟩
      · rcases UpdatePass.deliver_spec delivering with
          ⟨_, _, _, _, _, _, _, _, _, _, releases, _, _, outcome⟩
        have released := releases.addsNone
        rcases outcome with ⟨_, _, rfl⟩ | ⟨_, _, scheduler, finished | ⟨_, requeued⟩, rfl⟩
        · exact ⟨rfl, List.Subset.refl _, released⟩
        · rw [UpdatePass.noteStopped_scheduler]
          exact ⟨finished.recedes.config, finished.recedes.running,
            released.trans finished.recedes.addsNone⟩
        · rw [UpdatePass.noteStopped_scheduler]
          exact ⟨requeued.recedes.config, requeued.recedes.running,
            released.trans requeued.recedes.addsNone⟩

theorem updateFromOutput_recedes (keyed : scheduler.Keyed)
    (ran : scheduler.updateFromOutput output runner = .ok (outputs, next)) :
    scheduler.Recedes next := by
  rcases bind_eq_ok.mp ran with ⟨⟨failed, begun⟩, beginning, ran⟩
  rcases bind_eq_ok.mp ran with ⟨pass, processing, finishing⟩
  rcases beginUpdate_spec keyed beginning with ⟨same, _, _, _, _, _, rfl⟩
  have filed := (Carries.of_same same).keyed keyed
  have looped := foldlM_invariant
    (fun pass : UpdatePass H => pass.scheduler.Keyed ∧ scheduler.Recedes pass.scheduler)
    (fun entry _ state after kept round =>
      ⟨(UpdatePass.processScheduled_frame kept.1 round).1,
        kept.2.trans (processScheduled_recedes round)⟩)
    (by exact ⟨filed, rfl, List.Subset.refl _, .refl _⟩) processing
  exact looped.2.trans (finishUpdate_recedes looped.1 finishing)

omit [DecidableEq H] in
theorem addRequest_recedes (keyed : scheduler.Keyed)
    (ran : scheduler.addRequest request connectorDelays = .ok next) : scheduler.Recedes next := by
  rcases addRequest_spec ran with
    ⟨existing, _, ⟨queue, rfl⟩ | ⟨_, update, updating⟩ | finishing⟩ | ⟨_, added, _, _, rfl⟩
  · exact ⟨rfl, List.Subset.refl _, .refl _⟩
  · rcases updateRequestAsSession_spec updating with ⟨_, _, _, _, _, _, rfl⟩
    exact ⟨rfl, List.Subset.refl _, .refl _⟩
  · exact finishRequests_recedes keyed finishing
  · rcases (scheduler.setRequest added).enqueueWaitingRequest_spec added with ⟨_, _, _, shape⟩
    rw [shape]
    exact ⟨rfl, List.Subset.refl _, .refl _⟩

section

omit [DecidableEq H] [BlockHashing H]

theorem SameProfiles.recedes (same : scheduler.SameProfiles next) : scheduler.Recedes next := by
  rcases same with ⟨_, _, rfl⟩
  exact ⟨rfl, List.Subset.refl _, .refl _⟩

theorem resetPrefixCache_recedes {resetRunningRequests successful : Bool}
    (ran : scheduler.resetPrefixCache resetRunningRequests = .ok (successful, next)) :
    scheduler.Recedes next := by
  refine resetPrefixCache_rule scheduler.Recedes ?_
    (fun _ _ recedes => ⟨recedes.config, recedes.running, recedes.addsNone⟩) (Recedes.refl _) ran
  intro state after requestId recedes _ preempting
  rcases preemptRequest_spec preempting with ⟨_, _, _, _, _, _, _, _, _, freed, _, rfl⟩
  exact ⟨recedes.config, fun _ member => recedes.running (List.dropLast_subset _ member),
    recedes.addsNone.trans (EncoderCacheManager.free_addsNone freed)⟩

end

end Scheduler

end Vllm.Core
