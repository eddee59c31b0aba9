import Vllm.Core.PlacementRuns

/-!
# What the running phase has scheduled

The requests that the running phase has scheduled stand before its cursor, and a
victim that was among them loses all its entries.  So what a step hands out it
hands out to running requests, and to none that it preempted.
-/

namespace Vllm.Core

open Vllm.Library Relation

namespace SchedulePass

variable {H : Type}

/-- The request stands before the cursor. -/
def Before (pass : SchedulePass H) (requestId : RequestId) : Prop :=
  ∃ index < pass.reqIndex, pass.scheduler.running[index]? = some requestId

variable {pass next : SchedulePass H} {requestId victim : RequestId}

theorem Before.mem (before : pass.Before requestId) : requestId ∈ pass.scheduler.running := by
  rcases before with ⟨index, _, found⟩
  exact List.mem_of_getElem? found

variable {index : Nat}

/-- The request under the cursor is not before it. -/
theorem not_before_of_cursor (nodup : pass.scheduler.running.Nodup) (behind : pass.reqIndex ≤ index)
    (found : pass.scheduler.running[index]? = some requestId) :
    ¬pass.Before requestId := by
  rintro ⟨earlier, inside, same⟩
  rcases List.getElem?_eq_some_iff.mp same with ⟨bound, _⟩
  have equal : earlier = index := (List.getElem?_inj bound nodup).mp (same.trans found.symm)
  omega

/-- Dropping a running request leaves the others on their side of the cursor. -/
theorem Before.dropRunning (before : pass.Before requestId)
    (atIndex : pass.scheduler.running[index]? = some victim) (differ : requestId ≠ victim) :
    (pass.dropRunning index).Before requestId := by
  rcases before with ⟨place, inside, found⟩
  have apart : place ≠ index := by
    rintro rfl
    rw [found] at atIndex
    exact differ (Option.some.inj atIndex)
  unfold Before SchedulePass.dropRunning
  dsimp only
  by_cases earlier : place < index
  · refine ⟨place, ?_, ?_⟩
    · split <;> omega
    · rw [List.getElem?_eraseIdx_of_lt earlier]
      exact found
  · have later : index < place := by omega
    refine ⟨place - 1, ?_, ?_⟩
    · rw [if_pos (by omega)]
      omega
    · rw [List.getElem?_eraseIdx_of_ge (by omega), Nat.sub_add_cancel (by omega)]
      exact found

/-- The entries of the running phase. -/
structure Cursor (pass : SchedulePass H) : Prop where
  nodup : pass.scheduler.running.Nodup
  listed : pass.scheduledRunningReqs.Nodup
  before : ∀ requestId ∈ pass.scheduledRunningReqs, pass.Before requestId
  tokens : ∀ requestId ∈ pass.numScheduledTokens.keys, requestId ∈ pass.scheduledRunningReqs
  inputs : ∀ requestId ∈ pass.scheduledEncoderInputs.keys, requestId ∈ pass.numScheduledTokens.keys
  positive : ∀ requestId count, pass.numScheduledTokens.get? requestId = some count → 0 < count

/-- A preemption keeps the entries of the others, and the victim has none. -/
theorem Cursor.preemptOne (cursor : pass.Cursor)
    (inside : pass.reqIndex < pass.scheduler.running.length)
    (ran : pass.preemptOne = .ok (victim, next)) :
    next.Cursor ∧ victim ∉ next.scheduler.running := by
  rcases preemptOne_spec ran with ⟨removed, scheduler, removing, preempting, rfl⟩
  rcases Scheduler.preemptRequest_spec preempting with ⟨_, _, _, _, _, _, _, _, _, _, _, rfl⟩
  rcases removeVictim_spec inside removing with ⟨index, atIndex, shape⟩
  have gone : victim ∉ (pass.dropRunning index).scheduler.running := by
    have distinct := (perm_cons_eraseIdx atIndex).nodup_iff.mp cursor.nodup
    exact (List.nodup_cons.mp distinct).1
  rcases shape with ⟨scheduled, _, budgets, rfl⟩ | ⟨apart, rfl⟩
  · refine ⟨⟨cursor.nodup.eraseIdx _, cursor.listed.erase _, ?_, ?_, ?_, ?_⟩, gone⟩
    · intro requestId member
      have kept := cursor.listed.mem_erase_iff.mp member
      exact (cursor.before requestId kept.2).dropRunning atIndex kept.1
    · intro requestId member
      have kept := Dict.mem_keys_erase.mp member
      exact cursor.listed.mem_erase_iff.mpr ⟨kept.1, cursor.tokens requestId kept.2⟩
    · intro requestId member
      have kept := Dict.mem_keys_erase.mp member
      exact Dict.mem_keys_erase.mpr ⟨kept.1, cursor.inputs requestId kept.2⟩
    · intro requestId count found
      have stored := (Dict.get?_erase ..).symm.trans found
      split at stored
      · contradiction
      · exact cursor.positive requestId count stored
  · have unscheduled : victim ∉ pass.scheduledRunningReqs := by
      rcases apart with unscheduled | behind
      · exact unscheduled
      · exact fun member =>
          not_before_of_cursor cursor.nodup behind atIndex (cursor.before victim member)
    refine ⟨⟨cursor.nodup.eraseIdx _, cursor.listed, ?_, cursor.tokens, cursor.inputs,
      cursor.positive⟩, gone⟩
    intro requestId member
    exact (cursor.before requestId member).dropRunning atIndex
      fun same => unscheduled (same ▸ member)

/-- Scheduling the request under the cursor. -/
theorem Cursor.commit {count : Nat} (cursor : pass.Cursor)
    (current : pass.scheduler.running[pass.reqIndex]? = some requestId) (positive : 0 < count)
    (running : next.scheduler.running = pass.scheduler.running)
    (moved : next.reqIndex = pass.reqIndex + 1)
    (listed : next.scheduledRunningReqs = pass.scheduledRunningReqs ++ [requestId])
    (tokens : next.numScheduledTokens = pass.numScheduledTokens.insert requestId count)
    (inputs : ∀ other ∈ next.scheduledEncoderInputs.keys,
      other = requestId ∨ other ∈ pass.scheduledEncoderInputs.keys) : next.Cursor := by
  have unlisted : requestId ∉ pass.scheduledRunningReqs := fun member =>
    not_before_of_cursor cursor.nodup (Nat.le_refl _) current (cursor.before requestId member)
  refine ⟨running ▸ cursor.nodup, ?_, ?_, ?_, ?_, ?_⟩
  · rw [listed, (List.perm_append_singleton ..).nodup_iff]
    exact List.nodup_cons.mpr ⟨unlisted, cursor.listed⟩
  · intro other member
    unfold Before
    rw [running, moved]
    rw [listed, List.mem_append, List.mem_singleton] at member
    rcases member with earlier | rfl
    · rcases cursor.before other earlier with ⟨index, inside, found⟩
      exact ⟨index, Nat.lt_succ_of_lt inside, found⟩
    · exact ⟨pass.reqIndex, Nat.lt_succ_self _, current⟩
  · intro other member
    rw [tokens] at member
    rw [listed, List.mem_append, List.mem_singleton]
    rcases Dict.mem_keys_insert.mp member with here | earlier
    · exact .inr here
    · exact .inl (cursor.tokens other earlier)
  · intro other member
    rw [tokens, Dict.mem_keys_insert]
    exact (inputs other member).imp_right (cursor.inputs other)
  · intro other stored found
    rw [tokens, Dict.get?_insert] at found
    split at found
    · cases found
      exact positive
    · exact cursor.positive other stored found

/-- The inputs of the request are entered, if there are any. -/
theorem mem_keys_entered {scheduled : Dict RequestId (List Nat)} {other : RequestId}
    {inputIds : List Nat} (member : other ∈ (if inputIds = [] then scheduled
      else scheduled.insert requestId inputIds).keys) :
    other = requestId ∨ other ∈ scheduled.keys := by
  split at member
  · exact .inr member
  · exact Dict.mem_keys_insert.mp member

variable [DecidableEq H] [BlockHashing H]

section

omit [DecidableEq H] [BlockHashing H]

theorem RunningMove.cursor {input : ScheduleInput H} (move : RunningMove input pass next)
    (cursor : pass.Cursor) : next.Cursor := by
  cases move with
  | allocate manager =>
      exact ⟨cursor.nodup, cursor.listed, cursor.before, cursor.tokens, cursor.inputs,
        cursor.positive⟩
  | advance =>
      refine ⟨cursor.nodup, cursor.listed, ?_, cursor.tokens, cursor.inputs, cursor.positive⟩
      intro requestId member
      rcases cursor.before requestId member with ⟨index, inside, found⟩
      exact ⟨index, Nat.lt_succ_of_lt inside, found⟩
  | encode found ran =>
      exact ⟨cursor.nodup, cursor.listed, cursor.before, cursor.tokens, cursor.inputs,
        cursor.positive⟩
  | preempt inside ran => exact (cursor.preemptOne inside ran).1
  | schedule current found positive ran asked =>
      rename_i request newBlocks numNewTokens encoder
      rcases commitEncoderInputs_spec ran with ⟨manager, budget, _, rfl⟩
      unfold commitSpecTokens
      split
      · exact cursor.commit current positive rfl rfl rfl rfl fun _ => mem_keys_entered
      · exact cursor.commit current positive rfl rfl rfl rfl fun _ => mem_keys_entered

/-! ## The entries of a step -/

/-- The entries of a pass are about running requests. -/
structure Entries (pass : SchedulePass H) : Prop where
  tokens : ∀ requestId ∈ pass.numScheduledTokens.keys, requestId ∈ pass.scheduler.running
  inputs : ∀ requestId ∈ pass.scheduledEncoderInputs.keys, requestId ∈ pass.numScheduledTokens.keys
  positive : ∀ requestId count, pass.numScheduledTokens.get? requestId = some count → 0 < count

theorem Cursor.entries (cursor : pass.Cursor) : pass.Entries :=
  ⟨fun requestId member => (cursor.before requestId (cursor.tokens requestId member)).mem,
    cursor.inputs, cursor.positive⟩

end

theorem WaitingMove.entries {input : ScheduleInput H} (move : WaitingMove input pass next)
    (entries : pass.Entries) : next.Entries := by
  rcases move.cases with unadmitted | ⟨request, queue, lookup, admission, -, -, positive, ran⟩
  · constructor
    · rw [unadmitted.tokens, unadmitted.running]
      exact entries.tokens
    · rw [unadmitted.tokens, unadmitted.inputs]
      exact entries.inputs
    · rw [unadmitted.tokens]
      exact entries.positive
  · rcases admit_spec ran with
      ⟨first, rest, manager, inflight, budgets, new, resumed, syncLoads, _, _, _, _, rfl⟩
    constructor
    · intro requestId member
      rcases Dict.mem_keys_insert.mp member with rfl | earlier
      · exact List.mem_append_right _ (List.mem_singleton_self _)
      · exact List.mem_append_left _ (entries.tokens requestId earlier)
    · intro requestId member
      apply Dict.mem_keys_insert.mpr
      exact (mem_keys_entered member).imp_right (entries.inputs requestId)
    · intro requestId count stored
      have inserted := (Dict.get?_insert ..).symm.trans stored
      split at inserted
      · cases inserted
        exact positive
      · exact entries.positive requestId count inserted

/-! ## What lasts -/

end SchedulePass

/-- The profile up to the queue that the request is in. -/
def Profile.lasting (profile : Profile) : Profile :=
  { profile with status := .waiting }

/-- The profile of a preempted request: all its outputs in flight are stale. -/
def Profile.preempted (profile : Profile) : Profile :=
  { profile with
    numStaleOutputTokens := profile.numInFlightTokens
    numPreemptions := profile.numPreemptions + 1 }

section Lasting

variable {H : Type}

/-- What lasts of the profile that is filed under an id. -/
def lastingIn (requests : Dict RequestId (Request H)) (requestId : RequestId) : Option Profile :=
  (requests.get? requestId).map fun request => request.profile.lasting

variable {requests : Dict RequestId (Request H)}

variable {requestId : RequestId}

variable {request : Request H}

theorem lastingIn_of_found (found : requests.get? requestId = some request) :
    lastingIn requests requestId = some request.profile.lasting := by
  unfold lastingIn
  rw [found]
  rfl

theorem lastingIn_insert_of_ne (requests : Dict RequestId (Request H)) (request : Request H)
    {other : RequestId} (differ : other ≠ requestId) :
    lastingIn (requests.insert requestId request) other = lastingIn requests other := by
  unfold lastingIn
  rw [Dict.get?_insert_of_ne _ _ (Ne.symm differ)]

/-- Writing back a request that differs in its status at most. -/
theorem lastingIn_insert_same {current : Request H} (found : requests.get? requestId = some current)
    (same : request.profile.lasting = current.profile.lasting) (other : RequestId) :
    lastingIn (requests.insert requestId request) other = lastingIn requests other := by
  by_cases here : other = requestId
  · rw [here, lastingIn_of_found (Dict.get?_insert_self ..), lastingIn_of_found found, same]
  · exact lastingIn_insert_of_ne _ _ here

theorem lastingIn_eq_profileOf (scheduler : Scheduler H) (requestId : RequestId) :
    lastingIn scheduler.requests requestId =
      (scheduler.profileOf requestId).map Profile.lasting := by
  unfold lastingIn Scheduler.profileOf
  rw [Option.map_map]
  rfl

end Lasting

namespace SchedulePass

variable {H : Type} [DecidableEq H] [BlockHashing H]

omit [DecidableEq H] [BlockHashing H] in
/-- Since the start of the call a request is what it was, or it was preempted once and
is not running. -/
def Settled (start : Scheduler H) (pass : SchedulePass H) : Prop :=
  ∀ requestId, lastingIn pass.scheduler.requests requestId = lastingIn start.requests requestId ∨
    (requestId ∈ pass.preemptedReqs ∧ requestId ∉ pass.scheduler.running ∧
      lastingIn pass.scheduler.requests requestId =
        (lastingIn start.requests requestId).map Profile.preempted)

variable {start : Scheduler H} {pass next : SchedulePass H} {input : ScheduleInput H}

section

omit [DecidableEq H] [BlockHashing H]

theorem Settled.of_same (settled : pass.Settled start)
    (same : ∀ requestId, lastingIn next.scheduler.requests requestId =
      lastingIn pass.scheduler.requests requestId)
    (preempted : next.preemptedReqs = pass.preemptedReqs)
    (running : next.scheduler.running = pass.scheduler.running) : next.Settled start := by
  intro requestId
  rw [same, preempted, running]
  exact settled requestId

/-- If nothing was preempted, every request is what it was. -/
theorem Settled.lasting (settled : pass.Settled start) (unpreempted : pass.preemptedReqs = [])
    (requestId : RequestId) :
    lastingIn pass.scheduler.requests requestId = lastingIn start.requests requestId := by
  rcases settled requestId with lasts | ⟨preempted, _⟩
  · exact lasts
  · rw [unpreempted] at preempted
    contradiction

/-- A preemption is the only move of the running phase that touches what lasts. -/
theorem Settled.preemptOne {victim : RequestId} (settled : pass.Settled start)
    (keyed : pass.scheduler.Keyed) (cursor : pass.Cursor)
    (inside : pass.reqIndex < pass.scheduler.running.length)
    (ran : pass.preemptOne = .ok (victim, next)) : next.Settled start := by
  have gone := (cursor.preemptOne inside ran).2
  have others := (preemptOne_requests keyed inside ran).2
  rcases preemptOne_spec ran with ⟨removed, scheduler, removing, preempting, rfl⟩
  rcases Scheduler.preemptRequest_spec preempting with
    ⟨request, _, _, _, _, _, _, found, _, _, _, rfl⟩
  rcases removeVictim_spec inside removing with ⟨index, atIndex, shape⟩
  have same : removed.scheduler.requests = pass.scheduler.requests ∧
      removed.preemptedReqs = pass.preemptedReqs ∧
      removed.scheduler.running = pass.scheduler.running.eraseIdx index := by
    rcases shape with ⟨_, _, budgets, rfl⟩ | ⟨_, rfl⟩
    · exact ⟨rfl, rfl, rfl⟩
    · exact ⟨rfl, rfl, rfl⟩
  rw [same.1] at found
  intro requestId
  by_cases here : requestId = victim
  · subst here
    right
    refine ⟨List.mem_append_right _ (List.mem_singleton_self _), gone, ?_⟩
    have running := List.mem_of_getElem? atIndex
    rcases settled requestId with lasts | ⟨_, idle, _⟩
    · have written : lastingIn (removed.scheduler.requests.insert request.requestId
          (request.preempted removed.config.requiresKvDelivery)) requestId =
            some request.profile.lasting.preempted := by
        rw [keyed requestId request found]
        exact lastingIn_of_found (Dict.get?_insert_self ..)
      refine written.trans ?_
      rw [← lasts, lastingIn_of_found found]
      rfl
    · exact absurd running idle
  · have kept : lastingIn (removed.scheduler.requests.insert request.requestId
        (request.preempted removed.config.requiresKvDelivery)) requestId =
          lastingIn pass.scheduler.requests requestId :=
      congrArg (Option.map fun request : Request H => request.profile.lasting)
        (others requestId here)
    rcases settled requestId with lasts | ⟨preempted, idle, lasts⟩
    · exact .inl (kept.trans lasts)
    · refine .inr ⟨?_, ?_, kept.trans lasts⟩
      · dsimp only
        rw [same.2.1]
        exact List.mem_append_left _ preempted
      · dsimp only
        rw [same.2.2]
        exact fun member => idle (List.mem_of_mem_eraseIdx member)

theorem RunningMove.settled (move : RunningMove input pass next)
    (kept : pass.scheduler.Keyed ∧ pass.Cursor ∧ pass.Settled start) :
    next.scheduler.Keyed ∧ next.Cursor ∧ next.Settled start := by
  rcases kept with ⟨keyed, cursor, settled⟩
  refine ⟨move.keyed keyed, move.cursor cursor, ?_⟩
  cases move with
  | allocate manager => exact settled
  | advance => exact settled
  | encode found ran => exact settled
  | preempt inside ran => exact settled.preemptOne keyed cursor inside ran
  | schedule current found positive ran asked =>
      rcases commitEncoderInputs_spec ran with ⟨manager, budget, _, rfl⟩
      unfold commitSpecTokens
      split
      · exact settled
      · exact settled.of_same (lastingIn_insert_same found rfl) rfl rfl

end

/-- The waiting phase does not touch what lasts. -/
theorem WaitingMove.lasting (move : WaitingMove input pass next) (requestId : RequestId) :
    lastingIn next.scheduler.requests requestId = lastingIn pass.scheduler.requests requestId := by
  rcases move.frame.requests with same | ⟨request, _, _, _, found, same⟩
  · rw [same]
  · rw [same]
    exact lastingIn_insert_same found (by rfl) requestId

section

omit [DecidableEq H] [BlockHashing H]

theorem RunningMove.recedes (move : RunningMove input pass next)
    (recedes : pass.scheduler.config = start.config ∧ pass.scheduler.running ⊆ start.running) :
    next.scheduler.config = start.config ∧ next.scheduler.running ⊆ start.running :=
  ⟨move.frame.1.trans recedes.1, List.Subset.trans move.frame.2.2.2 recedes.2⟩

/-- A new pass has no entries. -/
theorem startPass_cursor {scheduler : Scheduler H} (nodup : scheduler.running.Nodup)
    (input : ScheduleInput H) : (scheduler.startPass input).Cursor :=
  ⟨nodup, List.nodup_nil, nofun, nofun, nofun, nofun⟩

end

end SchedulePass

namespace Scheduler

variable {H : Type} [DecidableEq H] [BlockHashing H]

variable {scheduler next : Scheduler H} {input : ScheduleInput H}

omit [DecidableEq H] [BlockHashing H] in
/-- At the end of the running phase. -/
theorem runningPhase_settled {pass : SchedulePass H} (keyed : scheduler.Keyed)
    (nodup : scheduler.running.Nodup)
    (moves : ReflTransGen (SchedulePass.RunningMove input) (scheduler.startPass input) pass) :
    pass.scheduler.Keyed ∧ pass.Cursor ∧ pass.Settled scheduler :=
  chain_keeps
    (fun pass => pass.scheduler.Keyed ∧ pass.Cursor ∧ pass.Settled scheduler)
    SchedulePass.RunningMove.settled moves
    ⟨keyed, SchedulePass.startPass_cursor nodup input, fun _ => .inl rfl⟩

variable {output : SchedulerOutput}

/-- At the end of both phases. -/
theorem schedule_settled (keyed : scheduler.Keyed) (nodup : scheduler.running.Nodup)
    (ran : scheduler.schedule input = .ok (output, next)) :
    ∃ waited : SchedulePass H, waited.scheduler.Keyed ∧ waited.Entries ∧
      waited.Settled scheduler ∧ waited.finish = .ok (output, next) := by
  rcases schedule_moves keyed ran with
    ⟨ranPass, recorded, waited, _, runningMoves, recording, _, waitingMoves, filed, finishing⟩
  rcases runningPhase_settled keyed nodup runningMoves with ⟨_, cursor, settled⟩
  have afterRecording : recorded.Entries ∧ recorded.Settled scheduler := by
    have entries := cursor.entries
    rcases SchedulePass.recordScheduledLoras_spec recording with ⟨_, rfl⟩ | ⟨_, _, _, rfl⟩
    · exact ⟨entries, settled⟩
    · exact ⟨⟨entries.tokens, entries.inputs, entries.positive⟩, settled⟩
  refine ⟨waited, filed, ?_⟩
  rcases waitingMoves with rfl | ⟨unpreempted, _, last, moves, skipped, bound, same, rfl⟩
  · exact ⟨afterRecording.1, afterRecording.2, finishing⟩
  · have entries := chain_keeps SchedulePass.Entries SchedulePass.WaitingMove.entries moves
      afterRecording.1
    have after := chain_keeps
      (fun pass : SchedulePass H => ∀ requestId, lastingIn pass.scheduler.requests requestId =
        lastingIn scheduler.requests requestId)
      (fun move lasts requestId => (move.lasting requestId).trans (lasts requestId)) moves
      (afterRecording.2.lasting unpreempted)
    exact ⟨⟨entries.tokens, entries.inputs, entries.positive⟩,
      fun requestId => .inl (after requestId), finishing⟩

/-- What a call of `schedule` does to a request: it has tokens scheduled, or it is
left alone, or it is preempted once. -/
theorem schedule_lasting (keyed : scheduler.Keyed) (nodup : scheduler.running.Nodup)
    (ran : scheduler.schedule input = .ok (output, next)) (requestId : RequestId) :
    (∃ numTokens, output.numScheduledTokens.get? requestId = some numTokens ∧ 0 < numTokens ∧
      lastingIn next.requests requestId =
        (lastingIn scheduler.requests requestId).map (·.progressed numTokens)) ∨
    (output.numScheduledTokens.get? requestId = none ∧
      (lastingIn next.requests requestId = lastingIn scheduler.requests requestId ∨
      lastingIn next.requests requestId =
        (lastingIn scheduler.requests requestId).map Profile.preempted)) := by
  rcases schedule_settled keyed nodup ran with ⟨waited, filed, entries, settled, finishing⟩
  rcases SchedulePass.finish_spec filed finishing with ⟨_, tokens, _, _, _, progress⟩
  have advanced : lastingIn next.requests requestId =
      (lastingIn waited.scheduler.requests requestId).map
        (·.progressed (waited.numScheduledTokens.getD requestId 0)) := by
    rw [lastingIn_eq_profileOf, progress, lastingIn_eq_profileOf, Option.map_map, Option.map_map]
    rfl
  rw [tokens]
  unfold Dict.getD at advanced
  cases scheduled : waited.numScheduledTokens.get? requestId with
  | some numTokens =>
      left
      rw [scheduled, Option.getD_some] at advanced
      refine ⟨numTokens, rfl, entries.positive requestId numTokens scheduled, ?_⟩
      rcases settled requestId with lasts | ⟨_, idle, _⟩
      · rw [advanced, lasts]
      · have member : requestId ∈ waited.numScheduledTokens.keys := by
          by_contra absent
          rw [(Dict.get?_eq_none_iff _ _).mpr absent] at scheduled
          contradiction
        exact absurd (entries.tokens requestId member) idle
  | none =>
      right
      rw [scheduled, Option.getD_none] at advanced
      have same : lastingIn next.requests requestId =
          lastingIn waited.scheduler.requests requestId := by
        rw [advanced]
        simp
      refine ⟨rfl, ?_⟩
      rw [same]
      exact (settled requestId).imp_right fun preempted => preempted.2.2

end Scheduler

end Vllm.Core
