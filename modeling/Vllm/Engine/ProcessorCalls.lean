import Vllm.Engine.ReportedOutputs

/-!
# Calls of the output processor

Each call keeps the maps of the processor in step.  An abort does so where the parents of the
children that it takes are named or keep another child.
-/

namespace Vllm.Engine

open Vllm.Core Vllm.Library RequestState

variable {π : Payload} {ρ : Processing π} {κ : Type}

namespace OutputProcessor

/-- The state of a request that is served. -/
def Live (processor : OutputProcessor ρ κ) (requestId : RequestId) : Prop :=
  (processor.requestStates.get? requestId).isSome

instance (processor : OutputProcessor ρ κ) (requestId : RequestId) :
    Decidable (processor.Live requestId) :=
  inferInstanceAs (Decidable (_ = true))

variable {processor : OutputProcessor ρ κ}

variable {requestId : RequestId}

theorem live_of_get? {state : RequestState ρ κ}
    (found : processor.requestStates.get? requestId = some state) : processor.Live requestId := by
  rw [Live, found]
  rfl

theorem Live.state (live : processor.Live requestId) :
    ∃ state, processor.requestStates.get? requestId = some state :=
  Option.isSome_iff_exists.mp live

/-- The maps of a processor between calls. -/
structure Sound (processor : OutputProcessor ρ κ) : Prop where
  index : Indexes processor.externalReqIds processor.owner
  ready : ∀ requestId state, processor.requestStates.get? requestId = some state →
    state.Ready processor.parents requestId
  typed : ∀ id parent, processor.parents.get? id = some parent → parent.Typed id
  registry : ∀ id, processor.parentRequests.contains id ↔
    ∃ requestId, processor.Live requestId ∧ requestId.parent? = some id
  waits : ∀ id parent, processor.parentRequests.contains id →
    processor.parents.get? id = some parent → ∀ requestId ∈ parent.childRequests,
      processor.Live requestId
  apart : ∀ id parent, processor.parents.get? id = some parent → ¬ processor.Live (.request id)

/-- What a call without new requests does. -/
structure Shrinks (before after : OutputProcessor ρ κ) : Prop where
  live : ∀ requestId state, after.requestStates.get? requestId = some state →
    ∃ known, before.requestStates.get? requestId = some known ∧
      state.processors.isSome = known.processors.isSome
  parents : ∃ released, Releases before.parents after.parents released
  streamInterval : after.streamInterval = before.streamInterval

theorem Shrinks.refl (processor : OutputProcessor ρ κ) : Shrinks processor processor where
  live := fun _ state found => ⟨state, found, rfl⟩
  parents := ⟨_, .refl _⟩
  streamInterval := rfl

theorem Shrinks.trans {first second third : OutputProcessor ρ κ} (one : Shrinks first second)
    (two : Shrinks second third) : Shrinks first third where
  live := by
    intro requestId state found
    rcases two.live requestId state found with ⟨middle, found, kind⟩
    rcases one.live requestId middle found with ⟨known, found, kind'⟩
    exact ⟨known, found, kind.trans kind'⟩
  parents := by
    rcases one.parents with ⟨released, releases⟩
    rcases two.parents with ⟨released', releases'⟩
    exact ⟨_, releases.trans releases'⟩
  streamInterval := two.streamInterval.trans one.streamInterval

section Outputs

variable {processor : OutputProcessor ρ κ} {requestId : RequestId}
  {known state : RequestState ρ κ} {parents : Dict String (ParentRequest π)}

/-- A served request is stored again. -/
theorem Sound.store (sound : Sound processor)
    (found : processor.requestStates.get? requestId = some known)
    (ready : state.Ready parents requestId) (name : state.externalReqId = known.externalReqId)
    (releases : Releases processor.parents parents fun _ => False) :
    Sound { processor with
      requestStates := processor.requestStates.insert requestId state
      parents } := by
  have lives : ∀ other, Live { processor with
      requestStates := processor.requestStates.insert requestId state
      parents } other ↔ processor.Live other := by
    intro other
    rw [Live, Live, Dict.get?_insert]
    split
    · rename_i same
      rw [← same, found]
      simp
    · rfl
  constructor
  · apply sound.index.congr_owner
    intro other
    rw [owner, owner, Dict.get?_insert]
    split
    · rename_i same
      rw [← same, found, Option.map_some, Option.map_some, name]
    · rfl
  · intro other otherState otherFound
    rw [Dict.get?_insert] at otherFound
    split at otherFound
    · rename_i same
      cases otherFound
      exact same ▸ ready
    · exact (sound.ready other otherState otherFound).releases releases id
  · intro id parent there
    exact releases.typed sound.typed there
  · intro id
    rw [sound.registry]
    simp only [lives]
  · intro id left registered there child member
    rw [lives]
    rcases releases.back there with ⟨parent, before⟩
    rcases releases.kept id parent before with ⟨other, found', -, -, -, -, -, mem⟩
    rw [there] at found'
    cases found'
    exact sound.waits id parent registered before child ((mem child).mp member).1
  · intro id left there
    rw [lives]
    rcases releases.back there with ⟨parent, before⟩
    exact sound.apart id parent before

/-- The last child of a parent takes the parent with it. -/
theorem Sound.finish (sound : Sound processor)
    (found : processor.requestStates.get? requestId = some known)
    (own : state.requestId = requestId) (name : state.externalReqId = known.externalReqId)
    (parentReq : state.parentReq = known.parentReq)
    (releases : Releases processor.parents parents fun other => other = requestId) :
    ∃ after, finishRequest { processor with
        requestStates := processor.requestStates.insert requestId state
        parents } state = .ok after ∧ Sound after ∧
      after.requestStates = (processor.requestStates.insert requestId state).erase requestId ∧
      after.parents = parents ∧ after.streamInterval = processor.streamInterval := by
  have ready := sound.ready requestId known found
  have owned : processor.owner requestId = some state.externalReqId := by
    rw [owner, found, name]
    rfl
  rcases unlist_ok { processor with
      requestStates := (processor.requestStates.insert requestId state).erase requestId
      parents } sound.index owned with ⟨externalReqIds, unlisted, index⟩
  have gone : ∀ other,
      ((processor.requestStates.insert requestId state).erase requestId).get? other =
        if other = requestId then none else processor.requestStates.get? other := by
    intro other
    rw [Dict.get?_erase, Dict.get?_insert]
    by_cases same : requestId = other
    · simp [same]
    · simp [same, Ne.symm same]
  -- What is the same for each of the registries that may be left.
  have rest : ∀ parentRequests : Dict String Unit,
      (∀ id, parentRequests.contains id ↔ ∃ other, other ≠ requestId ∧ processor.Live other ∧
        other.parent? = some id) →
      Sound { processor with
        requestStates := (processor.requestStates.insert requestId state).erase requestId
        externalReqIds, parents, parentRequests } := by
    intro parentRequests registry
    have lives : ∀ other, Live { processor with
        requestStates := (processor.requestStates.insert requestId state).erase requestId
        externalReqIds, parents, parentRequests } other ↔
          other ≠ requestId ∧ processor.Live other := by
      intro other
      rw [Live, gone]
      split
      · rename_i same
        simp [same]
      · rename_i differ
        simp [differ, Live]
    constructor
    · apply index.congr_owner
      intro other
      rw [owner, gone]
      by_cases same : other = requestId
      · simp [same]
      · rw [Function.update_of_ne same, if_neg same]
        rfl
    · intro other otherState otherFound
      rw [gone] at otherFound
      split at otherFound
      · cases otherFound
      · rename_i differ
        exact (sound.ready other otherState otherFound).releases releases differ
    · intro id parent there
      exact releases.typed sound.typed there
    · intro id
      rw [registry]
      simp only [lives, and_assoc]
    · intro id left registered there child member
      rcases releases.back there with ⟨parent, before⟩
      rcases releases.kept id parent before with ⟨other, found', -, -, -, -, -, mem⟩
      rw [there] at found'
      cases found'
      rcases (mem child).mp member with ⟨member, differ⟩
      rcases (registry id).mp registered with ⟨other, _, live, child_⟩
      rw [lives]
      constructor
      · exact differ
      · exact sound.waits id parent ((sound.registry id).mpr ⟨other, live, child_⟩) before child
          member
    · intro id left there
      rcases releases.back there with ⟨parent, before⟩
      rw [lives]
      exact fun live => sound.apart id parent before live.2
  rw [finishRequest]
  simp only [own, unlisted, bind, Except.bind]
  cases parentOf : state.parentReq with
  | none =>
      refine ⟨_, rfl, rest processor.parentRequests ?_, rfl, rfl, rfl⟩
      intro id
      rw [sound.registry]
      have orphan : requestId.parent? = none := by
        rw [← ready.parentReq, ← parentReq, parentOf]
      constructor
      · rintro ⟨other, live, child⟩
        refine ⟨other, ?_, live, child⟩
        rintro rfl
        rw [orphan] at child
        cases child
      · rintro ⟨other, -, live, child⟩
        exact ⟨other, live, child⟩
  | some id =>
      have child : requestId.parent? = some id := by
        rw [← ready.parentReq, ← parentReq, parentOf]
      have knownParent : known.parentReq = some id := by rw [← parentReq, parentOf]
      rcases ready.child id knownParent with ⟨-, parent, before, member, -⟩
      rcases releases.kept id parent before with ⟨left, there, -, -, -, -, -, mem⟩
      have registered : processor.parentRequests.contains id :=
        (sound.registry id).mpr ⟨requestId, live_of_get? found, child⟩
      have others : left.childRequests = [] ↔
          ¬ ∃ other, other ≠ requestId ∧ processor.Live other ∧ other.parent? = some id := by
        rw [List.eq_nil_iff_forall_not_mem]
        constructor
        · rintro none_ ⟨other, differ, live, child⟩
          rcases live.state with ⟨otherState, otherFound⟩
          have otherReady := sound.ready other otherState otherFound
          rcases otherReady.child id (otherReady.parentReq.trans child) with
            ⟨-, parent', before', member', -⟩
          rw [before] at before'
          cases before'
          exact none_ other ((mem other).mpr ⟨member', differ⟩)
        · intro none_ other listed
          rcases (mem other).mp listed with ⟨listed, differ⟩
          exact none_ ⟨other, differ, sound.waits id parent registered before other listed,
            (sound.typed id parent before).children other listed⟩
      have empty : noChildren { processor with
          requestStates := (processor.requestStates.insert requestId state).erase requestId
          externalReqIds, parents } id = left.childRequests.isEmpty := by
        rw [noChildren, there]
        rfl
      simp only [empty]
      split
      · rename_i none_
        refine ⟨_, rfl, rest _ ?_, rfl, rfl, rfl⟩
        intro name
        rw [Dict.contains, Dict.get?_erase]
        by_cases same : id = name
        · subst same
          have gone_ := others.mp (List.isEmpty_iff.mp none_)
          simp [gone_]
        · rw [if_neg same, ← Dict.contains, sound.registry]
          constructor
          · rintro ⟨other, live, child'⟩
            refine ⟨other, ?_, live, child'⟩
            rintro rfl
            rw [child] at child'
            exact same (Option.some.inj child')
          · rintro ⟨other, -, live, child'⟩
            exact ⟨other, live, child'⟩
      · rename_i some_
        refine ⟨_, rfl, rest _ ?_, rfl, rfl, rfl⟩
        intro name
        by_cases same : id = name
        · subst same
          simp only [registered, true_iff]
          by_contra none_
          exact some_ (List.isEmpty_iff.mpr (others.mpr none_))
        · rw [sound.registry]
          constructor
          · rintro ⟨other, live, child'⟩
            refine ⟨other, ?_, live, child'⟩
            rintro rfl
            rw [child] at child'
            exact same (Option.some.inj child')
          · rintro ⟨other, -, live, child'⟩
            exact ⟨other, live, child'⟩

variable {released : RequestId → Prop}

/-- Storing a request again takes no request away. -/
theorem Shrinks.store (found : processor.requestStates.get? requestId = some known)
    (kind : state.processors.isSome = known.processors.isSome)
    (releases : Releases processor.parents parents released) :
    Shrinks processor { processor with
      requestStates := processor.requestStates.insert requestId state
      parents } where
  live := by
    intro other otherState otherFound
    rw [Dict.get?_insert] at otherFound
    split at otherFound
    · rename_i same
      cases otherFound
      exact ⟨known, same ▸ found, kind⟩
    · exact ⟨otherState, otherFound, rfl⟩
  parents := ⟨_, releases⟩
  streamInterval := rfl

/-- Releasing what no parent has changes nothing. -/
theorem releases_none {before after : Dict String (ParentRequest π)}
    (releases : Releases before after released)
    (none_ : ∀ id parent, before.get? id = some parent → ∀ other ∈ parent.childRequests,
      ¬ released other) : Releases before after fun _ => False where
  absent := releases.absent
  kept := by
    intro id parent found
    rcases releases.kept id parent found with ⟨left, there, own, name, params, length, sub, mem⟩
    refine ⟨left, there, own, name, params, length, sub, fun other => ?_⟩
    rw [mem, not_false_iff, and_true]
    exact ⟨And.left, fun member => ⟨member, none_ id parent found other member⟩⟩

end Outputs

section Processing

variable {processor : OutputProcessor ρ κ} {requestId : RequestId}
  {known state : RequestState ρ κ} {parents : Dict String (ParentRequest π)}

/-- A request that is no child may change the way its input goes on. -/
theorem ready_streaming (ready : state.Ready parents requestId) (single : state.parentReq = none)
    (streamingInput : Bool) (inputChunkQueue : Option (List StreamingUpdate)) :
    ({ state with streamingInput, inputChunkQueue } : RequestState ρ κ).Ready parents
      requestId where
  own := ready.own
  parentReq := ready.parentReq
  pooling := ready.pooling
  child := by
    intro id child
    rw [single] at child
    cases child

variable {output : EngineCoreOutput ρ}

/-- A request takes in an output of its kind. -/
theorem takeOutput_ok (state : RequestState ρ κ)
    (kind : output.poolingOutput.isSome = state.processors.isNone) :
    ∃ after finishReason stopReason,
      takeOutput state output = .ok (after, finishReason, stopReason) ∧ Same state after ∧
        (output.finishReason.isSome → finishReason.isSome) := by
  unfold takeOutput
  cases pooled : output.poolingOutput with
  | some data => exact ⟨_, _, _, rfl, ⟨rfl, rfl, rfl, rfl, rfl, rfl, rfl, rfl, rfl, rfl⟩, id⟩
  | none =>
      match both : state.processors with
      | none =>
          rw [pooled, both] at kind
          cases kind
      | some pair =>
          simp only
          split
          · exact ⟨_, _, _, rfl, ⟨rfl, rfl, rfl, rfl, rfl, by rw [both]; rfl, rfl, rfl, rfl, rfl⟩, id⟩
          · exact ⟨_, _, _, rfl, ⟨rfl, rfl, rfl, rfl, rfl, by rw [both]; rfl, rfl, rfl, rfl, rfl⟩, id⟩
          · exact ⟨_, _, _, rfl, ⟨rfl, rfl, rfl, rfl, rfl, by rw [both]; rfl, rfl, rfl, rfl, rfl⟩,
              fun _ => rfl⟩

/-- A finished output ends its request, or one part of its input. -/
theorem freeCompleted_ok {processed : Processed ρ κ} (sound : Sound processor)
    (found : processor.requestStates.get? requestId = some known) (same : Same known state)
    (releases : Releases processor.parents parents fun other => other = requestId)
    (stored : processed.processor = { processor with
      requestStates := processor.requestStates.insert requestId state
      parents }) (output : EngineCoreOutput ρ) :
    ∃ after, freeCompleted processed state output = .ok after ∧ Sound after.processor ∧
      Shrinks processor after.processor := by
  have ready := sound.ready requestId known found
  have own := same.requestId.trans ready.own
  subst own
  unfold freeCompleted
  rw [stored]
  split
  · rename_i streaming
    have single : state.parentReq = none := by
      rw [same.parentReq]
      cases parentReq : known.parentReq with
      | none => rfl
      | some id =>
          rw [same.streamingInput, (ready.child id parentReq).1] at streaming
          cases streaming
    have still : Releases processor.parents parents fun _ => False := by
      apply releases_none releases
      rintro id parent there _ member rfl
      have child := (sound.typed id parent there).children _ member
      rw [← ready.parentReq, ← same.parentReq, single] at child
      cases child
    have readyNow := (ready.same same).releases still id
    have again : ∀ streamingInput inputChunkQueue, Sound { processor with
          requestStates := (processor.requestStates.insert state.requestId state).insert state.requestId
            { state with streamingInput, inputChunkQueue }
          parents } ∧
        Shrinks processor { processor with
          requestStates := (processor.requestStates.insert state.requestId state).insert state.requestId
            { state with streamingInput, inputChunkQueue }
          parents } := by
      intro streamingInput inputChunkQueue
      have first := sound.store found readyNow same.externalReqId still
      have here : (processor.requestStates.insert state.requestId state).get? state.requestId =
        some state :=
        Dict.get?_insert_self ..
      constructor
      · exact first.store here (ready_streaming readyNow single _ _) rfl (.refl _)
      · have one := Shrinks.store found same.processors still
        exact one.trans (Shrinks.store here rfl (Releases.refl parents))
    split
    · rename_i update rest queue
      exact ⟨_, rfl, again (!update.final) (some rest)⟩
    · exact ⟨_, rfl, again state.streamingInput none⟩
  · rcases sound.finish found rfl same.externalReqId same.parentReq releases with
      ⟨after, finished, sound', states, heap, interval⟩
    simp only [finished, bind, Except.bind]
    refine ⟨_, rfl, sound', ?_⟩
    constructor
    · intro other otherState otherFound
      simp only [states, Dict.get?_erase, Dict.get?_insert] at otherFound
      split at otherFound
      · cases otherFound
      · exact ⟨otherState, otherFound, rfl⟩
    · exact ⟨_, heap ▸ releases⟩
    · exact interval

theorem isNone_congr {α : Type} {first second : Option α} (same : first.isSome = second.isSome) :
    first.isNone = second.isNone := by
  rw [← Option.not_isSome, ← Option.not_isSome, same]

/-- One round of `process_outputs`. -/
theorem processOutput_ok (processed : Processed ρ κ) (sound : Sound processed.processor)
    (kind : ∀ state, processed.processor.requestStates.get? output.requestId = some state →
      output.poolingOutput.isSome = state.processors.isNone) :
    ∃ after, processOutput processed output = .ok after ∧ Sound after.processor ∧
      Shrinks processed.processor after.processor := by
  unfold processOutput
  split
  · exact ⟨_, rfl, sound, .refl _⟩
  · rename_i known found
    have ready := sound.ready output.requestId known found
    rcases takeOutput_ok known (kind known found) with
      ⟨state, finishReason, stopReason, taken, same, _⟩
    have kind' : output.poolingOutput.isSome = state.processors.isNone := by
      rw [kind known found, isNone_congr same.processors]
    rcases makeRequestOutput_ok (ready.same same) sound.typed output.newTokenIds kind' finishReason
      stopReason output.kvTransferParams output.ecTransferParams with
      ⟨report, left, parents, made, same', releases⟩
    simp only [taken, made, bind, Except.bind]
    have whole := same.trans same'
    have own := whole.requestId.trans ready.own
    split
    · rename_i finished
      have releases' : Releases processed.processor.parents parents
          fun other => other = output.requestId := releases.congr fun other => by simp [finished]
      apply freeCompleted_ok sound found whole releases'
      rw [own]
    · rename_i open_
      have still : Releases processed.processor.parents parents fun _ => False :=
        releases.congr fun other => by simp [open_]
      refine ⟨_, rfl, ?_, ?_⟩
      · rw [own]
        exact sound.store found ((ready.same whole).releases still id) whole.externalReqId still
      · rw [own]
        exact Shrinks.store found whole.processors still

/-- `process_outputs` keeps the maps in step. -/
theorem processOutputs_ok (processed : Processed ρ κ) (sound : Sound processed.processor)
    {outputs : List (EngineCoreOutput ρ)} (kinds : ∀ output ∈ outputs, ∀ state,
      processed.processor.requestStates.get? output.requestId = some state →
        output.poolingOutput.isSome = state.processors.isNone) :
    ∃ after, outputs.foldlM processOutput processed = .ok after ∧ Sound after.processor ∧
      Shrinks processed.processor after.processor := by
  induction outputs generalizing processed with
  | nil => exact ⟨_, rfl, sound, .refl _⟩
  | cons output rest inductionHypothesis =>
      rcases processOutput_ok processed sound (kinds output List.mem_cons_self) with
        ⟨next, first, sound', shrinks⟩
      rcases inductionHypothesis next sound' (by
        intro other member state found
        rcases shrinks.live other.requestId state found with ⟨known, before, kind⟩
        rw [kinds other (List.mem_cons_of_mem _ member) known before, isNone_congr kind]) with
        ⟨after, ran, sound'', shrinks'⟩
      refine ⟨after, ?_, sound'', shrinks.trans shrinks'⟩
      rw [List.foldlM_cons]
      simp only [bind, Except.bind, first]
      exact ran

end Processing

end OutputProcessor

end Vllm.Engine
