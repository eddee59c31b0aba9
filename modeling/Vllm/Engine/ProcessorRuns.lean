import Vllm.Engine.ProcessorAborts
import Vllm.Library.Transition

/-!
# Runs of the front end

Requests are added, fanned out child by child, processed and aborted in any order.  Between calls
the maps of the output processor agree.
-/

namespace Vllm.Engine

open Vllm.Core Vllm.Library RequestState OutputProcessor

variable {π : Payload} {ρ : Processing π} {κ : Type}

/-- A request that is being fanned out, with the index of the next child. -/
structure FanOut (ρ : Processing π) (κ : Type) where
  request : EngineCoreRequest ρ
  queue : Option κ
  next : Nat := 0

/-- The output processor with the loops of `add_request` that go on. -/
structure FrontEnd (ρ : Processing π) (κ : Type) where
  processor : OutputProcessor ρ κ := {}
  fanOuts : Dict String (FanOut ρ κ) := Dict.empty

/-- The calls of a front end.  A child is registered in one step: the loop awaits only after it. -/
inductive Call (ρ : Processing π) (κ : Type) where
  | addRequest (request : EngineCoreRequest ρ) (queue : Option κ)
  | fanOut (id : String) (request : EngineCoreRequest ρ) (queue : Option κ)
  | addChild (id : String)
  | processOutputs (outputs : List (EngineCoreOutput ρ))
  | abortRequests (ids : AbortIds)

namespace FrontEnd

/-- One round of the fan-out loop: `get_child_info` and `add_request` of the child. -/
def addChild (frontEnd : FrontEnd ρ κ) (id : String) : Except PyError (FrontEnd ρ κ) :=
  match frontEnd.fanOuts.get? id, frontEnd.processor.parents.get? id with
  | some fanOut, some parent =>
      if fanOut.next < fanOut.request.samplingParams.n then do
        let ((requestId, samplingParams), parent) := parent.getChildInfo fanOut.next
        let processor := { frontEnd.processor with
          parents := frontEnd.processor.parents.insert id parent }
        let processed ← processor.addRequest { fanOut.request with requestId, samplingParams }
          (some id) fanOut.next fanOut.queue
        return {
          processor := processed.processor
          fanOuts := frontEnd.fanOuts.insert id { fanOut with next := fanOut.next + 1 } }
      else return frontEnd
  | _, _ => return frontEnd

/-- One call. -/
def perform (empty : π.Pooling) (frontEnd : FrontEnd ρ κ) :
    Call ρ κ → Except PyError (FrontEnd ρ κ)
  | .addRequest request queue => do
      let processed ← frontEnd.processor.addRequest request none 0 queue
      return { frontEnd with processor := processed.processor }
  | .fanOut id request queue =>
      return {
        processor := { frontEnd.processor with
          parents := frontEnd.processor.parents.insert id
            (.new id request.externalReqId request.samplingParams) }
        fanOuts := frontEnd.fanOuts.insert id { request, queue } }
  | .addChild id => frontEnd.addChild id
  | .processOutputs outputs => do
      let processed ← frontEnd.processor.processOutputs outputs
      return { frontEnd with processor := processed.processor }
  | .abortRequests ids => do
      let processed ← abortRequests empty frontEnd.processor ids
      return { frontEnd with processor := processed.processor }

/-- What callers keep to, and of aborts the condition.  Assigned ids are new; only pooling requests
have no processors and get pooled outputs; children are not registered behind a request that was
aborted without a collector. -/
def Allowed (frontEnd : FrontEnd ρ κ) : Call ρ κ → Prop
  | .addRequest request _ => ∃ id, request.requestId = .request id ∧
      frontEnd.processor.parents.get? id = none ∧
      (request.processors = none →
        frontEnd.processor.streamInterval ≤ 1 ∧ request.samplingParams.streamInterval = none)
  | .fanOut id request _ => frontEnd.processor.parents.get? id = none ∧
      ¬ frontEnd.processor.Live (.request id) ∧ request.processors.isSome ∧
      request.resumable = false
  | .addChild id => ∀ parent, frontEnd.processor.parents.get? id = some parent →
      ∀ requestId ∈ parent.childRequests, frontEnd.processor.Live requestId
  | .processOutputs outputs => ∀ output ∈ outputs, ∀ state,
      frontEnd.processor.requestStates.get? output.requestId = some state →
        output.poolingOutput.isSome = state.processors.isNone
  | .abortRequests ids => frontEnd.processor.KeepsParents ids

/-- A front end and its calls. -/
def system (empty : π.Pooling) : System (FrontEnd ρ κ) where
  start frontEnd := ∃ streamInterval, frontEnd = { processor := { streamInterval } }
  step frontEnd next := ∃ call, frontEnd.Allowed call ∧ frontEnd.perform empty call = .ok next

/-- The loops of the front end know their parents, and have registered no child from the next on. -/
structure Fanning (frontEnd : FrontEnd ρ κ) : Prop where
  parent : ∀ id fanOut, frontEnd.fanOuts.get? id = some fanOut → ∃ parent,
    frontEnd.processor.parents.get? id = some parent ∧
    parent.samplingParams = fanOut.request.samplingParams ∧
    (parent.samplingParams.outputKind = .finalOnly →
      parent.outputAggregator.length = parent.samplingParams.n)
  children : ∀ id parent, frontEnd.processor.parents.get? id = some parent →
    ∃ fanOut, frontEnd.fanOuts.get? id = some fanOut
  request : ∀ id fanOut, frontEnd.fanOuts.get? id = some fanOut →
    fanOut.request.processors.isSome ∧ fanOut.request.resumable = false
  next : ∀ id fanOut, frontEnd.fanOuts.get? id = some fanOut →
    ∀ index, frontEnd.processor.Live (.child index id) → index < fanOut.next

end FrontEnd

namespace OutputProcessor

section Adding

variable {processor : OutputProcessor ρ κ}

/-- A new request is stored and indexed. -/
theorem Sound.insert (request : EngineCoreRequest ρ) {parents : Dict String (ParentRequest π)}
    {parentReq : Option String}
    {requestIndex : Nat} {queue : Option κ} {interval : Nat} (sound : Sound processor)
    (fresh : ¬ processor.Live request.requestId) (ready : Ready parents request.requestId
      (fromNewRequest request parentReq requestIndex queue interval))
    (others : ∀ requestId state, processor.requestStates.get? requestId = some state →
      state.Ready parents requestId)
    (typed : ∀ id parent, parents.get? id = some parent → parent.Typed id)
    (apart : ∀ id parent, parents.get? id = some parent →
      ¬ processor.Live (.request id) ∧ .request id ≠ request.requestId)
    (waits : ∀ id parent, parents.get? id = some parent →
      processor.parentRequests.contains id ∨ parentReq = some id →
        ∀ requestId ∈ parent.childRequests,
          processor.Live requestId ∨ requestId = request.requestId) :
    Sound { processor with
      requestStates := processor.requestStates.insert request.requestId
        (fromNewRequest request parentReq requestIndex queue interval)
      parentRequests := parentReq.elim processor.parentRequests fun parent =>
        processor.parentRequests.insert parent ()
      externalReqIds := processor.externalReqIds.insert request.externalReqId
        (processor.externalReqIds.getD request.externalReqId [] ++ [request.requestId])
      parents } := by
  have absent : processor.requestStates.get? request.requestId = none := by
    simpa [Live] using fresh
  have own : parentReq = request.requestId.parent? := ready.parentReq
  have registered : ∀ id, (parentReq.elim processor.parentRequests fun parent =>
      processor.parentRequests.insert parent ()).contains id ↔
        processor.parentRequests.contains id ∨ parentReq = some id := by
    intro id
    cases parentReq with
    | none => simp
    | some parent =>
        rw [Option.elim_some, Dict.contains, Dict.get?_insert]
        by_cases same : parent = id
        · simp [same]
        · simp [same, Dict.contains]
  have lives : ∀ other, Live { processor with
      requestStates := processor.requestStates.insert request.requestId
        (fromNewRequest request parentReq requestIndex queue interval)
      parentRequests := parentReq.elim processor.parentRequests fun parent =>
        processor.parentRequests.insert parent ()
      externalReqIds := processor.externalReqIds.insert request.externalReqId
        (processor.externalReqIds.getD request.externalReqId [] ++ [request.requestId])
      parents } other ↔ processor.Live other ∨ other = request.requestId := by
    intro other
    rw [Live, Dict.get?_insert]
    split
    · rename_i same
      simp [same]
    · rename_i differ
      simp [Live, Ne.symm differ]
  constructor
  · have unowned : processor.owner request.requestId = none := by
      rw [owner, absent]
      rfl
    apply (sound.index.add unowned).congr_owner
    intro other
    rw [owner, Dict.get?_insert]
    by_cases same : request.requestId = other
    · subst same
      rw [if_pos rfl, Function.update_self]
      rfl
    · rw [if_neg same, Function.update_of_ne (Ne.symm same)]
      rfl
  · intro other state found
    rw [Dict.get?_insert] at found
    split at found
    · rename_i same
      cases found
      exact same ▸ ready
    · exact others other state found
  · exact typed
  · intro id
    rw [registered, sound.registry]
    simp only [lives]
    constructor
    · rintro (⟨other, live, child⟩ | same)
      · exact ⟨other, Or.inl live, child⟩
      · exact ⟨request.requestId, Or.inr rfl, own ▸ same⟩
    · rintro ⟨other, live | rfl, child⟩
      · exact Or.inl ⟨other, live, child⟩
      · exact Or.inr (own.trans child)
  · intro id parent there found child member
    rw [lives]
    exact waits id parent found ((registered id).mp there) child member
  · intro id parent there
    rw [lives, not_or]
    exact apart id parent there

/-- The end of an input, or one more part of it, keeps the maps in step. -/
theorem updateStreamingRequestState_ok (processed : Processed ρ κ) {state : RequestState ρ κ}
    {requestId : RequestId} (sound : Sound processed.processor)
    (found : processed.processor.requestStates.get? requestId = some state)
    (single : requestId.parent? = none) (request : EngineCoreRequest ρ) :
    ∃ after, updateStreamingRequestState processed state request = .ok after ∧
      Sound after.processor ∧ Shrinks processed.processor after.processor := by
  have ready := sound.ready requestId state found
  have own := ready.own
  have orphan : state.parentReq = none := ready.parentReq.trans single
  have again : ∀ streamingInput inputChunkQueue, Sound { processed.processor with
        requestStates := processed.processor.requestStates.insert state.requestId
          { state with streamingInput, inputChunkQueue } } ∧
      Shrinks processed.processor { processed.processor with
        requestStates := processed.processor.requestStates.insert state.requestId
          { state with streamingInput, inputChunkQueue } } := by
    intro streamingInput inputChunkQueue
    subst own
    constructor
    · exact sound.store found (ready_streaming ready orphan _ _) rfl (.refl _)
    · exact Shrinks.store found rfl (Releases.refl _)
  unfold updateStreamingRequestState
  split
  · split
    · -- The request has finished already.
      have releases : Releases processed.processor.parents processed.processor.parents
          fun other => other = requestId := by
        constructor
        · exact fun _ absent => absent
        · intro id parent there
          refine ⟨parent, there, rfl, rfl, rfl, rfl, List.Sublist.refl _, fun other => ?_⟩
          constructor
          · intro member
            refine ⟨member, ?_⟩
            rintro rfl
            have child := (sound.typed id parent there).children _ member
            rw [single] at child
            cases child
          · exact And.left
      rcases sound.finish found own rfl rfl releases with
        ⟨after, finished, sound', states, heap, interval⟩
      rw [Dict.insert_get? found] at finished states
      simp only [finished, bind, Except.bind]
      refine ⟨_, rfl, sound', ?_⟩
      constructor
      · intro other otherState otherFound
        simp only [states, Dict.get?_erase] at otherFound
        split at otherFound
        · cases otherFound
        · exact ⟨otherState, otherFound, rfl⟩
      · refine ⟨fun other => other = requestId, ?_⟩
        change Releases _ after.parents _
        rw [heap]
        exact releases
      · exact interval
    · exact ⟨_, rfl, again false state.inputChunkQueue⟩
    · exact ⟨_, rfl, again state.streamingInput _⟩
  · split
    · exact ⟨_, rfl, again _ _⟩
    · exact ⟨_, rfl, again state.streamingInput _⟩

end Adding

end OutputProcessor

/-- What `get_child_info` keeps and adds. -/
theorem ParentRequest.getChildInfo_spec (parent : ParentRequest π) (index : Nat) :
    (parent.getChildInfo index).1.1 = .child index parent.requestId ∧
    (parent.getChildInfo index).2.requestId = parent.requestId ∧
    (parent.getChildInfo index).2.externalReqId = parent.externalReqId ∧
    (parent.getChildInfo index).2.samplingParams = parent.samplingParams ∧
    (parent.getChildInfo index).2.outputAggregator = parent.outputAggregator ∧
    (parent.getChildInfo index).2.childRequests =
      if .child index parent.requestId ∈ parent.childRequests then parent.childRequests
      else parent.childRequests ++ [.child index parent.requestId] := by
  rcases parent with ⟨id, name, params, children, outputs, cached⟩
  cases cached with
  | some params => exact ⟨rfl, rfl, rfl, rfl, rfl, rfl⟩
  | none =>
      rcases params with ⟨n, seed, kind, interval⟩
      cases seed <;> exact ⟨rfl, rfl, rfl, rfl, rfl, rfl⟩

namespace FrontEnd

variable {frontEnd : FrontEnd ρ κ}

/-- The loops go on after a call without new requests. -/
theorem Fanning.shrinks (fanning : Fanning frontEnd) {processor : OutputProcessor ρ κ}
    (shrinks : Shrinks frontEnd.processor processor) :
    Fanning { frontEnd with processor } := by
  rcases shrinks.parents with ⟨released, releases⟩
  constructor
  · intro id fanOut found
    rcases fanning.parent id fanOut found with ⟨parent, there, params, length⟩
    rcases releases.kept id parent there with ⟨left, there', -, -, params', length', -⟩
    refine ⟨left, there', params'.trans params, ?_⟩
    rw [params', length']
    exact length
  · intro id left there
    rcases releases.back there with ⟨parent, before⟩
    exact fanning.children id parent before
  · exact fanning.request
  · intro id fanOut found index live
    rcases live.state with ⟨state, stateFound⟩
    rcases shrinks.live _ state stateFound with ⟨known, before, -⟩
    exact fanning.next id fanOut found index (live_of_get? before)

variable {id : String}

variable {request : EngineCoreRequest ρ}

/-- A single request is added, or the input of one goes on. -/
theorem addRequest_ok (sound : Sound frontEnd.processor) (fanning : Fanning frontEnd)
    (own : request.requestId = .request id) (fresh : frontEnd.processor.parents.get? id = none)
    (pooling : request.processors = none →
      frontEnd.processor.streamInterval ≤ 1 ∧ request.samplingParams.streamInterval = none)
    (queue : Option κ) :
    ∃ after, frontEnd.processor.addRequest request none 0 queue = .ok after ∧
      Sound after.processor ∧ Fanning { frontEnd with processor := after.processor } := by
  have single : request.requestId.parent? = none := by
    rw [own]
    rfl
  unfold addRequest
  split
  · rename_i state found
    rcases updateStreamingRequestState_ok { processor := frontEnd.processor } sound found
      single request with ⟨after, ran, sound', shrinks⟩
    exact ⟨after, ran, sound', fanning.shrinks shrinks⟩
  · rename_i absent
    have dead : ¬ frontEnd.processor.Live request.requestId := by
      rw [Live, absent]
      simp
    refine ⟨_, rfl, ?_, ?_⟩
    · apply sound.insert request dead
      · constructor
        · rfl
        · exact single.symm
        · intro none_
          rcases pooling none_ with ⟨short, unset⟩
          constructor
          · change request.samplingParams.streamInterval.elim _ _ ≤ 1
            rw [unset]
            exact short
          · rfl
        · rintro parent ⟨⟩
      · exact sound.ready
      · exact sound.typed
      · intro other parent there
        refine ⟨sound.apart other parent there, ?_⟩
        rw [own]
        rintro same
        cases same
        rw [fresh] at there
        cases there
      · intro other parent there registered child member
        rcases registered with registered | none_
        · exact Or.inl (sound.waits other parent registered there child member)
        · cases none_
    · constructor
      · exact fanning.parent
      · exact fanning.children
      · exact fanning.request
      · intro other fanOut found index live
        apply fanning.next other fanOut found index
        rw [Live, Dict.get?_insert, own, if_neg (by rintro ⟨⟩)] at live
        exact live

/-- A new parent object waits for no child. -/
theorem fanOut_ok (sound : Sound frontEnd.processor) (fanning : Fanning frontEnd)
    (fresh : frontEnd.processor.parents.get? id = none)
    (apart : ¬ frontEnd.processor.Live (.request id)) (processors : request.processors.isSome)
    (whole : request.resumable = false) (queue : Option κ) :
    Sound { frontEnd.processor with
      parents := frontEnd.processor.parents.insert id
        (.new id request.externalReqId request.samplingParams) } ∧
    Fanning {
      processor := { frontEnd.processor with
        parents := frontEnd.processor.parents.insert id
          (.new id request.externalReqId request.samplingParams) }
      fanOuts := frontEnd.fanOuts.insert id { request, queue } } := by
  have differs : ∀ other parent, frontEnd.processor.parents.get? other = some parent →
      id ≠ other := by
    rintro other parent there rfl
    rw [fresh] at there
    cases there
  have kept : ∀ other parent, frontEnd.processor.parents.get? other = some parent →
      (frontEnd.processor.parents.insert id
        (.new id request.externalReqId request.samplingParams)).get? other = some parent := by
    intro other parent there
    rw [Dict.get?_insert_of_ne _ _ (differs other parent there)]
    exact there
  constructor
  · constructor
    · exact sound.index
    · intro requestId state found
      have ready := sound.ready requestId state found
      constructor
      · exact ready.own
      · exact ready.parentReq
      · exact ready.pooling
      · intro other child
        rcases ready.child other child with ⟨streaming, parent, there, rest⟩
        exact ⟨streaming, parent, kept other parent there, rest⟩
    · intro other parent there
      rw [Dict.get?_insert] at there
      split at there
      · rename_i same
        cases there
        constructor
        · exact same
        · rintro requestId ⟨⟩
        · exact List.nodup_nil
      · exact sound.typed other parent there
    · exact sound.registry
    · intro other parent registered there child member
      rw [Dict.get?_insert] at there
      split at there
      · cases there
        cases member
      · exact sound.waits other parent registered there child member
    · intro other parent there
      rw [Dict.get?_insert] at there
      split at there
      · rename_i same
        rw [← same]
        exact apart
      · exact sound.apart other parent there
  · constructor
    · intro other fanOut found
      rw [Dict.get?_insert] at found
      split at found
      · rename_i same
        cases found
        subst same
        refine ⟨_, Dict.get?_insert_self .., rfl, ?_⟩
        intro (final : request.samplingParams.outputKind = .finalOnly)
        change (if request.samplingParams.outputKind = .finalOnly then _ else _ : List _).length = _
        rw [if_pos final, List.length_replicate]
        rfl
      · rcases fanning.parent other fanOut found with ⟨parent, there, rest⟩
        exact ⟨parent, kept other parent there, rest⟩
    · intro other parent there
      rw [Dict.get?_insert]
      rw [Dict.get?_insert] at there
      split
      · exact ⟨_, rfl⟩
      · rename_i differ
        rw [if_neg differ] at there
        exact fanning.children other parent there
    · intro other fanOut found
      rw [Dict.get?_insert] at found
      split at found
      · cases found
        exact ⟨processors, whole⟩
      · exact fanning.request other fanOut found
    · intro other fanOut found index live
      rw [Dict.get?_insert] at found
      split at found
      · rename_i same
        rcases Live.state live with ⟨state, stateFound⟩
        have ready := sound.ready _ state stateFound
        rcases ready.child other ready.parentReq with ⟨-, parent, there, -⟩
        exact absurd same (differs other parent there)
      · exact fanning.next other fanOut found index live

/-- Registering a child that is new. -/
theorem addChild_eq {fanOut : FanOut ρ κ} {parent : ParentRequest π}
    (found : frontEnd.fanOuts.get? id = some fanOut)
    (there : frontEnd.processor.parents.get? id = some parent)
    (more : fanOut.next < fanOut.request.samplingParams.n) (own : parent.requestId = id)
    (dead : ¬ frontEnd.processor.Live (.child fanOut.next id)) :
    frontEnd.addChild id = .ok {
      processor := { frontEnd.processor with
        requestStates := frontEnd.processor.requestStates.insert (.child fanOut.next id)
          (fromNewRequest { fanOut.request with
              requestId := .child fanOut.next id
              samplingParams := (parent.getChildInfo fanOut.next).1.2 }
            (some id) fanOut.next fanOut.queue frontEnd.processor.streamInterval)
        parentRequests := frontEnd.processor.parentRequests.insert id ()
        externalReqIds := frontEnd.processor.externalReqIds.insert fanOut.request.externalReqId
          (frontEnd.processor.externalReqIds.getD fanOut.request.externalReqId [] ++
            [.child fanOut.next id])
        parents := frontEnd.processor.parents.insert id (parent.getChildInfo fanOut.next).2 }
      fanOuts := frontEnd.fanOuts.insert id { fanOut with next := fanOut.next + 1 } } := by
  have absent : frontEnd.processor.requestStates.get? (.child fanOut.next id) = none := by
    simpa [Live] using dead
  have childId := (parent.getChildInfo_spec fanOut.next).1
  rw [own] at childId
  unfold addChild
  simp only [found, there, if_pos more]
  rcases info : parent.getChildInfo fanOut.next with ⟨⟨requestId, childParams⟩, left⟩
  rw [info] at childId
  subst childId
  unfold addRequest
  simp only [absent, bind, Except.bind]
  rfl

/-- The next child is registered with its parent. -/
theorem addChild_ok (sound : Sound frontEnd.processor) (fanning : Fanning frontEnd)
    (waits : ∀ parent, frontEnd.processor.parents.get? id = some parent →
      ∀ requestId ∈ parent.childRequests, frontEnd.processor.Live requestId) :
    ∃ after, frontEnd.addChild id = .ok after ∧ Sound after.processor ∧ Fanning after := by
  unfold addChild
  split
  · rename_i fanOut parent found there
    split
    · rename_i more
      rcases fanning.parent id fanOut found with ⟨parent', there', params, length⟩
      rw [there] at there'
      cases there'
      have typed := sound.typed id parent there
      have dead : ¬ frontEnd.processor.Live (.child fanOut.next id) := fun live =>
        Nat.lt_irrefl _ (fanning.next id fanOut found _ live)
      have unlisted : .child fanOut.next id ∉ parent.childRequests := fun member =>
        dead (waits parent there _ member)
      rcases parent.getChildInfo_spec fanOut.next with
        ⟨childId, own, name, samplingParams, outputs, children⟩
      generalize parent.getChildInfo fanOut.next = info at *
      rcases info with ⟨⟨requestId, childParams⟩, left⟩
      rw [typed.own] at childId own children
      subst childId
      rw [if_neg unlisted] at children
      have absent : frontEnd.processor.requestStates.get? (.child fanOut.next id) = none := by
        simpa [Live] using dead
      have request := fanning.request id fanOut found
      have reads : ∀ other parent', (frontEnd.processor.parents.insert id left).get? other =
          some parent' → (id = other ∧ parent' = left) ∨
            (id ≠ other ∧ frontEnd.processor.parents.get? other = some parent') := by
        intro other parent' there'
        rw [Dict.get?_insert] at there'
        split at there'
        · rename_i same
          exact Or.inl ⟨same, (Option.some.inj there').symm⟩
        · rename_i differ
          exact Or.inr ⟨differ, there'⟩
      unfold addRequest
      simp only [absent, bind, Except.bind]
      refine ⟨_, rfl, ?_, ?_⟩
      · apply sound.insert { fanOut.request with
          requestId := .child fanOut.next id
          samplingParams := childParams } dead
        · constructor
          · rfl
          · rfl
          · intro none_
            change fanOut.request.processors = none at none_
            rw [none_] at request
            cases request.1
          · rintro other ⟨⟩
            refine ⟨request.2, left, Dict.get?_insert_self .., ?_, ?_⟩
            · rw [children]
              exact List.mem_append_right _ (List.mem_singleton_self _)
            · intro final
              rw [samplingParams] at final
              rw [outputs, length final, params]
              exact more
        · intro other state stateFound
          have ready := sound.ready other state stateFound
          constructor
          · exact ready.own
          · exact ready.parentReq
          · exact ready.pooling
          · intro name child
            rcases ready.child name child with ⟨streaming, parent', there', member, room⟩
            by_cases same : id = name
            · subst same
              rw [there] at there'
              cases there'
              refine ⟨streaming, left, Dict.get?_insert_self .., ?_, ?_⟩
              · rw [children]
                exact List.mem_append_left _ member
              · rw [samplingParams, outputs]
                exact room
            · refine ⟨streaming, parent', ?_, member, room⟩
              rw [Dict.get?_insert_of_ne _ _ same]
              exact there'
        · intro other parent' there'
          rcases reads other parent' there' with ⟨rfl, rfl⟩ | ⟨-, there'⟩
          · constructor
            · exact own
            · intro child member
              rw [children] at member
              rcases List.mem_append.mp member with member | member
              · exact typed.children child member
              · rw [List.mem_singleton.mp member]
                rfl
            · rw [children, List.nodup_append]
              refine ⟨typed.distinct, List.nodup_singleton _, ?_⟩
              rintro child member _ new rfl
              rw [List.mem_singleton] at new
              exact unlisted (new ▸ member)
          · exact sound.typed other parent' there'
        · intro other parent' there'
          refine ⟨?_, by rintro ⟨⟩⟩
          rcases reads other parent' there' with ⟨rfl, rfl⟩ | ⟨-, there'⟩
          · exact sound.apart id parent there
          · exact sound.apart other parent' there'
        · intro other parent' there' registered child member
          rcases reads other parent' there' with ⟨rfl, rfl⟩ | ⟨differ, there'⟩
          · rw [children] at member
            rcases List.mem_append.mp member with member | member
            · exact Or.inl (waits parent there child member)
            · exact Or.inr (List.mem_singleton.mp member)
          · rcases registered with registered | same
            · exact Or.inl (sound.waits other parent' registered there' child member)
            · exact absurd (Option.some.inj same) differ
      · constructor
        · intro other fanOut' found'
          rw [Dict.get?_insert] at found'
          split at found'
          · rename_i same
            cases found'
            subst same
            refine ⟨left, Dict.get?_insert_self .., samplingParams.trans params, ?_⟩
            rw [samplingParams, outputs]
            exact length
          · rename_i differ
            rcases fanning.parent other fanOut' found' with ⟨parent', there', rest⟩
            refine ⟨parent', ?_, rest⟩
            change (frontEnd.processor.parents.insert id left).get? other = _
            rw [Dict.get?_insert_of_ne _ _ differ]
            exact there'
        · intro other parent' there'
          rw [Dict.get?_insert]
          split
          · exact ⟨_, rfl⟩
          · rename_i differ
            rcases reads other parent' there' with ⟨same, -⟩ | ⟨-, there'⟩
            · exact absurd same differ
            · exact fanning.children other parent' there'
        · intro other fanOut' found'
          rw [Dict.get?_insert] at found'
          split at found'
          · cases found'
            exact request
          · exact fanning.request other fanOut' found'
        · intro other fanOut' found' index live
          rw [Live, Dict.get?_insert] at live
          rw [Dict.get?_insert] at found'
          split at found'
          · rename_i same
            cases found'
            subst same
            split at live
            · rename_i last
              cases last
              exact Nat.lt_succ_self _
            · exact Nat.lt_succ_of_lt (fanning.next id fanOut found index live)
          · rename_i differ
            split at live
            · rename_i last
              cases last
              exact absurd rfl differ
            · exact fanning.next other fanOut' found' index live
    · exact ⟨_, rfl, sound, fanning⟩
  · exact ⟨_, rfl, sound, fanning⟩

/-- Every allowed call returns, and keeps the maps in step. -/
theorem perform_ok (empty : π.Pooling) (sound : Sound frontEnd.processor)
    (fanning : Fanning frontEnd) {call : Call ρ κ} (allowed : frontEnd.Allowed call) :
    ∃ after, frontEnd.perform empty call = .ok after ∧ Sound after.processor ∧ Fanning after := by
  cases call with
  | addRequest request queue =>
      rcases allowed with ⟨id, own, fresh, pooling⟩
      rcases addRequest_ok sound fanning own fresh pooling queue with ⟨after, ran, sound', fanning'⟩
      refine ⟨_, ?_, sound', fanning'⟩
      rw [perform, ran]
      rfl
  | fanOut id request queue =>
      rcases allowed with ⟨fresh, apart, processors, whole⟩
      exact ⟨_, rfl, fanOut_ok sound fanning fresh apart processors whole queue⟩
  | addChild id => exact addChild_ok sound fanning allowed
  | processOutputs outputs =>
      rcases processOutputs_ok { processor := frontEnd.processor } sound allowed with
        ⟨after, ran, sound', shrinks⟩
      refine ⟨_, ?_, sound', fanning.shrinks shrinks⟩
      rw [perform, processOutputs, ran]
      rfl
  | abortRequests ids =>
      rcases abortRequests_ok sound empty allowed with ⟨after, ran, sound', shrinks⟩
      refine ⟨_, ?_, sound', fanning.shrinks shrinks⟩
      rw [perform, ran]
      rfl

theorem start_sound (streamInterval : Nat) :
    Sound ({ streamInterval } : OutputProcessor ρ κ) where
  index := by
    constructor
    · rintro name ⟨⟩
    · intro name
      exact List.nodup_nil
    · intro name requestId
      constructor
      · rintro ⟨⟩
      · rintro ⟨⟩
  ready := by rintro requestId state ⟨⟩
  typed := by rintro id parent ⟨⟩
  registry := by
    intro id
    constructor
    · rintro ⟨⟩
    · rintro ⟨requestId, ⟨⟩, -⟩
  waits := by rintro id parent ⟨⟩
  apart := by rintro id parent ⟨⟩

theorem start_fanning (streamInterval : Nat) :
    Fanning ({ processor := { streamInterval } } : FrontEnd ρ κ) where
  parent := by rintro id fanOut ⟨⟩
  children := by rintro id parent ⟨⟩
  request := by rintro id fanOut ⟨⟩
  next := by rintro id fanOut ⟨⟩

end FrontEnd

/-- The maps agree: each external id lists its requests, each once, and the registered parents are
those that still have a child. -/
structure OutputProcessor.Bookkept (processor : OutputProcessor ρ κ) : Prop where
  external : Indexes processor.externalReqIds processor.owner
  parents : ∀ id, processor.parentRequests.contains id ↔ ∃ requestId state,
    processor.requestStates.get? requestId = some state ∧ state.parentReq = some id

variable {processor : OutputProcessor ρ κ}

theorem OutputProcessor.Sound.bookkept (sound : Sound processor) : processor.Bookkept where
  external := sound.index
  parents := by
    intro id
    rw [sound.registry]
    constructor
    · rintro ⟨requestId, live, child⟩
      rcases live.state with ⟨state, found⟩
      exact ⟨requestId, state, found, (sound.ready requestId state found).parentReq.trans child⟩
    · rintro ⟨requestId, state, found, child⟩
      exact ⟨requestId, live_of_get? found,
        (sound.ready requestId state found).parentReq.symm.trans child⟩

/-- With the last request the maps are empty. -/
theorem OutputProcessor.Bookkept.empty (bookkept : processor.Bookkept)
    (none_ : ∀ requestId, ¬ processor.Live requestId) :
    (∀ name, processor.externalReqIds.get? name = none) ∧
      ∀ id, processor.parentRequests.get? id = none := by
  constructor
  · intro name
    cases listed : processor.externalReqIds.get? name with
    | none => rfl
    | some requestIds =>
        cases requestIds with
        | nil => exact absurd listed (bookkept.external.nonempty name)
        | cons requestId rest =>
            have owned := (bookkept.external.exact_ name requestId).mp (by
              rw [Dict.getD, listed]
              exact List.mem_cons_self)
            rcases Option.map_eq_some_iff.mp owned with ⟨state, found, -⟩
            exact absurd (live_of_get? found) (none_ requestId)
  · intro id
    cases registered : processor.parentRequests.get? id with
    | none => rfl
    | some _ =>
        rcases (bookkept.parents id).mp (by rw [Dict.contains, registered]; rfl) with
          ⟨requestId, state, found, -⟩
        exact absurd (live_of_get? found) (none_ requestId)

/-- In every run of allowed calls the maps agree between calls, and every allowed call returns. -/
theorem FrontEnd.reachable_bookkept (empty : π.Pooling) {frontEnd : FrontEnd ρ κ}
    (reached : Reachable (FrontEnd.system empty) frontEnd) :
    frontEnd.processor.Bookkept ∧
      ((∀ requestId, ¬ frontEnd.processor.Live requestId) →
        (∀ name, frontEnd.processor.externalReqIds.get? name = none) ∧
          ∀ id, frontEnd.processor.parentRequests.get? id = none) ∧
      ∀ call, frontEnd.Allowed call → ∃ after, frontEnd.perform empty call = .ok after := by
  have kept : Sound frontEnd.processor ∧ Fanning frontEnd := by
    apply Reachable.invariant _ _ reached
    · rintro _ ⟨streamInterval, rfl⟩
      exact ⟨start_sound streamInterval, start_fanning streamInterval⟩
    · rintro state next ⟨sound, fanning⟩ ⟨call, allowed, performed⟩
      rcases perform_ok empty sound fanning allowed with ⟨after, performed', kept⟩
      rw [performed] at performed'
      cases performed'
      exact kept
  refine ⟨kept.1.bookkept, kept.1.bookkept.empty, ?_⟩
  intro call allowed
  rcases perform_ok empty kept.1 kept.2 allowed with ⟨after, performed, -⟩
  exact ⟨after, performed⟩

/-! ## A parent that stays -/

/-- Outputs without content. -/
def blankPayload : Payload where
  Logprob := Unit
  Score := Unit
  Experts := Unit
  Mask := Unit
  Metrics := Unit
  Params := Unit
  Pooling := Unit
  Error := Unit

/-- A detokenizer that counts its tokens. -/
def blankProcessing : Processing blankPayload where
  Detokenizer := List Nat
  update tokens newTokenIds _ := (none, tokens ++ newTokenIds)
  getNextOutputText tokens _ _ := ([], tokens)
  outputTokenIds tokens := tokens
  EngineLogprobs := Unit
  LogprobsProcessor := Unit
  updateFromOutput processor _ := processor
  logprobs _ := none
  cumulativeLogprob _ := none
  concatenate _ := ()
  MaskChunk := Unit
  mergeMasks _ := ()

/-- A request for two completions. -/
def pairRequest : EngineCoreRequest blankProcessing where
  requestId := .request "r-1"
  externalReqId := "r"
  samplingParams := { n := 2 }
  processors := some ([], ())

/-- The request is fanned out and aborted by its external id. -/
def externalAbort : List (Call blankProcessing Unit) :=
  [.fanOut "r-1" pairRequest (some ()), .addChild "r-1", .addChild "r-1",
    .abortRequests (.external ["r"])]

/-- No request is left, and the parent is. -/
theorem externalAbort_leaks :
    ∃ frontEnd : FrontEnd blankProcessing Unit,
      externalAbort.foldlM (FrontEnd.perform ()) {} = .ok frontEnd ∧
        (∀ requestId, ¬ frontEnd.processor.Live requestId) ∧ ¬ frontEnd.processor.Bookkept := by
  have left : ((externalAbort.foldlM (FrontEnd.perform ())
      ({} : FrontEnd blankProcessing Unit)).map fun frontEnd =>
        (frontEnd.processor.requestStates.keys, frontEnd.processor.parentRequests.keys)) =
      .ok ([], ["r-1"]) := by
    decide +kernel
  cases ran : externalAbort.foldlM (FrontEnd.perform ()) ({} : FrontEnd blankProcessing Unit) with
  | error raised =>
      rw [ran] at left
      cases left
  | ok frontEnd =>
      rw [ran] at left
      simp only [Except.map, Except.ok.injEq, Prod.mk.injEq] at left
      have none_ : ∀ requestId, ¬ frontEnd.processor.Live requestId := by
        intro requestId live
        rcases live.state with ⟨state, found⟩
        have absent := (frontEnd.processor.requestStates.get?_eq_none_iff requestId).mpr (by
          rw [left.1]
          exact List.not_mem_nil)
        rw [absent] at found
        cases found
      refine ⟨frontEnd, rfl, none_, ?_⟩
      intro bookkept
      have absent := (frontEnd.processor.parentRequests.get?_eq_none_iff "r-1").mp
        ((bookkept.empty none_).2 "r-1")
      rw [left.2] at absent
      exact absent (List.mem_singleton_self _)

/-- The law at a request whose first child is registered. -/
theorem pairRequest_bookkept :
    ∃ frontEnd : FrontEnd blankProcessing Unit,
      (externalAbort.take 2).foldlM (FrontEnd.perform ()) {} = .ok frontEnd ∧
        frontEnd.processor.Bookkept := by
  refine ⟨_, rfl, ?_⟩
  apply And.left
  apply FrontEnd.reachable_bookkept ()
  have started : Reachable (FrontEnd.system ()) ({} : FrontEnd blankProcessing Unit) :=
    .start ⟨1, rfl⟩
  have opened := started.step ⟨.fanOut "r-1" pairRequest (some ()), ⟨rfl, by decide, rfl, rfl⟩, rfl⟩
  apply opened.step
  refine ⟨.addChild "r-1", ?_, rfl⟩
  intro parent found
  cases found
  rintro requestId ⟨⟩

end Vllm.Engine
