import Vllm.Engine.ProcessorIndex

/-!
# Making the outputs of a request

An output that finishes a child takes it from the children of its parent; nothing else of the
parents changes but the aggregated completions.
-/

namespace Vllm.Engine

open Vllm.Core Vllm.Library

variable {π : Payload} {ρ : Processing π} {κ : Type}

/-- The parent of a child. -/
def RequestId.parent? : RequestId → Option String
  | .request _ => none
  | .child _ parent => some parent

/-- A parent object whose children are its own. -/
structure ParentRequest.Typed (parent : ParentRequest π) (id : String) : Prop where
  own : parent.requestId = id
  children : ∀ requestId ∈ parent.childRequests, requestId.parent? = some id
  distinct : parent.childRequests.Nodup

/-- The parent objects after some children have been taken from them. -/
structure Releases (before after : Dict String (ParentRequest π)) (released : RequestId → Prop) :
    Prop where
  absent : ∀ id, before.get? id = none → after.get? id = none
  kept : ∀ id parent, before.get? id = some parent → ∃ left, after.get? id = some left ∧
    left.requestId = parent.requestId ∧ left.externalReqId = parent.externalReqId ∧
    left.samplingParams = parent.samplingParams ∧
    left.outputAggregator.length = parent.outputAggregator.length ∧
    left.childRequests.Sublist parent.childRequests ∧
    ∀ requestId, requestId ∈ left.childRequests ↔
      requestId ∈ parent.childRequests ∧ ¬ released requestId

namespace Releases

variable {before middle after : Dict String (ParentRequest π)} {first second : RequestId → Prop}

theorem refl (before : Dict String (ParentRequest π)) : Releases before before fun _ => False where
  absent := fun _ absent => absent
  kept := fun _ parent found =>
    ⟨parent, found, rfl, rfl, rfl, rfl, List.Sublist.refl _, fun _ => by simp⟩

theorem trans (one : Releases before middle first) (two : Releases middle after second) :
    Releases before after fun requestId => first requestId ∨ second requestId where
  absent := fun id absent => two.absent id (one.absent id absent)
  kept := by
    intro id parent found
    rcases one.kept id parent found with ⟨left, found, own, name, params, length, sub, mem⟩
    rcases two.kept id left found with ⟨rest, found, own', name', params', length', sub', mem'⟩
    refine ⟨rest, found, own'.trans own, name'.trans name, params'.trans params,
      length'.trans length, sub'.trans sub, ?_⟩
    intro requestId
    rw [mem', mem, not_or, and_assoc]

theorem congr (releases : Releases before after first)
    (same : ∀ requestId, first requestId ↔ second requestId) : Releases before after second where
  absent := releases.absent
  kept := by
    intro id parent found
    rcases releases.kept id parent found with ⟨left, found, own, name, params, length, sub, mem⟩
    exact ⟨left, found, own, name, params, length, sub, fun requestId => by rw [mem, same]⟩

variable {left : ParentRequest π}

variable {id : String}

theorem back (releases : Releases before after first) (found : after.get? id = some left) :
    ∃ parent, before.get? id = some parent := by
  cases known : before.get? id with
  | none =>
      rw [releases.absent id known] at found
      cases found
  | some parent => exact ⟨parent, rfl⟩

theorem typed (releases : Releases before after first)
    (typed : ∀ id parent, before.get? id = some parent → parent.Typed id)
    (found : after.get? id = some left) : left.Typed id := by
  rcases releases.back found with ⟨parent, known⟩
  rcases releases.kept id parent known with ⟨other, found', own, -, -, -, sub, mem⟩
  rw [found] at found'
  cases found'
  have typed := typed id parent known
  constructor
  · exact own.trans typed.own
  · intro requestId member
    exact typed.children requestId ((mem requestId).mp member).1
  · exact typed.distinct.sublist sub

end Releases

/-- `get_outputs` takes a finished child from the set of children. -/
theorem ParentRequest.getOutputs_ok {parent : ParentRequest π} (requestId : RequestId)
    {completion : CompletionOutput π} (room : parent.samplingParams.outputKind = .finalOnly →
      completion.index < parent.outputAggregator.length) :
    ∃ outputs left, parent.getOutputs requestId completion =
        .ok ((outputs, left.childRequests.isEmpty), left) ∧
      left.requestId = parent.requestId ∧ left.externalReqId = parent.externalReqId ∧
      left.samplingParams = parent.samplingParams ∧
      left.outputAggregator.length = parent.outputAggregator.length ∧
      left.childRequests = if completion.finished then
        parent.childRequests.filter (· ≠ requestId) else parent.childRequests := by
  unfold getOutputs
  by_cases final : parent.samplingParams.outputKind = .finalOnly
  · have stored : aggregate parent.outputAggregator completion =
        .ok (parent.outputAggregator.set completion.index (some completion)) := by
      rw [aggregate, if_pos (room final)]
    simp only [final, ne_eq, not_true_eq_false, if_false, stored, bind, Except.bind]
    exact ⟨_, { parent with
      childRequests := if completion.finished then
        parent.childRequests.filter (· ≠ requestId) else parent.childRequests
      outputAggregator := parent.outputAggregator.set completion.index (some completion) },
      rfl, rfl, rfl, rfl, List.length_set, rfl⟩
  · simp only [final, ne_eq, not_false_eq_true, if_true]
    exact ⟨_, { parent with
      childRequests := if completion.finished then
        parent.childRequests.filter (· ≠ requestId) else parent.childRequests },
      rfl, rfl, rfl, rfl, rfl, rfl⟩

namespace RequestState

/-- Two states of one request: what identifies it and how its input goes on are the same. -/
structure Same (before after : RequestState ρ κ) : Prop where
  requestId : after.requestId = before.requestId
  externalReqId : after.externalReqId = before.externalReqId
  parentReq : after.parentReq = before.parentReq
  requestIndex : after.requestIndex = before.requestIndex
  outputKind : after.outputKind = before.outputKind
  processors : after.processors.isSome = before.processors.isSome
  queue : after.queue = before.queue
  streamInterval : after.streamInterval = before.streamInterval
  streamingInput : after.streamingInput = before.streamingInput
  inputChunkQueue : after.inputChunkQueue = before.inputChunkQueue

theorem Same.refl (state : RequestState ρ κ) : Same state state :=
  ⟨rfl, rfl, rfl, rfl, rfl, rfl, rfl, rfl, rfl, rfl⟩

theorem Same.trans {first second third : RequestState ρ κ} (one : Same first second)
    (two : Same second third) : Same first third :=
  ⟨two.1.trans one.1, two.2.trans one.2, two.3.trans one.3, two.4.trans one.4, two.5.trans one.5,
    two.6.trans one.6, two.7.trans one.7, two.8.trans one.8, two.9.trans one.9,
    two.10.trans one.10⟩

/-- A request as the processor keeps it: pooling requests have no stream interval and no parent,
children are known to their parent object and have no streamed input. -/
structure Ready (parents : Dict String (ParentRequest π)) (requestId : RequestId)
    (state : RequestState ρ κ) : Prop where
  own : state.requestId = requestId
  parentReq : state.parentReq = requestId.parent?
  pooling : state.processors = none → state.streamInterval ≤ 1 ∧ state.parentReq = none
  child : ∀ id, state.parentReq = some id → state.streamingInput = false ∧
    ∃ parent, parents.get? id = some parent ∧ requestId ∈ parent.childRequests ∧
      (parent.samplingParams.outputKind = .finalOnly →
        state.requestIndex < parent.outputAggregator.length)

variable {parents : Dict String (ParentRequest π)} {requestId : RequestId}

theorem Ready.same {before after : RequestState ρ κ} (ready : Ready parents requestId before)
    (same : Same before after) : Ready parents requestId after where
  own := same.requestId.trans ready.own
  parentReq := same.parentReq.trans ready.parentReq
  pooling := by
    intro pooling
    have processors := same.processors
    rw [pooling] at processors
    rw [same.streamInterval, same.parentReq]
    exact ready.pooling
      (Option.isSome_eq_false_iff.mp processors.symm |> Option.isNone_iff_eq_none.mp)
  child := by
    rw [same.parentReq, same.streamingInput, same.requestIndex]
    exact ready.child

variable {state : RequestState ρ κ}

/-- A request that is not among the released ones stays ready. -/
theorem Ready.releases {before after : Dict String (ParentRequest π)} {released : RequestId → Prop}
    (ready : Ready before requestId state) (releases : Releases before after released)
    (stays : ¬ released requestId) :
    Ready after requestId state where
  own := ready.own
  parentReq := ready.parentReq
  pooling := ready.pooling
  child := by
    intro id own
    rcases ready.child id own with ⟨streaming, parent, found, member, room⟩
    rcases releases.kept id parent found with ⟨left, found, -, -, params, length, -, mem⟩
    refine ⟨streaming, left, found, (mem requestId).mpr ⟨member, stays⟩, ?_⟩
    rw [params, length]
    exact room

theorem newCompletionOutput_finished (state : RequestState ρ κ) (detokenizer : ρ.Detokenizer)
    (logprobsProcessor : ρ.LogprobsProcessor) (tokenIds : List Nat)
    (finishReason : Option FinishReason) (stopReason : Option (Int ⊕ String)) :
    (state.newCompletionOutput detokenizer logprobsProcessor tokenIds finishReason
      stopReason).1.finished = finishReason.isSome := by
  cases finishReason <;> rfl

theorem intervalTokens_ok (state : RequestState ρ κ) (newTokenIds : List Nat) (finished : Bool)
    (pooling : state.processors = none → state.streamInterval ≤ 1) :
    (∃ tokenIds after, state.intervalTokens newTokenIds finished = .ok (some (tokenIds, after)) ∧
      Same state after ∧ after.processors = state.processors) ∨
    finished = false ∧ state.intervalTokens newTokenIds finished = .ok none := by
  unfold intervalTokens
  split
  · rename_i long
    match known : state.processors with
    | none => exact absurd (pooling known) (Nat.not_le.mpr long)
    | some pair =>
        simp only
        split
        · rename_i waits
          right
          constructor
          · cases finished
            · rfl
            · simp at waits
          · rfl
        · left
          split
          · exact ⟨_, _, rfl, ⟨rfl, rfl, rfl, rfl, rfl, by rw [known], rfl, rfl, rfl, rfl⟩, rfl⟩
          · exact ⟨_, _, rfl, Same.refl state, known⟩
  · left
    exact ⟨_, _, rfl, Same.refl state, rfl⟩

/-- An output is made of every ready request.  One that finishes a child releases it. -/
theorem makeRequestOutput_ok (ready : Ready parents requestId state)
    (typed : ∀ id parent, parents.get? id = some parent → parent.Typed id) (newTokenIds : List Nat)
    {poolingOutput : Option π.Pooling} (kind : poolingOutput.isSome = state.processors.isNone)
    (finishReason : Option FinishReason) (stopReason : Option (Int ⊕ String))
    (kvTransferParams ecTransferParams : Option π.Params) :
    ∃ report after left,
      state.makeRequestOutput parents newTokenIds poolingOutput finishReason stopReason
        kvTransferParams ecTransferParams = .ok (report, after, left) ∧ Same state after ∧
      Releases parents left fun other => finishReason.isSome ∧ other = requestId := by
  have keeps : finishReason = none → Releases parents parents fun other =>
      finishReason.isSome ∧ other = requestId := by
    rintro rfl
    exact (Releases.refl parents).congr (by simp)
  have childless : state.parentReq = none → Releases parents parents fun other =>
      finishReason.isSome ∧ other = requestId := by
    intro single
    constructor
    · exact fun _ absent => absent
    · intro id parent found
      refine ⟨parent, found, rfl, rfl, rfl, rfl, List.Sublist.refl _, ?_⟩
      intro other
      constructor
      · intro member
        refine ⟨member, ?_⟩
        rintro ⟨-, rfl⟩
        have child := (typed id parent found).children other member
        rw [← ready.parentReq, single] at child
        cases child
      · exact And.left
  unfold makeRequestOutput
  dsimp only
  split
  · rename_i early
    have open_ : finishReason = none := by
      cases finishReason
      · rfl
      · simp at early
    exact ⟨_, _, _, rfl, Same.refl state, keeps open_⟩
  · rcases state.intervalTokens_ok newTokenIds finishReason.isSome
      (fun pooling => (ready.pooling pooling).1) with
      ⟨tokenIds, next, sent, same, processors⟩ | ⟨open_, sent⟩
    · simp only [sent, bind, Except.bind]
      cases pooled : poolingOutput with
      | some data =>
          rw [pooled] at kind
          have pooling := Option.isNone_iff_eq_none.mp kind.symm
          exact ⟨_, _, _, rfl, same, childless (ready.pooling pooling).2⟩
      | none =>
          cases both : next.processors with
          | none =>
              rw [pooled, ← processors, both] at kind
              cases kind
          | some pair =>
              have changed : Same state { next with
                  processors := some ((next.newCompletionOutput pair.1 pair.2 tokenIds
                    finishReason stopReason).2, pair.2) } :=
                ⟨same.1, same.2, same.3, same.4, same.5, by rw [← processors, both]; rfl, same.7,
                  same.8, same.9, same.10⟩
              cases parentReq : state.parentReq with
              | none =>
                  have orphan : next.parentReq = none := same.parentReq.trans parentReq
                  rw [orphan] at changed
                  simp only [orphan, Option.bind_none]
                  exact ⟨_, _, _, rfl, changed, childless parentReq⟩
              | some id =>
                  rcases ready.child id parentReq with ⟨-, parent, found, member, room⟩
                  have own : next.requestId = requestId := same.requestId.trans ready.own
                  have room' : parent.samplingParams.outputKind = .finalOnly →
                      (next.newCompletionOutput pair.1 pair.2 tokenIds finishReason
                        stopReason).1.index < parent.outputAggregator.length := by
                    intro final
                    change next.requestIndex < _
                    rw [same.requestIndex]
                    exact room final
                  rcases ParentRequest.getOutputs_ok next.requestId room' with
                    ⟨outputs, left, got, ownId, name, params, length, children⟩
                  have ofParent : next.parentReq = some id := same.parentReq.trans parentReq
                  rw [ofParent] at changed
                  simp only [ofParent, Option.bind_some, found, Option.map_some, got]
                  refine ⟨_, _, _, rfl, changed, ?_, ?_⟩
                  · intro other absent
                    rw [Dict.get?_insert]
                    split
                    · rename_i same_
                      rw [← same_, found] at absent
                      cases absent
                    · exact absent
                  · intro other known knownFound
                    rw [newCompletionOutput_finished, own] at children
                    by_cases mine : id = other
                    · subst mine
                      rw [found] at knownFound
                      cases knownFound
                      refine ⟨left, Dict.get?_insert_self .., ownId, name, params, length, ?_, ?_⟩
                      · rw [children]
                        split
                        · exact List.filter_sublist
                        · exact List.Sublist.refl _
                      · intro listed
                        rw [children]
                        cases finishReason <;> simp
                    · refine ⟨known, ?_, rfl, rfl, rfl, rfl, List.Sublist.refl _, ?_⟩
                      · rw [Dict.get?_insert_of_ne _ _ mine]
                        exact knownFound
                      · intro listed
                        constructor
                        · intro there
                          refine ⟨there, ?_⟩
                          rintro ⟨-, rfl⟩
                          have parentOf := (typed other known knownFound).children _ there
                          rw [← ready.parentReq, parentReq] at parentOf
                          exact mine (Option.some.inj parentOf)
                        · exact And.left
    · simp only [sent, bind, Except.bind]
      have none_ : finishReason = none := by
        cases finishReason
        · rfl
        · cases open_
      exact ⟨_, _, _, rfl, Same.refl state, keeps none_⟩

end RequestState

end Vllm.Engine
