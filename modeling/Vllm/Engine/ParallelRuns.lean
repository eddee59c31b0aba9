import Vllm.Engine.ProcessorRuns

/-!
# Completions of a parallel request

The children of a request are registered one by one while outputs of those that are registered come
in.  The parent counts on the children it knows: it is reported finished when none of these is left.
-/

namespace Vllm.Engine

open Vllm.Core Vllm.Library RequestState OutputProcessor

variable {π : Payload} {ρ : Processing π} {κ : Type}

namespace Report

/-- Whether a report ends its request. -/
def finished : Report π → Bool
  | completions _ _ finished _ _ => finished
  | pooling _ _ finished => finished
  | streamFinished => true

/-- The completions of a report. -/
def outputs : Report π → List (Option (CompletionOutput π))
  | completions _ outputs _ _ _ => outputs
  | _ => []

end Report

/-- A front end with what it has reported. -/
structure Sampling (ρ : Processing π) (κ : Type) where
  frontEnd : FrontEnd ρ κ
  reports : List (Option κ × Report π) := []

/-- The fan-out loop registers a child, or an output of the engine comes in.  A batch of outputs is
processed output by output. -/
inductive SamplingEvent (ρ : Processing π) where
  | register
  | output (output : EngineCoreOutput ρ)

namespace Sampling

/-- A request whose fan-out begins. -/
def start (streamInterval : Nat) (id : String) (request : EngineCoreRequest ρ) (queue : Option κ) :
    Sampling ρ κ where
  frontEnd :=
    { processor :=
        { streamInterval
          parents := Dict.empty.insert id (.new id request.externalReqId request.samplingParams) }
      fanOuts := Dict.empty.insert id { request, queue } }

def perform (id : String) (sampling : Sampling ρ κ) :
    SamplingEvent ρ → Except PyError (Sampling ρ κ)
  | .register => do
      let frontEnd ← sampling.frontEnd.addChild id
      return { sampling with frontEnd }
  | .output output => do
      let processed ← processOutput
        { processor := sampling.frontEnd.processor, reports := sampling.reports } output
      return {
        frontEnd := { sampling.frontEnd with processor := processed.processor }
        reports := processed.reports }

/-- The number of children that are registered. -/
def registered (sampling : Sampling ρ κ) (id : String) : Nat :=
  (sampling.frontEnd.fanOuts.get? id).elim 0 FanOut.next

/-- A child has been registered and has finished. -/
def Done (sampling : Sampling ρ κ) (id : String) (index : Nat) : Prop :=
  index < sampling.registered id ∧ ¬ sampling.frontEnd.processor.Live (.child index id)

/-- All children have finished. -/
def AllDone (sampling : Sampling ρ κ) (id : String) (n : Nat) : Prop :=
  ∀ index < n, sampling.Done id index

/-- The number of final completions that have been reported for an index. -/
def finals (reports : List (Option κ × Report π)) (index : Nat) : Nat :=
  (reports.flatMap fun report => report.2.outputs).countP fun completion =>
    completion.any fun completion => completion.index = index && completion.finished

/-- An output finishes its request. -/
def Ends (processor : OutputProcessor ρ κ) (output : EngineCoreOutput ρ) : Prop :=
  ∃ state after finishReason stopReason,
    processor.requestStates.get? output.requestId = some state ∧
      takeOutput state output = .ok (after, some finishReason, stopReason)

/-- Outputs are no pooled ones.  As long as there are children to register, one that is registered
stays unfinished. -/
def Spaced (sampling : Sampling ρ κ) (id : String) (n : Nat) : SamplingEvent ρ → Prop
  | .register => True
  | .output output => output.poolingOutput = none ∧
      (Ends sampling.frontEnd.processor output → sampling.registered id = n ∨
        ∃ other, other ≠ output.requestId ∧ sampling.frontEnd.processor.Live other)

/-- The parent is reported finished once, after all its children.  In the final mode this report
holds a final completion of each child; in the streaming modes each final completion is reported
once. -/
structure Delivered (sampling : Sampling ρ κ) (id : String) (n : Nat)
    (outputKind : RequestOutputKind) : Prop where
  once : sampling.AllDone id n → (sampling.reports.countP fun report => report.2.finished) = 1
  notBefore : ¬ sampling.AllDone id n → ∀ report ∈ sampling.reports, report.2.finished = false
  whole : outputKind = .finalOnly → ∀ report ∈ sampling.reports,
    report.2.finished = true ∧ report.2.outputs.length = n ∧ ∀ index < n, ∃ completion,
      report.2.outputs[index]? = some (some completion) ∧ completion.index = index ∧
        completion.finished = true
  streamed : outputKind ≠ .finalOnly → ∀ index,
    (sampling.Done id index → finals sampling.reports index = 1) ∧
      (¬ sampling.Done id index → finals sampling.reports index = 0)

/-- A request that is fanned out, and its events. -/
def system (streamInterval : Nat) (id : String) (request : EngineCoreRequest ρ)
    (queue : Option κ) : System (Sampling ρ κ) where
  start sampling := sampling = start streamInterval id request queue
  step sampling next := ∃ event, sampling.Spaced id request.samplingParams.n event ∧
    sampling.perform id event = .ok next

end Sampling

/-! ## The outputs of a child -/

namespace ParentRequest

variable {parent : ParentRequest π} {requestId : RequestId} {completion : CompletionOutput π}

/-- The children that are left after a completion. -/
def childrenAfter (parent : ParentRequest π) (requestId : RequestId)
    (completion : CompletionOutput π) : List RequestId :=
  if completion.finished then parent.childRequests.filter (· ≠ requestId) else parent.childRequests

/-- A streamed completion of a known child is handed out. -/
theorem getOutputs_streamed (streaming : parent.samplingParams.outputKind ≠ .finalOnly)
    (known : requestId ∈ parent.childRequests) :
    parent.getOutputs requestId completion =
      .ok (([some completion], (parent.childrenAfter requestId completion).isEmpty),
        { parent with childRequests := parent.childrenAfter requestId completion }) := by
  unfold getOutputs childrenAfter
  simp [streaming, known]
  rfl

/-- A final completion is stored, and with the last one all are handed out. -/
theorem getOutputs_final (final : parent.samplingParams.outputKind = .finalOnly)
    (room : completion.index < parent.outputAggregator.length) :
    parent.getOutputs requestId completion =
      .ok ((if (parent.childrenAfter requestId completion).isEmpty then
            parent.outputAggregator.set completion.index (some completion)
          else [], (parent.childrenAfter requestId completion).isEmpty),
        { parent with
          childRequests := parent.childrenAfter requestId completion
          outputAggregator :=
            parent.outputAggregator.set completion.index (some completion) }) := by
  unfold getOutputs childrenAfter aggregate
  simp only [final, ne_eq, not_true_eq_false, if_false, if_pos room, bind, Except.bind]
  rfl

end ParentRequest

variable {parents : Dict String (ParentRequest π)}

/-- A child either says nothing yet or hands a completion to its parent. -/
theorem RequestState.makeRequestOutput_child {id : String} {parent : ParentRequest π}
    {state : RequestState ρ κ} (processors : state.processors.isSome)
    (child : state.parentReq = some id) (there : parents.get? id = some parent)
    (newTokenIds : List Nat) (finishReason : Option FinishReason)
    (stopReason : Option (Int ⊕ String)) (kvTransferParams ecTransferParams : Option π.Params) :
    finishReason = none ∧ state.makeRequestOutput parents newTokenIds none finishReason stopReason
        kvTransferParams ecTransferParams = .ok (none, state, parents) ∨
    (finishReason = none → state.outputKind ≠ .finalOnly) ∧ ∃ completion after, Same state after ∧
      completion.index = state.requestIndex ∧ completion.finished = finishReason.isSome ∧
      ∀ outputs finished left,
        parent.getOutputs state.requestId completion = .ok ((outputs, finished), left) →
        state.makeRequestOutput parents newTokenIds none finishReason stopReason
          kvTransferParams ecTransferParams =
            .ok (if outputs.isEmpty then none else some (.completions left.externalReqId outputs
              finished kvTransferParams ecTransferParams), after, parents.insert id left) := by
  unfold makeRequestOutput
  dsimp only
  split
  · rename_i early
    left
    have open_ : finishReason = none := by
      cases finishReason
      · rfl
      · simp at early
    exact ⟨open_, rfl⟩
  · rename_i late
    have sends : finishReason = none → state.outputKind ≠ .finalOnly := by
      rintro rfl final
      simp [final] at late
    rcases state.intervalTokens_ok newTokenIds finishReason.isSome
      (fun none_ => by rw [none_] at processors; cases processors) with
      ⟨tokenIds, next, sent, same, kept⟩ | ⟨open_, sent⟩
    · right
      refine ⟨sends, ?_⟩
      rcases Option.isSome_iff_exists.mp processors with ⟨pair, both⟩
      have both' : next.processors = some pair := kept.trans both
      have ofParent : next.parentReq = some id := same.parentReq.trans child
      refine ⟨(next.newCompletionOutput pair.1 pair.2 tokenIds finishReason stopReason).1,
        { next with
          processors := some ((next.newCompletionOutput pair.1 pair.2 tokenIds finishReason
            stopReason).2, pair.2) }, ?_, same.requestIndex, newCompletionOutput_finished .., ?_⟩
      · exact ⟨same.1, same.2, same.3, same.4, same.5, by rw [both]; rfl, same.7, same.8, same.9,
          same.10⟩
      · intro outputs finished left got
        rw [← same.requestId] at got
        simp only [sent, bind, Except.bind, both', ofParent, Option.bind_some, there,
          Option.map_some, got]
        rfl
    · left
      have none_ : finishReason = none := by
        cases finishReason
        · rfl
        · cases open_
      simp only [sent, bind, Except.bind]
      exact ⟨none_, rfl⟩

/-- One output of a request without streamed input. -/
theorem OutputProcessor.processOutput_eq (processed : Processed ρ κ)
    (sound : Sound processed.processor) {output : EngineCoreOutput ρ}
    {known state left : RequestState ρ κ} {finishReason : Option FinishReason}
    {stopReason : Option (Int ⊕ String)} {report : Option (Report π)}
    (found : processed.processor.requestStates.get? output.requestId = some known)
    (whole : known.streamingInput = false)
    (taken : takeOutput known output = .ok (state, finishReason, stopReason))
    (same : Same known left)
    (made : state.makeRequestOutput processed.processor.parents output.newTokenIds
      output.poolingOutput finishReason stopReason output.kvTransferParams
        output.ecTransferParams = .ok (report, left, parents))
    (releases : Releases processed.processor.parents parents fun other =>
      finishReason.isSome ∧ other = output.requestId) :
    ∃ after, processOutput processed output = .ok after ∧ after.processor.parents = parents ∧
      after.reports = processed.reports ++ report.toList.map (fun report => (left.queue, report)) ∧
      ∀ other, after.processor.requestStates.get? other =
        if other = output.requestId then if finishReason.isSome then none else some left
        else processed.processor.requestStates.get? other := by
  have ready := sound.ready output.requestId known found
  have own : left.requestId = output.requestId := same.requestId.trans ready.own
  have whole' : left.streamingInput = false := same.streamingInput.trans whole
  have stored : ∀ other, (processed.processor.requestStates.insert output.requestId left).get? other =
      if other = output.requestId then some left
      else processed.processor.requestStates.get? other := by
    intro other
    rw [Dict.get?_insert]
    by_cases mine : output.requestId = other
    · simp [mine]
    · simp [mine, Ne.symm mine]
  have plain : ∀ report : Report π,
      (if left.streamingInput then report.unfinished else report) = report := by
    intro report
    rw [whole']
    rfl
  unfold processOutput
  simp only [found, taken, made, bind, Except.bind, plain, Option.map_id', own]
  split
  · rename_i finished
    have releases' : Releases processed.processor.parents parents
        fun other => other = output.requestId := releases.congr fun other => by simp [finished]
    rcases sound.finish found own same.externalReqId same.parentReq releases' with
      ⟨after, ended, -, states, heap, -⟩
    unfold freeCompleted
    simp only [whole', Bool.false_eq_true, if_false, ended, bind, Except.bind]
    refine ⟨_, rfl, heap, rfl, ?_⟩
    intro other
    simp only [states, Dict.get?_erase, stored]
    by_cases mine : other = output.requestId
    · simp [mine]
    · simp [mine, Ne.symm mine]
  · rename_i open_
    refine ⟨_, rfl, rfl, rfl, ?_⟩
    intro other
    exact stored other

/-! ## Counting the children -/

namespace Sampling

/-- The children that are served are those that are registered and not finished, the parent waits
for these only, and it has a completion of each of the others. -/
structure Counted (sampling : Sampling ρ κ) (id : String) (request : EngineCoreRequest ρ)
    (queue : Option κ) : Prop where
  sound : Sound sampling.frontEnd.processor
  fanning : sampling.frontEnd.Fanning
  fanOut : ∃ next ≤ request.samplingParams.n,
    sampling.frontEnd.fanOuts.get? id = some { request, queue, next }
  children : ∀ requestId, sampling.frontEnd.processor.Live requestId →
    ∃ index, requestId = .child index id
  states : ∀ index state,
    sampling.frontEnd.processor.requestStates.get? (.child index id) = some state →
      state.requestIndex = index ∧ state.outputKind = request.samplingParams.outputKind ∧
        state.processors.isSome
  parent : ∃ parent, sampling.frontEnd.processor.parents.get? id = some parent ∧
    parent.samplingParams = request.samplingParams ∧
    (∀ params, parent.cachedChildSamplingParams = some params →
      params.outputKind = request.samplingParams.outputKind) ∧
    (∀ requestId ∈ parent.childRequests, sampling.frontEnd.processor.Live requestId) ∧
    (request.samplingParams.outputKind = .finalOnly →
      parent.outputAggregator.length = request.samplingParams.n ∧
        ∀ index, sampling.Done id index → ∃ completion,
          parent.outputAggregator[index]? = some (some completion) ∧ completion.index = index ∧
            completion.finished = true)
  delivered : sampling.Delivered id request.samplingParams.n request.samplingParams.outputKind

variable {sampling : Sampling ρ κ} {id : String} {request : EngineCoreRequest ρ} {queue : Option κ}

variable {next index : Nat} {parent after : ParentRequest π} {reports : List (Option κ × Report π)}

theorem registered_eq (found : sampling.frontEnd.fanOuts.get? id = some { request, queue, next }) :
    sampling.registered id = next := by
  rw [registered, found]
  rfl

/-- At the start no child is registered. -/
theorem start_counted (streamInterval : Nat) (several : 0 < request.samplingParams.n)
    (processors : request.processors.isSome) (whole : request.resumable = false) :
    Counted (start streamInterval id request queue) id request queue := by
  have unknown : ∀ index, ¬ (start streamInterval id request queue).Done id index := by
    rintro index ⟨below, -⟩
    have none_ : (start streamInterval id request queue).registered id = 0 := by
      rw [registered, start, Dict.get?_insert_self]
      rfl
    rw [none_] at below
    exact Nat.not_lt_zero _ below
  have opened : Sound (start streamInterval id request queue).frontEnd.processor ∧
      (start streamInterval id request queue).frontEnd.Fanning :=
    FrontEnd.fanOut_ok (FrontEnd.start_sound streamInterval)
      (FrontEnd.start_fanning streamInterval) rfl (by rintro ⟨⟩) processors whole queue
  constructor
  · exact opened.1
  · exact opened.2
  · exact ⟨0, Nat.zero_le _, Dict.get?_insert_self ..⟩
  · rintro requestId ⟨⟩
  · rintro index state ⟨⟩
  · refine ⟨_, Dict.get?_insert_self .., rfl, ?_, ?_, ?_⟩
    · rintro params ⟨⟩
    · rintro requestId ⟨⟩
    · intro final
      constructor
      · change (if request.samplingParams.outputKind = .finalOnly then _ else _ : List _).length = _
        rw [if_pos final, List.length_replicate]
      · exact fun index done => absurd done (unknown index)
  · constructor
    · exact fun all => absurd (all 0 several) (unknown 0)
    · rintro - report ⟨⟩
    · rintro - report ⟨⟩
    · intro _ index
      exact ⟨fun done => absurd done (unknown index), fun _ => rfl⟩

theorem getChildInfo_kind {outputKind : RequestOutputKind}
    (kind : parent.samplingParams.outputKind = outputKind)
    (cached : ∀ params, parent.cachedChildSamplingParams = some params →
      params.outputKind = outputKind) (index : Nat) :
    (parent.getChildInfo index).1.2.outputKind = outputKind ∧
      ∀ params, (parent.getChildInfo index).2.cachedChildSamplingParams = some params →
        params.outputKind = outputKind := by
  rcases parent with ⟨name, externalReqId, params, children, outputs, known⟩
  cases known with
  | some params => exact ⟨cached params rfl, cached⟩
  | none =>
      rcases params with ⟨n, seed, kind', interval⟩
      cases seed with
      | none =>
          constructor
          · exact kind
          · rintro params ⟨⟩
            exact kind
      | some seed =>
          constructor
          · exact kind
          · rintro params ⟨⟩

/-- A new child is counted. -/
theorem Counted.grow (counted : Counted sampling id request queue) {frontEnd : FrontEnd ρ κ}
    {left : ParentRequest π} (child : RequestState ρ κ) (more : next < request.samplingParams.n)
    (found : sampling.frontEnd.fanOuts.get? id = some { request, queue, next })
    (there : sampling.frontEnd.processor.parents.get? id = some parent)
    (sound : Sound frontEnd.processor) (fanning : frontEnd.Fanning)
    (found' : frontEnd.fanOuts.get? id = some { request, queue, next := next + 1 })
    (there' : frontEnd.processor.parents.get? id = some left)
    (served : ∀ other, frontEnd.processor.requestStates.get? other =
      if other = .child next id then some child
      else sampling.frontEnd.processor.requestStates.get? other) (own : child.requestIndex = next)
    (kind : child.outputKind = request.samplingParams.outputKind)
    (processors : child.processors.isSome) (params : left.samplingParams = parent.samplingParams)
    (cached : ∀ params, left.cachedChildSamplingParams = some params →
      params.outputKind = request.samplingParams.outputKind)
    (outputs : left.outputAggregator = parent.outputAggregator)
    (children : left.childRequests = parent.childRequests ++ [.child next id]) :
    Counted { sampling with frontEnd } id request queue := by
  rcases counted.parent with ⟨parent', known, params', cached', waits, aggregated⟩
  rw [there] at known
  cases known
  have before := registered_eq found
  have after : registered { sampling with frontEnd } id = next + 1 := registered_eq found'
  have lives : ∀ other, frontEnd.processor.Live other ↔
      other = .child next id ∨ sampling.frontEnd.processor.Live other := by
    intro other
    rw [Live, served]
    split
    · rename_i same
      simp [same]
    · rename_i differ
      simp [differ, Live]
  have done : ∀ index, Done { sampling with frontEnd } id index ↔ sampling.Done id index := by
    intro index
    rw [Done, Done, before, after, lives, not_or]
    constructor
    · rintro ⟨below, new, dead⟩
      refine ⟨?_, dead⟩
      rcases Nat.lt_succ_iff_lt_or_eq.mp below with below | same
      · exact below
      · exact absurd (congrArg (fun index => RequestId.child index id) same) new
    · rintro ⟨below, dead⟩
      refine ⟨Nat.lt_succ_of_lt below, ?_, dead⟩
      intro same
      cases same
      exact Nat.lt_irrefl _ below
  have open_ : ¬ sampling.AllDone id request.samplingParams.n := by
    intro all
    have below := (all next more).1
    rw [before] at below
    exact Nat.lt_irrefl _ below
  constructor
  · exact sound
  · exact fanning
  · exact ⟨next + 1, more, found'⟩
  · intro other live
    rcases (lives other).mp live with rfl | live
    · exact ⟨next, rfl⟩
    · exact counted.children other live
  · intro index state stateFound
    rw [served] at stateFound
    split at stateFound
    · rename_i same
      cases stateFound
      cases same
      exact ⟨own, kind, processors⟩
    · exact counted.states index state stateFound
  · refine ⟨left, there', params.trans params', cached, ?_, ?_⟩
    · intro other member
      rw [children] at member
      rcases List.mem_append.mp member with member | member
      · exact (lives other).mpr (Or.inr (waits other member))
      · exact (lives other).mpr (Or.inl (List.mem_singleton.mp member))
    · intro final
      rw [outputs]
      refine ⟨(aggregated final).1, fun index done' => ?_⟩
      exact (aggregated final).2 index ((done index).mp done')
  · constructor
    · intro all
      exact absurd (fun index below => (done index).mp (all index below)) open_
    · exact fun _ => counted.delivered.notBefore open_
    · exact counted.delivered.whole
    · intro streaming index
      rw [done]
      exact counted.delivered.streamed streaming index

/-- The loop registers its next child. -/
theorem Counted.register (counted : Counted sampling id request queue) :
    ∃ next, sampling.perform id .register = .ok next ∧ Counted next id request queue := by
  rcases counted.fanOut with ⟨next, le, found⟩
  rcases counted.parent with ⟨parent, there, params, cached, waits, aggregated⟩
  rw [perform]
  by_cases more : next < request.samplingParams.n
  · have own := (counted.sound.typed id parent there).own
    have dead : ¬ sampling.frontEnd.processor.Live (.child next id) := fun live =>
      Nat.lt_irrefl _ (counted.fanning.next id _ found next live)
    have added := FrontEnd.addChild_eq found there more own dead
    have kept : ∀ parent, sampling.frontEnd.processor.parents.get? id = some parent →
        ∀ requestId ∈ parent.childRequests, sampling.frontEnd.processor.Live requestId := by
      intro parent' there'
      rw [there] at there'
      cases there'
      exact waits
    rcases FrontEnd.addChild_ok counted.sound counted.fanning kept with
      ⟨after, added', sound, fanning⟩
    rw [added] at added'
    cases added'
    rcases getChildInfo_kind (params ▸ rfl) cached next with ⟨kind, cached'⟩
    rcases parent.getChildInfo_spec next with ⟨-, -, -, params', outputs, children⟩
    rw [own, if_neg fun member => dead (waits _ member)] at children
    rw [added]
    refine ⟨_, rfl, ?_⟩
    apply counted.grow (fromNewRequest { request with
        requestId := .child next id
        samplingParams := (parent.getChildInfo next).1.2 }
      (some id) next queue sampling.frontEnd.processor.streamInterval) more found there sound fanning
      (Dict.get?_insert_self ..) (Dict.get?_insert_self ..) _ rfl kind
      (counted.fanning.request id _ found).1 params' cached' outputs children
    intro other
    rw [Dict.get?_insert]
    by_cases same : .child next id = other
    · simp [same]
    · simp [same, Ne.symm same]
  · have same : sampling.frontEnd.addChild id = .ok sampling.frontEnd := by
      unfold FrontEnd.addChild
      simp only [found, there, if_neg more]
      rfl
    rw [same]
    exact ⟨_, rfl, counted⟩

/-- The parent knows the children that are served. -/
theorem Counted.mem_children (counted : Counted sampling id request queue)
    (there : sampling.frontEnd.processor.parents.get? id = some parent) {other : RequestId} :
    other ∈ parent.childRequests ↔ sampling.frontEnd.processor.Live other := by
  constructor
  · rcases counted.parent with ⟨parent', known, -, -, waits, -⟩
    rw [there] at known
    cases known
    exact waits other
  · intro live
    rcases counted.children other live with ⟨index, rfl⟩
    rcases live.state with ⟨state, found⟩
    have ready := counted.sound.ready _ state found
    rcases ready.child id ready.parentReq with ⟨-, parent', known, member, -⟩
    rw [there] at known
    cases known
    exact member

/-- Not all is done while a child is served. -/
theorem Counted.not_allDone (counted : Counted sampling id request queue)
    (live : sampling.frontEnd.processor.Live (.child index id)) :
    ¬ sampling.AllDone id request.samplingParams.n := by
  rcases counted.fanOut with ⟨next, le, found⟩
  have below : index < next := counted.fanning.next id _ found index live
  intro all
  exact (all index (Nat.lt_of_lt_of_le below le)).2 live

/-- What an output leaves. -/
def advance (sampling : Sampling ρ κ) (processor : OutputProcessor ρ κ)
    (reports : List (Option κ × Report π)) : Sampling ρ κ where
  frontEnd := { sampling.frontEnd with processor }
  reports := sampling.reports ++ reports

theorem finals_append (reports fresh : List (Option κ × Report π)) (index : Nat) :
    finals (reports ++ fresh) index = finals reports index + finals fresh index := by
  rw [finals, finals, finals, List.flatMap_append, List.countP_append]

variable {processor : OutputProcessor ρ κ}

/-- An output that finishes no child. -/
theorem Counted.keep (counted : Counted sampling id request queue) {known left : RequestState ρ κ}
    (found : sampling.frontEnd.processor.requestStates.get? (.child index id) = some known)
    (there : sampling.frontEnd.processor.parents.get? id = some parent) (sound : Sound processor)
    (shrinks : Shrinks sampling.frontEnd.processor processor) (same : Same known left)
    (served : ∀ other, processor.requestStates.get? other =
      if other = .child index id then some left
      else sampling.frontEnd.processor.requestStates.get? other)
    (there' : processor.parents.get? id = some after)
    (params : after.samplingParams = parent.samplingParams)
    (cached : after.cachedChildSamplingParams = parent.cachedChildSamplingParams)
    (outputs : after.outputAggregator = parent.outputAggregator)
    (children : after.childRequests = parent.childRequests)
    (silent : request.samplingParams.outputKind = .finalOnly → reports = [])
    (open_ : ∀ report ∈ reports, report.2.finished = false ∧ ∀ completion ∈ report.2.outputs,
      ∀ other, completion = some other → other.finished = false) :
    Counted (sampling.advance processor reports) id request queue := by
  rcases counted.parent with ⟨parent', there'', params', cached', waits, aggregated⟩
  rw [there] at there''
  cases there''
  have lives : ∀ other, processor.Live other ↔ sampling.frontEnd.processor.Live other := by
    intro other
    rw [Live, served]
    split
    · rename_i mine
      rw [mine, Live, found]
      simp
    · rfl
  have done : ∀ other, Done (sampling.advance processor reports) id other ↔ sampling.Done id other := by
    intro other
    change other < sampling.registered id ∧ ¬ processor.Live _ ↔ _
    rw [lives]
    rfl
  have busy := counted.not_allDone (live_of_get? found)
  constructor
  · exact sound
  · exact counted.fanning.shrinks shrinks
  · exact counted.fanOut
  · intro other live
    exact counted.children other ((lives other).mp live)
  · intro other state stateFound
    change processor.requestStates.get? _ = _ at stateFound
    rw [served] at stateFound
    split at stateFound
    · rename_i mine
      cases mine
      cases stateFound
      rw [same.requestIndex, same.outputKind, same.processors]
      exact counted.states index known found
    · exact counted.states other state stateFound
  · refine ⟨after, there', params.trans params', ?_, ?_, ?_⟩
    · rw [cached]
      exact cached'
    · rw [children]
      exact fun other member => (lives other).mpr (waits other member)
    · intro final
      rw [outputs]
      refine ⟨(aggregated final).1, fun other done' => ?_⟩
      exact (aggregated final).2 other ((done other).mp done')
  · constructor
    · intro all
      exact absurd (fun other below => (done other).mp (all other below)) busy
    · intro _ report member
      rcases List.mem_append.mp member with member | member
      · exact counted.delivered.notBefore busy report member
      · exact (open_ report member).1
    · intro final
      rw [silent final, advance, List.append_nil]
      exact counted.delivered.whole final
    · intro streaming other
      have none_ : finals reports other = 0 := by
        rw [finals, List.countP_eq_zero]
        intro completion member
        rcases List.mem_flatMap.mp member with ⟨report, listed, member⟩
        cases completion with
        | none => simp
        | some completion =>
            simp [(open_ report listed).2 _ member completion rfl]
      rw [done, advance, finals_append, none_]
      exact counted.delivered.streamed streaming other

/-- An output that finishes a child while others are registered or all have been. -/
theorem Counted.finish (counted : Counted sampling id request queue) {known : RequestState ρ κ}
    {completion : CompletionOutput π}
    (found : sampling.frontEnd.processor.requestStates.get? (.child index id) = some known)
    (there : sampling.frontEnd.processor.parents.get? id = some parent) (sound : Sound processor)
    (shrinks : Shrinks sampling.frontEnd.processor processor)
    (served : ∀ other, processor.requestStates.get? other =
      if other = .child index id then none
      else sampling.frontEnd.processor.requestStates.get? other)
    (there' : processor.parents.get? id = some after)
    (params : after.samplingParams = parent.samplingParams)
    (cached : after.cachedChildSamplingParams = parent.cachedChildSamplingParams)
    (children : after.childRequests = parent.childRequests.filter (· ≠ .child index id))
    (own : completion.index = index) (finished : completion.finished = true)
    (spaced : sampling.registered id = request.samplingParams.n ∨
      ∃ other, other ≠ .child index id ∧ sampling.frontEnd.processor.Live other)
    (outputs : request.samplingParams.outputKind = .finalOnly →
      after.outputAggregator = parent.outputAggregator.set index (some completion) ∧
        if after.childRequests.isEmpty then ∃ report : Option κ × Report π, reports = [report] ∧
          report.2.finished = true ∧ report.2.outputs = after.outputAggregator
        else reports = []) (streamed : request.samplingParams.outputKind ≠ .finalOnly →
      ∃ report : Option κ × Report π, reports = [report] ∧
        report.2.finished = after.childRequests.isEmpty ∧ report.2.outputs = [some completion]) :
    Counted (sampling.advance processor reports) id request queue := by
  rcases counted.parent with ⟨parent', there'', params', cached', waits, aggregated⟩
  rw [there] at there''
  cases there''
  rcases counted.fanOut with ⟨next, le, fanOut⟩
  have registered := registered_eq fanOut
  have below : index < next := counted.fanning.next id _ fanOut index (live_of_get? found)
  have lives : ∀ other, processor.Live other ↔
      other ≠ .child index id ∧ sampling.frontEnd.processor.Live other := by
    intro other
    rw [Live, served]
    split
    · rename_i mine
      simp [mine]
    · rename_i differ
      simp [differ, Live]
  have done : ∀ other, Done (sampling.advance processor reports) id other ↔
        other = index ∨ sampling.Done id other := by
    intro other
    change other < sampling.registered id ∧ ¬ processor.Live _ ↔ _
    rw [Done, lives, registered]
    by_cases mine : other = index
    · subst mine
      simp [below]
    · simp [mine]
  have busy := counted.not_allDone (live_of_get? found)
  -- The last of the known children is the last of all.
  have last : after.childRequests.isEmpty = true ↔
      AllDone (sampling.advance processor reports) id request.samplingParams.n := by
    rw [List.isEmpty_iff, children, List.filter_eq_nil_iff]
    have alone : (∀ other ∈ parent.childRequests, ¬ decide (other ≠ .child index id) = true) ↔
        ∀ other, sampling.frontEnd.processor.Live other → other = .child index id := by
      simp only [counted.mem_children there, decide_eq_true_eq, not_not]
    rw [alone]
    constructor
    · intro only other less
      rcases spaced with all | ⟨another, differ, live⟩
      · rw [done]
        by_cases mine : other = index
        · exact Or.inl mine
        · refine Or.inr ⟨all ▸ less, fun live => mine ?_⟩
          have same := only _ live
          cases same
          rfl
      · exact absurd (only another live) differ
    · intro all other live
      rcases counted.children other live with ⟨place, rfl⟩
      have less : place < next := counted.fanning.next id _ fanOut place live
      rcases (done place).mp (all place (Nat.lt_of_lt_of_le less le)) with rfl | done'
      · rfl
      · exact absurd live done'.2
  constructor
  · exact sound
  · exact counted.fanning.shrinks shrinks
  · exact counted.fanOut
  · intro other live
    exact counted.children other ((lives other).mp live).2
  · intro other state stateFound
    change processor.requestStates.get? _ = _ at stateFound
    rw [served] at stateFound
    split at stateFound
    · cases stateFound
    · exact counted.states other state stateFound
  · refine ⟨after, there', params.trans params', ?_, ?_, ?_⟩
    · rw [cached]
      exact cached'
    · intro other member
      rw [children, List.mem_filter] at member
      exact (lives other).mpr ⟨of_decide_eq_true member.2, waits other member.1⟩
    · intro final
      rw [(outputs final).1, List.length_set]
      refine ⟨(aggregated final).1, fun other done' => ?_⟩
      have room : index < parent.outputAggregator.length := by
        rw [(aggregated final).1]
        exact Nat.lt_of_lt_of_le below le
      by_cases mine : other = index
      · subst mine
        exact ⟨completion, List.getElem?_set_self room, own, finished⟩
      · rw [List.getElem?_set_ne (Ne.symm mine)]
        exact (aggregated final).2 other (((done other).mp done').resolve_left mine)
  · have quiet : (sampling.reports.countP fun report => report.2.finished) = 0 := by
      rw [List.countP_eq_zero]
      intro report member finished'
      rw [counted.delivered.notBefore busy report member] at finished'
      cases finished'
    constructor
    · intro all
      have empty := last.mpr all
      rw [advance, List.countP_append, quiet]
      by_cases final : request.samplingParams.outputKind = .finalOnly
      · have outputs := (outputs final).2
        rw [if_pos empty] at outputs
        rcases outputs with ⟨report, rfl, finished', -⟩
        simp [finished']
      · rcases streamed final with ⟨report, rfl, finished', -⟩
        rw [empty] at finished'
        simp [finished']
    · intro not_ report member
      have some_ : after.childRequests.isEmpty = false :=
        Bool.eq_false_iff.mpr fun empty => not_ (last.mp empty)
      rcases List.mem_append.mp member with member | member
      · exact counted.delivered.notBefore busy report member
      · by_cases final : request.samplingParams.outputKind = .finalOnly
        · have outputs := (outputs final).2
          rw [some_] at outputs
          rw [outputs] at member
          cases member
        · rcases streamed final with ⟨report', rfl, finished', -⟩
          rw [List.mem_singleton.mp member, finished', some_]
    · intro final report member
      rcases List.mem_append.mp member with member | member
      · exact counted.delivered.whole final report member
      · have aggregated' := (outputs final).1
        have outputs := (outputs final).2
        split at outputs
        · rename_i empty
          rcases outputs with ⟨report', rfl, finished', whole⟩
          rw [List.mem_singleton.mp member, finished', whole, aggregated', List.length_set]
          refine ⟨rfl, (aggregated final).1, fun other less => ?_⟩
          have room : index < parent.outputAggregator.length := by
            rw [(aggregated final).1]
            exact Nat.lt_of_lt_of_le below le
          by_cases mine : other = index
          · subst mine
            exact ⟨completion, List.getElem?_set_self room, own, finished⟩
          · rw [List.getElem?_set_ne (Ne.symm mine)]
            exact (aggregated final).2 other
              (((done other).mp (last.mp empty other less)).resolve_left mine)
        · rw [outputs] at member
          cases member
    · intro streaming other
      rcases streamed streaming with ⟨report, rfl, -, outputs'⟩
      have fresh : finals [report] other = if other = index then 1 else 0 := by
        rw [finals, List.flatMap_singleton, outputs']
        by_cases mine : other = index
        · simp [mine, own, finished]
        · simp [mine, own, finished, Ne.symm mine]
      rw [done, advance, finals_append, fresh]
      rcases counted.delivered.streamed streaming other with ⟨one, none_⟩
      by_cases mine : other = index
      · subst mine
        have undone : ¬ sampling.Done id other := fun done' => done'.2 (live_of_get? found)
        simp [none_ undone]
      · simp only [mine, false_or, if_false, Nat.add_zero]
        exact ⟨one, none_⟩

/-- An output comes in. -/
theorem Counted.output (counted : Counted sampling id request queue) {output : EngineCoreOutput ρ}
    (spaced : sampling.Spaced id request.samplingParams.n (.output output)) :
    ∃ next, sampling.perform id (.output output) = .ok next ∧ Counted next id request queue := by
  rcases spaced with ⟨generated, spaced⟩
  rcases counted.parent with ⟨parent, there, params, -, -, aggregated⟩
  rw [perform]
  cases found : sampling.frontEnd.processor.requestStates.get? output.requestId with
  | none =>
      have passed : processOutput
          { processor := sampling.frontEnd.processor, reports := sampling.reports } output =
            .ok { processor := sampling.frontEnd.processor, reports := sampling.reports } := by
        unfold processOutput
        simp only [found]
        rfl
      rw [passed]
      exact ⟨_, rfl, counted⟩
  | some known =>
      rcases counted.children output.requestId (live_of_get? found) with ⟨index, mine⟩
      have found' := found
      rw [mine] at found'
      have ready := counted.sound.ready output.requestId known found
      have ofParent : known.parentReq = some id := by rw [ready.parentReq, mine]; rfl
      rcases ready.child id ofParent with ⟨whole, parent', there', member, room⟩
      rw [there] at there'
      cases there'
      rcases counted.states index known found' with ⟨place, kind, processors⟩
      have kinds : output.poolingOutput.isSome = known.processors.isNone := by
        rw [generated, ← Option.not_isSome, processors]
        rfl
      rcases takeOutput_ok known kinds with ⟨state, finishReason, stopReason, taken, same, -⟩
      have processors' : state.processors.isSome := same.processors.trans processors
      rcases processOutput_ok
        { processor := sampling.frontEnd.processor, reports := sampling.reports } counted.sound
        (fun state' here => by rw [found] at here; cases here; exact kinds) with
        ⟨processed, ran, sound, shrinks⟩
      rcases makeRequestOutput_ok (ready.same same) counted.sound.typed output.newTokenIds
        (kinds.trans (isNone_congr same.processors).symm) finishReason stopReason
        output.kvTransferParams output.ecTransferParams with
        ⟨report, left, parents, made, same', releases⟩
      rcases processOutput_eq
        { processor := sampling.frontEnd.processor, reports := sampling.reports } counted.sound
        found whole taken (same.trans same') made releases with
        ⟨processed', ran', heap, reported, served⟩
      rw [ran] at ran'
      cases ran'
      rw [generated] at made
      rw [ran]
      refine ⟨_, rfl, ?_⟩
      have advanced : Sampling.mk { sampling.frontEnd with processor := processed.processor }
          processed.reports = sampling.advance processed.processor
            (report.toList.map fun report => (left.queue, report)) := by
        rw [advance, ← reported]
      rw [advanced]
      rw [mine] at served
      have own : state.requestId = .child index id := by
        rw [same.requestId, ready.own, mine]
      rcases makeRequestOutput_child processors' (same.parentReq.trans ofParent) there
        output.newTokenIds finishReason stopReason output.kvTransferParams
        output.ecTransferParams with
        ⟨open_, quiet⟩ | ⟨sends, completion, after, -, at_, ends, hands⟩
      · rw [made] at quiet
        cases quiet
        rw [open_] at served
        exact counted.keep found' there sound shrinks (same.trans same') served
          (heap ▸ there) rfl rfl rfl rfl (fun _ => rfl) (by rintro report ⟨⟩)
      · have at' : completion.index = index := by rw [at_, same.requestIndex, place]
        have mem : state.requestId ∈ parent.childRequests := by
          rw [own, ← mine]
          exact member
        by_cases final : request.samplingParams.outputKind = .finalOnly
        · -- Only a final completion is handed to the parent.
          have finished : finishReason.isSome := by
            cases finishReason with
            | none => exact absurd ((same.outputKind.trans kind).trans final) (sends rfl)
            | some reason => rfl
          rw [finished] at ends
          have room' : completion.index < parent.outputAggregator.length := by
            rw [at_, same.requestIndex]
            exact room (params ▸ final)
          have result := hands _ _ _ (ParentRequest.getOutputs_final (params ▸ final) room')
          rw [made] at result
          cases result
          rw [finished] at served
          have heap' := congrArg (fun parents => parents.get? id) heap
          simp only [Dict.get?_insert_self] at heap'
          have children : parent.childrenAfter state.requestId completion =
              parent.childRequests.filter (· ≠ .child index id) := by
            rw [ParentRequest.childrenAfter, if_pos ends, own]
          apply counted.finish found' there sound shrinks served heap' rfl rfl children at' ends
          · rw [← mine]
            apply spaced
            rcases Option.isSome_iff_exists.mp finished with ⟨reason, rfl⟩
            exact ⟨known, state, reason, stopReason, found, taken⟩
          · intro _
            refine ⟨by rw [at'], ?_⟩
            split
            · rename_i empty
              have some_ : (parent.outputAggregator.set completion.index
                  (some completion)).isEmpty = false := by
                rw [Bool.eq_false_iff]
                intro none_
                have length := congrArg List.length (List.isEmpty_iff.mp none_)
                rw [List.length_set] at length
                rw [length] at room'
                exact Nat.not_lt_zero _ room'
              refine ⟨_, by simp only [some_]; rfl, ?_, ?_⟩
              · simp only [Report.finished, empty]
              · rfl
            · simp
          · exact fun streaming => absurd final streaming
        · have streaming : parent.samplingParams.outputKind ≠ .finalOnly := params ▸ final
          have result := hands _ _ _ (ParentRequest.getOutputs_streamed streaming mem)
          rw [made] at result
          cases result
          have heap' := congrArg (fun parents => parents.get? id) heap
          simp only [Dict.get?_insert_self] at heap'
          cases finishReason with
          | none =>
              have children : parent.childrenAfter state.requestId completion =
                  parent.childRequests := by
                rw [ParentRequest.childrenAfter, ends]
                rfl
              have some_ : parent.childRequests.isEmpty = false := by
                rw [Bool.eq_false_iff]
                intro none_
                rw [List.isEmpty_iff.mp none_] at mem
                cases mem
              apply counted.keep found' there sound shrinks (same.trans same') served heap' rfl rfl
                rfl children (fun final' => absurd final' final)
              intro report member
              rw [List.mem_singleton.mp member]
              constructor
              · simp only [Report.finished, children, some_]
              · intro other listed another is
                rw [List.mem_singleton.mp listed] at is
                cases is
                exact ends
          | some reason =>
              rw [Option.isSome_some] at ends
              have children : parent.childrenAfter state.requestId completion =
                  parent.childRequests.filter (· ≠ .child index id) := by
                rw [ParentRequest.childrenAfter, if_pos ends, own]
              apply counted.finish found' there sound shrinks served heap' rfl rfl children at' ends
              · rw [← mine]
                exact spaced ⟨known, state, reason, stopReason, found, taken⟩
              · exact fun final' => absurd final' final
              · intro _
                exact ⟨_, rfl, rfl, rfl⟩

/-- In every run that registers each child while another is unfinished, the parent is reported once,
after all children, with nothing missing; and every such event is taken. -/
theorem reachable_delivered {streamInterval : Nat} (several : 1 < request.samplingParams.n)
    (processors : request.processors.isSome) (whole : request.resumable = false)
    (reached : Reachable (system streamInterval id request queue) sampling) :
    sampling.Delivered id request.samplingParams.n request.samplingParams.outputKind ∧
      ∀ event, sampling.Spaced id request.samplingParams.n event →
        ∃ next, sampling.perform id event = .ok next := by
  have step : ∀ {sampling : Sampling ρ κ} {event : SamplingEvent ρ},
      Counted sampling id request queue → sampling.Spaced id request.samplingParams.n event →
        ∃ next, sampling.perform id event = .ok next ∧ Counted next id request queue := by
    intro sampling event counted spaced
    cases event with
    | register => exact counted.register
    | output output => exact counted.output spaced
  have counted : Counted sampling id request queue := by
    apply Reachable.invariant _ _ reached
    · rintro _ rfl
      exact start_counted streamInterval (Nat.lt_trans Nat.zero_lt_one several) processors whole
    · rintro state next counted ⟨event, spaced, performed⟩
      rcases step counted spaced with ⟨next', performed', counted'⟩
      rw [performed] at performed'
      cases performed'
      exact counted'
  refine ⟨counted.delivered, fun event spaced => ?_⟩
  rcases step counted spaced with ⟨next, performed, -⟩
  exact ⟨next, performed⟩

/-! ## A child that is too quick -/

/-- A request for two completions that are reported together. -/
def finalPair : EngineCoreRequest blankProcessing where
  requestId := .request "r-1"
  externalReqId := "r"
  samplingParams := { n := 2, outputKind := .finalOnly }
  processors := some ([], ())

/-- The last output of a child. -/
def lastOutput (index : Nat) : EngineCoreOutput blankProcessing where
  requestId := .child index "r-1"
  newTokenIds := [index]
  finishReason := some .stop

/-- The first child finishes before the second one is registered. -/
def quickChild : List (SamplingEvent blankProcessing) :=
  [.register, .output (lastOutput 0), .register, .output (lastOutput 1)]

/-- The parent is reported finished twice, first without its second completion. -/
theorem quickChild_truncates :
    ∃ sampling : Sampling blankProcessing Unit,
      quickChild.foldlM (perform "r-1") (start 1 "r-1" finalPair (some ())) = .ok sampling ∧
        (sampling.reports.countP fun report => report.2.finished) = 2 ∧
        ¬ sampling.Delivered "r-1" 2 .finalOnly := by
  have reported : ((quickChild.foldlM (perform "r-1")
      (start 1 "r-1" finalPair (some ()))).map fun sampling => sampling.reports.map
        fun report => (report.2.finished, report.2.outputs.map Option.isSome)) =
      .ok [(true, [true, false]), (true, [true, true])] := by
    decide +kernel
  cases ran : quickChild.foldlM (perform "r-1") (start 1 "r-1" finalPair (some ())) with
  | error raised =>
      rw [ran] at reported
      cases reported
  | ok sampling =>
      rw [ran] at reported
      simp only [Except.map, Except.ok.injEq] at reported
      rcases List.map_eq_cons_iff.mp reported with ⟨first, rest, reports, hole, reported'⟩
      rcases List.map_eq_cons_iff.mp reported' with ⟨second, rest', rfl, full, reported''⟩
      cases List.map_eq_nil_iff.mp reported''
      simp only [Prod.mk.injEq] at hole full
      refine ⟨sampling, rfl, ?_, ?_⟩
      · simp [reports, hole.1, full.1]
      · intro delivered
        have member : first ∈ sampling.reports := by
          rw [reports]
          exact List.mem_cons_self
        rcases (delivered.whole rfl first member).2.2 1 (by decide) with ⟨completion, second', -⟩
        have missing := congrArg (fun outputs : List Bool => outputs[1]?) hole.2
        rw [List.getElem?_map, second'] at missing
        cases missing

/-- Both children are registered before one of them finishes. -/
def patientChildren : List (SamplingEvent blankProcessing) :=
  [.register, .register, .output (lastOutput 0), .output (lastOutput 1)]

/-- The law at a request whose children are registered first. -/
theorem patientChildren_delivered :
    ∃ sampling : Sampling blankProcessing Unit,
      patientChildren.foldlM (perform "r-1") (start 1 "r-1" finalPair (some ())) = .ok sampling ∧
        sampling.Delivered "r-1" 2 .finalOnly := by
  refine ⟨_, rfl, ?_⟩
  have started : Reachable (system 1 "r-1" finalPair (some ()))
      (start 1 "r-1" finalPair (some ())) := .start rfl
  have first := started.step ⟨.register, trivial, rfl⟩
  have second := first.step ⟨.register, trivial, rfl⟩
  have third := second.step ⟨.output (lastOutput 0), ⟨rfl, fun _ => Or.inl rfl⟩, rfl⟩
  have fourth := third.step ⟨.output (lastOutput 1), ⟨rfl, fun _ => Or.inl rfl⟩, rfl⟩
  exact (reachable_delivered (by decide) rfl rfl fourth).1

end Sampling

end Vllm.Engine
